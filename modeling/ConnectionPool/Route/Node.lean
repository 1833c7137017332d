import ConnectionPool.Route
import ConnectionPool.Yaml.Decoder

namespace ConnectionPool

open Yaml

def Scheme.decode : Decoder Scheme := Decoder.oneOf Scheme.ofName?

def Host.toNode (h : Host) : Node :=
  .record [("hostname", .ofText h.hostname), ("port", .ofNat h.port),
    ("scheme", .ofText h.scheme.name)]

def Host.decode : Decoder Host := fun n => do
  let fs ← Decoder.fields ["hostname", "port", "scheme"] n
  let name ← Decoder.field fs "hostname" Decoder.text
  let port ← Decoder.field? fs "port" (Decoder.optional (Decoder.natural (Nat.pow 2 16)))
  let scheme ← Decoder.field? fs "scheme" Scheme.decode
  pure (Host.make name (port.getD none) (scheme.getD .http))

def Route.toNode (r : Route) : Node :=
  .record [("target", r.target.toNode), ("proxies", .list (r.proxies.map Host.toNode)),
    ("secure", .ofBool r.secure)]

def Route.decode : Decoder Route := fun n => do
  let fs ← Decoder.fields ["target", "proxies", "secure"] n
  let target ← Decoder.field fs "target" Host.decode
  let proxies ← Decoder.field? fs "proxies" (Decoder.list Host.decode)
  let secure ← Decoder.field? fs "secure" Decoder.bool
  pure { target, proxies := proxies.getD [], secure := secure.getD false }

def Route.ofYaml (text : String) (f : Format := .standard) : Except Fault Route :=
  Route.decode.ofText f text

end ConnectionPool
