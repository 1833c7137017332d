import ConnectionPool.Conf
import ConnectionPool.Route.Node

namespace ConnectionPool

open Yaml

def Conf.bound : Nat := Nat.pow 2 64

def RouteLimit.toNode (l : RouteLimit) : Node :=
  .record [("route", l.route.toNode), ("max", .ofNat l.max)]

def RouteLimit.decode : Decoder RouteLimit := fun n => do
  let fs ← Decoder.fields ["route", "max"] n
  let route ← Decoder.field fs "route" Route.decode
  let max ← Decoder.field fs "max" (Decoder.natural Conf.bound)
  pure { route, max }

namespace Conf

def toNode (c : Conf) : Node :=
  .record [
    ("version", .ofNat c.version),
    ("max_total", .ofNat c.maxTotal),
    ("default_max_per_route", .ofNat c.defaultMaxPerRoute),
    ("per_route", .list (c.perRoute.map RouteLimit.toNode)),
    ("time_to_live_ms", .ofOption .ofNat c.timeToLive),
    ("default_keepalive_ms", .ofOption .ofNat c.defaultKeepalive),
    ("validate_after_inactivity_ms", .ofOption .ofNat c.validateAfterInactivity)]

def decode : Decoder Conf := fun n => do
  let fs ← Decoder.fields
    ["version", "max_total", "default_max_per_route", "per_route", "time_to_live_ms",
      "default_keepalive_ms", "validate_after_inactivity_ms"] n
  let number := Decoder.natural bound
  let d : Conf := {}
  let version ← Decoder.field? fs "version" number
  let maxTotal ← Decoder.field? fs "max_total" number
  let defaultMaxPerRoute ← Decoder.field? fs "default_max_per_route" number
  let perRoute ← Decoder.field? fs "per_route" (Decoder.list RouteLimit.decode)
  let timeToLive ← Decoder.field? fs "time_to_live_ms" (Decoder.optional number)
  let defaultKeepalive ← Decoder.field? fs "default_keepalive_ms" (Decoder.optional number)
  let validateAfter ← Decoder.field? fs "validate_after_inactivity_ms" (Decoder.optional number)
  pure {
    version := version.getD d.version
    maxTotal := maxTotal.getD d.maxTotal
    defaultMaxPerRoute := defaultMaxPerRoute.getD d.defaultMaxPerRoute
    perRoute := perRoute.getD d.perRoute
    timeToLive := timeToLive.getD d.timeToLive
    defaultKeepalive := defaultKeepalive.getD d.defaultKeepalive
    validateAfterInactivity := validateAfter.getD d.validateAfterInactivity }

def toYaml (c : Conf) (f : Format := .standard) : String := f.print c.toNode

def parse (text : String) (f : Format := .standard) : Except Failure Conf :=
  match Conf.decode.ofText f text with
  | .ok c => .ok c
  | .error fault =>
    .error (.foreign
      { kind := .readError, context := some ("Unable to parse yaml conf " ++ text) } fault.text)

def ofYaml (text : String) (f : Format := .standard) : Except Failure Conf := do
  let c ← parse text f
  c.validate

def load (path : String) (content : Option ByteArray) (f : Format := .standard) :
    Except Failure Conf :=
  match content.bind String.fromUTF8? with
  | some text => ofYaml text f
  | none =>
    .error (.foreign
      { kind := .readError, context := some ("Unable to read conf file from " ++ path) }
      (if content.isSome then "stream did not contain valid UTF-8" else "cannot open file"))

end Conf

end ConnectionPool
