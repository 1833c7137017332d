import ConnectionPool.Route
import ConnectionPool.Text.Literal

namespace ConnectionPool

def Scheme.literal : Scheme → String
  | .http => "Http"
  | .https => "Https"

def Host.literal (h : Host) : String :=
  Literal.record "Host" [
    ("hostname", Literal.text h.hostname), ("port", toString h.port),
    ("scheme", h.scheme.literal)]

def Route.literal (r : Route) : String :=
  Literal.record "Route" [
    ("target", r.target.literal), ("proxies", Literal.list (r.proxies.map Host.literal)),
    ("secure", if r.secure then "true" else "false")]

end ConnectionPool
