import ConnectionPool.Conf
import ConnectionPool.Route.Literal

namespace ConnectionPool

def RouteLimit.literal (l : RouteLimit) : String :=
  Literal.record "RouteLimit" [("route", l.route.literal), ("max", toString l.max)]

def Conf.literal (c : Conf) : String :=
  let time (t : Option Nat) : String := Literal.option (t.map toString)
  Literal.record "PoolConf" [
    ("version", toString c.version),
    ("max_total", toString c.maxTotal),
    ("default_max_per_route", toString c.defaultMaxPerRoute),
    ("per_route", Literal.list (c.perRoute.map RouteLimit.literal)),
    ("time_to_live_ms", time c.timeToLive),
    ("default_keepalive_ms", time c.defaultKeepalive),
    ("validate_after_inactivity_ms", time c.validateAfterInactivity)]

end ConnectionPool
