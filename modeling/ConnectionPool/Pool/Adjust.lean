import ConnectionPool.Pool.Dispatch

namespace ConnectionPool.Work

def shrinkLane (route : Route) (max : Nat) : (n : Nat) → Work → Work
  | 0, w => w
  | n + 1, w =>
    let lane := w.pool.lane route
    match lane.available.getLast? with
    | some e =>
      if max < lane.allocated then
        let w := w.change fun p =>
          { p.setLane route { lane with available := lane.available.dropLast } with
            idle := p.idle.drop e.record.id }
        shrinkLane route max n (w.close e.conn)
      else w
    | none => w

def shrinkRoute (max : Nat) (route : Route) (w : Work) : Work :=
  (w.shrinkLane route max (w.pool.lane route).available.length).change (Pool.prune route)

def shrinkTotal : (n : Nat) → Work → Work
  | 0, w => w
  | n + 1, w =>
    if w.pool.limits.total < w.pool.allocated then
      match w.evict with
      | (some e, w) => shrinkTotal n (w.close e.conn)
      | (none, w) => w
    else w

def mustBePositive (what : String) : Option Failure :=
  some (Failure.explain .invalidArgument s!"{what} must be positive").toCaller

def changeLimits (f : Limits → Limits) (w : Work) : Work :=
  w.change fun p => { p with limits := f p.limits }

def setMaxTotal (m : Moment) (max : Nat) (w : Work) : Option Failure × Work :=
  if max = 0 then (mustBePositive "max_total", w)
  else
    let w := w.changeLimits ({ · with total := max })
    (none, (w.shrinkTotal w.pool.idle.length).dispatch m none)

def setDefaultMax (m : Moment) (max : Nat) (w : Work) : Option Failure × Work :=
  if max = 0 then (mustBePositive "default_max_per_route", w)
  else
    let w := w.changeLimits ({ · with perRoute := max })
    let routes := w.pool.lanes.keys.filter (!w.pool.limits.overrides.has ·)
    (none, (routes.foldl (fun w r => w.shrinkRoute max r) w).dispatch m none)

def setMaxFor (m : Moment) (route : Route) (max : Nat) (w : Work) : Option Failure × Work :=
  if max = 0 then (mustBePositive s!"max for route {route.text}", w)
  else
    let w := w.changeLimits fun l => { l with overrides := l.overrides.put route max }
    (none, (w.shrinkRoute max route).dispatch m (some route))

end ConnectionPool.Work
