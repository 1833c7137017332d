import ConnectionPool.Pool.Dispatch

namespace ConnectionPool.Work

def keep (m : Moment) (r : Record) (c : Conn) (validFor : Option Span) (w : Work) : Work :=
  let r := r.released m.now (validFor.or (w.pool.policy.keepalive.map Span.ms))
  let mark : Mark := { id := r.id, route := r.route, released := m.now }
  (w.note (.keep r.id r.route)).change fun p =>
    { p.updateLane r.route (Lane.put { record := r, conn := c }) with idle := p.idle.add mark }

/-- Takes a leased connection back.  It is kept if it may be reused, is open and there is room for
it, since the limits may have come down while it was out; otherwise it is closed. -/
def takeBack (m : Moment) (r : Record) (c : Conn) (reusable : Bool) (validFor : Option Span)
    (w : Work) : Option Failure × Work :=
  if w.pool.isShut then (none, w.close c)
  else
    match w.pool.unlease? r with
    | none =>
      let context := s!"connection {r.id.text} is not leased from this pool"
      (some (Failure.explain .invalidArgument context).toCaller, w.close c)
    | some p =>
      let w := { w with pool := p }
      let full :=
        p.limits.forRoute r.route ≤ (p.lane r.route).allocated || p.limits.total ≤ p.allocated
      let w := if reusable && !full then w.report [.askedOpen c] else w
      let w :=
        if reusable && !full && m.isOpen c then w.keep m r c validFor
        else if full then (w.note (.closeOverLimit r.id r.route)).close c
        else (w.note (.closeReleased r.id r.route)).close c
      (none, (w.dispatch m (some r.route)).change (Pool.prune r.route))

def vacate (m : Moment) (r : Record) (w : Work) : Work :=
  match w.pool.unlease? r with
  | some p => ({ w with pool := p }.dispatch m (some r.route)).change (Pool.prune r.route)
  | none => w

end ConnectionPool.Work
