import ConnectionPool.Pool.Admission

namespace ConnectionPool.Work

def putBack (e : Idle) (w : Work) : Work :=
  match w.pool.unlease? e.record with
  | none => w.close e.conn
  | some p =>
    let mark : Mark := { id := e.record.id, route := e.record.route, released := e.record.updated }
    let p := p.updateLane e.record.route (Lane.reinsert e)
    { w with pool := { p with idle := p.idle.reinsert mark } }

def grant (id : RequestId) (g : Grant) (w : Work) : Work :=
  let w := w.change (Pool.withdraw id)
  match w.pool.requests.get? id with
  | some s => w.change fun p => { p with requests := p.requests.put id (s.grant g) }
  | none =>
    let w := w.note (.requestGone id)
    match g with
    | .reuse e => w.putBack e
    | .create r => w.change fun p => ((p.unlease? r).getD p).prune r.route

def serve (m : Moment) (route : Route) : (n : Nat) → Work → Work
  | 0, w => w
  | n + 1, w =>
    match (w.pool.lane route).queue with
    | [] => w
    | id :: _ =>
      match w.provide m route with
      | (some g, w) => serve m route n (w.grant id g)
      | (none, w) => w

/-- Serves requests in the order given.  A route is passed over once it could not be served, since
the requests behind the first of its queue could not be either. -/
def serveAll (m : Moment) : (blocked : List Route) → List (RequestId × Route) → Work → Work
  | _, [], w => w
  | blocked, (id, route) :: rest, w =>
    if route ∈ blocked then serveAll m blocked rest w
    else
      match w.provide m route with
      | (some g, w) => serveAll m blocked rest (w.grant id g)
      | (none, w) => serveAll m (route :: blocked) rest w

/-- Serves the queue of the route `first`, so that what came free on a route goes to a request of
that route, and then all others in the order of arrival. -/
def dispatch (m : Moment) (first : Option Route) (w : Work) : Work :=
  let w :=
    match first with
    | some r => w.serve m r (w.pool.lane r).queue.length
    | none => w
  w.serveAll m first.toList w.pool.waiting

end ConnectionPool.Work
