import ConnectionPool.Pool.Return

namespace ConnectionPool

inductive Collected
  | pending
  | granted (grant : Grant)
  | failed (failure : Failure)

namespace Work

/-- Asks for a connection of a route.  A request never overtakes those that wait for the route. -/
def lease (m : Moment) (route : Route) (w : Work) : Except Failure RequestId × Work :=
  if w.pool.isShut then (.error (.internally .poolClosed "connection pool is shut down"), w)
  else
    let id : RequestId := ⟨w.pool.lastRequest + 1⟩
    let w := w.change ({ · with lastRequest := id.number })
    let (grant, w) := if (w.pool.lane route).queue = [] then w.provide m route else (none, w)
    let (outcome, w) : Outcome × Work :=
      match grant with
      | some g => (.granted g, w)
      | none => (.pending, (w.note (.queue id route)).change (Pool.enqueue id route))
    (.ok id, w.change fun p => { p with requests := p.requests.put id { route, outcome } })

def cancel (id : RequestId) (w : Work) : Bool × Work :=
  match w.pool.requests.get? id with
  | some s =>
    if s.isPending then
      let w := w.change fun p => { p with requests := p.requests.put id (s.refuse .cancelled) }
      (true, (w.note (.cancelled id)).change (Pool.withdraw id))
    else (false, w)
  | none => (false, w)

def forget (m : Moment) (id : RequestId) (w : Work) : Work :=
  match w.pool.requests.get? id with
  | none => w
  | some s =>
    let w := w.change fun p => { p with requests := p.requests.remove id }
    match s.outcome with
    | .pending => (w.note (.dropPending id)).change (Pool.withdraw id)
    | .granted (.reuse e) =>
      ((w.note (.dropReuse id e.record.id)).putBack e).dispatch m (some e.record.route)
    | .granted (.create r) => (w.note (.dropReserved id r.id)).vacate m r
    | .failed _ => w

end Work

namespace Pool

def collect (id : RequestId) (p : Pool) : Collected × Pool :=
  match p.requests.get? id with
  | none => (.failed (.internally .internalError "lease request already completed"), p)
  | some s =>
    let rest := { p with requests := p.requests.remove id }
    match s.outcome with
    | .pending => (.pending, p)
    | .granted g => (.granted g, rest)
    | .failed r => (.failed (r.failure s.route), rest)

def timeOut (id : RequestId) (p : Pool) : Failure × Pool :=
  let context :=
    match p.requests.get? id with
    | some s => s!"timeout waiting for a connection to {s.route.text}"
    | none => "timeout waiting for a connection"
  let p := p.withdraw id
  (.internally .poolTimeout context, { p with requests := p.requests.remove id })

end Pool

end ConnectionPool
