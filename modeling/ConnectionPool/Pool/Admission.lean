import ConnectionPool.Pool.Work

namespace ConnectionPool

inductive Verdict
  | usable
  | expired
  | closed
  | stale
  deriving DecidableEq

namespace Idle

def isDue (e : Idle) (now : Instant) (validateAfter : Option Nat) : Bool :=
  validateAfter.all (· ≤ now - e.record.updated)

def verdict (m : Moment) (validateAfter : Option Nat) (e : Idle) : Verdict :=
  if e.record.isExpired m.now then .expired
  else if !m.isOpen e.conn then .closed
  else if e.isDue m.now validateAfter && m.isStale.any (· e.conn) then .stale
  else .usable

def isFit (m : Moment) (validateAfter : Option Nat) (e : Idle) : Bool :=
  e.verdict m validateAfter = .usable

def inspection (m : Moment) (validateAfter : Option Nat) (e : Idle) : List Report :=
  let open? := Report.askedOpen e.conn
  let stale? :=
    if e.isDue m.now validateAfter && m.isStale.isSome then [Report.askedStale e.conn m.now] else []
  match e.verdict m validateAfter with
  | .expired => [.noted (.idleExpired e.record.id)]
  | .closed => [open?, .noted (.idleClosed e.record.id)]
  | .stale => open? :: stale? ++ [.noted (.idleStale e.record.id)]
  | .usable => open? :: stale?

end Idle

namespace Work

/-- Takes the first usable connection out of those at hand, which are the available ones of the
route, and closes the unusable ones before it. -/
def reuse (m : Moment) (route : Route) : List Idle → Work → Option Idle × Work
  | [], w => (none, w)
  | e :: rest, w =>
    let w := w.change fun p =>
      { p.updateLane route ({ · with available := rest }) with idle := p.idle.drop e.record.id }
    let w := w.report (e.inspection m w.pool.policy.validateAfter)
    if e.isFit m w.pool.policy.validateAfter then
      (some e, (w.note (.reuse e.record.id route)).change (Pool.lease e.record))
    else reuse m route rest ((w.note (.closeInvalid e.record.id route)).close e.conn)

def evict (w : Work) : Option Idle × Work :=
  match w.pool.idle with
  | [] => (none, w)
  | oldest :: rest =>
    let w := w.change ({ · with idle := rest })
    match (w.pool.lane oldest.route).take? oldest.id with
    | some (e, lane) =>
      (some e, w.change fun p => (p.setLane oldest.route lane).prune oldest.route)
    | none =>
      (none, (w.change (Pool.prune oldest.route)).note (.strayIdle oldest.id oldest.route))

/-- Evicts connections for a route until the pool is below its limit, and answers whether it is.
At most `n` are evicted. -/
def makeRoom (route : Route) : (n : Nat) → Work → Bool × Work
  | n, w =>
    if w.pool.allocated < w.pool.limits.total then (true, w)
    else
      match n, w.evict with
      | n + 1, (some e, w) =>
        makeRoom route n ((w.note (.evict e.record.id e.record.route route)).close e.conn)
      | _, (_, w) => (false, w)

def reserve (m : Moment) (route : Route) (w : Work) : Record × Work :=
  let id : EntryId := ⟨w.pool.lastEntry + 1⟩
  let r := Record.fresh id route m.now w.pool.policy.timeToLive
  let w := w.change ({ · with lastEntry := id.number })
  (r, (w.note (.reserve id route)).change (Pool.lease r))

def seek (m : Moment) (route : Route) (w : Work) : Option Grant × Work :=
  match w.reuse m route (w.pool.lane route).available with
  | (some e, w) => (some (.reuse e), w)
  | (none, w) =>
    let max := w.pool.limits.forRoute route
    if max ≤ (w.pool.lane route).allocated then (none, w.note (.atLimit route max))
    else
      match w.makeRoom route w.pool.idle.length with
      | (true, w) =>
        let (r, w) := w.reserve m route
        (some (.create r), w)
      | (false, w) => (none, w)

def provide (m : Moment) (route : Route) (w : Work) : Option Grant × Work :=
  (w.change (Pool.openLane route)).seek m route

end Work

end ConnectionPool
