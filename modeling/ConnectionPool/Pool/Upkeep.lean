import ConnectionPool.Pool.Dispatch

namespace ConnectionPool.Work

def sweepRoute (p : Idle → Bool) (route : Route) (w : Work) : Work :=
  let (swept, kept) := (w.pool.lane route).available.partition p
  let w := w.change fun q =>
    { q.updateLane route ({ · with available := kept }) with
      idle := swept.foldl (fun r e => r.drop e.record.id) q.idle }
  { w with closing := w.closing ++ swept.map Idle.conn }

def closeExpired (m : Moment) (w : Work) : Work :=
  let swept := w.pool.lanes.keys.foldl (fun w r => w.sweepRoute (·.record.isExpired m.now) r) w
  let swept := swept.change Pool.pruneAll
  let count := swept.closing.length - w.closing.length
  if count = 0 then swept else (swept.note (.closeExpired count)).dispatch m none

/-- Closes connections from the oldest on, up to the first that has not been idle for the span.
Answers how many were closed. -/
def closeOldest (now : Instant) (span : Span) : List Mark → Work → Nat × Work
  | [], w => (0, w)
  | oldest :: rest, w =>
    if span.hasPassed oldest.released now then
      let w := w.change fun p => { p with idle := p.idle.drop oldest.id }
      match (w.pool.lane oldest.route).take? oldest.id with
      | some (e, lane) =>
        let (n, w) := closeOldest now span rest
          ((w.change fun p => (p.setLane oldest.route lane).prune oldest.route).close e.conn)
        (n + 1, w)
      | none => closeOldest now span rest (w.change (Pool.prune oldest.route))
    else (0, w)

def closeIdle (m : Moment) (span : Span) (w : Work) : Work :=
  let (count, w) := w.closeOldest m.now span w.pool.idle
  if count = 0 then w else (w.note (.closeIdle count span)).dispatch m none

/-- Closes what is idle, refuses what waits and takes back what was granted and not collected.
Answers how many connections are closed by it. -/
def shutDown (w : Work) : Nat × Work :=
  if w.pool.isShut then (0, w)
  else
    let held := w.pool.requests.filterMap (·.2.held)
    let idle := w.pool.lanes.flatMap fun l => l.2.available.map Idle.conn
    let w := w.change fun p =>
      { p with
        isShut := true
        requests := p.requests.map fun (id, s) => (id, s.revoke)
        lanes := []
        waiting := []
        idle := []
        leased := 0 }
    ((held ++ idle).length, { w with closing := w.closing ++ held ++ idle })

end ConnectionPool.Work
