import ConnectionPool.Pool.Adjust
import ConnectionPool.Pool.Lease
import ConnectionPool.Pool.Upkeep

/-! A pool together with all that its callers hold of it: lease requests, slots whose connections
are being created, and leased connections.  Each operation is a turn, which says what came of it. -/

namespace ConnectionPool

structure Ticket where
  route : Route
  deadline : Option Instant
  deriving DecidableEq

structure Tenancy where
  pool : Pool
  tickets : Table RequestId Ticket := []
  /-- The slots whose connections are being created. -/
  creating : List Record := []
  entries : Table EntryId Entry := []
  deriving DecidableEq

/-- An operation on a pool: its answer, what it leaves behind, and what showed outside, which is
first what the pool reported, then the connections that it closed, then notices on the whole. -/
structure Turn (α : Type) where
  answer : α
  tenancy : Tenancy
  reports : List Report := []
  closed : List Conn := []
  afterwards : List Notice := []

namespace Turn

def reply (b : β) (t : Turn α) : Turn β :=
  { answer := b, tenancy := t.tenancy, reports := t.reports, closed := t.closed,
    afterwards := t.afterwards }

end Turn

namespace Tenancy

def turn (t : Tenancy) (work : Work → α × Work) : Turn α :=
  let (answer, w) := work { pool := t.pool }
  { answer, tenancy := { t with pool := w.pool }, reports := w.reports, closed := w.closing }

def isHeld (t : Tenancy) : Bool := !t.tickets.isEmpty || !t.creating.isEmpty

def lease (m : Moment) (route : Route) (timeout : Option Span) (t : Tenancy) :
    Turn (Except Failure RequestId) :=
  let turn := t.turn (Work.lease m route)
  match turn.answer with
  | .ok id =>
    let ticket : Ticket := { route, deadline := timeout.bind (Span.after m.now) }
    { turn with tenancy.tickets := turn.tenancy.tickets.put id ticket }
  | .error _ => turn

def collect (id : RequestId) (t : Tenancy) : Turn Collected :=
  let (answer, pool) := t.pool.collect id
  let t := { t with pool }
  match answer with
  | .granted (.reuse e) =>
    let entry : Entry := { record := e.record, conn := e.conn, reused := true }
    { answer, tenancy := { t with entries := t.entries.put e.record.id entry } }
  | .granted (.create r) => { answer, tenancy := { t with creating := r :: t.creating } }
  | _ => { answer, tenancy := t }

def timeOut (id : RequestId) (t : Tenancy) : Turn Failure :=
  let (answer, pool) := t.pool.timeOut id
  { answer, tenancy := { t with pool } }

def cancel (id : RequestId) (t : Tenancy) : Turn Bool := t.turn (Work.cancel id)

def dropRequest (m : Moment) (id : RequestId) (t : Tenancy) : Turn Unit :=
  { t with tickets := t.tickets.remove id }.turn fun w => ((), w.forget m id)

/-- Hands out the connection created for a slot.  If the pool was shut down in the meantime, the
connection is closed instead. -/
def connected (r : Record) (c : Conn) (t : Tenancy) : Turn (Except Failure Entry) :=
  let t := { t with creating := t.creating.erase r }
  if t.pool.isShut then
    { answer := .error (.internally .poolClosed "connection pool is shut down")
      tenancy := t
      reports := [.noted (.shutWhileConnecting r.route)]
      closed := [c] }
  else
    let entry : Entry := { record := r, conn := c, reused := false }
    { answer := .ok entry
      tenancy := { t with entries := t.entries.put r.id entry }
      reports := [.noted (.connected r.id r.route)] }

def connectFailed (m : Moment) (r : Record) (f : Failure) (t : Tenancy) : Turn Failure :=
  { t with creating := t.creating.erase r }.turn fun w =>
    (f.toUpstream.moreContext s!"fail to create connection to {r.route.text}",
      (w.note (.connectFailed r.route f)).vacate m r)

def release (m : Moment) (id : EntryId) (reusable : Bool) (validFor : Option Span) (t : Tenancy) :
    Turn (Option Failure) :=
  match t.entries.get? id with
  | some e =>
    { t with entries := t.entries.remove id }.turn fun w =>
      w.takeBack m e.record e.conn reusable validFor
  | none =>
    { answer := some (Failure.explain .invalidArgument "connection entry already released").toCaller
      tenancy := t }

def discard (m : Moment) (id : EntryId) (t : Tenancy) : Turn (Option Failure) :=
  t.release m id false none

def dropEntry (m : Moment) (id : EntryId) (t : Tenancy) : Turn Unit :=
  if t.entries.has id then
    let turn := t.discard m id
    { turn.reply () with afterwards := turn.answer.toList.map (Notice.discardFailed id) }
  else { answer := (), tenancy := t }

def loseEntry (id : EntryId) (t : Tenancy) : Turn Unit where
  answer := ()
  tenancy := { t with entries := t.entries.remove id }
  reports := [.noted (.poolGone id)]

def setMaxTotal (m : Moment) (max : Nat) (t : Tenancy) : Turn (Option Failure) :=
  t.turn (Work.setMaxTotal m max)

def setDefaultMax (m : Moment) (max : Nat) (t : Tenancy) : Turn (Option Failure) :=
  t.turn (Work.setDefaultMax m max)

def setMaxFor (m : Moment) (route : Route) (max : Nat) (t : Tenancy) : Turn (Option Failure) :=
  t.turn (Work.setMaxFor m route max)

def closeExpired (m : Moment) (t : Tenancy) : Turn Unit :=
  t.turn fun w => ((), w.closeExpired m)

def closeIdle (m : Moment) (span : Span) (t : Tenancy) : Turn Unit :=
  t.turn fun w => ((), w.closeIdle m span)

def shutDown (t : Tenancy) : Turn Unit :=
  let turn := t.turn Work.shutDown
  { turn.reply () with afterwards := [.shutDown turn.answer] }

end Tenancy

end ConnectionPool
