import ConnectionPool.Failure
import ConnectionPool.Pool.Entry

namespace ConnectionPool

structure RequestId where
  number : Nat
  deriving DecidableEq

def RequestId.text (id : RequestId) : String := s!"RequestId({id.number})"

/-- What a request is granted: an available connection, or a slot for a new one. -/
inductive Grant
  | reuse (idle : Idle)
  | create (record : Record)
  deriving DecidableEq

def Grant.record : Grant → Record
  | reuse e => e.record
  | create r => r

inductive Refusal
  | cancelled
  | shutWhilePending
  | shutWhileGranted
  deriving DecidableEq

namespace Refusal

def kind : Refusal → Failure.Kind
  | cancelled => .interrupted
  | shutWhilePending => .interrupted
  | shutWhileGranted => .poolClosed

def text : Refusal → String
  | cancelled => "lease request cancelled"
  | shutWhilePending => "connection pool shut down while waiting"
  | shutWhileGranted => "connection pool is shut down"

def failure (r : Refusal) (route : Route) : Failure :=
  (Failure.internally r.kind r.text).moreContext s!"lease request for {route.text}"

end Refusal

inductive Outcome
  | pending
  | granted (grant : Grant)
  | failed (refusal : Refusal)
  deriving DecidableEq

/-- Where the outcome of a request is kept until it is collected. -/
structure Slot where
  route : Route
  outcome : Outcome := .pending
  deriving DecidableEq

namespace Slot

def isPending (s : Slot) : Bool := s.outcome = .pending

def grant (g : Grant) (s : Slot) : Slot :=
  if s.isPending then { s with outcome := .granted g } else s

def refuse (r : Refusal) (s : Slot) : Slot :=
  if s.isPending then { s with outcome := .failed r } else s

def revoke (s : Slot) : Slot :=
  match s.outcome with
  | .pending => { s with outcome := .failed .shutWhilePending }
  | .granted _ => { s with outcome := .failed .shutWhileGranted }
  | .failed _ => s

def held (s : Slot) : Option Conn :=
  match s.outcome with
  | .granted (.reuse e) => some e.conn
  | _ => none

end Slot

end ConnectionPool
