import ConnectionPool.Route
import ConnectionPool.Time

namespace ConnectionPool

structure Conn where
  number : Nat
  deriving DecidableEq

structure EntryId where
  number : Nat
  deriving DecidableEq

def EntryId.text (id : EntryId) : String := s!"#{id.number}"

/-- What a pool knows of a connection, leased or available. -/
structure Record where
  id : EntryId
  route : Route
  created : Instant
  /-- When the connection was last released, or created. -/
  updated : Instant
  /-- The end of its life, however it is used. -/
  deadline : Option Instant
  /-- From when on it is not handed out again. -/
  expiry : Option Instant
  deriving DecidableEq

namespace Record

def fresh (id : EntryId) (route : Route) (now : Instant) (timeToLive : Option Nat) : Record :=
  let deadline := timeToLive.map (now + ·)
  { id, route, created := now, updated := now, deadline, expiry := deadline }

def isExpired (r : Record) (now : Instant) : Bool := r.expiry.any (· ≤ now)

def released (r : Record) (now : Instant) (validFor : Option Span) : Record :=
  { r with
    updated := now
    expiry := sooner (validFor.bind (Span.after now)) r.deadline }

@[simp] theorem id_released (r : Record) (now : Instant) (v : Option Span) :
    (r.released now v).id = r.id := rfl

@[simp] theorem route_released (r : Record) (now : Instant) (v : Option Span) :
    (r.released now v).route = r.route := rfl

@[simp] theorem updated_released (r : Record) (now : Instant) (v : Option Span) :
    (r.released now v).updated = now := rfl

@[simp] theorem deadline_released (r : Record) (now : Instant) (v : Option Span) :
    (r.released now v).deadline = r.deadline := rfl

end Record

structure Idle where
  record : Record
  conn : Conn
  deriving DecidableEq

structure Entry where
  record : Record
  conn : Conn
  reused : Bool
  deriving DecidableEq

end ConnectionPool
