import ConnectionPool.Pool.Request

namespace ConnectionPool

structure Lane where
  /-- The connections handed out, those still being created included. -/
  leased : List EntryId := []
  /-- The connections kept for reuse, the last released first. -/
  available : List Idle := []
  /-- The requests waiting, in the order of arrival. -/
  queue : List RequestId := []
  deriving DecidableEq

namespace Lane

def allocated (l : Lane) : Nat := l.leased.length + l.available.length

def isBare (l : Lane) : Bool := l.leased.isEmpty && l.available.isEmpty && l.queue.isEmpty

theorem isBare_iff {l : Lane} : l.isBare ↔ l = {} := by
  obtain ⟨a, b, c⟩ := l
  simp [isBare, and_assoc]

def lease (id : EntryId) (l : Lane) : Lane := { l with leased := l.leased.insert id }

def unlease? (id : EntryId) (l : Lane) : Option Lane :=
  if id ∈ l.leased then some { l with leased := l.leased.erase id } else none

def put (e : Idle) (l : Lane) : Lane := { l with available := e :: l.available }

/-- Puts back a connection that was taken out, behind those released later. -/
def reinsert (e : Idle) (l : Lane) : Lane :=
  let later (x : Idle) : Bool := e.record.updated < x.record.updated
  { l with available := l.available.takeWhile later ++ e :: l.available.dropWhile later }

def take? (id : EntryId) (l : Lane) : Option (Idle × Lane) :=
  (l.available.find? (·.record.id = id)).map fun e =>
    (e, { l with available := l.available.eraseP (·.record.id = id) })

def enqueue (id : RequestId) (l : Lane) : Lane := { l with queue := l.queue ++ [id] }

def dequeue (id : RequestId) (l : Lane) : Lane := { l with queue := l.queue.erase id }

end Lane

end ConnectionPool
