import ConnectionPool.Pool.Work

namespace ConnectionPool

structure Line where
  isOpen : Bool := true
  isStale : Bool := false
  mark : Int := 0
  deriving DecidableEq

/-- All connections that one connector made, numbered from 1 in the order of their making. -/
structure Fleet where
  lines : Table Conn Line := []
  isStale : Bool := false
  /-- Whether the connector can tell stale connections at all. -/
  tellsStale : Bool := true
  deriving DecidableEq

namespace Fleet

def make (f : Fleet) : Conn × Fleet :=
  let c : Conn := ⟨f.lines.length + 1⟩
  (c, { f with lines := f.lines.put c {} })

def update? (c : Conn) (g : Line → Line) (f : Fleet) : Option Fleet :=
  (f.lines.get? c).map fun l => { f with lines := f.lines.put c (g l) }

def close (c : Conn) (f : Fleet) : Fleet :=
  (f.update? c ({ · with isOpen := false })).getD f

def mark (f : Fleet) (c : Conn) : Int := ((f.lines.get? c).map Line.mark).getD 0

def moment (f : Fleet) (now : Instant) : Moment where
  now := now
  isOpen c := (f.lines.get? c).any (·.isOpen)
  isStale :=
    if f.tellsStale then some fun c => f.isStale || (f.lines.get? c).any (·.isStale) else none

end Fleet

end ConnectionPool
