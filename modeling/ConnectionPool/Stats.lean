namespace ConnectionPool

structure Stats where
  leased : Nat := 0
  pending : Nat := 0
  available : Nat := 0
  max : Nat := 0
  deriving DecidableEq

namespace Stats

def allocated (s : Stats) : Nat := s.leased + s.available

def text (s : Stats) : String :=
  s!"[leased: {s.leased}; pending: {s.pending}; available: {s.available}; max: {s.max}]"

end Stats

end ConnectionPool
