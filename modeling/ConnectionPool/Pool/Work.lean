import ConnectionPool.Pool.Basic
import ConnectionPool.Pool.Notice

/-! A pool in the middle of an operation.  Connections are closed after the operation, so the work
lists them; what the pool asked and noted on the way is kept in order. -/

namespace ConnectionPool

/-- The time of an operation, and what the connector says of a connection during it.  A connector
without a staleness check of its own takes no connection for stale. -/
structure Moment where
  now : Instant
  isOpen : Conn → Bool
  isStale : Option (Conn → Bool)

structure Work where
  pool : Pool
  closing : List Conn := []
  reports : List Report := []

namespace Work

def note (n : Notice) (w : Work) : Work := { w with reports := w.reports ++ [.noted n] }

def report (rs : List Report) (w : Work) : Work := { w with reports := w.reports ++ rs }

def close (c : Conn) (w : Work) : Work := { w with closing := w.closing ++ [c] }

def change (f : Pool → Pool) (w : Work) : Work := { w with pool := f w.pool }

@[simp] theorem pool_note (n : Notice) (w : Work) : (w.note n).pool = w.pool := rfl

@[simp] theorem closing_note (n : Notice) (w : Work) : (w.note n).closing = w.closing := rfl

@[simp] theorem pool_report (rs : List Report) (w : Work) : (w.report rs).pool = w.pool := rfl

@[simp] theorem closing_report (rs : List Report) (w : Work) :
    (w.report rs).closing = w.closing := rfl

@[simp] theorem pool_close (c : Conn) (w : Work) : (w.close c).pool = w.pool := rfl

@[simp] theorem closing_close (c : Conn) (w : Work) : (w.close c).closing = w.closing ++ [c] := rfl

@[simp] theorem pool_change (f : Pool → Pool) (w : Work) : (w.change f).pool = f w.pool := rfl

@[simp] theorem closing_change (f : Pool → Pool) (w : Work) :
    (w.change f).closing = w.closing := rfl

end Work

end ConnectionPool
