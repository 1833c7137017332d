import ConnectionPool.Pool.Entry

namespace ConnectionPool

structure Mark where
  id : EntryId
  route : Route
  released : Instant
  deriving DecidableEq

/-- A cache of marks that knows which was used last.  To put a mark or to promote it is to use it. -/
structure Cache (σ : Type) where
  put : Mark → σ → σ
  promote : EntryId → σ → σ
  pop : EntryId → σ → σ
  oldest : σ → Option Mark
  /-- From the last used to the first. -/
  iter : σ → List Mark

/-- Puts a mark at the place that its time gives it, behind those of the same time: all that were
released after it are promoted, one after the other. -/
def Cache.restore (c : Cache σ) (m : Mark) (s : σ) : σ :=
  let added := c.put m s
  ((c.iter added).reverse.filter (m.released < ·.released)).foldl (fun s n => c.promote n.id s) added

/-- Marks from the oldest to the newest. -/
abbrev Recency := List Mark

namespace Recency

def drop (r : Recency) (id : EntryId) : Recency := r.filter (·.id ≠ id)

def add (r : Recency) (m : Mark) : Recency := r.drop m.id ++ [m]

def renew (r : Recency) (id : EntryId) : Recency :=
  match r.find? (·.id = id) with
  | some m => r.add m
  | none => r

def cache : Cache Recency where
  put m r := r.add m
  promote id r := r.renew id
  pop id r := r.drop id
  oldest := List.head?
  iter := List.reverse

def reinsert (r : Recency) (m : Mark) : Recency := cache.restore m r

end Recency

end ConnectionPool
