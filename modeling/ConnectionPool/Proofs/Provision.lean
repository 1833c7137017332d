import ConnectionPool.Proofs.Age
import ConnectionPool.Proofs.Overfill
import Mathlib.Order.Bounds.Basic

namespace ConnectionPool

variable {held : Multiset Grant} {p q : Pool} {w u : Work} {e : Idle} {xs ys es ds : List Idle}
  {r s : Route} {m : Moment}

theorem Idle.isFit_iff {v : Option Nat} : e.isFit m v ↔ (∀ x ∈ e.record.expiry, m.now < x) ∧
    m.isOpen e.conn ∧ (e.isDue m.now v → m.isStale.any (· e.conn) = false) := by
  have hexpired : e.record.isExpired m.now = false ↔ ∀ x ∈ e.record.expiry, m.now < x := by
    cases hx : e.record.expiry <;> simp [Record.isExpired, hx]
  rw [← hexpired, Idle.isFit, Idle.verdict]
  cases e.record.isExpired m.now <;> cases m.isOpen e.conn <;> cases e.isDue m.now v <;>
    cases m.isStale.any (· e.conn) <;> simp

theorem append_diff_left {α : Type} [DecidableEq α] (xs ys : List α) : (xs ++ ys).diff xs = ys := by
  induction xs with
  | nil => rfl
  | cons x xs ih => rw [List.cons_append, List.diff_cons, List.erase_cons_head, ih]

namespace Pool

def without (es : List Idle) (p : Pool) : Pool := es.foldl (fun p e => p.takeOut e) p

@[simp] theorem without_nil (p : Pool) : p.without [] = p := rfl

theorem without_cons (p : Pool) (e : Idle) (es : List Idle) :
    p.without (e :: es) = (p.takeOut e).without es := rfl

theorem without_append (p : Pool) (es ds : List Idle) :
    p.without (es ++ ds) = (p.without es).without ds := List.foldl_append

theorem lane_without (p : Pool) (es : List Idle) (s : Route) : (p.without es).lane s =
    { p.lane s with available := (p.lane s).available.diff (es.filter (·.record.route = s)) } := by
  induction es generalizing p with
  | nil => rfl
  | cons e es ih =>
    rw [without_cons, ih, lane_takeOut]
    split
    · next hs => rw [List.filter_cons_of_pos (by simp [hs]), List.diff_cons, hs]
    · next hs => rw [List.filter_cons_of_neg (by simpa using Ne.symm hs)]

theorem idle_without (p : Pool) (es : List Idle) :
    (p.without es).idle = p.idle.diff (es.map Idle.mark) := by
  induction es generalizing p with
  | nil => rfl
  | cons e es ih =>
    rw [without_cons, ih, List.map_cons, List.diff_cons]
    rfl

theorem draws_without (p : Pool) (es : List Idle) : p.Draws (p.without es) := by
  induction es generalizing p with
  | nil => exact .refl p
  | cons e es ih => exact (draws_takeOut e).trans (ih _)

theorem sameQueues_without (p : Pool) (es : List Idle) : p.SameQueues (p.without es) := by
  induction es generalizing p with
  | nil => exact .refl p
  | cons e es ih => exact (sameQueues_takeOut e).trans (ih _)

theorem sameSlots_without (p : Pool) (es : List Idle) : p.SameSlots (p.without es) := by
  induction es generalizing p with
  | nil => exact .refl p
  | cons e es ih => exact (sameSlots_takeOut e).trans (ih _)

theorem lastEntry_without (p : Pool) (es : List Idle) :
    (p.without es).lastEntry = p.lastEntry := by
  induction es generalizing p with
  | nil => rfl
  | cons e es ih => exact ih _

theorem Relanes.without (h : p.Relanes q) (es : List Idle) : (p.without es).Relanes (q.without es) := by
  induction es generalizing p q with
  | nil => exact h
  | cons e es ih => exact ih (h.takeOut e)

def pulled (es : List Idle) (p : Pool) : Pool := es.foldl (fun p e => p.pull e) p

theorem relanes_pulled (es : List Idle) (p : Pool) : (p.without es).Relanes (p.pulled es) := by
  induction es generalizing p with
  | nil => exact .refl p
  | cons e es ih => exact ((relanes_pull e p).without es).trans (ih (p.pull e))

def nextRecord (p : Pool) (m : Moment) (r : Route) : Record :=
  .fresh ⟨p.lastEntry + 1⟩ r m.now p.policy.timeToLive

def reserve (m : Moment) (r : Route) (p : Pool) : Pool :=
  { p with lastEntry := p.lastEntry + 1 }.lease (p.nextRecord m r)

theorem nextRecord_without (p : Pool) (es : List Idle) (m : Moment) (r : Route) :
    (p.without es).nextRecord m r = p.nextRecord m r := by
  rw [nextRecord, lastEntry_without, (draws_without p es).policy, nextRecord]

theorem Relanes.nextRecord (h : p.Relanes q) (m : Moment) (r : Route) :
    q.nextRecord m r = p.nextRecord m r := by
  rw [Pool.nextRecord, h.lastEntry, h.draws.policy, Pool.nextRecord]

structure Stocks (p : Pool) (es : List Idle) : Prop where
  nodup : es.Nodup
  available : ∀ e ∈ es, e ∈ (p.lane e.record.route).available

theorem Stocks.tail (h : p.Stocks (e :: es)) : (p.takeOut e).Stocks es where
  nodup := (List.nodup_cons.1 h.nodup).2
  available d hd := by
    have hne : d ≠ e := fun heq => (List.nodup_cons.1 h.nodup).1 (heq ▸ hd)
    have hmem := h.available d (List.mem_cons_of_mem _ hd)
    rw [lane_takeOut]
    split
    · next hr => exact (List.mem_erase_of_ne hne).2 (hr ▸ hmem)
    · exact hmem

theorem Stocks.cons (he : e ∈ (p.lane e.record.route).available) (hs : Sound held p)
    (h : (p.takeOut e).Stocks es) : p.Stocks (e :: es) := by
  have hn : (p.lane e.record.route).available.Nodup := (hs.available_ids _).of_map
  refine ⟨List.nodup_cons.2 ⟨fun hmem => ?_, h.nodup⟩, List.forall_mem_cons.2 ⟨he, fun d hd => ?_⟩⟩
  · have hrest := h.available e hmem
    rw [lane_takeOut, if_pos rfl] at hrest
    exact hn.not_mem_erase hrest
  · exact ((draws_takeOut e).available _).subset (h.available d hd)

theorem Stocks.of_lane (h : p.Stocks es) (hq : ∀ r, q.lane r = p.lane r) : q.Stocks es where
  nodup := h.nodup
  available e he := hq _ ▸ h.available e he

theorem stocks_front (hs : Sound held p) (h : es <+: (p.lane r).available) : p.Stocks es where
  nodup := (hs.available_ids r).of_map.sublist h.sublist
  available e he := by
    have hmem := h.subset he
    rwa [hs.home r e hmem]

end Pool

theorem Sound.without (h : Sound held p) (hes : p.Stocks es) : Sound held (p.without es) := by
  induction es generalizing p with
  | nil => exact h
  | cons e es ih => exact ih (h.takeOut (hes.available e List.mem_cons_self)) hes.tail

theorem Sound.available_without (h : Sound held p) (ha : (p.lane r).available = xs ++ ys) :
    ((p.without xs).lane r).available = ys := by
  have hown : xs.filter (·.record.route = r) = xs :=
    List.filter_eq_self.2 fun x hx => by simpa using h.home r x (by simp [ha, hx])
  rw [Pool.lane_without, hown, ha, append_diff_left]

theorem Pool.InOrder.without (ho : p.InOrder) (h : Sound held p) (hes : p.Stocks es) :
    (p.without es).InOrder := by
  induction es generalizing p with
  | nil => exact ho
  | cons e es ih =>
    have he := hes.available e List.mem_cons_self
    exact ih (ho.takeOut h he) (h.takeOut he) hes.tail

theorem Sound.lane_without_of_ne (h : Sound held p) (hs : s ≠ r) :
    (p.without (p.lane r).available).lane s = p.lane s := by
  have hown : (p.lane r).available.filter (·.record.route = s) = [] := by
    refine List.filter_eq_nil_iff.2 fun e he => ?_
    simpa [h.home r e he] using hs.symm
  rw [Pool.lane_without, hown]
  rfl

namespace Pool

variable {k : Nat}

theorem idle_without_take (hes : es.map Idle.mark = p.idle.take k) :
    (p.without es).idle = List.drop k p.idle := by
  have hdiff := append_diff_left (p.idle.take k) (List.drop k p.idle)
  rwa [List.take_append_drop, ← hes, ← idle_without] at hdiff

theorem InOrder.updated_le_of_append (ho : p.InOrder) (ha : (p.lane r).available = xs ++ e :: ys)
    {d : Idle} (hd : d ∈ (p.lane r).available) (hxs : d ∉ xs) :
    d.record.updated ≤ e.record.updated := by
  have hsorted := ho.lane_sorted r
  rw [ha] at hd hsorted
  rcases List.mem_cons.1 ((List.mem_append.1 hd).resolve_left hxs) with rfl | hd
  · exact le_rfl
  · exact (List.pairwise_cons.1 (List.pairwise_append.1 hsorted).2.1).1 d hd

theorem InOrder.updated_le (ho : p.InOrder) (h : Sound held p) (hstocks : p.Stocks es)
    (hes : es.map Idle.mark = p.idle.take k) (he : e ∈ es) {d : Idle}
    (hd : d ∈ ((p.without es).lane s).available) : e.record.updated ≤ d.record.updated := by
  have hleft := h.without hstocks
  have hmark : e.mark ∈ p.idle.take k := hes ▸ List.mem_map_of_mem he
  have hmark' : d.mark ∈ List.drop k p.idle := by
    rw [← idle_without_take hes]
    exact hleft.mark_mem ((mem_stock hleft.tidy).2 ⟨s, hd⟩)
  have hsorted := ho.sorted
  rw [← List.take_append_drop k p.idle, List.pairwise_append] at hsorted
  exact hsorted.2.2 _ hmark _ hmark'

/-! To bring what is allocated below a limit of `n`, with no slot freed, this many connections have to
be closed. -/

theorem isLeast_evictions {n : Nat} (hlt : p.leased < n) :
    IsLeast {k | p.allocated - k < n} (p.allocated + 1 - n) := by
  constructor
  · change p.allocated - (p.allocated + 1 - n) < n
    omega
  · intro k hk
    change p.allocated - k < n at hk
    omega

theorem evictions_le_idle {n : Nat} (hlt : p.leased < n) :
    p.allocated + 1 - n ≤ p.idle.length := by
  rw [allocated]
  omega

theorem idle_le_evictions {n : Nat} (hle : n ≤ p.leased) :
    p.idle.length ≤ p.allocated + 1 - n := by
  rw [allocated]
  omega

theorem allocated_without_lt {n : Nat} (hlt : p.leased < n)
    (hes : es.map Idle.mark = p.idle.take (p.allocated + 1 - n)) : (p.without es).allocated < n := by
  have hlen := congrArg List.length (idle_without_take hes)
  rw [List.length_drop] at hlen
  rw [allocated, (sameSlots_without p es).total, hlen, allocated]
  omega

end Pool

namespace Work

/-- Looking for a connection of the route answers `g`, closes `es`, one after the other, and leaves the
pool `q`. -/
structure Provides (w : Work) (m : Moment) (r : Route) (g : Option Grant) (es : List Idle)
    (q : Pool) : Prop where
  answer : (w.provide m r).1 = g
  closing : (w.provide m r).2.closing = w.closing ++ es.map Idle.conn
  pool : (w.provide m r).2.pool = q

structure Closes (w : Work) (es : List Idle) (u : Work) : Prop where
  pool : u.pool = w.pool.without es
  closing : u.closing = w.closing ++ es.map Idle.conn

theorem Closes.refl (w : Work) : w.Closes [] w := ⟨rfl, (List.append_nil _).symm⟩

theorem Closes.trans {v : Work} (h : w.Closes es u) (k : u.Closes ds v) :
    w.Closes (es ++ ds) v where
  pool := by rw [k.pool, h.pool, Pool.without_append]
  closing := by rw [k.closing, h.closing, List.map_append, List.append_assoc]

theorem Closes.limits (h : w.Closes es u) : u.pool.limits = w.pool.limits := by
  rw [h.pool, (Pool.draws_without _ _).limits]

theorem Closes.policy (h : w.Closes es u) : u.pool.policy = w.pool.policy := by
  rw [h.pool, (Pool.draws_without _ _).policy]

theorem Closes.leased (h : w.Closes es u) : u.pool.leased = w.pool.leased := by
  rw [h.pool, (Pool.sameSlots_without _ _).total]

theorem Closes.allocated (h : w.Closes (w.pool.lane r).available u) (hs : Sound held w.pool) :
    (u.pool.lane r).allocated = (w.pool.lane r).leased.length := by
  have hnone : (u.pool.lane r).available = [] := by
    rw [h.pool, hs.available_without (List.append_nil _).symm]
  rw [Lane.allocated, hnone, h.pool, (Pool.sameSlots_without _ _).leased]
  rfl

theorem reuse_append (h : Sound held w.pool) (ha : (w.pool.lane r).available = xs ++ ys)
    (hxs : ∀ x ∈ xs, ¬ x.isFit m w.pool.policy.validateAfter) :
    ∃ u, w.Closes xs u ∧ w.reuse m r (xs ++ ys) = u.reuse m r ys := by
  induction xs generalizing w with
  | nil => exact ⟨w, .refl w, rfl⟩
  | cons x xs ih =>
    have hr : x.record.route = r := h.home r x (by simp [ha])
    have hmem : x ∈ (w.pool.lane x.record.route).available := by simp [hr, ha]
    have hrest : ((w.pool.takeOut x).lane r).available = xs ++ ys := by
      rw [Pool.lane_takeOut, if_pos hr.symm, hr, ha, List.cons_append, List.erase_cons_head]
    obtain ⟨hx, hxs⟩ := List.forall_mem_cons.1 hxs
    let v := ((w.report (x.inspection m w.pool.policy.validateAfter)).note
      (.closeInvalid x.record.id r)).change (Pool.takeOut x) |>.close x.conn
    have hv : w.Closes [x] v := ⟨rfl, rfl⟩
    obtain ⟨u, hu, hreuse⟩ := ih (w := v) (h.takeOut hmem) hrest hxs
    refine ⟨u, hv.trans hu, ?_⟩
    rw [List.cons_append] at ha ⊢
    rw [reuse_cons h hr ha, if_neg hx, hreuse]

theorem reuse_of_fit (h : Sound held w.pool) (ha : (w.pool.lane r).available = xs ++ e :: ys)
    (hxs : ∀ x ∈ xs, ¬ x.isFit m w.pool.policy.validateAfter)
    (hfit : e.isFit m w.pool.policy.validateAfter) :
    ∃ u, w.reuse m r (w.pool.lane r).available = (some e, u) ∧
      u.pool = (w.pool.without (xs ++ [e])).lease e.record ∧
      u.closing = w.closing ++ xs.map Idle.conn := by
  obtain ⟨u, hu, hreuse⟩ := reuse_append h ha hxs
  have hstocks : w.pool.Stocks xs := Pool.stocks_front h (ha ▸ List.prefix_append _ _)
  have hr : e.record.route = r := h.home r e (by simp [ha])
  have hsound : Sound held u.pool := hu.pool ▸ h.without hstocks
  have hrest : (u.pool.lane r).available = e :: ys := by
    rw [hu.pool, h.available_without ha]
  rw [ha, hreuse, reuse_cons hsound hr hrest, hu.policy, if_pos hfit]
  exact ⟨_, rfl, by rw [Pool.without_append, ← hu.pool]; rfl, hu.closing⟩

theorem reuse_of_unfit (h : Sound held w.pool)
    (hfit : ∀ e ∈ (w.pool.lane r).available, ¬ e.isFit m w.pool.policy.validateAfter) :
    ∃ u, w.Closes (w.pool.lane r).available u ∧
      w.reuse m r (w.pool.lane r).available = (none, u) := by
  have hall : (w.pool.lane r).available = (w.pool.lane r).available ++ [] :=
    (List.append_nil _).symm
  obtain ⟨u, hu, hreuse⟩ := reuse_append h hall hfit
  rw [List.append_nil] at hreuse
  exact ⟨u, hu, hreuse⟩

/-- Room is made by closing these connections: the oldest ones, as many as are too many.  There is room
in the end if the slots leave any. -/
structure Frees (w : Work) (r : Route) (n : Nat) (es : List Idle) (u : Work) : Prop where
  stocks : w.pool.Stocks es
  marks : es.map Idle.mark = w.pool.idle.take (w.pool.allocated + 1 - w.pool.limits.total)
  pool : u.pool = w.pool.pulled es
  closing : u.closing = w.closing ++ es.map Idle.conn
  answer : w.makeRoom r n = (decide (w.pool.leased < w.pool.limits.total), u)

theorem frees_of_lt (r : Route) (n : Nat) (hlt : w.pool.allocated < w.pool.limits.total) :
    w.Frees r n [] w where
  stocks := ⟨List.nodup_nil, by simp⟩
  marks := by
    rw [Nat.sub_eq_zero_of_le hlt]
    rfl
  pool := rfl
  closing := (List.append_nil _).symm
  answer := by
    have hroom : w.pool.leased < w.pool.limits.total := lt_of_le_of_lt (Nat.le_add_right _ _) hlt
    rw [makeRoom_of_lt n hlt, decide_eq_true hroom]

theorem frees_of_idle_eq_nil (r : Route) (n : Nat)
    (hlt : ¬ w.pool.allocated < w.pool.limits.total) (hi : w.pool.idle = []) :
    w.Frees r n [] w where
  stocks := ⟨List.nodup_nil, by simp⟩
  marks := by rw [hi, List.take_nil, List.map_nil]
  pool := rfl
  closing := (List.append_nil _).symm
  answer := by
    have hfull : ¬ w.pool.leased < w.pool.limits.total := by
      rwa [Pool.allocated, hi] at hlt
    rw [makeRoom_of_idle_eq_nil n hlt hi, decide_eq_false hfull]

theorem frees_cons {n : Nat} (h : Sound held w.pool)
    (hlt : ¬ w.pool.allocated < w.pool.limits.total)
    (he : e ∈ (w.pool.lane e.record.route).available) {ks : Recency}
    (hi : w.pool.idle = e.mark :: ks) (hevict : w.evict = (some e, w.change (Pool.pull e)))
    (hrest : Frees (((w.change (Pool.pull e)).note
      (.evict e.record.id e.record.route r)).close e.conn) r n es u) :
    w.Frees r (n + 1) (e :: es) u where
  stocks := .cons he h (hrest.stocks.of_lane fun s => ((Pool.relanes_pull e w.pool).lane s).symm)
  marks := by
    obtain ⟨-, hone⟩ := h.allocated_takeOut he
    have hpull := Pool.relanes_pull e w.pool
    have hmarks : es.map Idle.mark = (w.pool.pull e).idle.take
        ((w.pool.pull e).allocated + 1 - (w.pool.pull e).limits.total) := hrest.marks
    have hmany : w.pool.allocated + 1 - w.pool.limits.total =
        w.pool.allocated - w.pool.limits.total + 1 := by omega
    rw [hpull.draws.limits, hpull.allocated, Pool.idle_pull_of_head hi] at hmarks
    rw [List.map_cons, hmarks, hone, hmany, hi, List.take_succ_cons]
    rfl
  pool := hrest.pool
  closing := hrest.closing.trans (List.append_assoc ..)
  answer := by
    have hpull := Pool.relanes_pull e w.pool
    have hanswer := hrest.answer
    rw [makeRoom_succ hlt hevict, hanswer]
    change (decide ((w.pool.pull e).leased < (w.pool.pull e).limits.total), u) = _
    rw [hpull.draws.limits, hpull.sameSlots.total]
    rfl

theorem makeRoom_frees (h : Sound held w.pool) {n : Nat} (hn : w.pool.idle.length ≤ n) :
    ∃ es u, w.Frees r n es u := by
  induction n generalizing w with
  | zero =>
    by_cases hlt : w.pool.allocated < w.pool.limits.total
    · exact ⟨[], w, frees_of_lt r 0 hlt⟩
    · have hi : w.pool.idle = [] := List.eq_nil_of_length_eq_zero (Nat.le_zero.1 hn)
      exact ⟨[], w, frees_of_idle_eq_nil r 0 hlt hi⟩
  | succ n ih =>
    by_cases hlt : w.pool.allocated < w.pool.limits.total
    · exact ⟨[], w, frees_of_lt r _ hlt⟩
    cases hi : w.pool.idle with
    | nil => exact ⟨[], w, frees_of_idle_eq_nil r _ hlt hi⟩
    | cons k ks =>
      obtain ⟨e, he, rfl, hevict⟩ := evict_eq h hi
      have hlen : (w.pool.pull e).idle.length ≤ n := by
        rw [hi] at hn
        rw [Pool.idle_pull_of_head hi]
        exact Nat.le_of_succ_le_succ hn
      obtain ⟨es, u, hrest⟩ := ih (w := ((w.change (Pool.pull e)).note
        (.evict e.record.id e.record.route r)).close e.conn) (h.pull he) hlen
      exact ⟨e :: es, u, frees_cons h hlt he hi hevict hrest⟩

theorem provide_of_fit (h : Sound held w.pool) (ha : (w.pool.lane r).available = xs ++ e :: ys)
    (hxs : ∀ x ∈ xs, ¬ x.isFit m w.pool.policy.validateAfter)
    (hfit : e.isFit m w.pool.policy.validateAfter) :
    w.Provides m r (some (.reuse e)) xs
      (((w.pool.openLane r).without (xs ++ [e])).lease e.record) := by
  have ha' : ((w.pool.openLane r).lane r).available = xs ++ e :: ys := by
    rwa [(Pool.relanes_openLane w.pool r).lane]
  obtain ⟨u, hreuse, hpool, hclosing⟩ :=
    reuse_of_fit (w := w.change (Pool.openLane r)) (h.openLane r) ha' hxs hfit
  have hprovide : w.provide m r = (some (.reuse e), u) := by
    rw [provide, seek, hreuse]
  exact ⟨by rw [hprovide], by rw [hprovide, hclosing]; rfl, by rw [hprovide, hpool]; rfl⟩

theorem provide_of_unfit (h : Sound held w.pool)
    (hfit : ∀ e ∈ (w.pool.lane r).available, ¬ e.isFit m w.pool.policy.validateAfter) :
    ∃ u, (w.change (Pool.openLane r)).Closes (w.pool.lane r).available u ∧
      (u.pool.lane r).allocated = (w.pool.lane r).leased.length ∧
      (w.change (Pool.openLane r)).reuse m r ((w.pool.openLane r).lane r).available = (none, u) := by
  let v := w.change (Pool.openLane r)
  have hlane : v.pool.lane r = w.pool.lane r := (Pool.relanes_openLane w.pool r).lane r
  obtain ⟨u, hu, hreuse⟩ := reuse_of_unfit (w := v) (m := m) (h.openLane r) (hlane ▸ hfit)
  have hall := hu.allocated (h.openLane r)
  rw [hlane] at hu hall
  exact ⟨u, hu, hall, hreuse⟩

theorem provide_of_atLimit (h : Sound held w.pool)
    (hfit : ∀ e ∈ (w.pool.lane r).available, ¬ e.isFit m w.pool.policy.validateAfter)
    (hlimit : w.pool.AtLimit r) : w.Provides m r none (w.pool.lane r).available
      ((w.pool.openLane r).without (w.pool.lane r).available) := by
  obtain ⟨u, hu, hall, hreuse⟩ := provide_of_unfit h hfit
  have hmax : u.pool.limits.forRoute r ≤ (u.pool.lane r).allocated := by
    rwa [hu.limits, hall]
  have hprovide : w.provide m r = (none, u.note (.atLimit r (u.pool.limits.forRoute r))) := by
    rw [provide, seek, pool_change, hreuse]
    exact if_pos hmax
  exact ⟨by rw [hprovide], by rw [hprovide, closing_note, hu.closing]; rfl,
    by rw [hprovide, pool_note, hu.pool]; rfl⟩

theorem provide_of_below (h : Sound held w.pool)
    (hfit : ∀ e ∈ (w.pool.lane r).available, ¬ e.isFit m w.pool.policy.validateAfter)
    (hlimit : ¬ w.pool.AtLimit r) :
    let es := (w.pool.lane r).available
    let q := (w.pool.openLane r).without es
    ∃ ds, q.Stocks ds ∧
      ds.map Idle.mark = q.idle.take (q.allocated + 1 - w.pool.limits.total) ∧
      if w.pool.leased < w.pool.limits.total then
        w.Provides m r (some (.create (w.pool.nextRecord m r))) (es ++ ds)
          ((q.pulled ds).reserve m r)
      else w.Provides m r none (es ++ ds) (q.pulled ds) := by
  intro es q
  obtain ⟨u, hu, hall, hreuse⟩ := provide_of_unfit h hfit
  have hmax : ¬ u.pool.limits.forRoute r ≤ (u.pool.lane r).allocated := by
    rwa [hu.limits, hall]
  have hq : u.pool = q := hu.pool
  have hes : (w.pool.openLane r).Stocks es :=
    (Pool.stocks_front h List.prefix_rfl).of_lane (Pool.relanes_openLane w.pool r).lane
  have hsound : Sound held u.pool := hq ▸ (h.openLane r).without hes
  obtain ⟨ds, v, hfrees⟩ := makeRoom_frees (r := r) hsound (le_refl u.pool.idle.length)
  have hlimits : u.pool.limits = w.pool.limits := hu.limits
  have hleased : u.pool.leased = w.pool.leased := hu.leased
  have hclosing : v.closing = w.closing ++ (es ++ ds).map Idle.conn := by
    rw [hfrees.closing, hu.closing, List.map_append, List.append_assoc]
    rfl
  have hpool : v.pool = q.pulled ds := hq ▸ hfrees.pool
  have hanswer := hfrees.answer
  have hmarks := hfrees.marks
  rw [hlimits, hleased] at hanswer
  rw [hlimits, hq] at hmarks
  refine ⟨ds, hq ▸ hfrees.stocks, hmarks, ?_⟩
  split
  · next hroom =>
    rw [decide_eq_true hroom] at hanswer
    have hprovide : w.provide m r = (some (.create (v.reserve m r).1), (v.reserve m r).2) := by
      rw [provide, seek, pool_change, hreuse]
      refine (if_neg hmax).trans ?_
      rw [hanswer]
    have hrecord : (v.reserve m r).1 = w.pool.nextRecord m r := by
      change v.pool.nextRecord m r = _
      rw [hpool, (Pool.relanes_pulled ds q).nextRecord, Pool.nextRecord_without,
        Pool.nextRecord_without]
      rfl
    exact ⟨by rw [hprovide, ← hrecord], by rw [hprovide, ← hclosing]; rfl,
      by rw [hprovide, ← hpool]; rfl⟩
  · next hroom =>
    rw [decide_eq_false hroom] at hanswer
    have hprovide : w.provide m r = (none, v) := by
      rw [provide, seek, pool_change, hreuse]
      refine (if_neg hmax).trans ?_
      rw [hanswer]
    exact ⟨by rw [hprovide], by rw [hprovide, hclosing], by rw [hprovide, hpool]⟩

theorem exists_first_fit {l : List Idle} {v : Option Nat} (h : ∃ e ∈ l, e.isFit m v) :
    ∃ xs e ys, l = xs ++ e :: ys ∧ (∀ x ∈ xs, ¬ x.isFit m v) ∧ e.isFit m v := by
  obtain ⟨e, he⟩ := Option.isSome_iff_exists.1 (List.find?_isSome.2 h)
  obtain ⟨hfit, xs, ys, hl, hxs⟩ := List.find?_eq_some_iff_append.1 he
  exact ⟨xs, e, ys, hl, by simpa using hxs, hfit⟩

theorem provide_reuse_iff (h : Sound held w.pool) : (∃ e, (w.provide m r).1 = some (.reuse e)) ↔
    ∃ e ∈ (w.pool.lane r).available, e.isFit m w.pool.policy.validateAfter := by
  constructor
  · rintro ⟨e, hanswer⟩
    by_contra hnone
    have hfit : ∀ e ∈ (w.pool.lane r).available, ¬ e.isFit m w.pool.policy.validateAfter :=
      fun e he hfit => hnone ⟨e, he, hfit⟩
    by_cases hlimit : w.pool.AtLimit r
    · rw [(provide_of_atLimit h hfit hlimit).answer] at hanswer
      cases hanswer
    · obtain ⟨ds, -, -, hprovides⟩ := provide_of_below h hfit hlimit
      split at hprovides <;>
        · rw [hprovides.answer] at hanswer
          cases hanswer
  · intro hfit
    obtain ⟨xs, e, ys, ha, hxs, hfit⟩ := exists_first_fit hfit
    exact ⟨e, (provide_of_fit h ha hxs hfit).answer⟩

/-- What looking for a connection of a route comes to.  A connection is granted if one of the route is
fit, and it is the first such one; those before it are closed.  If none is, all of the route are closed,
and at the limit of the route nothing else happens.  Below it the oldest connections of other routes are
closed, as few as make room for a new slot, or all of them where the leased slots leave none. -/
theorem provides_exactly (h : Sound held w.pool) (m : Moment) (r : Route) :
    let p := w.pool
    let es := (p.lane r).available
    let q := (p.openLane r).without es
    let fit (e : Idle) : Prop := e.isFit m p.policy.validateAfter
    ((∃ e, (w.provide m r).1 = some (.reuse e)) ↔ ∃ e ∈ es, fit e) ∧
    (∀ xs e ys, es = xs ++ e :: ys → (∀ x ∈ xs, ¬ fit x) → fit e →
      w.Provides m r (some (.reuse e)) xs
        (((p.openLane r).without (xs ++ [e])).lease e.record) ∧
      (p.InOrder → ∀ d ∈ es, fit d → d.record.updated ≤ e.record.updated)) ∧
    ((∀ e ∈ es, ¬ fit e) → (q.lane r).available = [] ∧
      (p.AtLimit r → w.Provides m r none es q ∧ ∀ s ≠ r, q.lane s = p.lane s) ∧
      (¬ p.AtLimit r → ∃ ds,
        (∀ d ∈ ds, d.record.route ≠ r ∧ d ∈ (p.lane d.record.route).available) ∧
        (p.InOrder → ∀ d ∈ ds, ∀ s, ∀ x ∈ ((q.pulled ds).lane s).available,
          d.record.updated ≤ x.record.updated) ∧
        (p.leased < p.limits.total →
          (∃ k, IsLeast {k | q.allocated - k < p.limits.total} k ∧ ds.length = k ∧
            ds.map Idle.mark = q.idle.take k) ∧
          (p.nextRecord m r).id ∉ (p.census held).map Grant.id ∧
          w.Provides m r (some (.create (p.nextRecord m r))) (es ++ ds)
            ((q.pulled ds).reserve m r)) ∧
        (p.limits.total ≤ p.leased → ds.map Idle.mark = q.idle ∧
          w.Provides m r none (es ++ ds) (q.pulled ds) ∧
          ∀ s, ((q.pulled ds).lane s).available = []))) := by
  intro p es q fit
  have hopen : p.Relanes (p.openLane r) := Pool.relanes_openLane p r
  have hsound : Sound held (p.openLane r) := h.openLane r
  have hes : (p.openLane r).Stocks es := (Pool.stocks_front h List.prefix_rfl).of_lane hopen.lane
  have hq : Sound held q := hsound.without hes
  have hnone : (q.lane r).available = [] :=
    hsound.available_without (by rw [hopen.lane, List.append_nil])
  have hleased : q.leased = p.leased := (Pool.sameSlots_without (p.openLane r) es).total
  refine ⟨provide_reuse_iff h,
    fun xs e ys ha hxs hfit => ⟨provide_of_fit h ha hxs hfit, fun ho d hd hdfit =>
      ho.updated_le_of_append ha hd fun hmem => hxs d hmem hdfit⟩,
    fun hfit => ⟨hnone, fun hlimit => ⟨provide_of_atLimit h hfit hlimit, fun s hs => ?_⟩,
      fun hlimit => ?below⟩⟩
  · have hlane := hsound.lane_without_of_ne hs
    rwa [hopen.lane, hopen.lane] at hlane
  case below =>
    obtain ⟨ds, hds, hmarks, hprovides⟩ := provide_of_below h hfit hlimit
    have hpulled : (q.without ds).Relanes (q.pulled ds) := Pool.relanes_pulled ds q
    refine ⟨ds, fun d hd => ⟨fun hroute => ?_, ?_⟩, fun ho d hd s x hx => ?_, fun hroom => ?_,
      fun hfull => ?_⟩
    · have hmem := hds.available d hd
      rw [hroute, hnone] at hmem
      exact List.not_mem_nil hmem
    · have hmem := ((Pool.draws_without (p.openLane r) es).available _).subset (hds.available d hd)
      rwa [hopen.lane] at hmem
    · rw [hpulled.lane] at hx
      exact ((ho.relane hopen).without hsound hes).updated_le hq hds hmarks hd hx
    · rw [if_pos hroom] at hprovides
      have hlt : q.leased < p.limits.total := hleased.trans_lt hroom
      have hlen := congrArg List.length hmarks
      rw [List.length_map, List.length_take_of_le (Pool.evictions_le_idle hlt)] at hlen
      exact ⟨⟨_, Pool.isLeast_evictions hlt, hlen, hmarks⟩, h.not_mem_next, hprovides⟩
    · rw [if_neg (not_lt.2 hfull)] at hprovides
      have hle := Pool.idle_le_evictions (hfull.trans_eq hleased.symm)
      have hempty : (q.without ds).idle = [] := by
        rw [Pool.idle_without_take hmarks, List.drop_of_length_le hle]
      rw [List.take_of_length_le hle] at hmarks
      refine ⟨hmarks, hprovides, fun s => ?_⟩
      rw [hpulled.lane]
      exact (hq.without hds).available_eq_nil_of_idle hempty

theorem provides_exactly_full :
    let ops := [.lease Sample.route none, .lease Sample.route none, .get ⟨1⟩ false, .get ⟨2⟩ false,
      .connected (Sample.slot 1) ⟨1⟩, .connected (Sample.slot 2) ⟨2⟩, .release ⟨2⟩ true none,
      .release ⟨1⟩ true none].map (Prod.mk Sample.calm)
    let l := (Life.start { Sample.conf with maxTotal := 2 }).run ops
    let w : Work := { pool := l.tenancy.pool }
    Sound l.tenancy.out w.pool ∧
      ∃ ds, ds.map Idle.mark = [⟨⟨2⟩, Sample.route, 0⟩] ∧
        w.Provides Sample.calm Sample.otherRoute (some (.create (.fresh ⟨3⟩ Sample.otherRoute 0 none)))
          ds (((w.pool.openLane Sample.otherRoute).pulled ds).reserve Sample.calm
            Sample.otherRoute) := by
  intro ops l w
  have h : Sound l.tenancy.out w.pool := (Life.run_sound _ ops).sound
  have hnone : (w.pool.lane Sample.otherRoute).available = [] := by decide
  have hbelow : ¬ w.pool.limits.forRoute Sample.otherRoute ≤
      (w.pool.lane Sample.otherRoute).leased.length := by decide
  obtain ⟨-, -, hunfit⟩ := provides_exactly h Sample.calm Sample.otherRoute
  obtain ⟨-, -, hcreate⟩ := hunfit (by simp [hnone])
  obtain ⟨ds, -, -, hroom, -⟩ := hcreate hbelow
  obtain ⟨⟨k, hleast, -, hmarks⟩, -, hprovides⟩ := hroom (by decide)
  have hone : k = 1 := hleast.unique (Pool.isLeast_evictions (by decide))
  rw [hnone] at hmarks hprovides
  refine ⟨h, ds, hmarks.trans ?_, hprovides⟩
  rw [hone]
  decide

end Work

end ConnectionPool
