import ConnectionPool.Proofs.Capacity

/-! Likeness.  What is found for a caller depends on the limits, the slots and the connections of a
pool, and not on who waits. -/

namespace ConnectionPool

variable {held : Multiset Grant} {p q u : Pool} {w v : Work} {a b : List Conn} {e : Idle}
  {r : Route} {m : Moment}

namespace Pool

/-- The pools have the same limits, slots and connections.  Others may wait. -/
structure Alike (p q : Pool) : Prop where
  limits : q.limits = p.limits
  policy : q.policy = p.policy
  isShut : q.isShut = p.isShut
  lastEntry : q.lastEntry = p.lastEntry
  leased : q.leased = p.leased
  idle : q.idle = p.idle
  slots : ∀ r, (q.lane r).leased = (p.lane r).leased
  available : ∀ r, (q.lane r).available = (p.lane r).available

namespace Alike

theorem refl (p : Pool) : p.Alike p :=
  ⟨rfl, rfl, rfl, rfl, rfl, rfl, fun _ => rfl, fun _ => rfl⟩

theorem symm (h : p.Alike q) : q.Alike p :=
  ⟨h.limits.symm, h.policy.symm, h.isShut.symm, h.lastEntry.symm, h.leased.symm, h.idle.symm,
    fun r => (h.slots r).symm, fun r => (h.available r).symm⟩

theorem trans (h : p.Alike q) (k : q.Alike u) : p.Alike u where
  limits := k.limits.trans h.limits
  policy := k.policy.trans h.policy
  isShut := k.isShut.trans h.isShut
  lastEntry := k.lastEntry.trans h.lastEntry
  leased := k.leased.trans h.leased
  idle := k.idle.trans h.idle
  slots r := (k.slots r).trans (h.slots r)
  available r := (k.available r).trans (h.available r)

theorem of_relanes (h : p.Relanes q) : p.Alike q where
  limits := by rw [h.rest]
  policy := by rw [h.rest]
  isShut := by rw [h.rest]
  lastEntry := h.lastEntry
  leased := by rw [h.rest]
  idle := h.idle
  slots r := by rw [h.lane]
  available r := by rw [h.lane]

theorem relane {p' q' : Pool} (h : p.Alike q) (hp : p.Relanes p') (hq : q.Relanes q') :
    p'.Alike q' :=
  (of_relanes hp).symm.trans (h.trans (of_relanes hq))

theorem setLane {l k : Lane} (h : p.Alike q) (hslots : k.leased = l.leased)
    (ha : k.available = l.available) : (p.setLane r l).Alike (q.setLane r k) where
  limits := h.limits
  policy := h.policy
  isShut := h.isShut
  lastEntry := h.lastEntry
  leased := h.leased
  idle := h.idle
  slots s := by
    rw [lane_of_edit (p := p) (q := p.setLane r l) rfl,
      lane_of_edit (p := q) (q := q.setLane r k) rfl]
    split
    · exact hslots
    · exact h.slots s
  available s := by
    rw [lane_of_edit (p := p) (q := p.setLane r l) rfl,
      lane_of_edit (p := q) (q := q.setLane r k) rfl]
    split
    · exact ha
    · exact h.available s

theorem allocated (h : p.Alike q) : q.allocated = p.allocated := by
  rw [Pool.allocated, h.leased, h.idle, Pool.allocated]

theorem lt_total (h : p.Alike q) (hlt : p.allocated < p.limits.total) :
    q.allocated < q.limits.total := by rwa [h.allocated, h.limits]

theorem allocated_lane (h : p.Alike q) (r : Route) :
    (q.lane r).allocated = (p.lane r).allocated := by
  rw [Lane.allocated, h.slots, h.available, Lane.allocated]

theorem stuck (h : p.Alike q) (hs : p.Stuck r) : q.Stuck r where
  available := (h.available r).trans hs.available
  full := by
    rw [h.limits, h.slots, h.idle, h.leased]
    exact hs.full

theorem withinLimits (h : p.Alike q) (hp : p.WithinLimits) : q.WithinLimits where
  total := by
    rw [h.allocated, h.limits]
    exact hp.total
  route r := by
    rw [h.allocated_lane, h.limits]
    exact hp.route r

theorem number (h : p.Alike q) (n : Nat) :
    Pool.Alike { p with lastEntry := n } { q with lastEntry := n } :=
  { h with lastEntry := rfl }

theorem takeOut (h : p.Alike q) (e : Idle) : (p.takeOut e).Alike (q.takeOut e) :=
  { h.setLane (r := e.record.route) (l := { p.lane e.record.route with
      available := (p.lane e.record.route).available.erase e }) (k := { q.lane e.record.route with
      available := (q.lane e.record.route).available.erase e }) (h.slots _)
      (congrArg (·.erase e) (h.available _)) with
    idle := congrArg (·.erase e.mark) h.idle }

theorem pull (h : p.Alike q) (e : Idle) : (p.pull e).Alike (q.pull e) :=
  (h.takeOut e).relane (relanes_prune _ _) (relanes_prune _ _)

theorem lease (h : p.Alike q) (t : Record) : (p.lease t).Alike (q.lease t) :=
  { h.setLane (r := t.route) (l := (p.lane t.route).lease t.id) (k := (q.lane t.route).lease t.id)
      (congrArg (·.insert t.id) (h.slots _)) (h.available _) with
    leased := congrArg (· + 1) h.leased }

end Alike

end Pool

def Report.isDeed (x : Report) : Bool := x.handed?.isSome || x.evicted?.isSome

namespace Work

def deeds (w : Work) : List Report := w.reports.filter Report.isDeed

theorem deeds_report (rs : List Report) (w : Work) :
    (w.report rs).deeds = w.deeds ++ rs.filter Report.isDeed := List.filter_append ..

theorem deeds_note (n : Notice) (w : Work) :
    (w.note n).deeds = w.deeds ++ [.noted n].filter Report.isDeed := List.filter_append ..

structure Rests (w v : Work) : Prop where
  pool : v.pool = w.pool
  closing : v.closing = w.closing
  deeds : v.deeds = w.deeds

theorem Rests.refl (w : Work) : w.Rests w := ⟨rfl, rfl, rfl⟩

theorem Rests.trans {u : Work} (h : w.Rests v) (k : v.Rests u) : w.Rests u :=
  ⟨k.pool.trans h.pool, k.closing.trans h.closing, k.deeds.trans h.deeds⟩

theorem rests_note {n : Notice} (hn : Report.isDeed (.noted n) = false) : w.Rests (w.note n) where
  pool := rfl
  closing := rfl
  deeds := by simp [deeds_note, hn]

theorem seek_rests (hs : w.pool.Stuck r) :
    (w.seek m r).1 = none ∧ w.Rests (w.seek m r).2 := by
  obtain ⟨hnone, hpool, hclosing⟩ := seek_of_stuck m hs
  refine ⟨hnone, hpool, hclosing, ?_⟩
  unfold seek
  rw [hs.available, reuse]
  dsimp only
  split
  · exact (rests_note rfl).deeds
  · next hmax =>
    have hall : (w.pool.lane r).allocated = (w.pool.lane r).leased.length := by
      rw [Lane.allocated, hs.available, List.length_nil, Nat.add_zero]
    obtain ⟨hi, htotal⟩ := hs.full.resolve_left (hall ▸ hmax)
    have hlt : ¬ w.pool.allocated < w.pool.limits.total := by
      rw [Pool.allocated, hi]
      exact not_lt.2 htotal
    rw [makeRoom_of_idle_eq_nil _ hlt hi]

theorem provide_rests (hs : w.pool.Stuck r) : (w.provide m r).1 = none ∧
    (w.change (Pool.openLane r)).Rests (w.provide m r).2 :=
  seek_rests (w := w.change (Pool.openLane r)) (hs.draws (Pool.relanes_openLane w.pool r).draws)

theorem serve_rests (hs : w.pool.Stuck r) (n : Nat) : w.Rests (w.serve m r n) := by
  cases n with
  | zero => exact .refl w
  | succ n =>
    obtain ⟨hnone, hrests⟩ := provide_rests (m := m) hs
    rw [serve]
    split
    · exact .refl w
    · next hq =>
      rw [change_openLane (by simp [hq])] at hrests
      generalize w.provide m r = x at hnone hrests ⊢
      obtain ⟨g, u⟩ := x
      subst hnone
      exact hrests

theorem stuck_of_provide_eq_none (h : Sound held w.pool) (hopen : w.pool.isShut = false)
    (hin : w.pool.WithinLimits) (hnone : (w.provide m r).1 = none) : w.pool.Stuck r := by
  rcases provide_moves (m := m) (c := 0) (r := r) h hopen with
    ⟨g, u, hprovide, -⟩ | ⟨u, -, hstuck, hsheds⟩
  · rw [hprovide] at hnone
    cases hnone
  have hslots : w.pool.SameSlots u.pool := hsheds.sameSlots
  have hd : w.pool.Draws u.pool := Gains.draws (m := m) hsheds.gains
  rcases hstuck.full with hroute | ⟨-, htotal⟩
  · rw [hd.limits, hslots.leased] at hroute
    have hle := (hin.route r).trans hroute
    rw [Lane.allocated] at hle
    exact ⟨List.eq_nil_of_length_eq_zero (by omega), .inl hroute⟩
  · rw [hd.limits, hslots.total] at htotal
    have hle := hin.total.trans htotal
    rw [Pool.allocated] at hle
    have hidle : w.pool.idle = [] := List.eq_nil_of_length_eq_zero (by omega)
    refine ⟨List.eq_nil_iff_forall_not_mem.2 fun e he => ?_, .inr ⟨hidle, htotal⟩⟩
    have hmark := h.mark_mem ((Pool.mem_stock h.tidy).2 ⟨r, he⟩)
    rw [hidle] at hmark
    exact List.not_mem_nil hmark

structure Alike (a b : List Conn) (w v : Work) : Prop where
  pool : w.pool.Alike v.pool
  closing : ∃ cs, w.closing = a ++ cs ∧ v.closing = b ++ cs
  deeds : v.deeds = w.deeds

namespace Alike

theorem symm (h : Alike a b w v) : Alike b a v w where
  pool := h.pool.symm
  closing := by
    obtain ⟨cs, hw, hv⟩ := h.closing
    exact ⟨cs, hv, hw⟩
  deeds := h.deeds.symm

theorem left {u : Work} (h : Alike a b w v) (hu : w.Rests u) : Alike a b u v where
  pool := hu.pool ▸ h.pool
  closing := hu.closing ▸ h.closing
  deeds := h.deeds.trans hu.deeds.symm

theorem right {u : Work} (h : Alike a b w v) (hu : v.Rests u) : Alike a b w u :=
  (h.symm.left hu).symm

theorem report (h : Alike a b w v) (rs : List Report) : Alike a b (w.report rs) (v.report rs) where
  pool := h.pool
  closing := h.closing
  deeds := by rw [deeds_report, deeds_report, h.deeds]

theorem note (h : Alike a b w v) (n : Notice) : Alike a b (w.note n) (v.note n) :=
  h.report [.noted n]

theorem close (h : Alike a b w v) (c : Conn) : Alike a b (w.close c) (v.close c) where
  pool := h.pool
  closing := by
    obtain ⟨cs, hw, hv⟩ := h.closing
    exact ⟨cs ++ [c], by simp [hw], by simp [hv]⟩
  deeds := h.deeds

theorem change {f g : Pool → Pool} (h : Alike a b w v) (hp : (f w.pool).Alike (g v.pool)) :
    Alike a b (w.change f) (v.change g) where
  pool := hp
  closing := h.closing
  deeds := h.deeds

theorem reuse (hw : Sound held w.pool) (hv : Sound held v.pool) (h : Alike a b w v)
    {es : List Idle} (hes : (w.pool.lane r).available = es) :
    (v.reuse m r es).1 = (w.reuse m r es).1 ∧
      Alike a b (w.reuse m r es).2 (v.reuse m r es).2 := by
  induction es generalizing w v with
  | nil => exact ⟨rfl, h⟩
  | cons e es ih =>
    have hr : e.record.route = r := hw.home r e (by simp [hes])
    have hes' : (v.pool.lane r).available = e :: es := (h.pool.available r).trans hes
    have hmem : e ∈ (w.pool.lane e.record.route).available := by simp [hr, hes]
    have hmem' : e ∈ (v.pool.lane e.record.route).available := by simp [hr, hes']
    rw [reuse_cons hw hr hes, reuse_cons hv hr hes', h.pool.policy]
    split
    · exact ⟨rfl, ((((h.report _).note _).change (h.pool.takeOut e)).change
        ((h.pool.takeOut e).lease e.record))⟩
    · refine ih (hw.takeOut hmem) (hv.takeOut hmem')
        ((((h.report _).note _).change (h.pool.takeOut e)).close e.conn) ?_
      change ((w.pool.takeOut e).lane r).available = es
      rw [Pool.lane_takeOut, if_pos hr.symm, hr, hes, List.erase_cons_head]

theorem evict (hw : Sound held w.pool) (hv : Sound held v.pool) (h : Alike a b w v) :
    w.pool.idle = [] ∧ w.evict = (none, w) ∧ v.evict = (none, v) ∨
      ∃ e ∈ (w.pool.lane e.record.route).available, w.evict = (some e, w.change (Pool.pull e)) ∧
        v.evict = (some e, v.change (Pool.pull e)) := by
  cases hi : w.pool.idle with
  | nil => exact .inl ⟨rfl, evict_eq_none hi, evict_eq_none (h.pool.idle.trans hi)⟩
  | cons k ks =>
    obtain ⟨e, he, rfl, hevict⟩ := evict_eq hw hi
    obtain ⟨d, hd, hmark, hevict'⟩ := evict_eq hv (h.pool.idle.trans hi)
    have hroute : d.record.route = e.record.route := congrArg Mark.route hmark
    rw [hroute, h.pool.available] at hd
    rw [hw.mark_inj he hd hmark] at hevict'
    exact .inr ⟨e, he, hevict, hevict'⟩

theorem makeRoom (hw : Sound held w.pool) (hv : Sound held v.pool) (h : Alike a b w v) {n : Nat}
    (hn : w.pool.idle.length ≤ n) : (v.makeRoom r n).1 = (w.makeRoom r n).1 ∧
      Alike a b (w.makeRoom r n).2 (v.makeRoom r n).2 := by
  induction n generalizing w v with
  | zero =>
    have hi : w.pool.idle = [] := List.eq_nil_of_length_eq_zero (Nat.le_zero.1 hn)
    by_cases hlt : w.pool.allocated < w.pool.limits.total
    · rw [makeRoom_of_lt 0 hlt, makeRoom_of_lt 0 (h.pool.lt_total hlt)]
      exact ⟨rfl, h⟩
    · have hlt' : ¬ v.pool.allocated < v.pool.limits.total := fun hlt' =>
        hlt (h.pool.symm.lt_total hlt')
      rw [makeRoom_of_idle_eq_nil 0 hlt hi, makeRoom_of_idle_eq_nil 0 hlt' (h.pool.idle.trans hi)]
      exact ⟨rfl, h⟩
  | succ n ih =>
    by_cases hlt : w.pool.allocated < w.pool.limits.total
    · rw [makeRoom_of_lt _ hlt, makeRoom_of_lt _ (h.pool.lt_total hlt)]
      exact ⟨rfl, h⟩
    · have hlt' : ¬ v.pool.allocated < v.pool.limits.total := fun hlt' =>
        hlt (h.pool.symm.lt_total hlt')
      rcases h.evict hw hv with ⟨hi, -⟩ | ⟨e, he, hevict, hevict'⟩
      · rw [makeRoom_of_idle_eq_nil _ hlt hi, makeRoom_of_idle_eq_nil _ hlt' (h.pool.idle.trans hi)]
        exact ⟨rfl, h⟩
      · rw [makeRoom_succ hlt hevict, makeRoom_succ hlt' hevict']
        have he' : e ∈ (v.pool.lane e.record.route).available := by rwa [h.pool.available]
        refine ih (hw.pull he) (hv.pull he')
          (((h.change (h.pool.pull e)).note _).close e.conn) ?_
        have hmem : e.mark ∈ w.pool.idle := hw.mark_mem (hw.mem_stock.2 he)
        change (w.pool.pull e).idle.length ≤ n
        rw [(Pool.relanes_pull e w.pool).idle, Pool.takeOut, List.length_erase_of_mem hmem]
        omega

theorem reserve (h : Alike a b w v) :
    (v.reserve m r).1 = (w.reserve m r).1 ∧ Alike a b (w.reserve m r).2 (v.reserve m r).2 := by
  have hrecord : (v.reserve m r).1 = (w.reserve m r).1 := by
    simp only [Work.reserve, h.pool.lastEntry, h.pool.policy]
  have hreserve (w : Work) : (w.reserve m r).2 =
      ((w.change ({ · with lastEntry := w.pool.lastEntry + 1 })).note
        (.reserve ⟨w.pool.lastEntry + 1⟩ r)).change (Pool.lease (w.reserve m r).1) := rfl
  have hnext := h.pool.number (w.pool.lastEntry + 1)
  refine ⟨hrecord, ?_⟩
  rw [hreserve w, hreserve v, hrecord, h.pool.lastEntry]
  exact ((h.change hnext).note _).change (hnext.lease _)

theorem seek (hw : Sound held w.pool) (hv : Sound held v.pool) (h : Alike a b w v) :
    (v.seek m r).1 = (w.seek m r).1 ∧ Alike a b (w.seek m r).2 (v.seek m r).2 := by
  have hreuse := h.reuse (m := m) hw hv (r := r) rfl
  obtain ⟨w', hsheds, hfound⟩ := reuse_moves (m := m) (c := 0) hw (r := r) rfl
  obtain ⟨v', hsheds', hfound'⟩ := reuse_moves (m := m) (c := 0) hv (r := r) rfl
  rw [h.pool.available] at hfound'
  have hw' : Sound held w'.pool := Scene.IsSound.sheds (s := ⟨held, 0, w⟩) hw hsheds
  have hv' : Sound held v'.pool := Scene.IsSound.sheds (s := ⟨held, 0, v⟩) hv hsheds'
  unfold Work.seek
  rw [h.pool.available]
  rcases hfound with ⟨-, hfound⟩ | ⟨e, rest, -, -, -, hfound⟩
  · rcases hfound' with ⟨-, hfound'⟩ | ⟨e', rest', -, -, -, hfound'⟩
    · rw [hfound, hfound'] at hreuse ⊢
      have halike : Alike a b w' v' := hreuse.2
      dsimp only
      rw [halike.pool.limits, halike.pool.allocated_lane]
      split
      · exact ⟨rfl, halike.note _⟩
      · have hroom := halike.makeRoom hw' hv' (r := r) (le_refl w'.pool.idle.length)
        rw [halike.pool.idle]
        generalize w'.makeRoom r w'.pool.idle.length = x at hroom ⊢
        generalize v'.makeRoom r w'.pool.idle.length = y at hroom ⊢
        obtain ⟨room, w''⟩ := x
        obtain ⟨room', v''⟩ := y
        obtain ⟨rfl, halike⟩ := hroom
        cases room' with
        | true =>
          obtain ⟨hrecord, hreserve⟩ := halike.reserve (m := m) (r := r)
          exact ⟨congrArg (some ∘ Grant.create) hrecord, hreserve⟩
        | false => exact ⟨rfl, halike⟩
    · rw [hfound, hfound'] at hreuse
      cases hreuse.1
  · rcases hfound' with ⟨-, hfound'⟩ | ⟨e', rest', -, -, -, hfound'⟩
    · rw [hfound, hfound'] at hreuse
      cases hreuse.1
    · rw [hfound, hfound'] at hreuse ⊢
      exact ⟨congrArg (Option.map Grant.reuse) hreuse.1, hreuse.2⟩

theorem relane {f g : Pool → Pool} (h : Alike a b w v) (hf : w.pool.Relanes (f w.pool))
    (hg : v.pool.Relanes (g v.pool)) : Alike a b (w.change f) (v.change g) :=
  h.change (h.pool.relane hf hg)

theorem provide (hw : Sound held w.pool) (hv : Sound held v.pool) (h : Alike a b w v) :
    (v.provide m r).1 = (w.provide m r).1 ∧
      Alike a b (w.provide m r).2 (v.provide m r).2 :=
  seek (w := w.change (Pool.openLane r)) (v := v.change (Pool.openLane r)) (hw.openLane r)
    (hv.openLane r) (h.relane (Pool.relanes_openLane _ r) (Pool.relanes_openLane _ r))

end Alike

end Work

end ConnectionPool
