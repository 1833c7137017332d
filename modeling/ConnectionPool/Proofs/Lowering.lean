import ConnectionPool.Proofs.Retirement

namespace ConnectionPool

variable {held : Multiset Grant} {p : Pool} {w : Work} {e : Idle} {es : List Idle} {l : Lane}
  {r : Route} {m : Moment} {max : Nat}

theorem rel_of_mem_take {α : Type} {R : α → α → Prop} {xs : List α} {x y : α} {n : Nat}
    (h : xs.Pairwise R) (hx : x ∈ xs.take n) (hy : y ∈ xs) (hnot : y ∉ xs.take n) : R x y := by
  rw [← List.take_append_drop n xs] at h hy
  have hdrop : y ∈ List.drop n xs := (List.mem_append.1 hy).resolve_left hnot
  exact (List.pairwise_append.1 h).2.2 x hx y hdrop

theorem filter_flatMap_routes {f : Route → List Idle} (hf : ∀ r, ∀ e ∈ f r, e.record.route = r)
    {rs : List Route} (hrs : rs.Nodup) (r : Route) :
    (rs.flatMap f).filter (·.record.route = r) = if r ∈ rs then f r else [] := by
  have hself : (f r).filter (·.record.route = r) = f r :=
    List.filter_eq_self.2 fun e he => by simpa using hf r e he
  have hother {s : Route} (hs : s ≠ r) : (f s).filter (·.record.route = r) = [] :=
    List.filter_eq_nil_iff.2 fun e he => by simpa [hf s e he] using hs
  induction rs with
  | nil => rfl
  | cons s rs ih =>
    obtain ⟨hnot, hrs⟩ := List.nodup_cons.1 hrs
    rw [List.flatMap_cons, List.filter_append, ih hrs]
    by_cases hs : s = r
    · subst hs
      rw [if_neg hnot, if_pos List.mem_cons_self, hself, List.append_nil]
    · simp [hother hs, Ne.symm hs]

namespace Lane

def surplus (max : Nat) (l : Lane) : List Idle := l.available.reverse.take (l.allocated - max)

structure Surplus (max : Nat) (l : Lane) (es : List Idle) : Prop where
  length : es.length = min l.available.length (l.allocated - max)
  last : es = l.available.reverse.take es.length
  oldest : ∀ e ∈ es, ∀ d ∈ l.available, d ∉ es → e.record.updated ≤ d.record.updated

theorem surplus_subperm (max : Nat) (l : Lane) : (l.surplus max).Subperm l.available :=
  (List.take_sublist _ _).subperm.trans (List.reverse_perm _).subperm

theorem isSurplus_surplus (h : l.available.Pairwise (·.record.updated ≥ ·.record.updated)) (max : Nat) :
    l.Surplus max (l.surplus max) where
  length := by rw [surplus, List.length_take, List.length_reverse, min_comm]
  last := by rw [surplus, List.length_take, ← List.take_take, List.take_length]
  oldest e he d hd hnot :=
    rel_of_mem_take (R := fun x y => x.record.updated ≤ y.record.updated) (List.pairwise_reverse.2 h)
      he (List.mem_reverse.2 hd) hnot

end Lane

namespace Pool

/-- The connections are the oldest of the pool, as many as it has beyond `max` or as many as are
available. -/
structure Surplus (max : Nat) (p : Pool) (es : List Idle) : Prop where
  length : es.length = min p.idle.length (p.allocated - max)
  marks : es.map Idle.mark = p.idle.take es.length
  oldest : ∀ e ∈ es, ∀ r, ∀ d ∈ (p.lane r).available, d ∉ es → e.record.updated ≤ d.record.updated

theorem isSurplus_of_marks (h : Sound held p) (ho : p.InOrder) (hes : p.Stocks es)
    (hmarks : es.map Idle.mark = p.idle.take (p.allocated - max)) : p.Surplus max es where
  length := by
    have hlen := congrArg List.length hmarks
    rwa [List.length_map, List.length_take, min_comm] at hlen
  marks := by
    have hlen := congrArg List.length hmarks
    rw [List.length_map] at hlen
    rw [hlen, hmarks, List.length_take, ← List.take_take, List.take_length]
  oldest e he r d hd hnot := by
    have hmem : d.mark ∈ p.idle := h.mark_mem ((mem_stock h.tidy).2 ⟨r, hd⟩)
    have hfirst : e.mark ∈ p.idle.take (p.allocated - max) := hmarks ▸ List.mem_map_of_mem he
    have hlater : d.mark ∉ p.idle.take (p.allocated - max) :=
      fun hmark => hnot (hes.mem_of_mark h hd (hmarks ▸ hmark))
    exact rel_of_mem_take (R := fun k n => k.released ≤ n.released) ho.sorted hfirst hmem hlater

theorem Settled.lower (h : p.Settled) {k : Limits} (hk : k.Rise p.limits) :
    Settled { p with limits := k } := by
  intro r hr
  obtain ⟨hnone, hfull⟩ := h r hr
  exact ⟨hnone, hfull.imp (hk.route r).trans fun hall => ⟨hall.1, hk.total.trans hall.2⟩⟩

end Pool

namespace Limits

variable {k : Limits}

theorem rise_total (h : max ≤ k.total) : Rise { k with total := max } k := ⟨h, fun _ => le_rfl⟩

theorem rise_perRoute (h : max ≤ k.perRoute) : Rise { k with perRoute := max } k where
  total := le_rfl
  route r := by
    unfold forRoute
    cases k.overrides.get? r with
    | none => exact h
    | some n => exact le_rfl

theorem rise_overrides (h : max ≤ k.forRoute r) :
    Rise { k with overrides := k.overrides.put r max } k where
  total := le_rfl
  route s := by
    by_cases hs : r = s
    · subst hs
      simpa [forRoute] using h
    · simp [forRoute, hs]

end Limits

namespace Work

theorem available_takeOut_last (h : Sound held w.pool) {xs : List Idle}
    (ha : (w.pool.lane e.record.route).available = xs ++ [e]) :
    ((w.pool.takeOut e).lane e.record.route).available = xs := by
  have hn : (xs ++ [e]).Nodup := ha ▸ (h.available_ids _).of_map
  have hnot : e ∉ xs := fun he => List.disjoint_of_nodup_append hn he (List.mem_singleton_self e)
  rw [Pool.lane_takeOut, if_pos rfl, ha, List.erase_append_right _ hnot, List.erase_cons_head,
    List.append_nil]

theorem shrinkLane_retires (h : Sound held w.pool) {n : Nat}
    (hn : (w.pool.lane r).available.length ≤ n) :
    w.Retires ((w.pool.lane r).surplus max) (w.shrinkLane r max n) := by
  induction n generalizing w with
  | zero =>
    have ha : (w.pool.lane r).available = [] := List.eq_nil_of_length_eq_zero (Nat.le_zero.1 hn)
    rw [Lane.surplus, ha, List.reverse_nil, List.take_nil]
    exact .refl w
  | succ n ih =>
    rcases List.eq_nil_or_concat' (w.pool.lane r).available with ha | ⟨xs, e, ha⟩
    · rw [shrinkLane, Lane.surplus, ha, List.reverse_nil, List.take_nil]
      exact .refl w
    · have he : e ∈ (w.pool.lane r).available := by simp [ha]
      obtain rfl : e.record.route = r := h.home r e he
      have hxs := available_takeOut_last h ha
      rw [shrinkLane_of_last h ha]
      split
      · next hmax =>
        have hlen : ((w.pool.takeOut e).lane e.record.route).available.length ≤ n := by
          rw [ha, List.length_append, List.length_singleton] at hn
          rw [hxs]
          exact Nat.le_of_succ_le_succ hn
        have hrest := ih (w := (w.change (Pool.takeOut e)).close e.conn) (h.takeOut he) hlen
        have hsurplus : (w.pool.lane e.record.route).surplus max =
            e :: ((w.pool.takeOut e).lane e.record.route).surplus max := by
          have hone := (h.allocated_takeOut he).1 e.record.route
          rw [if_pos rfl] at hone
          have hmany : (w.pool.lane e.record.route).allocated - max =
              ((w.pool.takeOut e).lane e.record.route).allocated - max + 1 := by omega
          rw [Lane.surplus, Lane.surplus, hmany, ha, hxs, List.reverse_concat, List.take_succ_cons]
        rw [hsurplus]
        exact (Retires.takeOut he).trans h hrest
      · next hmax =>
        rw [Lane.surplus, Nat.sub_eq_zero_of_le (not_lt.1 hmax), List.take_zero]
        exact .refl w

theorem shrinkRoute_retires (h : Sound held w.pool) (max : Nat) (r : Route) :
    w.Retires ((w.pool.lane r).surplus max) (w.shrinkRoute max r) :=
  (shrinkLane_retires h le_rfl).relane (Pool.relanes_prune _ r)

theorem shrinkTotal_retires (h : Sound held w.pool) {n : Nat} (hn : w.pool.idle.length ≤ n) :
    ∃ es, w.Retires es (w.shrinkTotal n) ∧
      es.map Idle.mark = w.pool.idle.take (w.pool.allocated - w.pool.limits.total) := by
  induction n generalizing w with
  | zero =>
    have hi : w.pool.idle = [] := List.eq_nil_of_length_eq_zero (Nat.le_zero.1 hn)
    exact ⟨[], .refl w, by rw [hi, List.take_nil, List.map_nil]⟩
  | succ n ih =>
    rw [shrinkTotal]
    split
    · next hlt =>
      cases hi : w.pool.idle with
      | nil =>
        rw [evict_eq_none hi]
        exact ⟨[], .refl w, by rw [List.take_nil, List.map_nil]⟩
      | cons k ks =>
        obtain ⟨e, he, rfl, hevict⟩ := evict_eq h hi
        have hks : (w.pool.pull e).idle = ks := Pool.idle_pull_of_head hi
        have hpull := Pool.relanes_pull e w.pool
        obtain ⟨-, hone⟩ := h.allocated_takeOut he
        have hlen : (w.pool.pull e).idle.length ≤ n := by
          rw [hi] at hn
          rw [hks]
          exact Nat.le_of_succ_le_succ hn
        obtain ⟨es, hrest, hmarks⟩ := ih (w := (w.change (Pool.pull e)).close e.conn)
          (h.pull he) hlen
        have hmarks : es.map Idle.mark =
            ks.take ((w.pool.pull e).allocated - (w.pool.pull e).limits.total) := hks ▸ hmarks
        rw [hpull.allocated, hpull.draws.limits] at hmarks
        have hmany : w.pool.allocated - w.pool.limits.total =
            (w.pool.takeOut e).allocated - w.pool.limits.total + 1 := by omega
        rw [hevict]
        refine ⟨e :: es, (Retires.pull he).trans h hrest, ?_⟩
        rw [List.map_cons, hmarks, hmany, List.take_succ_cons]
        rfl
    · next hle =>
      refine ⟨[], .refl w, ?_⟩
      rw [Nat.sub_eq_zero_of_le (not_lt.1 hle), List.take_zero, List.map_nil]

section Limits

variable (h : Sound held w.pool) (hs : w.pool.Settled) (hmax : max ≠ 0)
include h hs hmax

theorem setMaxTotal_retires (ho : w.pool.InOrder) (hle : max ≤ w.pool.limits.total) :
    ∃ es, w.pool.Surplus max es ∧
      (w.changeLimits ({ · with total := max })).Retires es (w.setMaxTotal m max).2 := by
  have hlow := changeLimits_sound h ({ · with total := max })
  obtain ⟨es, hretires, hmarks⟩ := shrinkTotal_retires hlow le_rfl
  have hstocks : w.pool.Stocks es := ⟨hretires.stocks.nodup, hretires.stocks.available⟩
  refine ⟨es, Pool.isSurplus_of_marks h ho hstocks hmarks, ?_⟩
  rw [setMaxTotal, if_neg hmax]
  exact hretires.dispatch hlow (hs.lower (Limits.rise_total hle)) m none

theorem setMaxFor_retires (hle : max ≤ w.pool.limits.forRoute r) :
    (w.changeLimits fun k => { k with overrides := k.overrides.put r max }).Retires
      ((w.pool.lane r).surplus max) (w.setMaxFor m r max).2 := by
  have hlow := changeLimits_sound h fun k => { k with overrides := k.overrides.put r max }
  rw [setMaxFor, if_neg hmax]
  exact (shrinkRoute_retires hlow max r).dispatch hlow (hs.lower (Limits.rise_overrides hle)) m _

theorem setDefaultMax_retires (hle : max ≤ w.pool.limits.perRoute) : ∃ es,
    (∀ r, es.filter (·.record.route = r) =
      if w.pool.limits.overrides.has r then [] else (w.pool.lane r).surplus max) ∧
    (w.changeLimits ({ · with perRoute := max })).Retires es (w.setDefaultMax m max).2 := by
  have hlow := changeLimits_sound h ({ · with perRoute := max })
  let rs := w.pool.lanes.keys.filter (!w.pool.limits.overrides.has ·)
  have hrs : rs.Nodup := h.tidy.filter _
  have hretires := Retires.foldl (fun l => l.surplus_subperm max)
    (fun w r hw => shrinkRoute_retires hw max r) hlow hrs
  refine ⟨rs.flatMap fun r => (w.pool.lane r).surplus max, fun r => ?_, ?_⟩
  · have hhome : ∀ r, ∀ e ∈ (w.pool.lane r).surplus max, e.record.route = r :=
      fun r e he => h.home r e ((Lane.surplus_subperm max _).subset he)
    rw [filter_flatMap_routes hhome hrs]
    by_cases hkey : r ∈ w.pool.lanes.keys
    · cases ho : w.pool.limits.overrides.has r <;> simp [rs, hkey, ho]
    · have hlane : w.pool.lane r = {} := by
        rw [Pool.lane, Table.get?_eq_none_iff.2 hkey]
        rfl
      have hnone : (w.pool.lane r).surplus max = [] := by
        rw [hlane]
        exact List.take_nil
      rw [hnone, ite_self, ite_self]
  · rw [setDefaultMax, if_neg hmax]
    exact hretires.dispatch hlow (hs.lower (Limits.rise_perRoute hle)) m none

end Limits

end Work

namespace Life

/-- A limit that is not raised closes what is surplus, the oldest first, and does nothing else: the limit
of the pool that of the pool, the limit of a route that of the route, and the limit of routes without one
of their own that of each of these, while the others lose nothing. -/
theorem lowering_closes_surplus (conf : Conf) (ops : List (Moment × Op)) (hclock : Clocked ops)
    (m : Moment) {max : Nat} (hmax : 0 < max) :
    let l := (start conf).run ops
    let p := l.tenancy.pool
    let k := p.limits
    (max ≤ k.total → ∃ es, p.Surplus max es ∧
      l.Retires { k with total := max } es (l.step m (.setMaxTotal max))) ∧
    (∀ r, max ≤ k.forRoute r → ∃ es, (p.lane r).Surplus max es ∧
      l.Retires { k with overrides := k.overrides.put r max } es (l.step m (.setMaxFor r max))) ∧
    (max ≤ k.perRoute → ∃ es,
      (∀ r, let own := es.filter (·.record.route = r)
        if k.overrides.has r then own = [] else (p.lane r).Surplus max own) ∧
      l.Retires { k with perRoute := max } es (l.step m (.setDefaultMax max))) := by
  intro l p k
  have h : Sound l.tenancy.out p := (run_sound conf ops).sound
  have hs : p.Settled := run_settled conf ops
  have ho : p.InOrder := (run_inOrder conf hclock).1
  have hne : max ≠ 0 := hmax.ne'
  have hlow (k : Limits) : Sound l.tenancy.out { p with limits := k } :=
    Work.changeLimits_sound (w := { pool := p }) h fun _ => k
  refine ⟨fun hle => ?_, fun r hle => ?_, fun hle => ?_⟩
  · obtain ⟨es, hes, hretires⟩ := Work.setMaxTotal_retires (w := { pool := p }) (m := m) h hs hne ho hle
    exact ⟨es, hes, step_retires (hlow _) rfl hretires⟩
  · exact ⟨_, Lane.isSurplus_surplus (ho.lane_sorted r) max, step_retires (hlow _) rfl
      (Work.setMaxFor_retires (w := { pool := p }) (m := m) h hs hne hle)⟩
  · obtain ⟨es, hes, hretires⟩ := Work.setDefaultMax_retires (w := { pool := p }) (m := m) h hs hne hle
    refine ⟨es, fun r => ?_, step_retires (hlow _) rfl hretires⟩
    dsimp only
    rw [hes r]
    split
    · rfl
    · exact Lane.isSurplus_surplus (ho.lane_sorted r) max

theorem lowering_closes_surplus_one :
    let on (n : Nat) : Moment := { Sample.calm with now := n }
    let ops := Sample.regrants.take 6 ++ [(on 1, .release ⟨2⟩ true none), (on 2, .release ⟨1⟩ true none)]
    let l := (start Sample.conf).run ops
    let p := l.tenancy.pool
    (Clocked ops ∧ 0 < 1 ∧ 1 ≤ p.limits.total) ∧ ∃ es, es.map Idle.mark = [⟨⟨2⟩, Sample.route, 1⟩] ∧
      l.Retires { p.limits with total := 1 } es (l.step (on 3) (.setMaxTotal 1)) := by
  intro on ops
  have hclock : Clocked ops := by unfold Clocked; decide
  have hlowers := (lowering_closes_surplus Sample.conf ops hclock (on 3) Nat.one_pos).1
  have hle : 1 ≤ ((start Sample.conf).run ops).tenancy.pool.limits.total := by decide
  have hidle : ((start Sample.conf).run ops).tenancy.pool.idle =
      [⟨⟨2⟩, Sample.route, 1⟩, ⟨⟨1⟩, Sample.route, 2⟩] := by decide
  have hleased : ((start Sample.conf).run ops).tenancy.pool.leased = 0 := by decide
  generalize (start Sample.conf).run ops = l at *
  obtain ⟨es, hes, hretires⟩ := hlowers hle
  have hone : es.length = 1 := by
    rw [hes.length, Pool.allocated, hidle, hleased]
    rfl
  have hmarks : es.map Idle.mark = [⟨⟨2⟩, Sample.route, 1⟩] := by
    rw [hes.marks, hone, hidle]
    rfl
  exact ⟨⟨hclock, Nat.one_pos, hle⟩, es, hmarks, hretires⟩

end Life

end ConnectionPool
