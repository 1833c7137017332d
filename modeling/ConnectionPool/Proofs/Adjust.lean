import ConnectionPool.Pool.Adjust
import ConnectionPool.Proofs.Bounds
import ConnectionPool.Proofs.Upkeep

namespace ConnectionPool

variable {held : Multiset Grant} {c : Multiset Conn} {p q : Pool} {w : Work} {e : Idle} {r : Route}
  {m : Moment}

namespace Work

theorem shrinkLane_of_last (h : Sound held w.pool) {xs : List Idle}
    (ha : (w.pool.lane e.record.route).available = xs ++ [e]) (max n : Nat) :
    w.shrinkLane e.record.route max (n + 1) =
      if max < (w.pool.lane e.record.route).allocated then
        ((w.change (Pool.takeOut e)).close e.conn).shrinkLane e.record.route max n
      else w := by
  have htake := h.takeOut_eq rfl ha
  rw [List.append_nil] at htake
  have hpool : w.change (fun p => { p.setLane e.record.route
      { w.pool.lane e.record.route with
        available := (w.pool.lane e.record.route).available.dropLast } with
      idle := p.idle.drop e.record.id }) = w.change (Pool.takeOut e) := by
    rw [ha, List.dropLast_concat]
    simp only [change, ← htake]
    rfl
  have hlast : (w.pool.lane e.record.route).available.getLast? = some e := by simp [ha]
  rw [shrinkLane, hlast]
  dsimp only
  rw [hpool]

theorem shrinkLane_sheds (h : Sound held w.pool) (max n : Nat)
    (hn : (w.pool.lane r).available.length ≤ n) :
    Sheds ⟨held, c, w⟩ ⟨held, c, w.shrinkLane r max n⟩ ∧
      (((w.shrinkLane r max n).pool.lane r).available ≠ [] →
        ((w.shrinkLane r max n).pool.lane r).allocated ≤ max) := by
  induction n generalizing w with
  | zero =>
    have ha : (w.pool.lane r).available = [] := List.eq_nil_of_length_eq_zero (Nat.le_zero.1 hn)
    exact ⟨.refl, fun hne => absurd ha hne⟩
  | succ n ih =>
    rcases List.eq_nil_or_concat' (w.pool.lane r).available with ha | ⟨xs, e, ha⟩
    · rw [shrinkLane, ha]
      exact ⟨.refl, fun hne => absurd ha hne⟩
    · have he : e ∈ (w.pool.lane r).available := by simp [ha]
      obtain rfl : e.record.route = r := h.home r e he
      rw [shrinkLane_of_last h ha]
      split
      · have hlen : ((w.pool.takeOut e).lane e.record.route).available.length ≤ n := by
          rw [Pool.lane_takeOut, if_pos rfl]
          change ((w.pool.lane e.record.route).available.erase e).length ≤ n
          rw [List.length_erase_of_mem he]
          omega
        obtain ⟨hsheds, hend⟩ := ih (w := (w.change (Pool.takeOut e)).close e.conn)
          (h.takeOut he) hlen
        exact ⟨.head (.close he) hsheds, hend⟩
      · next hmax => exact ⟨.refl, fun _ => not_lt.1 hmax⟩

theorem shrinkTotal_sheds (h : Sound held w.pool) (n : Nat) (hn : w.pool.idle.length ≤ n) :
    Sheds ⟨held, c, w⟩ ⟨held, c, w.shrinkTotal n⟩ ∧
      ((w.shrinkTotal n).pool.idle ≠ [] →
        (w.shrinkTotal n).pool.allocated ≤ (w.shrinkTotal n).pool.limits.total) := by
  induction n generalizing w with
  | zero =>
    have hi : w.pool.idle = [] := List.eq_nil_of_length_eq_zero (Nat.le_zero.1 hn)
    exact ⟨.refl, fun hne => absurd hi hne⟩
  | succ n ih =>
    rw [shrinkTotal]
    split
    · cases hi : w.pool.idle with
      | nil =>
        rw [evict_eq_none hi]
        exact ⟨.refl, fun hne => absurd hi hne⟩
      | cons k ks =>
        obtain ⟨e, he, rfl, hevict⟩ := evict_eq h hi
        have hlen : (w.pool.pull e).idle.length ≤ n := by
          rw [hi] at hn
          rw [Pool.idle_pull_of_head hi]
          exact Nat.le_of_succ_le_succ hn
        obtain ⟨hsheds, hend⟩ := ih (w := (w.change (Pool.pull e)).close e.conn) (h.pull he) hlen
        rw [hevict]
        exact ⟨(sheds_pull he).trans hsheds, hend⟩
    · next hlt => exact ⟨.refl, fun _ => not_lt.1 hlt⟩

theorem shrinkRoute_sheds (h : Sound held w.pool) (max : Nat) (r : Route) :
    Sheds ⟨held, c, w⟩ ⟨held, c, w.shrinkRoute max r⟩ ∧
      (((w.shrinkRoute max r).pool.lane r).available ≠ [] →
        ((w.shrinkRoute max r).pool.lane r).allocated ≤ max) := by
  obtain ⟨hsheds, hend⟩ := shrinkLane_sheds (c := c) h (r := r) max _ le_rfl
  refine ⟨hsheds.tail (.relane (Pool.prune r) (Pool.relanes_prune _ r)), ?_⟩
  rw [shrinkRoute, pool_change, Pool.lane_prune]
  exact hend

theorem shrinkAll_sheds (h : Sound held w.pool) (max : Nat) (rs : List Route) :
    Sheds ⟨held, c, w⟩ ⟨held, c, rs.foldl (fun w r => w.shrinkRoute max r) w⟩ ∧
      ∀ r ∈ rs, ((rs.foldl (fun w r => w.shrinkRoute max r) w).pool.lane r).available ≠ [] →
        ((rs.foldl (fun w r => w.shrinkRoute max r) w).pool.lane r).allocated ≤ max := by
  induction rs generalizing w with
  | nil => exact ⟨.refl, fun r hr => absurd hr List.not_mem_nil⟩
  | cons s rs ih =>
    obtain ⟨hs, hend⟩ := shrinkRoute_sheds (c := c) h max s
    obtain ⟨hrest, hall⟩ := ih (w := w.shrinkRoute max s)
      (Scene.IsSound.sheds (s := ⟨held, c, w⟩) h hs)
    refine ⟨hs.trans hrest, fun r hr => ?_⟩
    rcases List.mem_cons.1 hr with rfl | hr
    · exact hrest.route_le hend
    · exact hall r hr

theorem changeLimits_sound (h : Sound held w.pool) (f : Limits → Limits) :
    Sound held (w.changeLimits f).pool :=
  h.of_eq rfl rfl rfl rfl rfl rfl le_rfl le_rfl

/-- A change of the limits.  It is refused and changes nothing, or idle connections are closed until
the pool is within bounds again, and then it dispatches. -/
inductive Relimits (m : Moment) (held : Multiset Grant) (c : Multiset Conn) (f : Limits → Limits)
    (first : Option Route) (w : Work) : Work → Prop
  | refused (hf : f w.pool.limits = w.pool.limits) : Relimits m held c f first w w
  | done {v : Work} (hsheds : Sheds ⟨held, c, w.changeLimits f⟩ ⟨held, c, v⟩)
      (hbound : w.pool.Bounded → v.pool.Bounded) : Relimits m held c f first w (v.dispatch m first)

namespace Relimits

variable {f : Limits → Limits} {first : Option Route} {u : Work}

theorem trades (h : Sound held w.pool) (hr : Relimits m held c f first w u) :
    Trades m ⟨held, c, w.changeLimits f⟩ ⟨held, c, u⟩ := by
  cases hr with
  | refused hf =>
    have hw : w.changeLimits f = w := by
      rw [changeLimits, change, hf]
    rw [hw]
  | done hsheds =>
    exact dispatch_tail (s := ⟨held, c, w.changeLimits f⟩) (changeLimits_sound h f) first
      hsheds.gains.serves.trades

theorem settled (h : Sound held w.pool) (hr : Relimits m held c f first w u) (hs : w.pool.Settled) :
    u.pool.Settled := by
  cases hr with
  | refused => exact hs
  | done hsheds =>
    exact dispatch_settled (Scene.IsSound.sheds (s := ⟨held, c, w.changeLimits f⟩)
      (changeLimits_sound h f) hsheds) first

theorem bounded (h : Sound held w.pool) (hr : Relimits m held c f first w u) (hb : w.pool.Bounded) :
    u.pool.Bounded := by
  cases hr with
  | refused => exact hb
  | @done v hsheds hbound =>
    have hsound : Sound held v.pool := Scene.IsSound.sheds
      (s := ⟨held, c, w.changeLimits f⟩) (changeLimits_sound h f) hsheds
    exact Trades.bounded (s := ⟨held, c, v⟩) hsound (dispatch_moves hsound first).trades
      (hbound hb)

end Relimits

theorem setMaxTotal_relimits (h : Sound held w.pool) (max : Nat) :
    Relimits m held c (fun l => if max = 0 then l else { l with total := max }) none w
      (w.setMaxTotal m max).2 := by
  unfold setMaxTotal
  split
  · exact .refused rfl
  · obtain ⟨hsheds, hend⟩ := shrinkTotal_sheds (c := c)
      (changeLimits_sound h ({ · with total := max })) _ le_rfl
    refine .done hsheds fun hb => ⟨fun r => ?_, hend⟩
    rw [hsheds.draws.limits]
    exact hsheds.route_le (hb.route r)

theorem setDefaultMax_relimits (h : Sound held w.pool) (max : Nat) :
    Relimits m held c (fun l => if max = 0 then l else { l with perRoute := max }) none w
      (w.setDefaultMax m max).2 := by
  unfold setDefaultMax
  split
  · exact .refused rfl
  let v := w.changeLimits ({ · with perRoute := max })
  obtain ⟨hsheds, hend⟩ := shrinkAll_sheds (c := c) (w := v) (changeLimits_sound h _) max
    (v.pool.lanes.keys.filter fun r => !v.pool.limits.overrides.has r)
  refine .done hsheds fun hb => ⟨fun r => ?_, ?_⟩
  · rw [hsheds.draws.limits]
    cases ho : w.pool.limits.overrides.get? r with
    | some k =>
      apply hsheds.route_le
      have hk : v.pool.limits.forRoute r = w.pool.limits.forRoute r := by
        simp only [Limits.forRoute, v, changeLimits, pool_change, ho, Option.getD_some]
      exact hk ▸ hb.route r
    | none =>
      have hk : v.pool.limits.forRoute r = max := by
        simp only [Limits.forRoute, v, changeLimits, pool_change, ho, Option.getD_none]
      by_cases hmem : r ∈ w.pool.lanes.keys
      · change _ → _ ≤ v.pool.limits.forRoute r
        rw [hk]
        refine hend r (List.mem_filter.2 ⟨hmem, ?_⟩)
        have hhas : v.pool.limits.overrides.has r = (w.pool.limits.overrides.get? r).isSome := rfl
        simp [hhas, ho]
      · refine hsheds.route_le fun hne => ?_
        have hlane : w.pool.lane r = {} := by
          rw [Pool.lane, Table.get?_eq_none_iff.2 hmem]
          rfl
        exact absurd (congrArg Lane.available hlane) hne
  · rw [hsheds.draws.limits]
    exact hsheds.total_le hb.total

theorem setMaxFor_relimits (h : Sound held w.pool) (route : Route) (max : Nat) :
    Relimits m held c
      (fun l => if max = 0 then l else { l with overrides := l.overrides.put route max })
      (some route) w
      (w.setMaxFor m route max).2 := by
  unfold setMaxFor
  split
  · exact .refused rfl
  let v := w.changeLimits fun l => { l with overrides := l.overrides.put route max }
  obtain ⟨hsheds, hend⟩ := shrinkRoute_sheds (c := c) (w := v) (changeLimits_sound h _) max route
  refine .done hsheds fun hb => ⟨fun r => ?_, ?_⟩
  · rw [hsheds.draws.limits]
    by_cases hr : route = r
    · have hk : v.pool.limits.forRoute r = max := by
        simp only [Limits.forRoute, v, changeLimits, pool_change, hr, Table.get?_put_self,
          Option.getD_some]
      change _ → _ ≤ v.pool.limits.forRoute r
      rw [hk, ← hr]
      exact hend
    · have hk : v.pool.limits.forRoute r = w.pool.limits.forRoute r := by
        simp only [Limits.forRoute, v, changeLimits, pool_change, Table.get?_put_of_ne _ _ hr]
      exact hk ▸ hsheds.route_le (hb.route r)
  · rw [hsheds.draws.limits]
    exact hsheds.total_le hb.total

end Work

end ConnectionPool
