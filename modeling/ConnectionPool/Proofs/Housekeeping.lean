import ConnectionPool.Proofs.Counterpart
import ConnectionPool.Proofs.Flow

namespace ConnectionPool

variable {held : Multiset Grant} {p q : Pool} {w v : Work} {a b : List Conn} {e : Idle}
  {x : RequestId} {r : Route} {m : Moment}

theorem Limits.Rise.withinLimits {f : Limits → Limits} (h : p.limits.Rise (f p.limits))
    (hin : p.WithinLimits) : Pool.WithinLimits { p with limits := f p.limits } :=
  ⟨hin.total.trans h.total, fun r => (hin.route r).trans (h.route r)⟩

theorem eq_of_sublist {α : Type} [DecidableEq α] {xs ys zs : List α} (hzs : zs.Nodup)
    (hxs : xs.Sublist zs) (hys : ys.Sublist zs) (h : ∀ y, y ∈ xs ↔ y ∈ ys) : xs = ys := by
  have hperm : xs.Perm ys :=
    (List.perm_ext_iff_of_nodup (hzs.sublist hxs) (hzs.sublist hys)).2 h
  exact (hzs.perm_iff_eq_of_sublist hxs hys).1 hperm

theorem Sound.mem_idle (h : Sound held p) {k : Mark} :
    k ∈ p.idle ↔ ∃ r, ∃ e ∈ (p.lane r).available, e.mark = k := by
  constructor
  · intro hk
    obtain ⟨e, he, heq⟩ := h.exists_of_mark hk
    exact ⟨_, e, h.mem_stock.1 he, heq⟩
  · rintro ⟨r, e, he, rfl⟩
    exact h.mark_mem ((Pool.mem_stock h.tidy).2 ⟨r, he⟩)

theorem Shed.lastEntry_eq {s t : Scene} (h : Shed s t) :
    t.work.pool.lastEntry = s.work.pool.lastEntry := by
  cases h with
  | relane f hf => exact hf.lastEntry
  | report => rfl
  | close => rfl
  | evict => exact (Pool.relanes_pull _ _).lastEntry

theorem Sheds.lastEntry_eq {s t : Scene} (h : Sheds s t) :
    t.work.pool.lastEntry = s.work.pool.lastEntry := by
  induction h with
  | refl => rfl
  | tail _ hst ih => exact hst.lastEntry_eq.trans ih

/-- Two sweeps close the same.  Each goes through the requests and through the routes in an order of
its own. -/
def SameSweep (a b : List Conn) : Prop :=
  ∃ (held held' : List Conn) (rs rs' : List Route) (f : Route → List Conn),
    held.Perm held' ∧ rs.Perm rs' ∧ a = held ++ rs.flatMap f ∧ b = held' ++ rs'.flatMap f

namespace SameSweep

theorem nil : SameSweep [] [] := ⟨[], [], [], [], fun _ => [], .refl _, .refl _, rfl, rfl⟩

theorem perm (h : SameSweep a b) : a.Perm b := by
  obtain ⟨held, held', rs, rs', f, hheld, hrs, rfl, rfl⟩ := h
  exact hheld.append (hrs.flatMap_right f)

theorem of_routes {held held' : List Conn} (hheld : held.Perm held') {rs rs' : List Route}
    (hrs : rs.Nodup) (hrs' : rs'.Nodup) {f : Route → List Conn} (h : ∀ r, f r ≠ [] → r ∈ rs)
    (h' : ∀ r, f r ≠ [] → r ∈ rs') :
    SameSweep (held ++ rs.flatMap f) (held' ++ rs'.flatMap f) := by
  have hfilter (l : List Route) : (l.filter (f · ≠ [])).flatMap f = l.flatMap f := by
    induction l with
    | nil => rfl
    | cons r l ih =>
      by_cases hr : f r = []
      · simpa [hr] using ih
      · simpa [hr] using ih
  -- only routes where something is closed need be in both lists
  refine ⟨held, held', rs.filter (f · ≠ []), rs'.filter (f · ≠ []), f, hheld, ?_, by rw [hfilter],
    by rw [hfilter]⟩
  refine (List.perm_ext_iff_of_nodup (hrs.filter _) (hrs'.filter _)).2 fun r => ?_
  simp only [List.mem_filter, decide_eq_true_eq]
  exact ⟨fun hr => ⟨h' r hr.2, hr.2⟩, fun hr => ⟨h r hr.2, hr.2⟩⟩

end SameSweep

namespace Pool

def sweepable (f : Idle → Bool) (p : Pool) : List Conn :=
  p.lanes.keys.flatMap fun r => ((p.lane r).available.filter f).map Idle.conn

theorem mem_keys_of_available {f : Idle → Bool}
    (h : ((p.lane r).available.filter f).map Idle.conn ≠ []) : r ∈ p.lanes.keys := by
  by_contra hr
  have hlane : p.lane r = {} := by
    rw [Pool.lane, Table.get?_eq_none_iff.2 hr]
    rfl
  rw [hlane] at h
  exact h rfl

theorem Alike.sweepable (h : p.Alike q) (hp : p.Tidy) (hq : q.Tidy) {held held' : List Conn}
    (hheld : held.Perm held') (f : Idle → Bool) :
    SameSweep (held ++ p.sweepable f) (held' ++ q.sweepable f) := by
  unfold Pool.sweepable
  simp only [h.available]
  refine .of_routes hheld hp hq (fun r hr => mem_keys_of_available hr) fun r hr => ?_
  rw [← h.available] at hr
  exact mem_keys_of_available hr

theorem flatMap_available (hp : p.Tidy) :
    (p.lanes.flatMap fun l => l.2.available.map Idle.conn) = p.sweepable fun _ => true := by
  unfold sweepable Table.keys
  rw [List.flatMap_map]
  refine List.flatMap_congr fun x hx => ?_
  rw [lane_of_mem hp hx, List.filter_true]

end Pool

namespace Sound

theorem grants_eq (hp : Sound held p) (hq : Sound held q) (h : Pool.Lacks x p q)
    (hx : ¬ p.HasGrant x) : q.grants = p.grants := by
  have hgrants {u : Pool} (hu : Sound held u) : u.grants.Nodup := by
    refine Multiset.nodup_of_le ?_ (Multiset.Nodup.of_map _ hu.ids)
    exact (Multiset.le_add_left _ _).trans (Multiset.le_add_right _ _)
  refine ((hgrants hq).ext (hgrants hp)).2 fun g => ?_
  rw [hq.mem_grants, hp.mem_grants]
  constructor
  · rintro ⟨j, r, hj⟩
    obtain ⟨i, hi, rfl⟩ := RequestId.exists_without j x
    exact ⟨i, r, (h.slot hi).symm.trans hj⟩
  · rintro ⟨i, r, hi⟩
    have hne : i ≠ x := fun heq => hx ⟨r, g, heq ▸ hi⟩
    exact ⟨i.without x, r, (h.slot hne).trans hi⟩

end Sound

namespace Work

/-! Where a pool is within its new limits, nothing is closed. -/

section Limits

theorem shrinkRoute_of_le {max : Nat} (hle : (w.pool.lane r).allocated ≤ max) :
    w.shrinkRoute max r = w.change (Pool.prune r) := by
  unfold shrinkRoute
  generalize (w.pool.lane r).available.length = n
  refine congrArg (change (Pool.prune r)) ?_
  cases n with
  | zero => rfl
  | succ n =>
    rw [shrinkLane]
    split
    · exact if_neg hle.not_gt
    · rfl

theorem shrinkAll_of_le {max : Nat} {rs : List Route}
    (hle : ∀ r ∈ rs, (w.pool.lane r).allocated ≤ max) :
    ∃ k, (∀ p, Pool.Relanes p (k p)) ∧ rs.foldl (fun w r => w.shrinkRoute max r) w = w.change k := by
  induction rs generalizing w with
  | nil => exact ⟨id, .refl, rfl⟩
  | cons r rs ih =>
    obtain ⟨k, hk, heq⟩ := ih (w := w.change (Pool.prune r)) fun s hs => by
      rw [pool_change, Pool.lane_prune]
      exact hle s (List.mem_cons_of_mem r hs)
    rw [List.foldl_cons, shrinkRoute_of_le (hle r List.mem_cons_self)]
    exact ⟨k ∘ Pool.prune r, fun p => (Pool.relanes_prune p r).trans (hk _), heq⟩

theorem shrinkTotal_of_le (hle : w.pool.allocated ≤ w.pool.limits.total) (n : Nat) :
    w.shrinkTotal n = w := by
  cases n with
  | zero => rfl
  | succ n => rw [shrinkTotal, if_neg hle.not_gt]

def raise (m : Moment) (fault : Option Failure) (max : Nat) (f : Limits → Limits) (k : Pool → Pool)
    (first : Option Route) (w : Work) : Option Failure × Work :=
  if max = 0 then (fault, w) else (none, ((w.changeLimits f).change k).dispatch m first)

variable {max : Nat}

theorem setMaxTotal_of_within
    (hin : max ≠ 0 → (w.changeLimits ({ · with total := max })).pool.WithinLimits) :
    w.setMaxTotal m max =
      w.raise m (mustBePositive "max_total") max ({ · with total := max }) id none := by
  unfold setMaxTotal raise
  split
  · rfl
  · next hmax =>
    dsimp only
    rw [shrinkTotal_of_le (hin hmax).total]
    rfl

theorem setDefaultMax_of_within
    (hin : max ≠ 0 → (w.changeLimits ({ · with perRoute := max })).pool.WithinLimits) :
    ∃ k, (∀ p, Pool.Relanes p (k p)) ∧ w.setDefaultMax m max =
      w.raise m (mustBePositive "default_max_per_route") max ({ · with perRoute := max }) k
        none := by
  unfold setDefaultMax raise
  split
  · exact ⟨id, .refl, rfl⟩
  · next hmax =>
    have hin := hin hmax
    dsimp only
    generalize hu : w.changeLimits _ = u at hin ⊢
    have hroutes : ∀ r ∈ u.pool.lanes.keys.filter (!u.pool.limits.overrides.has ·),
        (u.pool.lane r).allocated ≤ max := by
      intro r hr
      have hnone : u.pool.limits.overrides.get? r = none := by
        simpa [Table.has] using (List.mem_filter.1 hr).2
      have hroute : u.pool.limits.forRoute r = max := by
        rw [Limits.forRoute, hnone, ← hu]
        rfl
      exact hroute ▸ hin.route r
    obtain ⟨k, hk, heq⟩ := shrinkAll_of_le hroutes
    exact ⟨k, hk, by rw [heq]⟩

theorem setMaxFor_of_within
    (hin : max ≠ 0 →
      (w.changeLimits fun l => { l with overrides := l.overrides.put r max }).pool.WithinLimits) :
    w.setMaxFor m r max = w.raise m (mustBePositive s!"max for route {r.text}") max
      (fun l => { l with overrides := l.overrides.put r max }) (Pool.prune r) (some r) := by
  unfold setMaxFor raise
  split
  · rfl
  · next hmax =>
    have hin := hin hmax
    dsimp only
    generalize hu : w.changeLimits _ = u at hin ⊢
    have hroute : u.pool.limits.forRoute r = max := by
      simp [← hu, Limits.forRoute, changeLimits]
    rw [shrinkRoute_of_le (hroute ▸ hin.route r)]

end Limits

section Raise

variable {max : Nat} {f : Limits → Limits}

theorem Lacks.changeLimits (h : Lacks x a b w v) (f : Limits → Limits) :
    Lacks x a b (w.changeLimits f) (v.changeLimits f) :=
  h.change (h.alike.pool.relimit f) (h.requests.of_eq rfl rfl rfl rfl)

theorem Lacks.within (h : Lacks x a b w v)
    (hin : max ≠ 0 → (w.changeLimits f).pool.WithinLimits) (hmax : max ≠ 0) :
    (v.changeLimits f).pool.WithinLimits :=
  (h.changeLimits f).alike.pool.withinLimits (hin hmax)

variable (hw : Sound held w.pool) (hv : Sound held v.pool)
include hw hv

theorem Lacks.raise (h : Lacks x a b w v) {fault : Option Failure} {first : Option Route}
    {k k' : Pool → Pool} (hk : ∀ p, Pool.Relanes p (k p)) (hk' : ∀ p, Pool.Relanes p (k' p))
    (hin : max ≠ 0 → (w.changeLimits f).pool.WithinLimits)
    (hx : ¬ (w.raise m fault max f k first).2.pool.HasGrant x) :
    (v.raise m fault max f k' first).1 = (w.raise m fault max f k first).1 ∧
      Lacks x a b (w.raise m fault max f k first).2 (v.raise m fault max f k' first).2 := by
  unfold Work.raise at hx ⊢
  by_cases hmax : max = 0
  · rw [if_pos hmax, if_pos hmax]
    exact ⟨rfl, h⟩
  · rw [if_neg hmax] at hx
    rw [if_neg hmax, if_neg hmax]
    have hlimits : ((w.changeLimits f).change k).pool.WithinLimits :=
      (Pool.Alike.of_relanes (hk _)).withinLimits (hin hmax)
    exact ⟨rfl, ((h.changeLimits f).relane (hk _) (hk' _)).dispatch
      ((changeLimits_sound hw f).relane (hk _)) ((changeLimits_sound hv f).relane (hk' _)) hlimits
      first hx⟩

theorem Lacks.setMaxTotal (h : Lacks x a b w v)
    (hin : max ≠ 0 → (w.changeLimits ({ · with total := max })).pool.WithinLimits)
    (hx : ¬ (w.setMaxTotal m max).2.pool.HasGrant x) :
    (v.setMaxTotal m max).1 = (w.setMaxTotal m max).1 ∧
      Lacks x a b (w.setMaxTotal m max).2 (v.setMaxTotal m max).2 := by
  rw [setMaxTotal_of_within hin] at hx ⊢
  rw [setMaxTotal_of_within (h.within hin)]
  exact h.raise hw hv .refl .refl hin hx

theorem Lacks.setDefaultMax (h : Lacks x a b w v)
    (hin : max ≠ 0 → (w.changeLimits ({ · with perRoute := max })).pool.WithinLimits)
    (hx : ¬ (w.setDefaultMax m max).2.pool.HasGrant x) :
    (v.setDefaultMax m max).1 = (w.setDefaultMax m max).1 ∧
      Lacks x a b (w.setDefaultMax m max).2 (v.setDefaultMax m max).2 := by
  obtain ⟨k, hk, heq⟩ := setDefaultMax_of_within (m := m) hin
  obtain ⟨k', hk', heq'⟩ := setDefaultMax_of_within (m := m) (h.within hin)
  rw [heq] at hx ⊢
  rw [heq']
  exact h.raise hw hv hk hk' hin hx

theorem Lacks.setMaxFor (h : Lacks x a b w v)
    (hin : max ≠ 0 →
      (w.changeLimits fun l => { l with overrides := l.overrides.put r max }).pool.WithinLimits)
    (hx : ¬ (w.setMaxFor m r max).2.pool.HasGrant x) :
    (v.setMaxFor m r max).1 = (w.setMaxFor m r max).1 ∧
      Lacks x a b (w.setMaxFor m r max).2 (v.setMaxFor m r max).2 := by
  rw [setMaxFor_of_within hin] at hx ⊢
  rw [setMaxFor_of_within (h.within hin)]
  exact h.raise hw hv (Pool.relanes_prune · r) (Pool.relanes_prune · r) hin hx

end Raise

section Sweep

theorem Lacks.pull (h : Lacks x a b w v) (e : Idle) :
    Lacks x a b (w.change (Pool.pull e)) (v.change (Pool.pull e)) :=
  Lacks.relane (w := w.change (Pool.takeOut e)) (v := v.change (Pool.takeOut e))
    (h.change (h.alike.pool.takeOut e) (h.requests.of_eq rfl rfl rfl rfl))
    (Pool.relanes_pull e _) (Pool.relanes_pull e _)

theorem Lacks.closeOldest (hw : Sound held w.pool) (hv : Sound held v.pool) (h : Lacks x a b w v)
    (now : Instant) (span : Span) {ks : List Mark} (hi : w.pool.idle = ks) :
    (v.closeOldest now span ks).1 = (w.closeOldest now span ks).1 ∧
      Lacks x a b (w.closeOldest now span ks).2 (v.closeOldest now span ks).2 := by
  induction ks generalizing w v with
  | nil => exact ⟨rfl, h⟩
  | cons k ks ih =>
    obtain ⟨e, hstock, rfl⟩ := hw.exists_of_mark (m := k) (by simp [hi])
    have he := hw.mem_stock.1 hstock
    have he' : e ∈ (v.pool.lane e.record.route).available := by rwa [h.alike.pool.available]
    rw [closeOldest_cons hw he, closeOldest_cons hv he']
    split
    · obtain ⟨hcount, hlacks⟩ := ih (w := (w.change (Pool.pull e)).close e.conn)
        (v := (v.change (Pool.pull e)).close e.conn) (hw.pull he) (hv.pull he')
        ((h.pull e).close e.conn) (Pool.idle_pull_of_head hi)
      exact ⟨congrArg (· + 1) hcount, hlacks⟩
    · exact ⟨rfl, h⟩

theorem Lacks.closeIdle (hw : Sound held w.pool) (hv : Sound held v.pool) (h : Lacks x a b w v)
    (hin : w.pool.WithinLimits) (span : Span) (hx : ¬ (w.closeIdle m span).pool.HasGrant x) :
    Lacks x a b (w.closeIdle m span) (v.closeIdle m span) := by
  have hsheds : Sheds ⟨held, 0, w⟩ ⟨held, 0, _⟩ := closeOldest_sheds hw m.now span rfl
  have hsheds' : Sheds ⟨held, 0, v⟩ ⟨held, 0, _⟩ := closeOldest_sheds hv m.now span rfl
  obtain ⟨hcount, hlacks⟩ := h.closeOldest hw hv m.now span rfl
  unfold Work.closeIdle at hx ⊢
  rw [h.alike.pool.idle] at hsheds' ⊢
  generalize w.closeOldest m.now span w.pool.idle = y at hsheds hcount hlacks hx ⊢
  generalize v.closeOldest m.now span w.pool.idle = z at hsheds' hcount hlacks ⊢
  obtain ⟨n, u⟩ := y
  obtain ⟨k, u'⟩ := z
  obtain rfl : k = n := hcount
  dsimp only at hlacks hx ⊢
  split at hx
  · next hn =>
    rw [if_pos hn, if_pos hn]
    exact hlacks
  · next hn =>
    have hgrows : w.pool.Grows u.pool :=
      Moves.grows (m := m) (s := ⟨held, 0, w⟩) hw hsheds.gains.serves.trades.moves
    have hsound : Sound held (u.note (.closeIdle k span)).pool :=
      Scene.IsSound.sheds (s := ⟨held, 0, w⟩) hw hsheds
    have hsound' : Sound held (u'.note (.closeIdle k span)).pool :=
      Scene.IsSound.sheds (s := ⟨held, 0, v⟩) hv hsheds'
    rw [if_neg hn, if_neg hn]
    exact (hlacks.note _).dispatch hsound hsound' (hin.grows hgrows) none hx

theorem available_sweepRoute (f : Idle → Bool) (r s : Route) :
    ((w.sweepRoute f r).pool.lane s).available = if s = r then
      (w.pool.lane s).available.filter (!f ·) else (w.pool.lane s).available := by
  unfold sweepRoute
  rw [List.partition_eq_filter_filter]
  change ((w.pool.setLane r _).lane s).available = _
  rw [Pool.lane_of_edit (p := w.pool) (q := w.pool.setLane r _) rfl]
  split
  · next hs =>
    rw [hs]
    rfl
  · rfl

theorem available_sweepAll (h : Sound held w.pool) (f : Idle → Bool) (rs : List Route) (s : Route) :
    ((rs.foldl (fun w r => w.sweepRoute f r) w).pool.lane s).available = if s ∈ rs then
      (w.pool.lane s).available.filter (!f ·) else (w.pool.lane s).available := by
  induction rs generalizing w with
  | nil => simp
  | cons r rs ih =>
    have hsheds : Sheds ⟨held, 0, w⟩ ⟨held, 0, w.sweepRoute f r⟩ := sweepRoute_sheds h f r
    rw [List.foldl_cons, ih (Scene.IsSound.sheds (s := ⟨held, 0, w⟩) h hsheds),
      available_sweepRoute]
    by_cases hs : s = r <;> by_cases hmem : s ∈ rs <;> simp [hs, hmem]

theorem closing_sweepAll (f : Idle → Bool) {rs : List Route} (hrs : rs.Nodup) :
    (rs.foldl (fun w r => w.sweepRoute f r) w).closing =
      w.closing ++ rs.flatMap fun r => ((w.pool.lane r).available.filter f).map Idle.conn := by
  induction rs generalizing w with
  | nil => simp
  | cons r rs ih =>
    obtain ⟨hr, hrs⟩ := List.nodup_cons.1 hrs
    have hothers : (rs.flatMap fun s =>
          (((w.sweepRoute f r).pool.lane s).available.filter f).map Idle.conn) =
        rs.flatMap fun s => ((w.pool.lane s).available.filter f).map Idle.conn := by
      refine List.flatMap_congr fun s hs => ?_
      have hne : s ≠ r := fun heq => hr (heq ▸ hs)
      rw [available_sweepRoute, if_neg hne]
    have hclosing : (w.sweepRoute f r).closing =
        w.closing ++ ((w.pool.lane r).available.filter f).map Idle.conn := by
      unfold sweepRoute
      rw [List.partition_eq_filter_filter]
      rfl
    rw [List.foldl_cons, ih hrs, hothers, hclosing, List.flatMap_cons, List.append_assoc]

theorem closing_swept (h : Sound held w.pool) : (w.swept m).closing =
    w.closing ++ w.pool.sweepable (·.record.isExpired m.now) :=
  closing_sweepAll _ h.tidy

theorem available_swept (h : Sound held w.pool) (r : Route) :
    ((w.swept m).pool.lane r).available =
      (w.pool.lane r).available.filter (!·.record.isExpired m.now) := by
  have htidy := (Scene.IsSound.sheds (s := ⟨held, 0, w⟩) h (sweepAll_sheds h
    (·.record.isExpired m.now) w.pool.lanes.keys)).tidy
  rw [swept, pool_change, (Pool.relanes_pruneAll htidy).lane, available_sweepAll h]
  split
  · rfl
  · next hr =>
    have hlane : w.pool.lane r = {} := by
      rw [Pool.lane, Table.get?_eq_none_iff.2 hr]
      rfl
    rw [hlane]
    rfl

theorem reports_swept : (w.swept m).reports = w.reports := by
  unfold swept
  generalize w.pool.lanes.keys = rs
  change (rs.foldl (fun w r => w.sweepRoute (·.record.isExpired m.now) r) w).reports = _
  induction rs generalizing w with
  | nil => rfl
  | cons r rs ih => exact ih

theorem Lacks.swept (hw : Sound held w.pool) (hv : Sound held v.pool) (h : Lacks x a b w v) :
    Lacks x (w.swept m).closing (v.swept m).closing (w.swept m) (v.swept m) := by
  have hsheds := swept_sheds (m := m) (c := 0) hw
  have hsheds' := swept_sheds (m := m) (c := 0) hv
  have hd : w.pool.Draws (w.swept m).pool := hsheds.draws
  have hd' : v.pool.Draws (v.swept m).pool := hsheds'.draws
  have hslots : w.pool.SameSlots (w.swept m).pool := hsheds.sameSlots
  have hslots' : v.pool.SameSlots (v.swept m).pool := hsheds'.sameSlots
  have hqueues : w.pool.SameQueues (w.swept m).pool := Gains.sameQueues (m := m) hsheds.gains
  have hqueues' : v.pool.SameQueues (v.swept m).pool := Gains.sameQueues (m := m) hsheds'.gains
  have havailable (r : Route) :
      ((v.swept m).pool.lane r).available = ((w.swept m).pool.lane r).available := by
    rw [available_swept hv, available_swept hw, h.alike.pool.available]
  refine ⟨⟨?_, ⟨[], by simp, by simp⟩, ?_⟩,
    h.requests.of_eq hqueues.requests hqueues'.requests ?_ ?_⟩
  · exact {
      limits := by rw [hd'.limits, hd.limits, h.alike.pool.limits]
      policy := by rw [hd'.policy, hd.policy, h.alike.pool.policy]
      isShut := by rw [hd'.isShut, hd.isShut, h.alike.pool.isShut]
      lastEntry := by rw [hsheds'.lastEntry_eq, hsheds.lastEntry_eq, h.alike.pool.lastEntry]
      leased := by rw [hslots'.total, hslots.total, h.alike.pool.leased]
      idle := by
        have hsound : Sound held (w.swept m).pool :=
          Scene.IsSound.sheds (s := ⟨held, 0, w⟩) hw hsheds
        have hsound' : Sound held (v.swept m).pool :=
          Scene.IsSound.sheds (s := ⟨held, 0, v⟩) hv hsheds'
        refine eq_of_sublist hw.idle_ids.of_map (h.alike.pool.idle ▸ hd'.idle) hd.idle fun k => ?_
        simp only [hsound'.mem_idle, hsound.mem_idle, havailable]
      slots := fun r => by rw [hslots'.leased, hslots.leased, h.alike.pool.slots]
      available := havailable }
  · rw [deeds, reports_swept, deeds, reports_swept]
    exact h.alike.deeds
  · exact Gains.lastRequest_eq (m := m) hsheds.gains
  · exact Gains.lastRequest_eq (m := m) hsheds'.gains

theorem Lacks.closeExpired (hw : Sound held w.pool) (hv : Sound held v.pool) (h : Lacks x a b w v)
    (hin : w.pool.WithinLimits) (hx : ¬ (w.closeExpired m).pool.HasGrant x) :
    Lacks x (w.swept m).closing (v.swept m).closing (w.closeExpired m) (v.closeExpired m) := by
  have hsheds := swept_sheds (m := m) (c := 0) hw
  have hsheds' := swept_sheds (m := m) (c := 0) hv
  have hswept := h.swept (m := m) hw hv
  have hcount : (v.swept m).closing.length - v.closing.length =
      (w.swept m).closing.length - w.closing.length := by
    have hsame : SameSweep _ _ := h.alike.pool.sweepable hw.tidy hv.tidy (.refl [])
      (·.record.isExpired m.now)
    rw [closing_swept hw, closing_swept hv, List.length_append, List.length_append,
      Nat.add_sub_cancel_left, Nat.add_sub_cancel_left]
    exact hsame.perm.length_eq.symm
  rw [closeExpired_eq] at hx
  rw [closeExpired_eq, closeExpired_eq, hcount]
  generalize (w.swept m).closing.length - w.closing.length = n at hx ⊢
  dsimp only at hx ⊢
  split at hx
  · next hn =>
    rw [if_pos hn, if_pos hn]
    exact hswept
  · next hn =>
    have hgrows : w.pool.Grows (w.swept m).pool :=
      Moves.grows (m := m) (s := ⟨held, 0, w⟩) hw hsheds.gains.serves.trades.moves
    have hsound : Sound held ((w.swept m).note (.closeExpired n)).pool :=
      Scene.IsSound.sheds (s := ⟨held, 0, w⟩) hw hsheds
    have hsound' : Sound held ((v.swept m).note (.closeExpired n)).pool :=
      Scene.IsSound.sheds (s := ⟨held, 0, v⟩) hv hsheds'
    rw [if_neg hn, if_neg hn]
    exact (hswept.note _).dispatch hsound hsound' (hin.grows hgrows) none hx

end Sweep

theorem Lacks.shutDown (h : Lacks x a b w v) :
    Lacks x w.shutDown.2.closing v.shutDown.2.closing w.shutDown.2 v.shutDown.2 := by
  cases hshut : w.pool.isShut with
  | true =>
    have hshut' : v.pool.isShut = true := h.alike.pool.isShut.trans hshut
    rw [shutDown_of_shut hshut, shutDown_of_shut hshut']
    exact ⟨⟨h.alike.pool, ⟨[], by simp, by simp⟩, h.alike.deeds⟩, h.requests⟩
  | false =>
    have hopen : v.pool.isShut = false := h.alike.pool.isShut.trans hshut
    rw [shutDown_of_open hshut, shutDown_of_open hopen]
    exact ⟨⟨h.alike.pool.torn, ⟨[], by simp, by simp⟩, h.alike.deeds⟩, h.requests.torn⟩

theorem Lacks.closing_shutDown (hw : Sound held w.pool) (hv : Sound held v.pool)
    (h : Lacks x a b w v) (hx : ¬ w.pool.HasGrant x) (hclosing : w.closing = [])
    (hclosing' : v.closing = []) : SameSweep w.shutDown.2.closing v.shutDown.2.closing := by
  cases hshut : w.pool.isShut with
  | true =>
    have hshut' : v.pool.isShut = true := h.alike.pool.isShut.trans hshut
    rw [shutDown_of_shut hshut, shutDown_of_shut hshut', hclosing, hclosing']
    exact .nil
  | false =>
    have hopen : v.pool.isShut = false := h.alike.pool.isShut.trans hshut
    have hheld : (w.pool.requests.filterMap (·.2.held)).Perm
        (v.pool.requests.filterMap (·.2.held)) := by
      refine Multiset.coe_eq_coe.1 ?_
      rw [← Pool.connsOf_grants, ← Pool.connsOf_grants, hw.grants_eq hv h.requests hx]
    rw [shutDown_of_open hshut, shutDown_of_open hopen]
    dsimp only
    rw [hclosing, hclosing', Pool.flatMap_available hw.tidy, Pool.flatMap_available hv.tidy]
    exact h.alike.pool.sweepable hw.tidy hv.tidy hheld _

end Work

end ConnectionPool
