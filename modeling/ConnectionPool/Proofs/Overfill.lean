import ConnectionPool.Proofs.Life
import ConnectionPool.Proofs.Service

namespace ConnectionPool

variable {held : Multiset Grant} {c : Multiset Conn} {p : Pool} {w u : Work} {e : Idle} {r s : Route}
  {m : Moment}

namespace Pool

/-- There is no room for a connection that is put back to the route, and nobody to take it or to
have it closed. -/
structure Overfull (p : Pool) (r : Route) : Prop where
  queue : (p.lane r).queue = []
  waiting : ∀ x ∈ p.waiting, p.limits.forRoute x.2 ≤ (p.lane x.2).leased.length
  beyond : p.limits.forRoute r < (p.lane r).allocated ∨ p.limits.total < p.allocated

instance (p : Pool) (r : Route) : Decidable (p.Overfull r) :=
  decidable_of_iff
    ((p.lane r).queue = [] ∧
      (∀ x ∈ p.waiting, p.limits.forRoute x.2 ≤ (p.lane x.2).leased.length) ∧
      (p.limits.forRoute r < (p.lane r).allocated ∨ p.limits.total < p.allocated))
    ⟨fun ⟨hq, hw, ho⟩ => ⟨hq, hw, ho⟩, fun ⟨hq, hw, ho⟩ => ⟨hq, hw, ho⟩⟩

def Crowded (p : Pool) : Prop :=
  ∀ s, (p.lane s).queue ≠ [] → p.limits.forRoute s ≤ (p.lane s).leased.length

theorem Queued.crowded_iff (h : p.Queued) : p.Crowded ↔
    ∀ x ∈ p.waiting, p.limits.forRoute x.2 ≤ (p.lane x.2).leased.length := by
  constructor
  · rintro hp ⟨id, s⟩ hx
    exact hp s (List.ne_nil_of_mem (h.mem_queue.2 ((h.pending id s).1 hx)))
  · intro hp s hs
    obtain ⟨id, hid⟩ := List.exists_mem_of_ne_nil _ hs
    exact hp (id, s) ((h.pending id s).2 (h.mem_queue.1 hid))

end Pool

namespace Sound

theorem available_eq_nil_of_idle (h : Sound held p) (hi : p.idle = []) :
    (p.lane r).available = [] := by
  refine List.eq_nil_iff_forall_not_mem.2 fun d hd => ?_
  have hmem := h.mark_mem ((Pool.mem_stock h.tidy).2 ⟨r, hd⟩)
  rw [hi] at hmem
  exact absurd hmem List.not_mem_nil

section PutBack

variable (h : Sound (.reuse e ::ₘ held) w.pool) (hopen : w.pool.isShut = false)
include h hopen

theorem lane_putBack (s : Route) : (w.putBack e).pool.lane s =
    if s = e.record.route then ((w.pool.freed e.record).lane e.record.route).reinsert e
    else w.pool.lane s := by
  have hlane := Pool.lane_of_edit (p := w.pool.freed e.record) (r := e.record.route)
    (q := (w.putBack e).pool) (by rw [h.putBack_eq hopen]; rfl) s
  rw [hlane]
  split
  · rfl
  · next hs => rw [Pool.lane_freed, if_neg hs]

theorem lane_putBack_of_ne (hs : s ≠ e.record.route) :
    (w.putBack e).pool.lane s = w.pool.lane s := by
  rw [h.lane_putBack hopen, if_neg hs]

theorem queue_putBack (s : Route) :
    ((w.putBack e).pool.lane s).queue = (w.pool.lane s).queue := by
  rw [h.lane_putBack hopen]
  split
  · next hs => rw [hs, Lane.reinsert, Pool.lane_freed, if_pos rfl]
  · rfl

theorem available_putBack : ((w.putBack e).pool.lane e.record.route).available.Perm
    (e :: (w.pool.lane e.record.route).available) := by
  have hperm := Lane.reinsert_perm e ((w.pool.freed e.record).lane e.record.route)
  rw [h.lane_putBack hopen, if_pos rfl]
  rwa [Pool.lane_freed, if_pos rfl] at hperm ⊢

theorem idle_putBack : (w.putBack e).pool.idle.Perm (e.mark :: w.pool.idle) := by
  have hfreed : Sound held (w.pool.freed e.record) := h.freed (h.mem_leased hopen)
  rw [h.putBack_eq hopen]
  exact Recency.reinsert_perm hfreed.idle_ids (hfreed.not_mem_idle h.not_mem_freed)

theorem limits_putBack : (w.putBack e).pool.limits = w.pool.limits := by
  rw [h.putBack_eq hopen]
  rfl

end PutBack

end Sound

namespace Work

section PutBack

variable (h : Sound (.reuse e ::ₘ held) w.pool) (hopen : w.pool.isShut = false)
  (hserves : Serves m ⟨held, c, w.putBack e⟩ ⟨held, c, u⟩)
include h hopen hserves

theorem bounded_of_gone (hb : w.pool.Bounded)
    (hgone : (u.pool.lane e.record.route).available = []) : u.pool.Bounded := by
  have hback : Sound held (w.putBack e).pool := h.restore hopen
  have hsound : Sound held u.pool := Scene.IsSound.serves (s := ⟨held, c, w.putBack e⟩) hback hserves
  have hd : (w.putBack e).pool.Draws u.pool := Serves.draws (s := ⟨held, c, w.putBack e⟩) hback hserves
  have hmoves : Moves m ⟨.reuse e ::ₘ held, c, w⟩ ⟨held, c, u⟩ :=
    .head (.restore hopen) hserves.trades.moves
  refine hb.grows (hmoves.grows (s := ⟨.reuse e ::ₘ held, c, w⟩) h) (fun s hs => ?_) fun hi => ?_
  · by_cases hsr : s = e.record.route
    · exact hsr ▸ hgone
    · exact hd.available_eq_nil (by rwa [h.lane_putBack_of_ne hopen hsr])
  · refine List.eq_nil_iff_forall_not_mem.2 fun k hk => ?_
    have hmark : k = e.mark := by
      have hmem := (h.idle_putBack hopen).mem_iff.1 (hd.idle.subset hk)
      rwa [hi, List.mem_singleton] at hmem
    obtain ⟨d, hd, hdk⟩ := hsound.exists_of_mark hk
    have hroute : d.record.route = e.record.route := congrArg Mark.route (hdk.trans hmark)
    have hmem := hsound.mem_stock.1 hd
    rw [hroute, hgone] at hmem
    exact absurd hmem List.not_mem_nil

theorem gone_of_queue (hs : w.pool.Settled) (hu : u.pool.Settled)
    (hq : (w.pool.lane e.record.route).queue ≠ []) :
    (u.pool.lane e.record.route).available = [] := by
  by_contra hstay
  have hone : ((w.putBack e).pool.lane e.record.route).available = [e] := by
    have hperm := h.available_putBack hopen
    rwa [(hs _ hq).available, List.perm_singleton] at hperm
  have hback : Scene.IsSound ⟨held, c, w.putBack e⟩ := h.restore hopen
  -- as long as it stays the route gets no slot, so it goes on to wait, beside a connection
  have hleased := Serves.leased_eq hback hserves hone hstay
  rw [← h.queue_putBack hopen] at hq
  exact hstay (hu _ (Serves.queue_ne_nil hback hserves hleased hq)).available

theorem gone_of_waiting (hs : w.pool.Settled) (hu : u.pool.Settled) (hsr : s ≠ e.record.route)
    (hq : (w.pool.lane s).queue ≠ [])
    (hlow : (w.pool.lane s).leased.length < w.pool.limits.forRoute s) :
    (u.pool.lane e.record.route).available = [] := by
  have hback : Scene.IsSound ⟨held, c, w.putBack e⟩ := h.restore hopen
  have hsound : Sound held u.pool := hback.serves hserves
  apply hsound.available_eq_nil_of_idle
  by_contra hstay
  obtain ⟨hidle, htotal⟩ := (hs s hq).full.resolve_left (not_le.2 hlow)
  have hone : (w.putBack e).pool.idle = [e.mark] := by
    have hperm := h.idle_putBack hopen
    rwa [hidle, List.perm_singleton] at hperm
  have hfull : (w.putBack e).pool.limits.total ≤ (w.putBack e).pool.allocated := by
    rw [(h.allocated_putBack hopen).2, h.limits_putBack hopen]
    exact htotal.trans (Nat.le_add_right _ _)
  -- nobody got a slot, so the route still waits, though it has neither reason to
  have hslots : (w.putBack e).pool.SameSlots u.pool :=
    Serves.sameSlots hback hserves hone hfull hstay
  rw [← h.queue_putBack hopen] at hq
  have hstuck := hu s (Serves.queue_ne_nil hback hserves (hslots.leased s) hq)
  have hd : (w.putBack e).pool.Draws u.pool := Serves.draws hback hserves
  have hmax := hstuck.full.resolve_right fun hnone => hstay hnone.1
  rw [hd.limits, h.limits_putBack hopen, hslots.leased, h.lane_putBack_of_ne hopen hsr] at hmax
  exact hmax.not_gt hlow

end PutBack

section Settled

variable (h : Sound (.reuse e ::ₘ held) w.pool) (hopen : w.pool.isShut = false)
  (hs : w.pool.Settled) (hq : (w.pool.lane e.record.route).queue = [])
  (hcrowded : w.pool.Crowded)
include h hopen hs hq hcrowded

theorem putBack_settled : (w.putBack e).pool.Settled := by
  intro s hne
  rw [h.queue_putBack hopen] at hne
  have hsr : s ≠ e.record.route := by
    rintro rfl
    exact hne hq
  have hlane := h.lane_putBack_of_ne hopen hsr
  refine ⟨hlane ▸ (hs s hne).available, .inl ?_⟩
  rw [hlane, h.limits_putBack hopen]
  exact hcrowded s hne

theorem pool_dispatch_putBack :
    ((w.putBack e).dispatch m (some e.record.route)).pool = (w.putBack e).pool :=
  (dispatch_of_settled (h.restore hopen) (putBack_settled h hopen hs hq hcrowded) _).1

end Settled

theorem putBack_bounded (h : Sound (.reuse e ::ₘ held) w.pool) (hopen : w.pool.isShut = false)
    (hb : w.pool.Bounded)
    (hroute : (w.pool.lane e.record.route).allocated ≤ w.pool.limits.forRoute e.record.route)
    (htotal : w.pool.allocated ≤ w.pool.limits.total) : (w.putBack e).pool.Bounded := by
  obtain ⟨hlane, hall⟩ := h.allocated_putBack hopen
  refine ⟨fun s hne => ?_, fun _ => ?_⟩
  · rw [hlane, h.limits_putBack hopen]
    by_cases hsr : s = e.record.route
    · exact hsr ▸ hroute
    · rw [h.lane_putBack_of_ne hopen hsr] at hne
      exact hb.route s hne
  · rw [hall, h.limits_putBack hopen]
    exact htotal

theorem not_putBack_bounded (h : Sound (.reuse e ::ₘ held) w.pool)
    (hopen : w.pool.isShut = false)
    (hover : w.pool.limits.forRoute e.record.route < (w.pool.lane e.record.route).allocated ∨
      w.pool.limits.total < w.pool.allocated) : ¬ (w.putBack e).pool.Bounded := by
  intro hb
  obtain ⟨hlane, hall⟩ := h.allocated_putBack hopen
  rcases hover with hroute | htotal
  · have hne : ((w.putBack e).pool.lane e.record.route).available ≠ [] := fun hnil =>
      List.not_mem_nil (hnil ▸ (h.available_putBack hopen).mem_iff.2 List.mem_cons_self)
    have hle := hb.route _ hne
    rw [hlane, h.limits_putBack hopen] at hle
    exact hle.not_gt hroute
  · have hne : (w.putBack e).pool.idle ≠ [] := fun hnil =>
      List.not_mem_nil (hnil ▸ (h.idle_putBack hopen).mem_iff.2 List.mem_cons_self)
    have hle := hb.total hne
    rw [hall, h.limits_putBack hopen] at hle
    exact hle.not_gt htotal

/-- What is put back exceeds a limit if and only if there is neither room for it nor use. -/
theorem putBack_bounded_iff (h : Sound (.reuse e ::ₘ held) w.pool) (hopen : w.pool.isShut = false)
    (hs : w.pool.Settled) (hb : w.pool.Bounded) :
    ((w.putBack e).dispatch m (some e.record.route)).pool.Bounded ↔
      ¬ w.pool.Overfull e.record.route := by
  have hback : Sound held (w.putBack e).pool := h.restore hopen
  have hserves : Serves m ⟨held, 0, w.putBack e⟩
    ⟨held, 0, (w.putBack e).dispatch m (some e.record.route)⟩ := dispatch_moves hback _
  have hend := dispatch_settled (m := m) hback (some e.record.route)
  constructor
  · rintro hbounded ⟨hq, hwaiting, hover⟩
    have hcrowded : w.pool.Crowded := h.queued.crowded_iff.2 hwaiting
    rw [pool_dispatch_putBack h hopen hs hq hcrowded] at hbounded
    exact not_putBack_bounded h hopen hover hbounded
  · intro hroom
    by_cases hq : (w.pool.lane e.record.route).queue = []
    · by_cases hcrowded : w.pool.Crowded
      · have hwithin := not_or.1 fun hover => hroom ⟨hq, h.queued.crowded_iff.1 hcrowded, hover⟩
        rw [pool_dispatch_putBack h hopen hs hq hcrowded]
        exact putBack_bounded h hopen hb (not_lt.1 hwithin.1) (not_lt.1 hwithin.2)
      · simp only [Pool.Crowded, not_forall, not_le] at hcrowded
        obtain ⟨s, hne, hlow⟩ := hcrowded
        have hsr : s ≠ e.record.route := by
          rintro rfl
          exact hne hq
        exact bounded_of_gone h hopen hserves hb
          (gone_of_waiting h hopen hserves hs hend hsr hne hlow)
    · exact bounded_of_gone h hopen hserves hb (gone_of_queue h hopen hserves hs hend hq)

theorem forget_bounded_iff {id : RequestId} (h : Sound held w.pool) (hs : w.pool.Settled)
    (hb : w.pool.Bounded)
    (hid : w.pool.requests.get? id = some { route := r, outcome := .granted (.reuse e) }) :
    (w.forget m id).pool.Bounded ↔ ¬ w.pool.Overfull e.record.route := by
  have hopen := h.isShut_eq_false_of_granted hid
  have hcleared : (w.uncollected id e).pool.Bounded := ⟨hb.route, hb.total⟩
  have hiff := putBack_bounded_iff (m := m) (uncollected_sound h hid) hopen (cleared_settled hs)
    hcleared
  rw [forget_reuse hid]
  exact hiff.trans (not_congr ⟨fun ⟨hq, hw, ho⟩ => ⟨hq, hw, ho⟩, fun ⟨hq, hw, ho⟩ => ⟨hq, hw, ho⟩⟩)

end Work

def Op.Overfills (t : Tenancy) (o : Op) : Prop :=
  ∃ e, o.putsBack t = some e ∧ t.pool.Overfull e.record.route

theorem Pool.bounded_iff : p.Bounded ↔
    (∀ r, 0 < (p.stats r).available → (p.stats r).allocated ≤ (p.stats r).max) ∧
      (0 < p.totalStats.available → p.totalStats.allocated ≤ p.totalStats.max) :=
  ⟨fun h => ⟨fun r hr => h.route r (List.length_pos_iff.1 hr),
      fun hi => h.total (List.length_pos_iff.1 hi)⟩,
    fun ⟨hroute, htotal⟩ => ⟨fun r hr => hroute r (List.length_pos_iff.2 hr),
      fun hi => htotal (List.length_pos_iff.2 hi)⟩⟩

theorem Pool.Bounded.of_leased_eq_zero (h : p.Bounded) :
    (∀ r, (p.stats r).leased = 0 → (p.stats r).allocated ≤ (p.stats r).max) ∧
      (p.totalStats.leased = 0 → p.totalStats.allocated ≤ p.totalStats.max) := by
  obtain ⟨hroute, htotal⟩ := bounded_iff.1 h
  have hle (s : Stats) (hs : 0 < s.available → s.allocated ≤ s.max) (hleased : s.leased = 0) :
      s.allocated ≤ s.max := by
    rcases Nat.eq_zero_or_pos s.available with hnone | hpos
    · rw [Stats.allocated, hleased, hnone]
      exact Nat.zero_le _
    · exact hs hpos
  exact ⟨fun r => hle _ (hroute r), hle _ htotal⟩

namespace Life

variable {conf : Conf} {l : Life} {o : Op} {ops pre : List (Moment × Op)}

theorem step_bounded_iff (h : l.tenancy.IsSound) (hs : l.tenancy.pool.Settled)
    (hb : l.tenancy.pool.Bounded) :
    (l.step m o).tenancy.pool.Bounded ↔ ¬ o.Overfills l.tenancy := by
  cases hback : o.putsBack l.tenancy with
  | none =>
    have hnot : ¬ o.Overfills l.tenancy := by
      rintro ⟨e, he, -⟩
      exact absurd (hback.symm.trans he) (by simp)
    refine iff_of_true ?_ hnot
    by_cases hp : o.isPossible l.tenancy l.made
    · rw [step_tenancy hp]
      exact Tenancy.act_bounded h hp hback hb
    · rwa [step_of_not_isPossible hp]
  | some e =>
    have hover : o.Overfills l.tenancy ↔ l.tenancy.pool.Overfull e.record.route := by
      simp [Op.Overfills, hback]
    cases o with
    | dropRequest id =>
      obtain ⟨r, hid⟩ := Op.putsBack_eq_some_iff.1 hback
      rw [step_tenancy rfl, hover]
      exact Work.forget_bounded_iff (w := { pool := l.tenancy.pool }) h.sound hs hb hid
    | _ => cases hback

def NeverOverfills (l : Life) (ops : List (Moment × Op)) : Prop :=
  ∀ pre o, pre ++ [o] <+: ops → ¬ o.2.Overfills (l.run pre).tenancy

theorem run_bounded (h : (start conf).NeverOverfills ops) (hpre : pre <+: ops) :
    ((start conf).run pre).tenancy.pool.Bounded := by
  induction pre using List.reverseRecOn with
  | nil => exact ⟨fun r hr => absurd rfl hr, fun hi => absurd rfl hi⟩
  | append_singleton pre o ih =>
    have hb := ih ((List.prefix_append pre [o]).trans hpre)
    rw [run_append_singleton]
    exact (step_bounded_iff (run_sound conf pre) (run_settled conf pre) hb).2 (h pre o hpre)

theorem neverOverfills_of_bounded
    (h : ∀ pre, pre <+: ops → ((start conf).run pre).tenancy.pool.Bounded) :
    (start conf).NeverOverfills ops := by
  intro pre o hpre
  have hb := h pre ((List.prefix_append pre [o]).trans hpre)
  have hnext := h (pre ++ [o]) hpre
  rw [run_append_singleton] at hnext
  exact (step_bounded_iff (run_sound conf pre) (run_settled conf pre) hb).1 hnext

theorem neverOverfills_of_ne_dropRequest (h : ∀ o ∈ ops, ∀ id, o.2 ≠ .dropRequest id) :
    l.NeverOverfills ops := by
  rintro pre ⟨m, o⟩ hpre ⟨e, he, -⟩
  have hne := h (m, o) (hpre.subset (List.mem_append_right pre (List.mem_singleton_self _)))
  cases o with
  | dropRequest id => exact hne id rfl
  | _ => cases he

/-- Only leased connections ever exceed a limit, unless a step puts a connection back for which there
is neither room nor use.  So unless one does, nothing exceeds a limit while nothing is leased. -/
theorem only_leased_exceed_iff (conf : Conf) (ops : List (Moment × Op)) :
    ((∀ pre, pre <+: ops →
        let p := ((start conf).run pre).tenancy.pool
        (∀ r, 0 < (p.stats r).available → (p.stats r).allocated ≤ (p.stats r).max) ∧
          (0 < p.totalStats.available → p.totalStats.allocated ≤ p.totalStats.max)) ↔
      (start conf).NeverOverfills ops) ∧
    ((start conf).NeverOverfills ops → ∀ pre, pre <+: ops →
      let p := ((start conf).run pre).tenancy.pool
      (∀ r, (p.stats r).leased = 0 → (p.stats r).allocated ≤ (p.stats r).max) ∧
        (p.totalStats.leased = 0 → p.totalStats.allocated ≤ p.totalStats.max)) := by
  refine ⟨⟨fun h => ?_, fun h pre hpre => ?_⟩, fun h pre hpre => ?_⟩
  · exact neverOverfills_of_bounded fun pre hpre => Pool.bounded_iff.2 (h pre hpre)
  · exact Pool.bounded_iff.1 (run_bounded h hpre)
  · exact (run_bounded h hpre).of_leased_eq_zero

theorem only_leased_exceed_released :
    let ops := Sample.regrants ++ [.setMaxFor Sample.route 1, .get ⟨3⟩ false, .get ⟨4⟩ false,
      .release ⟨1⟩ true none, .release ⟨2⟩ true none].map (Prod.mk Sample.calm)
    let p := ((start Sample.conf).run ops).tenancy.pool
    ((start Sample.conf).NeverOverfills ops ∧ (p.stats Sample.route).leased = 0) ∧
      (p.stats Sample.route).allocated ≤ (p.stats Sample.route).max := by
  intro ops p
  have hops : (start Sample.conf).NeverOverfills ops :=
    neverOverfills_of_ne_dropRequest (by simp [ops, Sample.regrants])
  have hleased : (p.stats Sample.route).leased = 0 := by decide
  exact ⟨⟨hops, hleased⟩, ((only_leased_exceed_iff Sample.conf ops).2 hops ops
    (List.prefix_refl ops)).1 Sample.route hleased⟩

/-- Two connections go back to a route with room for one. -/
theorem exceeds_with_nothing_leased :
    let lowered := Sample.regrants ++ [(Sample.calm, .setMaxFor Sample.route 1)]
    let ops := lowered ++ [.dropRequest ⟨3⟩, .dropRequest ⟨4⟩].map (Prod.mk Sample.calm)
    let p := ((start Sample.conf).run ops).tenancy.pool
    ((start Sample.conf).run lowered).tenancy.pool.Overfull Sample.route ∧
      p.totalStats.leased = 0 ∧ (p.stats Sample.route).max < (p.stats Sample.route).allocated := by
  decide

end Life

end ConnectionPool
