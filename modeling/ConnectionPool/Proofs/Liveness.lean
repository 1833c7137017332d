import ConnectionPool.Proofs.Life

namespace ConnectionPool

variable {t : Tenancy} {m : Moment} {o : Op} {s : Record} {held : Multiset Grant}

structure Limits.ArePositive (l : Limits) : Prop where
  total : 0 < l.total
  route : ∀ r, 0 < l.forRoute r

theorem Op.limits_arePositive {l : Limits} (h : l.ArePositive) (o : Op) :
    (o.limits l).ArePositive := by
  cases o with
  | setMaxTotal max =>
    simp only [limits]
    split
    · exact h
    · next hmax => exact ⟨Nat.pos_of_ne_zero hmax, h.route⟩
  | setDefaultMax max =>
    simp only [limits]
    split
    · exact h
    · next hmax =>
      refine ⟨h.total, fun r => ?_⟩
      have hr := h.route r
      unfold Limits.forRoute at hr ⊢
      cases ho : l.overrides.get? r with
      | none => exact Nat.pos_of_ne_zero hmax
      | some k => rwa [ho] at hr
  | setMaxFor r max =>
    simp only [limits]
    split
    · exact h
    · next hmax =>
      refine ⟨h.total, fun s => ?_⟩
      have hs := h.route s
      unfold Limits.forRoute at hs ⊢
      by_cases hrs : r = s
      · rw [hrs, Table.get?_put_self]
        exact Nat.pos_of_ne_zero hmax
      · rwa [Table.get?_put_of_ne _ _ hrs]
  | _ => exact h

theorem overrides_pos {ls : List RouteLimit} (hls : ∀ l ∈ ls, 0 < l.max) {r : Route}
    {o : Table Route Nat} (ho : ∀ k, o.get? r = some k → 0 < k) :
    ∀ k, (ls.foldl (fun o l => o.put l.route l.max) o).get? r = some k → 0 < k := by
  induction ls generalizing o with
  | nil => exact ho
  | cons l ls ih =>
    refine ih (fun d hd => hls d (List.mem_cons_of_mem _ hd)) fun k hk => ?_
    change (o.put l.route l.max).get? r = some k at hk
    by_cases hr : l.route = r
    · rw [hr, Table.get?_put_self] at hk
      exact Option.some.inj hk ▸ hls l List.mem_cons_self
    · rw [Table.get?_put_of_ne _ _ hr] at hk
      exact ho k hk

theorem Pool.ofConf_arePositive {conf : Conf} (hconf : conf.validate = .ok conf) :
    (ofConf conf).limits.ArePositive := by
  obtain ⟨htotal, hroute, hall, -⟩ := Conf.validate_eq_ok_iff.1 hconf
  refine ⟨htotal, fun r => ?_⟩
  unfold Limits.forRoute
  cases ho : (ofConf conf).limits.overrides.get? r with
  | none => exact hroute
  | some k => exact overrides_pos hall (o := []) (by simp) k ho

theorem Life.run_arePositive {conf : Conf} (hconf : conf.validate = .ok conf)
    (ops : List (Moment × Op)) : ((start conf).run ops).tenancy.pool.limits.ArePositive := by
  refine (run_induction (P := fun l => l.tenancy.IsSound ∧ l.tenancy.pool.limits.ArePositive)
    ⟨start_sound conf, Pool.ofConf_arePositive hconf⟩ ?_ ops).2
  rintro l m o ⟨h, hl⟩ hp
  rw [step_tenancy hp, Tenancy.act_limits h hp]
  exact ⟨Tenancy.act_sound h hp, o.limits_arePositive hl⟩

namespace Work

variable {w : Work} {e : Idle}

theorem receive_slots (reusable : Bool) (v : Option Span) :
    (w.receive m e reusable v).pool.leased = (w.pool.freed e.record).leased ∧
      (w.receive m e reusable v).pool.waiting = w.pool.waiting := by
  unfold receive
  dsimp only
  split_ifs <;> exact ⟨rfl, rfl⟩

theorem putBack_slots (h : Sound (.reuse e ::ₘ held) w.pool) (hopen : w.pool.isShut = false) :
    (w.putBack e).pool.leased = (w.pool.freed e.record).leased ∧
      (w.putBack e).pool.waiting = w.pool.waiting := by
  rw [h.putBack_eq hopen]
  exact ⟨rfl, rfl⟩

end Work

namespace Tenancy

/-- The operations by which the holder of a leased slot gives it back. -/
inductive Returns (t : Tenancy) : Record → Op → Prop
  | release {id : EntryId} {e : Entry} (reusable : Bool) (v : Option Span)
      (he : t.entries.get? id = some e) : Returns t e.record (.release id reusable v)
  | discard {id : EntryId} {e : Entry} (he : t.entries.get? id = some e) :
      Returns t e.record (.discard id)
  | dropEntry {id : EntryId} {e : Entry} (he : t.entries.get? id = some e) :
      Returns t e.record (.dropEntry id)
  | dropRequest {id : RequestId} {r : Route} {g : Grant}
      (hid : t.pool.requests.get? id = some { route := r, outcome := .granted g }) :
      Returns t g.record (.dropRequest id)
  | connectFailed {s : Record} (f : Failure) (hs : s ∈ t.creating) :
      Returns t s (.connectFailed s f)

/-- The operation frees a slot of the route, and then the pool serves those who wait.  The lane of the
route may be dropped after it. -/
def Readmits (m : Moment) (t : Tenancy) (r : Route) (o : Op) : Prop :=
  ∃ w : Work, w.pool.leased + 1 = t.pool.leased ∧ w.pool.waiting = t.pool.waiting ∧
    ((t.act m o).tenancy.pool = (w.dispatch m (some r)).pool ∨
      (t.act m o).tenancy.pool = (w.dispatch m (some r)).pool.prune r)

theorem leased_freed {p : Pool} {g : Grant} (h : Sound (g ::ₘ held) p) (hopen : p.isShut = false) :
    (p.freed g.record).leased + 1 = p.leased :=
  Nat.sub_add_cancel (h.leased_pos hopen)

theorem readmits_release (h : t.IsSound) (hopen : t.pool.isShut = false) {id : EntryId} {e : Entry}
    (he : t.entries.get? id = some e) (reusable : Bool) (v : Option Span) :
    ∃ w : Work, w.pool.leased + 1 = t.pool.leased ∧ w.pool.waiting = t.pool.waiting ∧
      (t.release m id reusable v).tenancy.pool =
        (w.dispatch m (some e.record.route)).pool.prune e.record.route := by
  have hsound : Sound (.reuse ⟨e.record, e.conn⟩ ::ₘ _) t.pool := out_remove h he ▸ h.sound
  obtain ⟨hleased, hwaiting⟩ := Work.receive_slots (m := m) (w := { pool := t.pool })
    (e := ⟨e.record, e.conn⟩) reusable v
  refine ⟨_, ?_, hwaiting, ?_⟩
  · rw [hleased]
    exact leased_freed (g := .reuse ⟨e.record, e.conn⟩) hsound hopen
  · have hback := Work.takeBack_eq (m := m) (w := { pool := t.pool }) hsound hopen reusable v
    rw [release_eq he]
    exact congrArg (fun x => x.2.pool) hback

theorem readmits_vacate {w : Work} (h : Sound (.create s ::ₘ held) w.pool)
    (hopen : w.pool.isShut = false) :
    ∃ u : Work, u.pool.leased + 1 = w.pool.leased ∧ u.pool.waiting = w.pool.waiting ∧
      (w.vacate m s).pool = (u.dispatch m (some s.route)).pool.prune s.route := by
  refine ⟨{ w with pool := w.pool.freed s }, leased_freed (g := .create s) h hopen, rfl, ?_⟩
  rw [Work.vacate_eq h hopen]
  rfl

theorem Readmits.of_prune {r : Route} (h : ∃ w : Work, w.pool.leased + 1 = t.pool.leased ∧
    w.pool.waiting = t.pool.waiting ∧
      (t.act m o).tenancy.pool = (w.dispatch m (some r)).pool.prune r) : t.Readmits m r o := by
  obtain ⟨w, hleased, hwaiting, hpool⟩ := h
  exact ⟨w, hleased, hwaiting, .inr hpool⟩

theorem Returns.readmits (hr : t.Returns s o) (h : t.IsSound) (hopen : t.pool.isShut = false)
    (m : Moment) : t.Readmits m s.route o := by
  cases hr with
  | release reusable v he => exact .of_prune (readmits_release h hopen he reusable v)
  | discard he => exact .of_prune (readmits_release h hopen he false none)
  | @dropEntry id e he =>
    have hhas : t.entries.has id := by rw [Table.has, he]; rfl
    obtain ⟨w, hleased, hwaiting, hpool⟩ := readmits_release (m := m) h hopen he false none
    refine ⟨w, hleased, hwaiting, .inr (Eq.trans ?_ hpool)⟩
    exact congrArg Tenancy.pool (dropEntry_of_has (m := m) (c := 0) hhas).1
  | @dropRequest id r g hid =>
    cases g with
    | reuse e =>
      have hsound := Work.uncollected_sound (w := { pool := t.pool }) h.sound hid
      obtain ⟨hleased, hwaiting⟩ := Work.putBack_slots hsound hopen
      refine ⟨_, ?_, hwaiting, .inl (congrArg Work.pool (Work.forget_reuse hid))⟩
      rw [hleased]
      exact leased_freed (g := .reuse e) hsound hopen
    | create s =>
      have hsound := h.sound.collect hid rfl
      rw [Slot.grants_granted, Multiset.singleton_add] at hsound
      obtain ⟨w, hleased, hwaiting, hpool⟩ := readmits_vacate (m := m)
        (w := ((Work.mk t.pool [] []).cleared id).note (.dropReserved id s.id)) hsound hopen
      exact ⟨w, hleased, hwaiting,
        .inr ((congrArg Work.pool (Work.forget_create hid)).trans hpool)⟩
  | connectFailed f hs =>
    exact .of_prune (readmits_vacate
      (w := (Work.mk t.pool [] []).note (.connectFailed s.route f)) (out_erase hs ▸ h.sound) hopen)

theorem exists_returns (h : t.IsSound) {r : Route} {id : EntryId}
    (hid : id ∈ (t.pool.lane r).leased) :
    ∃ s : Record, s.route = r ∧ s.id = id ∧ ∃ o, t.Returns s o := by
  obtain ⟨g, hg, hslot⟩ := h.sound.exists_of_leased hid
  obtain ⟨hroute, hgid⟩ := Prod.mk.inj hslot
  refine ⟨g.record, hroute, hgid, ?_⟩
  rcases Multiset.mem_add.1 hg with hg | hg
  · rcases Multiset.mem_add.1 hg with hg | hg
    · obtain ⟨x, hx, hgx⟩ := Table.mem_total.1 hg
      obtain rfl := Multiset.mem_singleton.1 hgx
      exact ⟨_, .discard (Table.get?_eq_some_of_mem h.filed.keys hx)⟩
    · obtain ⟨s, hs, rfl⟩ := List.mem_map.1 (Multiset.mem_coe.1 hg)
      exact ⟨_, .connectFailed (.internally .internalError "") hs⟩
  · obtain ⟨id, r, hget⟩ := h.sound.mem_grants.1 hg
    exact ⟨_, .dropRequest hget⟩

end Tenancy

namespace Life

theorem exists_leased {p : Pool} {r : Route} (h : Sound held p) (hp : p.limits.ArePositive)
    (hs : p.Stuck r) : ∃ s id, id ∈ (p.lane s).leased := by
  rcases hs.full with hroute | ⟨-, htotal⟩
  · have hpos : 0 < (p.lane r).leased.length := (hp.route r).trans_le hroute
    obtain ⟨id, hid⟩ := List.exists_mem_of_length_pos hpos
    exact ⟨r, id, hid⟩
  -- the slots are all leased, but to other routes
  · have hpos : 0 < p.slots.card := h.leased ▸ hp.total.trans_le htotal
    obtain ⟨⟨s, id⟩, hslot⟩ := Multiset.card_pos_iff_exists_mem.1 hpos
    exact ⟨s, id, (Pool.mem_slots h.tidy).1 hslot⟩

/-- Whoever waits could not be served now, and somebody holds a slot whose return has the pool serve
those who wait. -/
theorem no_lost_wakeup {conf : Conf} (hconf : conf.validate = .ok conf)
    (ops : List (Moment × Op)) {id : RequestId} {r : Route}
    (hid : ((start conf).run ops).tenancy.pool.requests.get? id = some { route := r }) :
    let t := ((start conf).run ops).tenancy
    (t.pool.stats r).available = 0 ∧
      ((t.pool.stats r).max ≤ (t.pool.stats r).leased ∨
        t.pool.totalStats.available = 0 ∧ t.pool.totalStats.max ≤ t.pool.totalStats.leased) ∧
      (∀ m, (Work.provide m r { pool := t.pool }).1 = none) ∧
      ∃ s : Record, s.id ∈ (t.pool.lane s.route).leased ∧ (∃ o, t.Returns s o) ∧
        ∀ o m, t.Returns s o → t.Readmits m s.route o := by
  have h := run_sound conf ops
  have hsettled := run_settled conf ops
  have hpositive := run_arePositive hconf ops
  generalize ((start conf).run ops).tenancy = t at hid h hsettled hpositive ⊢
  have hopen : t.pool.isShut = false := h.sound.isShut_eq_false_of_pending hid
  have hstuck : t.pool.Stuck r :=
    hsettled r (List.ne_nil_of_mem (h.sound.queued.mem_queue.2 hid))
  refine ⟨?_, ?_, fun m => (Work.provide_of_stuck m hstuck).1, ?_⟩
  · exact List.length_eq_zero_iff.2 hstuck.available
  · exact hstuck.full.imp_right fun hfull => ⟨List.length_eq_zero_iff.2 hfull.1, hfull.2⟩
  · -- limits are positive and nothing is available, so some slot is leased
    obtain ⟨s, id, hleased⟩ := exists_leased h.sound hpositive hstuck
    obtain ⟨slot, rfl, rfl, hreturns⟩ := Tenancy.exists_returns h hleased
    exact ⟨slot, hleased, hreturns, fun o m hr => hr.readmits h hopen m⟩

theorem no_lost_wakeup_of_third :
    let t := ((start Sample.conf).run
      ([.lease Sample.route none, .lease Sample.route none, .lease Sample.route none].map
        (Prod.mk Sample.calm))).tenancy
    (Sample.conf.validate = .ok Sample.conf ∧
        t.pool.requests.get? ⟨3⟩ = some { route := Sample.route }) ∧
      (t.pool.stats Sample.route).max ≤ (t.pool.stats Sample.route).leased ∧
        ∃ s : Record, s.id ∈ (t.pool.lane s.route).leased ∧ (∃ o, t.Returns s o) ∧
          ∀ o m, t.Returns s o → t.Readmits m s.route o := by
  intro t
  have hconf : Sample.conf.validate = .ok Sample.conf := rfl
  have hid : t.pool.requests.get? ⟨3⟩ = some { route := Sample.route } := by decide
  exact ⟨⟨hconf, hid⟩, by decide, (no_lost_wakeup hconf _ hid).2.2.2⟩

end Life

end ConnectionPool
