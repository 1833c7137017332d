import ConnectionPool.Proofs.Life
import ConnectionPool.Proofs.Order

/-! The course of an operation.  It does some work of its own, which settles what becomes of single
requests, and then those who wait are served. -/

namespace ConnectionPool

variable {held : Multiset Grant} {p q : Pool} {w u v : Work} {e : Idle} {r : Route} {id : RequestId}
  {m : Moment} {t : Tenancy} {o : Op}

namespace Op

def settle (id : RequestId) : Op → Option Slot → Option Slot
  | get x last, s => if x = id ∧ (last || !s.any Slot.isPending) then none else s
  | cancel x, s => if x = id then s.map (Slot.refuse .cancelled) else s
  | dropRequest x, s => if x = id then none else s
  | shutDown, s => s.map Slot.revoke
  | _, s => s

def first (t : Tenancy) : Op → Option Route
  | connectFailed s _ => some s.route
  | dropRequest id =>
    match (t.pool.requests.get? id).map Slot.outcome with
    | some (.granted g) => some g.record.route
    | _ => none
  | release id _ _ => (t.entries.get? id).map (·.record.route)
  | discard id => (t.entries.get? id).map (·.record.route)
  | dropEntry id => (t.entries.get? id).map (·.record.route)
  | setMaxFor r _ => some r
  | _ => none

end Op

def Turn.work (turn : Turn α) : Work := ⟨turn.tenancy.pool, turn.closed, turn.reports⟩

/-- From the pool `p` on, the slots of the requests change as `f` says, which leads to some `w`.  Then
requests are served, which leads to `v`. -/
inductive Course (m : Moment) (held : Multiset Grant) (p : Pool)
    (f : RequestId → Option Slot → Option Slot) (first : Option Route) (v : Work) : Prop
  | intro {w : Work} {l : List (RequestId × Grant)} (hsound : Sound held w.pool)
      (hslots : ∀ id, w.pool.requests.get? id = f id (p.requests.get? id))
      (hhanded : w.handed = []) (hserved : Served m held 0 l w v) (hfair : v.pool.Fair first l) :
      Course m held p f first v

namespace Course

variable {f : RequestId → Option Slot → Option Slot} {first : Option Route}

theorem quiet (h : Sound held v.pool)
    (hslots : ∀ id, v.pool.requests.get? id = f id (p.requests.get? id)) (hv : v.handed = []) :
    Course m held p f first v :=
  .intro h hslots hv (.rest .refl) (l := []) (by simp [Pool.Fair])

theorem dispatch (h : Sound held w.pool)
    (hslots : ∀ id, w.pool.requests.get? id = f id (p.requests.get? id)) (hw : w.handed = []) :
    Course m held p f first (w.dispatch m first) := by
  obtain ⟨l, hserved, -, hfair⟩ := Work.dispatch_served (m := m) (c := 0) h first
  exact .intro h hslots hw hserved hfair

theorem relane {k : Pool → Pool} (h : Course m held p f first v)
    (hk : v.pool.Relanes (k v.pool)) : Course m held p f first (v.change k) := by
  obtain ⟨hsound, hslots, hhanded, hserved, hfair⟩ := h
  exact .intro hsound hslots hhanded (hserved.relane hk) (hfair.relane hk)

theorem vacate {s : Record} (h : Sound (.create s ::ₘ held) w.pool)
    (hslots : ∀ id, w.pool.requests.get? id = f id (p.requests.get? id)) (hw : w.handed = []) :
    Course m held p f (some s.route) (w.vacate m s) := by
  cases hshut : w.pool.isShut with
  | true =>
    have hsound : Sound held (w.vacate m s).pool :=
      Scene.IsSound.trades (m := m) (s := ⟨.create s ::ₘ held, 0, w⟩) h (Work.vacate_trades h)
    rw [Work.vacate_of_shut hshut] at hsound ⊢
    exact quiet hsound hslots hw
  | false =>
    rw [Work.vacate_eq h hshut]
    exact (dispatch (w := { w with pool := w.pool.freed s }) (h.freed (h.mem_leased hshut)) hslots
      hw).relane (Pool.relanes_prune _ _)

end Course

namespace Work

theorem handed_receive (reusable : Bool) (x : Option Span) :
    (w.receive m e reusable x).handed = w.handed := by
  unfold receive
  dsimp only
  split_ifs <;> simp [handed, Report.handed, Report.handed?, report, note, close, keep, change]

theorem requests_receive (reusable : Bool) (x : Option Span) :
    (w.receive m e reusable x).pool.requests = w.pool.requests := by
  unfold receive
  dsimp only
  split_ifs <;> rfl

end Work

namespace Course

variable {f : RequestId → Option Slot → Option Slot} {first : Option Route}

theorem takeBack (h : Sound (.reuse e ::ₘ held) w.pool) (reusable : Bool) (x : Option Span)
    (hslots : ∀ id, w.pool.requests.get? id = f id (p.requests.get? id)) (hw : w.handed = []) :
    Course m held p f (some e.record.route) (w.takeBack m e.record e.conn reusable x).2 := by
  cases hshut : w.pool.isShut with
  | true =>
    have hsound : Sound held (w.takeBack m e.record e.conn reusable x).2.pool :=
      Scene.IsSound.trades (m := m) (s := ⟨.reuse e ::ₘ held, 0, w⟩) h
        (Work.takeBack_trades h reusable x)
    rw [Work.takeBack_of_shut hshut] at hsound ⊢
    exact quiet hsound hslots hw
  | false =>
    have hsound : Sound held (w.receive m e reusable x).pool :=
      Scene.IsSound.trades (m := m) (s := ⟨.reuse e ::ₘ held, 0, w⟩) h
        (Work.receive_trades hshut reusable x)
    rw [Work.takeBack_eq h hshut]
    refine (dispatch hsound (fun id => ?_) ((Work.handed_receive reusable x).trans hw)).relane
      (Pool.relanes_prune _ _)
    rw [Work.requests_receive, hslots]

theorem putBack (h : Sound (.reuse e ::ₘ held) w.pool)
    (hslots : ∀ id, w.pool.requests.get? id = f id (p.requests.get? id)) (hw : w.handed = []) :
    Course m held p f (some e.record.route) ((w.putBack e).dispatch m (some e.record.route)) := by
  have hsound : Sound held (w.putBack e).pool :=
    Scene.IsSound.moves (m := m) (s := ⟨.reuse e ::ₘ held, 0, w⟩) h (Work.putBack_moves e)
  have hsame : (w.putBack e).pool.requests = w.pool.requests ∧ (w.putBack e).handed = w.handed := by
    cases hshut : w.pool.isShut with
    | true => simp [Work.putBack, Pool.unlease?, hshut, Work.close, Work.handed]
    | false =>
      rw [h.putBack_eq hshut]
      exact ⟨rfl, rfl⟩
  refine dispatch hsound ?_ (hsame.2.trans hw)
  rwa [hsame.1]

theorem gains {c : Multiset Conn} (h : Sound held w.pool)
    (hgain : Gains m ⟨held, c, w⟩ ⟨held, c, v⟩)
    (hslots : ∀ id, w.pool.requests.get? id = f id (p.requests.get? id)) (hw : w.handed = []) :
    Sound held v.pool ∧ (∀ id, v.pool.requests.get? id = f id (p.requests.get? id)) ∧
      v.handed = [] := by
  have hsame : v.pool.requests = w.pool.requests := hgain.sameQueues.requests
  refine ⟨Scene.IsSound.gains (s := ⟨held, c, w⟩) h hgain, ?_, hgain.handed_of_none.trans hw⟩
  rwa [hsame]

theorem trim {c : Multiset Conn} (h : Sound held w.pool) (hv : Sheds ⟨held, c, w⟩ ⟨held, c, v⟩)
    (hu : u = v ∨ u = v.dispatch m none)
    (hslots : ∀ id, w.pool.requests.get? id = f id (p.requests.get? id)) (hw : w.handed = []) :
    Course m held p f none u := by
  obtain ⟨hsound, hslots, hhanded⟩ := gains (m := m) h hv.gains hslots hw
  rcases hu with rfl | rfl
  · exact quiet hsound hslots hhanded
  · exact dispatch hsound hslots hhanded

theorem relimits {k : Limits → Limits} {c : Multiset Conn} (h : Sound held w.pool)
    (hr : Work.Relimits m held c k first w u)
    (hslots : ∀ id, w.pool.requests.get? id = f id (p.requests.get? id)) (hw : w.handed = []) :
    Course m held p f first u := by
  cases hr with
  | refused => exact quiet h hslots hw
  | done hsheds =>
    obtain ⟨hsound, hslots, hhanded⟩ := gains (m := m)
      (Work.changeLimits_sound h k) hsheds.gains hslots hw
    exact dispatch hsound hslots hhanded

end Course

namespace Pool

theorem ne_pending {s : Slot} (hid : p.requests.get? id = some s) (hs : s.isPending = false)
    (r : Route) : p.requests.get? id ≠ some { route := r } := by
  rw [hid]
  rintro ⟨⟩
  simp [Slot.isPending] at hs

theorem slot_cases (p : Pool) (id : RequestId) : p.requests.get? id = none ∨
    (∃ r, p.requests.get? id = some { route := r }) ∨
      ∃ s, p.requests.get? id = some s ∧ s.isPending = false := by
  cases hid : p.requests.get? id with
  | none => exact .inl rfl
  | some s =>
    cases hs : s.isPending with
    | false => exact .inr (.inr ⟨s, rfl, hs⟩)
    | true => exact .inr (.inl ⟨s.route, congrArg some (Slot.eq_of_isPending hs)⟩)

theorem get?_shutDown (h : Sound held p) (id : RequestId) :
    (Work.shutDown { pool := p }).2.pool.requests.get? id =
      (p.requests.get? id).map Slot.revoke := by
  cases hshut : p.isShut with
  | false =>
    rw [Work.pool_shutDown hshut]
    exact Table.get?_map p.requests Slot.revoke id
  | true =>
    rw [Work.shutDown_of_shut hshut]
    change p.requests.get? id = _
    cases hid : p.requests.get? id with
    | none => rfl
    | some s =>
      obtain ⟨r, o⟩ := s
      cases o with
      | failed f => rfl
      | pending => exact absurd (h.isShut_eq_false_of_pending hid) (by simp [hshut])
      | granted g => exact absurd (h.isShut_eq_false_of_granted hid) (by simp [hshut])

end Pool

namespace Tenancy

theorem get?_collect (hid : ∀ r, t.pool.requests.get? id ≠ some { route := r }) :
    (t.collect id).tenancy.pool.requests = t.pool.requests.remove id := by
  cases hs : t.pool.requests.get? id with
  | none =>
    obtain ⟨a, ha⟩ := collect_of_none hs
    rw [ha]
    exact (Table.remove_of_get?_eq_none hs).symm
  | some s =>
    obtain ⟨r, o⟩ := s
    cases o with
    | pending => exact absurd hs (hid r)
    | failed f => rw [collect_failed hs, clearedPool]
    | granted g =>
      cases g with
      | reuse e => rw [collect_reuse hs, clearedPool]
      | create s => rw [collect_create hs, clearedPool]

theorem reports_collect (id : RequestId) (t : Tenancy) : (t.collect id).reports = [] := by
  unfold collect
  dsimp only
  split <;> rfl

theorem get?_look (last : Bool) (x : RequestId) :
    (t.look id last).tenancy.pool.requests.get? x =
      (Op.get id last).settle x (t.pool.requests.get? x) := by
  by_cases hpending : ∃ r, t.pool.requests.get? id = some { route := r }
  · obtain ⟨r, hid⟩ := hpending
    have hany : (t.pool.requests.get? id).any Slot.isPending := by rw [hid]; rfl
    rw [look_pending last hid]
    cases last with
    | false =>
      have hsame : ¬ (id = x ∧ (!(t.pool.requests.get? x).any Slot.isPending) = true) := by
        rintro ⟨rfl, hnot⟩
        simp [hany] at hnot
      exact (if_neg hsame).symm
    | true =>
      change (t.pool.timeOut id).2.requests.get? x = _
      rw [Pool.timeOut_eq]
      by_cases hx : id = x <;> simp [Op.settle, hx]
  · rw [look_of_not_pending last (not_exists.1 hpending)]
    change (t.collect id).tenancy.pool.requests.get? x = _
    rw [get?_collect (not_exists.1 hpending)]
    have hany : (t.pool.requests.get? id).any Slot.isPending = false := by
      rcases t.pool.slot_cases id with hid | hid | ⟨s, hid, hs⟩
      · rw [hid]
        rfl
      · exact absurd hid hpending
      · rw [hid]
        exact hs
    by_cases hx : id = x
    · subst hx
      simp [Op.settle, hany]
    · simp [Op.settle, hx]

theorem reports_look (last : Bool) : (t.look id last).reports = [] := by
  have hcollect := reports_collect id t
  unfold look
  dsimp only
  split
  · split
    · rfl
    · exact hcollect
  · exact hcollect

theorem get?_cancel (x : RequestId) :
    (t.cancel id).tenancy.pool.requests.get? x =
      (Op.cancel id).settle x (t.pool.requests.get? x) := by
  change (Work.cancel id { pool := t.pool }).2.pool.requests.get? x = _
  rcases t.pool.slot_cases id with hid | ⟨r, hid⟩ | ⟨s, hid, hs⟩
  · rw [Work.cancel_of_not_pending fun r hr => by simp [hid] at hr]
    by_cases hx : id = x
    · subst hx
      simp [Op.settle, hid]
    · simp [Op.settle, hx]
  · rw [Work.cancel_eq hid]
    by_cases hx : id = x
    · subst hx
      simp [Op.settle, hid, Slot.refuse, Slot.isPending]
    · simp [Op.settle, hx]
  · rw [Work.cancel_of_not_pending (Pool.ne_pending hid hs)]
    by_cases hx : id = x
    · subst hx
      simp [Op.settle, hid, Slot.refuse, hs]
    · simp [Op.settle, hx]

theorem handed_cancel : (t.cancel id).work.handed = [] := by
  change (Work.cancel id { pool := t.pool }).2.handed = []
  by_cases hpending : ∃ r, t.pool.requests.get? id = some { route := r }
  · obtain ⟨r, hid⟩ := hpending
    rw [Work.cancel_eq hid]
    rfl
  · rw [Work.cancel_of_not_pending (not_exists.1 hpending)]
    rfl

theorem get?_remove (x : RequestId) : (t.pool.requests.remove id).get? x =
    (Op.dropRequest id).settle x (t.pool.requests.get? x) := by
  by_cases hx : id = x
  · subst hx
    simp [Op.settle]
  · simp [Op.settle, hx]

theorem forget_course (h : t.IsSound) :
    Course m t.out t.pool (fun x => (Op.dropRequest id).settle x) ((Op.dropRequest id).first t)
      ((Work.mk t.pool [] []).forget m id) := by
  have hsound : Sound t.out ((Work.mk t.pool [] []).forget m id).pool :=
    Scene.IsSound.moves (s := t.scene 0) h.scene (Work.forget_moves h.sound)
  cases hid : t.pool.requests.get? id with
  | none =>
    rw [Work.forget_of_none hid]
    refine .quiet h.sound (fun x => ?_) rfl
    rw [← get?_remove, Table.remove_of_get?_eq_none hid]
  | some s =>
    obtain ⟨r, o⟩ := s
    cases o with
    | pending =>
      rw [Work.forget_pending hid] at hsound ⊢
      exact .quiet hsound get?_remove rfl
    | failed f =>
      rw [Work.forget_failed hid] at hsound ⊢
      exact .quiet hsound get?_remove rfl
    | granted g =>
      have hcollect := h.sound.collect hid rfl
      rw [Slot.grants_granted, Multiset.singleton_add] at hcollect
      have hfirst : (Op.dropRequest id).first t = some g.record.route := by simp [Op.first, hid]
      rw [hfirst]
      cases g with
      | reuse e =>
        rw [Work.forget_reuse hid]
        exact .putBack (w := (Work.mk t.pool [] []).uncollected id e) hcollect get?_remove rfl
      | create s =>
        rw [Work.forget_create hid]
        exact .vacate (w := ((Work.mk t.pool [] []).cleared id).note (.dropReserved id s.id))
          hcollect get?_remove rfl

theorem release_course (h : t.IsSound) (x : EntryId) (reusable : Bool) (v : Option Span) :
    Course m (t.release m x reusable v).tenancy.out t.pool (fun _ s => s)
      ((t.entries.get? x).map (·.record.route)) (t.release m x reusable v).work := by
  cases he : t.entries.get? x with
  | none =>
    obtain ⟨a, ha⟩ := release_of_none (m := m) he reusable v
    rw [ha]
    exact .quiet h.sound (fun _ => rfl) rfl
  | some e =>
    rw [release_eq he]
    exact Course.takeBack (e := ⟨e.record, e.conn⟩) (w := { pool := t.pool })
      (out_remove h he ▸ h.sound) reusable v (fun _ => rfl) rfl

theorem act_course (h : t.IsSound) {made : List Conn} (hp : o.isPossible t made)
    (ho : ∀ r timeout, o ≠ .lease r timeout) :
    Course m (t.act m o).tenancy.out t.pool (fun id => o.settle id) (o.first t)
      (t.act m o).work := by
  have hsound := (act_sound (m := m) h hp).sound
  cases o with
  | lease r timeout => exact absurd rfl (ho r timeout)
  | get id last =>
    refine .quiet hsound (get?_look last) ?_
    change Report.handed (t.look id last).reports = []
    rw [reports_look]
    rfl
  | connected s x =>
    have hhanded : (t.connected s x).work.handed = [] := by
      unfold connected
      dsimp only
      split <;> rfl
    refine .quiet hsound (fun id => ?_) hhanded
    exact congrArg (fun p => p.requests.get? id) (connected_pool s x)
  | connectFailed s f =>
    have hs : s ∈ t.creating := of_decide_eq_true hp
    exact .vacate (w := (Work.mk t.pool [] []).note (.connectFailed s.route f))
      (out_erase hs ▸ h.sound) (fun _ => rfl) rfl
  | cancel id => exact .quiet hsound get?_cancel handed_cancel
  | dropRequest id => exact forget_course h
  | release id reusable v => exact release_course h id reusable v
  | discard id => exact release_course h id false none
  | dropEntry id =>
    change Course m (t.dropEntry m id).tenancy.out _ _ _ (t.dropEntry m id).work
    by_cases he : t.entries.has id
    · obtain ⟨htenancy, hscene⟩ := dropEntry_of_has (m := m) (c := 0) he
      have hwork : (t.dropEntry m id).work = (t.discard m id).work := congrArg Scene.work hscene
      rw [htenancy, hwork]
      exact release_course h id false none
    · rw [dropEntry_of_not_has he]
      exact .quiet h.sound (fun _ => rfl) rfl
  | setMaxTotal max =>
    exact .relimits (w := { pool := t.pool }) (c := 0) h.sound
      (Work.setMaxTotal_relimits h.sound max) (fun _ => rfl) rfl
  | setDefaultMax max =>
    exact .relimits (w := { pool := t.pool }) (c := 0) h.sound
      (Work.setDefaultMax_relimits h.sound max) (fun _ => rfl) rfl
  | setMaxFor r max =>
    exact .relimits (w := { pool := t.pool }) (c := 0) h.sound
      (Work.setMaxFor_relimits h.sound r max) (fun _ => rfl) rfl
  | closeExpired =>
    obtain ⟨v, hv, hu⟩ :=
      Work.closeExpired_sheds (w := { pool := t.pool }) (c := 0) (m := m) h.sound
    exact .trim (w := { pool := t.pool }) h.sound hv hu (fun _ => rfl) rfl
  | closeIdle span =>
    obtain ⟨v, hv, hu⟩ :=
      Work.closeIdle_sheds (w := { pool := t.pool }) (c := 0) (m := m) h.sound span
    exact .trim (w := { pool := t.pool }) h.sound hv hu (fun _ => rfl) rfl
  | shutDown =>
    refine .quiet hsound (Pool.get?_shutDown h.sound) ?_
    change (Work.shutDown { pool := t.pool }).2.handed = []
    unfold Work.shutDown
    split <;> rfl

end Tenancy

end ConnectionPool
