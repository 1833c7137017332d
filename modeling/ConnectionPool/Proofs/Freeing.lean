import ConnectionPool.Proofs.Lowering
import ConnectionPool.Proofs.Precedence

namespace ConnectionPool

variable {held : Multiset Grant} {c : Multiset Conn} {w u v : Work} {m : Moment} {t : Tenancy} {o : Op}
  {made : List Conn} {id : RequestId} {r : Route} {g : Grant} {l : Life}

namespace Work

variable (h : Sound held w.pool) (hs : w.pool.Settled)
include h hs

theorem requests_of_trim (hv : Sheds ⟨held, c, w⟩ ⟨held, c, v⟩)
    (hu : u = v ∨ u = v.dispatch m none) : u.pool.requests = w.pool.requests := by
  have hsame : v.pool.requests = w.pool.requests := (hv.gains (m := m)).sameQueues.requests
  rcases hu with rfl | rfl
  · exact hsame
  · have hsound : Sound held v.pool := Scene.IsSound.sheds (s := ⟨held, c, w⟩) h hv
    have hsettled : v.pool.Settled :=
      Pool.Settled.gains (m := m) (s := ⟨held, c, w⟩) hs hv.gains
    rw [(dispatch_rests hsound hsettled m none).pool, hsame]

theorem Relimits.requests {f : Limits → Limits} {first : Option Route}
    (hf : (f w.pool.limits).Rise w.pool.limits) (hr : Relimits m held c f first w u) :
    u.pool.requests = w.pool.requests := by
  cases hr with
  | refused => rfl
  | @done v hsheds =>
    have hlow : Scene.IsSound ⟨held, c, w.changeLimits f⟩ := changeLimits_sound h f
    have hsettled : v.pool.Settled :=
      Pool.Settled.gains (m := m) (s := ⟨held, c, w.changeLimits f⟩) (hs.lower hf) hsheds.gains
    rw [(dispatch_rests (hlow.sheds hsheds) hsettled m first).pool]
    exact (hsheds.gains (m := m)).sameQueues.requests

end Work

/-- The operation brings a connection or a slot back, or raises a limit. -/
def Op.Frees (t : Tenancy) : Op → Prop
  | connectFailed s _ => s ∈ t.creating
  | dropRequest id => ∃ r g, t.pool.requests.get? id = some { route := r, outcome := .granted g }
  | release id _ _ => t.entries.has id
  | discard id => t.entries.has id
  | dropEntry id => t.entries.has id
  | o => ¬ (o.limits t.pool.limits).Rise t.pool.limits

namespace Op

theorem not_frees_of_isLease (ho : o.isLease) : ¬ o.Frees t := by
  cases o with
  | lease => exact not_not_intro (Limits.Rise.refl _)
  | _ => cases ho

theorem rise_of_not_frees (ho : ¬ o.Frees t) : (o.limits t.pool.limits).Rise t.pool.limits := by
  cases o with
  | setMaxTotal => exact not_not.1 ho
  | setDefaultMax => exact not_not.1 ho
  | setMaxFor => exact not_not.1 ho
  | _ => exact .refl _

end Op

namespace Tenancy

theorem get?_forget (x : RequestId) (hid : ¬ (Op.dropRequest id).Frees t) :
    (t.dropRequest m id).tenancy.pool.requests.get? x =
      (Op.dropRequest id).settle x (t.pool.requests.get? x) := by
  rw [← get?_remove]
  change ((Work.mk t.pool [] []).forget m id).pool.requests.get? x = _
  cases hs : t.pool.requests.get? id with
  | none => rw [Work.forget_of_none hs, Table.remove_of_get?_eq_none hs]
  | some s =>
    obtain ⟨r, d⟩ := s
    cases d with
    | pending =>
      rw [Work.forget_pending hs]
      rfl
    | failed f =>
      rw [Work.forget_failed hs]
      rfl
    | granted g => exact absurd ⟨r, g, hs⟩ hid

/-- Who waits is granted something only by what is set free. -/
theorem act_slot_of_not_frees (h : t.IsSound) (hs : t.pool.Settled) (hp : o.isPossible t made)
    (hid : id.number ≤ t.pool.lastRequest) (ho : ¬ o.Frees t) :
    (t.act m o).tenancy.pool.requests.get? id = o.settle id (t.pool.requests.get? id) := by
  have hsame {x : Tenancy} (hx : x.pool.requests = t.pool.requests) :
      x.pool.requests.get? id = t.pool.requests.get? id := by rw [hx]
  have hrelease {x : EntryId} (hx : ¬ t.entries.has x) (reusable : Bool) (v : Option Span) :
      (t.release m x reusable v).tenancy = t := by
    obtain ⟨a, ha⟩ := release_of_none (m := m) (by simpa [Table.has] using hx) reusable v
    rw [ha]
  cases o with
  | lease r timeout =>
    change (t.lease m r timeout).tenancy.pool.requests.get? id = t.pool.requests.get? id
    cases lease_leases (m := m) (r := r) h timeout with
    | refused f hturn => rw [hturn]
    | enters s ticket _ hrequests =>
      rw [hrequests, Table.get?_put_of_ne _ _ (ne_nextRequest hid)]
  | get x last => exact get?_look last id
  | connected s x =>
    change (t.connected s x).tenancy.pool.requests.get? id = t.pool.requests.get? id
    rw [connected_pool]
  | connectFailed s f => exact absurd (of_decide_eq_true hp) ho
  | cancel x => exact get?_cancel id
  | dropRequest x => exact get?_forget id ho
  | release x reusable v => exact congrArg (·.pool.requests.get? id) (hrelease ho reusable v)
  | discard x => exact congrArg (·.pool.requests.get? id) (hrelease ho false none)
  | dropEntry x =>
    change (t.dropEntry m x).tenancy.pool.requests.get? id = t.pool.requests.get? id
    rw [dropEntry_of_not_has ho]
  | setMaxTotal max =>
    have hr := Work.setMaxTotal_relimits (m := m) (w := { pool := t.pool }) (c := 0) h.sound max
    exact hsame (Work.Relimits.requests h.sound hs (Op.rise_of_not_frees ho) hr)
  | setDefaultMax max =>
    have hr := Work.setDefaultMax_relimits (m := m) (w := { pool := t.pool }) (c := 0) h.sound max
    exact hsame (Work.Relimits.requests h.sound hs (Op.rise_of_not_frees ho) hr)
  | setMaxFor r max =>
    have hr := Work.setMaxFor_relimits (m := m) (w := { pool := t.pool }) (c := 0) h.sound r max
    exact hsame (Work.Relimits.requests h.sound hs (Op.rise_of_not_frees ho) hr)
  | closeExpired =>
    obtain ⟨v, hv, hu⟩ := Work.closeExpired_sheds (m := m) (w := { pool := t.pool }) (c := 0) h.sound
    exact hsame (Work.requests_of_trim h.sound hs hv hu)
  | closeIdle span =>
    obtain ⟨v, hv, hu⟩ :=
      Work.closeIdle_sheds (m := m) (w := { pool := t.pool }) (c := 0) h.sound span
    exact hsame (Work.requests_of_trim h.sound hs hv hu)
  | shutDown => exact Pool.get?_shutDown h.sound id

end Tenancy

namespace Life

theorem step_settled (h : l.tenancy.IsSound) (hs : l.tenancy.pool.Settled) (m : Moment) (o : Op) :
    (l.step m o).tenancy.pool.Settled := by
  by_cases hp : o.isPossible l.tenancy l.made
  · rw [step_tenancy hp]
    exact Tenancy.act_settled h hp hs
  · rwa [step_of_not_isPossible hp]

theorem frees_of_grants {m : Moment} {s : Route} (h : l.tenancy.IsSound)
    (hs : l.tenancy.pool.Settled) (hid : l.tenancy.pool.requests.get? id = some { route := s })
    (hgrants : l.tenancy.pool.Grants (l.step m o).tenancy.pool id r g) : o.Frees l.tenancy := by
  by_contra ho
  by_cases hp : o.isPossible l.tenancy l.made
  · have hsame := Tenancy.act_slot_of_not_frees (m := m) h hs hp (Tenancy.number_le h hid) ho
    have hgranted := hgrants.granted
    rw [step_tenancy hp, hsame, hid] at hgranted
    have hslot := Op.settle_granted hgranted
    simp at hslot
  · rw [step_of_not_isPossible hp] at hgrants
    have hgranted := hgrants.granted
    simp [hid] at hgranted

end Life

end ConnectionPool
