import ConnectionPool.Proofs.Bounds
import ConnectionPool.Proofs.Dispatch

namespace ConnectionPool

variable {held : Multiset Grant} {p : Pool} {e : Idle} {r : Route} {m : Moment} {s t : Scene}

namespace Pool

theorem length_leased_lease {t : Record} (ht : t.id ∉ (p.lane t.route).leased) (r : Route) :
    ((p.lease t).lane r).leased.length =
      (p.lane r).leased.length + if t.route = r then 1 else 0 := by
  rw [lane_lease]
  by_cases hr : t.route = r
  · subst hr
    rw [if_pos rfl, if_pos rfl, Lane.lease, List.insert_of_not_mem ht, List.length_cons]
  · rw [if_neg (Ne.symm hr), if_neg hr, Nat.add_zero]

theorem lane_lease_of_ne {t : Record} (hr : t.route ≠ r) : (p.lease t).lane r = p.lane r := by
  rw [lane_lease, if_neg (Ne.symm hr)]

theorem lane_takeOut_of_ne (hr : e.record.route ≠ r) : (p.takeOut e).lane r = p.lane r := by
  rw [lane_takeOut, if_neg (Ne.symm hr)]

theorem sameSlots_withdraw (id : RequestId) (rs : Table RequestId Slot) :
    p.SameSlots { p.withdraw id with requests := rs } := by
  cases hw : p.waiting.get? id with
  | none =>
    have hp : p.withdraw id = p := by rw [withdraw, hw]
    rw [hp]
    exact ⟨fun _ => rfl, rfl⟩
  | some r =>
    have hunqueue : p.SameSlots { p.unqueue id r with requests := rs } := by
      refine ⟨fun s => ?_, rfl⟩
      change ((p.unqueue id r).lane s).leased = _
      rw [lane_unqueue]
      split
      · next hs => rw [hs, Lane.dequeue]
      · rfl
    exact hunqueue.trans (relanes_withdraw hw rs).sameSlots

end Pool

/-- The slots and connections on the way to callers of the route. -/
def Scene.due (r : Route) (s : Scene) : Nat := s.held.countP (·.record.route = r)

theorem Scene.due_cons (g : Grant) {c : Multiset Conn} {w w' : Work} (r : Route) :
    Scene.due r ⟨g ::ₘ held, c, w⟩ =
      Scene.due r ⟨held, c, w'⟩ + if g.record.route = r then 1 else 0 :=
  Multiset.countP_cons ..

theorem Gain.served (hs : s.IsSound) (h : Gain m s t) (r : Route) :
    (t.work.pool.lane r).leased.length + s.due r =
      (s.work.pool.lane r).leased.length + t.due r := by
  cases h with
  | shed h =>
    rw [h.sameSlots.leased]
    cases h <;> rfl
  | @reuse h c w e rest he =>
    have hmem : e ∈ (w.pool.lane e.record.route).available := he ▸ List.mem_cons_self
    have hnew := (hs.takeOut hmem).not_mem_leased (r := e.record.route) (hs.not_mem_takeOut hmem)
    have hlen := Pool.length_leased_lease (t := e.record) hnew r
    rw [(Pool.sameSlots_takeOut e).leased] at hlen
    have hdue : Scene.due r ⟨.reuse e ::ₘ h, c,
        ((w.note (.reuse e.record.id e.record.route)).change
          (Pool.takeOut e)).change (Pool.lease e.record)⟩ =
          Scene.due r ⟨h, c, w⟩ + if e.record.route = r then 1 else 0 := Scene.due_cons _ r
    rw [hdue]
    change ((Pool.lease e.record (w.pool.takeOut e)).lane r).leased.length + _ = _
    rw [hlen]
    ac_rfl
  | @reserve h c w r' hopen hnone hroute htotal =>
    have hnew : (w.reserve m r').1.id ∉ (w.pool.lane r').leased :=
      Sound.not_mem_leased hs (Sound.not_mem_next hs)
    have hlen : ((w.reserve m r').2.pool.lane r).leased.length =
        (w.pool.lane r).leased.length + if r' = r then 1 else 0 :=
      Pool.length_leased_lease (p := { w.pool with lastEntry := w.pool.lastEntry + 1 })
        (t := (w.reserve m r').1) hnew r
    have hdue : Scene.due r ⟨.create (w.reserve m r').1 ::ₘ h, c, (w.reserve m r').2⟩ =
        Scene.due r ⟨h, c, w⟩ + if r' = r then 1 else 0 := Scene.due_cons _ r
    rw [hlen, hdue]
    ac_rfl

theorem Serve.served (hs : s.IsSound) (h : Serve m s t) (r : Route) :
    (t.work.pool.lane r).leased.length + (t.work.pool.lane r).queue.length + s.due r =
      (s.work.pool.lane r).leased.length + (s.work.pool.lane r).queue.length + t.due r := by
  cases h with
  | gain h =>
    have hserved := h.served hs r
    rw [h.sameQueues.queue]
    omega
  | @grant h c w g id hid =>
    obtain ⟨ids, hq⟩ := List.head?_eq_some_iff.1 hid
    have hqueue := Sound.queue_grant (g := g) hs hq r
    have hleased : ((w.grant id g).pool.lane r).leased = (w.pool.lane r).leased := by
      rw [Work.grant_eq g (hs.head_pending hid)]
      exact (Pool.sameSlots_withdraw (p := w.pool) id _).leased r
    have hdue : Scene.due r ⟨g ::ₘ h, c, w⟩ =
        Scene.due r ⟨h, c, w.grant id g⟩ + if g.record.route = r then 1 else 0 :=
      Scene.due_cons g r
    rw [hqueue, hleased, hdue]
    by_cases hr : g.record.route = r
    · subst hr
      rw [if_pos rfl, if_pos rfl, hq, List.length_cons]
      ac_rfl
    · rw [if_neg (Ne.symm hr), if_neg hr]
      rfl

theorem Serves.served (hs : s.IsSound) (h : Serves m s t) (r : Route) :
    (t.work.pool.lane r).leased.length + (t.work.pool.lane r).queue.length + s.due r =
      (s.work.pool.lane r).leased.length + (s.work.pool.lane r).queue.length + t.due r := by
  induction h with
  | refl => rfl
  | tail hsu hut ih =>
    have hserved := hut.served (hs.serves hsu) r
    omega

theorem Serves.queue_ne_nil {c : Multiset Conn} {w u : Work} (hs : Scene.IsSound ⟨held, c, w⟩)
    (h : Serves m ⟨held, c, w⟩ ⟨held, c, u⟩)
    (hleased : (u.pool.lane r).leased = (w.pool.lane r).leased)
    (hq : (w.pool.lane r).queue ≠ []) : (u.pool.lane r).queue ≠ [] := by
  have hserved : (u.pool.lane r).leased.length + (u.pool.lane r).queue.length + _ =
      (w.pool.lane r).leased.length + (w.pool.lane r).queue.length + _ := Serves.served hs h r
  rw [hleased] at hserved
  -- both sides have the same grants under way, for the grants outside of the pool are the same
  have hlen := Nat.add_left_cancel (Nat.add_right_cancel hserved)
  rw [← List.length_pos_iff] at hq ⊢
  exact hlen ▸ hq

theorem Serve.leased_eq (hs : s.IsSound) (h : Serve m s t)
    (hone : (s.work.pool.lane r).available = [e]) (hstay : (t.work.pool.lane r).available ≠ []) :
    (t.work.pool.lane r).leased = (s.work.pool.lane r).leased := by
  cases h with
  | gain h =>
    cases h with
    | shed h => exact h.sameSlots.leased r
    | @reuse h c w d rest hd =>
      by_cases hr : d.record.route = r
      · subst hr
        obtain ⟨rfl, rfl⟩ := List.cons.inj (hd.symm.trans hone)
        refine absurd ?_ hstay
        change ((Pool.lease d.record (w.pool.takeOut d)).lane d.record.route).available = []
        rw [Pool.lane_lease, if_pos rfl, Pool.lane_takeOut, if_pos rfl, Lane.lease, hd,
          List.erase_cons_head]
      · change ((Pool.lease d.record (w.pool.takeOut d)).lane r).leased = _
        rw [Pool.lane_lease_of_ne hr, Pool.lane_takeOut_of_ne hr]
    | @reserve h c w r' hopen hnone =>
      have hr : r' ≠ r := by
        rintro rfl
        simp [hone] at hnone
      exact congrArg Lane.leased (Pool.lane_lease_of_ne (t := (w.reserve m r').1) hr)
  | @grant h c w g id hid =>
    rw [Work.grant_eq g (hs.head_pending hid)]
    exact (Pool.sameSlots_withdraw (p := w.pool) id _).leased r

theorem Serves.leased_eq (hs : s.IsSound) (h : Serves m s t)
    (hone : (s.work.pool.lane r).available = [e]) (hstay : (t.work.pool.lane r).available ≠ []) :
    (t.work.pool.lane r).leased = (s.work.pool.lane r).leased := by
  induction h with
  | refl => rfl
  | @tail u t hsu hut ih =>
    have hu : (u.work.pool.lane r).available ≠ [] :=
      fun hnil => hstay ((hut.draws (hs.serves hsu)).available_eq_nil hnil)
    have hsub := (Serves.draws hs hsu).available r
    rw [hone, List.sublist_singleton] at hsub
    exact (hut.leased_eq (hs.serves hsu) (hsub.resolve_left hu) hstay).trans (ih hu)

theorem Serve.sameSlots (hs : s.IsSound) (h : Serve m s t) {k : Mark}
    (hone : s.work.pool.idle = [k])
    (hfull : s.work.pool.limits.total ≤ s.work.pool.allocated)
    (hstay : t.work.pool.idle ≠ []) : s.work.pool.SameSlots t.work.pool := by
  cases h with
  | gain h =>
    cases h with
    | shed h => exact h.sameSlots
    | @reuse h c w d rest hd =>
      have hmem : d.mark ∈ w.pool.idle :=
        hs.mark_mem (hs.mem_stock.2 (hd ▸ List.mem_cons_self))
      rw [hone, List.mem_singleton] at hmem
      refine absurd ?_ hstay
      change w.pool.idle.erase d.mark = []
      rw [hone, hmem, List.erase_cons_head]
    | reserve hopen hnone hroute htotal => exact absurd htotal (not_lt.2 hfull)
  | @grant h c w g id hid =>
    rw [Work.grant_eq g (hs.head_pending hid)]
    exact Pool.sameSlots_withdraw (p := w.pool) id _

theorem Serves.sameSlots (hs : s.IsSound) (h : Serves m s t) {k : Mark}
    (hone : s.work.pool.idle = [k])
    (hfull : s.work.pool.limits.total ≤ s.work.pool.allocated)
    (hstay : t.work.pool.idle ≠ []) : s.work.pool.SameSlots t.work.pool := by
  induction h with
  | refl => exact Pool.SameSlots.refl _
  | @tail u t hsu hut ih =>
    have hu : u.work.pool.idle ≠ [] :=
      fun hnil => hstay ((hut.draws (hs.serves hsu)).idle_eq_nil hnil)
    have hd := Serves.draws hs hsu
    have hsub := hd.idle
    rw [hone, List.sublist_singleton] at hsub
    have hidle := hsub.resolve_left hu
    have hslots := ih hu
    refine hslots.trans (hut.sameSlots (hs.serves hsu) hidle ?_ hstay)
    rwa [hd.limits, Pool.allocated, hslots.total, hidle, ← hone]

end ConnectionPool
