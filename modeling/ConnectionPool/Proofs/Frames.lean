import ConnectionPool.Proofs.Moves

namespace ConnectionPool

namespace Pool

/-- Connections are drawn from the stock and slots are leased, and nothing comes back. -/
structure Draws (p q : Pool) : Prop where
  limits : q.limits = p.limits
  policy : q.policy = p.policy
  isShut : q.isShut = p.isShut
  number : p.lastRequest ≤ q.lastRequest
  available : ∀ r, (q.lane r).available.Sublist (p.lane r).available
  leased : ∀ r, (p.lane r).leased.length ≤ (q.lane r).leased.length
  idle : q.idle.Sublist p.idle
  total : p.leased ≤ q.leased

structure SameQueues (p q : Pool) : Prop where
  requests : q.requests = p.requests
  waiting : q.waiting = p.waiting
  queue : ∀ r, (q.lane r).queue = (p.lane r).queue

structure SameSlots (p q : Pool) : Prop where
  leased : ∀ r, (q.lane r).leased = (p.lane r).leased
  total : q.leased = p.leased

variable {p q u : Pool}

theorem Draws.refl (p : Pool) : p.Draws p :=
  ⟨rfl, rfl, rfl, le_rfl, fun _ => List.Sublist.refl _, fun _ => le_rfl, List.Sublist.refl _,
    le_rfl⟩

theorem Draws.trans (h : p.Draws q) (k : q.Draws u) : p.Draws u where
  limits := k.limits.trans h.limits
  policy := k.policy.trans h.policy
  isShut := k.isShut.trans h.isShut
  number := h.number.trans k.number
  available r := (k.available r).trans (h.available r)
  leased r := (h.leased r).trans (k.leased r)
  idle := k.idle.trans h.idle
  total := h.total.trans k.total

theorem draws_of_eq (hlimits : q.limits = p.limits) (hpolicy : q.policy = p.policy)
    (hshut : q.isShut = p.isShut) (hnumber : p.lastRequest ≤ q.lastRequest)
    (hlanes : q.lanes = p.lanes) (hidle : q.idle = p.idle) (hleased : q.leased = p.leased) :
    p.Draws q := by
  have hlane (r : Route) : q.lane r = p.lane r := by rw [lane, hlanes, lane]
  exact ⟨hlimits, hpolicy, hshut, hnumber, fun r => hlane r ▸ List.Sublist.refl _,
    fun r => (hlane r ▸ le_rfl), hidle ▸ List.Sublist.refl _, hleased.ge⟩

theorem Draws.available_eq_nil (h : p.Draws q) {r : Route} (hr : (p.lane r).available = []) :
    (q.lane r).available = [] :=
  List.sublist_nil.1 (hr ▸ h.available r)

theorem Draws.idle_eq_nil (h : p.Draws q) (hi : p.idle = []) : q.idle = [] :=
  List.sublist_nil.1 (hi ▸ h.idle)

theorem SameQueues.refl (p : Pool) : p.SameQueues p := ⟨rfl, rfl, fun _ => rfl⟩

theorem SameQueues.trans (h : p.SameQueues q) (k : q.SameQueues u) : p.SameQueues u where
  requests := k.requests.trans h.requests
  waiting := k.waiting.trans h.waiting
  queue r := (k.queue r).trans (h.queue r)

theorem SameSlots.refl (p : Pool) : p.SameSlots p := ⟨fun _ => rfl, rfl⟩

theorem SameSlots.trans (h : p.SameSlots q) (k : q.SameSlots u) : p.SameSlots u where
  leased r := (k.leased r).trans (h.leased r)
  total := k.total.trans h.total

theorem draws_of_edit {r : Route} {l : Lane} (hlanes : q.lanes = (p.setLane r l).lanes)
    (hlimits : q.limits = p.limits) (hpolicy : q.policy = p.policy) (hshut : q.isShut = p.isShut)
    (hnumber : p.lastRequest ≤ q.lastRequest)
    (havailable : l.available.Sublist (p.lane r).available)
    (hleased : (p.lane r).leased.length ≤ l.leased.length)
    (hidle : q.idle.Sublist p.idle) (htotal : p.leased ≤ q.leased) : p.Draws q where
  limits := hlimits
  policy := hpolicy
  isShut := hshut
  number := hnumber
  available s := by
    rw [lane_of_edit hlanes]
    split
    · next hs => exact hs ▸ havailable
    · exact List.Sublist.refl _
  leased s := by
    rw [lane_of_edit hlanes]
    split
    · next hs => exact hs ▸ hleased
    · exact le_rfl
  idle := hidle
  total := htotal

theorem Relanes.draws (h : p.Relanes q) : p.Draws q where
  limits := by rw [h.rest]
  policy := by rw [h.rest]
  isShut := by rw [h.rest]
  number := by rw [h.rest]
  available r := by rw [h.lane]
  leased r := by rw [h.lane]
  idle := by rw [h.idle]
  total := by rw [h.rest]

theorem Relanes.sameQueues (h : p.Relanes q) : p.SameQueues q where
  requests := by rw [h.rest]
  waiting := by rw [h.rest]
  queue r := by rw [h.lane]

theorem Relanes.sameSlots (h : p.Relanes q) : p.SameSlots q where
  leased r := by rw [h.lane]
  total := by rw [h.rest]

theorem draws_takeOut (e : Idle) : p.Draws (p.takeOut e) :=
  draws_of_edit rfl rfl rfl rfl le_rfl List.erase_sublist le_rfl List.erase_sublist le_rfl

theorem draws_pull (e : Idle) : p.Draws (p.pull e) :=
  (draws_takeOut e).trans (relanes_pull e p).draws

theorem draws_lease (t : Record) : p.Draws (p.lease t) :=
  draws_of_edit rfl rfl rfl rfl le_rfl (List.Sublist.refl _) (List.sublist_insert _ _).length_le
    (List.Sublist.refl _) (Nat.le_succ _)

theorem draws_enqueue (id : RequestId) (r : Route) (rs : Table RequestId Slot) :
    p.Draws { p.enqueue id r with requests := rs } :=
  draws_of_edit (r := r) rfl rfl rfl rfl le_rfl (List.Sublist.refl _) le_rfl (List.Sublist.refl _)
    le_rfl

theorem sameQueues_takeOut (e : Idle) : p.SameQueues (p.takeOut e) :=
  ⟨rfl, rfl, queue_of_edit rfl rfl⟩

theorem sameQueues_pull (e : Idle) : p.SameQueues (p.pull e) :=
  (sameQueues_takeOut e).trans (relanes_pull e p).sameQueues

theorem sameQueues_lease (t : Record) : p.SameQueues (p.lease t) :=
  ⟨rfl, rfl, queue_of_edit rfl rfl⟩

theorem draws_reserve (m : Moment) (r : Route) (w : Work) :
    w.pool.Draws (w.reserve m r).2.pool := by
  have h := draws_lease (p := { w.pool with lastEntry := w.pool.lastEntry + 1 }) (w.reserve m r).1
  exact ⟨rfl, rfl, rfl, le_rfl, h.available, h.leased, h.idle, h.total⟩

theorem sameQueues_reserve (m : Moment) (r : Route) (w : Work) :
    w.pool.SameQueues (w.reserve m r).2.pool := by
  have h := sameQueues_lease (p := { w.pool with lastEntry := w.pool.lastEntry + 1 })
    (w.reserve m r).1
  exact ⟨rfl, rfl, h.queue⟩

theorem sameSlots_takeOut (e : Idle) : p.SameSlots (p.takeOut e) where
  leased r := by
    rw [lane_takeOut]
    split
    · next hr => rw [hr]
    · rfl
  total := rfl

theorem sameSlots_pull (e : Idle) : p.SameSlots (p.pull e) :=
  (sameSlots_takeOut e).trans (relanes_pull e p).sameSlots

theorem draws_withdraw (id : RequestId) (rs : Table RequestId Slot) :
    p.Draws { p.withdraw id with requests := rs } := by
  cases hw : p.waiting.get? id with
  | none =>
    have hp : p.withdraw id = p := by rw [withdraw, hw]
    rw [hp]
    exact draws_of_eq rfl rfl rfl le_rfl rfl rfl rfl
  | some r =>
    have hunqueue : p.Draws { p.unqueue id r with requests := rs } :=
      draws_of_edit (r := r) rfl rfl rfl rfl le_rfl (List.Sublist.refl _) le_rfl
        (List.Sublist.refl _) le_rfl
    exact hunqueue.trans (relanes_withdraw hw rs).draws

end Pool

variable {m : Moment} {s t : Scene}

theorem Shed.draws (h : Shed s t) : s.work.pool.Draws t.work.pool := by
  cases h with
  | relane f hf => exact hf.draws
  | report => exact Pool.Draws.refl _
  | close => exact Pool.draws_takeOut _
  | evict => exact Pool.draws_pull _

theorem Shed.sameSlots (h : Shed s t) : s.work.pool.SameSlots t.work.pool := by
  cases h with
  | relane f hf => exact hf.sameSlots
  | report => exact Pool.SameSlots.refl _
  | close => exact Pool.sameSlots_takeOut _
  | evict => exact Pool.sameSlots_pull _

theorem Gain.draws (h : Gain m s t) : s.work.pool.Draws t.work.pool := by
  cases h with
  | shed h => exact h.draws
  | reuse => exact (Pool.draws_takeOut _).trans (Pool.draws_lease _)
  | reserve => exact Pool.draws_reserve m _ _

theorem Gain.sameQueues (h : Gain m s t) : s.work.pool.SameQueues t.work.pool := by
  cases h with
  | shed h =>
    cases h with
    | relane f hf => exact hf.sameQueues
    | report => exact Pool.SameQueues.refl _
    | close => exact Pool.sameQueues_takeOut _
    | evict => exact Pool.sameQueues_pull _
  | reuse => exact (Pool.sameQueues_takeOut _).trans (Pool.sameQueues_lease _)
  | reserve => exact Pool.sameQueues_reserve m _ _

theorem Serve.draws (hs : s.IsSound) (h : Serve m s t) : s.work.pool.Draws t.work.pool := by
  cases h with
  | gain h => exact h.draws
  | grant hid =>
    rw [Work.grant_eq _ (hs.head_pending hid)]
    exact Pool.draws_withdraw _ _

theorem Sheds.draws (h : Sheds s t) : s.work.pool.Draws t.work.pool := by
  induction h with
  | refl => exact Pool.Draws.refl _
  | tail _ hst ih => exact ih.trans hst.draws

theorem Sheds.sameSlots (h : Sheds s t) : s.work.pool.SameSlots t.work.pool := by
  induction h with
  | refl => exact Pool.SameSlots.refl _
  | tail _ hst ih => exact ih.trans hst.sameSlots

theorem Gains.draws (h : Gains m s t) : s.work.pool.Draws t.work.pool := by
  induction h with
  | refl => exact Pool.Draws.refl _
  | tail _ hst ih => exact ih.trans hst.draws

theorem Gains.sameQueues (h : Gains m s t) : s.work.pool.SameQueues t.work.pool := by
  induction h with
  | refl => exact Pool.SameQueues.refl _
  | tail _ hst ih => exact ih.trans hst.sameQueues

theorem Serves.draws (hs : s.IsSound) (h : Serves m s t) : s.work.pool.Draws t.work.pool := by
  induction h with
  | refl => exact Pool.Draws.refl _
  | tail hsu hst ih => exact ih.trans (hst.draws (hs.serves hsu))

end ConnectionPool
