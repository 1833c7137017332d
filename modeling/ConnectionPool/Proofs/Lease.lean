import ConnectionPool.Proofs.Return

namespace ConnectionPool

variable {held : Multiset Grant} {c : Multiset Conn} {p q : Pool} {w : Work} {id : RequestId}
  {r : Route} {m : Moment}

namespace Pool

def nextRequest (p : Pool) : RequestId := ⟨p.lastRequest + 1⟩

theorem settled_withdraw (hp : p.Queued) (h : p.Settled)
    (hid : p.requests.get? id = some { route := r }) (rs : Table RequestId Slot) :
    Settled { p.withdraw id with requests := rs } := by
  refine h.draws (draws_withdraw id rs) fun s hs => ?_
  change ((p.withdraw id).lane s).queue ≠ [] at hs
  rw [lane_withdraw (hp.get?_waiting.2 hid)] at hs
  split at hs
  · next heq =>
    subst heq
    rintro hnil
    rw [Lane.dequeue, hnil] at hs
    exact hs rfl
  · exact hs

theorem prune_requests (p : Pool) (r : Route) (rs : Table RequestId Slot) :
    prune r { p with requests := rs } = { p.prune r with requests := rs } := by
  simp only [prune]
  split <;> rfl

theorem withdraw_requests (p : Pool) (id : RequestId) (rs : Table RequestId Slot) :
    withdraw id { p with requests := rs } = { p.withdraw id with requests := rs } := by
  unfold withdraw
  dsimp only
  cases p.waiting.get? id with
  | none => rfl
  | some r => exact prune_requests (p.unqueue id r) r rs

end Pool

namespace Slot

theorem eq_of_isPending {s : Slot} (h : s.isPending = true) : s = { route := s.route } := by
  obtain ⟨r, o⟩ := s
  simpa [isPending] using h

end Slot

namespace Work

def numbered (w : Work) : Work := w.change ({ · with lastRequest := w.pool.lastRequest + 1 })

theorem numbered_sound (h : Sound held w.pool) : Sound held w.numbered.pool :=
  h.of_eq rfl rfl rfl rfl rfl rfl le_rfl (Nat.le_succ _)

section Lease

variable (hopen : w.pool.isShut = false)
include hopen

theorem lease_of_some {u : Work} {g : Grant} (hq : (w.pool.lane r).queue = [])
    (hp : w.numbered.provide m r = (some g, u)) (hr : g.record.route = r) :
    w.lease m r = (.ok w.pool.nextRequest, u.change fun p => { p with
      requests := p.requests.put w.pool.nextRequest
        { route := g.record.route, outcome := .granted g } }) := by
  have hq' : (w.numbered.pool.lane r).queue = [] := hq
  unfold numbered at hp hq'
  simp only [lease, hopen, hq', hp, hr]
  rfl

theorem lease_of_none {u : Work} (hq : (w.pool.lane r).queue = [])
    (hp : w.numbered.provide m r = (none, u)) :
    w.lease m r = (.ok w.pool.nextRequest,
      (u.note (.queue w.pool.nextRequest r)).change fun p => {
        p.enqueue w.pool.nextRequest r with
        requests := p.requests.put w.pool.nextRequest { route := r } }) := by
  have hq' : (w.numbered.pool.lane r).queue = [] := hq
  unfold numbered at hp hq'
  simp only [lease, hopen, hq', hp]
  rfl

theorem lease_of_queue (hq : (w.pool.lane r).queue ≠ []) :
    w.lease m r = (.ok w.pool.nextRequest,
      (w.numbered.note (.queue w.pool.nextRequest r)).change fun p => {
        p.enqueue w.pool.nextRequest r with
        requests := p.requests.put w.pool.nextRequest { route := r } }) := by
  have hq' : (w.numbered.pool.lane r).queue ≠ [] := hq
  unfold numbered at hq'
  simp only [lease, hopen, hq']
  rfl

end Lease

/-- A request is granted something at once, or it waits, behind others or for a stuck route. -/
theorem lease_cases (h : Sound held w.pool) (hopen : w.pool.isShut = false) :
    (∃ g u, w.lease m r = (.ok w.pool.nextRequest, u.change fun p => { p with
        requests := p.requests.put w.pool.nextRequest
          { route := g.record.route, outcome := .granted g } }) ∧
      g.record.route = r ∧ (w.pool.lane r).queue = [] ∧
      Gains m ⟨held, c, w.numbered⟩ ⟨g ::ₘ held, c, u⟩) ∨
    ∃ u, w.lease m r = (.ok w.pool.nextRequest, u.change fun p => {
        p.enqueue w.pool.nextRequest r with
        requests := p.requests.put w.pool.nextRequest { route := r } }) ∧
      ((w.pool.lane r).queue ≠ [] ∨ u.pool.Stuck r) ∧
      Gains m ⟨held, c, w.numbered⟩ ⟨held, c, u⟩ := by
  have hnote (u : Work) : Gain m ⟨held, c, u⟩ ⟨held, c, u.note (.queue w.pool.nextRequest r)⟩ :=
    .shed (shed_note _ rfl)
  by_cases hq : (w.pool.lane r).queue = []
  · rcases provide_moves (m := m) (c := c) (r := r) (numbered_sound h) hopen with
      ⟨g, u, hprovide, hroute, hgain⟩ | ⟨u, hprovide, hstuck, hshed⟩
    · exact .inl ⟨g, u, lease_of_some hopen hq hprovide hroute, hroute, hq, hgain⟩
    · have hgain : Gains m ⟨held, c, w.numbered⟩ ⟨held, c, u⟩ := hshed.gains
      exact .inr ⟨_, lease_of_none hopen hq hprovide, .inr hstuck, hgain.tail (hnote u)⟩
  · exact .inr ⟨_, lease_of_queue hopen hq, .inl hq, .single (hnote w.numbered)⟩

section Fresh

variable {u : Work} {held' : Multiset Grant}

theorem lt_nextRequest (h : Sound held w.pool)
    (hgain : Gains m ⟨held, c, w.numbered⟩ ⟨held', c, u⟩) :
    ∀ x ∈ u.pool.requests.keys, x.number < w.pool.nextRequest.number := by
  intro x hx
  have hr : u.pool.requests = w.pool.requests := hgain.sameQueues.requests
  exact Nat.lt_succ_of_le (h.queued.numbers x (hr ▸ hx))

theorem nextRequest_le (hgain : Gains m ⟨held, c, w.numbered⟩ ⟨held', c, u⟩) :
    w.pool.nextRequest.number ≤ u.pool.lastRequest := by
  exact hgain.draws.number

theorem isShut_of_numbered (hopen : w.pool.isShut = false)
    (hgain : Gains m ⟨held, c, w.numbered⟩ ⟨held', c, u⟩) : u.pool.isShut = false :=
  hgain.draws.isShut.trans hopen

end Fresh

theorem lease_trades (h : Sound held w.pool) :
    Trades m ⟨held, c, w⟩ ⟨held, c, (w.lease m r).2⟩ := by
  cases hshut : w.pool.isShut with
  | true =>
    have hstay : (w.lease m r).2 = w := by simp [lease, hshut]
    rw [hstay]
  | false =>
    have hnumber : Trade m ⟨held, c, w⟩ ⟨held, c, w.numbered⟩ := .number (Nat.le_succ _)
    rcases lease_cases (m := m) (c := c) (r := r) h hshut with
      ⟨g, u, hlease, hroute, hq, hgain⟩ | ⟨u, hlease, -, hgain⟩
    · rw [hlease]
      refine .tail (.head hnumber hgain.serves.trades) (.enter (isShut_of_numbered hshut hgain) ?_
        (lt_nextRequest h hgain) (nextRequest_le hgain))
      rw [hroute]
      exact (hgain.sameQueues.queue r).trans hq
    · rw [hlease]
      exact .tail (.head hnumber hgain.serves.trades) (.enqueue (isShut_of_numbered hshut hgain)
        (lt_nextRequest h hgain) (nextRequest_le hgain))

theorem lease_settled (h : Sound held w.pool) (hs : w.pool.Settled) :
    (w.lease m r).2.pool.Settled := by
  cases hshut : w.pool.isShut with
  | true => simpa [lease, hshut] using hs
  | false =>
    have hnumber : w.pool.Draws w.numbered.pool :=
      Pool.draws_of_eq rfl rfl rfl (Nat.le_succ _) rfl rfl rfl
    rcases lease_cases (m := m) (c := 0) (r := r) h hshut with
      ⟨g, u, hlease, -, -, hgain⟩ | ⟨u, hlease, hwait, hgain⟩
    · have hd := hnumber.trans hgain.draws
      have hq (s : Route) : (u.pool.lane s).queue = (w.pool.lane s).queue :=
        hgain.sameQueues.queue s
      rw [hlease]
      refine hs.draws (hd.trans (Pool.draws_of_eq rfl rfl rfl le_rfl rfl rfl rfl)) fun s hne => ?_
      exact hq s ▸ hne
    · have hd := hnumber.trans hgain.draws
      have hstuck : u.pool.Stuck r := hwait.elim (fun hq => (hs r hq).draws hd) id
      have hjoin : u.pool.Draws { u.pool.enqueue w.pool.nextRequest r with
          requests := u.pool.requests.put w.pool.nextRequest { route := r } } :=
        Pool.draws_enqueue _ _ _
      rw [hlease]
      intro s hne
      by_cases hsr : s = r
      · exact hsr ▸ hstuck.draws hjoin
      · change ((u.pool.setLane r _).lane s).queue ≠ [] at hne
        rw [Pool.lane_setLane_of_ne _ _ (Ne.symm hsr)] at hne
        have hq : (u.pool.lane s).queue = (w.pool.lane s).queue := hgain.sameQueues.queue s
        exact (hs s (hq ▸ hne)).draws (hd.trans hjoin)

theorem cancel_eq (hid : w.pool.requests.get? id = some { route := r }) :
    w.cancel id = (true, (w.note (.cancelled id)).change fun p => { p.withdraw id with
      requests := p.requests.put id { route := r, outcome := .failed .cancelled } }) := by
  rw [cancel, hid]
  simp only [change, note, Pool.withdraw_requests]
  rfl

theorem cancel_of_not_pending (hid : ∀ r, w.pool.requests.get? id ≠ some { route := r }) :
    w.cancel id = (false, w) := by
  unfold cancel
  cases hs : w.pool.requests.get? id with
  | none => rfl
  | some s =>
    have hp : s.isPending = false := by
      by_contra hp
      exact hid s.route (Slot.eq_of_isPending (by simpa using hp) ▸ hs)
    simp [hp]

theorem cancel_trades : Trades m ⟨held, c, w⟩ ⟨held, c, (w.cancel id).2⟩ := by
  by_cases hid : ∃ r, w.pool.requests.get? id = some { route := r }
  · obtain ⟨r, hid⟩ := hid
    rw [cancel_eq hid]
    exact .tail (note_tail (.cancelled id) rfl .refl) (.refuse .cancelled hid)
  · rw [cancel_of_not_pending (not_exists.1 hid)]

theorem cancel_settled (h : Sound held w.pool) (hs : w.pool.Settled) :
    (w.cancel id).2.pool.Settled := by
  by_cases hid : ∃ r, w.pool.requests.get? id = some { route := r }
  · obtain ⟨r, hid⟩ := hid
    rw [cancel_eq hid]
    exact Pool.settled_withdraw h.queued hs hid _
  · rw [cancel_of_not_pending (not_exists.1 hid)]
    exact hs

def cleared (id : RequestId) (w : Work) : Work :=
  w.change fun p => { p with requests := p.requests.remove id }

theorem cleared_trades {s : Slot} (hid : w.pool.requests.get? id = some s)
    (hs : s.isPending = false) : Trades m ⟨held, c, w⟩ ⟨s.grants + held, c, w.cleared id⟩ :=
  .single (.collect hid hs)

theorem cleared_settled (hs : w.pool.Settled) : (w.cleared id).pool.Settled :=
  hs.draws (Pool.draws_of_eq rfl rfl rfl le_rfl rfl rfl rfl) fun _ hne => hne

theorem forget_of_none (hid : w.pool.requests.get? id = none) : w.forget m id = w := by
  rw [forget, hid]

theorem forget_pending (hid : w.pool.requests.get? id = some { route := r }) :
    w.forget m id = (w.note (.dropPending id)).change fun p => { p.withdraw id with
      requests := p.requests.remove id } := by
  rw [forget, hid]
  simp only [change, note, Pool.withdraw_requests]

theorem forget_create {t : Record}
    (hid : w.pool.requests.get? id = some { route := r, outcome := .granted (.create t) }) :
    w.forget m id = ((w.cleared id).note (.dropReserved id t.id)).vacate m t := by
  rw [forget, hid]
  rfl

theorem forget_failed {f : Refusal}
    (hid : w.pool.requests.get? id = some { route := r, outcome := .failed f }) :
    w.forget m id = w.cleared id := by
  rw [forget, hid]
  rfl

theorem forget_trades (h : Sound held w.pool)
    (hne : ∀ r e, w.pool.requests.get? id ≠ some { route := r, outcome := .granted (.reuse e) }) :
    Trades m ⟨held, c, w⟩ ⟨held, c, w.forget m id⟩ := by
  cases hid : w.pool.requests.get? id with
  | none => rw [forget_of_none hid]
  | some s =>
    obtain ⟨r, o⟩ := s
    cases o with
    | pending =>
      rw [forget_pending hid]
      exact .tail (note_tail (.dropPending id) rfl .refl) (.quit hid)
    | failed f =>
      have htrades : Trades m ⟨held, c, w⟩ ⟨_, c, w.cleared id⟩ := cleared_trades hid rfl
      rw [Slot.grants_failed, zero_add] at htrades
      rwa [forget_failed hid]
    | granted g =>
      cases g with
      | reuse e => exact absurd hid (hne r e)
      | create t =>
        have htrades : Trades m ⟨held, c, w⟩ ⟨_, c, (w.cleared id).note (.dropReserved id t.id)⟩ :=
          note_tail _ rfl (cleared_trades hid rfl)
        rw [Slot.grants_granted, Multiset.singleton_add] at htrades
        rw [forget_create hid]
        exact htrades.trans (vacate_trades (Scene.IsSound.trades (s := ⟨held, c, w⟩) h htrades))

def uncollected (id : RequestId) (e : Idle) (w : Work) : Work :=
  (w.cleared id).note (.dropReuse id e.record.id)

theorem uncollected_trades {e : Idle}
    (hid : w.pool.requests.get? id = some { route := r, outcome := .granted (.reuse e) }) :
    Trades m ⟨held, c, w⟩ ⟨.reuse e ::ₘ held, c, w.uncollected id e⟩ := by
  have htrades : Trades m ⟨held, c, w⟩ ⟨_, c, w.uncollected id e⟩ :=
    note_tail _ rfl (cleared_trades hid rfl)
  rwa [Slot.grants_granted, Multiset.singleton_add] at htrades

theorem uncollected_sound {e : Idle} (h : Sound held w.pool)
    (hid : w.pool.requests.get? id = some { route := r, outcome := .granted (.reuse e) }) :
    Sound (.reuse e ::ₘ held) (w.uncollected id e).pool := by
  have hc := h.collect hid rfl
  rwa [Slot.grants_granted, Multiset.singleton_add] at hc

theorem forget_reuse {e : Idle}
    (hid : w.pool.requests.get? id = some { route := r, outcome := .granted (.reuse e) }) :
    w.forget m id = ((w.uncollected id e).putBack e).dispatch m (some e.record.route) := by
  rw [forget, hid]
  rfl

theorem forget_moves (h : Sound held w.pool) :
    Moves m ⟨held, c, w⟩ ⟨held, c, w.forget m id⟩ := by
  by_cases hid : ∃ r e,
      w.pool.requests.get? id = some { route := r, outcome := .granted (.reuse e) }
  · obtain ⟨r, e, hid⟩ := hid
    have hsound := uncollected_sound h hid
    have hback : Moves m ⟨.reuse e ::ₘ held, c, w.uncollected id e⟩ ⟨held, c, _⟩ := putBack_moves e
    have hsound : Sound held ((w.uncollected id e).putBack e).pool :=
      Scene.IsSound.moves (s := ⟨.reuse e ::ₘ held, c, w.uncollected id e⟩) hsound hback
    rw [forget_reuse hid]
    exact ((uncollected_trades hid).moves.trans hback).trans
      (dispatch_moves hsound _).trades.moves
  · exact (forget_trades h fun r e hre => hid ⟨r, e, hre⟩).moves

theorem forget_settled (h : Sound held w.pool) (hs : w.pool.Settled) :
    (w.forget m id).pool.Settled := by
  cases hid : w.pool.requests.get? id with
  | none => rwa [forget_of_none hid]
  | some s =>
    obtain ⟨r, o⟩ := s
    cases o with
    | pending =>
      rw [forget_pending hid]
      exact Pool.settled_withdraw h.queued hs hid _
    | failed f =>
      rw [forget_failed hid]
      exact cleared_settled hs
    | granted g =>
      cases g with
      | reuse e =>
        rw [forget_reuse hid]
        have hsound : Sound held ((w.uncollected id e).putBack e).pool :=
          Scene.IsSound.moves (m := m) (s := ⟨.reuse e ::ₘ held, 0, w.uncollected id e⟩)
            (uncollected_sound h hid) (putBack_moves e)
        exact dispatch_settled hsound _
      | create t =>
        have hsound := h.collect hid rfl
        rw [Slot.grants_granted, Multiset.singleton_add] at hsound
        rw [forget_create hid]
        exact vacate_settled hsound

end Work

namespace Pool

theorem timeOut_eq (id : RequestId) (p : Pool) :
    (p.timeOut id).2 = { p.withdraw id with requests := p.requests.remove id } := by
  simp only [timeOut, requests_withdraw]

end Pool

end ConnectionPool
