import ConnectionPool.Proofs.Course

namespace ConnectionPool

variable {held : Multiset Grant} {p : Pool} {v : Work} {g : Grant} {r : Route} {id : RequestId}
  {m : Moment} {t : Tenancy} {o : Op} {made : List Conn} {s s' : Scene}

theorem Trade.lastRequest_le (hs : s.IsSound) (h : Trade m s s') :
    s.work.pool.lastRequest ≤ s'.work.pool.lastRequest := by
  cases h with
  | serve h => exact (h.draws hs).number
  | number hn => exact hn
  | refuse f hid => exact (Pool.draws_withdraw _ _).number
  | quit hid => exact (Pool.draws_withdraw _ _).number
  | @shut held c w =>
    cases hshut : w.pool.isShut with
    | true => rw [Work.shutDown_of_shut hshut]
    | false =>
      rw [Work.shutDown_of_open hshut]
      exact le_rfl
  | _ => exact le_rfl

theorem Moves.lastRequest_le (hs : s.IsSound) (h : Moves m s s') :
    s.work.pool.lastRequest ≤ s'.work.pool.lastRequest := by
  induction h with
  | refl => exact le_rfl
  | tail hsu hut ih =>
    refine ih.trans ?_
    cases hut with
    | trade h => exact h.lastRequest_le (hs.moves hsu)
    | restore hopen =>
      have hback := (hs.moves hsu).putBack_eq hopen
      rw [hback]
      exact le_rfl

theorem Course.slot {f : RequestId → Option Slot → Option Slot} {first : Option Route}
    (h : Course m held p f first v) (id : RequestId) :
    v.pool.requests.get? id = f id (p.requests.get? id) ∨
      ∃ g, f id (p.requests.get? id) = some { route := g.record.route } ∧
        v.pool.requests.get? id = some { route := g.record.route, outcome := .granted g } := by
  obtain ⟨hsound, hslots, -, hserved, -⟩ := h
  rw [← hslots id]
  rcases hserved.get?_cases hsound id with ⟨hsame, -⟩ | ⟨g, -, hpending, hgranted⟩
  · exact .inl hsame
  · exact .inr ⟨g, hpending, hgranted⟩

namespace Op

theorem eq_of_settle {x : Option Slot} {s : Slot} (h : o.settle id x = some s)
    (hs : ∀ f, s.outcome ≠ .failed f) : x = some s := by
  cases o with
  | get y last =>
    simp only [settle] at h
    split at h
    · cases h
    · exact h
  | cancel y =>
    simp only [settle] at h
    split at h
    · obtain ⟨d, rfl, rfl⟩ := Option.map_eq_some_iff.1 h
      unfold Slot.refuse at hs ⊢
      split at hs
      · exact absurd rfl (hs .cancelled)
      · next hpending => rw [if_neg hpending]
    · exact h
  | dropRequest y =>
    simp only [settle] at h
    split at h
    · cases h
    · exact h
  | shutDown =>
    obtain ⟨⟨r, d⟩, rfl, rfl⟩ := Option.map_eq_some_iff.1 h
    cases d with
    | pending => exact absurd rfl (hs .shutWhilePending)
    | granted g => exact absurd rfl (hs .shutWhileGranted)
    | failed f => exact absurd rfl (hs f)
  | _ => exact h

theorem settle_pending {x : Option Slot} (h : o.settle id x = some { route := r }) :
    x = some { route := r } :=
  eq_of_settle h (by simp)

theorem settle_granted {x : Option Slot}
    (h : o.settle id x = some { route := r, outcome := .granted g }) :
    x = some { route := r, outcome := .granted g } :=
  eq_of_settle h (by simp)

end Op

namespace Tenancy

/-- What a lease comes to: it is refused, or a new request enters, with a grant or to wait. -/
inductive Leases (t : Tenancy) (r : Route) (turn : Turn (Except Failure RequestId)) : Prop
  | refused (f : Failure) (hturn : turn = { answer := .error f, tenancy := t })
  | enters (s : Slot) (ticket : Ticket) (hanswer : turn.answer = .ok t.pool.nextRequest)
      (hrequests : turn.tenancy.pool.requests = t.pool.requests.put t.pool.nextRequest s)
      (htickets : turn.tenancy.tickets = t.tickets.put t.pool.nextRequest ticket)
      (hnumber : t.pool.nextRequest.number ≤ turn.tenancy.pool.lastRequest)
      (hslot : s = { route := r } ∧ turn.work.handed = [] ∨
        ∃ g, s = { route := r, outcome := .granted g } ∧ g.record.route = r ∧
          (t.pool.lane r).queue = [] ∧ turn.work.handed = [g.slot] ∧
          ∀ s, t.pool.Stuck s → turn.tenancy.pool.AtLimit s)

theorem lease_leases (h : t.IsSound) (timeout : Option Span) :
    t.Leases r (t.lease m r timeout) := by
  cases hshut : t.pool.isShut with
  | true =>
    refine .refused (.internally .poolClosed "connection pool is shut down") ?_
    simp [lease, Tenancy.turn, Work.lease, hshut]
  | false =>
    let ticket : Ticket := { route := r, deadline := timeout.bind (Span.after m.now) }
    have hturn (u : Work) (hu : Work.lease m r { pool := t.pool } = (.ok t.pool.nextRequest, u)) :
        t.lease m r timeout = {
          answer := .ok t.pool.nextRequest
          tenancy := { t with
            pool := u.pool
            tickets := t.tickets.put t.pool.nextRequest ticket }
          reports := u.reports
          closed := u.closing } := by
      simp only [lease, Tenancy.turn, hu, ticket]
    rcases Work.lease_cases (m := m) (c := 0) (r := r) (w := { pool := t.pool }) h.sound hshut with
      ⟨g, u, hlease, hroute, hq, hgain⟩ | ⟨u, hlease, -, hgain⟩
    · have hrequests : u.pool.requests = t.pool.requests := hgain.sameQueues.requests
      have hhanded : u.handed = [g.slot] := hgain.handed_of_grant
      have hnumber : t.pool.Draws (Work.numbered { pool := t.pool }).pool :=
        Pool.draws_of_eq rfl rfl rfl (Nat.le_succ _) rfl rfl rfl
      have hfull (s : Route) (hs : t.pool.Stuck s) : u.pool.AtLimit s :=
        ((hs.draws hnumber).atLimit (Work.numbered_sound h.sound) hgain).draws hgain.draws
      rw [hturn _ hlease]
      refine .enters { route := r, outcome := .granted g } ticket rfl ?_ rfl
        (Work.nextRequest_le hgain) (.inr ⟨g, rfl, hroute, hq, hhanded, hfull⟩)
      rw [← hrequests, ← hroute]
      rfl
    · have hrequests : u.pool.requests = t.pool.requests := hgain.sameQueues.requests
      have hhanded : u.handed = [] := hgain.handed_of_none
      rw [hturn _ hlease]
      refine .enters { route := r } ticket rfl ?_ rfl (Work.nextRequest_le hgain)
        (.inl ⟨rfl, hhanded⟩)
      rw [← hrequests]
      rfl

theorem act_lastRequest_le (h : t.IsSound) (hp : o.isPossible t made) :
    t.pool.lastRequest ≤ (t.act m o).tenancy.pool.lastRequest :=
  (act_moves (m := m) h hp).1.lastRequest_le (relimit_sound h o.limits).scene

theorem act_tickets (ho : ∀ r timeout, o ≠ .lease r timeout) :
    (t.act m o).tenancy.tickets =
      match o with
      | .dropRequest id => t.tickets.remove id
      | _ => t.tickets := by
  cases o with
  | lease r timeout => exact absurd rfl (ho r timeout)
  | get id last =>
    change (t.look id last).tenancy.tickets = _
    have hcollect : (t.collect id).tenancy.tickets = t.tickets := by
      unfold collect
      dsimp only
      split <;> rfl
    unfold look
    dsimp only
    split
    · split <;> exact hcollect
    · exact hcollect
  | connected s x =>
    change (t.connected s x).tenancy.tickets = _
    unfold connected
    dsimp only
    split <;> rfl
  | release id reusable v =>
    change (t.release m id reusable v).tenancy.tickets = _
    unfold release
    split <;> rfl
  | discard id =>
    change (t.release m id false none).tenancy.tickets = _
    unfold release
    split <;> rfl
  | dropEntry id =>
    change (t.dropEntry m id).tenancy.tickets = _
    unfold dropEntry discard release
    split
    · split <;> rfl
    · rfl
  | _ => rfl

theorem isNew_nextRequest (h : t.IsSound) : t.pool.requests.get? t.pool.nextRequest = none :=
  Pool.get?_eq_none_of_lt fun x hx => Nat.lt_succ_of_le (h.sound.queued.numbers x hx)

theorem number_le (h : t.IsSound) {s : Slot} (hid : t.pool.requests.get? id = some s) :
    id.number ≤ t.pool.lastRequest :=
  h.sound.queued.numbers id (Table.mem_keys_of_mem (Table.mem_of_get?_eq_some hid))

theorem ne_nextRequest (hid : id.number ≤ t.pool.lastRequest) : t.pool.nextRequest ≠ id := by
  rintro rfl
  exact absurd hid (Nat.not_succ_le_self _)

theorem act_slot (h : t.IsSound) (hp : o.isPossible t made) (hid : id.number ≤ t.pool.lastRequest) :
    (t.act m o).tenancy.pool.requests.get? id = o.settle id (t.pool.requests.get? id) ∨
      ∃ g, o.settle id (t.pool.requests.get? id) = some { route := g.record.route } ∧
        (t.act m o).tenancy.pool.requests.get? id =
          some { route := g.record.route, outcome := .granted g } := by
  by_cases ho : ∃ r timeout, o = .lease r timeout
  · obtain ⟨r, timeout, rfl⟩ := ho
    refine .inl ?_
    change (t.lease m r timeout).tenancy.pool.requests.get? id = t.pool.requests.get? id
    cases lease_leases (m := m) (r := r) h timeout with
    | refused f hturn => rw [hturn]
    | enters s ticket _ hrequests =>
      rw [hrequests, Table.get?_put_of_ne _ _ (ne_nextRequest hid)]
  · exact (act_course h hp fun r timeout heq => ho ⟨r, timeout, heq⟩).slot id

end Tenancy

end ConnectionPool
