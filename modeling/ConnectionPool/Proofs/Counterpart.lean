import ConnectionPool.Proofs.Absence

namespace ConnectionPool

variable {held : Multiset Grant} {p q : Pool} {w v : Work} {a b : List Conn} {e : Idle}
  {id x : RequestId} {r : Route} {m : Moment}

namespace Pool

namespace Alike

theorem freed (h : p.Alike q) (t : Record) : (p.freed t).Alike (q.freed t) :=
  { h.setLane (r := t.route) (l := { p.lane t.route with
      leased := (p.lane t.route).leased.erase t.id }) (k := { q.lane t.route with
      leased := (q.lane t.route).leased.erase t.id }) (congrArg (·.erase t.id) (h.slots _))
      (h.available _) with
    leased := congrArg (· - 1) h.leased }

theorem restock (h : p.Alike q) (r : Route) (f : List Idle → List Idle) (i : Recency → Recency) :
    Alike
      { p.setLane r { p.lane r with available := f (p.lane r).available } with idle := i p.idle }
      { q.setLane r { q.lane r with available := f (q.lane r).available } with idle := i q.idle } :=
  { h.setLane (r := r) (l := { p.lane r with available := f (p.lane r).available })
      (k := { q.lane r with available := f (q.lane r).available }) (h.slots r)
      (congrArg f (h.available r)) with
    idle := congrArg i h.idle }

theorem torn (h : p.Alike q) : p.torn.Alike q.torn where
  limits := h.limits
  policy := h.policy
  isShut := rfl
  lastEntry := h.lastEntry
  leased := rfl
  idle := rfl
  slots _ := rfl
  available _ := rfl

theorem relimit (h : p.Alike q) (f : Limits → Limits) :
    Alike { p with limits := f p.limits } { q with limits := f q.limits } :=
  { h with limits := congrArg f h.limits }

end Alike

theorem HasGrant.relane (h : p.HasGrant x) (hq : p.Relanes q) : q.HasGrant x := by
  rwa [HasGrant, hq.requests]

theorem Lacks.next_ne (h : Lacks x p q) : p.nextRequest ≠ x := by
  rintro rfl
  exact absurd h.known (Nat.not_succ_le_self _)

theorem Lacks.next (h : Lacks x p q) : q.nextRequest = p.nextRequest.without x := by
  have hlt : x.number < p.nextRequest.number := Nat.lt_succ_of_le h.known
  rw [RequestId.without_of_lt hlt, nextRequest, ← h.number]
  rfl

theorem Lacks.torn (h : Lacks x p q) : Lacks x p.torn q.torn where
  slots id hid := by
    change Table.get? (q.requests.map _) _ = Table.get? (p.requests.map _) _
    rw [Table.get?_map _ Slot.revoke, Table.get?_map _ Slot.revoke, h.slot hid]
  number := h.number
  known := h.known

end Pool

namespace Work

namespace Lacks

theorem report (h : Lacks x a b w v) (rs : List Report) :
    Lacks x a b (w.report rs) (v.report rs) :=
  ⟨h.alike.report rs, h.requests⟩

theorem note (h : Lacks x a b w v) (n : Notice) : Lacks x a b (w.note n) (v.note n) :=
  ⟨h.alike.note n, h.requests⟩

theorem close (h : Lacks x a b w v) (c : Conn) : Lacks x a b (w.close c) (v.close c) :=
  ⟨h.alike.close c, h.requests⟩

theorem change {f g : Pool → Pool} (h : Lacks x a b w v) (hp : (f w.pool).Alike (g v.pool))
    (hr : Pool.Lacks x (f w.pool) (g v.pool)) : Lacks x a b (w.change f) (v.change g) :=
  ⟨h.alike.change hp, hr⟩

theorem relane {f g : Pool → Pool} (h : Lacks x a b w v) (hf : w.pool.Relanes (f w.pool))
    (hg : v.pool.Relanes (g v.pool)) : Lacks x a b (w.change f) (v.change g) :=
  ⟨h.alike.relane hf hg,
    h.requests.of_eq hf.requests hg.requests hf.lastRequest hg.lastRequest⟩

theorem ite {c : Prop} [Decidable c] {w' v' : Work} (h : Lacks x a b w v)
    (h' : Lacks x a b w' v') : Lacks x a b (if c then w else w') (if c then v else v') := by
  split
  · exact h
  · exact h'

theorem notes (h : Lacks x a b w v) {n k : Notice} (hn : Report.isDeed (.noted n) = false)
    (hk : Report.isDeed (.noted k) = false) : Lacks x a b (w.note n) (v.note k) :=
  (h.left (rests_note hn)).right (rests_note hk)

end Lacks

section Return

theorem Lacks.freed (h : Lacks x a b w v) (t : Record) :
    Lacks x a b { w with pool := w.pool.freed t } { v with pool := v.pool.freed t } :=
  h.change (h.alike.pool.freed t) (h.requests.of_eq rfl rfl rfl rfl)

theorem Lacks.keep (h : Lacks x a b w v) (t : Record) (c : Conn) (y : Option Span) :
    Lacks x a b (w.keep m t c y) (v.keep m t c y) := by
  unfold Work.keep
  rw [h.alike.pool.policy]
  dsimp only
  generalize t.released m.now _ = s
  exact (h.note _).change
    (h.alike.pool.restock s.route ({ record := s, conn := c } :: ·) (·.add _))
    (h.requests.of_eq rfl rfl rfl rfl)

theorem Lacks.receive (h : Lacks x a b w v) (reusable : Bool) (y : Option Span) :
    Lacks x a b (w.receive m e reusable y) (v.receive m e reusable y) := by
  have hfreed := h.freed e.record
  unfold Work.receive
  dsimp only
  rw [hfreed.alike.pool.limits, hfreed.alike.pool.allocated_lane, hfreed.alike.pool.allocated]
  have hasked (c : Bool) (rs : List Report) := Lacks.ite (c := c) (hfreed.report rs) hfreed
  exact .ite ((hasked _ _).keep _ _ _) (.ite (((hasked _ _).note _).close _)
    (((hasked _ _).note _).close _))

variable (hw : Sound (.reuse e ::ₘ held) w.pool) (hv : Sound (.reuse e ::ₘ held) v.pool)
include hw hv

theorem Lacks.takeBack (h : Lacks x a b w v) (hin : w.pool.WithinLimits) (reusable : Bool)
    (y : Option Span) (hx : ¬ (w.takeBack m e.record e.conn reusable y).2.pool.HasGrant x) :
    (v.takeBack m e.record e.conn reusable y).1 = (w.takeBack m e.record e.conn reusable y).1 ∧
      Lacks x a b (w.takeBack m e.record e.conn reusable y).2
        (v.takeBack m e.record e.conn reusable y).2 := by
  cases hshut : w.pool.isShut with
  | true =>
    have hshut' : v.pool.isShut = true := h.alike.pool.isShut.trans hshut
    unfold Work.takeBack
    rw [if_pos hshut, if_pos hshut']
    exact ⟨rfl, h.close e.conn⟩
  | false =>
    have hopen : v.pool.isShut = false := h.alike.pool.isShut.trans hshut
    have htrades : Trades m ⟨.reuse e ::ₘ held, 0, w⟩ ⟨held, 0, w.receive m e reusable y⟩ :=
      receive_trades hshut reusable y
    have htrades' : Trades m ⟨.reuse e ::ₘ held, 0, v⟩ ⟨held, 0, v.receive m e reusable y⟩ :=
      receive_trades hopen reusable y
    rw [takeBack_eq hw hshut] at hx
    rw [takeBack_eq hw hshut, takeBack_eq hv hopen]
    have hsound : Sound held (w.receive m e reusable y).pool :=
      Scene.IsSound.trades (s := ⟨.reuse e ::ₘ held, 0, w⟩) hw htrades
    have hsound' : Sound held (v.receive m e reusable y).pool :=
      Scene.IsSound.trades (s := ⟨.reuse e ::ₘ held, 0, v⟩) hv htrades'
    have hgrows : w.pool.Grows (w.receive m e reusable y).pool :=
      Moves.grows (s := ⟨.reuse e ::ₘ held, 0, w⟩) hw htrades.moves
    have hdispatch := (h.receive reusable y).dispatch hsound hsound' (hin.grows hgrows)
      (some e.record.route) fun hgrant => hx (hgrant.relane (Pool.relanes_prune _ _))
    exact ⟨rfl, hdispatch.relane (Pool.relanes_prune _ _) (Pool.relanes_prune _ _)⟩

theorem Lacks.putBack (h : Lacks x a b w v) : Lacks x a b (w.putBack e) (v.putBack e) := by
  cases hshut : w.pool.isShut with
  | true =>
    have hshut' : v.pool.isShut = true := h.alike.pool.isShut.trans hshut
    have hback {u : Work} (hu : u.pool.isShut = true) : u.putBack e = u.close e.conn := by
      simp [Work.putBack, Pool.unlease?, hu]
    rw [hback hshut, hback hshut']
    exact h.close e.conn
  | false =>
    have hopen : v.pool.isShut = false := h.alike.pool.isShut.trans hshut
    have hfreed := h.freed e.record
    rw [hw.putBack_eq hshut, hv.putBack_eq hopen]
    refine ⟨hfreed.alike.change (f := fun p => { p.updateLane e.record.route (Lane.reinsert e) with
        idle := p.idle.reinsert e.mark }) (g := fun p => { p.updateLane e.record.route
        (Lane.reinsert e) with idle := p.idle.reinsert e.mark }) ?_,
      hfreed.requests.of_eq rfl rfl rfl rfl⟩
    exact hfreed.alike.pool.restock e.record.route
      (fun es => es.takeWhile (e.record.updated < ·.record.updated) ++ e ::
        es.dropWhile (e.record.updated < ·.record.updated)) (·.reinsert e.mark)

end Return

theorem Lacks.vacate {t : Record} (hw : Sound (.create t ::ₘ held) w.pool)
    (hv : Sound (.create t ::ₘ held) v.pool) (h : Lacks x a b w v) (hin : w.pool.WithinLimits)
    (hx : ¬ (w.vacate m t).pool.HasGrant x) : Lacks x a b (w.vacate m t) (v.vacate m t) := by
  cases hshut : w.pool.isShut with
  | true =>
    have hshut' : v.pool.isShut = true := h.alike.pool.isShut.trans hshut
    rw [vacate_of_shut hshut, vacate_of_shut hshut']
    exact h
  | false =>
    have hopen : v.pool.isShut = false := h.alike.pool.isShut.trans hshut
    obtain ⟨hroute, htotal⟩ := Sound.allocated_freed (g := .create t) hw hshut
    have hgrows : w.pool.Grows (w.pool.freed t) := Pool.grows_of_le rfl
      (fun s => hroute s ▸ Nat.le_add_right _ _) (htotal ▸ Nat.le_succ _)
    rw [vacate_eq hw hshut] at hx
    rw [vacate_eq hw hshut, vacate_eq hv hopen]
    have hdispatch := (h.freed t).dispatch (hw.freed (hw.mem_leased hshut))
      (hv.freed (hv.mem_leased hopen)) (hin.grows hgrows) (some t.route)
      fun hgrant => hx (hgrant.relane (Pool.relanes_prune _ _))
    exact hdispatch.relane (Pool.relanes_prune _ _) (Pool.relanes_prune _ _)

/-! Leases.  Where nothing can be found, a request waits whether others wait already or not. -/

section Lease

theorem lease_of_stuck (hopen : w.pool.isShut = false) (hs : w.pool.Stuck r) :
    ∃ u, (w.numbered.change (Pool.openLane r)).Rests u ∧ w.lease m r = (.ok w.pool.nextRequest, u.change fun p => {
      p.enqueue w.pool.nextRequest r with
      requests := p.requests.put w.pool.nextRequest { route := r } }) := by
  have hnote (u : Work) : u.Rests (u.note (.queue w.pool.nextRequest r)) := rests_note rfl
  by_cases hq : (w.pool.lane r).queue = []
  · have hs' : w.numbered.pool.Stuck r := ⟨hs.available, hs.full⟩
    obtain ⟨hnone, hrests⟩ := provide_rests (m := m) hs'
    generalize hp : w.numbered.provide m r = y at hnone hrests
    obtain ⟨_, u⟩ := y
    subst hnone
    exact ⟨_, hrests.trans (hnote u), lease_of_none hopen hq hp⟩
  · have hq' : (w.numbered.pool.lane r).queue ≠ [] := hq
    rw [change_openLane hq']
    exact ⟨_, hnote w.numbered, lease_of_queue hopen hq⟩

theorem provide_of_not_stuck (h : Sound held w.pool) (hopen : w.pool.isShut = false)
    (hin : w.pool.WithinLimits) (hs : ¬ w.pool.Stuck r) :
    ∃ g u, w.provide m r = (some g, u) ∧ g.record.route = r ∧
      Gains m ⟨held, 0, w⟩ ⟨g ::ₘ held, 0, u⟩ := by
  rcases provide_moves (m := m) (c := 0) (r := r) h hopen with hfound | ⟨u, hnone, -⟩
  · exact hfound
  · exact absurd (stuck_of_provide_eq_none (m := m) h hopen hin (by rw [hnone])) hs

theorem lease_answer (w : Work) : (w.lease m r).1 =
    if w.pool.isShut then .error (.internally .poolClosed "connection pool is shut down")
    else .ok w.pool.nextRequest := by
  unfold lease
  split
  · rfl
  · rfl

theorem Lacks.numbered (h : Lacks x a b w v) : Lacks x a b w.numbered v.numbered where
  alike := h.alike.change { h.alike.pool with }
  requests := ⟨h.requests.slots, congrArg (· + 1) h.requests.number,
    h.requests.known.trans (Nat.le_succ _)⟩

theorem Lacks.lease (hw : Sound held w.pool) (hv : Sound held v.pool) (h : Lacks x a b w v)
    (hin : w.pool.WithinLimits) (hs : w.pool.Settled) :
    Lacks x a b (w.lease m r).2 (v.lease m r).2 := by
  cases hshut : w.pool.isShut with
  | true =>
    have hshut' : v.pool.isShut = true := h.alike.pool.isShut.trans hshut
    unfold Work.lease
    rw [if_pos hshut, if_pos hshut']
    exact h
  | false =>
    have hopen : v.pool.isShut = false := h.alike.pool.isShut.trans hshut
    have hne := h.requests.next_ne
    by_cases hstuck : w.pool.Stuck r
    · obtain ⟨u, hu, hlease⟩ := lease_of_stuck (m := m) hshut hstuck
      obtain ⟨u', hu', hlease'⟩ := lease_of_stuck (m := m) hopen (h.alike.pool.stuck hstuck)
      have hopened := h.numbered.relane (Pool.relanes_openLane _ r) (Pool.relanes_openLane _ r)
      have hrests := (hopened.left hu).right hu'
      rw [hlease, hlease', h.requests.next]
      dsimp only
      refine ⟨hrests.alike.change ?_, hrests.requests.put hne rfl rfl rfl rfl⟩
      exact ((Pool.alike_enqueue _ _ _).symm.trans hrests.alike.pool).trans
        (Pool.alike_enqueue _ _ _)
    · have hstuck' : ¬ v.pool.Stuck r := fun hs => hstuck (h.alike.pool.symm.stuck hs)
      have hq : (w.pool.lane r).queue = [] := by_contra fun hq => hstuck (hs r hq)
      have hq' : (v.pool.lane r).queue = [] := by
        rw [h.requests.queue hw.queued hv.queued, hq]
        rfl
      obtain ⟨g, u, hfound, hroute, hgain⟩ := provide_of_not_stuck (m := m) (w := w.numbered)
        (numbered_sound hw) hshut ⟨hin.total, hin.route⟩ fun hs => hstuck ⟨hs.available, hs.full⟩
      have hin' := h.alike.pool.withinLimits hin
      obtain ⟨g', u', hfound', -, hgain'⟩ := provide_of_not_stuck (m := m) (w := v.numbered)
        (numbered_sound hv) hopen ⟨hin'.total, hin'.route⟩
        fun hs => hstuck' ⟨hs.available, hs.full⟩
      obtain ⟨hsame, halike⟩ :=
        h.numbered.alike.provide (m := m) (r := r) (numbered_sound hw) (numbered_sound hv)
      rw [hfound, hfound'] at hsame halike
      obtain rfl : g' = g := Option.some.inj hsame
      have hlacks : Pool.Lacks x u.pool u'.pool := h.numbered.requests.of_eq
        hgain.sameQueues.requests hgain'.sameQueues.requests hgain.lastRequest_eq
        hgain'.lastRequest_eq
      rw [lease_of_some hshut hq hfound hroute, lease_of_some hopen hq' hfound' hroute,
        h.requests.next]
      dsimp only
      refine ⟨Alike.change (w := u) (v := u') halike ?_, hlacks.put hne rfl rfl rfl rfl⟩
      exact ((Pool.alike_requests _).symm.trans halike.pool).trans (Pool.alike_requests _)

theorem lacks_lease (h : Sound held w.pool) (hopen : w.pool.isShut = false)
    (hin : w.pool.WithinLimits) (hs : w.pool.Settled)
    (hx : ¬ (w.lease m r).2.pool.HasGrant w.pool.nextRequest) :
    Lacks w.pool.nextRequest [] [] (w.lease m r).2 w := by
  by_cases hstuck : w.pool.Stuck r
  · obtain ⟨u, hu, hlease⟩ := lease_of_stuck (m := m) hopen hstuck
    have hnumbered : w.pool.Alike w.numbered.pool := { Pool.Alike.refl w.pool with }
    have hopened := hnumbered.trans (.of_relanes (Pool.relanes_openLane w.numbered.pool r))
    have hu' : w.pool.Alike u.pool := hu.pool.symm ▸ hopened
    rw [hlease]
    refine ⟨⟨?_, ⟨w.closing, hu.closing, rfl⟩, hu.deeds.symm⟩, ?_, ?_, ?_⟩
    · exact (hu'.trans (Pool.alike_enqueue _ _ _)).symm
    · have hrequests : u.pool.requests = w.pool.requests :=
        (congrArg Pool.requests hu.pool).trans rfl
      change Table.Lacks (u.pool.requests.put _ _) _ w.pool.requests
      rw [hrequests]
      exact Table.lacks_put (fun id hid => Table.get?_eq_none_iff.2 fun hmem =>
        absurd (h.queued.numbers id hmem) (Nat.lt_of_succ_le hid).not_ge) _
    · change u.pool.lastRequest = _
      rw [hu.pool]
      rfl
    · change w.pool.nextRequest.number ≤ u.pool.lastRequest
      rw [hu.pool]
      exact le_rfl
  · have hq : (w.pool.lane r).queue = [] := by_contra fun hq => hstuck (hs r hq)
    obtain ⟨g, u, hfound, hroute, -⟩ := provide_of_not_stuck (m := m) (w := w.numbered)
      (numbered_sound h) hopen ⟨hin.total, hin.route⟩ fun hs => hstuck ⟨hs.available, hs.full⟩
    rw [lease_of_some hopen hq hfound hroute] at hx
    exact absurd ⟨_, g, Table.get?_put_self _ _ _⟩ hx

end Lease

section Leave

variable (hw : Sound held w.pool) (hv : Sound held v.pool) (hid : id ≠ x)

theorem Lacks.cleared (h : Lacks x a b w v) (hid : id ≠ x) :
    Lacks x a b (w.cleared id) (v.cleared (id.without x)) :=
  h.change (((Pool.alike_requests _).symm.trans h.alike.pool).trans (Pool.alike_requests _))
    (h.requests.remove hid rfl rfl rfl rfl)

theorem Lacks.withdraw {rs rs' : Table RequestId Slot} (h : Lacks x a b w v) (y z : RequestId)
    (hr : Pool.Lacks x { w.pool.withdraw y with requests := rs }
      { v.pool.withdraw z with requests := rs' }) :
    Lacks x a b (w.change fun p => { p.withdraw y with requests := rs })
      (v.change fun p => { p.withdraw z with requests := rs' }) :=
  h.change (((Pool.alike_withdraw _ _).symm.trans h.alike.pool).trans (Pool.alike_withdraw _ _)) hr

include hid

theorem Lacks.cancel (h : Lacks x a b w v) :
    (v.cancel (id.without x)).1 = (w.cancel id).1 ∧
      Lacks x a b (w.cancel id).2 (v.cancel (id.without x)).2 := by
  have hslot := h.requests.slot hid
  by_cases hpending : ∃ r, w.pool.requests.get? id = some { route := r }
  · obtain ⟨r, hr⟩ := hpending
    rw [cancel_eq hr, cancel_eq (hslot.trans hr)]
    exact ⟨rfl, (h.notes rfl rfl).withdraw id (id.without x) (h.requests.put hid rfl rfl
      (Pool.lastRequest_withdraw _ _) (Pool.lastRequest_withdraw _ _))⟩
  · have hnot := not_exists.1 hpending
    rw [cancel_of_not_pending hnot, cancel_of_not_pending fun r => hslot ▸ hnot r]
    exact ⟨rfl, h⟩

include hw hv

theorem Lacks.forget (h : Lacks x a b w v) (hin : w.pool.WithinLimits)
    (hx : ¬ (w.forget m id).pool.HasGrant x) :
    Lacks x a b (w.forget m id) (v.forget m (id.without x)) := by
  have hslot := h.requests.slot hid
  cases hget : w.pool.requests.get? id with
  | none =>
    rw [forget_of_none hget, forget_of_none (hslot.trans hget)]
    exact h
  | some s =>
    obtain ⟨r, o⟩ := s
    rw [hget] at hslot
    cases o with
    | pending =>
      rw [forget_pending hget, forget_pending hslot]
      exact (h.notes rfl rfl).withdraw id (id.without x) (h.requests.remove hid rfl rfl
        (Pool.lastRequest_withdraw _ _) (Pool.lastRequest_withdraw _ _))
    | failed f =>
      rw [forget_failed hget, forget_failed hslot]
      exact h.cleared hid
    | granted g =>
      have hcleared : (w.cleared id).pool.WithinLimits := ⟨hin.total, hin.route⟩
      cases g with
      | reuse e =>
        have hsound := uncollected_sound hw hget
        have hsound' := uncollected_sound hv hslot
        have hback : Moves m ⟨.reuse e ::ₘ held, 0, w.uncollected id e⟩
            ⟨held, 0, (w.uncollected id e).putBack e⟩ := putBack_moves e
        have hback' : Moves m ⟨.reuse e ::ₘ held, 0, v.uncollected (id.without x) e⟩
            ⟨held, 0, (v.uncollected (id.without x) e).putBack e⟩ := putBack_moves e
        rw [forget_reuse hget] at hx
        rw [forget_reuse hget, forget_reuse hslot]
        have hput : Sound held ((w.uncollected id e).putBack e).pool :=
          Scene.IsSound.moves (s := ⟨.reuse e ::ₘ held, 0, w.uncollected id e⟩) hsound hback
        have hput' : Sound held ((v.uncollected (id.without x) e).putBack e).pool :=
          Scene.IsSound.moves (s := ⟨.reuse e ::ₘ held, 0, v.uncollected (id.without x) e⟩)
            hsound' hback'
        have hgrows : (w.cleared id).pool.Grows ((w.uncollected id e).putBack e).pool :=
          Moves.grows (s := ⟨.reuse e ::ₘ held, 0, w.uncollected id e⟩) hsound hback
        exact (((h.cleared hid).notes rfl rfl).putBack hsound hsound').dispatch hput hput'
          (hcleared.grows hgrows) _ hx
      | create t =>
        have hsound := hw.collect hget rfl
        have hsound' := hv.collect hslot rfl
        rw [Slot.grants_granted, Multiset.singleton_add] at hsound hsound'
        rw [forget_create hget] at hx
        rw [forget_create hget, forget_create hslot]
        exact ((h.cleared hid).notes rfl rfl).vacate hsound hsound' hcleared hx

end Leave

end Work

end ConnectionPool
