import ConnectionPool.Proofs.Frames

namespace ConnectionPool

variable {held : Multiset Grant} {c : Multiset Conn} {p q : Pool} {w w' : Work} {e : Idle}
  {g : Grant} {r : Route} {m : Moment}

namespace Pool

theorem openLane_of_lane (hl : p.lane r ≠ {}) : p.openLane r = p := by
  have hlane : p.lanes.get? r = some (p.lane r) := by
    unfold lane at hl ⊢
    cases h : p.lanes.get? r with
    | none => simp [h] at hl
    | some l => rfl
  have hlanes : p.lanes.put r (p.lane r) = p.lanes := Table.put_of_get?_eq_some hlane
  rw [openLane, updateLane, setLane, id, hlanes]

theorem openLane_of_queue (hq : (p.lane r).queue ≠ []) : p.openLane r = p :=
  openLane_of_lane fun hl => hq (by rw [hl])

/-- No connection and no slot can be found for a caller of the route. -/
structure Stuck (p : Pool) (r : Route) : Prop where
  available : (p.lane r).available = []
  full : p.limits.forRoute r ≤ (p.lane r).leased.length ∨
    p.idle = [] ∧ p.limits.total ≤ p.leased

/-- Nobody waits in vain. -/
def Settled (p : Pool) : Prop := ∀ r, (p.lane r).queue ≠ [] → p.Stuck r

theorem Stuck.draws (h : p.Stuck r) (hd : p.Draws q) : q.Stuck r where
  available := hd.available_eq_nil h.available
  full := by
    rw [hd.limits]
    rcases h.full with hroute | ⟨hidle, htotal⟩
    · exact .inl (hroute.trans (hd.leased r))
    · exact .inr ⟨hd.idle_eq_nil hidle, htotal.trans hd.total⟩

theorem Settled.draws (h : p.Settled) (hd : p.Draws q)
    (hq : ∀ s, (q.lane s).queue ≠ [] → (p.lane s).queue ≠ []) : q.Settled :=
  fun s hs => (h s (hq s hs)).draws hd

theorem Settled.gains {s t : Scene} (h : s.work.pool.Settled) (hst : Gains m s t) :
    t.work.pool.Settled :=
  h.draws hst.draws fun r hr => by rwa [← hst.sameQueues.queue r]

theorem Settled.relane (h : p.Settled) (hq : p.Relanes q) : q.Settled :=
  h.draws hq.draws fun s hs => by rwa [← hq.lane s]

theorem settled_of_shut (h : Sound held p) (hs : p.isShut = true) : p.Settled := by
  intro r hr
  rw [h.available_eq_nil_of_shut hs r] at hr
  exact absurd rfl hr

end Pool

namespace Sound

theorem openLane (h : Sound held p) (r : Route) : Sound held (p.openLane r) :=
  h.relane (Pool.relanes_openLane p r)

theorem takeOut_eq {xs ys : List Idle} (h : Sound held p) (hr : e.record.route = r)
    (ha : (p.lane r).available = xs ++ e :: ys) :
    { p.updateLane r ({ · with available := xs ++ ys }) with
      idle := p.idle.drop e.record.id } = p.takeOut e := by
  subst hr
  have hmem : e ∈ (p.lane e.record.route).available := by simp [ha]
  have hnot : e ∉ xs := by
    have hn := (h.available_ids e.record.route).of_map
    rw [ha] at hn
    exact fun he => List.disjoint_of_nodup_append hn he List.mem_cons_self
  have herase : (p.lane e.record.route).available.erase e = xs ++ ys := by
    rw [ha, List.erase_append_right _ hnot, List.erase_cons_head]
  have hidle : p.idle.drop e.record.id = p.idle.erase e.mark :=
    Recency.drop_eq_erase h.idle_ids (h.mark_mem (h.mem_stock.2 hmem))
  simp only [Pool.takeOut, Pool.updateLane, herase, hidle]

end Sound

theorem Lane.take?_eq {l : Lane} (hn : (l.available.map Idle.id).Nodup) (he : e ∈ l.available) :
    l.take? e.id = some (e, { l with available := l.available.erase e }) := by
  obtain ⟨ls, as, qs⟩ := l
  have hfind : as.find? (·.record.id = e.id) = some e ∧
      as.eraseP (·.record.id = e.id) = as.erase e := by
    induction as with
    | nil => simp at he
    | cons a as ih =>
      rw [List.map_cons, List.nodup_cons] at hn
      rcases List.mem_cons.1 he with rfl | he
      · simp [Idle.id]
      · have hid : ¬ a.record.id = e.id := fun heq => by
          have hmem : e.id ∈ as.map Idle.id := List.mem_map_of_mem he
          exact hn.1 (heq ▸ hmem : a.record.id ∈ as.map Idle.id)
        have hne : a ≠ e := fun heq => hid (congrArg Idle.id heq)
        obtain ⟨hf, hp⟩ := ih hn.2 he
        rw [List.find?_cons_of_neg (by simpa using hid),
          List.eraseP_cons_of_neg (by simpa using hid), List.erase_cons_tail (by simpa using hne)]
        exact ⟨hf, congrArg _ hp⟩
  simp only [Lane.take?, hfind.1, hfind.2, Option.map_some]

namespace Work

theorem evict_eq (h : Sound held w.pool) {k : Mark} {ks : Recency} (hi : w.pool.idle = k :: ks) :
    ∃ e ∈ (w.pool.lane e.record.route).available, e.mark = k ∧
      w.evict = (some e, w.change (Pool.pull e)) := by
  obtain ⟨e, he, rfl⟩ := h.exists_of_mark (m := k) (by simp [hi])
  have hmem := h.mem_stock.1 he
  refine ⟨e, hmem, rfl, ?_⟩
  have htake : (w.pool.lane e.record.route).take? e.id = _ :=
    Lane.take?_eq (h.available_ids e.record.route) hmem
  have hrest : w.pool.idle.erase e.mark = ks := by rw [hi, List.erase_cons_head]
  have hlane : ({ w.pool with idle := ks } : Pool).lane e.record.route =
      w.pool.lane e.record.route := rfl
  unfold evict
  rw [hi]
  simp only [pool_change, Idle.route_mark, Idle.id_mark, hlane, htake]
  simp only [change, Pool.pull, Pool.takeOut, hrest]
  rfl

theorem evict_eq_none (hi : w.pool.idle = []) : w.evict = (none, w) := by
  rw [evict, hi]

theorem reuse_cons (h : Sound held w.pool) (hr : e.record.route = r) {rest : List Idle}
    (ha : (w.pool.lane r).available = e :: rest) :
    w.reuse m r (e :: rest) =
      if e.isFit m w.pool.policy.validateAfter then
        (some e, (((w.report (e.inspection m w.pool.policy.validateAfter)).note
          (.reuse e.record.id r)).change (Pool.takeOut e)).change (Pool.lease e.record))
      else
        reuse m r rest ((((w.report (e.inspection m w.pool.policy.validateAfter)).note
          (.closeInvalid e.record.id r)).change (Pool.takeOut e)).close e.conn) := by
  rw [reuse]
  have hsplit : (w.pool.lane r).available = [] ++ e :: rest := ha
  have htake := h.takeOut_eq hr hsplit
  rw [List.nil_append] at htake
  simp only [change, htake]
  rfl

theorem isPlain_inspection (e : Idle) (v : Option Nat) : ∀ x ∈ e.inspection m v, x.isPlain := by
  unfold Idle.inspection
  cases e.verdict m v <;> by_cases hdue : e.isDue m.now v && m.isStale.isSome <;>
    simp [Report.isPlain, Report.handed?, Report.evicted?, Report.isAmiss, hdue]

theorem sheds_pull (he : e ∈ (w.pool.lane e.record.route).available) :
    Sheds ⟨held, c, w⟩ ⟨held, c, (w.change (Pool.pull e)).close e.conn⟩ :=
  .tail (.single (.close he)) (.relane (Pool.prune e.record.route) (Pool.relanes_prune _ _))

theorem shed_note (n : Notice) (hn : Report.isPlain (.noted n)) :
    Shed ⟨held, c, w⟩ ⟨held, c, w.note n⟩ :=
  .report [.noted n] (by simpa using hn)

theorem reuse_moves (h : Sound held w.pool) {l : List Idle} (ha : (w.pool.lane r).available = l) :
    ∃ u, Sheds ⟨held, c, w⟩ ⟨held, c, u⟩ ∧
      ((u.pool.lane r).available = [] ∧ w.reuse m r l = (none, u) ∨
        ∃ e rest, (u.pool.lane r).available = e :: rest ∧ e.record.route = r ∧
          e.isFit m u.pool.policy.validateAfter ∧
          w.reuse m r l = (some e, ((u.note (.reuse e.record.id r)).change
            (Pool.takeOut e)).change (Pool.lease e.record))) := by
  induction l generalizing w with
  | nil => exact ⟨w, .refl, .inl ⟨ha, rfl⟩⟩
  | cons e rest ih =>
    have hr : e.record.route = r := h.home r e (by simp [ha])
    let v := w.report (e.inspection m w.pool.policy.validateAfter)
    have hv : Shed ⟨held, c, w⟩ ⟨held, c, v⟩ := .report _ (isPlain_inspection e _)
    rw [reuse_cons h hr ha]
    by_cases hfit : e.isFit m w.pool.policy.validateAfter
    · exact ⟨v, .single hv, .inr ⟨e, rest, ha, hr, hfit, if_pos hfit⟩⟩
    · have hmem : e ∈ (w.pool.lane e.record.route).available := by simp [hr, ha]
      have hrest : ((w.pool.takeOut e).lane r).available = rest := by
        rw [Pool.lane_takeOut, if_pos hr.symm, hr, ha, List.erase_cons_head]
      obtain ⟨u, hu, hend⟩ := ih (w := ((v.note (.closeInvalid e.record.id r)).change
        (Pool.takeOut e)).close e.conn) (h.takeOut hmem) hrest
      refine ⟨u, .head hv (.head (shed_note _ rfl) (.head (.close hmem) hu)), ?_⟩
      rwa [if_neg hfit]

theorem makeRoom_of_lt (n : Nat) (hlt : w.pool.allocated < w.pool.limits.total) :
    w.makeRoom r n = (true, w) := by
  rw [makeRoom.eq_def]
  exact if_pos hlt

theorem makeRoom_of_idle_eq_nil (n : Nat) (hlt : ¬ w.pool.allocated < w.pool.limits.total)
    (hi : w.pool.idle = []) : w.makeRoom r n = (false, w) := by
  rw [makeRoom.eq_def]
  apply (if_neg hlt).trans
  cases n <;> rw [evict_eq_none hi]

theorem makeRoom_succ {n : Nat} {v : Work} (hlt : ¬ w.pool.allocated < w.pool.limits.total)
    (hevict : w.evict = (some e, v)) : w.makeRoom r (n + 1) =
      makeRoom r n ((v.note (.evict e.record.id e.record.route r)).close e.conn) := by
  rw [makeRoom.eq_def]
  apply (if_neg hlt).trans
  rw [hevict]

theorem makeRoom_moves (h : Sound held w.pool) {n : Nat} (hn : w.pool.idle.length ≤ n) :
    ∃ u, Sheds ⟨held, c, w⟩ ⟨held, c, u⟩ ∧
      (u.pool.allocated < u.pool.limits.total ∧ w.makeRoom r n = (true, u) ∨
        u.pool.idle = [] ∧ u.pool.limits.total ≤ u.pool.allocated ∧
          w.makeRoom r n = (false, u)) := by
  by_cases hlt : w.pool.allocated < w.pool.limits.total
  · exact ⟨w, .refl, .inl ⟨hlt, makeRoom_of_lt n hlt⟩⟩
  induction n generalizing w with
  | zero =>
    have hi : w.pool.idle = [] := List.eq_nil_of_length_eq_zero (Nat.le_zero.1 hn)
    exact ⟨w, .refl, .inr ⟨hi, not_lt.1 hlt, makeRoom_of_idle_eq_nil 0 hlt hi⟩⟩
  | succ n ih =>
    cases hi : w.pool.idle with
    | nil => exact ⟨w, .refl, .inr ⟨hi, not_lt.1 hlt, makeRoom_of_idle_eq_nil _ hlt hi⟩⟩
    | cons k ks =>
      obtain ⟨e, he, rfl, hevict⟩ := evict_eq h hi
      rw [makeRoom_succ hlt hevict]
      let v := ((w.note (.evict e.record.id e.record.route r)).change (Pool.pull e)).close e.conn
      have hv : Sheds ⟨held, c, w⟩ ⟨held, c, v⟩ := .single (.evict r he (by rw [hi]; rfl))
      by_cases hlt' : v.pool.allocated < v.pool.limits.total
      · exact ⟨v, hv, .inl ⟨hlt', makeRoom_of_lt n hlt'⟩⟩
      · have hlen : v.pool.idle.length ≤ n := by
          have hrest : v.pool.idle = ks := Pool.idle_pull_of_head hi
          rw [hi] at hn
          rw [hrest]
          exact Nat.le_of_succ_le_succ hn
        obtain ⟨u, hu, hend⟩ := ih (h.pull he) hlen hlt'
        exact ⟨u, hv.trans hu, hend⟩

theorem seek_moves (h : Sound held w.pool) (hopen : w.pool.isShut = false) :
    (∃ g u, w.seek m r = (some g, u) ∧ g.record.route = r ∧
      Gains m ⟨held, c, w⟩ ⟨g ::ₘ held, c, u⟩) ∨
    ∃ u, w.seek m r = (none, u) ∧ u.pool.Stuck r ∧ Sheds ⟨held, c, w⟩ ⟨held, c, u⟩ := by
  obtain ⟨v, hv, ⟨hnone, hreuse⟩ | ⟨e, rest, he, hr, hfit, hreuse⟩⟩ :=
    reuse_moves (m := m) (c := c) h (r := r) rfl
  · have hsound : Sound held v.pool := Scene.IsSound.sheds (s := ⟨held, c, w⟩) h hv
    unfold seek
    rw [hreuse]
    dsimp only
    split
    · next hmax =>
      refine .inr ⟨_, rfl, ⟨hnone, .inl ?_⟩, hv.tail (shed_note _ rfl)⟩
      rw [Lane.allocated, hnone] at hmax
      exact hmax
    · next hmax =>
      obtain ⟨u, hu, ⟨hlt, hroom⟩ | ⟨hi, hle, hroom⟩⟩ :=
        makeRoom_moves (c := c) hsound (r := r) (le_refl v.pool.idle.length)
      · have hd : v.pool.Draws u.pool := (hu.gains (m := m)).draws
        have hs : v.pool.SameSlots u.pool := hu.sameSlots
        have havail : (u.pool.lane r).available = [] := hd.available_eq_nil hnone
        refine .inl ⟨.create (u.reserve m r).1, (u.reserve m r).2, ?_, rfl, ?_⟩
        · rw [hroom]
        · refine (hv.gains.trans hu.gains).tail (.reserve ?_ havail ?_ hlt)
          · rw [hd.isShut, (hv.gains (m := m)).draws.isShut]
            exact hopen
          · rw [Lane.allocated, havail, hs.leased, hd.limits]
            rw [Lane.allocated, hnone] at hmax
            exact not_le.1 hmax
      · have hd : v.pool.Draws u.pool := (hu.gains (m := m)).draws
        refine .inr ⟨u, by rw [hroom], ⟨hd.available_eq_nil hnone, .inr ⟨hi, ?_⟩⟩, hv.trans hu⟩
        rwa [Pool.allocated, hi] at hle
  · refine .inl ⟨.reuse e, _, by rw [seek, hreuse], hr, hv.gains.tail ?_⟩
    subst hr
    exact .reuse he hfit

theorem change_openLane (hq : (w.pool.lane r).queue ≠ []) : w.change (Pool.openLane r) = w := by
  rw [change, Pool.openLane_of_queue hq]

theorem shed_openLane (r : Route) : Shed ⟨held, c, w⟩ ⟨held, c, w.change (Pool.openLane r)⟩ :=
  .relane (Pool.openLane r) (Pool.relanes_openLane w.pool r)

theorem provide_moves (h : Sound held w.pool) (hopen : w.pool.isShut = false) :
    (∃ g u, w.provide m r = (some g, u) ∧ g.record.route = r ∧
      Gains m ⟨held, c, w⟩ ⟨g ::ₘ held, c, u⟩) ∨
    ∃ u, w.provide m r = (none, u) ∧ u.pool.Stuck r ∧ Sheds ⟨held, c, w⟩ ⟨held, c, u⟩ := by
  rcases seek_moves (w := w.change (Pool.openLane r)) (c := c) (m := m) (r := r) (h.openLane r) hopen with
    ⟨g, u, hseek, hg, hgains⟩ | ⟨u, hseek, hstuck, hsheds⟩
  · exact .inl ⟨g, u, hseek, hg, .head (.shed (shed_openLane r)) hgains⟩
  · exact .inr ⟨u, hseek, hstuck, .head (shed_openLane r) hsheds⟩

theorem seek_of_stuck (m : Moment) (hs : w.pool.Stuck r) :
    (w.seek m r).1 = none ∧ (w.seek m r).2.pool = w.pool ∧
      (w.seek m r).2.closing = w.closing := by
  unfold seek
  rw [hs.available, reuse]
  dsimp only
  split
  · exact ⟨rfl, rfl, rfl⟩
  · next hmax =>
    rcases hs.full with hroute | ⟨hi, htotal⟩
    · rw [Lane.allocated, hs.available] at hmax
      exact absurd hroute hmax
    · have hlt : ¬ w.pool.allocated < w.pool.limits.total := by
        rw [Pool.allocated, hi]
        exact not_lt.2 htotal
      rw [makeRoom_of_idle_eq_nil _ hlt hi]
      exact ⟨rfl, rfl, rfl⟩

theorem provide_of_stuck (m : Moment) (hs : w.pool.Stuck r) :
    (w.provide m r).1 = none ∧ (w.provide m r).2.pool = w.pool.openLane r ∧
      (w.provide m r).2.closing = w.closing :=
  seek_of_stuck (w := w.change (Pool.openLane r)) m (hs.draws (Pool.relanes_openLane w.pool r).draws)

theorem provide_of_waiting (m : Moment) (hs : w.pool.Stuck r) (hq : (w.pool.lane r).queue ≠ []) :
    (w.provide m r).1 = none ∧ (w.provide m r).2.pool = w.pool ∧
      (w.provide m r).2.closing = w.closing := by
  obtain ⟨hnone, hpool, hclosing⟩ := provide_of_stuck m hs
  exact ⟨hnone, hpool.trans (Pool.openLane_of_queue hq), hclosing⟩

end Work

end ConnectionPool
