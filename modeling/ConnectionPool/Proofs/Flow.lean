import ConnectionPool.Proofs.Moves

/-! What becomes of connections and numbers.  A move closes some connections, hands one on, or spends
a new number on a slot, and there is no fourth way. -/

namespace ConnectionPool

variable {m : Moment} {s t : Scene}

def connsOf (gs : Multiset Grant) : Multiset Conn := gs.bind fun g => (g.conns : Multiset Conn)

@[simp] theorem connsOf_zero : connsOf 0 = 0 := rfl

@[simp] theorem connsOf_cons (g : Grant) (gs : Multiset Grant) :
    connsOf (g ::ₘ gs) = (g.conns : Multiset Conn) + connsOf gs := Multiset.cons_bind ..

@[simp] theorem connsOf_add (gs hs : Multiset Grant) :
    connsOf (gs + hs) = connsOf gs + connsOf hs := Multiset.add_bind ..

@[simp] theorem connsOf_singleton (g : Grant) : connsOf {g} = (g.conns : Multiset Conn) :=
  Multiset.singleton_bind ..

theorem card_connsOf_le (gs : Multiset Grant) : (connsOf gs).card ≤ gs.card := by
  induction gs using Multiset.induction with
  | empty => exact le_rfl
  | cons g gs ih =>
    rw [connsOf_cons, Multiset.card_add, Multiset.card_cons, add_comm]
    apply Nat.add_le_add ih
    cases g with
    | reuse e => exact le_rfl
    | create t => exact Nat.zero_le 1

theorem connsOf_map_reuse (es : Multiset Idle) : connsOf (es.map Grant.reuse) = es.map Idle.conn := by
  induction es using Multiset.induction with
  | empty => rfl
  | cons e es ih =>
    rw [Multiset.map_cons, connsOf_cons, ih, Multiset.map_cons]
    rfl

namespace Scene

def census (s : Scene) : Multiset Grant := s.work.pool.census s.held

def issued (s : Scene) : List EntryId := s.work.reports.filterMap Report.issued?

end Scene

inductive Flow (m : Moment) (s t : Scene) : Prop
  | close (gs : Multiset Grant) (hcensus : s.census = gs + t.census)
      (hclosing : (t.work.closing : Multiset Conn) = s.work.closing + connsOf gs)
      (hmade : t.made = s.made) (hissued : t.issued = s.issued)
      (hlast : t.work.pool.lastEntry = s.work.pool.lastEntry)
  | handOn {g g' : Grant} {rest : Multiset Grant} (xs : Multiset Conn)
      (hs : s.census = g ::ₘ rest) (ht : t.census = g' ::ₘ rest) (hid : g'.id = g.id)
      (hupdated : g'.record.updated = g.record.updated ∨ g'.record.updated = m.now)
      (hconns : (g'.conns : Multiset Conn) = xs + g.conns)
      (hclosing : t.work.closing = s.work.closing) (hmade : t.made = xs + s.made)
      (hissued : t.issued = s.issued)
      (hlast : t.work.pool.lastEntry = s.work.pool.lastEntry)
  | reserve {r : Record} (hcensus : t.census = .create r ::ₘ s.census)
      (hclosing : t.work.closing = s.work.closing) (hmade : t.made = s.made)
      (hissued : t.issued = s.issued ++ [r.id])
      (hid : r.id.number = s.work.pool.lastEntry + 1) (hupdated : r.updated = m.now)
      (hlast : t.work.pool.lastEntry = s.work.pool.lastEntry + 1)

namespace Flow

theorem same (hcensus : t.census = s.census) (hclosing : t.work.closing = s.work.closing)
    (hmade : t.made = s.made) (hissued : t.issued = s.issued)
    (hlast : t.work.pool.lastEntry = s.work.pool.lastEntry) : Flow m s t :=
  .close 0 (by rw [hcensus, zero_add]) (by rw [hclosing, connsOf_zero, add_zero]) hmade hissued
    hlast

end Flow

namespace Pool

variable {held held' : Multiset Grant} {p : Pool} {id : RequestId} {r : Route}

theorem census_reuse {e : Idle} (he : e ∈ (p.lane e.record.route).available) :
    ((p.takeOut e).lease e.record).census (.reuse e ::ₘ held) = p.census held :=
  (census_lease (.reuse e) (p.takeOut e)).trans (census_takeOut he)

theorem census_settle (h : Sound held p) (hid : p.requests.get? id = some { route := r })
    {s : Slot} (hg : held = s.grants + held') :
    census { p.withdraw id with requests := p.requests.put id s } held' = p.census held := by
  refine census_eq (stock_withdraw h.tidy (h.queued.get?_waiting.2 hid)) ?_
  change held' + (p.requests.put id s).total (fun _ s => s.grants) = _
  rw [grants_put hid, hg]
  ac_rfl

theorem census_collect (h : Sound held p) {s : Slot} (hid : p.requests.get? id = some s) :
    census { p with requests := p.requests.remove id } (s.grants + held) = p.census held := by
  refine census_eq rfl ?_
  change _ + (p.requests.remove id).total (fun _ s => s.grants) = _
  rw [← grants_remove h.queued hid]
  ac_rfl

theorem census_quit (h : Sound held p) (hid : p.requests.get? id = some { route := r }) :
    census { p.withdraw id with requests := p.requests.remove id } held = p.census held := by
  have hg := grants_remove h.queued hid
  rw [Slot.grants_pending, add_zero] at hg
  exact census_eq (stock_withdraw h.tidy (h.queued.get?_waiting.2 hid)) (congrArg (held + ·) hg)

theorem census_enter (hnew : ∀ x ∈ p.requests.keys, x.number < id.number) (s : Slot) :
    census { p with requests := p.requests.put id s } held = p.census (s.grants + held) := by
  refine census_eq rfl ?_
  change held + (p.requests.put id s).total (fun _ s => s.grants) = _
  rw [grants_put_new (get?_eq_none_of_lt hnew)]
  ac_rfl

theorem census_enqueue (hnew : ∀ x ∈ p.requests.keys, x.number < id.number) :
    census { p.enqueue id r with requests := p.requests.put id { route := r } } held =
      p.census held := by
  have hg := grants_put_new (get?_eq_none_of_lt hnew) { route := r }
  rw [Slot.grants_pending, add_zero] at hg
  have hstock : (p.enqueue id r).stock = p.stock := stock_enqueue id r p
  exact census_eq hstock (congrArg (held + ·) hg)

theorem connsOf_grants (p : Pool) :
    connsOf p.grants = (p.requests.filterMap (·.2.held) : Multiset Conn) := by
  unfold grants
  induction p.requests with
  | nil => rfl
  | cons x t ih =>
    obtain ⟨k, r, o⟩ := x
    rw [Table.total_cons, connsOf_add, ih]
    cases o with
    | pending => exact zero_add _
    | failed f => exact zero_add _
    | granted g =>
      rw [Slot.grants_granted, connsOf_singleton]
      cases g with
      | reuse e => rfl
      | create s => exact zero_add _

theorem conns_stock (p : Pool) :
    p.stock.map Idle.conn = (p.lanes.flatMap (·.2.available.map Idle.conn) : List Conn) := by
  unfold stock
  induction p.lanes with
  | nil => rfl
  | cons x t ih =>
    rw [Table.total_cons, Multiset.map_add, ih, List.flatMap_cons, ← Multiset.coe_add]
    rfl

end Pool

theorem Shed.flow (hs : s.IsSound) (h : Shed s t) : Flow m s t := by
  cases h with
  | @relane h c w f hf =>
    exact .same (Pool.census_relane hs.tidy hf h) rfl rfl rfl hf.lastEntry
  | @report h c w rs hrs =>
    refine .same rfl rfl rfl ?_ rfl
    have hnone : rs.filterMap Report.issued? = [] :=
      List.filterMap_eq_nil_iff.2 fun x hx => Report.issued?_of_isPlain (hrs x hx)
    change (w.reports ++ rs).filterMap Report.issued? = _
    rw [List.filterMap_append, hnone, List.append_nil]
    rfl
  | @close h c w e he =>
    refine .close {.reuse e} ?_ ?_ rfl rfl rfl
    · exact (Pool.census_takeOut he).symm
    · rw [connsOf_singleton]
      exact (Multiset.coe_add w.closing [e.conn]).symm
  | @evict h c w e r he =>
    refine .close {.reuse e} ?_ ?_ rfl ?_ (Pool.relanes_pull e w.pool).lastEntry
    · exact (Pool.census_pull hs.tidy he).symm
    · rw [connsOf_singleton]
      exact (Multiset.coe_add w.closing [e.conn]).symm
    · change (w.reports ++ _).filterMap Report.issued? = _
      rw [List.filterMap_append]
      exact List.append_nil _

theorem Gain.flow (hs : s.IsSound) (h : Gain m s t) : Flow m s t := by
  cases h with
  | shed h => exact h.flow hs
  | @reuse h c w e rest he =>
    refine .same (Pool.census_reuse (by simp [he])) rfl rfl ?_ rfl
    change (w.reports ++ _).filterMap Report.issued? = _
    rw [List.filterMap_append]
    exact List.append_nil _
  | @reserve h c w r =>
    refine .reserve (r := (w.reserve m r).1) ?_ rfl rfl ?_ rfl rfl rfl
    · exact Pool.census_lease (.create (w.reserve m r).1) { w.pool with lastEntry := _ }
    · change (w.reports ++ _).filterMap Report.issued? = _
      rw [List.filterMap_append]
      rfl

theorem Serve.flow (hs : s.IsSound) (h : Serve m s t) : Flow m s t := by
  cases h with
  | gain h => exact h.flow hs
  | @grant h c w g id hid =>
    have hpending := hs.head_pending hid
    rw [Work.grant_eq g hpending]
    have hcensus := Pool.census_settle hs hpending
      (s := { route := g.record.route, outcome := .granted g }) (Multiset.singleton_add g h).symm
    exact .same hcensus rfl rfl rfl (Pool.lastEntry_withdraw id w.pool)

theorem Trade.flow (hs : s.IsSound) (h : Trade m s t) : Flow m s t := by
  cases h with
  | serve h => exact h.flow hs
  | @free h c w g hopen =>
    refine .close {g} (Pool.census_freed g w.pool).symm ?_ rfl rfl rfl
    rw [connsOf_singleton]
    exact (Multiset.coe_add w.closing g.conns).symm
  | @keep h c w e v hopen =>
    let d : Idle := {
      record := e.record.released m.now
        (v.or ((w.pool.freed e.record).policy.keepalive.map Span.ms))
      conn := e.conn }
    have hstock : (Work.keep m e.record e.conn v { w with pool := w.pool.freed e.record }).pool.stock
        = d ::ₘ (w.pool.freed e.record).stock :=
      Pool.stock_restock (r := e.record.route) rfl (List.Perm.refl _)
    refine .handOn 0 (Pool.census_freed (.reuse e) w.pool).symm
      (Pool.census_restock hstock rfl) rfl (.inr rfl) (zero_add _).symm rfl (zero_add _).symm ?_ rfl
    change (w.reports ++ _).filterMap Report.issued? = _
    rw [List.filterMap_append]
    exact List.append_nil _
  | number hn => exact .same rfl rfl rfl rfl rfl
  | enqueue hopen hnew => exact .same (Pool.census_enqueue hnew) rfl rfl rfl rfl
  | @enter h c w g id hopen hqueue hnew =>
    refine .same (Eq.trans (Pool.census_enter hnew _) ?_) rfl rfl rfl rfl
    rw [Slot.grants_granted, Multiset.singleton_add]
    rfl
  | refuse f hid =>
    exact .same (Pool.census_settle hs hid (zero_add _).symm) rfl rfl rfl
      (Pool.lastEntry_withdraw _ _)
  | quit hid => exact .same (Pool.census_quit hs hid) rfl rfl rfl (Pool.lastEntry_withdraw _ _)
  | collect hid => exact .same (Pool.census_collect hs hid) rfl rfl rfl rfl
  | @connect h c w t x =>
    have hcons (g : Grant) : w.pool.census (g ::ₘ h) = g ::ₘ w.pool.census h := by
      rw [Pool.census, Multiset.cons_add, Multiset.cons_add, Pool.census]
    exact .handOn {x} (hcons _) (hcons _) rfl (.inl rfl) rfl rfl (Multiset.singleton_add x c).symm
      rfl rfl
  | @lose h c w g =>
    refine .close {g} ?_ ?_ rfl rfl rfl
    · change w.pool.census (g ::ₘ h) = {g} + w.pool.census h
      rw [Pool.census, Multiset.cons_add, Multiset.cons_add, Pool.census, Multiset.singleton_add]
    · rw [connsOf_singleton]
      exact (Multiset.coe_add w.closing g.conns).symm
  | @shut h c w =>
    cases hshut : w.pool.isShut with
    | true =>
      rw [Work.shutDown_of_shut hshut]
      exact .same rfl rfl rfl rfl rfl
    | false =>
      rw [Work.shutDown_of_open hshut]
      refine .close (w.pool.grants + w.pool.stock.map Grant.reuse) ?_ ?_ rfl rfl rfl
      · change w.pool.census h = _ + w.pool.torn.census h
        rw [Pool.census_torn, Pool.census]
        ac_rfl
      · rw [connsOf_add, Pool.connsOf_grants, connsOf_map_reuse, Pool.conns_stock, ← add_assoc]
        rfl

theorem Move.flow (hs : s.IsSound) (h : Move m s t) : Flow m s t := by
  cases h with
  | trade h => exact h.flow hs
  | @restore h c w e hopen =>
    rw [hs.putBack_eq hopen]
    refine .handOn 0 (Pool.census_freed (.reuse e) w.pool).symm
      (Pool.census_restock (Pool.stock_restock rfl (Lane.reinsert_perm e _)) rfl) rfl (.inl rfl)
      (zero_add _).symm rfl (zero_add _).symm rfl rfl

/-- The books of a scene: each connection that was made is somewhere or closed, and each number in
use was spent, after those in `base`. -/
structure Scene.Books (closed : Multiset Conn) (base : List EntryId) (s : Scene) : Prop where
  made : s.made = connsOf s.census + s.work.closing + closed
  increasing : (base ++ s.issued).Pairwise (·.number < ·.number)
  bounded : ∀ id ∈ base ++ s.issued, id.number ≤ s.work.pool.lastEntry
  known : ∀ g ∈ s.census, g.id ∈ base ++ s.issued

namespace Scene.Books

variable {closed : Multiset Conn} {base : List EntryId}

theorem flow (h : s.Books closed base) (hf : Flow m s t) : t.Books closed base := by
  cases hf with
  | close gs hcensus hclosing hmade hissued hlast =>
    refine ⟨?_, hissued ▸ h.increasing, by rw [hissued, hlast]; exact h.bounded, ?_⟩
    · rw [hmade, h.made, hcensus, connsOf_add, hclosing]
      ac_rfl
    · intro g hg
      rw [hissued]
      exact h.known g (hcensus ▸ Multiset.mem_add.2 (.inr hg))
  | @handOn g g' rest xs hs ht hid hupdated hconns hclosing hmade hissued hlast =>
    refine ⟨?_, hissued ▸ h.increasing, by rw [hissued, hlast]; exact h.bounded, ?_⟩
    · rw [hmade, h.made, hs, ht, connsOf_cons, connsOf_cons, hconns, hclosing]
      ac_rfl
    · intro d hd
      rw [hissued]
      rw [ht, Multiset.mem_cons] at hd
      rcases hd with rfl | hd
      · exact hid ▸ h.known g (hs ▸ Multiset.mem_cons_self g rest)
      · exact h.known d (hs ▸ Multiset.mem_cons_of_mem hd)
  | @reserve r hcensus hclosing hmade hissued hid hupdated hlast =>
    have hall : base ++ t.issued = (base ++ s.issued) ++ [r.id] := by
      rw [hissued, List.append_assoc]
    refine ⟨?_, ?_, ?_, ?_⟩
    · rw [hmade, h.made, hcensus, hclosing, connsOf_cons]
      exact congrArg (· + _ + _) (zero_add _).symm
    · rw [hall, List.pairwise_append]
      refine ⟨h.increasing, List.pairwise_singleton _ _, fun a ha b hb => ?_⟩
      rw [List.mem_singleton.1 hb, hid]
      exact Nat.lt_succ_of_le (h.bounded a ha)
    · intro a ha
      rw [hall, List.mem_append, List.mem_singleton] at ha
      rw [hlast]
      rcases ha with ha | rfl
      · exact (h.bounded a ha).trans (Nat.le_succ _)
      · exact hid.le
    · intro g hg
      rw [hall, List.mem_append]
      rw [hcensus, Multiset.mem_cons] at hg
      rcases hg with rfl | hg
      · exact .inr (List.mem_singleton_self _)
      · exact .inl (h.known g hg)

theorem moves (h : s.Books closed base) (hs : s.IsSound) (hst : Moves m s t) :
    t.Books closed base := by
  induction hst with
  | refl => exact h
  | tail hsu hst ih => exact ih.flow (hst.flow (hs.moves hsu))

theorem enter {c : Multiset Conn} {held : Multiset Grant} {w : Work}
    (h : Books closed base ⟨held, c, w⟩) :
    Books (w.closing + closed) (base ++ w.reports.filterMap Report.issued?)
      ⟨held, c, { pool := w.pool }⟩ where
  made := by
    have hmade : c = connsOf (w.pool.census held) + w.closing + closed := h.made
    have hzero : c = connsOf (w.pool.census held) + 0 + (w.closing + closed) := by
      rw [add_zero, ← add_assoc]
      exact hmade
    exact hzero
  increasing := (List.append_nil _).symm ▸ h.increasing
  bounded := (List.append_nil _).symm ▸ h.bounded
  known := (List.append_nil _).symm ▸ h.known

end Scene.Books

end ConnectionPool
