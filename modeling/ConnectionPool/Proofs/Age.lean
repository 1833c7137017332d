import ConnectionPool.Proofs.Flow
import ConnectionPool.Proofs.Life
import ConnectionPool.Proofs.Restoring

namespace ConnectionPool

variable {held : Multiset Grant} {p q : Pool} {w : Work} {e d : Idle} {es : List Idle} {r : Route}
  {m : Moment} {s t : Scene} {l : Life} {o : Op} {ops : List (Moment × Op)}

namespace Pool

/-- The marks stand in the order of release.  Of each route, they are those of its available
connections, from the back to the front. -/
structure InOrder (p : Pool) : Prop where
  sorted : p.idle.Pairwise (·.released ≤ ·.released)
  lanes : ∀ r, (p.lane r).available.reverse.map Idle.mark = p.idle.filter (·.route = r)

structure Oldest (p : Pool) (e : Idle) : Prop where
  last : (p.lane e.record.route).available.getLast? = some e
  least : ∀ r, ∀ d ∈ (p.lane r).available, e.record.updated ≤ d.record.updated

namespace InOrder

theorem of_eq (h : p.InOrder) (hidle : q.idle = p.idle)
    (ha : ∀ r, (q.lane r).available = (p.lane r).available) : q.InOrder :=
  ⟨hidle ▸ h.sorted, fun r => by rw [ha, hidle, h.lanes]⟩

theorem agrees (h : p.InOrder) (r : Route) : (p.lane r).Agrees r p.idle := h.lanes r

theorem lane_sorted (h : p.InOrder) (r : Route) :
    (p.lane r).available.Pairwise (·.record.updated ≥ ·.record.updated) :=
  (h.agrees r).isSorted h.sorted

theorem oldest (h : p.InOrder) (hs : Sound held p)
    (he : e ∈ (p.lane e.record.route).available) (hold : p.idle.head? = some e.mark) :
    p.Oldest e := by
  obtain ⟨ks, hidle⟩ := List.head?_eq_some_iff.1 hold
  refine ⟨?_, fun r d hd => ?_⟩
  · have hlane := h.lanes e.record.route
    rw [hidle, List.filter_cons_of_pos (by simp)] at hlane
    obtain ⟨d, hd, hmark⟩ := Option.map_eq_some_iff.1
      ((List.head?_map ..).symm.trans (congrArg List.head? hlane))
    rw [List.head?_reverse] at hd
    rw [hd, hs.mark_inj he (List.mem_of_getLast? hd) hmark]
  · have hmem : d.mark ∈ p.idle := hs.mark_mem ((mem_stock hs.tidy).2 ⟨r, hd⟩)
    have hsorted := h.sorted
    rw [hidle] at hmem hsorted
    rcases List.mem_cons.1 hmem with heq | hmem
    · exact (congrArg Mark.released heq).ge
    · exact (List.pairwise_cons.1 hsorted).1 _ hmem

theorem takeOut (h : p.InOrder) (hs : Sound held p)
    (he : e ∈ (p.lane e.record.route).available) : (p.takeOut e).InOrder := by
  have hidle : (p.takeOut e).idle = p.idle.filter (· ≠ e.mark) := by
    change p.idle.erase e.mark = _
    rw [hs.idle_ids.of_map.erase_eq_filter]
    exact List.filter_congr fun k _ => by simp [bne, beq_eq_decide]
  refine ⟨hidle ▸ h.sorted.sublist List.filter_sublist, fun r => ?_⟩
  rw [lane_takeOut, hidle, List.filter_filter]
  split
  · next hr =>
    subst hr
    have hn : (p.lane e.record.route).available.Nodup := (hs.available_ids _).of_map
    have herase : (p.lane e.record.route).available.erase e =
        (p.lane e.record.route).available.filter (·.mark ≠ e.mark) := by
      rw [hn.erase_eq_filter]
      refine List.filter_congr fun d hd => ?_
      have hiff : d.mark = e.mark ↔ d = e := ⟨hs.mark_inj he hd, congrArg Idle.mark⟩
      simp [hiff, bne, beq_eq_decide]
    rw [← List.filter_filter, List.filter_comm, ← h.lanes, List.filter_map, List.filter_reverse,
      herase]
    rfl
  · next hr =>
    rw [h.lanes]
    refine List.filter_congr fun k _ => ?_
    have hne : k.route = r → k ≠ e.mark := by
      rintro rfl rfl
      exact hr rfl
    simpa using hne

theorem put (h : p.InOrder) (hid : d.id ∉ p.idle.map Mark.id)
    (hlast : ∀ k ∈ p.idle, k.released ≤ d.record.updated)
    (hidle : q.idle = p.idle.add d.mark)
    (hlanes : q.lanes = (p.setLane d.record.route ((p.lane d.record.route).put d)).lanes) :
    q.InOrder := by
  have hadd : q.idle = p.idle ++ [d.mark] := by
    rw [hidle, Recency.add, Idle.id_mark, Recency.drop_eq_self hid]
  refine ⟨?_, fun r => ?_⟩
  · rw [hadd, List.pairwise_append]
    refine ⟨h.sorted, List.pairwise_singleton _ _, fun k hk n hn => ?_⟩
    rw [List.mem_singleton.1 hn]
    exact hlast k hk
  · rw [lane_of_edit hlanes, hadd, List.filter_append]
    split
    · next hr =>
      subst hr
      simp [Lane.put, ← h.lanes]
    · next hr =>
      have hne : ¬ d.record.route = r := fun heq => hr heq.symm
      simp [h.lanes, hne]

theorem reinsert (h : p.InOrder) (hs : Sound held p) (hid : e.id ∉ p.idle.map Mark.id)
    (hidle : q.idle = p.idle.reinsert e.mark)
    (hlanes : q.lanes =
      (p.setLane e.record.route ((p.lane e.record.route).reinsert e)).lanes) : q.InOrder := by
  refine ⟨hidle ▸ Recency.sorted_reinsert hs.idle_ids hid h.sorted, fun r => ?_⟩
  rw [lane_of_edit hlanes, hidle]
  split
  · next hr => exact hr ▸ (h.agrees e.record.route).reinsert hs.idle_ids hid h.sorted
  · next hr =>
    have hne : e.mark.route ≠ r := fun heq => hr heq.symm
    rw [Recency.filter_reinsert_of_ne hs.idle_ids hid h.sorted hne, h.lanes]

theorem of_edit {l : Lane} (h : p.InOrder) (hidle : q.idle = p.idle)
    (hlanes : q.lanes = (p.setLane r l).lanes) (ha : l.available = (p.lane r).available) :
    q.InOrder := by
  refine h.of_eq hidle fun s => ?_
  rw [lane_of_edit hlanes]
  split
  · next hs => rw [ha, hs]
  · rfl

theorem relane (h : p.InOrder) (hq : p.Relanes q) : q.InOrder :=
  h.of_eq hq.idle fun r => by rw [hq.lane]

theorem pull (h : p.InOrder) (hs : Sound held p) (he : e ∈ (p.lane e.record.route).available) :
    (p.pull e).InOrder := (h.takeOut hs he).relane (relanes_pull e p)

theorem withdraw (h : p.InOrder) (id : RequestId) (rs : Table RequestId Slot) :
    InOrder { p.withdraw id with requests := rs } := by
  cases hw : p.waiting.get? id with
  | none =>
    have hp : p.withdraw id = p := by rw [Pool.withdraw, hw]
    rw [hp]
    exact h.of_eq rfl fun _ => rfl
  | some r =>
    have hunqueue : InOrder { p.unqueue id r with requests := rs } :=
      h.of_edit (r := r) rfl rfl rfl
    exact hunqueue.relane (relanes_withdraw hw rs)

theorem freed (h : p.InOrder) (r : Record) : (p.freed r).InOrder :=
  h.of_edit (r := r.route) rfl rfl rfl

theorem torn (p : Pool) : p.torn.InOrder := ⟨List.Pairwise.nil, fun _ => rfl⟩

end InOrder

end Pool

namespace Work

theorem keep_inOrder (h : Sound (.reuse e ::ₘ held) w.pool) (ho : w.pool.InOrder)
    (hopen : w.pool.isShut = false) (v : Option Span)
    (hlast : ∀ k ∈ w.pool.idle, k.released ≤ m.now) :
    (Work.keep m e.record e.conn v { w with pool := w.pool.freed e.record }).pool.InOrder := by
  have hfreed : Sound held (w.pool.freed e.record) := h.freed (h.mem_leased hopen)
  exact (ho.freed e.record).put
    (d := ⟨e.record.released m.now (v.or (w.pool.policy.keepalive.map Span.ms)), e.conn⟩)
    (hfreed.not_mem_idle h.not_mem_freed) hlast rfl rfl

theorem putBack_inOrder (h : Sound (.reuse e ::ₘ held) w.pool) (ho : w.pool.InOrder)
    (hopen : w.pool.isShut = false) : (w.putBack e).pool.InOrder := by
  have hfreed : Sound held (w.pool.freed e.record) := h.freed (h.mem_leased hopen)
  have hback := h.putBack_eq hopen
  exact (ho.freed e.record).reinsert hfreed (hfreed.not_mem_idle h.not_mem_freed)
    (by rw [hback]) (by rw [hback]; rfl)

end Work

namespace Scene

def Dated (now : Instant) (s : Scene) : Prop := ∀ g ∈ s.census, g.record.updated ≤ now

theorem Dated.flow {now : Instant} (h : s.Dated now) (hm : m.now ≤ now) (hf : Flow m s t) :
    t.Dated now := by
  intro g hg
  cases hf with
  | close gs hcensus => exact h g (hcensus ▸ Multiset.mem_add.2 (.inr hg))
  | @handOn d g' rest xs hs ht hid hupdated =>
    rw [ht, Multiset.mem_cons] at hg
    rcases hg with rfl | hg
    · rcases hupdated with hsame | hnow
      · exact hsame.trans_le (h d (hs ▸ Multiset.mem_cons_self d rest))
      · exact hnow.trans_le hm
    · exact h g (hs ▸ Multiset.mem_cons_of_mem hg)
  | @reserve r hcensus hclosing hmade hissued hid hupdated =>
    rw [hcensus, Multiset.mem_cons] at hg
    rcases hg with rfl | hg
    · exact hupdated.trans_le hm
    · exact h g hg

theorem Dated.moves {now : Instant} (h : s.Dated now) (hm : m.now ≤ now) (hs : s.IsSound)
    (hst : Moves m s t) : t.Dated now := by
  induction hst with
  | refl => exact h
  | tail hsu hut ih => exact ih.flow hm (hut.flow (hs.moves hsu))

end Scene

theorem Shed.inOrder (hs : s.IsSound) (ho : s.work.pool.InOrder) (h : Shed s t) :
    t.work.pool.InOrder := by
  cases h with
  | relane f hf => exact ho.relane hf
  | report => exact ho
  | close he => exact ho.takeOut hs he
  | evict r he => exact ho.pull hs he

theorem Serve.inOrder (hs : s.IsSound) (ho : s.work.pool.InOrder) (h : Serve m s t) :
    t.work.pool.InOrder := by
  cases h with
  | gain h =>
    cases h with
    | shed h => exact h.inOrder hs ho
    | @reuse h c w e rest he =>
      have hout : (w.pool.takeOut e).InOrder := ho.takeOut hs (by simp [he])
      exact hout.of_edit (r := e.record.route) rfl rfl rfl
    | @reserve h c w r =>
      have hnext : Pool.InOrder { w.pool with lastEntry := w.pool.lastEntry + 1 } :=
        ho.of_eq rfl fun _ => rfl
      exact hnext.of_edit (r := r) rfl rfl rfl
  | grant hid =>
    rw [Work.grant_eq _ (hs.head_pending hid)]
    exact ho.withdraw _ _

theorem Move.inOrder (hs : s.IsSound) (hd : s.Dated m.now) (ho : s.work.pool.InOrder)
    (h : Move m s t) : t.work.pool.InOrder := by
  cases h with
  | restore hopen => exact Work.putBack_inOrder hs ho hopen
  | trade h =>
    cases h with
    | serve h => exact h.inOrder hs ho
    | free => exact ho.freed _
    | @keep held c w e v hopen =>
      -- what is kept is released now, and nothing is from after now
      refine Work.keep_inOrder hs ho hopen v fun k hk => ?_
      obtain ⟨d, hstock, rfl⟩ := Sound.exists_of_mark hs (m := k) hk
      exact hd (.reuse d) (Multiset.mem_add.2 (.inr (Multiset.mem_map_of_mem _ hstock)))
    | @enqueue held c w id r => exact ho.of_edit (r := r) rfl rfl rfl
    | refuse => exact ho.withdraw _ _
    | quit => exact ho.withdraw _ _
    | @shut held c w =>
      cases hshut : w.pool.isShut with
      | true => rwa [Work.shutDown_of_shut hshut]
      | false =>
        rw [Work.pool_shutDown hshut]
        exact .torn w.pool
    | _ => exact ho.of_eq rfl fun _ => rfl

/-- A move that leaves the connections in order if they were. -/
def Orderly (m : Moment) (s t : Scene) : Prop :=
  Move m s t ∧ (s.work.pool.InOrder → t.work.pool.InOrder)

abbrev InTurn (m : Moment) := Relation.ReflTransGen (Orderly m)

theorem InTurn.moves (h : InTurn m s t) : Moves m s t := h.lift id fun _ _ => And.left

theorem InTurn.inOrder (h : InTurn m s t) (ho : s.work.pool.InOrder) : t.work.pool.InOrder := by
  induction h with
  | refl => exact ho
  | tail _ hut ih => exact hut.2 ih

theorem Moves.inTurn (hs : s.IsSound) (hd : s.Dated m.now) (h : Moves m s t) : InTurn m s t := by
  induction h with
  | refl => exact .refl
  | tail hsu hut ih =>
    exact ih.tail ⟨hut, fun ho => hut.inOrder (hs.moves hsu) (hd.moves le_rfl hs hsu) ho⟩

theorem Serves.inTurn (hs : s.IsSound) (h : Serves m s t) : InTurn m s t := by
  induction h with
  | refl => exact .refl
  | tail hsu hut ih =>
    exact ih.tail ⟨.trade (.serve hut), fun ho => hut.inOrder (hs.serves hsu) ho⟩

theorem Work.lease_inTurn {c : Multiset Conn} (h : Sound held w.pool) :
    InTurn m ⟨held, c, w⟩ ⟨held, c, (w.lease m r).2⟩ := by
  cases hshut : w.pool.isShut with
  | true =>
    have hstay : (w.lease m r).2 = w := by simp [Work.lease, hshut]
    rw [hstay]
  | false =>
    have hsound := Work.numbered_sound h
    have hnumber : Orderly m ⟨held, c, w⟩ ⟨held, c, w.numbered⟩ :=
      ⟨.trade (.number (Nat.le_succ _)), fun ho => ho.of_eq rfl fun _ => rfl⟩
    rcases Work.lease_cases (m := m) (c := c) (r := r) h hshut with
      ⟨g, u, hlease, hroute, hq, hgain⟩ | ⟨u, hlease, -, hgain⟩
    · have hqueue : (u.pool.lane g.record.route).queue = [] := by
        rw [hroute]
        exact (hgain.sameQueues.queue r).trans hq
      rw [hlease]
      exact .tail (.head hnumber (hgain.serves.inTurn hsound))
        ⟨.trade (.enter (Work.isShut_of_numbered hshut hgain) hqueue (Work.lt_nextRequest h hgain)
          (Work.nextRequest_le hgain)), fun ho => ho.of_eq rfl fun _ => rfl⟩
    · rw [hlease]
      exact .tail (.head hnumber (hgain.serves.inTurn hsound))
        ⟨.trade (.enqueue (Work.isShut_of_numbered hshut hgain) (Work.lt_nextRequest h hgain)
          (Work.nextRequest_le hgain)), fun ho => ho.of_edit (r := r) rfl rfl rfl⟩

namespace Tenancy

variable {t : Tenancy} {made : List Conn}

theorem lease_inTurn {c : Multiset Conn} (h : t.IsSound) (timeout : Option Span) :
    InTurn m (t.scene c) ((t.lease m r timeout).scene c) := by
  rw [scene_lease]
  exact Work.lease_inTurn h.sound

theorem act_inTurn (h : t.IsSound) (hp : o.isPossible t made)
    (hd : o.isLease ∨ ((t.relimit o.limits).scene made).Dated m.now) :
    InTurn m ((t.relimit o.limits).scene made) ((t.act m o).scene (o.makes made)) := by
  rcases hd with hlease | hd
  · cases o with
    | lease r timeout => exact lease_inTurn h timeout
    | _ => cases hlease
  · exact (act_moves h hp).1.inTurn (relimit_sound h o.limits).scene hd

end Tenancy

def Work.evicted (e : Idle) (r : Route) (w : Work) : Work :=
  ((w.note (.evict e.record.id e.record.route r)).change (Pool.pull e)).close e.conn

namespace Life

theorem dated_of_clocked {s : Scene} {x : Moment × Op} (hclock : Clocked (ops ++ [x]))
    (hdated : ∀ now, (∀ y ∈ ops, y.1.now ≤ now) → s.Dated now) :
    x.2.isLease ∨ s.Dated x.1.now := by
  have hlast := (List.pairwise_append.1 hclock).2.2
  cases hlease : x.2.isLease with
  | true => exact .inl rfl
  | false =>
    refine .inr (hdated _ fun y hy => (hlast y hy x (List.mem_singleton_self x)).resolve_left ?_)
    simp [hlease]

theorem run_inOrder (conf : Conf) (hclock : Clocked ops) :
    ((start conf).run ops).tenancy.pool.InOrder ∧
      ∀ now, (∀ x ∈ ops, x.1.now ≤ now) →
        (((start conf).run ops).tenancy.scene ((start conf).run ops).made).Dated now := by
  induction ops using List.reverseRecOn with
  | nil =>
    exact ⟨⟨List.Pairwise.nil, fun _ => rfl⟩, fun now _ g hg => absurd hg (Multiset.notMem_zero g)⟩
  | append_singleton ops o ih =>
    obtain ⟨horder, hdated⟩ := ih (List.pairwise_append.1 hclock).1
    have h := run_sound conf ops
    rw [run_append_singleton]
    generalize (start conf).run ops = l at horder hdated h
    by_cases hp : o.2.isPossible l.tenancy l.made
    · have hsound := (Tenancy.relimit_sound h o.2.limits).scene (c := l.made)
      have hturn : InTurn o.1 ((l.tenancy.relimit o.2.limits).scene l.made) _ :=
        Tenancy.act_inTurn h hp (dated_of_clocked hclock hdated)
      rw [step, if_pos hp]
      refine ⟨InTurn.inOrder hturn (horder.of_eq rfl fun _ => rfl), fun now hnow g hg => ?_⟩
      have hstart : ((l.tenancy.relimit o.2.limits).scene l.made).Dated now :=
        hdated now fun x hx => hnow x (List.mem_append_left _ hx)
      exact hstart.moves (hnow o (List.mem_append_right _ (List.mem_singleton_self o))) hsound
        (InTurn.moves hturn) g hg
    · rw [step_of_not_isPossible hp]
      exact ⟨horder, fun now hnow => hdated now fun x hx => hnow x (List.mem_append_left _ hx)⟩

end Life

end ConnectionPool
