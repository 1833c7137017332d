import ConnectionPool.Proofs.Frames

namespace ConnectionPool

variable {held : Multiset Grant} {p q u : Pool} {g : Grant} {e : Idle} {r : Route} {m : Moment}
  {s t : Scene}

namespace Pool

/-- What is allocated grows up to the limits at most. -/
structure Grows (p q : Pool) : Prop where
  limits : q.limits = p.limits
  route : ∀ r, (q.lane r).allocated ≤ max (p.lane r).allocated (p.limits.forRoute r)
  total : q.allocated ≤ max p.allocated p.limits.total

/-- Only leased connections exceed a limit. -/
structure Bounded (p : Pool) : Prop where
  route : ∀ r, (p.lane r).available ≠ [] → (p.lane r).allocated ≤ p.limits.forRoute r
  total : p.idle ≠ [] → p.allocated ≤ p.limits.total

theorem grows_of_le (hlimits : q.limits = p.limits)
    (hroute : ∀ r, (q.lane r).allocated ≤ (p.lane r).allocated)
    (htotal : q.allocated ≤ p.allocated) : p.Grows q :=
  ⟨hlimits, fun r => le_max_of_le_left (hroute r), le_max_of_le_left htotal⟩

theorem Grows.refl (p : Pool) : p.Grows p := grows_of_le rfl (fun _ => le_rfl) le_rfl

theorem Grows.trans (h : p.Grows q) (k : q.Grows u) : p.Grows u where
  limits := k.limits.trans h.limits
  route r := by
    refine (k.route r).trans (max_le (h.route r) ?_)
    rw [h.limits]
    exact le_max_right _ _
  total := by
    refine k.total.trans (max_le h.total ?_)
    rw [h.limits]
    exact le_max_right _ _

theorem Bounded.grows (h : p.Bounded) (hg : p.Grows q)
    (ha : ∀ r, (p.lane r).available = [] → (q.lane r).available = [])
    (hi : p.idle = [] → q.idle = []) : q.Bounded where
  route r hr := by
    have hp : (p.lane r).allocated ≤ p.limits.forRoute r := h.route r fun hnil => hr (ha r hnil)
    rw [hg.limits]
    exact (hg.route r).trans (max_le hp le_rfl)
  total hr := by
    have hp : p.allocated ≤ p.limits.total := h.total fun hnil => hr (hi hnil)
    rw [hg.limits]
    exact hg.total.trans (max_le hp le_rfl)

theorem Bounded.draws (h : p.Bounded) (hg : p.Grows q) (hd : p.Draws q) : q.Bounded :=
  h.grows hg (fun _ => hd.available_eq_nil) hd.idle_eq_nil

theorem allocated_lease_le (t : Record) (s : Route) : ((p.lease t).lane s).allocated ≤
    (p.lane s).allocated + if s = t.route then 1 else 0 := by
  rw [lane_lease]
  split
  · next hs =>
    have hle : ((p.lane t.route).leased.insert t.id).length ≤
        (p.lane t.route).leased.length + 1 := by
      rw [List.length_insert]
      split <;> omega
    change ((p.lane t.route).leased.insert t.id).length + (p.lane t.route).available.length ≤
      (p.lane s).leased.length + (p.lane s).available.length + 1
    rw [hs]
    omega
  · exact le_rfl

end Pool

namespace Sound

theorem allocated_takeOut (h : Sound held p) (he : e ∈ (p.lane e.record.route).available) :
    (∀ s, ((p.takeOut e).lane s).allocated + (if s = e.record.route then 1 else 0) =
      (p.lane s).allocated) ∧ (p.takeOut e).allocated + 1 = p.allocated := by
  constructor
  · intro s
    rw [Pool.lane_takeOut]
    split
    · next hs =>
      have hlen := List.length_erase_of_mem he
      have hpos := List.length_pos_of_mem he
      change (p.lane e.record.route).leased.length +
        ((p.lane e.record.route).available.erase e).length + 1 =
          (p.lane s).leased.length + (p.lane s).available.length
      rw [hs]
      omega
    · rfl
  · have hmark : e.mark ∈ p.idle := h.mark_mem (h.mem_stock.2 he)
    have hlen := List.length_erase_of_mem hmark
    have hpos := List.length_pos_of_mem hmark
    change p.leased + (p.idle.erase e.mark).length + 1 = p.leased + p.idle.length
    omega

theorem leased_pos (h : Sound (g ::ₘ held) p) (hopen : p.isShut = false) : 0 < p.leased := by
  have hslots := Pool.slots_freed (h.mem_leased hopen)
  rw [h.leased, ← hslots, Multiset.card_cons]
  exact Nat.succ_pos _

theorem allocated_freed (h : Sound (g ::ₘ held) p) (hopen : p.isShut = false) :
    (∀ s, ((p.freed g.record).lane s).allocated + (if s = g.record.route then 1 else 0) =
      (p.lane s).allocated) ∧ (p.freed g.record).allocated + 1 = p.allocated := by
  have hmem := h.mem_leased hopen
  constructor
  · intro s
    rw [Pool.lane_freed]
    split
    · next hs =>
      have hlen := List.length_erase_of_mem hmem
      have hpos := List.length_pos_of_mem hmem
      change ((p.lane g.record.route).leased.erase g.id).length +
        (p.lane g.record.route).available.length + 1 =
          (p.lane s).leased.length + (p.lane s).available.length
      rw [hs]
      omega
    · rfl
  · have hpos := h.leased_pos hopen
    change p.leased - 1 + p.idle.length + 1 = p.leased + p.idle.length
    omega

end Sound

namespace Pool

theorem grows_of_edit {l : Lane} (hlanes : q.lanes = (p.setLane r l).lanes)
    (hlimits : q.limits = p.limits) (hleased : l.leased = (p.lane r).leased)
    (havailable : l.available = (p.lane r).available) (htotal : q.leased = p.leased)
    (hidle : q.idle = p.idle) : p.Grows q := by
  refine grows_of_le hlimits (fun s => ?_) ?_
  · rw [lane_of_edit hlanes]
    split
    · next hs => rw [hs, Lane.allocated, Lane.allocated, hleased, havailable]
    · exact le_rfl
  · rw [allocated, htotal, hidle, allocated]

theorem Relanes.grows (h : p.Relanes q) : p.Grows q := by
  refine grows_of_le ?_ (fun s => ?_) ?_
  · rw [h.rest]
  · rw [h.lane]
  · rw [h.rest]
    rfl

theorem grows_withdraw (id : RequestId) (rs : Table RequestId Slot) :
    p.Grows { p.withdraw id with requests := rs } := by
  cases hw : p.waiting.get? id with
  | none =>
    have hp : p.withdraw id = p := by rw [withdraw, hw]
    rw [hp]
    exact grows_of_le rfl (fun _ => le_rfl) le_rfl
  | some r =>
    have hunqueue : p.Grows { p.unqueue id r with requests := rs } :=
      grows_of_edit (r := r) rfl rfl rfl rfl rfl rfl
    exact hunqueue.trans (relanes_withdraw hw rs).grows

theorem allocated_stock {l : Lane} {i : Recency}
    (hq : q = { p.setLane r l with idle := i }) (hl : l.leased = (p.lane r).leased)
    (ha : l.available.length = (p.lane r).available.length + 1)
    (hi : i.length = p.idle.length + 1) :
    (∀ s, (q.lane s).allocated = (p.lane s).allocated + if s = r then 1 else 0) ∧
      q.allocated = p.allocated + 1 := by
  have hlanes : q.lanes = (p.setLane r l).lanes := hq ▸ rfl
  constructor
  · intro s
    rw [lane_of_edit hlanes]
    split
    · next hs => rw [hs, Lane.allocated, Lane.allocated, hl, ha, Nat.add_assoc]
    · rfl
  · subst hq
    change p.leased + i.length = p.leased + p.idle.length + 1
    rw [hi, Nat.add_assoc]

end Pool

namespace Pool

theorem grows_shutDown (w : Work) : w.pool.Grows w.shutDown.2.pool := by
  cases hshut : w.pool.isShut with
  | true =>
    rw [Work.shutDown_of_shut hshut]
    exact Grows.refl _
  | false =>
    rw [Work.pool_shutDown hshut]
    exact grows_of_le rfl (fun _ => Nat.zero_le _) (Nat.zero_le _)

end Pool

namespace Sound

variable {w : Work}

theorem allocated_keep (h : Sound (.reuse e ::ₘ held) w.pool) (hopen : w.pool.isShut = false)
    (v : Option Span) :
    let q := (Work.keep m e.record e.conn v { w with pool := w.pool.freed e.record }).pool
    (∀ s, (q.lane s).allocated = (w.pool.lane s).allocated) ∧ q.allocated = w.pool.allocated := by
  obtain ⟨hroute, htotal⟩ := h.allocated_freed hopen
  have hfreed : Sound held (w.pool.freed e.record) := h.freed (h.mem_leased hopen)
  have hperm := Recency.add_perm (m := ⟨e.id, e.record.route, m.now⟩)
    (hfreed.not_mem_idle h.not_mem_freed)
  obtain ⟨hlane, hall⟩ := Pool.allocated_stock (r := e.record.route)
    (q := (Work.keep m e.record e.conn v { w with pool := w.pool.freed e.record }).pool)
    rfl rfl rfl hperm.length_eq
  exact ⟨fun s => (hlane s).trans (hroute s), hall.trans htotal⟩

theorem allocated_putBack (h : Sound (.reuse e ::ₘ held) w.pool) (hopen : w.pool.isShut = false) :
    (∀ s, ((w.putBack e).pool.lane s).allocated = (w.pool.lane s).allocated) ∧
      (w.putBack e).pool.allocated = w.pool.allocated := by
  obtain ⟨hroute, htotal⟩ := h.allocated_freed hopen
  have hfreed : Sound held (w.pool.freed e.record) := h.freed (h.mem_leased hopen)
  have hperm := Recency.reinsert_perm (m := e.mark) hfreed.idle_ids
    (hfreed.not_mem_idle h.not_mem_freed)
  obtain ⟨hlane, hall⟩ := Pool.allocated_stock (r := e.record.route)
    (l := Lane.reinsert e ((w.pool.freed e.record).lane e.record.route))
    (q := (w.putBack e).pool) (by rw [h.putBack_eq hopen]; rfl) rfl
    (Lane.reinsert_perm e _).length_eq hperm.length_eq
  exact ⟨fun s => (hlane s).trans (hroute s), hall.trans htotal⟩

end Sound

theorem Sound.grows_takeOut (h : Sound held p) (he : e ∈ (p.lane e.record.route).available) :
    p.Grows (p.takeOut e) := by
  obtain ⟨hroute, htotal⟩ := h.allocated_takeOut he
  exact Pool.grows_of_le rfl (fun r => hroute r ▸ Nat.le_add_right _ _) (htotal ▸ Nat.le_succ _)

theorem Shed.grows (hs : s.IsSound) (h : Shed s t) : s.work.pool.Grows t.work.pool := by
  cases h with
  | relane f hf => exact hf.grows
  | report => exact Pool.Grows.refl _
  | close he => exact Sound.grows_takeOut hs he
  | evict r he => exact (Sound.grows_takeOut hs he).trans (Pool.relanes_pull _ _).grows

theorem Gain.grows (hs : s.IsSound) (h : Gain m s t) : s.work.pool.Grows t.work.pool := by
  cases h with
  | shed h => exact h.grows hs
  | @reuse h c w e rest he =>
    obtain ⟨hroute, htotal⟩ := Sound.allocated_takeOut (e := e) hs (by simp [he])
    refine Pool.grows_of_le rfl (fun r => ?_) ?_
    · rw [← hroute r]
      exact Pool.allocated_lease_le e.record r
    · have htotal : (w.pool.takeOut e).leased + (w.pool.takeOut e).idle.length + 1 =
          w.pool.allocated := htotal
      change (w.pool.takeOut e).leased + 1 + (w.pool.takeOut e).idle.length ≤ w.pool.allocated
      omega
  | @reserve h c w r hopen hnone hroute htotal =>
    have hle (s : Route) := Pool.allocated_lease_le
      (p := { w.pool with lastEntry := w.pool.lastEntry + 1 }) (w.reserve m r).1 s
    refine ⟨rfl, fun s => ?_, le_max_of_le_right ?_⟩
    · apply (hle s).trans
      split
      · next hs =>
        obtain rfl : s = r := hs
        exact le_max_of_le_right hroute
      · exact le_max_left _ _
    · change w.pool.leased + 1 + w.pool.idle.length ≤ _
      rw [Pool.allocated] at htotal
      change _ ≤ w.pool.limits.total
      omega

theorem Serve.grows (hs : s.IsSound) (h : Serve m s t) : s.work.pool.Grows t.work.pool := by
  cases h with
  | gain h => exact h.grows hs
  | @grant h c w g id hid =>
    rw [Work.grant_eq g (hs.head_pending hid)]
    exact Pool.grows_withdraw id _

theorem Trade.grows (hs : s.IsSound) (h : Trade m s t) : s.work.pool.Grows t.work.pool := by
  cases h with
  | serve h => exact h.grows hs
  | free hopen =>
    obtain ⟨hroute, htotal⟩ := Sound.allocated_freed hs hopen
    exact Pool.grows_of_le rfl (fun r => hroute r ▸ Nat.le_add_right _ _) (htotal ▸ Nat.le_succ _)
  | keep v hopen =>
    obtain ⟨hroute, htotal⟩ := Sound.allocated_keep (m := m) hs hopen v
    exact Pool.grows_of_le rfl (fun s => (hroute s).le) htotal.le
  | number hn => exact Pool.grows_of_le rfl (fun _ => le_rfl) le_rfl
  | @enqueue h c w id r => exact Pool.grows_of_edit (r := r) rfl rfl rfl rfl rfl rfl
  | enter => exact Pool.grows_of_le rfl (fun _ => le_rfl) le_rfl
  | refuse => exact Pool.grows_withdraw _ _
  | quit => exact Pool.grows_withdraw _ _
  | collect => exact Pool.grows_of_le rfl (fun _ => le_rfl) le_rfl
  | connect => exact Pool.Grows.refl _
  | lose => exact Pool.Grows.refl _
  | shut => exact Pool.grows_shutDown _

theorem Move.grows (hs : s.IsSound) (h : Move m s t) : s.work.pool.Grows t.work.pool := by
  cases h with
  | trade h => exact h.grows hs
  | @restore h c w e hopen =>
    obtain ⟨hroute, htotal⟩ := Sound.allocated_putBack hs hopen
    refine Pool.grows_of_le ?_ (fun s => (hroute s).le) htotal.le
    rw [Sound.putBack_eq hs hopen]
    rfl

theorem Trade.bounded (hs : s.IsSound) (h : Trade m s t) (hb : s.work.pool.Bounded) :
    t.work.pool.Bounded := by
  have hg := h.grows hs
  cases h with
  | serve h => exact hb.draws hg (h.draws hs)
  | @free h c w g hopen =>
    refine hb.grows hg (fun r hr => ?_) id
    change ((w.pool.freed g.record).lane r).available = []
    rw [Pool.lane_freed]
    split
    · next heq => exact heq ▸ hr
    · exact hr
  | @keep h c w e v hopen hroute htotal =>
    obtain ⟨hkeep, hkeepTotal⟩ := Sound.allocated_keep (m := m) hs hopen v
    obtain ⟨hfreed, hfreedTotal⟩ := Sound.allocated_freed (g := .reuse e) hs hopen
    refine ⟨fun s hne => ?_, fun _ => (hkeepTotal.trans hfreedTotal.symm).le.trans htotal⟩
    apply (hkeep s).le.trans
    -- the limits were looked at with the slot freed, and the connection takes its place
    by_cases hsr : s = e.record.route
    · subst hsr
      have hone : ((w.pool.freed e.record).lane e.record.route).allocated + 1 =
          (w.pool.lane e.record.route).allocated :=
        (congrArg (_ + ·) (if_pos rfl).symm).trans (hfreed e.record.route)
      exact hone ▸ hroute
    · refine hb.route s fun hnil => hne ?_
      have hlane := Pool.lane_of_edit (p := w.pool.freed e.record) (r := e.record.route)
        (q := (Work.keep m e.record e.conn v { w with pool := w.pool.freed e.record }).pool) rfl s
      rw [hlane, if_neg hsr, Pool.lane_freed, if_neg hsr]
      exact hnil
  | number => exact hb.grows hg (fun _ => id) id
  | enqueue => exact hb.draws hg (Pool.draws_enqueue _ _ _)
  | enter => exact hb.grows hg (fun _ => id) id
  | refuse => exact hb.draws hg (Pool.draws_withdraw _ _)
  | quit => exact hb.draws hg (Pool.draws_withdraw _ _)
  | collect => exact hb.grows hg (fun _ => id) id
  | connect => exact hb
  | lose => exact hb
  | @shut h c w =>
    cases hshut : w.pool.isShut with
    | true => rwa [Work.shutDown_of_shut hshut]
    | false =>
      have hpool : w.shutDown.2.pool = w.pool.torn := Work.pool_shutDown hshut
      exact hb.grows hg (fun r _ => by rw [hpool]; rfl) (fun _ => by rw [hpool]; rfl)

theorem Trades.bounded (hs : s.IsSound) (h : Trades m s t) (hb : s.work.pool.Bounded) :
    t.work.pool.Bounded := by
  induction h with
  | refl => exact hb
  | tail hsu hst ih => exact hst.bounded (hs.trades hsu) ih

theorem Moves.grows (hs : s.IsSound) (h : Moves m s t) : s.work.pool.Grows t.work.pool := by
  induction h with
  | refl => exact Pool.Grows.refl _
  | tail hsu hst ih => exact ih.trans (hst.grows (hs.moves hsu))

theorem Sheds.route_le (h : Sheds s t) {k : Nat}
    (hs : (s.work.pool.lane r).available ≠ [] → (s.work.pool.lane r).allocated ≤ k) :
    (t.work.pool.lane r).available ≠ [] → (t.work.pool.lane r).allocated ≤ k := by
  intro hne
  have hd := h.draws
  refine le_trans ?_ (hs fun hnil => hne (hd.available_eq_nil hnil))
  rw [Lane.allocated, h.sameSlots.leased, Lane.allocated]
  exact Nat.add_le_add_left (hd.available r).length_le _

theorem Sheds.total_le (h : Sheds s t) {k : Nat}
    (hs : s.work.pool.idle ≠ [] → s.work.pool.allocated ≤ k) :
    t.work.pool.idle ≠ [] → t.work.pool.allocated ≤ k := by
  intro hne
  have hd := h.draws
  refine le_trans ?_ (hs fun hnil => hne (hd.idle_eq_nil hnil))
  rw [Pool.allocated, h.sameSlots.total, Pool.allocated]
  exact Nat.add_le_add_left hd.idle.length_le _

end ConnectionPool
