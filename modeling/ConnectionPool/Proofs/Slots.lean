import ConnectionPool.Proofs.Soundness

namespace ConnectionPool

variable {held : Multiset Grant} {p q : Pool} {g : Grant} {e : Idle} {r : Route}

theorem Lane.reinsert_perm (e : Idle) (l : Lane) :
    (l.reinsert e).available.Perm (e :: l.available) := by
  have hp := @List.perm_middle _ e
    (l.available.takeWhile fun x => e.record.updated < x.record.updated)
    (l.available.dropWhile fun x => e.record.updated < x.record.updated)
  rwa [List.takeWhile_append_dropWhile] at hp

namespace Pool

def freed (t : Record) (p : Pool) : Pool :=
  { p.setLane t.route
      { p.lane t.route with leased := (p.lane t.route).leased.erase t.id } with
    leased := p.leased - 1 }

theorem stock_takeOut (he : e ∈ (p.lane e.record.route).available) :
    e ::ₘ (p.takeOut e).stock = p.stock := by
  have h := stock_of_edit (q := p.takeOut e) (r := e.record.route) rfl
  rw [← Multiset.coe_eq_coe.2 (List.perm_cons_erase he).symm, ← Multiset.cons_coe,
    Multiset.add_cons, ← Multiset.cons_add] at h
  exact add_right_cancel h

theorem slots_takeOut (e : Idle) (p : Pool) : (p.takeOut e).slots = p.slots :=
  slots_eq_of_edit rfl rfl

theorem census_takeOut (he : e ∈ (p.lane e.record.route).available) :
    .reuse e ::ₘ (p.takeOut e).census held = p.census held := by
  rw [census, census, ← stock_takeOut he, Multiset.map_cons, Multiset.add_cons]
  rfl

theorem lane_takeOut (s : Route) : (p.takeOut e).lane s =
    if s = e.record.route then
      { p.lane e.record.route with available := (p.lane e.record.route).available.erase e }
    else p.lane s :=
  lane_of_edit rfl s

theorem Relanes.takeOut (h : p.Relanes q) (e : Idle) : (p.takeOut e).Relanes (q.takeOut e) where
  rest := by
    rw [h.rest]
    rfl
  tidy hp := by
    have hkeys := Table.keys_sublist_put p.lanes e.record.route
      { p.lane e.record.route with available := (p.lane e.record.route).available.erase e }
    exact (h.tidy (List.Nodup.sublist hkeys hp)).setLane _ _
  lane s := by rw [lane_takeOut, lane_takeOut, h.lane, h.lane]

theorem census_pull (ht : p.Tidy) (he : e ∈ (p.lane e.record.route).available) :
    .reuse e ::ₘ (p.pull e).census held = p.census held := by
  have hout : (p.takeOut e).Tidy := tidy_of_edit rfl ht
  rw [census_relane hout (relanes_pull e p), census_takeOut he]

theorem slots_lease {t : Record} (ht : t.id ∉ (p.lane t.route).leased) :
    (p.lease t).slots = (t.route, t.id) ::ₘ p.slots := by
  have h := slots_of_edit (q := p.lease t) (r := t.route) rfl
  rw [Lane.lease, List.insert_of_not_mem ht, List.map_cons, ← Multiset.cons_coe,
    Multiset.add_cons, ← Multiset.cons_add] at h
  exact add_right_cancel h

theorem stock_lease (t : Record) (p : Pool) : (p.lease t).stock = p.stock :=
  stock_eq_of_edit rfl rfl

theorem census_lease (g : Grant) (p : Pool) :
    (p.lease g.record).census (g ::ₘ held) = g ::ₘ p.census held := by
  rw [census, census, stock_lease, Multiset.cons_add, Multiset.cons_add]
  rfl

theorem lane_lease {t : Record} (s : Route) :
    (p.lease t).lane s = if s = t.route then (p.lane t.route).lease t.id else p.lane s :=
  lane_of_edit rfl s

theorem unlease?_eq_some_iff {t : Record} : p.unlease? t = some q ↔
    p.isShut = false ∧ t.id ∈ (p.lane t.route).leased ∧ p.freed t = q := by
  unfold unlease? Lane.unlease? freed
  cases p.isShut with
  | true => simp
  | false =>
    by_cases ht : t.id ∈ (p.lane t.route).leased
    · simp only [ht, if_true, Option.map_some, Option.some.injEq, Bool.false_eq_true, if_false,
        true_and]
    · simp [ht]

theorem slots_freed {t : Record} (ht : t.id ∈ (p.lane t.route).leased) :
    (t.route, t.id) ::ₘ (p.freed t).slots = p.slots := by
  have h := slots_of_edit (q := p.freed t) (r := t.route) rfl
  rw [← Multiset.coe_eq_coe.2 ((List.perm_cons_erase ht).map (Prod.mk t.route)).symm,
    List.map_cons, ← Multiset.cons_coe, Multiset.add_cons, ← Multiset.cons_add] at h
  exact add_right_cancel h

theorem stock_freed (t : Record) (p : Pool) : (p.freed t).stock = p.stock :=
  stock_eq_of_edit rfl rfl

theorem census_freed (g : Grant) (p : Pool) :
    g ::ₘ (p.freed g.record).census held = p.census (g ::ₘ held) := by
  rw [census, census, stock_freed, Multiset.cons_add, Multiset.cons_add]
  rfl

theorem lane_freed {t : Record} (s : Route) : (p.freed t).lane s =
    if s = t.route then
      { p.lane t.route with leased := (p.lane t.route).leased.erase t.id }
    else p.lane s :=
  lane_of_edit rfl s

theorem stock_restock {l : Lane} (hq : q.lanes = (p.setLane r l).lanes)
    (ha : l.available.Perm (e :: (p.lane r).available)) : q.stock = e ::ₘ p.stock := by
  have hs := stock_of_edit hq
  rw [Multiset.coe_eq_coe.2 ha, ← Multiset.cons_coe, Multiset.add_cons, ← Multiset.cons_add] at hs
  exact add_right_cancel hs

theorem census_restock (hstock : q.stock = e ::ₘ p.stock) (hr : q.requests = p.requests) :
    q.census held = .reuse e ::ₘ p.census held := by
  have hgrants : q.grants = p.grants := by rw [grants, hr, grants]
  rw [census, hstock, hgrants, Multiset.map_cons, Multiset.add_cons]
  rfl

end Pool

namespace Sound

theorem takeOut (h : Sound held p) (he : e ∈ (p.lane e.record.route).available) :
    Sound held (p.takeOut e) := by
  have hopen : p.isShut = false := by
    refine h.isShut_eq_false (r := e.record.route) fun hl => ?_
    rw [hl] at he
    simp at he
  have hcensus : .reuse e ::ₘ (p.takeOut e).census held = p.census held :=
    Pool.census_takeOut he
  have hle : (p.takeOut e).census held ≤ p.census held := hcensus ▸ Multiset.le_cons_self _ _
  exact {
    tidy := Pool.tidy_of_edit rfl h.tidy
    queued := h.queued.of_edit (r := e.record.route) rfl rfl rfl rfl le_rfl
    home := by
      intro s d hd
      rw [Pool.lane_takeOut] at hd
      split at hd
      · next hs => exact hs ▸ h.home _ d (List.mem_of_mem_erase hd)
      · exact h.home s d hd
    idle := by
      change ((p.idle.erase e.mark : List Mark) : Multiset Mark) = _
      rw [← Multiset.coe_erase, h.idle, ← Pool.stock_takeOut he, Multiset.map_cons,
        Multiset.erase_cons_head]
    leased := by rw [Pool.slots_takeOut]; exact h.leased
    slots := by rw [Pool.slots_takeOut]; exact h.slots
    ids := Multiset.nodup_of_le (Multiset.map_le_map hle) h.ids
    issued := fun g hg => h.issued g (Multiset.mem_of_le hle hg)
    shut := fun hs => absurd hs (by simp [hopen, Pool.takeOut, Pool.updateLane, Pool.setLane]) }

theorem pull (h : Sound held p) (he : e ∈ (p.lane e.record.route).available) :
    Sound held (p.pull e) := (h.takeOut he).relane (Pool.relanes_pull e p)

theorem exists_of_leased (h : Sound held p) {id : EntryId} (hid : id ∈ (p.lane r).leased) :
    ∃ g ∈ held + p.grants, g.slot = (r, id) := by
  have hopen : p.isShut = false := by
    refine h.isShut_eq_false (r := r) fun hl => ?_
    rw [hl] at hid
    simp at hid
  have hmem : (r, id) ∈ p.slots := (Pool.mem_slots h.tidy).2 hid
  rw [h.slots hopen] at hmem
  exact Multiset.mem_map.1 hmem

theorem not_mem_leased (h : Sound held p) {id : EntryId}
    (hid : id ∉ (p.census held).map Grant.id) : id ∉ (p.lane r).leased := by
  intro hl
  obtain ⟨g, hg, hslot⟩ := h.exists_of_leased hl
  refine hid (Multiset.mem_map.2 ⟨g, Multiset.mem_add.2 (.inl hg), ?_⟩)
  exact congrArg Prod.snd hslot

theorem lease (h : Sound held p) (hopen : p.isShut = false)
    (hid : g.id ∉ (p.census held).map Grant.id) (hle : g.id.number ≤ p.lastEntry) :
    Sound (g ::ₘ held) (p.lease g.record) := by
  have hslots : (p.lease g.record).slots = g.slot ::ₘ p.slots :=
    Pool.slots_lease (h.not_mem_leased hid)
  have hstock : (p.lease g.record).stock = p.stock := Pool.stock_lease _ _
  have hcensus : (p.lease g.record).census (g ::ₘ held) = g ::ₘ p.census held :=
    Pool.census_lease g p
  exact {
    tidy := Pool.tidy_of_edit rfl h.tidy
    queued := h.queued.of_edit (r := g.record.route) rfl rfl rfl rfl le_rfl
    home := by
      intro s d hd
      rw [Pool.lane_lease] at hd
      split at hd
      · next hs => exact hs ▸ h.home _ d hd
      · exact h.home s d hd
    idle := hstock ▸ h.idle
    leased := by
      rw [hslots, Multiset.card_cons, ← h.leased]
      rfl
    slots := by
      intro hs
      rw [hslots, h.slots hopen, Multiset.cons_add, Multiset.map_cons]
      rfl
    ids := by
      rw [hcensus, Multiset.map_cons, Multiset.nodup_cons]
      exact ⟨hid, h.ids⟩
    issued := by
      intro d hd
      rw [hcensus, Multiset.mem_cons] at hd
      rcases hd with rfl | hd
      · exact hle
      · exact h.issued d hd
    shut := fun hs => absurd hs (by simp [hopen, Pool.lease, Pool.updateLane, Pool.setLane]) }

theorem mem_leased_of_mem (h : Sound held p) (hopen : p.isShut = false)
    (hg : g ∈ held + p.grants) : g.id ∈ (p.lane g.record.route).leased := by
  rw [← Pool.mem_slots h.tidy, h.slots hopen]
  exact Multiset.mem_map_of_mem Grant.slot hg

theorem mem_leased (h : Sound (g ::ₘ held) p) (hopen : p.isShut = false) :
    g.id ∈ (p.lane g.record.route).leased :=
  h.mem_leased_of_mem hopen (by simp)

theorem unlease?_eq (h : Sound (g ::ₘ held) p) (hopen : p.isShut = false) :
    p.unlease? g.record = some (p.freed g.record) :=
  Pool.unlease?_eq_some_iff.2 ⟨hopen, h.mem_leased hopen, rfl⟩

theorem freed (h : Sound (g ::ₘ held) p) (hl : g.id ∈ (p.lane g.record.route).leased) :
    Sound held (p.freed g.record) := by
  have hslots : g.slot ::ₘ (p.freed g.record).slots = p.slots := Pool.slots_freed hl
  have hstock : (p.freed g.record).stock = p.stock := Pool.stock_freed _ _
  have hcensus : g ::ₘ (p.freed g.record).census held = p.census (g ::ₘ held) :=
    Pool.census_freed g p
  have hopen : p.isShut = false := by
    refine h.isShut_eq_false (r := g.record.route) fun hs => ?_
    rw [hs] at hl
    simp at hl
  exact {
    tidy := Pool.tidy_of_edit rfl h.tidy
    queued := h.queued.of_edit (r := g.record.route) rfl rfl rfl rfl le_rfl
    home := by
      intro s d hd
      rw [Pool.lane_freed] at hd
      split at hd
      · next hs => exact hs ▸ h.home _ d hd
      · exact h.home s d hd
    idle := hstock ▸ h.idle
    leased := by
      change p.leased - 1 = _
      rw [h.leased, ← hslots, Multiset.card_cons, Nat.add_sub_cancel]
    slots := by
      intro hs
      have heq := h.slots hopen
      rw [← hslots, Multiset.cons_add, Multiset.map_cons] at heq
      exact (Multiset.cons_inj_right g.slot).1 heq
    ids := by
      have hn := h.ids
      rw [← hcensus, Multiset.map_cons, Multiset.nodup_cons] at hn
      exact hn.2
    issued := fun d hd => h.issued d (hcensus ▸ Multiset.mem_cons_of_mem hd)
    shut := fun hs => absurd hs (by simp [hopen, Pool.freed, Pool.setLane]) }

theorem not_mem_freed (h : Sound (g ::ₘ held) p) :
    g.id ∉ ((p.freed g.record).census held).map Grant.id := by
  have hn := h.ids
  rw [Pool.census, Multiset.cons_add, Multiset.cons_add, Multiset.map_cons,
    Multiset.nodup_cons] at hn
  rw [Pool.census, Pool.stock_freed _ _]
  exact hn.1

theorem restock {l : Lane} {i : Recency} (h : Sound held p) (hopen : p.isShut = false)
    (hid : e.id ∉ (p.census held).map Grant.id) (hle : e.id.number ≤ p.lastEntry)
    (hl : l.leased = (p.lane e.record.route).leased)
    (hq : l.queue = (p.lane e.record.route).queue)
    (ha : l.available.Perm (e :: (p.lane e.record.route).available))
    (hi : i.Perm (e.mark :: p.idle)) :
    Sound held { p.setLane e.record.route l with idle := i } := by
  generalize hp' : ({ p.setLane e.record.route l with idle := i } : Pool) = p'
  have hlanes : p'.lanes = (p.setLane e.record.route l).lanes := hp' ▸ rfl
  have hslots : p'.slots = p.slots := Pool.slots_eq_of_edit hlanes hl
  have hstock : p'.stock = e ::ₘ p.stock := Pool.stock_restock hlanes ha
  have hgrants : p'.grants = p.grants := hp' ▸ rfl
  have hcensus : p'.census held = .reuse e ::ₘ p.census held :=
    Pool.census_restock hstock (hp' ▸ rfl)
  exact {
    tidy := Pool.tidy_of_edit hlanes h.tidy
    queued := h.queued.of_edit hlanes hq (hp' ▸ rfl) (hp' ▸ rfl) (hp' ▸ le_rfl)
    home := by
      intro s d hd
      rw [Pool.lane_of_edit hlanes] at hd
      split at hd
      · next hs =>
        rcases List.mem_cons.1 (ha.mem_iff.1 hd) with rfl | hd
        · exact hs.symm
        · exact hs ▸ h.home _ d hd
      · exact h.home s d hd
    idle := by
      have hidle : p'.idle = i := hp' ▸ rfl
      rw [hidle, Multiset.coe_eq_coe.2 hi, ← Multiset.cons_coe, h.idle, hstock,
        Multiset.map_cons]
    leased := by
      rw [hslots, ← h.leased]
      exact hp' ▸ rfl
    slots := by
      intro _
      rw [hslots, hgrants]
      exact h.slots hopen
    ids := by
      rw [hcensus, Multiset.map_cons, Multiset.nodup_cons]
      exact ⟨hid, h.ids⟩
    issued := by
      intro d hd
      have hlast : p'.lastEntry = p.lastEntry := hp' ▸ rfl
      rw [hlast]
      rw [hcensus, Multiset.mem_cons] at hd
      rcases hd with rfl | hd
      · exact hle
      · exact h.issued d hd
    shut := by
      intro hs
      have hshut : p'.isShut = p.isShut := hp' ▸ rfl
      simp [hshut, hopen] at hs }

end Sound

end ConnectionPool
