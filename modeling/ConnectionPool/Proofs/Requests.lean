import ConnectionPool.Proofs.Soundness

namespace ConnectionPool

variable {held held' : Multiset Grant} {p q : Pool} {g : Grant} {id : RequestId} {r : Route}

@[simp] theorem Slot.grants_pending (r : Route) : Slot.grants { route := r } = 0 := rfl

@[simp] theorem Slot.grants_granted (r : Route) (g : Grant) :
    Slot.grants { route := r, outcome := .granted g } = {g} := rfl

@[simp] theorem Slot.grants_failed (r : Route) (f : Refusal) :
    Slot.grants { route := r, outcome := .failed f } = 0 := rfl

theorem Slot.mem_grants {s : Slot} : g ∈ s.grants ↔ s.outcome = .granted g := by
  cases h : s.outcome <;> simp [grants, h, eq_comm]

namespace Pool

namespace Queued

theorem waiting_keys (h : p.Queued) : p.waiting.keys.Nodup :=
  h.sorted.imp fun hlt heq => absurd hlt (by simp [heq])

theorem get?_waiting (h : p.Queued) :
    p.waiting.get? id = some r ↔ p.requests.get? id = some { route := r } := by
  rw [Table.get?_eq_some_iff h.waiting_keys, h.pending]

theorem mem_queue (h : p.Queued) :
    id ∈ (p.lane r).queue ↔ p.requests.get? id = some { route := r } := by
  rw [h.queue, ← h.pending]
  simp

end Queued

def unqueue (id : RequestId) (r : Route) (p : Pool) : Pool :=
  { p.setLane r ((p.lane r).dequeue id) with waiting := p.waiting.remove id }

theorem withdraw_eq (h : p.waiting.get? id = some r) :
    p.withdraw id = (p.unqueue id r).prune r := by
  rw [withdraw, h]
  rfl

theorem relanes_withdraw (h : p.waiting.get? id = some r) (rs : Table RequestId Slot) :
    Relanes { p.unqueue id r with requests := rs } { p.withdraw id with requests := rs } := by
  have hprune := relanes_prune (p.unqueue id r) r
  rw [withdraw_eq h]
  exact ⟨by rw [hprune.rest], hprune.tidy, hprune.lane⟩

theorem lane_unqueue (id : RequestId) (r s : Route) (p : Pool) : (p.unqueue id r).lane s =
    if s = r then (p.lane r).dequeue id else p.lane s :=
  lane_of_edit rfl s

theorem lane_withdraw (h : p.waiting.get? id = some r) (s : Route) : (p.withdraw id).lane s =
    if s = r then (p.lane r).dequeue id else p.lane s := by
  rw [withdraw_eq h, lane_prune, lane_unqueue]

theorem waiting_withdraw (h : p.waiting.get? id = some r) :
    (p.withdraw id).waiting = p.waiting.remove id := by
  rw [withdraw_eq h, (relanes_prune _ r).waiting]
  rfl

theorem lastEntry_withdraw (id : RequestId) (p : Pool) :
    (p.withdraw id).lastEntry = p.lastEntry := by
  unfold withdraw
  split
  · rw [(relanes_prune _ _).rest]
    rfl
  · rfl

theorem requests_withdraw (id : RequestId) (p : Pool) :
    (p.withdraw id).requests = p.requests := by
  unfold withdraw
  split
  · rw [(relanes_prune _ _).rest]
    rfl
  · rfl

theorem stock_withdraw (hp : p.Tidy) (h : p.waiting.get? id = some r) :
    (p.withdraw id).stock = p.stock := by
  have hprune := relanes_prune (p.unqueue id r) r
  have ht : (p.unqueue id r).Tidy := hp.setLane r _
  rw [withdraw_eq h, stock_relane ht hprune]
  exact stock_eq_of_edit rfl rfl

theorem stock_enqueue (id : RequestId) (r : Route) (p : Pool) : (p.enqueue id r).stock = p.stock :=
  stock_eq_of_edit (r := r) rfl rfl

theorem census_eq (hstock : q.stock = p.stock) (hg : held' + q.grants = held + p.grants) :
    q.census held' = p.census held := by
  rw [census, hg, hstock, census]

theorem Queued.leave {rs : Table RequestId Slot} (hp : p.Queued)
    (hid : p.requests.get? id = some { route := r })
    (hother : ∀ x, x ≠ id → rs.get? x = p.requests.get? x)
    (hself : ∀ s, rs.get? id ≠ some { route := s })
    (hkeys : rs.keys.Nodup) (hsub : ∀ x ∈ rs.keys, x ∈ p.requests.keys) :
    Queued { p.unqueue id r with requests := rs } := by
  have hw : p.waiting.get? id = some r := hp.get?_waiting.2 hid
  generalize hq : ({ p.unqueue id r with requests := rs } : Pool) = q
  have hlanes : q.lanes = (p.setLane r ((p.lane r).dequeue id)).lanes := hq ▸ rfl
  have hwaiting : q.waiting = p.waiting.filter (·.1 ≠ id) := by
    rw [← Table.remove_eq_filter]
    exact hq ▸ rfl
  have hrequests : q.requests = rs := hq ▸ rfl
  have hlast : q.lastRequest = p.lastRequest := hq ▸ rfl
  exact {
    queue := by
      intro s
      rw [lane_of_edit hlanes, hwaiting, List.filter_filter]
      split
      · next hs =>
        subst hs
        have hn : ((p.waiting.filter (·.2 = s)).map Prod.fst).Nodup :=
          hp.waiting_keys.sublist (List.filter_sublist.map _)
        change (p.lane s).queue.erase id = _
        rw [hp.queue, hn.erase_eq_filter, List.filter_map, List.filter_filter]
        refine congrArg (List.map Prod.fst) (List.filter_congr fun x _ => ?_)
        by_cases hx : x.1 = id <;> simp [hx]
      · next hs =>
        rw [hp.queue]
        refine congrArg (List.map Prod.fst) (List.filter_congr fun x hx => ?_)
        have hne : x.2 = s → x.1 ≠ id := by
          rintro hxs rfl
          have hxr : p.waiting.get? x.1 = some x.2 :=
            Table.get?_eq_some_of_mem hp.waiting_keys hx
          exact hs (hxs ▸ Option.some.inj (hxr.symm.trans hw))
        simpa using hne
    sorted := by
      rw [hwaiting]
      exact hp.sorted.sublist (List.filter_sublist.map _)
    pending := by
      intro x s
      rw [hwaiting, hrequests, List.mem_filter, hp.pending]
      by_cases hx : x = id
      · subst hx
        simpa using hself s
      · simp [hother x hx, hx]
    keys := hrequests ▸ hkeys
    numbers := by
      intro x hx
      rw [hlast]
      exact hp.numbers x (hsub x (hrequests ▸ hx)) }

theorem Queued.enqueue (hp : p.Queued) (hnew : ∀ x ∈ p.requests.keys, x.number < id.number)
    (hle : id.number ≤ p.lastRequest) :
    Queued { p.enqueue id r with requests := p.requests.put id { route := r } } := by
  generalize hq : ({ p.enqueue id r with requests := p.requests.put id { route := r } } : Pool) = q
  have hlanes : q.lanes = (p.setLane r ((p.lane r).enqueue id)).lanes := hq ▸ rfl
  have hrequests : q.requests = p.requests.put id { route := r } := hq ▸ rfl
  have hlast : q.lastRequest = p.lastRequest := hq ▸ rfl
  have hnone : p.requests.get? id = none :=
    Table.get?_eq_none_iff.2 fun hid => absurd (hnew id hid) (lt_irrefl _)
  have hlt : ∀ x ∈ p.waiting, x.1.number < id.number := by
    intro x hx
    have hx := (hp.pending x.1 x.2).1 hx
    exact hnew x.1 (Table.mem_keys_of_mem (Table.mem_of_get?_eq_some hx))
  have hfresh : ∀ s, (id, s) ∉ p.waiting := fun s hs => absurd (hlt _ hs) (lt_irrefl _)
  have hwaiting : q.waiting = p.waiting ++ [(id, r)] := by
    have hw : p.waiting.get? id = none := by
      rw [Option.eq_none_iff_forall_ne_some]
      exact fun s hs => hfresh s (Table.mem_of_get?_eq_some hs)
    rw [← Table.put_of_get?_eq_none r hw]
    exact hq ▸ rfl
  exact {
    queue := by
      intro s
      rw [lane_of_edit hlanes, hwaiting, List.filter_append, List.map_append, ← hp.queue]
      split
      · next hs => simp [hs, Lane.enqueue]
      · next hs => simp [Ne.symm hs]
    sorted := by
      rw [hwaiting, Table.keys, List.map_append, List.pairwise_append]
      refine ⟨hp.sorted, by simp, fun x hx y hy => ?_⟩
      obtain ⟨z, hz, rfl⟩ := List.mem_map.1 hx
      obtain rfl : y = id := by simpa using hy
      exact hlt z hz
    pending := by
      intro x s
      rw [hwaiting, hrequests, List.mem_append]
      by_cases hx : x = id
      · subst hx
        simp [hfresh, eq_comm]
      · rw [hp.pending, Table.get?_put_of_ne _ _ (Ne.symm hx)]
        simp [hx]
    keys := hrequests ▸ Table.nodup_keys_put id _ hp.keys
    numbers := by
      intro x hx
      rw [hlast]
      rw [hrequests, Table.mem_keys_put] at hx
      rcases hx with rfl | hx
      · exact hle
      · exact hp.numbers x hx }

theorem grants_put (h : p.requests.get? id = some { route := r }) (s : Slot) :
    (p.requests.put id s).total (fun _ s => s.grants) = p.grants + s.grants := by
  have ht := Table.total_put (fun _ s => Slot.grants s) p.requests id s
  rwa [h, Option.elim_some, Slot.grants_pending, add_zero] at ht

theorem grants_put_new (h : p.requests.get? id = none) (s : Slot) :
    (p.requests.put id s).total (fun _ s => s.grants) = p.grants + s.grants :=
  Table.total_put_of_get?_eq_none (fun _ s => Slot.grants s) s h

theorem get?_eq_none_of_lt (h : ∀ x ∈ p.requests.keys, x.number < id.number) :
    p.requests.get? id = none :=
  Table.get?_eq_none_iff.2 fun hid => absurd (h id hid) (lt_irrefl _)

theorem grants_remove (hp : p.Queued) {s : Slot} (h : p.requests.get? id = some s) :
    (p.requests.remove id).total (fun _ s => s.grants) + s.grants = p.grants := by
  have ht := Table.total_remove (fun _ s => Slot.grants s) id hp.keys
  rwa [h] at ht

end Pool

namespace Sound

theorem regrant (h : Sound held p) (hq : q.Queued) (ht : q.Tidy)
    (ha : ∀ s, (q.lane s).available = (p.lane s).available) (hslots : q.slots = p.slots)
    (hstock : q.stock = p.stock) (hi : q.idle = p.idle) (hn : q.leased = p.leased)
    (hs : q.isShut = p.isShut) (he : q.lastEntry = p.lastEntry)
    (hg : held' + q.grants = held + p.grants)
    (hshut : p.isShut = true → (∀ s, q.lane s = {}) ∧ q.waiting = [] ∧ q.grants = 0) :
    Sound held' q := by
  have hcensus : q.census held' = p.census held := Pool.census_eq hstock hg
  exact {
    tidy := ht
    queued := hq
    home := fun s e hse => h.home s e (ha s ▸ hse)
    idle := by rw [hi, hstock, h.idle]
    leased := by rw [hn, hslots, h.leased]
    slots := by rw [hs, hslots, hg]; exact h.slots
    ids := hcensus ▸ h.ids
    issued := fun g hgm => he ▸ h.issued g (hcensus ▸ hgm)
    shut := hs ▸ hshut }

theorem isShut_eq_false_of_pending (h : Sound held p)
    (hid : p.requests.get? id = some { route := r }) : p.isShut = false := by
  by_contra hs
  have hw := (h.queued.pending id r).2 hid
  rw [(h.shut (by simpa using hs)).2.1] at hw
  simp at hw

theorem mem_grants (h : Sound held p) :
    g ∈ p.grants ↔ ∃ id r, p.requests.get? id = some { route := r, outcome := .granted g } := by
  rw [Pool.grants, Table.mem_total]
  constructor
  · rintro ⟨⟨id, r, o⟩, hmem, hg⟩
    obtain rfl : o = .granted g := Slot.mem_grants.1 hg
    exact ⟨id, r, Table.get?_eq_some_of_mem h.queued.keys hmem⟩
  · rintro ⟨id, r, hid⟩
    exact ⟨_, Table.mem_of_get?_eq_some hid, Multiset.mem_singleton_self g⟩

theorem isShut_eq_false_of_granted (h : Sound held p)
    (hid : p.requests.get? id = some { route := r, outcome := .granted g }) : p.isShut = false := by
  by_contra hs
  have hg := h.mem_grants.2 ⟨id, r, hid⟩
  rw [(h.shut (by simpa using hs)).2.2] at hg
  exact Multiset.notMem_zero g hg

theorem leave {rs : Table RequestId Slot} (h : Sound held p)
    (hid : p.requests.get? id = some { route := r })
    (hother : ∀ x, x ≠ id → rs.get? x = p.requests.get? x)
    (hself : ∀ s, rs.get? id ≠ some { route := s })
    (hkeys : rs.keys.Nodup) (hsub : ∀ x ∈ rs.keys, x ∈ p.requests.keys)
    (hg : held' + rs.total (fun _ s => s.grants) = held + p.grants) :
    Sound held' { p.withdraw id with requests := rs } := by
  have hqueued := h.queued.leave hid hother hself hkeys hsub
  have hopen := h.isShut_eq_false_of_pending hid
  refine relane ?_ (Pool.relanes_withdraw (h.queued.get?_waiting.2 hid) rs)
  refine h.regrant hqueued (Pool.tidy_of_edit rfl h.tidy) (fun s => ?_)
    (Pool.slots_eq_of_edit rfl rfl) (Pool.stock_eq_of_edit rfl rfl) rfl rfl rfl rfl hg
    fun hs => absurd hs (by simp [hopen])
  change ((p.unqueue id r).lane s).available = _
  rw [Pool.lane_unqueue]
  split
  · next hs => rw [hs, Lane.dequeue]
  · rfl

theorem settle {s : Slot} (h : Sound held p) (hid : p.requests.get? id = some { route := r })
    (hs : s.isPending = false) (hg : held = s.grants + held') :
    Sound held' { p.withdraw id with requests := p.requests.put id s } := by
  -- the grant leaves what is held and enters the slot, so the census stays
  refine h.leave hid (fun x hx => Table.get?_put_of_ne _ _ (Ne.symm hx)) ?_
    (Table.nodup_keys_put id s h.queued.keys) ?_ ?_
  · intro t ht
    rw [Table.get?_put_self, Option.some.injEq] at ht
    rw [ht] at hs
    simp [Slot.isPending] at hs
  · intro x hx
    rcases Table.mem_keys_put.1 hx with rfl | hx
    · exact Table.mem_keys_of_mem (Table.mem_of_get?_eq_some hid)
    · exact hx
  · rw [Pool.grants_put hid, hg]
    ac_rfl

theorem quit (h : Sound held p) (hid : p.requests.get? id = some { route := r }) :
    Sound held { p.withdraw id with requests := p.requests.remove id } := by
  refine h.leave hid (fun x hx => Table.get?_remove_of_ne _ (Ne.symm hx)) ?_
    (Table.nodup_keys_remove id h.queued.keys) (fun x hx => (Table.mem_keys_remove.1 hx).2) ?_
  · intro s
    simp
  · have hr := Pool.grants_remove h.queued hid
    rw [Slot.grants_pending, add_zero] at hr
    rw [hr]

theorem enqueue (h : Sound held p) (hopen : p.isShut = false)
    (hnew : ∀ x ∈ p.requests.keys, x.number < id.number) (hle : id.number ≤ p.lastRequest) :
    Sound held { p.enqueue id r with requests := p.requests.put id { route := r } } := by
  refine h.regrant (h.queued.enqueue hnew hle) (Pool.tidy_of_edit rfl h.tidy) ?_
    (Pool.slots_eq_of_edit rfl rfl) (Pool.stock_eq_of_edit rfl rfl) rfl rfl rfl rfl
    ?_ fun hs => absurd hs (by simp [hopen])
  · intro s
    change ((p.setLane r ((p.lane r).enqueue id)).lane s).available = _
    rw [Pool.lane_of_edit (p := p) rfl]
    split
    · next hs => rw [hs, Lane.enqueue]
    · rfl
  · have ht := Pool.grants_put_new (Pool.get?_eq_none_of_lt hnew) { route := r }
    rw [Slot.grants_pending, add_zero] at ht
    exact congrArg (held + ·) ht

theorem enter (h : Sound (g ::ₘ held) p) (hopen : p.isShut = false)
    (hnew : ∀ x ∈ p.requests.keys, x.number < id.number) (hle : id.number ≤ p.lastRequest) :
    Sound held
      { p with requests := p.requests.put id { route := r, outcome := .granted g } } := by
  have hnone : p.requests.get? id = none := Pool.get?_eq_none_of_lt hnew
  refine h.regrant ?_ h.tidy (fun _ => rfl) rfl rfl rfl rfl rfl rfl ?_
    fun hs => absurd hs (by simp [hopen])
  · exact {
      queue := h.queued.queue
      sorted := h.queued.sorted
      pending := by
        intro x s
        by_cases hx : x = id
        · subst hx
          rw [h.queued.pending, hnone, Table.get?_put_self]
          simp
        · rw [h.queued.pending, Table.get?_put_of_ne _ _ (Ne.symm hx)]
      keys := Table.nodup_keys_put id _ h.queued.keys
      numbers := by
        intro x hx
        rcases Table.mem_keys_put.1 hx with rfl | hx
        · exact hle
        · exact h.queued.numbers x hx }
  · change held + (p.requests.put id _).total (fun _ s => s.grants) = _
    rw [Pool.grants_put_new hnone, Slot.grants_granted, ← Multiset.singleton_add g held]
    ac_rfl

theorem collect {s : Slot} (h : Sound held p) (hid : p.requests.get? id = some s)
    (hs : s.isPending = false) :
    Sound (s.grants + held) { p with requests := p.requests.remove id } := by
  have hg := Pool.grants_remove h.queued hid
  refine h.regrant ?_ h.tidy (fun _ => rfl) rfl rfl rfl rfl rfl rfl ?_ ?_
  · exact {
      queue := h.queued.queue
      sorted := h.queued.sorted
      pending := by
        intro x r
        by_cases hx : x = id
        · subst hx
          rw [h.queued.pending, hid, Table.get?_remove_self]
          simp only [Option.some.injEq, reduceCtorEq, iff_false]
          rintro rfl
          simp [Slot.isPending] at hs
        · rw [h.queued.pending, Table.get?_remove_of_ne _ (Ne.symm hx)]
      keys := Table.nodup_keys_remove id h.queued.keys
      numbers := fun x hx => h.queued.numbers x (Table.mem_keys_remove.1 hx).2 }
  · rw [← hg, Pool.grants]
    ac_rfl
  · intro hshut
    obtain ⟨hl, hw, hz⟩ := h.shut hshut
    refine ⟨hl, hw, ?_⟩
    rw [hz] at hg
    exact Multiset.le_zero.1 (hg ▸ Multiset.le_add_right _ _)

end Sound

end ConnectionPool
