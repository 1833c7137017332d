import ConnectionPool.Proofs.Outcome
import ConnectionPool.Proofs.Precedence
import ConnectionPool.Proofs.Pruning
import Mathlib.Algebra.GroupWithZero.Nat

/-! The records of a pool agree.  A pool keeps the same facts in more than one place, and they never
come to differ, neither from each other nor from what its callers hold. -/

namespace ConnectionPool

variable {held : Multiset Grant} {p : Pool} {v : Work} {g : Grant} {r : Route} {id : RequestId}
  {m : Moment} {t : Tenancy} {o : Op} {made : List Conn} {l : Life} {delivered : List RequestId}

namespace Pool

def marks (p : Pool) : List Mark :=
  p.lanes.flatMap fun x =>
    x.2.available.map fun e => { id := e.record.id, route := x.1, released := e.record.updated }

theorem card_slots (p : Pool) : p.slots.card = (p.lanes.map (·.2.leased.length)).sum := by
  unfold slots
  induction p.lanes with
  | nil => rfl
  | cons x lanes ih =>
    rw [Table.total_cons, Multiset.card_add, ih, Multiset.coe_card, List.length_map, List.map_cons,
      List.sum_cons]

theorem map_mark_stock (hhome : ∀ x ∈ p.lanes, ∀ e ∈ x.2.available, e.record.route = x.1) :
    p.stock.map Idle.mark = p.marks := by
  unfold stock marks
  generalize p.lanes = lanes at hhome
  induction lanes with
  | nil => rfl
  | cons x lanes ih =>
    have hx := hhome x List.mem_cons_self
    have hmarks : x.2.available.map Idle.mark =
        x.2.available.map fun e =>
          { id := e.record.id, route := x.1, released := e.record.updated } :=
      List.map_congr_left fun e he => by rw [Idle.mark, hx e he]
    rw [Table.total_cons, Multiset.map_add, ih fun y hy => hhome y (List.mem_cons_of_mem x hy),
      Multiset.map_coe, hmarks, Multiset.coe_add, List.flatMap_cons]

end Pool

namespace Sound

theorem perm_marks (h : Sound held p) : p.idle.Perm p.marks := by
  have hhome : ∀ x ∈ p.lanes, ∀ e ∈ x.2.available, e.record.route = x.1 := by
    intro x hx e he
    exact h.home x.1 e (Pool.lane_of_mem h.tidy hx ▸ he)
  exact Multiset.coe_eq_coe.1 (h.idle.trans (Pool.map_mark_stock hhome))

theorem grants_ids (h : Sound held p) : ((held + p.grants).map Grant.id).Nodup := by
  have hle : held + p.grants ≤ p.census held := Multiset.le_add_right _ _
  exact Multiset.nodup_of_le (Multiset.map_le_map hle) h.ids

theorem nodup_leased (h : Sound held p) (r : Route) : (p.lane r).leased.Nodup := by
  cases hshut : p.isShut with
  | true =>
    rw [h.available_eq_nil_of_shut hshut]
    exact List.nodup_nil
  | false =>
    have hslots : p.slots.Nodup := by
      rw [h.slots hshut]
      refine Multiset.Nodup.of_map Prod.snd ?_
      rw [Multiset.map_map]
      exact h.grants_ids
    have hlane := Multiset.nodup_of_le (Pool.leased_le_slots p r) hslots
    exact List.Nodup.of_map _ (Multiset.coe_nodup.1 hlane)

theorem leased_eq (h : Sound held p) (hopen : p.isShut = false) (r : Route) :
    ((p.lane r).leased : Multiset EntryId) =
      ((held + p.grants).filter (·.record.route = r)).map Grant.id := by
  have hgrants : (((held + p.grants).filter (·.record.route = r)).map Grant.id).Nodup :=
    Multiset.nodup_of_le (Multiset.map_le_map (Multiset.filter_le _ _)) h.grants_ids
  refine (Multiset.Nodup.ext (Multiset.coe_nodup.2 (h.nodup_leased r)) hgrants).2 fun id => ?_
  rw [Multiset.mem_coe, ← Pool.mem_slots h.tidy, h.slots hopen, Multiset.mem_map, Multiset.mem_map]
  simp only [Multiset.mem_filter, Grant.slot, Grant.id, Prod.mk.injEq, and_assoc]

theorem isSome_unlease? (h : Sound held p) (hopen : p.isShut = false)
    (hg : g ∈ held + p.grants) : (p.unlease? g.record).isSome := by
  have hfreed := Pool.unlease?_eq_some_iff.2 ⟨hopen, h.mem_leased_of_mem hopen hg, rfl⟩
  rw [hfreed]
  rfl

end Sound

namespace Op

theorem isSome_settle : (o.settle id (t.pool.requests.get? id)).isSome ↔
    t.pool.requests.has id ∧ o ≠ .dropRequest id ∧ o.delivers t ≠ some id := by
  unfold Table.has
  cases o with
  | get y last =>
    rw [Ne, Ne, delivers_get_iff]
    cases hid : t.pool.requests.get? id <;> by_cases hy : y = id <;> simp [settle, hy]
  | dropRequest y => by_cases hy : y = id <;> simp [settle, delivers, hy]
  | cancel y => by_cases hy : y = id <;> simp [settle, delivers, hy]
  | _ => simp [settle, delivers]

end Op

theorem Course.has {f : RequestId → Option Slot → Option Slot} {first : Option Route}
    (h : Course m held p f first v) (id : RequestId) :
    v.pool.requests.has id = (f id (p.requests.get? id)).isSome := by
  rcases h.slot id with hsame | ⟨g, hpending, hgranted⟩
  · rw [Table.has, hsame]
  · rw [Table.has, hgranted, hpending]
    rfl

namespace Tenancy

/-- The pool has a slot for each request that its caller holds on to and has no outcome of. -/
def Tracks (delivered : List RequestId) (t : Tenancy) : Prop :=
  ∀ id, t.pool.requests.has id ↔ t.tickets.has id ∧ id ∉ delivered

theorem has_tickets (ho : ∀ r timeout, o ≠ .lease r timeout) (id : RequestId) :
    (t.act m o).tenancy.tickets.has id ↔ t.tickets.has id ∧ o ≠ .dropRequest id := by
  rw [act_tickets ho]
  cases o with
  | dropRequest y => by_cases hy : y = id <;> simp [Table.has, hy]
  | _ => simp

theorem act_tracks (h : t.IsSound) (hp : o.isPossible t made)
    (hknown : ∀ id ∈ delivered, id.number ≤ t.pool.lastRequest) (ht : t.Tracks delivered) :
    (t.act m o).tenancy.Tracks (delivered ++ (o.delivers t).toList) := by
  by_cases ho : ∃ r timeout, o = .lease r timeout
  · obtain ⟨r, timeout, rfl⟩ := ho
    change (t.lease m r timeout).tenancy.Tracks (delivered ++ [])
    rw [List.append_nil]
    cases lease_leases (m := m) (r := r) h timeout with
    | refused f hturn => rwa [hturn]
    | enters s ticket _ hrequests htickets =>
      intro id
      rw [hrequests, htickets, Table.has, Table.has]
      by_cases hid : t.pool.nextRequest = id
      · subst hid
        have hnew : t.pool.nextRequest ∉ delivered := fun hmem =>
          ne_nextRequest (hknown _ hmem) rfl
        simp [hnew]
      · rw [Table.get?_put_of_ne _ _ hid, Table.get?_put_of_ne _ _ hid]
        exact ht id
  · have ho (r : Route) (timeout : Option Span) : o ≠ .lease r timeout :=
      fun heq => ho ⟨r, timeout, heq⟩
    intro id
    have hslot : (t.act m o).tenancy.pool.requests.has id =
        (o.settle id (t.pool.requests.get? id)).isSome := (act_course (m := m) h hp ho).has id
    rw [hslot, Op.isSome_settle, has_tickets ho, ht id, List.mem_append, Option.mem_toList]
    tauto

theorem release_answer {e : EntryId} (h : t.IsSound) (he : t.entries.has e) (reusable : Bool)
    (v : Option Span) : (t.release m e reusable v).answer = none := by
  obtain ⟨entry, hentry⟩ := Option.isSome_iff_exists.1 he
  rw [release_eq hentry]
  have hsound : Sound (.reuse ⟨entry.record, entry.conn⟩ ::ₘ
      out { t with entries := t.entries.remove e }) t.pool := out_remove h hentry ▸ h.sound
  cases hshut : t.pool.isShut with
  | true => simp [Tenancy.turn, Work.takeBack, hshut]
  | false =>
    exact congrArg Prod.fst (Work.takeBack_eq (m := m) (w := { pool := t.pool }) hsound hshut
      reusable v)

theorem dropEntry_afterwards {e : EntryId} (h : t.IsSound) (he : t.entries.has e) :
    (t.dropEntry m e).afterwards = [] := by
  have hanswer : (t.discard m e).answer = none := release_answer h he false none
  simp [dropEntry, he, hanswer]

/-- The records of a pool agree with each other and with what its callers hold. -/
structure Agrees (delivered : List RequestId) (t : Tenancy) : Prop where
  leased : t.pool.leased = (t.pool.lanes.map (·.2.leased.length)).sum
  idle : t.pool.idle.Perm t.pool.marks
  idle_ids : (t.pool.idle.map Mark.id).Nodup
  queue : ∀ id r, id ∈ (t.pool.lane r).queue ↔ t.pool.waiting.get? id = some r
  sorted : ∀ r, (t.pool.lane r).queue.Pairwise (·.number < ·.number)
  waiting : t.pool.waiting.keys.Nodup
  pending : ∀ id r,
    t.pool.waiting.get? id = some r ↔ t.pool.requests.get? id = some { route := r }
  nodup_leased : ∀ r, (t.pool.lane r).leased.Nodup
  /-- Until a shutdown, what is leased of a route is with a caller, being created, or granted and not
  collected. -/
  out : t.pool.isShut = false → ∀ r, ((t.pool.lane r).leased : Multiset EntryId) =
    ((t.out + t.pool.grants).filter (·.record.route = r)).map Grant.id
  tidy : t.pool.Tidy
  /-- Each route with a lane has something in it. -/
  pruned : t.pool.Pruned
  tracks : t.Tracks delivered

theorem IsSound.agrees (h : t.IsSound) (hp : t.pool.Pruned) (ht : t.Tracks delivered) :
    t.Agrees delivered where
  leased := h.sound.leased.trans t.pool.card_slots
  idle := h.sound.perm_marks
  idle_ids := h.sound.idle_ids
  queue _ _ := h.sound.queued.mem_queue.trans h.sound.queued.get?_waiting.symm
  sorted := h.sound.queued.queue_sorted
  waiting := h.sound.queued.waiting_keys
  pending _ _ := h.sound.queued.get?_waiting
  nodup_leased := h.sound.nodup_leased
  out := h.sound.leased_eq
  tidy := h.sound.tidy
  pruned := hp
  tracks := ht

end Tenancy

namespace Life

theorem run_tracks (conf : Conf) (ops : List (Moment × Op)) :
    ((start conf).run ops).tenancy.Tracks ((start conf).history (fun _ => Op.delivers) ops) := by
  induction ops using List.reverseRecOn with
  | nil => exact fun id => by simp [start, run, Pool.ofConf, Table.has]
  | append_singleton ops o ih =>
    have h := run_sound conf ops
    have hgone := delivered_isGone conf ops
    rw [history_append_singleton, run_append_singleton]
    by_cases hp : o.2.isPossible ((start conf).run ops).tenancy ((start conf).run ops).made
    · rw [step_tenancy hp]
      exact Tenancy.act_tracks h hp (fun id hid => (hgone id hid).1) ih
    · have hnone : o.2.delivers ((start conf).run ops).tenancy = none := by
        cases ho : o.2 <;> first | rfl | simp [ho, Op.isPossible] at hp
      rwa [step_of_not_isPossible hp, hnone, Option.toList_none, List.append_nil]

theorem step_isCalm (h : l.tenancy.IsSound) (hp : o.isPossible l.tenancy l.made) :
    (l.tenancy.act m o).work.IsCalm := by
  obtain ⟨hmoves, -⟩ := Tenancy.act_moves (m := m) h hp
  exact Work.IsCalm.moves (fun x hx => absurd hx List.not_mem_nil)
    (Tenancy.relimit_sound h o.limits).scene hmoves

theorem run_isCalm (conf : Conf) (ops : List (Moment × Op)) :
    ∀ x ∈ ((start conf).run ops).reports, x.isAmiss = false := by
  refine (run_induction
    (P := fun l => l.tenancy.IsSound ∧ ∀ x ∈ l.reports, x.isAmiss = false)
    ⟨start_sound conf, fun x hx => absurd hx List.not_mem_nil⟩ ?_ ops).2
  rintro l m o ⟨h, hl⟩ hp
  refine ⟨step_sound h m o, fun x hx => ?_⟩
  rw [step, if_pos hp] at hx
  exact (List.mem_append.1 hx).elim (hl x) (step_isCalm h hp x)

theorem step_hands (h : l.tenancy.IsSound) (hs : l.tenancy.pool.Settled) (m : Moment) (o : Op) :
    ∃ hs, Report.handed (l.step m o).reports = Report.handed l.reports ++ hs ∧
      ∀ x ∈ hs, ∃ id r g, g.slot = x ∧ l.tenancy.pool.Grants (l.step m o).tenancy.pool id r g ∧
        ∀ s, l.tenancy.pool.requests.get? id = some s → s.isPending := by
  obtain ⟨served, hhanded, hserving⟩ := step_serving h hs m o
  refine ⟨_, hhanded, fun x hx => ?_⟩
  obtain ⟨⟨id, g⟩, hmem, rfl⟩ := List.mem_map.1 hx
  exact ⟨id, _, g, rfl, hserving.grants hmem, hserving.pending hmem⟩

/-- The records of a pool agree at all times.  So whatever is out of the pool finds its slot when it
comes back, entries come back without a failure, nothing that the pool looks up is missing, and each
slot that it leases goes to a request that waited, or to a new one. -/
theorem records_agree (conf : Conf) (ops : List (Moment × Op)) :
    let l := (start conf).run ops
    let t := l.tenancy
    t.Agrees ((start conf).history (fun _ => Op.delivers) ops) ∧
      (t.pool.isShut = false → ∀ g ∈ t.out + t.pool.grants, (t.pool.unlease? g.record).isSome) ∧
      (∀ m e, t.entries.has e →
        (∀ reusable v, (t.release m e reusable v).answer = none) ∧
          (t.discard m e).answer = none ∧ (t.dropEntry m e).afterwards = []) ∧
      (∀ x ∈ l.reports, x.isAmiss = false) ∧
      ∀ m o, ∃ hs, Report.handed (l.step m o).reports = Report.handed l.reports ++ hs ∧
        ∀ x ∈ hs, ∃ id r g, g.slot = x ∧ t.pool.Grants (l.step m o).tenancy.pool id r g ∧
          ∀ s, t.pool.requests.get? id = some s → s.isPending := by
  intro l t
  have h : t.IsSound := run_sound conf ops
  refine ⟨h.agrees (run_pruned conf ops) (run_tracks conf ops), fun hopen g => h.sound.isSome_unlease? hopen,
    fun m e he => ?_, run_isCalm conf ops, step_hands h (run_settled conf ops)⟩
  exact ⟨Tenancy.release_answer h he, Tenancy.release_answer h he false none,
    Tenancy.dropEntry_afterwards h he⟩

theorem records_agree_connected :
    let ops := Sample.regrants.take 6
    let t := ((start Sample.conf).run ops).tenancy
    (t.pool.isShut = false ∧ t.entries.has ⟨1⟩) ∧
      (((t.pool.lane Sample.route).leased : Multiset EntryId) =
          ((t.out + t.pool.grants).filter (·.record.route = Sample.route)).map Grant.id) ∧
        (t.release Sample.calm ⟨1⟩ true none).answer = none := by
  intro ops t
  have hopen : t.pool.isShut = false := by decide
  have hentry : t.entries.has ⟨1⟩ := by decide
  obtain ⟨hagrees, -, hreturns, -⟩ := records_agree Sample.conf ops
  exact ⟨⟨hopen, hentry⟩, hagrees.out hopen Sample.route,
    (hreturns Sample.calm ⟨1⟩ hentry).1 true none⟩

end Life

end ConnectionPool
