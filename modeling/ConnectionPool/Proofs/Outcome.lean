import ConnectionPool.Proofs.History

namespace ConnectionPool

variable {conf : Conf} {l : Life} {m : Moment} {o : Op} {t : Tenancy} {p : Pool} {id : RequestId}
  {r : Route} {s : Slot} {x : Option Slot} {ops more : List (Moment × Op)}

def Tenancy.finds (id : RequestId) (last : Bool) (t : Tenancy) : Collected :=
  match (t.collect id).answer with
  | .pending => if last then .failed (t.timeOut id).answer else .pending
  | found => found

namespace Op

def cancels (t : Tenancy) : Op → Option RequestId
  | cancel id => if (t.cancel id).answer then some id else none
  | _ => none

def delivers (t : Tenancy) : Op → Option RequestId
  | get id last =>
    match t.pool.requests.get? id, t.finds id last with
    | none, _ => none
    | some _, .pending => none
    | some _, _ => some id
  | _ => none

def collects (t : Tenancy) : Op → Option RequestId
  | get id last =>
    match t.finds id last with
    | .granted _ => some id
    | _ => none
  | _ => none

def Takes (id : RequestId) (o : Op) : Prop := (∃ last, o = .get id last) ∨ o = .dropRequest id

theorem settle_none (id : RequestId) (o : Op) : o.settle id none = none := by
  cases o <;> simp [settle]

theorem settle_of_done (hx : x.any Slot.isPending = false) :
    o.settle id x = x ∨ o.settle id x = none ∧ o.Takes id ∨
      o = .shutDown ∧ o.settle id x = x.map Slot.revoke := by
  cases o with
  | get y last =>
    by_cases hy : y = id
    · subst hy
      exact .inr (.inl ⟨by simp [settle, hx], .inl ⟨last, rfl⟩⟩)
    · exact .inl (by simp [settle, hy])
  | cancel y =>
    refine .inl ?_
    cases x with
    | none => exact settle_none id _
    | some s =>
      have hs : s.isPending = false := hx
      simp [settle, Slot.refuse, hs]
  | dropRequest y =>
    by_cases hy : y = id
    · subst hy
      exact .inr (.inl ⟨by simp [settle], .inr rfl⟩)
    · exact .inl (by simp [settle, hy])
  | shutDown => exact .inr (.inr ⟨rfl, rfl⟩)
  | _ => exact .inl rfl

end Op

namespace Pool

theorem isDone_iff : p.isDone id ↔ (p.requests.get? id).any Slot.isPending = false := by
  simp [isDone]

theorem isDone_eq_false_iff : p.isDone id = false ↔ ∃ r, p.requests.get? id = some { route := r } := by
  rcases p.slot_cases id with hid | ⟨r, hid⟩ | ⟨s, hid, hs⟩
  · simp [isDone, hid]
  · simp [isDone, hid, Slot.isPending]
  · have hne := fun r => ne_pending hid hs r
    simp [isDone, hid, hs] at hne ⊢
    exact hne

end Pool

@[simp] theorem Refusal.kind_failure (f : Refusal) (r : Route) : (f.failure r).kind = f.kind := rfl

namespace Tenancy

theorem collect_gone (hid : t.pool.requests.get? id = none) : t.collect id =
    { answer := .failed (.internally .internalError "lease request already completed")
      tenancy := t } := by
  simp only [collect, Pool.collect, hid]

theorem finds_gone (hid : t.pool.requests.get? id = none) (last : Bool) :
    t.finds id last =
      .failed (.internally .internalError "lease request already completed") := by
  rw [finds, collect_gone hid]

theorem look_gone (hid : t.pool.requests.get? id = none) (last : Bool) :
    t.look id last = { answer := (), tenancy := t } := by
  rw [look_of_not_pending last (by simp [hid]), collect_gone hid]
  rfl

theorem finds_failed {f : Refusal}
    (hid : t.pool.requests.get? id = some { route := r, outcome := .failed f }) (last : Bool) :
    t.finds id last = .failed (f.failure r) := by
  rw [finds, collect_failed hid]

theorem cancel_pending (hid : t.pool.requests.get? id = some { route := r }) :
    (t.cancel id).answer = true := by
  change (Work.cancel id { pool := t.pool }).1 = true
  rw [Work.cancel_eq hid]

theorem cancel_of_done (hid : ∀ r, t.pool.requests.get? id ≠ some { route := r }) :
    t.cancel id = { answer := false, tenancy := t } := by
  have hwork := Work.cancel_of_not_pending (w := { pool := t.pool }) hid
  simp only [cancel, Tenancy.turn, hwork]

theorem cancel_iff : (t.cancel id).answer ↔ ∃ r, t.pool.requests.get? id = some { route := r } := by
  refine ⟨fun htrue => ?_, fun ⟨r, hid⟩ => cancel_pending hid⟩
  by_contra hnot
  rw [cancel_of_done (not_exists.1 hnot)] at htrue
  exact Bool.false_ne_true htrue

theorem finds_eq_pending_iff {last : Bool} : t.finds id last = .pending ↔
    last = false ∧ ∃ r, t.pool.requests.get? id = some { route := r } := by
  constructor
  · intro h
    unfold finds at h
    split at h
    · next hpending =>
      cases last with
      | true => cases h
      | false => exact ⟨rfl, exists_of_collect_pending hpending⟩
    · next hnot => exact absurd h hnot
  · rintro ⟨rfl, r, hid⟩
    rw [finds, collect_pending hid]
    rfl

end Tenancy

namespace Op

theorem delivers_of_collects (h : o.collects t = some id) : o.delivers t = some id := by
  cases o with
  | get y last =>
    simp only [collects] at h
    cases hy : t.pool.requests.get? y with
    | none => simp [Tenancy.finds_gone hy] at h
    | some s =>
      cases hf : t.finds y last <;> simp [hf] at h
      simpa [delivers, hy, hf] using h
  | _ => simp [collects] at h

theorem delivers_get_iff {y : RequestId} {last : Bool} : (get y last).delivers t = some id ↔
    y = id ∧ ∃ s, t.pool.requests.get? id = some s ∧ (last ∨ s.isPending = false) := by
  constructor
  · intro h
    simp only [delivers] at h
    cases hy : t.pool.requests.get? y with
    | none => simp [hy] at h
    | some s =>
      have hfound : t.finds y last ≠ .pending := fun hpending => by simp [hy, hpending] at h
      obtain rfl : y = id := by
        cases hf : t.finds y last <;> simp [hy, hf] at h <;> exact h
      refine ⟨rfl, s, hy, ?_⟩
      by_contra hnot
      obtain ⟨hlast, hs⟩ : last = false ∧ s.isPending = true := by simpa using hnot
      rw [Slot.eq_of_isPending hs] at hy
      exact hfound (Tenancy.finds_eq_pending_iff.2 ⟨hlast, _, hy⟩)
  · rintro ⟨rfl, s, hy, hs⟩
    have hfound : t.finds y last ≠ .pending := by
      rw [Ne, Tenancy.finds_eq_pending_iff]
      rintro ⟨rfl, r, hr⟩
      exact Pool.ne_pending hy (hs.resolve_left Bool.false_ne_true) r hr
    cases hf : t.finds y last with
    | pending => exact absurd hf hfound
    | granted g => simp [delivers, hy, hf]
    | failed f => simp [delivers, hy, hf]

theorem settle_of_delivers (h : o.delivers t = some id) :
    (∃ s, t.pool.requests.get? id = some s) ∧ o.settle id (t.pool.requests.get? id) = none := by
  cases o with
  | get y last =>
    obtain ⟨rfl, s, hy, hs⟩ := delivers_get_iff.1 h
    refine ⟨⟨s, hy⟩, ?_⟩
    rcases hs with hlast | hs
    · simp [settle, hlast]
    · simp [settle, hy, hs]
  | _ => simp [delivers] at h

theorem settle_of_cancels (h : o.cancels t = some id) :
    ∃ r, t.pool.requests.get? id = some { route := r } ∧
      o.settle id (t.pool.requests.get? id) =
        some { route := r, outcome := .failed .cancelled } := by
  cases o with
  | cancel y =>
    simp only [cancels] at h
    split at h
    · next htrue =>
      obtain rfl := Option.some.inj h
      obtain ⟨r, hid⟩ := Tenancy.cancel_iff.1 htrue
      exact ⟨r, hid, by simp [settle, hid, Slot.refuse, Slot.isPending]⟩
    · cases h
  | _ => simp [cancels] at h

end Op

namespace Pool

def IsOver (p : Pool) (id : RequestId) : Prop := id.number ≤ p.lastRequest ∧ p.isDone id

def IsGone (p : Pool) (id : RequestId) : Prop :=
  id.number ≤ p.lastRequest ∧ p.requests.get? id = none

def IsRefused (p : Pool) (id : RequestId) : Prop :=
  id.number ≤ p.lastRequest ∧
    ∀ s, p.requests.get? id = some s → ∃ f, s = { route := s.route, outcome := .failed f }

theorem IsRefused.isOver (h : p.IsRefused id) : p.IsOver id := by
  refine ⟨h.1, isDone_iff.2 ?_⟩
  cases hid : p.requests.get? id with
  | none => rfl
  | some s =>
    obtain ⟨f, hs⟩ := h.2 s hid
    rw [hs]
    rfl

end Pool

namespace Life

theorem run_keeps {P : Tenancy → Prop}
    (hstep : ∀ l : Life, l.tenancy.IsSound → ∀ m o, P l.tenancy → P (l.step m o).tenancy)
    (h : l.tenancy.IsSound) (hl : P l.tenancy) (more : List (Moment × Op)) :
    P (l.run more).tenancy :=
  (run_induction (P := fun l => l.tenancy.IsSound ∧ P l.tenancy) ⟨h, hl⟩
    (fun l m o hl _ => ⟨step_sound hl.1 m o, hstep l hl.1 m o hl.2⟩) more).2

theorem step_slot_of_done (h : l.tenancy.IsSound) (hover : l.tenancy.pool.IsOver id) (m : Moment)
    (o : Op) : (l.step m o).tenancy.pool.requests.get? id =
      o.settle id (l.tenancy.pool.requests.get? id) := by
  refine (step_slot h m o hover.1).resolve_right ?_
  rintro ⟨g, hpending, -⟩
  have hdone := Pool.isDone_iff.1 hover.2
  rw [Op.settle_pending hpending] at hdone
  exact Bool.false_ne_true hdone.symm

theorem step_isOver (h : l.tenancy.IsSound) (m : Moment) (o : Op)
    (hover : l.tenancy.pool.IsOver id) : (l.step m o).tenancy.pool.IsOver id := by
  refine ⟨hover.1.trans (step_lastRequest_le h m o), ?_⟩
  by_contra hdone
  obtain ⟨r, hid⟩ := Pool.isDone_eq_false_iff.1 (by simpa using hdone)
  rw [step_slot_of_done h hover] at hid
  have hdone := Pool.isDone_iff.1 hover.2
  rw [Op.settle_pending hid] at hdone
  exact Bool.false_ne_true hdone.symm

theorem step_isRefused (h : l.tenancy.IsSound) (m : Moment) (o : Op)
    (hrefused : l.tenancy.pool.IsRefused id) : (l.step m o).tenancy.pool.IsRefused id := by
  have hslot := step_slot_of_done h hrefused.isOver m o
  refine ⟨hrefused.1.trans (step_lastRequest_le h m o), fun s hs => ?_⟩
  rw [hslot] at hs
  rcases Op.settle_of_done (o := o) (Pool.isDone_iff.1 hrefused.isOver.2) with
    hsame | ⟨hnone, -⟩ | ⟨-, hrevoke⟩
  · exact hrefused.2 s (hsame ▸ hs)
  · simp [hnone] at hs
  · rw [hrevoke] at hs
    obtain ⟨d, hd, rfl⟩ := Option.map_eq_some_iff.1 hs
    obtain ⟨f, hd⟩ := hrefused.2 d hd
    rw [hd]
    exact ⟨f, rfl⟩

theorem step_isGone (h : l.tenancy.IsSound) (m : Moment) (o : Op)
    (hgone : l.tenancy.pool.IsGone id) : (l.step m o).tenancy.pool.IsGone id := by
  have hover : l.tenancy.pool.IsOver id := ⟨hgone.1, by simp [Pool.isDone, hgone.2]⟩
  refine ⟨hgone.1.trans (step_lastRequest_le h m o), ?_⟩
  rw [step_slot_of_done h hover, hgone.2, Op.settle_none]

theorem run_failed {f : Refusal} (h : l.tenancy.IsSound)
    (hid : l.tenancy.pool.requests.get? id = some { route := r, outcome := .failed f })
    (hmore : ∀ x ∈ more, ¬ x.2.Takes id) :
    (l.run more).tenancy.pool.requests.get? id =
      some { route := r, outcome := .failed f } := by
  induction more generalizing l with
  | nil => exact hid
  | cons x more ih =>
    refine ih (step_sound h x.1 x.2) ?_ fun y hy => hmore y (List.mem_cons_of_mem x hy)
    have hdone : (l.tenancy.pool.requests.get? id).any Slot.isPending = false := by
      rw [hid]
      rfl
    have hover : l.tenancy.pool.IsOver id :=
      ⟨Tenancy.number_le h hid, Pool.isDone_iff.2 hdone⟩
    rw [step_slot_of_done h hover]
    rcases Op.settle_of_done (o := x.2) hdone with hsame | ⟨-, htakes⟩ | ⟨-, hrevoke⟩
    · exact hsame.trans hid
    · exact absurd htakes (hmore x List.mem_cons_self)
    · rw [hrevoke, hid]
      rfl

theorem step_delivers (h : l.tenancy.IsSound) (m : Moment) (o : Op)
    (ho : o.delivers l.tenancy = some id) :
    ¬ l.tenancy.pool.IsGone id ∧ (l.step m o).tenancy.pool.IsGone id := by
  obtain ⟨⟨s, hid⟩, hsettle⟩ := Op.settle_of_delivers ho
  have hknown := Tenancy.number_le h hid
  refine ⟨fun hgone => by simp [hgone.2] at hid, hknown.trans (step_lastRequest_le h m o), ?_⟩
  rcases step_slot h m o hknown with hsame | ⟨g, hpending, -⟩
  · exact hsame.trans hsettle
  · simp [hsettle] at hpending

theorem step_cancels (h : l.tenancy.IsSound) (m : Moment) (o : Op)
    (ho : o.cancels l.tenancy = some id) :
    ¬ l.tenancy.pool.IsOver id ∧ (l.step m o).tenancy.pool.IsOver id := by
  obtain ⟨r, hid, hsettle⟩ := Op.settle_of_cancels ho
  have hknown := Tenancy.number_le h hid
  have hpending : l.tenancy.pool.isDone id = false := Pool.isDone_eq_false_iff.2 ⟨r, hid⟩
  refine ⟨fun hover => absurd hover.2 (by simp [hpending]),
    hknown.trans (step_lastRequest_le h m o), ?_⟩
  refine Pool.isDone_iff.2 ?_
  rcases step_slot h m o hknown with hsame | ⟨g, hgranted, -⟩
  · rw [hsame, hsettle]
    rfl
  · simp [hsettle] at hgranted

theorem step_refuses (h : l.tenancy.IsSound)
    (hid : l.tenancy.pool.requests.get? id = some { route := r }) (m : Moment)
    (ho : o = .cancel id ∨ o = .shutDown) : ∃ f : Refusal, f.kind = .interrupted ∧
      (l.step m o).tenancy.pool.requests.get? id =
        some { route := r, outcome := .failed f } := by
  have hsettle : ∃ f : Refusal, f.kind = .interrupted ∧
      o.settle id (l.tenancy.pool.requests.get? id) =
        some { route := r, outcome := .failed f } := by
    rw [hid]
    rcases ho with rfl | rfl
    · exact ⟨.cancelled, rfl, by simp [Op.settle, Slot.refuse, Slot.isPending]⟩
    · exact ⟨.shutWhilePending, rfl, rfl⟩
  obtain ⟨f, hkind, hsettle⟩ := hsettle
  rcases step_slot h m o (Tenancy.number_le h hid) with hsame | ⟨g, hpending, -⟩
  · exact ⟨f, hkind, hsame.trans hsettle⟩
  · simp [hsettle] at hpending

theorem conns_subset_shutDown {g : Grant} (h : l.tenancy.IsSound)
    (hid : l.tenancy.pool.requests.get? id = some { route := r, outcome := .granted g }) :
    g.conns ⊆ l.tenancy.shutDown.closed := by
  have hmem := Table.mem_of_get?_eq_some hid
  have hopen := h.sound.isShut_eq_false_of_granted hid
  intro c hc
  cases g with
  | create s => exact absurd hc List.not_mem_nil
  | reuse e =>
    obtain rfl := List.mem_singleton.1 hc
    change e.conn ∈ (Work.shutDown { pool := l.tenancy.pool }).2.closing
    rw [Work.shutDown_of_open hopen]
    refine List.mem_append_left _ (List.mem_append_right _ (List.mem_filterMap.2 ⟨_, hmem, rfl⟩))

theorem delivered_isGone (conf : Conf) (ops : List (Moment × Op)) :
    ∀ id ∈ (start conf).history (fun _ => Op.delivers) ops,
      ((start conf).run ops).tenancy.pool.IsGone id :=
  (nodup_history (P := fun t id => t.pool.IsGone id) (fun _ hl m o _ => step_isGone hl m o)
    (fun _ hl m o _ => step_delivers hl m o) conf ops).2

/-- What is so of the outcomes of all requests after a run and from then on. -/
structure OneOutcome (conf : Conf) (ops : List (Moment × Op)) (l : Life) : Prop where
  /-- A request that was submitted and does not wait never waits again. -/
  settled : ∀ id ∈ (start conf).submissions ops, l.tenancy.pool.isDone id →
    ∀ more, (l.run more).tenancy.pool.isDone id
  /-- An outcome stays, or somebody takes it, or a shutdown takes a grant back, with its
  connection. -/
  changes : ∀ id s, l.tenancy.pool.requests.get? id = some s → s.isPending = false → ∀ m o,
    (l.step m o).tenancy.pool.requests.get? id = some s ∨
      (l.step m o).tenancy.pool.requests.get? id = none ∧ o.Takes id ∨
      ∃ g, o = .shutDown ∧ s.outcome = .granted g ∧ g.conns ⊆ l.tenancy.shutDown.closed ∧
        ∃ f, f.kind = .poolClosed ∧ (l.step m o).tenancy.pool.requests.get? id =
          some { route := s.route, outcome := .failed f }
  /-- A request is cancelled if it waits, -/
  cancel_iff : ∀ id, (l.tenancy.cancel id).answer ↔ l.tenancy.pool.isDone id = false
  /-- and otherwise nothing happens. -/
  cancel_done : ∀ id, (l.tenancy.cancel id).answer = false →
    l.tenancy.cancel id = { answer := false, tenancy := l.tenancy }
  cancelled_once : ((start conf).history (fun _ => Op.cancels) ops).Nodup
  /-- A request that waits and is cancelled or shut down is never granted anything, and whoever looks
  first finds it interrupted. -/
  refused : ∀ id, l.tenancy.pool.isDone id = false → ∀ m o, o = .cancel id ∨ o = .shutDown →
    ∀ more, let t := ((l.step m o).run more).tenancy
      (∀ r g, t.pool.requests.get? id ≠ some { route := r, outcome := .granted g }) ∧
        ((∀ x ∈ more, ¬ x.2.Takes id) →
          ∀ last, ∃ f, t.finds id last = .failed f ∧ f.kind = .interrupted)
  collected_once : ((start conf).history (fun _ => Op.collects) ops).Nodup
  /-- Whoever looks for an outcome that was delivered finds an internal error and changes nothing. -/
  delivered : ∀ id ∈ (start conf).history (fun _ => Op.delivers) ops, ∀ last,
    (∃ f, l.tenancy.finds id last = .failed f ∧ f.kind = .internalError) ∧
      l.tenancy.look id last = { answer := (), tenancy := l.tenancy }

theorem step_outcome (h : l.tenancy.IsSound) {s : Slot}
    (hid : l.tenancy.pool.requests.get? id = some s) (hs : s.isPending = false) (m : Moment)
    (o : Op) : (l.step m o).tenancy.pool.requests.get? id = some s ∨
      (l.step m o).tenancy.pool.requests.get? id = none ∧ o.Takes id ∨
      ∃ g, o = .shutDown ∧ s.outcome = .granted g ∧ g.conns ⊆ l.tenancy.shutDown.closed ∧
        ∃ f, f.kind = .poolClosed ∧ (l.step m o).tenancy.pool.requests.get? id =
          some { route := s.route, outcome := .failed f } := by
  have hdone : (l.tenancy.pool.requests.get? id).any Slot.isPending = false := by
    rw [hid]
    exact hs
  have hslot := step_slot_of_done h ⟨Tenancy.number_le h hid, Pool.isDone_iff.2 hdone⟩ m o
  rw [hslot]
  rcases Op.settle_of_done (o := o) hdone with hsame | htaken | ⟨rfl, hrevoke⟩
  · exact .inl (hsame.trans hid)
  · exact .inr (.inl htaken)
  · obtain ⟨r, d⟩ := s
    rw [hrevoke, hid]
    cases d with
    | pending => simp [Slot.isPending] at hs
    | failed f => exact .inl rfl
    | granted g =>
      exact .inr (.inr ⟨g, rfl, rfl, conns_subset_shutDown h hid, .shutWhileGranted, rfl, rfl⟩)

theorem run_refused (h : l.tenancy.IsSound) (hid : l.tenancy.pool.isDone id = false) (m : Moment)
    (ho : o = .cancel id ∨ o = .shutDown) (more : List (Moment × Op)) :
    let t := ((l.step m o).run more).tenancy
    (∀ r g, t.pool.requests.get? id ≠ some { route := r, outcome := .granted g }) ∧
      ((∀ x ∈ more, ¬ x.2.Takes id) →
        ∀ last, ∃ f, t.finds id last = .failed f ∧ f.kind = .interrupted) := by
  obtain ⟨r, hid⟩ := Pool.isDone_eq_false_iff.1 hid
  obtain ⟨f, hkind, hfailed⟩ := step_refuses h hid m ho
  have hstep := step_sound h m o
  -- nothing is granted whatever comes, but the refusal lasts only until somebody takes it
  refine ⟨fun r' g hgranted => ?_, fun hmore last => ⟨f.failure r, ?_, hkind⟩⟩
  · have hrefused : (l.step m o).tenancy.pool.IsRefused id := by
      refine ⟨Tenancy.number_le hstep hfailed, fun s hs => ⟨f, ?_⟩⟩
      obtain rfl := Option.some.inj (hfailed.symm.trans hs)
      rfl
    obtain ⟨f', hf'⟩ := (run_keeps (P := fun t => t.pool.IsRefused id)
      (fun l hl m o => step_isRefused hl m o) hstep hrefused more).2 _ hgranted
    simp at hf'
  · exact Tenancy.finds_failed (run_failed hstep hfailed hmore) last

/-- Each request has one outcome. -/
theorem single_outcome (conf : Conf) (ops : List (Moment × Op)) :
    OneOutcome conf ops ((start conf).run ops) := by
  have h := run_sound conf ops
  obtain ⟨hcancelled, -⟩ := nodup_history (f := fun _ => Op.cancels)
    (P := fun t id => t.pool.IsOver id) (fun l hl m o id => step_isOver hl m o)
    (fun l hl m o id => step_cancels hl m o) conf ops
  obtain ⟨hcollected, -⟩ := nodup_history (f := fun _ => Op.collects)
    (P := fun t id => t.pool.IsGone id) (fun l hl m o id => step_isGone hl m o)
    (fun l hl m o id ho => step_delivers hl m o (Op.delivers_of_collects ho)) conf ops
  have hgone := delivered_isGone conf ops
  have hknown (id : RequestId) (hid : id ∈ (start conf).submissions ops) := le_of_submitted hid
  generalize (start conf).run ops = l at h hgone hknown ⊢
  exact {
    settled := fun id hid hdone more =>
      (run_keeps (P := fun t => t.pool.IsOver id) (fun l hl m o => step_isOver hl m o) h
        ⟨hknown id hid, hdone⟩ more).2
    changes := fun id s hid hs => step_outcome h hid hs
    cancel_iff := fun id => Tenancy.cancel_iff.trans Pool.isDone_eq_false_iff.symm
    cancel_done := fun id hfalse => by
      refine Tenancy.cancel_of_done fun r hr => ?_
      simp [Tenancy.cancel_pending hr] at hfalse
    cancelled_once := hcancelled
    refused := fun id hid m o ho more => run_refused h hid m ho more
    collected_once := hcollected
    delivered := fun id hid last =>
      ⟨⟨_, Tenancy.finds_gone (hgone id hid).2 last, rfl⟩,
        Tenancy.look_gone (hgone id hid).2 last⟩ }

theorem single_outcome_cancelled :
    let ops := Sample.waits ++ [.cancel ⟨3⟩, .get ⟨3⟩ false].map (Prod.mk Sample.calm)
    let l := (start Sample.conf).run ops
    let k := (l.step Sample.calm (.cancel ⟨4⟩)).run []
    (⟨3⟩ ∈ (start Sample.conf).history (fun _ => Op.delivers) ops ∧
        l.tenancy.pool.isDone ⟨4⟩ = false) ∧
      (∃ f, l.tenancy.finds ⟨3⟩ false = .failed f ∧ f.kind = .internalError) ∧
      ∃ f, k.tenancy.finds ⟨4⟩ false = .failed f ∧ f.kind = .interrupted := by
  intro ops l k
  have hone := single_outcome Sample.conf ops
  have hdelivered : ⟨3⟩ ∈ (start Sample.conf).history (fun _ => Op.delivers) ops := by decide
  have hpending : l.tenancy.pool.isDone ⟨4⟩ = false := by decide
  exact ⟨⟨hdelivered, hpending⟩, (hone.delivered _ hdelivered false).1,
    (hone.refused _ hpending Sample.calm _ (.inl rfl) []).2 (by simp) false⟩

end Life

end ConnectionPool
