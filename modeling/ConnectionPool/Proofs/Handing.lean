import ConnectionPool.Proofs.Frames

namespace ConnectionPool

variable {m : Moment} {s t : Scene} {held : Multiset Grant} {c c' : Multiset Conn} {w u : Work}
  {g : Grant}

def Report.handed (rs : List Report) : List (Route × EntryId) := rs.filterMap handed?

def Work.handed (w : Work) : List (Route × EntryId) := Report.handed w.reports

def Work.IsCalm (w : Work) : Prop := ∀ x ∈ w.reports, x.isAmiss = false

namespace Work

theorem handed_report {rs : List Report} (hrs : ∀ x ∈ rs, x.isPlain) :
    (w.report rs).handed = w.handed := by
  have hnone : rs.filterMap Report.handed? = [] :=
    List.filterMap_eq_nil_iff.2 fun x hx => Report.handed?_of_isPlain (hrs x hx)
  change (w.reports ++ rs).filterMap Report.handed? = _
  rw [List.filterMap_append, hnone, List.append_nil]
  rfl

theorem handed_note (n : Notice) :
    (w.note n).handed = w.handed ++ (Report.noted n).handed?.toList := by
  change (w.reports ++ [Report.noted n]).filterMap Report.handed? = _
  rw [List.filterMap_append]
  cases h : (Report.noted n).handed? <;> simp [handed, Report.handed, h]

theorem IsCalm.report (h : w.IsCalm) {rs : List Report} (hrs : ∀ x ∈ rs, x.isAmiss = false) :
    (w.report rs).IsCalm := by
  intro x hx
  exact (List.mem_append.1 hx).elim (h x) (hrs x)

theorem IsCalm.note (h : w.IsCalm) {n : Notice} (hn : (Report.noted n).isAmiss = false) :
    (w.note n).IsCalm :=
  h.report (List.forall_mem_singleton.2 hn)

end Work

theorem Gain.handed (h : Gain m s t) : ∃ gs : List Grant,
    t.held = gs + s.held ∧ t.work.handed = s.work.handed ++ gs.map Grant.slot := by
  cases h with
  | shed h =>
    cases h with
    | relane => exact ⟨[], (zero_add _).symm, (List.append_nil _).symm⟩
    | report rs hrs =>
      refine ⟨[], (zero_add _).symm, ?_⟩
      exact (Work.handed_report hrs).trans (List.append_nil _).symm
    | close => exact ⟨[], (zero_add _).symm, (List.append_nil _).symm⟩
    | evict => exact ⟨[], (zero_add _).symm, Work.handed_note _⟩
  | @reuse held c w e =>
    exact ⟨[.reuse e], (Multiset.singleton_add _ held).symm, Work.handed_note _⟩
  | @reserve held c w r =>
    exact ⟨[.create (w.reserve m r).1], (Multiset.singleton_add _ held).symm, Work.handed_note _⟩

theorem Gains.handed (h : Gains m s t) : ∃ gs : List Grant,
    t.held = gs + s.held ∧ t.work.handed = s.work.handed ++ gs.map Grant.slot := by
  induction h with
  | refl => exact ⟨[], (zero_add _).symm, (List.append_nil _).symm⟩
  | tail _ h ih =>
    obtain ⟨gs, hheld, htold⟩ := ih
    obtain ⟨ks, hheld', htold'⟩ := h.handed
    refine ⟨gs ++ ks, ?_, ?_⟩
    · rw [hheld', hheld, ← Multiset.coe_add]
      ac_rfl
    · rw [htold', htold, List.map_append, List.append_assoc]

theorem Gains.handed_of_none (h : Gains m ⟨held, c, w⟩ ⟨held, c', u⟩) : u.handed = w.handed := by
  obtain ⟨gs, hheld, htold⟩ := h.handed
  have hnil : gs = [] := (Multiset.coe_eq_zero gs).1 (right_eq_add.1 hheld)
  rwa [hnil, List.map_nil, List.append_nil] at htold

theorem Gains.handed_of_grant (h : Gains m ⟨held, c, w⟩ ⟨g ::ₘ held, c', u⟩) :
    u.handed = w.handed ++ [g.slot] := by
  obtain ⟨gs, hheld, htold⟩ := h.handed
  have hone : gs = [g] := by
    rw [← Multiset.singleton_add] at hheld
    exact Multiset.coe_eq_singleton.1 (add_right_cancel hheld).symm
  rwa [hone] at htold

namespace Work.IsCalm

theorem gain (h : s.work.IsCalm) (hst : Gain m s t) : t.work.IsCalm := by
  cases hst with
  | shed hst =>
    cases hst with
    | relane => exact h
    | report rs hrs => exact h.report fun x hx => Report.isAmiss_of_isPlain (hrs x hx)
    | close => exact h
    | evict => exact h.note rfl
  | reuse => exact h.note rfl
  | reserve => exact h.note rfl

theorem trade (h : s.work.IsCalm) (hs : s.IsSound) (hst : Trade m s t) : t.work.IsCalm := by
  cases hst with
  | serve hst =>
    cases hst with
    | gain hst => exact h.gain hst
    | grant hid =>
      rw [Work.grant_eq _ (hs.head_pending hid)]
      exact h
  | keep => exact h.note rfl
  | @shut held c w =>
    cases hshut : w.pool.isShut with
    | true => rwa [Work.shutDown_of_shut hshut]
    | false =>
      rw [Work.shutDown_of_open hshut]
      exact h
  | _ => exact h

theorem move (h : s.work.IsCalm) (hs : s.IsSound) (hst : Move m s t) : t.work.IsCalm := by
  cases hst with
  | trade hst => exact h.trade hs hst
  | restore hopen =>
    rw [hs.putBack_eq hopen]
    exact h

theorem moves (h : s.work.IsCalm) (hs : s.IsSound) (hst : Moves m s t) : t.work.IsCalm := by
  induction hst with
  | refl => exact h
  | tail hsu hst ih => exact ih.move (hs.moves hsu) hst

end Work.IsCalm

end ConnectionPool
