import ConnectionPool.Proofs.Holdings

/-! Lanes with nothing in them.  A route that has one and a route without a lane are the same to
whoever looks them up, so what a pool holds does not depend on when its lanes come and go. -/

namespace ConnectionPool.Pool

variable {p q u : Pool} {r s : Route}

def rows (p : Pool) : Table Route Lane := p.lanes.filter (!·.2.isBare)

theorem Tidy.rows (hp : p.Tidy) : p.rows.keys.Nodup :=
  List.Nodup.sublist (List.filter_sublist.map Prod.fst) hp

theorem mem_rows (hp : p.Tidy) {x : Route × Lane} :
    x ∈ p.rows ↔ p.lane x.1 = x.2 ∧ ¬ x.2.isBare := by
  have hmem : x ∈ p.lanes ↔ p.lanes.get? x.1 = some x.2 := (Table.get?_eq_some_iff hp).symm
  rw [rows, List.mem_filter, hmem, lane]
  cases h : p.lanes.get? x.1 with
  | none =>
    simp only [reduceCtorEq, false_and, Option.getD_none, false_iff, not_and, not_not]
    rintro heq
    exact heq ▸ rfl
  | some l => simp

theorem total_rows {M : Type} [AddCommMonoid M] {f : Route → Lane → M} (hf : ∀ r, f r {} = 0)
    (p : Pool) : p.rows.total f = p.lanes.total f := by
  unfold rows
  induction p.lanes with
  | nil => rfl
  | cons x lanes ih =>
    by_cases hx : x.2.isBare
    · rw [List.filter_cons_of_neg (by simp [hx]), ih, Table.total_cons, Lane.isBare_iff.1 hx, hf,
        zero_add]
    · rw [List.filter_cons_of_pos (by simp [hx]), Table.total_cons, Table.total_cons, ih]

theorem perm_rows (hp : p.Tidy) (hq : q.Tidy) (h : ∀ r, q.lane r = p.lane r) :
    q.rows.Perm p.rows :=
  (List.perm_ext_iff_of_nodup hq.rows.of_map hp.rows.of_map).2 fun x => by
    rw [mem_rows hq, mem_rows hp, h]

theorem total_eq_of_lane {M : Type} [AddCommMonoid M] {f : Route → Lane → M}
    (hf : ∀ r, f r {} = 0) (hp : p.Tidy) (hq : q.Tidy) (h : ∀ r, q.lane r = p.lane r) :
    q.lanes.total f = p.lanes.total f := by
  rw [← total_rows hf q, ← total_rows hf p, Table.total_eq_of_perm (perm_rows hp hq h)]

theorem stock_eq_of_lane (hp : p.Tidy) (hq : q.Tidy) (h : ∀ r, q.lane r = p.lane r) :
    q.stock = p.stock :=
  total_eq_of_lane (fun _ => rfl) hp hq h

theorem slots_eq_of_lane (hp : p.Tidy) (hq : q.Tidy) (h : ∀ r, q.lane r = p.lane r) :
    q.slots = p.slots :=
  total_eq_of_lane (f := fun r l => (l.leased.map (Prod.mk r) : Multiset (Route × EntryId)))
    (fun _ => rfl) hp hq h

/-- The pools differ at most in lanes with nothing in them and in the order of the lanes. -/
structure Relanes (p q : Pool) : Prop where
  rest : q = { p with lanes := q.lanes }
  tidy : p.Tidy → q.Tidy
  lane : ∀ r, q.lane r = p.lane r

namespace Relanes

theorem refl (p : Pool) : p.Relanes p := ⟨rfl, id, fun _ => rfl⟩

theorem trans (h : p.Relanes q) (k : q.Relanes u) : p.Relanes u where
  rest := by
    rw [k.rest, h.rest]
  tidy := k.tidy ∘ h.tidy
  lane r := (k.lane r).trans (h.lane r)

theorem idle (h : p.Relanes q) : q.idle = p.idle := by rw [h.rest]

theorem leased (h : p.Relanes q) : q.leased = p.leased := by rw [h.rest]

theorem allocated (h : p.Relanes q) : q.allocated = p.allocated := by
  rw [Pool.allocated, h.leased, h.idle, Pool.allocated]

theorem lastEntry (h : p.Relanes q) : q.lastEntry = p.lastEntry := by rw [h.rest]

theorem lastRequest (h : p.Relanes q) : q.lastRequest = p.lastRequest := by rw [h.rest]

theorem requests (h : p.Relanes q) : q.requests = p.requests := by rw [h.rest]

theorem waiting (h : p.Relanes q) : q.waiting = p.waiting := by rw [h.rest]

end Relanes

theorem stock_relane (hp : p.Tidy) (h : p.Relanes q) : q.stock = p.stock :=
  stock_eq_of_lane hp (h.tidy hp) h.lane

theorem lane_prune (p : Pool) (r s : Route) : (p.prune r).lane s = p.lane s := by
  unfold prune
  split
  · next h =>
    obtain ⟨l, hl, hbare⟩ := (Option.any_eq_true _ _).1 h
    by_cases hs : r = s
    · subst hs
      simp [lane, hl, Lane.isBare_iff.1 hbare]
    · simp [lane, hs]
  · rfl

theorem relanes_prune (p : Pool) (r : Route) : p.Relanes (p.prune r) where
  rest := by
    unfold prune
    split <;> rfl
  tidy hp := by
    unfold prune
    split
    · exact Table.nodup_keys_remove r hp
    · exact hp
  lane := lane_prune p r

theorem relanes_openLane (p : Pool) (r : Route) : p.Relanes (p.openLane r) where
  rest := rfl
  tidy hp := hp.setLane r _
  lane s := by
    refine (lane_of_edit (p := p) rfl s).trans ?_
    split
    · next hs => rw [hs, id]
    · rfl

theorem relanes_pruneAll (hp : p.Tidy) : p.Relanes p.pruneAll where
  rest := rfl
  tidy _ := hp.rows
  lane r := by
    have hrows : p.pruneAll.Tidy := hp.rows
    unfold lane
    cases h : p.lanes.get? r with
    | none =>
      have hnone : p.pruneAll.lanes.get? r = none :=
        Table.get?_eq_none_iff.2 fun hr => Table.get?_eq_none_iff.1 h
          ((List.filter_sublist.map Prod.fst).subset hr)
      rw [hnone]
    | some l =>
      have hmem := Table.mem_of_get?_eq_some h
      by_cases hl : l.isBare
      · have hnone : p.pruneAll.lanes.get? r = none := by
          rw [Option.eq_none_iff_forall_ne_some]
          intro k hk
          obtain ⟨hk, hfull⟩ := List.mem_filter.1 (Table.mem_of_get?_eq_some hk)
          rw [Table.get?_eq_some_of_mem hp hk, Option.some.injEq] at h
          simp [h, hl] at hfull
        rw [hnone, Lane.isBare_iff.1 hl]
        rfl
      · rw [Table.get?_eq_some_of_mem hrows (List.mem_filter.2 ⟨hmem, by simp [hl]⟩)]

end ConnectionPool.Pool
