import ConnectionPool.Table
import Mathlib.Algebra.BigOperators.Group.Multiset.Basic

namespace ConnectionPool.Table

variable {κ ν : Type}

@[simp] theorem keys_nil : keys ([] : Table κ ν) = [] := rfl

@[simp] theorem keys_cons (k : κ) (v : ν) (t : Table κ ν) :
    keys ((k, v) :: t) = k :: keys t := rfl

@[simp] theorem keys_map (t : Table κ ν) (g : ν → ν) :
    keys (t.map fun x => (x.1, g x.2)) = t.keys := by
  simp [keys]

theorem mem_keys_of_mem {t : Table κ ν} {x : κ} {v : ν} (h : (x, v) ∈ t) : x ∈ t.keys :=
  List.mem_map.2 ⟨(x, v), h, rfl⟩

def total {M : Type} [AddCommMonoid M] (f : κ → ν → M) (t : Table κ ν) : M :=
  (t.map fun p => f p.1 p.2).sum

@[simp] theorem total_nil {M : Type} [AddCommMonoid M] (f : κ → ν → M) : total f [] = 0 := rfl

@[simp] theorem total_cons {M : Type} [AddCommMonoid M] (f : κ → ν → M) (p : κ × ν)
    (t : Table κ ν) : total f (p :: t) = f p.1 p.2 + total f t := by
  simp [total]

theorem mem_total {α : Type} {f : κ → ν → Multiset α} {t : Table κ ν} {a : α} :
    a ∈ t.total f ↔ ∃ p ∈ t, a ∈ f p.1 p.2 := by
  induction t with
  | nil => simp
  | cons p t ih => rw [total_cons, Multiset.mem_add, ih, List.exists_mem_cons_iff]

theorem total_eq_of_perm {M : Type} [AddCommMonoid M] {t t' : Table κ ν} (h : t'.Perm t)
    (f : κ → ν → M) : t'.total f = t.total f := (h.map _).sum_eq

variable [DecidableEq κ]

theorem mem_keys_put {t : Table κ ν} {x y : κ} {v : ν} :
    y ∈ (t.put x v).keys ↔ y = x ∨ y ∈ t.keys := by
  induction t with
  | nil => simp [put, keys]
  | cons p t ih =>
    obtain ⟨k, w⟩ := p
    by_cases h : k = x
    · subst h
      simp [put]
    · simp only [put, h, if_false, keys_cons, List.mem_cons, ih]
      tauto

theorem keys_sublist_put (t : Table κ ν) (x : κ) (v : ν) : t.keys.Sublist (t.put x v).keys := by
  induction t with
  | nil => exact List.nil_sublist _
  | cons p t ih =>
    obtain ⟨k, w⟩ := p
    by_cases h : k = x
    · simp [put, h]
    · simpa [put, h] using ih

theorem mem_keys_remove {t : Table κ ν} {x y : κ} :
    y ∈ (t.remove x).keys ↔ y ≠ x ∧ y ∈ t.keys := by
  induction t with
  | nil => simp [remove]
  | cons p t ih =>
    obtain ⟨k, w⟩ := p
    by_cases h : k = x
    · subst h
      simp only [remove, if_true, keys_cons, List.mem_cons, ih]
      tauto
    · simp only [remove, h, if_false, keys_cons, List.mem_cons, ih]
      grind

theorem nodup_keys_put {t : Table κ ν} (x : κ) (v : ν) (h : t.keys.Nodup) :
    (t.put x v).keys.Nodup := by
  induction t with
  | nil => simp [put]
  | cons p t ih =>
    obtain ⟨k, w⟩ := p
    simp only [keys_cons, List.nodup_cons] at h
    by_cases hk : k = x
    · subst hk
      simpa [put] using h
    · simp only [put, hk, if_false, keys_cons, List.nodup_cons]
      exact ⟨by rw [mem_keys_put]; tauto, ih h.2⟩

theorem nodup_keys_remove {t : Table κ ν} (x : κ) (h : t.keys.Nodup) :
    (t.remove x).keys.Nodup := by
  induction t with
  | nil => simp [remove]
  | cons p t ih =>
    obtain ⟨k, w⟩ := p
    simp only [keys_cons, List.nodup_cons] at h
    by_cases hk : k = x
    · simpa [remove, hk] using ih h.2
    · simp only [remove, hk, if_false, keys_cons, List.nodup_cons]
      exact ⟨by rw [mem_keys_remove]; tauto, ih h.2⟩

theorem remove_eq_filter (t : Table κ ν) (x : κ) : t.remove x = t.filter (·.1 ≠ x) := by
  induction t with
  | nil => rfl
  | cons p t ih =>
    obtain ⟨k, w⟩ := p
    by_cases h : k = x <;> simp [remove, h, ih]

theorem get?_eq_none_iff {t : Table κ ν} {x : κ} : t.get? x = none ↔ x ∉ t.keys := by
  induction t with
  | nil => simp
  | cons p t ih =>
    obtain ⟨k, w⟩ := p
    by_cases h : k = x
    · simp [get?, h]
    · simp only [get?, h, if_false, ih, keys_cons, List.mem_cons, not_or]
      tauto

theorem mem_of_get?_eq_some {t : Table κ ν} {x : κ} {v : ν} (h : t.get? x = some v) :
    (x, v) ∈ t := by
  induction t with
  | nil => simp at h
  | cons p t ih =>
    obtain ⟨k, w⟩ := p
    by_cases hk : k = x
    · simp only [get?, hk, if_true, Option.some.injEq] at h
      simp [hk, h]
    · simp only [get?, hk, if_false] at h
      exact List.mem_cons_of_mem _ (ih h)

theorem get?_eq_some_of_mem {t : Table κ ν} {x : κ} {v : ν} (hn : t.keys.Nodup)
    (h : (x, v) ∈ t) : t.get? x = some v := by
  induction t with
  | nil => simp at h
  | cons p t ih =>
    obtain ⟨k, w⟩ := p
    simp only [keys_cons, List.nodup_cons] at hn
    rcases List.mem_cons.1 h with h | h
    · cases h
      simp [get?]
    · have hk : k ≠ x := by
        rintro rfl
        exact hn.1 (mem_keys_of_mem h)
      simpa [get?, hk] using ih hn.2 h

theorem get?_eq_some_iff {t : Table κ ν} {x : κ} {v : ν} (hn : t.keys.Nodup) :
    t.get? x = some v ↔ (x, v) ∈ t :=
  ⟨mem_of_get?_eq_some, get?_eq_some_of_mem hn⟩

theorem get?_eq_of_perm {t t' : Table κ ν} (h : t'.Perm t) (hn : t.keys.Nodup) (x : κ) :
    t'.get? x = t.get? x := by
  have hn' : t'.keys.Nodup := (h.map Prod.fst).nodup_iff.2 hn
  refine Option.ext fun y => ?_
  rw [get?_eq_some_iff hn', get?_eq_some_iff hn, h.mem_iff]

theorem perm_of_get?_eq {t t' : Table κ ν} (hn : t.keys.Nodup) (hn' : t'.keys.Nodup)
    (h : ∀ x, t'.get? x = t.get? x) : t'.Perm t := by
  refine (List.perm_ext_iff_of_nodup hn'.of_map hn.of_map).2 fun x => ?_
  rw [← get?_eq_some_iff hn', h, get?_eq_some_iff hn]

theorem put_of_get?_eq_none {t : Table κ ν} {x : κ} (v : ν) (h : t.get? x = none) :
    t.put x v = t ++ [(x, v)] := by
  induction t with
  | nil => rfl
  | cons p t ih =>
    obtain ⟨k, w⟩ := p
    by_cases hk : k = x
    · simp [get?, hk] at h
    · simp only [get?, hk, if_false] at h
      simp [put, hk, ih h]

theorem remove_of_get?_eq_none {t : Table κ ν} {x : κ} (h : t.get? x = none) :
    t.remove x = t := by
  rw [remove_eq_filter, List.filter_eq_self]
  rintro ⟨k, v⟩ hk
  have hx : x ∉ t.keys := get?_eq_none_iff.1 h
  have hne : k ≠ x := by
    rintro rfl
    exact hx (mem_keys_of_mem hk)
  simpa using hne

theorem put_of_get?_eq_some {t : Table κ ν} {x : κ} {v : ν} (h : t.get? x = some v) :
    t.put x v = t := by
  induction t with
  | nil => simp at h
  | cons p t ih =>
    obtain ⟨k, w⟩ := p
    by_cases hk : k = x
    · simp_all [get?, put]
    · rw [get?, if_neg hk] at h
      rw [put, if_neg hk, ih h]

theorem put_put (t : Table κ ν) (x : κ) (v w : ν) : (t.put x v).put x w = t.put x w := by
  induction t with
  | nil => simp [put]
  | cons p t ih =>
    obtain ⟨k, u⟩ := p
    by_cases hk : k = x <;> simp [put, hk, ih]

theorem remove_put (t : Table κ ν) (x : κ) (v : ν) : (t.put x v).remove x = t.remove x := by
  induction t with
  | nil => simp [put, remove]
  | cons p t ih =>
    obtain ⟨k, u⟩ := p
    by_cases hk : k = x <;> simp [put, remove, hk, ih]

theorem remove_remove (t : Table κ ν) (x : κ) : (t.remove x).remove x = t.remove x := by
  simp [remove_eq_filter]

theorem get?_map (t : Table κ ν) (g : ν → ν) (x : κ) :
    get? (t.map fun x => (x.1, g x.2)) x = (t.get? x).map g := by
  induction t with
  | nil => rfl
  | cons p t ih =>
    obtain ⟨k, w⟩ := p
    by_cases h : k = x <;> simp [get?, h, ih]

theorem map_put (t : Table κ ν) (x : κ) (v : ν) (g : ν → ν) :
    (t.put x v).map (fun y => (y.1, g y.2)) = put (t.map fun y => (y.1, g y.2)) x (g v) := by
  induction t with
  | nil => rfl
  | cons y t ih => by_cases hy : y.1 = x <;> simp [put, hy, ih]

theorem map_remove (t : Table κ ν) (x : κ) (g : ν → ν) :
    (t.remove x).map (fun y => (y.1, g y.2)) = remove (t.map fun y => (y.1, g y.2)) x := by
  induction t with
  | nil => rfl
  | cons y t ih => by_cases hy : y.1 = x <;> simp [remove, hy, ih]

section Total

variable {M : Type} [AddCommMonoid M] (f : κ → ν → M)

theorem total_put (t : Table κ ν) (x : κ) (v : ν) :
    (t.put x v).total f + (t.get? x).elim 0 (f x) = t.total f + f x v := by
  induction t with
  | nil => simp [put]
  | cons p t ih =>
    obtain ⟨k, w⟩ := p
    by_cases hk : k = x
    · subst hk
      simp only [put, get?, if_true, total_cons, Option.elim_some]
      ac_rfl
    · simp only [put, get?, hk, if_false, total_cons, add_assoc, ih]

theorem total_remove {t : Table κ ν} (x : κ) (hn : t.keys.Nodup) :
    (t.remove x).total f + (t.get? x).elim 0 (f x) = t.total f := by
  induction t with
  | nil => simp [remove]
  | cons p t ih =>
    obtain ⟨k, w⟩ := p
    simp only [keys_cons, List.nodup_cons] at hn
    by_cases hk : k = x
    · subst hk
      simp only [remove, get?, if_true, total_cons, Option.elim_some,
        remove_of_get?_eq_none (get?_eq_none_iff.2 hn.1)]
      ac_rfl
    · simp only [remove, get?, hk, if_false, total_cons, add_assoc, ih hn.2]

theorem total_put_of_get?_eq_none {t : Table κ ν} {x : κ} (v : ν) (h : t.get? x = none) :
    (t.put x v).total f = t.total f + f x v := by
  simpa [h] using total_put f t x v

end Total

end ConnectionPool.Table
