namespace ConnectionPool

abbrev Table (κ ν : Type) := List (κ × ν)

namespace Table

variable {κ ν : Type} [DecidableEq κ]

def get? : Table κ ν → κ → Option ν
  | [], _ => none
  | (k, v) :: t, x => if k = x then some v else get? t x

def put : Table κ ν → κ → ν → Table κ ν
  | [], x, v => [(x, v)]
  | (k, w) :: t, x, v => if k = x then (x, v) :: t else (k, w) :: put t x v

def remove : Table κ ν → κ → Table κ ν
  | [], _ => []
  | (k, v) :: t, x => if k = x then remove t x else (k, v) :: remove t x

def keys (t : Table κ ν) : List κ := t.map Prod.fst

def has (t : Table κ ν) (x : κ) : Bool := (t.get? x).isSome

@[simp] theorem get?_nil (x : κ) : get? ([] : Table κ ν) x = none := rfl

@[simp] theorem get?_put_self (t : Table κ ν) (x : κ) (v : ν) : (t.put x v).get? x = some v := by
  induction t with
  | nil => simp [put, get?]
  | cons p t ih =>
    obtain ⟨k, w⟩ := p
    by_cases h : k = x <;> simp [put, get?, h, ih]

@[simp] theorem get?_put_of_ne (t : Table κ ν) {x y : κ} (v : ν) (h : x ≠ y) :
    (t.put x v).get? y = t.get? y := by
  induction t with
  | nil => simp [put, get?, h]
  | cons p t ih =>
    obtain ⟨k, w⟩ := p
    by_cases hk : k = x
    · simp [put, get?, hk, h]
    · simp [put, get?, hk, ih]

@[simp] theorem get?_remove_self (t : Table κ ν) (x : κ) : (t.remove x).get? x = none := by
  induction t with
  | nil => rfl
  | cons p t ih =>
    obtain ⟨k, w⟩ := p
    by_cases h : k = x <;> simp [remove, get?, h, ih]

@[simp] theorem get?_remove_of_ne (t : Table κ ν) {x y : κ} (h : x ≠ y) :
    (t.remove x).get? y = t.get? y := by
  induction t with
  | nil => rfl
  | cons p t ih =>
    obtain ⟨k, w⟩ := p
    by_cases hk : k = x
    · subst hk; simp [remove, get?, h, ih]
    · simp [remove, get?, hk, ih]

end Table

end ConnectionPool
