import ConnectionPool.Yaml.Printer
import ConnectionPool.Yaml.Scan

namespace ConnectionPool.Yaml

theorem hexDigit?_digitChar : ∀ {d : Nat}, d < 16 → hexDigit? d.digitChar = some d := by decide

theorem hexDigit?_toUpper_digitChar :
    ∀ {d : Nat}, d < 16 → hexDigit? d.digitChar.toUpper = some d := by decide

namespace Scalar

def shift? (base n : Nat) (c : Char) : Option Nat :=
  (hexDigit? c).bind fun d => if d < base then some (base * n + d) else none

theorem shift?_digitChar {base d : Nat} (hd : d < base) (hbase : base ≤ 16) (n : Nat) :
    shift? base n d.digitChar = some (base * n + d) := by
  rw [shift?, hexDigit?_digitChar (Nat.lt_of_lt_of_le hd hbase), Option.bind_some, if_pos hd]

theorem foldlM_toDigits {base : Nat} (h : 1 < base) (hbase : base ≤ 16) (n : Nat) :
    (Nat.toDigits base n).foldlM (shift? base) 0 = some n := by
  induction n using Nat.strongRecOn with
  | ind n ih =>
    rw [Nat.toDigits_eq_if h]
    split
    · next hn =>
      simp [shift?_digitChar hn hbase]
    · next hn =>
      have hlt : n / base < n := Nat.div_lt_self (by omega) h
      simp [List.foldlM_append, ih _ hlt, shift?_digitChar (Nat.mod_lt n (by omega)) hbase,
        Nat.div_add_mod]

theorem digits?_toDigits (base : Nat) (h : 1 < base) (hbase : base ≤ 16) (n : Nat) :
    digits? base (Nat.toDigits base n) = some n := by
  rw [digits?, if_neg Nat.toDigits_ne_nil]
  exact foldlM_toDigits h hbase n

theorem head?_toDigits {base n : Nat} (h : 1 < base) (hn : 0 < n) :
    (Nat.toDigits base n).head? ≠ some '0' := by
  induction n using Nat.strongRecOn with
  | ind n ih =>
    rw [Nat.toDigits_eq_if h]
    split
    · simp
      omega
    · next hle =>
      have hpos : 0 < n / base := Nat.div_pos (by omega) (by omega)
      have hrest := ih _ (Nat.div_lt_self hn h) hpos
      obtain ⟨c, cs, hcs⟩ := List.exists_cons_of_ne_nil (Nat.toDigits_ne_nil (b := base) (n := n / base))
      rw [hcs] at hrest ⊢
      exact hrest

theorem toDigits_ne_zero_cons (base : Nat) (h : 1 < base) (n : Nat) (c : Char) (cs : List Char) :
    Nat.toDigits base n ≠ '0' :: c :: cs := by
  intro heq
  rcases Nat.eq_zero_or_pos n with rfl | hn
  · simp at heq
  · exact head?_toDigits h hn (by simp [heq])

theorem natural?_toString {bound n : Nat} (h : n < bound) : natural? bound (toString n) = some n := by
  have hdigit : ∀ c ∈ Nat.toDigits 10 n, c.isDigit := fun c hc =>
    Nat.isDigit_of_mem_toDigits (by decide) (by decide) hc
  have hread := digits?_toDigits 10 (by decide) (by decide) n
  have hpadded := toDigits_ne_zero_cons 10 (by decide) n
  rw [natural?, Nat.toString_eq_ofList_toDigits, String.toList_ofList]
  generalize Nat.toDigits 10 n = cs at hdigit hread hpadded
  have hplus : dropPlus cs = cs := by
    unfold dropPlus
    split
    · exact absurd (hdigit '+' List.mem_cons_self) (by decide)
    · rfl
  have hsign : dropSign cs = cs := by
    unfold dropSign
    split
    · exact absurd (hdigit '+' List.mem_cons_self) (by decide)
    · exact absurd (hdigit '-' List.mem_cons_self) (by decide)
    · rfl
  have hbased : based? cs = none := by
    unfold based?
    split <;> first | rfl | exact absurd (hdigit _ (List.mem_cons_of_mem _ List.mem_cons_self)) (by decide)
  have hnot : isPadded cs = false := by
    unfold isPadded
    split
    · next c rest => exact absurd rfl (hpadded c rest)
    · rfl
  simp [hplus, hsign, hbased, hnot, hread, h]

end Scalar

theorem Scan.hexNumber?_zeros (n : Nat) (cs : List Char) :
    Scan.hexNumber? (List.replicate n '0' ++ cs) = Scan.hexNumber? cs := by
  induction n with
  | zero => rfl
  | succ n ih => exact ih

theorem Scan.hexNumber?_toDigits (n : Nat) :
    Scan.hexNumber? ((Nat.toDigits 16 n).map Char.toUpper) = some n := by
  unfold Scan.hexNumber?
  induction n using Nat.strongRecOn with
  | ind n ih =>
    rw [Nat.toDigits_eq_if (by decide)]
    split
    · next hn => simp [hexDigit?_toUpper_digitChar hn]
    · next hn =>
      have hlt : n / 16 < n := Nat.div_lt_self (by omega) (by decide)
      simp [List.foldlM_append, ih _ hlt, hexDigit?_toUpper_digitChar (Nat.mod_lt n (by decide)),
        Nat.div_add_mod]

theorem Printer.hexNumber?_hex (width n : Nat) : Scan.hexNumber? (hex width n).toList = some n := by
  rw [hex, String.toList_ofList, Scan.hexNumber?_zeros, Scan.hexNumber?_toDigits]

theorem Printer.length_hex {width n : Nat} (hwidth : 0 < width) (h : n < Nat.pow 16 width) :
    (hex width n).toList.length = width := by
  have hle : (Nat.toDigits 16 n).length ≤ width :=
    (Nat.length_toDigits_le_iff (by decide) hwidth).2 h
  simp only [hex, String.toList_ofList, List.length_append,
    List.length_replicate, List.length_map]
  omega

end ConnectionPool.Yaml
