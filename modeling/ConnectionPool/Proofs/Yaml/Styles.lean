import ConnectionPool.Proofs.Yaml.Quoted
import ConnectionPool.Proofs.Yaml.Literal

namespace ConnectionPool.Yaml

variable {cs : List Char}

namespace Traits

theorem hasNeighbours_append {p q : Char → Bool} {xs ys : List Char} {a b : Char} (ha : p a) (hb : q b) :
    hasNeighbours p q (xs ++ a :: b :: ys) = true := by
  induction xs with
  | nil => simp [hasNeighbours, ha, hb]
  | cons x xs ih => cases xs <;> simp_all [hasNeighbours]

theorem hasInnerMarkup_colon {xs ys : List Char} (hxs : xs ≠ []) (hys : endsWord ys) :
    hasInnerMarkup (xs ++ ':' :: ys) = true := by
  induction xs with
  | nil => exact absurd rfl hxs
  | cons x xs ih => cases xs <;> simp_all [hasInnerMarkup]

theorem hasInnerMarkup_hash (xs ys : List Char) : hasInnerMarkup (xs ++ ' ' :: '#' :: ys) = true := by
  induction xs with
  | nil => simp [hasInnerMarkup, isSpacing, isBlank]
  | cons x xs ih => cases xs <;> simp_all [hasInnerMarkup]

end Traits

def Style.Holds (cs : List Char) : Style → Prop
  | plain => Bare cs ∧ (∀ x ∈ cs, isPrintable x) ∧ Traits.startsMarkup cs = false
  | singleQuoted => Foldable cs
  | doubleQuoted => True
  | literal => cs ≠ [] ∧ ∀ x ∈ cs, isPrintable x
  | folded => False

theorem Traits.holds_plain (hne : cs ≠ []) (h : (ofChars cs).allowsPlain) : Style.plain.Holds cs := by
  simp only [allowsPlain, ofChars, Bool.not_or, Bool.and_eq_true, Bool.not_eq_true'] at h
  obtain ⟨⟨⟨⟨⟨⟨⟨hstart, hinner⟩, hspecial⟩, hbreak⟩, hfirst⟩, -⟩, hlast⟩, -⟩ := h
  have hprintable : ∀ x ∈ cs, isPrintable x := by simpa using hspecial
  have hbreak : ∀ x ∈ cs, isBreak x = false := by simpa using hbreak
  have hblank : ∀ x ∈ cs, isSpacing x → x = ' ' := fun x hx hspacing =>
    (isSpacing_of_printable (hprintable x hx) hspacing).resolve_right (by simp [hbreak x hx])
  obtain ⟨x, xs, rfl⟩ := List.exists_cons_of_ne_nil hne
  refine ⟨⟨hne, ?_, ?_, by simpa using hlast, hblank, fun ys zs hcs => ?_, fun ys zs hcs => ?_⟩,
    hprintable, hstart⟩
  · refine solid_cons.2 ?_
    by_contra hspacing
    have hx := hblank x (by simp) (by simpa using hspacing)
    simp [hx] at hfirst
  · intro hhash
    obtain rfl : x = '#' := by simpa using hhash
    simp [startsMarkup, isIndicator] at hstart
  · by_contra hends
    have hends : endsWord zs = true := by simpa using hends
    cases ys with
    | nil =>
      obtain ⟨rfl, rfl⟩ := List.cons.inj hcs
      simp [startsMarkup, hends] at hstart
    | cons y ys =>
      rw [hcs, hasInnerMarkup_colon (by simp) hends] at hinner
      cases hinner
  · rw [hcs, hasInnerMarkup_hash] at hinner
    cases hinner

theorem Traits.holds_singleQuoted (hfeed : '\n' ∉ cs) (h : (ofChars cs).allowsSingleQuoted) :
    Style.singleQuoted.Holds cs := by
  simp only [allowsSingleQuoted, ofChars, Bool.not_or, Bool.and_eq_true, Bool.not_eq_true'] at h
  obtain ⟨⟨hspecial, hafterBreak⟩, hafterSpace⟩ := h
  refine ⟨by simpa using hspecial, hfeed, fun xs b ys hb hcs => ?_, fun xs b ys hb hcs => ?_⟩
  · rw [hcs, hasNeighbours_append (by simp) hb] at hafterSpace
    cases hafterSpace
  · rw [hcs, hasNeighbours_append hb (by simp)] at hafterBreak
    cases hafterBreak

theorem Style.holds_ofText (s : String) : (Style.ofText s).Holds s.toList := by
  unfold Style.ofText
  dsimp only
  split
  · next hfeed =>
    split
    · next hliteral =>
      have hne : s.toList ≠ [] := fun h => by simp [h] at hfeed
      simp only [Traits.allowsLiteral, Traits.ofChars, Bool.not_or, Bool.and_eq_true] at hliteral
      exact ⟨hne, by simpa using hliteral.1.1⟩
    · exact trivial
  · next hfeed =>
    split
    · next hplain =>
      obtain ⟨htext, hplain⟩ := Bool.and_eq_true_iff.1 hplain
      refine Traits.holds_plain (fun hnil => ?_) hplain
      obtain rfl : s = "" := String.toList_eq_nil_iff.1 hnil
      simp [Scalar.isText] at htext
    · split
      · next hquoted => exact Traits.holds_singleQuoted (by simpa using hfeed) hquoted
      · exact trivial

def isLetter (x : Char) : Bool := x.isAlphanum || x = '_'

structure IsWord (cs : List Char) : Prop where
  ne_nil : cs ≠ []
  letters : ∀ x ∈ cs, isLetter x

instance : Decidable (IsWord cs) :=
  decidable_of_iff (cs ≠ [] ∧ cs.all isLetter) ⟨fun h => ⟨h.1, List.all_eq_true.1 h.2⟩,
    fun h => ⟨h.1, List.all_eq_true.2 h.2⟩⟩

section

variable {x y : Char} (h : isLetter x)
include h

theorem isLetter_ne (hy : isLetter y = false) : x ≠ y := by
  rintro rfl
  simp [h] at hy

theorem contains_of_isLetter {ys : List Char} (hys : ys.any isLetter = false) : ys.contains x = false := by
  rw [List.contains_eq_mem, decide_eq_false_iff_not]
  exact fun hx => List.any_eq_false.1 hys x hx h

theorem isIndicator_of_isLetter : isIndicator x = false := by
  rw [isIndicator, isFlowIndicator, contains_of_isLetter h (by decide), contains_of_isLetter h (by decide)]
  rfl

theorem toNat_ne_of_isLetter {n : Nat} (hn : isLetter (Char.ofNat n) = false) : x.toNat ≠ n := by
  rintro rfl
  rw [Char.ofNat_toNat, h] at hn
  cases hn

theorem isSpacing_of_isLetter : isSpacing x = false := by
  simp only [isSpacing, isBlank, isBreak, Bool.or_eq_false_iff, decide_eq_false_iff_not]
  exact ⟨⟨isLetter_ne h rfl, isLetter_ne h rfl⟩, ⟨⟨⟨isLetter_ne h rfl, isLetter_ne h rfl⟩,
    toNat_ne_of_isLetter h rfl⟩, toNat_ne_of_isLetter h rfl⟩, toNat_ne_of_isLetter h rfl⟩

theorem isLetter_cases : x.isUpper ∨ x.isLower ∨ x.isDigit ∨ x = '_' := by
  unfold isLetter Char.isAlphanum Char.isAlpha at h
  simpa [or_assoc] using h

theorem toNat_of_isLetter : 0x30 ≤ x.toNat ∧ x.toNat ≤ 0x7A := by
  have hrange : ∃ a b : Char, 0x30 ≤ a.toNat ∧ b.toNat ≤ 0x7A ∧ a ≤ x ∧ x ≤ b := by
    rcases isLetter_cases h with hupper | hlower | hdigit | rfl
    · exact ⟨'A', 'Z', by decide, by decide, of_decide_eq_true hupper⟩
    · have hle := Bool.and_eq_true_iff.1 hlower
      exact ⟨'a', 'z', by decide, by decide, of_decide_eq_true hle.1, of_decide_eq_true hle.2⟩
    · have hle := Bool.and_eq_true_iff.1 hdigit
      exact ⟨'0', '9', by decide, by decide, of_decide_eq_true hle.1, of_decide_eq_true hle.2⟩
    · exact ⟨'_', '_', by decide, by decide, Char.le_refl _, Char.le_refl _⟩
  obtain ⟨a, b, ha, hb, hax, hxb⟩ := hrange
  exact ⟨Nat.le_trans ha (UInt32.le_iff_toNat_le.1 hax), Nat.le_trans (UInt32.le_iff_toNat_le.1 hxb) hb⟩

theorem utf8Size_of_isLetter : x.utf8Size = 1 := by
  have hle := (toNat_of_isLetter h).2
  rw [Char.utf8Size, if_pos]
  exact UInt32.le_iff_toNat_le.2 (Nat.le_trans hle (by decide))

theorem isPrintable_of_isLetter : isPrintable x := by
  have hrange := toNat_of_isLetter h
  simp only [isPrintable, Bool.or_eq_true, Bool.and_eq_true, decide_eq_true_eq]
  omega

end

theorem IsWord.bare (h : IsWord cs) : Bare cs where
  ne_nil := h.ne_nil
  solid x hx := isSpacing_of_isLetter (h.letters x (List.mem_of_mem_head? hx))
  first hx := isLetter_ne (h.letters _ (List.mem_of_mem_head? hx)) rfl rfl
  last hx := isLetter_ne (h.letters _ (List.mem_of_mem_getLast? hx)) rfl rfl
  blank x hx hspacing := by simp [isSpacing_of_isLetter (h.letters x hx)] at hspacing
  colon xs ys hcs := absurd rfl (isLetter_ne (h.letters ':' (by simp [hcs])) rfl)
  hash xs ys hcs := absurd rfl (isLetter_ne (h.letters '#' (by simp [hcs])) rfl)

theorem IsWord.holds_plain (h : IsWord cs) : Style.plain.Holds cs := by
  refine ⟨h.bare, fun x hx => isPrintable_of_isLetter (h.letters x hx), ?_⟩
  obtain ⟨x, xs, rfl⟩ := List.exists_cons_of_ne_nil h.ne_nil
  have hx := h.letters x (by simp)
  have hdash : x ≠ '-' := isLetter_ne hx rfl
  have hdot : x ≠ '.' := isLetter_ne hx rfl
  rw [Traits.startsMarkup, isIndicator_of_isLetter hx, contains_of_isLetter hx (by decide)]
  simp [hdash, hdot]

theorem isWord_toString (n : Nat) : IsWord (toString n).toList where
  ne_nil := by simp [Nat.toDigits_ne_nil]
  letters x hx := by
    rw [Nat.toString_eq_ofList_toDigits, String.toList_ofList] at hx
    have hdigit : x.isDigit := Nat.isDigit_of_mem_toDigits (by decide) (by decide) hx
    simp [isLetter, Char.isAlphanum, hdigit]

end ConnectionPool.Yaml
