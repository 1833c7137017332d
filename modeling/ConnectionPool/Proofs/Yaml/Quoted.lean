import ConnectionPool.Proofs.Yaml.Plain

namespace ConnectionPool.Yaml

variable {c : Cursor} {cs rest : List Char}

namespace Scan

def quote (single : Bool) : Char := if single then '\'' else '"'

/-- What is written for a character in quotes is read as that character. -/
structure Encodes (single : Bool) (enc : Char → List Char) (x : Char) : Prop where
  ne_nil : enc x ≠ []
  reads : ∀ (fuel : Nat) (acc rest : List Char) (c : Cursor), c.rest = enc x ++ rest →
    quotedWord single (fuel + 1) acc c = quotedWord single fuel (acc ++ [x]) (c.skip (enc x).length)

section Quoted

variable {single : Bool} {enc : Char → List Char}

theorem quotedWord_of_spacing {x : Char} {xs : List Char} (hx : isSpacing x)
    (hc : c.rest = x :: xs) (fuel : Nat) (acc : List Char) :
    quotedWord single fuel acc c = .ok (acc, false, c) := by
  cases fuel with
  | zero => rfl
  | succ fuel => simp [quotedWord, hc, hx]

theorem quotedWord_of_quote {xs : List Char} (hxs : xs.head? ≠ some '\'')
    (hc : c.rest = quote single :: xs) (fuel : Nat) (acc : List Char) :
    quotedWord single fuel acc c = .ok (acc, false, c) := by
  cases fuel with
  | zero => rfl
  | succ fuel =>
    cases single with
    | true => simp [quotedWord, hc, quote, isSpacing, isBlank, isBreak, hxs]
    | false => simp [quotedWord, hc, quote, isSpacing, isBlank, isBreak]

theorem length_le_flatMap {w : List Char} (h : ∀ x ∈ w, enc x ≠ []) :
    w.length ≤ (w.flatMap enc).length := by
  induction w with
  | nil => simp
  | cons x w ih =>
    obtain ⟨hx, hw⟩ := List.forall_mem_cons.1 h
    have hpos := List.length_pos_iff.2 hx
    have hle := ih hw
    rw [List.flatMap_cons, List.length_append, List.length_cons]
    omega

variable {w : List Char} (hw : ∀ x ∈ w, Encodes single enc x)
include hw

theorem quotedWord_eq
    (hstop : ∀ (c : Cursor), c.rest = rest → ∀ (fuel : Nat) (acc : List Char),
      quotedWord single fuel acc c = .ok (acc, false, c))
    (hc : c.rest = w.flatMap enc ++ rest) (fuel : Nat) (hfuel : w.length ≤ fuel) (acc : List Char) :
    quotedWord single fuel acc c = .ok (acc ++ w, false, c.skip (w.flatMap enc).length) := by
  induction w generalizing c fuel acc with
  | nil => simpa using hstop c hc fuel acc
  | cons x w ih =>
    obtain ⟨hx, hw⟩ := List.forall_mem_cons.1 hw
    obtain ⟨n, rfl⟩ := Nat.exists_eq_add_one.2 (Nat.lt_of_lt_of_le (Nat.succ_pos _) hfuel)
    rw [List.flatMap_cons, List.append_assoc] at hc
    have hnext := ih hw (Cursor.rest_skip_append hc) n (by simpa using hfuel) (acc ++ [x])
    rw [hx.reads n acc _ c hc, hnext]
    simp

theorem quoted_word (hcol : c.column ≠ 0) (hne : rest ≠ [])
    (hstop : ∀ (c : Cursor), c.rest = rest → ∀ (fuel : Nat) (acc : List Char),
      quotedWord single fuel acc c = .ok (acc, false, c))
    (hc : c.rest = w.flatMap enc ++ rest) (text : List Char) (fuel : Nat) :
    ∃ d : Cursor, d.rest = rest ∧ quoted single (fuel + 1) text c =
      if d.sees (quote single) then .ok (text ++ w, d.skip)
      else (Gap.read 0 d.rest.length {} d).bind fun (g, e) =>
        quoted single fuel (text ++ w ++ g.fold) e := by
  have hlen : w.length ≤ c.rest.length := by
    rw [hc, List.length_append]
    exact Nat.le_trans (length_le_flatMap fun x hx => (hw x hx).ne_nil) (Nat.le_add_right _ _)
  have hread := quotedWord_eq hw hstop hc _ hlen []
  have hmark : c.atDocumentMarker = false := Cursor.atDocumentMarker_of_column hcol
  have hrest : c.rest ≠ [] := by simp [hc, hne]
  refine ⟨_, Cursor.rest_skip_append hc, ?_⟩
  generalize (w.flatMap enc).length = n at hread
  rw [quoted, hmark, hread]
  simp [hrest, quote, bind, Except.bind]

variable (hcol : c.column ≠ 0)
include hcol

theorem quoted_close {xs : List Char} (hxs : xs.head? ≠ some '\'')
    (hc : c.rest = w.flatMap enc ++ quote single :: xs) (text : List Char) (fuel : Nat) :
    ∃ d : Cursor, quoted single (fuel + 1) text c = .ok (text ++ w, d) ∧ d.rest = xs := by
  obtain ⟨d, hd, hquoted⟩ := quoted_word hw hcol (by simp) (fun _ => quotedWord_of_quote hxs) hc text fuel
  have hsees : d.sees (quote single) := by simp [Cursor.sees, hd]
  exact ⟨d.skip, hquoted.trans (if_pos hsees), Cursor.rest_skip_cons hd⟩

theorem quoted_gap {x : Char} {xs : List Char} (hx : isSpacing x)
    (hc : c.rest = w.flatMap enc ++ x :: xs) (text : List Char) (fuel : Nat) :
    ∃ d : Cursor, d.rest = x :: xs ∧ quoted single (fuel + 1) text c =
      (Gap.read 0 d.rest.length {} d).bind fun (g, e) =>
        quoted single fuel (text ++ w ++ g.fold) e := by
  obtain ⟨d, hd, hquoted⟩ := quoted_word hw hcol (by simp) (fun _ => quotedWord_of_spacing hx) hc text fuel
  have hne : x ≠ quote single := by
    rintro rfl
    cases single <;> exact absurd hx (by decide)
  have hsees : ¬ d.sees (quote single) := by simp [Cursor.sees, hd, hne]
  exact ⟨d, hd, hquoted.trans (if_neg hsees)⟩

end Quoted

end Scan

/-! Single quotes.  A text may go over several lines there, each of them indented. -/

structure Foldable (cs : List Char) : Prop where
  printable : ∀ x ∈ cs, isPrintable x
  noFeed : '\n' ∉ cs
  spaceBreak : ∀ xs b ys, isBreak b → cs ≠ xs ++ ' ' :: b :: ys
  breakSpace : ∀ xs b ys, isBreak b → cs ≠ xs ++ b :: ' ' :: ys

theorem Foldable.suffix (ds : List Char) (h : Foldable (ds ++ cs)) : Foldable cs where
  printable x hx := h.printable x (List.mem_append_right _ hx)
  noFeed hx := h.noFeed (List.mem_append_right _ hx)
  spaceBreak xs b ys hb hcs := h.spaceBreak (ds ++ xs) b ys hb (by rw [hcs, List.append_assoc])
  breakSpace xs b ys hb hcs := h.breakSpace (ds ++ xs) b ys hb (by rw [hcs, List.append_assoc])

/-- What may stand between two words: spaces or breaks. -/
inductive IsGap : List Char → Prop
  | spaces (k : Nat) : IsGap (List.replicate (k + 1) ' ')
  | breaks {b : Char} {bs : List Char} (h : ∀ x ∈ b :: bs, isBreak x) : IsGap (b :: bs)

theorem Foldable.exists_word (h : Foldable cs) : ∃ w, (∀ x ∈ w, isSpacing x = false) ∧
    (cs = w ∨ ∃ gs ds, cs = w ++ (gs ++ ds) ∧ IsGap gs ∧ Solid ds) := by
  obtain ⟨w, zs, rfl, hw, hzs⟩ := exists_run (fun x => !isSpacing x) cs
  refine ⟨w, fun x hx => by simpa using hw x hx, ?_⟩
  obtain ⟨k, ds, rfl, hds⟩ := exists_spaces zs
  have hspace {ys : List Char} {x : Char} (hx : x ∈ ys.head?) (hys : Foldable ys) (hne : x ≠ ' ')
      (hbreak : isBreak x = false) : isSpacing x = false := by
    by_contra hnot
    have hprintable : isPrintable x := hys.printable x (List.mem_of_mem_head? hx)
    have hcases := isSpacing_of_printable hprintable (by simpa using hnot)
    exact hcases.elim hne (by simp [hbreak])
  cases k with
  | succ k =>
    have hsuffix : Foldable ds := (h.suffix w).suffix _
    refine .inr ⟨_, ds, rfl, .spaces k, fun x hx => hspace hx hsuffix (hds x hx) ?_⟩
    obtain ⟨ys, rfl⟩ := List.head?_eq_some_iff.1 hx
    by_contra hbreak
    exact h.spaceBreak (w ++ List.replicate k ' ') x ys (by simpa using hbreak)
      (by simp [List.replicate_succ'])
  | zero =>
    cases ds with
    | nil => exact .inl (by simp)
    | cons y ds =>
      have hspacing : isSpacing y = true := by simpa using hzs y rfl
      have hy : isBreak y :=
        (isSpacing_of_printable (h.printable y (by simp)) hspacing).resolve_left (hds y rfl)
      obtain ⟨bs, es, rfl, hbs, hes⟩ := exists_run isBreak ds
      have hbreaks : ∀ x ∈ y :: bs, isBreak x := List.forall_mem_cons.2 ⟨hy, hbs⟩
      refine .inr ⟨y :: bs, es, rfl, .breaks hbreaks, fun x hx => ?_⟩
      have hsuffix : Foldable es := (h.suffix w).suffix (y :: bs)
      refine hspace hx hsuffix ?_ (hes x hx)
      rintro rfl
      obtain ⟨ys, rfl⟩ := List.head?_eq_some_iff.1 hx
      obtain ⟨zs, b, hzs⟩ := List.eq_nil_or_concat' (y :: bs) |>.resolve_left (by simp)
      have hlast : y :: (bs ++ ' ' :: ys) = zs ++ b :: ' ' :: ys := by
        rw [← List.cons_append, hzs, List.append_assoc, List.singleton_append]
      exact h.breakSpace (w ++ zs) b ys (hbreaks b (by simp [hzs])) (by simp [hlast])

namespace Printer

def doubled (x : Char) : List Char := if x = '\'' then ['\'', '\''] else [x]

theorem encodes_doubled {x : Char} (hx : isSpacing x = false) : Scan.Encodes true doubled x where
  ne_nil := by
    unfold doubled
    split <;> simp
  reads fuel acc rest c hc := by
    by_cases hq : x = '\''
    · subst hq
      have hc : c.rest = '\'' :: '\'' :: rest := hc
      rw [Scan.quotedWord, hc]
      simp [doubled, isSpacing, isBlank, isBreak]
    · have hc : c.rest = x :: rest := by simpa [doubled, hq] using hc
      rw [Scan.quotedWord, hc]
      simp [doubled, hq, hx]

variable (indent : Nat) {w bs : List Char}

theorem insideSingle_word (hw : ∀ x ∈ w, isBreak x = false) (cs : List Char) :
    (insideSingle indent false (w ++ cs)).toList =
      w.flatMap doubled ++ (insideSingle indent false cs).toList := by
  induction w with
  | nil => rfl
  | cons x w ih =>
    obtain ⟨hx, hw⟩ := List.forall_mem_cons.1 hw
    rw [List.cons_append, insideSingle, List.flatMap_cons, List.append_assoc, ← ih hw]
    simp only [hx, Bool.false_eq_true, if_false, String.toList_append, doubled]
    split <;> simp

theorem insideSingle_true (hcs : ∀ x ∈ cs.head?, isBreak x = false) :
    (insideSingle indent true cs).toList =
      List.replicate indent ' ' ++ (insideSingle indent false cs).toList := by
  cases cs with
  | nil => simp [insideSingle, indentation]
  | cons x cs =>
    rw [insideSingle, insideSingle]
    simp [hcs x rfl, indentation]

theorem insideSingle_more (hbs : ∀ b ∈ bs, isBreak b) (hcs : ∀ x ∈ cs.head?, isBreak x = false) :
    (insideSingle indent true (bs ++ cs)).toList =
      bs ++ (List.replicate indent ' ' ++ (insideSingle indent false cs).toList) := by
  induction bs with
  | nil => exact insideSingle_true indent hcs
  | cons b bs ih =>
    obtain ⟨hb, hbs⟩ := List.forall_mem_cons.1 hbs
    rw [List.cons_append, insideSingle]
    simp [hb, ih hbs]

theorem insideSingle_breaks {b : Char} (hbs : ∀ x ∈ b :: bs, isBreak x) (hb : b ≠ '\n')
    (hcs : ∀ x ∈ cs.head?, isBreak x = false) : (insideSingle indent false (b :: bs ++ cs)).toList =
      b :: bs ++ (List.replicate indent ' ' ++ (insideSingle indent false cs).toList) := by
  obtain ⟨hbreak, hbs⟩ := List.forall_mem_cons.1 hbs
  rw [List.cons_append, insideSingle]
  simp [hbreak, hb, insideSingle_more indent hbs hcs]

theorem length_le_insideSingle (a : Bool) (cs : List Char) :
    cs.length ≤ (insideSingle indent a cs).toList.length := by
  induction cs generalizing a with
  | nil => simp
  | cons x cs ih =>
    rw [insideSingle]
    split
    · have hle := ih true
      simp
      omega
    · have hle := ih false
      have hpos : 0 < (if x = '\'' then "''" else x.toString).toList.length := by split <;> simp
      simp only [String.toList_append, List.length_append, List.length_cons]
      omega

theorem insideSingle_gap {gs : List Char} (hgs : IsGap gs) (h : Foldable (gs ++ cs)) (hcs : Solid cs) :
    ∃ x xs, isSpacing x ∧ (insideSingle indent false (gs ++ cs)).toList = x :: xs := by
  have hbreak : ∀ x ∈ cs.head?, isBreak x = false := fun x hx => isBreak_eq_false (hcs x hx)
  cases hgs with
  | spaces k =>
    rw [insideSingle_word indent (by simp [isBreak])]
    exact ⟨' ', _, rfl, rfl⟩
  | @breaks b bs hbs =>
    have hb : b ≠ '\n' := fun heq => h.noFeed (by simp [heq])
    rw [insideSingle_breaks indent hbs hb hbreak]
    exact ⟨b, _, by simp [isSpacing, hbs b], rfl⟩

theorem solid_insideSingle (hcs : Solid cs) :
    Solid ((insideSingle indent false cs).toList ++ '\'' :: rest) := by
  cases cs with
  | nil => exact solid_cons.2 rfl
  | cons x cs =>
    have hx := solid_cons.1 hcs
    have hword := insideSingle_word indent (w := [x]) (by simpa using isBreak_eq_false hx) cs
    rw [List.singleton_append] at hword
    rw [hword, List.flatMap_singleton]
    unfold doubled
    split
    · exact solid_cons.2 rfl
    · exact solid_cons.2 hx

end Printer

namespace Scan

open Printer

theorem read_gap {indent : Nat} {gs : List Char} (hindent : indent ≠ 0) (hgs : IsGap gs)
    (h : Foldable (gs ++ cs)) (hcs : Solid cs)
    (hc : c.rest = (insideSingle indent false (gs ++ cs)).toList ++ '\'' :: rest) :
    ∃ g d, Gap.read 0 c.rest.length {} c = .ok (g, d) ∧ g.fold = gs ∧
      d.rest = (insideSingle indent false cs).toList ++ '\'' :: rest ∧ d.column ≠ 0 := by
  have hbreak : ∀ x ∈ cs.head?, isBreak x = false := fun x hx => isBreak_eq_false (hcs x hx)
  have hsolid : Solid ((insideSingle indent false cs).toList ++ '\'' :: rest) :=
    solid_insideSingle indent hcs
  cases hgs with
  | spaces k =>
    have hdoubled : (List.replicate (k + 1) ' ').flatMap doubled = List.replicate (k + 1) ' ' := by
      simp [List.flatMap_replicate, doubled]
    rw [insideSingle_word indent (by simp [isBreak]), hdoubled, List.append_assoc] at hc
    exact ⟨_, _, Gap.read_spaces 0 hc hsolid, rfl, Cursor.rest_skip_spaces hc, by simp⟩
  | @breaks b bs hbs =>
    have hb : b ≠ '\n' := fun heq => h.noFeed (by simp [heq])
    have hprintable : ∀ x ∈ b :: bs, isBreak x ∧ isPrintable x := fun x hx =>
      ⟨hbs x hx, h.printable x (List.mem_append_left _ hx)⟩
    rw [insideSingle_breaks indent hbs hb hbreak, List.append_assoc, List.append_assoc] at hc
    obtain ⟨d, hread, hd, hdcol⟩ := Gap.read_breaks 0 hprintable hc hsolid
    refine ⟨_, d, hread, ?_, hd, by omega⟩
    simp only [Gap.fold, if_true]
    split
    · next heq => exact absurd (List.cons.inj heq).1 hb
    · rfl

theorem quoted_folded {indent : Nat} (hindent : indent ≠ 0) (h : Foldable cs) (hcol : c.column ≠ 0)
    (hrest : rest.head? ≠ some '\'')
    (hc : c.rest = (insideSingle indent false cs).toList ++ '\'' :: rest)
    (text : List Char) (fuel : Nat) (hfuel : cs.length < fuel) :
    ∃ d : Cursor, quoted true fuel text c = .ok (text ++ cs, d) ∧ d.rest = rest := by
  induction hlen : cs.length using Nat.strongRecOn generalizing cs text c fuel with
  | ind n ih =>
    obtain ⟨m, rfl⟩ := Nat.exists_eq_add_one.2 (Nat.zero_lt_of_lt hfuel)
    obtain ⟨w, hw, hcs⟩ := h.exists_word
    have hencodes : ∀ x ∈ w, Encodes true doubled x := fun x hx => encodes_doubled (hw x hx)
    have hbreak : ∀ x ∈ w, isBreak x = false := fun x hx => isBreak_eq_false (hw x hx)
    rcases hcs with rfl | ⟨gs, ds, rfl, hgs, hds⟩
    · have hword := insideSingle_word indent hbreak []
      rw [List.append_nil] at hword
      rw [hword, insideSingle] at hc
      have hclose : c.rest = cs.flatMap doubled ++ quote true :: rest := by simpa [quote] using hc
      exact quoted_close hencodes hcol hrest hclose text m
    · rw [insideSingle_word indent hbreak, List.append_assoc] at hc
      obtain ⟨x, xs, hx, heq⟩ := insideSingle_gap indent hgs (h.suffix w) hds
      rw [heq] at hc
      obtain ⟨d, hd, hquoted⟩ := quoted_gap hencodes hcol hx hc text m
      have hd : d.rest = x :: xs ++ '\'' :: rest := hd
      rw [← heq] at hd
      obtain ⟨g, e, hread, hfold, he, hecol⟩ := read_gap hindent hgs (h.suffix w) hds hd
      have hsuffix : Foldable ds := (h.suffix w).suffix gs
      have hpos : 0 < gs.length := by cases hgs <;> simp
      obtain ⟨f, hrest, hf⟩ := ih ds.length (by simp at hlen; omega) hsuffix hecol he
        (text ++ w ++ gs) m (by simp at hfuel; omega) rfl
      refine ⟨f, ?_, hf⟩
      rw [hquoted, hread]
      simpa [Except.bind, hfold] using hrest

end Scan

/-! Double quotes.  All that is no plain character is escaped there. -/

namespace Printer

open Scan

theorem escaped_cases {x : Char} (hx : x ≠ ' ') :
    (isSpacing x = false ∧ x ≠ '"' ∧ x ≠ '\\' ∧ (escaped x).toList = [x]) ∨
      (∃ y, isBreak y = false ∧ escape? y = some x ∧ (escaped x).toList = ['\\', y]) ∨
      ∃ y width, isBreak y = false ∧ escape? y = none ∧ escapeWidth? y = some width ∧ 0 < width ∧
        x.toNat < Nat.pow 16 width ∧ (escaped x).toList = '\\' :: y :: (hex width x.toNat).toList := by
  have hof : x = Char.ofNat x.toNat := (Char.ofNat_toNat x).symm
  have hmark {y : Char} {n : Nat} (h : x.toNat = n) (hy : isBreak y = false)
      (hread : escape? y = some (Char.ofNat n)) {s : String} (hs : s.toList = ['\\', y]) :
      ∃ y, isBreak y = false ∧ escape? y = some x ∧ s.toList = ['\\', y] :=
    ⟨y, hy, by rw [hread, hof, h], hs⟩
  unfold escaped
  dsimp only
  split
  · next h => exact .inr (.inl (hmark h (y := '0') rfl rfl rfl))
  · next h => exact .inr (.inl (hmark h (y := 'a') rfl rfl rfl))
  · next h => exact .inr (.inl (hmark h (y := 'b') rfl rfl rfl))
  · next h => exact .inr (.inl (hmark h (y := 't') rfl rfl rfl))
  · next h => exact .inr (.inl (hmark h (y := 'n') rfl rfl rfl))
  · next h => exact .inr (.inl (hmark h (y := 'v') rfl rfl rfl))
  · next h => exact .inr (.inl (hmark h (y := 'f') rfl rfl rfl))
  · next h => exact .inr (.inl (hmark h (y := 'r') rfl rfl rfl))
  · next h => exact .inr (.inl (hmark h (y := 'e') rfl rfl rfl))
  · next h => exact .inr (.inl (hmark h (y := '"') rfl rfl rfl))
  · next h => exact .inr (.inl (hmark h (y := '\\') rfl rfl rfl))
  · next h => exact .inr (.inl (hmark h (y := 'N') rfl rfl rfl))
  · next h => exact .inr (.inl (hmark h (y := 'L') rfl rfl rfl))
  · next h => exact .inr (.inl (hmark h (y := 'P') rfl rfl rfl))
  · next h0 h7 h8 h9 hA hB hC hD hE hquote hslash h85 h2028 h2029 =>
    have hne {y : Char} (hy : x.toNat = y.toNat → False) : x ≠ y := fun h => hy (congrArg Char.toNat h)
    split
    · have hspacing : isSpacing x = false := by
        simp only [isSpacing, isBlank, isBreak, Bool.or_eq_false_iff, decide_eq_false_iff_not]
        exact ⟨⟨hx, hne h9⟩, ⟨⟨⟨hne hA, hne hD⟩, h85⟩, h2028⟩, h2029⟩
      exact .inl ⟨hspacing, hne (y := '"') hquote, hne (y := '\\') hslash, by simp [Char.toString]⟩
    · split
      · exact .inr (.inr ⟨'x', 2, rfl, rfl, rfl, by decide, (by omega : x.toNat < 256), by simp⟩)
      · split
        · exact .inr (.inr ⟨'u', 4, rfl, rfl, rfl, by decide, (by omega : x.toNat < 65536), by simp⟩)
        · have hlt : x.toNat < 4294967296 := by
            have hvalid : x.toNat.isValidChar := x.valid
            rcases hvalid with h | ⟨-, h⟩ <;> omega
          exact .inr (.inr ⟨'U', 8, rfl, rfl, rfl, by decide, hlt, by simp⟩)

theorem encodes_escaped {x : Char} (hx : x ≠ ' ') : Encodes false (fun x => (escaped x).toList) x := by
  rcases escaped_cases hx with ⟨hspacing, hquote, hslash, heq⟩ | ⟨y, hbreak, hread, heq⟩ |
    ⟨y, width, hbreak, hnone, hwidth, hpos, hlt, heq⟩
  · refine ⟨by simp [heq], fun fuel acc rest c hc => ?_⟩
    rw [heq] at hc ⊢
    rw [quotedWord, hc]
    simp [hspacing, hquote, hslash]
  · refine ⟨by simp [heq], fun fuel acc rest c hc => ?_⟩
    rw [heq] at hc ⊢
    rw [quotedWord, hc]
    simp [isSpacing, isBlank, hbreak, hread, show isBreak '\\' = false from rfl]
  · have hlen := length_hex hpos hlt
    have hhex := hexNumber?_hex width x.toNat
    refine ⟨by simp [heq], fun fuel acc rest c hc => ?_⟩
    rw [heq] at hc ⊢
    have htake : ((hex width x.toNat).toList ++ rest).take width = (hex width x.toNat).toList := by
      exact List.take_left' hlen
    have hnot : ¬ ((hex width x.toNat).toList ++ rest).length < width := by
      rw [List.length_append, hlen]
      omega
    have hvalid : x.toNat.isValidChar := x.valid
    have hskip : ('\\' :: y :: (hex width x.toNat).toList).length = 2 + width := by
      rw [List.length_cons, List.length_cons, hlen]
      omega
    rw [hskip, quotedWord, hc]
    simp only [List.cons_append, htake, hhex, hnone, hwidth, hbreak, hnot, hvalid, Char.ofNat_toNat]
    simp [isSpacing, isBlank, show isBreak '\\' = false from rfl]

theorem solid_escaped {x : Char} (hx : x ≠ ' ') (xs : List Char) : Solid ((escaped x).toList ++ xs) := by
  rcases escaped_cases hx with ⟨hspacing, -, -, heq⟩ | ⟨y, -, -, heq⟩ | ⟨y, width, -, -, -, -, -, heq⟩
  · rw [heq]
    exact solid_cons.2 hspacing
  · rw [heq]
    exact solid_cons.2 rfl
  · rw [heq]
    exact solid_cons.2 rfl

theorem escaped_ne_nil (x : Char) : (escaped x).toList ≠ [] := by
  by_cases hx : x = ' '
  · subst hx
    decide
  · exact (encodes_escaped hx).ne_nil

theorem toList_doubleQuoted (s : String) : (doubleQuoted s).toList =
    '"' :: (s.toList.flatMap (fun x => (escaped x).toList) ++ ['"']) := by
  have hjoin : (String.join (s.toList.map escaped)).toList =
      s.toList.flatMap fun x => (escaped x).toList := by
    rw [String.toList_join, List.flatMap_map]
  simp [doubleQuoted, hjoin]

theorem escaped_space : (escaped ' ').toList = [' '] := by decide

end Printer

theorem Scan.quoted_escaped (hcol : c.column ≠ 0) (hrest : rest.head? ≠ some '\'')
    (hc : c.rest = cs.flatMap (fun x => (Printer.escaped x).toList) ++ '"' :: rest)
    (text : List Char) (fuel : Nat) (hfuel : cs.length < fuel) :
    ∃ d : Cursor, quoted false fuel text c = .ok (text ++ cs, d) ∧ d.rest = rest := by
  induction hlen : cs.length using Nat.strongRecOn generalizing cs text c fuel with
  | ind n ih =>
    obtain ⟨m, rfl⟩ := Nat.exists_eq_add_one.2 (Nat.zero_lt_of_lt hfuel)
    obtain ⟨w, zs, rfl, hw, hzs⟩ := exists_run (fun x => x ≠ ' ') cs
    have hword : ∀ x ∈ w, Encodes false (fun x => (Printer.escaped x).toList) x := fun x hx =>
      Printer.encodes_escaped (by simpa using hw x hx)
    obtain ⟨k, ds, rfl, hds⟩ := exists_spaces zs
    rw [List.flatMap_append, List.append_assoc] at hc
    cases k with
    | zero =>
      obtain rfl : ds = [] := by
        cases ds with
        | nil => rfl
        | cons d ds => exact absurd (by simpa using hzs d rfl) (hds d rfl)
      have hclose : c.rest = w.flatMap (fun x => (Printer.escaped x).toList) ++ quote false :: rest := hc
      simpa using quoted_close hword hcol hrest hclose text m
    | succ k =>
      have hspaces : (List.replicate (k + 1) ' ').flatMap (fun x => (Printer.escaped x).toList) =
          List.replicate (k + 1) ' ' := by
        rw [List.flatMap_replicate, Printer.escaped_space]
        simp
      rw [List.flatMap_append, hspaces, List.append_assoc] at hc
      obtain ⟨d, hd, hquoted⟩ := quoted_gap hword hcol (x := ' ') rfl hc text m
      have hd : d.rest = List.replicate (k + 1) ' ' ++
          (ds.flatMap (fun x => (Printer.escaped x).toList) ++ '"' :: rest) := hd
      have hcont : Solid (ds.flatMap (fun x => (Printer.escaped x).toList) ++ '"' :: rest) := by
        cases ds with
        | nil => exact solid_cons.2 rfl
        | cons y ds =>
          rw [List.flatMap_cons, List.append_assoc]
          exact Printer.solid_escaped (hds y rfl) _
      have hgap := Gap.read_spaces 0 hd hcont
      obtain ⟨e, hrest, he⟩ := ih ds.length (by simp at hlen; omega) (c := d.skip (k + 1)) (by simp)
        (Cursor.rest_skip_spaces hd) (text ++ w ++ List.replicate (k + 1) ' ') m
        (by simp at hfuel; omega) rfl
      refine ⟨e, ?_, he⟩
      rw [hquoted, hgap]
      simpa [Except.bind, Gap.fold] using hrest

end ConnectionPool.Yaml
