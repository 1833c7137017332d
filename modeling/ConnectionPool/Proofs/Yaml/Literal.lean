import ConnectionPool.Proofs.Yaml.Plain

namespace ConnectionPool.Yaml

variable {c : Cursor} {cs rest : List Char} {k n fuel : Nat}

namespace Printer

variable {w bs : List Char}

theorem literalLines_breaks (hbs : ∀ b ∈ bs, isBreak b) (cs : List Char) :
    (literalLines n true (bs ++ cs)).toList = bs ++ (literalLines n true cs).toList := by
  induction bs with
  | nil => rfl
  | cons b bs ih =>
    obtain ⟨hb, hbs⟩ := List.forall_mem_cons.1 hbs
    rw [List.cons_append, literalLines]
    simp [hb, ih hbs]

theorem literalLines_word (hw : ∀ x ∈ w, isBreak x = false) (cs : List Char) :
    (literalLines n false (w ++ cs)).toList = w ++ (literalLines n false cs).toList := by
  induction w with
  | nil => rfl
  | cons x w ih =>
    obtain ⟨hx, hw⟩ := List.forall_mem_cons.1 hw
    rw [List.cons_append, literalLines]
    simp [hx, ih hw]

theorem literalLines_line {x : Char} (hx : isBreak x = false) (cs : List Char) :
    (literalLines n true (x :: cs)).toList =
      List.replicate n ' ' ++ (literalLines n false (x :: cs)).toList := by
  simp [literalLines, hx, indentation]

theorem literalLines_end {b : Char} (hb : isBreak b) (cs : List Char) :
    (literalLines n false (b :: cs)).toList = b :: (literalLines n true cs).toList := by
  simp [literalLines, hb]

theorem literalLines_append (hbs : ∀ b ∈ bs, isBreak b) (a : Bool) :
    (literalLines n a (cs ++ bs)).toList = (literalLines n a cs).toList ++ bs := by
  induction cs generalizing a with
  | nil =>
    cases bs with
    | nil => rfl
    | cons b bs =>
      obtain ⟨hb, hmore⟩ := List.forall_mem_cons.1 hbs
      have hend := literalLines_breaks (n := n) hmore []
      rw [List.append_nil] at hend
      simp [literalLines, hb, hend]
  | cons x cs ih =>
    rw [List.cons_append, literalLines, literalLines]
    split <;> simp [ih]

theorem length_le_literalLines (a : Bool) (cs : List Char) :
    cs.length ≤ (literalLines n a cs).toList.length := by
  induction cs generalizing a with
  | nil => simp
  | cons x cs ih =>
    rw [literalLines]
    split
    · have hle := ih true
      simp
      omega
    · have hle := ih false
      simp
      omega

theorem getLast?_literalLines (a : Bool) (cs : List Char) (x : Char) :
    (literalLines n a (cs ++ [x])).toList.getLast? = some x := by
  induction cs generalizing a with
  | nil =>
    rw [List.nil_append, literalLines]
    split <;> simp [literalLines]
  | cons y cs ih =>
    rw [List.cons_append, literalLines]
    split <;> simp [List.getLast?_cons, ih]

end Printer

namespace Scan

open Printer

/-- A line that is indented by `k` is no deeper than `n`, and not deep enough only where no more
of the scalar follows. -/
def Indents (n k : Nat) (rest : List Char) : Prop :=
  k = n ∧ (∀ x ∈ rest.head?, isBreak x = false) ∨ k < n ∧ Solid rest

namespace Indents

variable (h : Indents n k rest)
include h

theorem takeWhile_take :
    ((List.replicate k ' ' ++ rest).take n).takeWhile (· = ' ') = List.replicate k ' ' := by
  rcases h with ⟨rfl, -⟩ | ⟨hk, hsolid⟩
  · rw [List.take_left' List.length_replicate]
    simp
  · obtain ⟨j, rfl⟩ := Nat.exists_eq_add_of_lt hk
    have htake : (List.replicate k ' ' ++ rest).take (k + j + 1) =
        List.replicate k ' ' ++ rest.take (j + 1) := by
      rw [Nat.add_assoc, List.take_append, List.length_replicate]
      simp
    rw [htake, List.takeWhile_append_of_pos (by simp)]
    cases rest with
    | nil => simp
    | cons x rest =>
      have hx : x ≠ ' ' := by
        rintro rfl
        exact absurd (solid_cons.1 hsolid) (by decide)
      simp [hx]

theorem isBreak_head : ∀ x ∈ rest.head?, isBreak x = false :=
  h.elim And.right fun h x hx => isBreak_eq_false (h.2 x hx)

theorem noTab (hc : c.rest = rest) (hcol : c.column = k) :
    (decide (c.column < n) && c.sees '\t') = false := by
  rcases h with ⟨rfl, -⟩ | ⟨-, hsolid⟩
  · simp [hcol]
  · have hsees : c.sees '\t' = false := by
      rw [Cursor.sees, hc, decide_eq_false_iff_not]
      intro htab
      exact absurd (hsolid _ htab) (by decide)
    rw [hsees, Bool.and_false]

end Indents

theorem blockGap_breaks {bs : List Char} (hbs : ∀ b ∈ bs, isBreak b ∧ isPrintable b)
    (hc : c.rest = bs ++ (List.replicate k ' ' ++ rest)) (hcol : c.column = 0)
    (hrest : Indents n k rest) (hfuel : c.rest.length ≤ fuel) (breaks : List Char) (widest : Nat) :
    ∃ w d, blockGap (some n) fuel breaks widest c = .ok (breaks ++ bs, w, d) ∧ d.rest = rest ∧
      d.column = k := by
  induction bs generalizing c breaks widest fuel with
  | nil =>
    rw [List.nil_append] at hc
    cases fuel with
    | zero =>
      have hnil : c.rest = [] := List.length_eq_zero_iff.1 (Nat.le_zero.1 hfuel)
      rw [hnil] at hc
      obtain ⟨hk, rfl⟩ := List.append_eq_nil_iff.1 hc.symm
      obtain rfl : k = 0 := by simpa using hk
      exact ⟨widest, c, by simp [blockGap], hnil, hcol⟩
    | succ fuel =>
      have hskip : (c.skip k).rest = rest := Cursor.rest_skip_spaces hc
      have hcolumn : (c.skip k).column = k := by simp [hcol]
      have hnone : (c.skip k).break? = none := Cursor.break?_eq_none (hskip.symm ▸ hrest.isBreak_head)
      have hrun := hrest.takeWhile_take
      have htab := hrest.noTab hskip hcolumn
      refine ⟨max widest k, c.skip k, ?_, hskip, hcolumn⟩
      simp only [blockGap, hcol, Nat.sub_zero, hc, hrun, List.length_replicate, Option.all_some, htab,
        Bool.false_eq_true, if_false, hnone]
      simp [hcol]
  | cons b bs ih =>
    obtain ⟨⟨hb, hp⟩, hbs⟩ := List.forall_mem_cons.1 hbs
    obtain ⟨d, hbreak, hd, hdcol⟩ := Cursor.exists_break hb hp hc
    obtain ⟨m, rfl⟩ : ∃ m, fuel = m + 1 := Nat.exists_eq_add_of_le' (by
      rw [hc, List.cons_append, List.length_cons] at hfuel
      exact Nat.le_trans (Nat.le_add_left _ _) hfuel)
    have hlen : d.rest.length ≤ m := by
      rw [hd]
      rw [hc] at hfuel
      exact Nat.le_of_succ_le_succ hfuel
    obtain ⟨w, e, hread, he⟩ := ih hbs hd hdcol hlen (breaks ++ [b]) (max widest c.column)
    have hspace : b ≠ ' ' := by
      rintro rfl
      exact absurd hb (by decide)
    have htab : c.sees '\t' = false := by
      rw [Cursor.sees, hc, decide_eq_false_iff_not]
      rintro ⟨rfl⟩
      exact absurd hb (by decide)
    have hrun : ((c.rest.take n).takeWhile (· = ' ')).length = 0 := by
      rw [hc]
      cases n <;> simp [hspace]
    refine ⟨w, e, ?_, he⟩
    simp only [blockGap, hcol, Nat.sub_zero, hrun, Cursor.skip_zero, htab, Bool.and_false,
      Bool.false_eq_true, if_false, hbreak]
    simpa [hcol] using hread

theorem blockGap_first (hc : c.rest = List.replicate n ' ' ++ rest) (hcol : c.column = 0)
    (hne : rest ≠ []) (hrest : Solid rest) :
    ∃ d, blockGap none c.rest.length [] 0 c = .ok ([], n, d) ∧ d.rest = rest ∧ d.column = n := by
  obtain ⟨m, hm⟩ : ∃ m, c.rest.length = m + 1 := by
    obtain ⟨x, rest, rfl⟩ := List.exists_cons_of_ne_nil hne
    exact ⟨n + rest.length, by simp [hc, Nat.add_assoc]⟩
  have hskip : (c.skip n).rest = rest := Cursor.rest_skip_spaces hc
  have hnone : (c.skip n).break? = none :=
    Cursor.break?_eq_none (hskip.symm ▸ fun x hx => isBreak_eq_false (hrest x hx))
  have hsees : (c.skip n).sees '\t' = false := by
    rw [Cursor.sees, hskip, decide_eq_false_iff_not]
    intro htab
    exact absurd (hrest _ htab) (by decide)
  have hrun : ((c.rest.take c.rest.length).takeWhile (· = ' ')).length = n := by
    obtain ⟨x, rest, rfl⟩ := List.exists_cons_of_ne_nil hne
    have hx : x ≠ ' ' := by
      rintro rfl
      exact absurd (solid_cons.1 hrest) (by decide)
    rw [List.take_length, hc, List.takeWhile_append_of_pos (by simp)]
    simp [hx]
  refine ⟨c.skip n, ?_, hskip, by simp [hcol]⟩
  rw [hm] at hrun ⊢
  simp only [blockGap, hm, hrun, hsees, Bool.and_false, Bool.false_eq_true, if_false, hnone]
  simp [hcol]

structure Lines (cs : List Char) : Prop where
  ne_nil : cs ≠ []
  printable : ∀ x ∈ cs, isPrintable x
  first : ∀ x ∈ cs.head?, isBreak x = false
  last : ∀ x ∈ cs.getLast?, isBreak x = false

theorem Lines.isBreak_head (h : Lines cs) (tail : List Char) :
    ∀ x ∈ ((literalLines n false cs).toList ++ tail).head?, isBreak x = false := by
  obtain ⟨x, xs, rfl⟩ := List.exists_cons_of_ne_nil h.ne_nil
  simp [literalLines, h.first x rfl]

theorem Lines.exists_line (h : Lines cs) : ∃ w, w ≠ [] ∧ (∀ x ∈ w, isBreak x = false) ∧
    (cs = w ∨ ∃ b bs ds, cs = w ++ (b :: bs ++ ds) ∧ (∀ x ∈ b :: bs, isBreak x ∧ isPrintable x) ∧
      Lines ds) := by
  obtain ⟨w, zs, rfl, hw, hzs⟩ := exists_run (fun x => !isBreak x) cs
  have hne : w ≠ [] := by
    rintro rfl
    obtain ⟨z, zs, rfl⟩ := List.exists_cons_of_ne_nil h.ne_nil
    have hz : isBreak z = true := by simpa using hzs z rfl
    simp [h.first z rfl] at hz
  refine ⟨w, hne, fun x hx => by simpa using hw x hx, ?_⟩
  cases zs with
  | nil => exact .inl (List.append_nil w)
  | cons b zs =>
    obtain ⟨bs, ds, rfl, hbs, hds⟩ := exists_run isBreak zs
    have hb : isBreak b = true := by simpa using hzs b rfl
    have hbreaks : ∀ x ∈ b :: bs, isBreak x := List.forall_mem_cons.2 ⟨hb, hbs⟩
    have hne : ds ≠ [] := by
      rintro rfl
      obtain ⟨ys, y, hys⟩ := (List.eq_nil_or_concat' (b :: bs)).resolve_left (by simp)
      have hy := h.last y (by simp [hys])
      simp [hbreaks y (by simp [hys])] at hy
    refine .inr ⟨b, bs, ds, rfl, fun x hx => ⟨hbreaks x hx, h.printable x ?_⟩, hne, ?_, hds, ?_⟩
    · exact List.mem_append_right _ (List.mem_append_left _ hx)
    · exact fun x hx => h.printable x (by simp [hx])
    · intro x hx
      refine h.last x ?_
      rw [List.getLast?_append_of_ne_nil _ (by simp)]
      exact (List.getLast?_append_of_ne_nil (b :: bs) hne).symm ▸ hx

theorem blockLines_line {w bs : List Char} {b : Char} (hline : ∀ x ∈ w, isBreak x = false)
    (hbs : ∀ x ∈ b :: bs, isBreak x ∧ isPrintable x)
    (hc : c.rest = w ++ (b :: bs ++ (List.replicate k ' ' ++ rest))) (hcol : c.column = n)
    (hrest : Indents n k rest) (fuel : Nat) (text lead more : List Char) (blank : Bool) :
    ∃ blank' d, blockLines true n (fuel + 1) text lead more blank c =
        blockLines true n fuel (text ++ (lead ++ more) ++ w) [b] bs blank' d ∧ d.rest = rest ∧
      d.column = k := by
  obtain ⟨⟨hb, hp⟩, hmore⟩ := List.forall_mem_cons.1 hbs
  have hrun : c.rest.takeWhile (!isBreak ·) = w := by
    rw [hc, List.takeWhile_append_of_pos (by simpa using hline)]
    simp [hb]
  have hskip : (c.skip w.length).rest = b :: (bs ++ (List.replicate k ' ' ++ rest)) :=
    Cursor.rest_skip_append hc
  have hne : c.rest ≠ [] := by simp [hc]
  obtain ⟨d, hbreak, hd, hdcol⟩ := Cursor.exists_break hb hp hskip
  obtain ⟨_, e, hgap, he⟩ := blockGap_breaks hmore hd hdcol hrest (Nat.le_refl _) [] 0
  refine ⟨c.peek.any isBlank, e, ?_, he⟩
  rw [blockLines, if_pos (by simp [hcol, hne])]
  simp [Cursor.takeWhile, hrun, hbreak, hgap, bind, Except.bind]

theorem blockLines_text {b : Char} {bs : List Char} (h : Lines cs)
    (hbs : ∀ x ∈ b :: bs, isBreak x ∧ isPrintable x)
    (hc : c.rest = (literalLines n false cs).toList ++ (b :: bs ++ (List.replicate k ' ' ++ rest)))
    (hcol : c.column = n) (hk : k < n) (hrest : Solid rest) (fuel : Nat) (hfuel : cs.length ≤ fuel)
    (text lead more : List Char) (blank : Bool) :
    ∃ d : Cursor, blockLines true n fuel text lead more blank c =
        .ok (text ++ (lead ++ more) ++ cs, [b], bs, d) ∧ d.rest = rest ∧ d.column = k := by
  induction hlen : cs.length using Nat.strongRecOn generalizing cs text lead more blank c fuel with
  | ind m ih =>
    obtain ⟨w, hw, hline, hcs⟩ := h.exists_line
    have hpos : 0 < w.length := List.length_pos_iff.2 hw
    obtain ⟨fuel, rfl⟩ := Nat.exists_eq_add_of_le' (Nat.lt_of_lt_of_le
      (List.length_pos_iff.2 h.ne_nil) hfuel)
    rcases hcs with rfl | ⟨x, xs, ds, rfl, hxs, hds⟩
    · have hword := literalLines_word (n := n) hline []
      rw [List.append_nil, literalLines] at hword
      rw [hword, String.toList_empty, List.append_nil] at hc
      obtain ⟨_, d, hstep, hd, hdcol⟩ :=
        blockLines_line hline hbs hc hcol (.inr ⟨hk, hrest⟩) fuel text lead more blank
      refine ⟨d, ?_, hd, hdcol⟩
      rw [hstep]
      cases fuel with
      | zero => rfl
      | succ fuel => rw [blockLines, if_neg (by simp; omega)]
    · obtain ⟨y, ys, rfl⟩ := List.exists_cons_of_ne_nil hds.ne_nil
      have hprint : (literalLines n false (w ++ (x :: xs ++ y :: ys))).toList =
          w ++ (x :: xs ++ (List.replicate n ' ' ++ (literalLines n false (y :: ys)).toList)) := by
        rw [literalLines_word hline, List.cons_append, literalLines_end (hxs x (by simp)).1,
          literalLines_breaks (fun z hz => (hxs z (by simp [hz])).1), literalLines_line (hds.first y rfl)]
        simp
      rw [hprint] at hc
      simp only [List.append_assoc] at hc
      obtain ⟨blank', d, hstep, hd, hdcol⟩ :=
        blockLines_line hline hxs hc hcol (.inl ⟨rfl, hds.isBreak_head _⟩) fuel text lead more blank
      obtain ⟨e, hnext, he⟩ := ih _ (by simp at hlen ⊢; omega) hds hd hdcol fuel
        (by simp at hfuel ⊢; omega) (text ++ (lead ++ more) ++ w) [x] xs blank' rfl
      refine ⟨e, ?_, he⟩
      rw [hstep, hnext]
      simp

/-! The marks after the bar, and what of the breaks at the end they keep. -/

def Chomp.mark : Chomp → List Char
  | .strip => ['-']
  | .clip => []
  | .keep => ['+']

def Chomp.kept (b : Char) (bs : List Char) : Chomp → List Char
  | .strip => []
  | .clip => [b]
  | .keep => b :: bs

def blockBody (indent : Int) (hint : Option Nat) (chomp : Chomp) (c : Cursor) :
    Except Fault (List Char × Cursor) := do
  let hinted := hint.map fun n => if 0 ≤ indent then indent.toNat + n else n
  let (more, widest, c) ← blockGap hinted c.rest.length [] 0 c
  let column := hinted.getD (max (max widest (indent + 1).toNat) 1)
  let (text, lead, more, c) ← blockLines true column c.rest.length [] [] more false c
  let ending := match chomp with
    | .strip => []
    | .clip => lead
    | .keep => lead ++ more
  .ok (text ++ ending, c)

theorem block_eq {c d e f : Cursor} {before : Option Chomp} {hint : Option Nat} (indent : Int)
    (hbefore : chomp? c = (before, d)) (hhint : indentHint? d = .ok (hint, e)) (after : Option Chomp)
    (hafter : (if before.isNone && hint.isSome then chomp? e else (none, e)) = (after, f))
    (hf : f.rest = '\n' :: rest) : ∃ d : Cursor, d.rest = rest ∧ d.column = 0 ∧
      block true indent c = blockBody indent hint ((before.or after).getD .clip) d := by
  obtain ⟨d, hbreak, hd⟩ := Cursor.exists_break (by decide) (by decide) hf
  have hblank : (f.dropWhile isBlank).skipComment = f := by
    simp [Cursor.dropWhile, Cursor.takeWhile, hf, isBlank, Cursor.skipComment, Cursor.sees]
  have hline : endsLine f.rest = true := by rw [hf]; rfl
  refine ⟨d, hd.1, hd.2, ?_⟩
  simp only [block, hbefore, hhint, bind, Except.bind, hafter, hblank, hline, Cursor.skipBreak, hbreak]
  rfl

theorem block_marks {hinted : Bool} {chomp : Chomp} (indent : Int)
    (hc : c.rest = (if hinted then ['2'] else []) ++ chomp.mark ++ '\n' :: rest) :
    ∃ d : Cursor, d.rest = rest ∧ d.column = 0 ∧
      block true indent c = blockBody indent (if hinted then some 2 else none) chomp d := by
  have hnone {e : Cursor} (he : e.rest = '\n' :: rest) :
      chomp? e = (none, e) ∧ indentHint? e = .ok (none, e) := by
    simp [chomp?, indentHint?, Cursor.sees, Cursor.peek, he]
  have hmark {e : Cursor} (he : e.rest = chomp.mark ++ '\n' :: rest) :
      ∃ o f, chomp? e = (o, f) ∧ f.rest = '\n' :: rest ∧ o.getD .clip = chomp := by
    cases chomp with
    | strip =>
      have hread : chomp? e = (some .strip, e.skip) := by simp [chomp?, Cursor.sees, he, Chomp.mark]
      exact ⟨_, _, hread, Cursor.rest_skip_cons he, rfl⟩
    | clip => exact ⟨_, _, (hnone he).1, he, rfl⟩
    | keep =>
      have hread : chomp? e = (some .keep, e.skip) := by simp [chomp?, Cursor.sees, he, Chomp.mark]
      exact ⟨_, _, hread, Cursor.rest_skip_cons he, rfl⟩
  cases hinted with
  | false =>
    obtain ⟨o, f, hread, hf, ho⟩ := hmark hc
    have hblock := block_eq indent hread (hnone hf).2 none (by simp) hf
    simpa [ho] using hblock
  | true =>
    have hskip : c.skip.rest = chomp.mark ++ '\n' :: rest := Cursor.rest_skip_cons hc
    obtain ⟨o, f, hread, hf, ho⟩ := hmark hskip
    have hbefore : chomp? c = (none, c) := by simp [chomp?, Cursor.sees, hc]
    have hhint : indentHint? c = .ok (some 2, c.skip) := by simp [indentHint?, Cursor.peek, hc]
    have hblock := block_eq indent hbefore hhint o (by simpa using hread) hf
    simpa [ho] using hblock

theorem blockBody_lines {indent : Nat} {hinted : Bool} {ls bs : List Char} {b : Char} (chomp : Chomp)
    (hls : ∀ x ∈ ls, isBreak x ∧ isPrintable x) (h : Lines cs)
    (hbs : ∀ x ∈ b :: bs, isBreak x ∧ isPrintable x) (hhint : hinted = false → ls = [] ∧ Solid cs)
    (hc : c.rest = ls ++ (List.replicate (indent + 2) ' ' ++
      ((literalLines (indent + 2) false cs).toList ++ (b :: bs ++ (List.replicate k ' ' ++ rest)))))
    (hcol : c.column = 0) (hk : k < indent + 2) (hrest : Solid rest) :
    ∃ d, blockBody indent (if hinted then some 2 else none) chomp c =
      .ok (ls ++ cs ++ chomp.kept b bs, d) ∧ d.rest = rest ∧ d.column = k := by
  have hgap : ∃ w d, blockGap (if hinted then some (indent + 2) else none) c.rest.length [] 0 c =
        .ok (ls, w, d) ∧
      d.rest = (literalLines (indent + 2) false cs).toList ++ (b :: bs ++ (List.replicate k ' ' ++ rest)) ∧
      d.column = indent + 2 ∧ (hinted = false → w = indent + 2) := by
    cases hinted with
    | true =>
      obtain ⟨w, d, hread, hd, hdcol⟩ := blockGap_breaks hls hc hcol (.inl ⟨rfl, h.isBreak_head _⟩)
        (Nat.le_refl _) [] 0
      exact ⟨w, d, hread, hd, hdcol, nofun⟩
    | false =>
      obtain ⟨rfl, hsolid⟩ := hhint rfl
      have hword : Solid ((literalLines (indent + 2) false cs).toList ++
          (b :: bs ++ (List.replicate k ' ' ++ rest))) := by
        obtain ⟨x, xs, rfl⟩ := List.exists_cons_of_ne_nil h.ne_nil
        simpa [literalLines, h.first x rfl, Solid] using hsolid
      obtain ⟨d, hread, hd, hdcol⟩ := blockGap_first hc hcol (by simp) hword
      exact ⟨_, d, hread, hd, hdcol, fun _ => rfl⟩
  obtain ⟨w, d, hread, hd, hdcol, hw⟩ := hgap
  have hlen : cs.length ≤ d.rest.length := by
    rw [hd, List.length_append]
    exact Nat.le_trans (length_le_literalLines false cs) (Nat.le_add_right _ _)
  obtain ⟨e, hlines, he⟩ := blockLines_text h hbs hd hdcol hk hrest _ hlen [] [] ls false
  refine ⟨e, ?_, he⟩
  cases hinted with
  | true =>
    have hread : blockGap (some (indent + 2)) c.rest.length [] 0 c = .ok (ls, w, d) := hread
    cases chomp <;> simp [blockBody, hread, hlines, bind, Except.bind, Chomp.kept]
  | false =>
    obtain rfl := hw rfl
    have hread : blockGap none c.rest.length [] 0 c = .ok (ls, indent + 2, d) := hread
    cases chomp <;> simp [blockBody, hread, hlines, bind, Except.bind, Chomp.kept]

end Scan

namespace Printer

open Scan

def chomp (cs : List Char) : Chomp :=
  match cs.reverse with
  | [] => .strip
  | [b] => if isBreak b then .keep else .strip
  | b :: d :: _ => if !isBreak b then .strip else if isBreak d then .keep else .clip

theorem toList_literalMarks (cs : List Char) : (literalMarks cs).toList =
    (if cs.head?.any fun x => x = ' ' || isBreak x then ['2'] else []) ++ (chomp cs).mark := by
  unfold literalMarks chomp
  rw [String.toList_append]
  congr 1
  · split <;> rfl
  · rcases cs.reverse with _ | ⟨b, _ | ⟨d, ds⟩⟩
    · rfl
    · dsimp only
      split <;> rfl
    · dsimp only
      split
      · rfl
      · split <;> rfl

theorem chomp_lines {ls : List Char} (h : Lines cs) : chomp (ls ++ cs) = .strip := by
  obtain ⟨xs, x, rfl⟩ := (List.eq_nil_or_concat' cs).resolve_left h.ne_nil
  have hx : isBreak x = false := h.last x (by simp)
  rw [chomp, ← List.append_assoc, List.reverse_append, List.reverse_singleton, List.singleton_append]
  cases (ls ++ xs).reverse <;> simp [hx]

theorem chomp_break {ls : List Char} {b : Char} (h : Lines cs) (hb : isBreak b) :
    chomp (ls ++ cs ++ [b]) = .clip := by
  obtain ⟨xs, x, rfl⟩ := (List.eq_nil_or_concat' cs).resolve_left h.ne_nil
  have hx : isBreak x = false := h.last x (by simp)
  simp [chomp, hb, hx]

theorem chomp_breaks (cs : List Char) {b : Char} {bs : List Char} (hbs : ∀ x ∈ b :: bs, isBreak x)
    (h : cs = [] ∨ bs ≠ []) : chomp (cs ++ b :: bs) = .keep := by
  rcases List.eq_nil_or_concat' bs with rfl | ⟨ds, d, rfl⟩
  · obtain rfl := h.resolve_right (by simp)
    simp [chomp, hbs b (by simp)]
  · have hd : isBreak d := hbs d (by simp)
    obtain ⟨ys, y, hys⟩ := (List.eq_nil_or_concat' (b :: ds)).resolve_left (by simp)
    have hy : isBreak y := hbs y (by
      rw [← List.cons_append, hys]
      simp)
    have hrow : cs ++ b :: (ds ++ [d]) = cs ++ ys ++ [y, d] := by
      rw [← List.cons_append, hys]
      simp
    simp [chomp, hrow, hd, hy]

end Printer

namespace Scan

open Printer

theorem exists_lines (hp : ∀ x ∈ cs, isPrintable x) : (∀ x ∈ cs, isBreak x) ∨
    ∃ ls ds bs, cs = ls ++ ds ++ bs ∧ (∀ x ∈ ls, isBreak x) ∧ Lines ds ∧ ∀ x ∈ bs, isBreak x := by
  obtain ⟨ls, zs, rfl, hls, hzs⟩ := exists_run isBreak cs
  obtain ⟨es, fs, hrev, hes, hfs⟩ := exists_run isBreak zs.reverse
  obtain rfl : zs = fs.reverse ++ es.reverse := by
    rw [← List.reverse_append, ← hrev, List.reverse_reverse]
  by_cases hnil : fs = []
  · refine .inl fun x hx => ?_
    subst hnil
    cases hcs : es.reverse with
    | nil => simpa [hcs] using hls x (by simpa [hcs] using hx)
    | cons y ys =>
      have hy : isBreak y = false := hzs y (by simp [hcs])
      have hmem : y ∈ es := by rw [← List.mem_reverse, hcs]; exact List.mem_cons_self
      simp [hes y hmem] at hy
  · refine .inr ⟨ls, fs.reverse, es.reverse, by simp, hls, ⟨by simpa, ?_, ?_, ?_⟩, by simpa using hes⟩
    · exact fun x hx => hp x (by simp at hx; simp [hx])
    · intro x hx
      refine hzs x ?_
      rw [List.head?_append_of_ne_nil _ (by simpa)]
      exact hx
    · simpa using hfs

theorem blockBody_breaks {indent : Nat} (hcs : ∀ x ∈ cs, isBreak x ∧ isPrintable x)
    (hc : c.rest = cs ++ (List.replicate k ' ' ++ rest)) (hcol : c.column = 0) (hk : k < indent + 2)
    (hrest : Solid rest) :
    ∃ d, blockBody indent (some 2) .keep c = .ok (cs, d) ∧ d.rest = rest ∧ d.column = k := by
  obtain ⟨_, d, hread, hd, hdcol⟩ := blockGap_breaks hcs hc hcol (.inr ⟨hk, hrest⟩)
    (Nat.le_refl _) [] 0
  have hstop (fuel : Nat) : blockLines true (indent + 2) fuel [] [] cs false d = .ok ([], [], cs, d) := by
    cases fuel with
    | zero => rfl
    | succ fuel => rw [blockLines, if_neg (by simp; omega)]
  have hread : blockGap (some (indent + 2)) c.rest.length [] 0 c = .ok (cs, _, d) := hread
  exact ⟨d, by simp [blockBody, hread, hstop, bind, Except.bind], hd, hdcol⟩

theorem exists_end {ls ds bs : List Char} (hls : ∀ x ∈ ls, isBreak x) (hds : Lines ds)
    (hbs : ∀ x ∈ bs, isBreak x ∧ isPrintable x) (tail : List Char) :
    ∃ e es, (∀ x ∈ e :: es, isBreak x ∧ isPrintable x) ∧
      (literalLines n true (ls ++ ds ++ bs)).toList ++
          ((if (ls ++ ds ++ bs).getLast?.any isBreak then [] else ['\n']) ++ tail) =
        ls ++ (List.replicate n ' ' ++ ((literalLines n false ds).toList ++ (e :: es ++ tail))) ∧
      (chomp (ls ++ ds ++ bs)).kept e es = bs := by
  have hprint : (literalLines n true (ls ++ ds ++ bs)).toList =
      ls ++ (List.replicate n ' ' ++ ((literalLines n false ds).toList ++ bs)) := by
    obtain ⟨x, xs, rfl⟩ := List.exists_cons_of_ne_nil hds.ne_nil
    rw [literalLines_append fun x hx => (hbs x hx).1, literalLines_breaks hls,
      literalLines_line (hds.first x rfl)]
    simp only [List.append_assoc]
  rw [hprint]
  cases bs with
  | nil =>
    obtain ⟨xs, x, rfl⟩ := (List.eq_nil_or_concat' ds).resolve_left hds.ne_nil
    have hx : isBreak x = false := hds.last x (by simp)
    refine ⟨'\n', [], List.forall_mem_singleton.2 (by decide), by simp [← List.append_assoc, hx], ?_⟩
    rw [List.append_nil, chomp_lines hds]
    rfl
  | cons b bs =>
    have hbreaks : ∀ x ∈ b :: bs, isBreak x := fun x hx => (hbs x hx).1
    refine ⟨b, bs, hbs, ?_, ?_⟩
    · obtain ⟨ys, y, hys⟩ := (List.eq_nil_or_concat' (b :: bs)).resolve_left (by simp)
      have hy : isBreak y := hbreaks y (by simp [hys])
      simp [hys, ← List.append_assoc, hy]
    · cases bs with
      | nil =>
        rw [chomp_break hds (hbreaks b (by simp))]
        rfl
      | cons b' bs =>
        rw [chomp_breaks _ hbreaks (.inr (by simp))]
        rfl

theorem solid_of_not_hinted {ls ds bs : List Char} (hls : ∀ x ∈ ls, isBreak x) (hds : Lines ds)
    (h : ((ls ++ ds ++ bs).head?.any fun x => x = ' ' || isBreak x) = false) : ls = [] ∧ Solid ds := by
  obtain rfl : ls = [] := by
    cases ls with
    | nil => rfl
    | cons x ls => simp [hls x (by simp)] at h
  obtain ⟨x, xs, rfl⟩ := List.exists_cons_of_ne_nil hds.ne_nil
  refine ⟨rfl, solid_cons.2 ?_⟩
  by_contra hspacing
  have hcases := isSpacing_of_printable (hds.printable x (by simp)) (by simpa using hspacing)
  have hnot : ¬ x = ' ' ∧ isBreak x = false := by simpa using h
  exact hcases.elim hnot.1 (by simp [hnot.2])

/-- A text is read from what is written of it, marks and all. -/
theorem block_literal {indent : Nat} (hp : ∀ x ∈ cs, isPrintable x) (hne : cs ≠ [])
    (hk : k < indent + 2) (hrest : Solid rest)
    (hc : c.rest = (literalMarks cs).toList ++ '\n' :: ((literalLines (indent + 2) true cs).toList ++
      ((if cs.getLast?.any isBreak then [] else ['\n']) ++ (List.replicate k ' ' ++ rest)))) :
    ∃ d : Cursor, block true indent c = .ok (cs, d) ∧ d.rest = rest ∧ d.column = k := by
  rw [toList_literalMarks] at hc
  obtain ⟨d, hd, hdcol, hblock⟩ := block_marks indent hc
  rw [hblock]
  have hprintable {xs : List Char} (hsub : ∀ x ∈ xs, x ∈ cs) (hxs : ∀ x ∈ xs, isBreak x) :
      ∀ x ∈ xs, isBreak x ∧ isPrintable x := fun x hx => ⟨hxs x hx, hp x (hsub x hx)⟩
  rcases exists_lines hp with hbreaks | ⟨ls, ds, bs, rfl, hls, hds, hbs⟩
  · obtain ⟨b, bs, rfl⟩ := List.exists_cons_of_ne_nil hne
    obtain ⟨ys, y, hys⟩ := (List.eq_nil_or_concat' (b :: bs)).resolve_left (by simp)
    have hy : isBreak y := hbreaks y (by simp [hys])
    have hlast : (b :: bs).getLast?.any isBreak = true := by simp [hys, hy]
    have hprint := literalLines_breaks (n := indent + 2) hbreaks []
    rw [List.append_nil, literalLines, String.toList_empty, List.append_nil] at hprint
    rw [hprint, hlast] at hd
    have hchomp := chomp_breaks [] hbreaks (.inl rfl)
    rw [List.nil_append] at hchomp
    simpa [hbreaks b (by simp), hchomp] using
      blockBody_breaks (hprintable (fun _ => id) hbreaks) hd hdcol hk hrest
  · obtain ⟨e, es, hes, hprint, hkept⟩ := exists_end (n := indent + 2) hls hds
      (hprintable (fun x hx => by simp [hx]) hbs) (List.replicate k ' ' ++ rest)
    rw [hprint] at hd
    obtain ⟨f, hbody, hf⟩ := blockBody_lines (chomp (ls ++ ds ++ bs))
      (hprintable (fun x hx => by simp [hx]) hls) hds hes (solid_of_not_hinted hls hds) hd hdcol hk hrest
    exact ⟨f, by rw [hbody, hkept], hf⟩

end Scan

end ConnectionPool.Yaml
