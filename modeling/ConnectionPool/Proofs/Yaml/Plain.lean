import ConnectionPool.Proofs.Yaml.Numeral
import Mathlib.Data.List.Basic

namespace ConnectionPool.Yaml

variable {c : Cursor} {cs rest text : List Char} {g : Gap} {k margin fuel : Nat}

theorem exists_run {α : Type} (p : α → Bool) (xs : List α) :
    ∃ ys zs, xs = ys ++ zs ∧ (∀ y ∈ ys, p y) ∧ ∀ z ∈ zs.head?, p z = false := by
  refine ⟨xs.takeWhile p, xs.dropWhile p, (List.takeWhile_append_dropWhile).symm,
    fun y hy => List.all_eq_true.1 List.all_takeWhile y hy, fun z hz => ?_⟩
  have hnot := List.head?_dropWhile_not p xs
  rw [Option.mem_def.1 hz] at hnot
  simpa using hnot

def Solid (cs : List Char) : Prop := ∀ x ∈ cs.head?, isSpacing x = false

theorem solid_cons {x : Char} : Solid (x :: cs) ↔ isSpacing x = false := by simp [Solid]

theorem exists_spaces (cs : List Char) :
    ∃ k rest, cs = List.replicate k ' ' ++ rest ∧ ∀ x ∈ rest.head?, x ≠ ' ' := by
  obtain ⟨xs, rest, rfl, hxs, hrest⟩ := exists_run (· = ' ') cs
  exact ⟨xs.length, rest, by rw [← List.eq_replicate_of_mem fun x hx => of_decide_eq_true (hxs x hx)],
    fun x hx => of_decide_eq_false (hrest x hx)⟩

namespace Cursor

theorem width_append (xs ys : List Char) : width (xs ++ ys) = width xs + width ys := by
  have h (n : Nat) : ys.foldl (fun n c => n + c.utf8Size) n = n + width ys := by
    unfold width
    induction ys generalizing n with
    | nil => rfl
    | cons y ys ih =>
      rw [List.foldl_cons, ih, List.foldl_cons, ih (0 + _)]
      omega
  rw [width, List.foldl_append, h]
  rfl

theorem rest_skip (c : Cursor) (n : Nat) : (c.skip n).rest = c.rest.drop n := rfl

@[simp] theorem column_skip (c : Cursor) (n : Nat) : (c.skip n).column = c.column + n := rfl

@[simp] theorem skip_zero (c : Cursor) : c.skip 0 = c := rfl

@[simp] theorem skip_skip (c : Cursor) (m n : Nat) : (c.skip m).skip n = c.skip (m + n) := by
  have hwidth : width (c.rest.take (m + n)) =
      width (c.rest.take m) + width ((c.rest.drop m).take n) := by
    rw [← width_append, List.take_add]
  simp only [skip, List.drop_drop, hwidth, Nat.add_assoc]

theorem rest_skip_append {xs : List Char} (h : c.rest = xs ++ rest) :
    (c.skip xs.length).rest = rest := by
  rw [rest_skip, h, List.drop_left]

theorem rest_skip_cons {x : Char} (h : c.rest = x :: rest) : c.skip.rest = rest := by
  rw [rest_skip, h, List.drop_one, List.tail_cons]

theorem rest_skip_spaces (h : c.rest = List.replicate k ' ' ++ rest) : (c.skip k).rest = rest := by
  rw [rest_skip, h, List.drop_left' List.length_replicate]

theorem break?_eq_none (h : ∀ x ∈ c.rest.head?, isBreak x = false) : c.break? = none := by
  unfold break?
  split
  · next heq => simp [heq, isBreak] at h
  · next x rest _ heq =>
    have hx : isBreak x = false := h x (by simp [heq])
    simp only [isBreak, Bool.or_eq_false_iff, decide_eq_false_iff_not] at hx
    simp [hx, isBreak]
  · rfl

theorem atMarker_of_column {m : Char} (h : c.column ≠ 0) : c.atMarker m = false := by
  simp [atMarker, h]

theorem atDocumentMarker_of_column (h : c.column ≠ 0) : c.atDocumentMarker = false := by
  simp [atDocumentMarker, atMarker_of_column h]

end Cursor

theorem isBreak_eq_false {x : Char} (h : isSpacing x = false) : isBreak x = false :=
  (Bool.or_eq_false_iff.1 h).2

theorem isBlank_eq_false {x : Char} (h : isSpacing x = false) : isBlank x = false :=
  (Bool.or_eq_false_iff.1 h).1

theorem isBreak_cases {b : Char} (hb : isBreak b) (hp : isPrintable b) :
    b = '\n' ∨ b.toNat = 0x2028 ∨ b.toNat = 0x2029 := by
  simp only [isBreak, Bool.or_eq_true, decide_eq_true_eq] at hb
  obtain ((((hb | rfl) | hb) | hb) | hb) := hb
  · exact .inl hb
  · exact absurd hp (by decide)
  · have hne : b ≠ '\n' := by
      rintro rfl
      exact absurd hb (by decide)
    simp [isPrintable, hb, hne] at hp
  · exact .inr (.inl hb)
  · exact .inr (.inr hb)

theorem isSpacing_of_printable {x : Char} (hp : isPrintable x) (hx : isSpacing x) :
    x = ' ' ∨ isBreak x := by
  simp only [isSpacing, isBlank, Bool.or_eq_true, decide_eq_true_eq] at hx
  obtain ((hx | rfl) | hx) := hx
  · exact .inl hx
  · exact absurd hp (by decide)
  · exact .inr hx

theorem Cursor.exists_break {b : Char} (hb : isBreak b) (hp : isPrintable b)
    (h : c.rest = b :: rest) :
    ∃ d : Cursor, c.break? = some (b, d) ∧ d.rest = rest ∧ d.column = 0 := by
  have hcr : b ≠ '\r' := by
    rintro rfl
    exact absurd hp (by decide)
  unfold break?
  rcases isBreak_cases hb hp with rfl | hline
  · simp [h, isBreak]
  · simp [h, hline, hcr]

namespace Gap

theorem read_solid (h : Solid c.rest) (margin fuel : Nat) (g : Gap) :
    read margin fuel g c = .ok (g, c) := by
  cases fuel with
  | zero => rfl
  | succ fuel =>
    have hnone : c.break? = none := Cursor.break?_eq_none fun x hx => isBreak_eq_false (h x hx)
    rw [read, hnone]
    cases hpeek : c.peek with
    | none => rfl
    | some x => simp [isBlank_eq_false (h x hpeek)]

theorem read_blanks (h : c.rest = List.replicate k ' ' ++ rest) (g : Gap) :
    read margin (k + fuel) g c = read margin fuel
      (if g.broken then g else { g with blanks := g.blanks ++ List.replicate k ' ' }) (c.skip k) := by
  induction k generalizing g c with
  | zero => simp
  | succ k ih =>
    have hnone : c.break? = none := Cursor.break?_eq_none (by simp [h, List.replicate_succ, isBreak])
    have hpeek : c.peek = some ' ' := by simp [Cursor.peek, h, List.replicate_succ]
    have hrest : c.skip.rest = List.replicate k ' ' ++ rest := Cursor.rest_skip_cons h
    rw [Nat.succ_add, read, hnone]
    dsimp only
    rw [hpeek]
    cases hg : g.broken with
    | true => simp [isBlank, ih hrest, hg, Nat.add_comm 1 k]
    | false =>
      have hmore := ih hrest { g with blanks := g.blanks ++ [' '], broken := false }
      simp only [Cursor.skip_skip, Nat.add_comm 1 k, List.append_assoc, List.singleton_append] at hmore
      simpa [isBlank, List.replicate_succ] using hmore

theorem read_spaces (margin : Nat) (h : c.rest = List.replicate k ' ' ++ rest) (hrest : Solid rest) :
    read margin c.rest.length {} c = .ok ({ blanks := List.replicate k ' ' }, c.skip k) := by
  have hsolid : Solid (c.skip k).rest := (Cursor.rest_skip_spaces h).symm ▸ hrest
  have hlen : c.rest.length = k + rest.length := by simp [h]
  rw [hlen, read_blanks h, read_solid hsolid]
  rfl

theorem read_more {bs : List Char} (margin fuel : Nat) (hbs : ∀ b ∈ bs, isBreak b ∧ isPrintable b)
    (h : c.rest = bs ++ rest) (hg : g.broken = true) (hcol : c.column = 0) :
    ∃ d : Cursor, read margin (bs.length + fuel) g c =
        read margin fuel { g with more := g.more ++ bs } d ∧ d.rest = rest ∧ d.column = 0 := by
  induction bs generalizing g c with
  | nil => exact ⟨c, by simp, h, hcol⟩
  | cons b bs ih =>
    obtain ⟨hb, hbs⟩ := List.forall_mem_cons.1 hbs
    obtain ⟨d, hbreak, hd, hdcol⟩ := Cursor.exists_break hb.1 hb.2 h
    obtain ⟨e, hread, he⟩ := ih (g := { g with more := g.more ++ [b] }) hbs hd hg hdcol
    refine ⟨e, ?_, he⟩
    rw [List.length_cons, Nat.succ_add, read, hbreak]
    simp only [List.append_assoc, List.singleton_append] at hread
    simp only [hg, ↓reduceIte]
    exact hg ▸ hread

theorem read_breaks {b : Char} {bs : List Char} (margin : Nat)
    (hbs : ∀ x ∈ b :: bs, isBreak x ∧ isPrintable x)
    (h : c.rest = b :: bs ++ (List.replicate k ' ' ++ rest)) (hrest : Solid rest) :
    ∃ d : Cursor, read margin c.rest.length {} c =
        .ok ({ first := [b], more := bs, broken := true }, d) ∧
      d.rest = rest ∧ d.column = k := by
  obtain ⟨hb, hbs⟩ := List.forall_mem_cons.1 hbs
  obtain ⟨d, hbreak, hd, hdcol⟩ := Cursor.exists_break hb.1 hb.2 h
  obtain ⟨e, hmore, he, hecol⟩ := read_more margin (k + rest.length)
    (g := { first := [b], broken := true }) hbs hd rfl hdcol
  have hskip : (e.skip k).rest = rest := Cursor.rest_skip_spaces he
  have hsolid : Solid (e.skip k).rest := hskip.symm ▸ hrest
  refine ⟨e.skip k, ?_, hskip, by simp [hecol]⟩
  have hlen : c.rest.length = bs.length + (k + rest.length) + 1 := by simp [h]
  rw [hlen, read, hbreak]
  simp [hmore, read_blanks he, read_solid hsolid]

end Gap

/-- The text is in one line and neither begins nor ends with a space, and nothing in it is markup. -/
structure Bare (cs : List Char) : Prop where
  ne_nil : cs ≠ []
  solid : Solid cs
  first : cs.head? ≠ some '#'
  last : cs.getLast? ≠ some ' '
  blank : ∀ x ∈ cs, isSpacing x → x = ' '
  colon : ∀ xs ys, cs = xs ++ ':' :: ys → endsWord ys = false
  hash : ∀ xs ys, cs ≠ xs ++ ' ' :: '#' :: ys

namespace Bare

theorem tail {w : List Char} (h : Bare (w ++ (List.replicate (k + 1) ' ' ++ cs)))
    (hcs : ∀ x ∈ cs.head?, x ≠ ' ') : Bare cs := by
  have hne : cs ≠ [] := by
    rintro rfl
    exact h.last (by simp [List.replicate_succ'])
  have hspaces (xs : List Char) : w ++ (List.replicate (k + 1) ' ' ++ xs) =
      (w ++ List.replicate k ' ') ++ ' ' :: xs := by
    simp [List.replicate_succ']
  have hblank : ∀ x ∈ cs, isSpacing x → x = ' ' := fun x hx => h.blank x (by simp [hx])
  exact {
    ne_nil := hne
    solid := fun x hx => by
      by_contra hspacing
      exact hcs x hx (hblank x (List.mem_of_mem_head? hx) (by simpa using hspacing))
    first := fun hfirst => by
      obtain ⟨ys, rfl⟩ := List.head?_eq_some_iff.1 hfirst
      exact h.hash (w ++ List.replicate k ' ') ys (hspaces _)
    last := fun hlast => h.last (by simp [hlast])
    blank := hblank
    colon := fun xs ys hcs => h.colon (w ++ (List.replicate (k + 1) ' ' ++ xs)) ys (by simp [hcs])
    hash := fun xs ys hcs => h.hash (w ++ (List.replicate (k + 1) ' ' ++ xs)) ys (by simp [hcs]) }

theorem solid_append (h : Bare cs) (tail : List Char) : Solid (cs ++ tail) := by
  obtain ⟨x, xs, rfl⟩ := List.exists_cons_of_ne_nil h.ne_nil
  exact h.solid

theorem colon_word {w : List Char} (h : Bare (w ++ (List.replicate (k + 1) ' ' ++ cs)))
    (tail xs ys : List Char) (hw : w = xs ++ ':' :: ys) :
    endsWord (ys ++ (List.replicate (k + 1) ' ' ++ tail)) = false := by
  have hends := h.colon xs (ys ++ (List.replicate (k + 1) ' ' ++ cs)) (by simp [hw])
  cases ys with
  | nil => cases hends
  | cons y ys => exact hends

theorem isBreak_last (h : Bare cs) : ∀ x ∈ cs.getLast?, isBreak x = false := by
  intro x hx
  by_contra hbreak
  have hspacing : isSpacing x := Bool.or_eq_true_iff.2 (.inr (by simpa using hbreak))
  obtain rfl := h.blank x (List.mem_of_mem_getLast? hx) hspacing
  exact h.last hx

theorem exists_word (h : Bare cs) : ∃ w, w ≠ [] ∧ (∀ x ∈ w, isSpacing x = false) ∧
    (cs = w ∨ ∃ k ds, cs = w ++ (List.replicate (k + 1) ' ' ++ ds) ∧ Bare ds) := by
  obtain ⟨w, zs, rfl, hw, hzs⟩ := exists_run (fun x => !isSpacing x) cs
  have hne : w ≠ [] := by
    rintro rfl
    obtain ⟨z, zs, rfl⟩ := List.exists_cons_of_ne_nil h.ne_nil
    have hz : isSpacing z = true := by simpa using hzs z rfl
    simp [h.solid z rfl] at hz
  refine ⟨w, hne, fun x hx => by simpa using hw x hx, ?_⟩
  obtain ⟨k, ds, rfl, hds⟩ := exists_spaces zs
  cases k with
  | zero =>
    cases ds with
    | nil => exact .inl (List.append_nil w)
    | cons d ds =>
      have hd : isSpacing d = true := by simpa using hzs d rfl
      exact absurd (h.blank d (by simp) hd) (hds d rfl)
  | succ k => exact .inr ⟨k, ds, rfl, h.tail hds⟩

end Bare

namespace Scan

theorem endsWord_append (h : endsWord cs = false) (ds : List Char) : endsWord (cs ++ ds) = false := by
  cases cs with
  | nil => cases h
  | cons x cs => exact h

theorem plainWord_eq {w : List Char} (hw : ∀ x ∈ w, isSpacing x = false)
    (hcolon : ∀ xs ys, w = xs ++ ':' :: ys → endsWord (ys ++ rest) = false)
    (hrest : plainEnds false rest ∨ ∃ x ∈ rest.head?, isSpacing x) (hc : c.rest = w ++ rest)
    (fuel : Nat) (hfuel : w.length ≤ fuel) (acc : List Char) :
    plainWord false fuel acc c = .ok (acc ++ w, c.skip w.length) := by
  induction w generalizing c fuel acc with
  | nil =>
    rw [List.nil_append] at hc
    cases fuel with
    | zero => simp [plainWord]
    | succ fuel =>
      rw [plainWord, hc]
      cases rest with
      | nil => simp
      | cons x rest =>
        dsimp only
        split
        · simp
        · next hx =>
          have hends : plainEnds false (x :: rest) := hrest.resolve_right (by simpa using hx)
          simp [hends]
  | cons x w ih =>
    obtain ⟨hx, hw⟩ := List.forall_mem_cons.1 hw
    obtain ⟨n, rfl⟩ := Nat.exists_eq_add_one.2 (Nat.lt_of_lt_of_le (Nat.succ_pos _) hfuel)
    have hends : plainEnds false (x :: (w ++ rest)) = false := by
      unfold plainEnds
      split
      · next heq => cases heq
      · next ys heq =>
        cases heq
        exact hcolon [] w rfl
      · rfl
    have hskip : c.skip.rest = w ++ rest := Cursor.rest_skip_cons hc
    have hnext := ih hw (fun xs ys hxs => hcolon (x :: xs) ys (by rw [hxs]; rfl)) hskip n
      (by simpa using hfuel) (acc ++ [x])
    rw [plainWord, hc, List.cons_append]
    simp [hx, hends, hnext, Nat.add_comm]

section

variable {w : List Char} (hw : w ≠ []) (hword : ∀ x ∈ w, isSpacing x = false)
  (hcolon : ∀ xs ys, w = xs ++ ':' :: ys → endsWord (ys ++ rest) = false)
  (hmark : c.atDocumentMarker = false) (hhash : w.head? ≠ some '#') (hc : c.rest = w ++ rest)
include hw hword hcolon hmark hhash hc

theorem plain_step {x : Char} {xs : List Char} (hrest : rest = x :: xs)
    (hstop : plainEnds false rest ∨ isSpacing x) :
    plain false margin (fuel + 1) text g c =
      if isSpacing x then
        (Gap.read margin rest.length {} (c.skip w.length)).bind fun (g', d) =>
          if d.column < margin then .ok (text ++ g.fold ++ w, g'.broken, d)
          else plain false margin fuel (text ++ g.fold ++ w) g' d
      else .ok (text ++ g.fold ++ w, false, c.skip w.length) := by
  have hlen : w.length ≤ c.rest.length := by simp [hc]
  have hread := plainWord_eq hword hcolon (hstop.imp_right fun hx => ⟨x, by simp [hrest], hx⟩) hc _ hlen []
  have hsees : c.sees '#' = false := by
    obtain ⟨y, ys, rfl⟩ := List.exists_cons_of_ne_nil hw
    simpa [Cursor.sees, hc] using hhash
  have hskip : (c.skip w.length).rest = rest := Cursor.rest_skip_append hc
  have hpeek : (c.skip w.length).peek = some x := by rw [Cursor.peek, hskip, hrest]; rfl
  rw [plain, hmark, hsees, hread]
  simp [hw, hpeek, hskip, bind, Except.bind]

theorem plain_word {x : Char} {xs : List Char} (hx : isSpacing x) (hrest : rest = x :: xs) :
    plain false margin (fuel + 1) text g c =
      (Gap.read margin rest.length {} (c.skip w.length)).bind fun (g', d) =>
        if d.column < margin then .ok (text ++ g.fold ++ w, g'.broken, d)
        else plain false margin fuel (text ++ g.fold ++ w) g' d :=
  (plain_step hw hword hcolon hmark hhash hc hrest (.inr hx)).trans (if_pos hx)

theorem plain_key {xs : List Char} (margin fuel : Nat) (hrest : rest = ':' :: xs) (hxs : endsWord xs) :
    plain false margin (fuel + 1) [] {} c = .ok (w, false, c.skip w.length) := by
  have hends : plainEnds false rest := by rw [hrest]; exact hxs
  exact plain_step hw hword hcolon hmark hhash hc hrest (.inl hends)

end

theorem plain_line (h : Bare cs) (hc : c.rest = cs ++ '\n' :: (List.replicate k ' ' ++ rest))
    (hrest : Solid rest) (hk : k < margin) (hcol : margin ≤ c.column) (text : List Char) (g : Gap)
    (fuel : Nat) (hfuel : cs.length < fuel) :
    ∃ d : Cursor, plain false margin fuel text g c = .ok (text ++ g.fold ++ cs, true, d) ∧
      d.rest = rest ∧ d.column = k := by
  induction hlen : cs.length using Nat.strongRecOn generalizing cs text g c fuel with
  | ind n ih =>
    obtain ⟨m, rfl⟩ := Nat.exists_eq_add_one.2 (Nat.zero_lt_of_lt hfuel)
    have hmark : c.atDocumentMarker = false := Cursor.atDocumentMarker_of_column (by omega)
    obtain ⟨w, hw, hword, rfl | ⟨j, ds, rfl, hds⟩⟩ := h.exists_word
    · have hcolon (xs ys : List Char) (hxs : cs = xs ++ ':' :: ys) :
          endsWord (ys ++ '\n' :: (List.replicate k ' ' ++ rest)) = false :=
        endsWord_append (h.colon xs ys hxs) _
      have hskip := Cursor.rest_skip_append hc
      have hfeed : ∀ x ∈ ['\n'], isBreak x ∧ isPrintable x := List.forall_mem_singleton.2 (by decide)
      obtain ⟨d, hread, hd⟩ := Gap.read_breaks margin hfeed hskip hrest
      rw [hskip] at hread
      refine ⟨d, ?_, hd⟩
      rw [plain_word hw hword hcolon hmark h.first hc (x := '\n') rfl rfl, hread]
      simp [Except.bind, hd.2, hk]
    · rw [List.append_assoc, List.append_assoc] at hc
      have hfirst : w.head? ≠ some '#' := by
        obtain ⟨y, ys, rfl⟩ := List.exists_cons_of_ne_nil hw
        exact h.first
      have hskip := Cursor.rest_skip_append hc
      have hread := Gap.read_spaces margin hskip (hds.solid_append _)
      obtain ⟨d, hplain, hd⟩ := ih ds.length (by simp at hlen; omega) hds (Cursor.rest_skip_spaces hskip)
        (by simp; omega) (text ++ g.fold ++ w) { blanks := List.replicate (j + 1) ' ' } m
        (by simp at hfuel; omega) rfl
      have hge : ¬ ((c.skip w.length).skip (j + 1)).column < margin := by
        simp
        omega
      rw [hskip] at hread
      refine ⟨d, ?_, hd⟩
      rw [plain_word hw hword (h.colon_word _) hmark hfirst hc (x := ' ') rfl rfl, hread]
      simp only [Except.bind, if_neg hge, hplain]
      simp [Gap.fold]

end Scan

end ConnectionPool.Yaml
