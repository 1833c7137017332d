import ConnectionPool.Proofs.Yaml.Styles
import ConnectionPool.Yaml.Lexer

namespace ConnectionPool.Yaml

variable {c : Cursor} {x : Char} {xs cs rest text : List Char} {k n column : Nat} {i : Int}
  {l l' : Lexer} {tokens : List Token} {stack outer : List Int} {ready : Bool}
  {r : Except Fault (List Token)}

def Fresh (cs : List Char) : Prop :=
  ∀ x ∈ cs.head?, isSpacing x = false ∧ x ≠ '#' ∧ isByteOrderMark x = false

theorem Fresh.solid (h : Fresh cs) : Solid cs := fun x hx => (h x hx).1

theorem fresh_nil : Fresh [] := nofun

theorem fresh_cons (hx : isSpacing x = false) (hhash : x ≠ '#') (hmark : isByteOrderMark x = false) :
    Fresh (x :: xs) := by
  intro y hy
  obtain rfl : x = y := by simpa using hy
  exact ⟨hx, hhash, hmark⟩

theorem isByteOrderMark_of_printable (hx : isPrintable x) : isByteOrderMark x = false := by
  rw [isByteOrderMark, decide_eq_false_iff_not]
  intro hmark
  have hof : x = Char.ofNat 0xFEFF := by rw [← hmark, Char.ofNat_toNat]
  subst hof
  exact absurd hx (by decide)

theorem Printer.toList_line (s : String) :
    (line s).toList = s.toList ++ if s.toList.getLast?.any isBreak then [] else ['\n'] := by
  unfold line
  split <;> simp

namespace Cursor

theorem skipByteOrderMark_eq (h : ∀ x ∈ c.rest.head?, isByteOrderMark x = false) :
    c.skipByteOrderMark = c := by
  have hnot : c.peek.any isByteOrderMark = false := by
    rw [peek]
    cases hhead : c.rest.head? with
    | none => rfl
    | some x => exact h x hhead
  simp [skipByteOrderMark, hnot]

theorem skipComment_eq (h : ∀ x ∈ c.rest.head?, x ≠ '#') : c.skipComment = c := by
  have hsees : c.sees '#' = false := by
    rw [sees, decide_eq_false_iff_not]
    exact fun hhash => h _ hhash rfl
  rw [skipComment, hsees]
  rfl

theorem atMarker_eq_false {m : Char} (hc : c.rest = x :: xs) (hm : x ≠ m) : c.atMarker m = false := by
  cases xs with
  | nil => simp [atMarker, hc]
  | cons y ys => simp [atMarker, hc, hm]

end Cursor

namespace Lexer

/-- Between two tokens outside all flow collections and keys. -/
structure At (text : List Char) (column : Nat) (tokens : List Token) (stack : List Int)
    (ready : Bool) (l : Lexer) : Prop where
  rest : l.cursor.rest = text
  column : l.cursor.column = column
  tokens : l.tokens = tokens
  stack : l.indent :: l.outer = stack
  keys : l.keys = [none]
  keyAllowed : l.keyAllowed = ready

/-- From such a place the tokens of the whole text are `r`. -/
def Reads (text : List Char) (column : Nat) (tokens : List Token) (stack : List Int) (ready : Bool)
    (r : Except Fault (List Token)) : Prop :=
  ∀ l n, At text column tokens stack ready l → text.length < n → run n l = r

theorem At.inFlow (h : At text column tokens stack ready l) : l.inFlow = false := by
  simp [Lexer.inFlow, h.keys]

theorem At.atMarker (h : At text column tokens stack ready l) (hcol : column ≠ 0) (m : Char) :
    l.cursor.atMarker m = false :=
  Cursor.atMarker_of_column (h.column ▸ hcol)

theorem skipSpace_spaces (hc : l.cursor.rest = List.replicate k ' ' ++ rest) (hrest : Fresh rest)
    (fuel : Nat) : skipSpace (fuel + 1) l = { l with cursor := l.cursor.skip k } := by
  have hmark : l.cursor.skipByteOrderMark = l.cursor := Cursor.skipByteOrderMark_eq (by
    rw [hc]
    cases k with
    | zero => exact fun x hx => (hrest x hx).2.2
    | succ k => simp [List.replicate_succ, isByteOrderMark])
  have hskip : (l.cursor.skip k).rest = rest := Cursor.rest_skip_spaces hc
  have hcomment : (l.cursor.skip k).skipComment = l.cursor.skip k :=
    Cursor.skipComment_eq (hskip.symm ▸ fun x hx => (hrest x hx).2.1)
  have hnone : (l.cursor.skip k).break? = none :=
    Cursor.break?_eq_none (hskip.symm ▸ fun x hx => isBreak_eq_false (hrest x hx).1)
  have hrun : l.cursor.dropWhile (fun x => x = ' ' || ((l.inFlow || !l.keyAllowed) && x = '\t')) =
      l.cursor.skip k := by
    have hlen : (l.cursor.rest.takeWhile fun x =>
        x = ' ' || ((l.inFlow || !l.keyAllowed) && x = '\t')).length = k := by
      rw [hc, List.takeWhile_append_of_pos (by simp)]
      cases rest with
      | nil => simp
      | cons y rest =>
        have hy := (hrest y rfl).1
        have hblank : (y = ' ' || y = '\t') = false := isBlank_eq_false hy
        simp_all
    rw [Cursor.dropWhile, Cursor.takeWhile, hlen]
  rw [skipSpace]
  simp only [hmark, hrun, hcomment, hnone]

theorem skipSpace_fresh (h : Fresh l.cursor.rest) (fuel : Nat) : skipSpace fuel l = l := by
  cases fuel with
  | zero => rfl
  | succ fuel => exact skipSpace_spaces (k := 0) rfl h fuel

theorem skipSpace_line (hc : l.cursor.rest = '\n' :: (List.replicate k ' ' ++ rest)) (hrest : Fresh rest)
    (hflow : l.inFlow = false) (fuel : Nat) :
    ∃ d : Cursor, skipSpace (fuel + 2) l = { l with cursor := d, keyAllowed := true } ∧ d.rest = rest ∧
      d.column = k := by
  obtain ⟨d, hbreak, hd, hdcol⟩ := Cursor.exists_break (by decide) (by decide) hc
  have hmark : l.cursor.skipByteOrderMark = l.cursor :=
    Cursor.skipByteOrderMark_eq (by simp [hc, isByteOrderMark])
  have hrun : l.cursor.dropWhile (fun x => x = ' ' || ((l.inFlow || !l.keyAllowed) && x = '\t')) =
      l.cursor := by
    simp [Cursor.dropWhile, Cursor.takeWhile, hc]
  have hcomment : l.cursor.skipComment = l.cursor := Cursor.skipComment_eq (by simp [hc])
  refine ⟨d.skip k, ?_, Cursor.rest_skip_spaces hd, by simp [hdcol]⟩
  rw [skipSpace]
  simp only [hmark, hrun, hcomment, hbreak]
  rw [skipSpace_spaces hd hrest]
  simp [hflow]

theorem dropStaleKeys_none (h : l.keys = List.replicate n none) : l.dropStaleKeys = .ok l := by
  obtain ⟨cursor, tokens, indent, outer, keys, keyAllowed⟩ := l
  obtain rfl := h
  simp [dropStaleKeys]

theorem dropStaleKeys_eq (h : l.keys = [none]) : l.dropStaleKeys = .ok l :=
  dropStaleKeys_none (n := 1) h

theorem dropStaleKeys_key {p : KeyPlace} (h : l.keys = [some p]) (hline : p.line = l.cursor.line)
    (hoffset : l.cursor.offset ≤ p.offset + 1024) : l.dropStaleKeys = .ok l := by
  obtain ⟨cursor, tokens, indent, outer, keys, keyAllowed⟩ := l
  obtain rfl := h
  have hnot : ¬ p.offset + 1024 < cursor.offset := Nat.not_lt.2 hoffset
  simp [dropStaleKeys, hline, hnot]

theorem closeBlocks_eq {column : Int} (h : l.indent ≤ column) : l.closeBlocks column = l := by
  unfold closeBlocks
  split
  · rfl
  · cases l.outer with
    | nil => rfl
    | cons i outer => rw [closeBlocks.go, if_neg (by omega)]

theorem closeBlocks_deep {column j : Int} (hflow : l.inFlow = false) (houter : l.outer = j :: outer)
    (hcol : column < l.indent) : l.closeBlocks column =
      closeBlocks column { l.emit .blockEnd with indent := j, outer := outer } := by
  have hflow' : inFlow { l.emit .blockEnd with indent := j, outer := outer } = false := hflow
  rw [closeBlocks, closeBlocks, hflow, hflow', houter, closeBlocks.go, if_pos hcol]
  rfl

theorem run_token (hfresh : Fresh l.cursor.rest) (hstale : l.dropStaleKeys = .ok l)
    (hclose : l.closeBlocks l.cursor.column = l) (hc : l.cursor.rest = x :: xs)
    (htoken : l.token x xs = .ok l') : run (n + 1) l = run n l' := by
  rw [run, skipSpace_fresh hfresh, hstale]
  simp only [bind, Except.bind, hclose, hc, htoken]

theorem reads_spaces (hrest : Fresh rest) (h : Reads rest (column + k) tokens stack ready r) :
    Reads (List.replicate k ' ' ++ rest) column tokens stack ready r := by
  intro l n hl hn
  obtain ⟨n, rfl⟩ := Nat.exists_eq_add_one.2 (Nat.zero_lt_of_lt hn)
  have hskip : (l.cursor.skip k).rest = rest := Cursor.rest_skip_spaces hl.rest
  rw [← h { l with cursor := l.cursor.skip k } (n + 1)
    ⟨hskip, by simp [hl.column], hl.tokens, hl.stack, hl.keys, hl.keyAllowed⟩ (by simp at hn; omega)]
  rw [run, skipSpace_spaces hl.rest hrest, run, skipSpace_fresh (hskip.symm ▸ hrest)]

theorem reads_line (hrest : Fresh rest) (h : Reads rest k tokens stack true r) (column : Nat)
    (ready : Bool) : Reads ('\n' :: (List.replicate k ' ' ++ rest)) column tokens stack ready r := by
  intro l n hl hn
  obtain ⟨n, rfl⟩ := Nat.exists_eq_add_one.2 (Nat.zero_lt_of_lt hn)
  obtain ⟨d, hskip, hd, hdcol⟩ := skipSpace_line hl.rest hrest hl.inFlow
    (List.replicate k ' ' ++ rest).length
  rw [← h { l with cursor := d, keyAllowed := true } (n + 1)
    ⟨hd, hdcol, hl.tokens, hl.stack, hl.keys, rfl⟩ (by simp at hn; omega)]
  rw [run, hl.rest, List.length_cons, hskip, run, skipSpace_fresh (hd.symm ▸ hrest)]

theorem run_congr (hl : l.keys = [none]) (hl' : l'.keys = [none]) (hfresh : Fresh l.cursor.rest)
    (hcursor : l'.cursor = l.cursor)
    (h : l.closeBlocks l.cursor.column = l'.closeBlocks l.cursor.column) (n : Nat) :
    run (n + 1) l = run (n + 1) l' := by
  rw [run, run, skipSpace_fresh hfresh, skipSpace_fresh (hcursor.symm ▸ hfresh), dropStaleKeys_eq hl,
    dropStaleKeys_eq hl']
  simp only [bind, Except.bind, h, hcursor]

theorem reads_close (hfresh : Fresh text) (hcol : (column : Int) < i) (hstack : stack ≠ [])
    (h : Reads text column (.blockEnd :: tokens) stack ready r) :
    Reads text column tokens (i :: stack) ready r := by
  intro l n hl hn
  obtain ⟨n, rfl⟩ := Nat.exists_eq_add_one.2 (Nat.zero_lt_of_lt hn)
  obtain ⟨j, outer, rfl⟩ := List.exists_cons_of_ne_nil hstack
  obtain ⟨hindent, houter⟩ := List.cons.inj hl.stack
  rw [← h { l.emit .blockEnd with indent := j, outer := outer } (n + 1)
    ⟨hl.rest, hl.column, by simp [emit, hl.tokens], rfl, hl.keys, hl.keyAllowed⟩ hn]
  refine run_congr hl.keys (by exact hl.keys) (hl.rest.symm ▸ hfresh) (by rfl) ?_ n
  exact closeBlocks_deep hl.inFlow houter (by rw [hindent, hl.column]; exact hcol)

theorem reads_end : Reads [] 0 tokens [0, -1] ready (.ok (.blockEnd :: tokens).reverse) := by
  intro l n hl hn
  obtain ⟨n, rfl⟩ := Nat.exists_eq_add_one.2 (Nat.zero_lt_of_lt hn)
  obtain ⟨hindent, houter⟩ := List.cons.inj hl.stack
  have hclose : l.closeBlocks (-1) = { l.emit .blockEnd with indent := -1, outer := [] } := by
    rw [closeBlocks_deep hl.inFlow houter (by rw [hindent]; decide)]
    exact closeBlocks_eq (Int.le_refl _)
  rw [run, skipSpace_fresh (hl.rest.symm ▸ fresh_nil), dropStaleKeys_eq hl.keys]
  simp only [bind, Except.bind]
  rw [closeBlocks_eq (by rw [hindent, hl.column]; decide), hl.rest, hclose]
  simp [dropKey, emit, hl.keys, hl.tokens]

theorem At.indent_le (h : At text column tokens (i :: outer) ready l) (hi : i ≤ column) :
    l.closeBlocks l.cursor.column = l :=
  closeBlocks_eq (by rw [(List.cons.inj h.stack).1, h.column]; exact hi)

theorem reads_token (hfresh : Fresh (x :: xs)) (hi : i ≤ column)
    (h : ∀ l, At (x :: xs) column tokens (i :: outer) ready l →
      ∃ l', l.token x xs = .ok l' ∧ ∀ n, xs.length < n → run n l' = r) :
    Reads (x :: xs) column tokens (i :: outer) ready r := by
  intro l n hl hn
  obtain ⟨n, rfl⟩ := Nat.exists_eq_add_one.2 (Nat.zero_lt_of_lt hn)
  obtain ⟨l', htoken, hrun⟩ := h l hl
  rw [run_token (hl.rest.symm ▸ hfresh) (dropStaleKeys_eq hl.keys) (hl.indent_le hi) hl.rest htoken]
  exact hrun n (by simpa using hn)

theorem reads_entry (hrest : Fresh rest)
    (h : Reads rest (column + 2) (.blockEntry :: tokens) ((column : Int) :: outer) true r) :
    Reads ('-' :: ' ' :: rest) column tokens ((column : Int) :: outer) true r := by
  have hspace : Reads (' ' :: rest) (column + 1) (.blockEntry :: tokens) ((column : Int) :: outer) true
      r := reads_spaces (k := 1) hrest h
  refine reads_token (fresh_cons rfl (by decide) rfl) (Int.le_refl _) fun l hl => ?_
  have hindent : l.indent = column := (List.cons.inj hl.stack).1
  have hdash : l.cursor.atMarker '-' = false := by simp [Cursor.atMarker, hl.rest]
  have hdot : l.cursor.atMarker '.' = false := Cursor.atMarker_eq_false hl.rest (by decide)
  have htoken : l.token '-' (' ' :: rest) = .ok ((l.allowKey true).skip.emit .blockEntry) := by
    simp [token, hdash, hdot, endsWord, isSpacing, isBlank, blockEntry, openBlock, hl.inFlow,
      hl.keyAllowed, hindent, hl.column, dropKey, hl.keys, bind, Except.bind]
  refine ⟨_, htoken, fun n hn =>
    hspace _ n ⟨Cursor.rest_skip_cons hl.rest, ?_, ?_, hl.stack, hl.keys, rfl⟩ hn⟩
  · simp [emit, skip, allowKey, hl.column]
  · simp [emit, skip, allowKey, hl.tokens]

theorem token_plain (hflow : l.inFlow = false) (hx : isSpacing x = false)
    (hindicator : isIndicator x = false)
    (hends : (['?', ':', '-'].contains x && endsWord xs) = false) (hdash : l.cursor.atMarker '-' = false)
    (hdot : l.cursor.atMarker '.' = false) : l.token x xs = l.plainScalar := by
  have hne : ∀ y, isIndicator y → x ≠ y := by
    rintro y hy rfl
    simp [hy] at hindicator
  have hword : ∀ y, ['?', ':', '-'].contains y → (decide (x = y) && endsWord xs) = false := by
    intro y hy
    by_cases hxy : x = y
    · subst hxy
      rw [hy, Bool.true_and] at hends
      simp [hends]
    · simp [hxy]
  simp only [token, hdash, hdot, hflow, hx, hindicator, hword '?' rfl, hword ':' rfl, hword '-' rfl,
    hne '%' rfl, hne '[' rfl, hne '{' rfl, hne ']' rfl, hne '}' rfl, hne ',' rfl, hne '*' rfl,
    hne '&' rfl, hne '!' rfl, hne '|' rfl, hne '>' rfl, hne '\'' rfl, hne '"' rfl, decide_false,
    Bool.and_false, Bool.false_and, Bool.false_or, Bool.or_false, Bool.false_eq_true, if_false]

structure IsKey (cs : List Char) : Prop where
  isWord : IsWord cs
  short : cs.length ≤ 1024

instance (cs : List Char) : Decidable (IsKey cs) :=
  decidable_of_iff (IsWord cs ∧ cs.length ≤ 1024) ⟨fun h => ⟨h.1, h.2⟩, fun h => ⟨h.1, h.2⟩⟩

theorem IsKey.fresh {w : List Char} (h : IsKey w) (xs : List Char) : Fresh (w ++ xs) := by
  obtain ⟨y, ys, rfl⟩ := List.exists_cons_of_ne_nil h.isWord.ne_nil
  have hy := h.isWord.letters y (by simp)
  exact fresh_cons (isSpacing_of_isLetter hy) (isLetter_ne hy rfl)
    (decide_eq_false (toNat_ne_of_isLetter hy rfl))

theorem width_of_letters (h : ∀ x ∈ cs, isLetter x) : Cursor.width cs = cs.length := by
  induction cs with
  | nil => rfl
  | cons x cs ih =>
    obtain ⟨hx, hcs⟩ := List.forall_mem_cons.1 h
    have happend := Cursor.width_append [x] cs
    rw [List.singleton_append] at happend
    rw [happend, ih hcs, List.length_cons, Nat.add_comm]
    simp [Cursor.width, utf8Size_of_isLetter hx]

def here (l : Lexer) : KeyPlace where
  needed := !l.inFlow && l.indent = (l.cursor.column : Int)
  position := l.tokens.length
  offset := l.cursor.offset
  line := l.cursor.line
  column := l.cursor.column

theorem markKey_eq (hready : l.keyAllowed = true) (hkeys : l.keys = [none]) :
    l.markKey = .ok { l with keys := [some l.here] } := by
  simp [markKey, hready, dropKey, hkeys, bind, Except.bind, here]

theorem token_key {w : List Char} (hw : IsWord w) (hrest : endsWord rest)
    (hl : At (w ++ ':' :: rest) column tokens stack true l) (hx : w ++ ':' :: rest = x :: xs) :
    l.token x xs = .ok ({ l with
      keys := [some l.here], cursor := l.cursor.skip w.length, keyAllowed := false }.emit
        (.scalar (String.ofList w) .plain)) := by
  obtain ⟨y, ys, rfl⟩ := List.exists_cons_of_ne_nil hw.ne_nil
  rw [List.cons_append] at hx
  obtain ⟨rfl, rfl⟩ := List.cons.inj hx
  have hy := hw.letters y (by simp)
  have hdash : l.cursor.atMarker '-' = false := Cursor.atMarker_eq_false hl.rest (isLetter_ne hy rfl)
  have hdot : l.cursor.atMarker '.' = false := Cursor.atMarker_eq_false hl.rest (isLetter_ne hy rfl)
  have hends : (['?', ':', '-'].contains y && endsWord (ys ++ ':' :: rest)) = false := by
    rw [contains_of_isLetter hy (by decide), Bool.false_and]
  have hcolon (zs ys' : List Char) (hzs : y :: ys = zs ++ ':' :: ys') :
      endsWord (ys' ++ ':' :: rest) = false := absurd rfl (isLetter_ne (hw.letters ':' (by simp [hzs])) rfl)
  have hmarker : l.cursor.atDocumentMarker = false := by
    rw [Cursor.atDocumentMarker, hdash, hdot, Bool.or_false]
  have hword : ∀ z ∈ y :: ys, isSpacing z = false := fun z hz => isSpacing_of_isLetter (hw.letters z hz)
  have hscan := Scan.plain_key hw.ne_nil hword hcolon hmarker
    hw.bare.first hl.rest (l.indent + 1).toNat l.cursor.rest.length rfl hrest
  rw [token_plain hl.inFlow (isSpacing_of_isLetter hy) (isIndicator_of_isLetter hy) hends hdash hdot,
    plainScalar, markKey_eq hl.keyAllowed hl.keys]
  simp [bind, Except.bind, inFlow, hscan]

theorem token_value (hrest : endsWord rest) (hc : l.cursor.rest = ':' :: rest) :
    l.token ':' rest = l.value := by
  have hdash : l.cursor.atMarker '-' = false := Cursor.atMarker_eq_false hc (by decide)
  have hdot : l.cursor.atMarker '.' = false := Cursor.atMarker_eq_false hc (by decide)
  simp [token, hdash, hdot, hrest]

theorem insert_eq (ts : List Token) {us : List Token} (t : Token) (h : l.tokens = ts ++ us) :
    l.insert us.length t = { l with tokens := ts ++ t :: us } := by
  simp [Lexer.insert, h]

/-- The tokens of a key and the colon after it, the last one first.  The first key of a mapping
opens a block. -/
def keyTokens (opens : Bool) (w : List Char) : List Token :=
  [.value, .scalar (String.ofList w) .plain, .key] ++ if opens then [.blockMappingStart] else []

theorem value_key {w : List Char} {p : KeyPlace} (hkeys : l.keys = [some p])
    (hposition : p.position = tokens.length) (htokens : l.tokens = .scalar (String.ofList w) .plain :: tokens)
    (hstack : l.indent :: l.outer = i :: outer) (hc : l.cursor.rest = ':' :: rest) :
    ∃ l', l.value = .ok l' ∧ At rest (l.cursor.column + 1) (keyTokens (i < p.column) w ++ tokens)
      (if i < p.column then (p.column : Int) :: i :: outer else i :: outer) false l' := by
  obtain ⟨hindent, houter⟩ := List.cons.inj hstack
  have hskip : l.cursor.skip.rest = rest := Cursor.rest_skip_cons hc
  have hinsert := insert_eq [.scalar (String.ofList w) .plain] .key htokens
  have hvalue : l.value = .ok (({ (l.insert p.position .key).openBlock p.column p.position
      .blockMappingStart with keys := [none] }.allowKey false).skip.emit .value) := by
    rw [value, hkeys]
  rw [hvalue, hposition, hinsert]
  refine ⟨_, rfl, ?_⟩
  generalize hk : Lexer.mk l.cursor _ _ _ _ _ = k
  have hkindent : k.indent = i := by rw [← hk]; exact hindent
  have hkflow : k.inFlow = false := by simp [← hk, inFlow, hkeys]
  by_cases hlt : i < p.column
  · have hopen : k.openBlock p.column tokens.length .blockMappingStart =
        { k.insert tokens.length .blockMappingStart with indent := p.column, outer := k.indent :: k.outer } :=
      if_pos (by simp [hkflow, hkindent, hlt])
    rw [hopen, insert_eq [.scalar (String.ofList w) .plain, .key] _ (by rw [← hk]; rfl), ← hk]
    exact ⟨hskip, rfl, by simp [emit, skip, allowKey, keyTokens, hlt],
      by simp [emit, skip, allowKey, hlt, hindent, houter], rfl, rfl⟩
  · have hopen : k.openBlock p.column tokens.length .blockMappingStart = k :=
      if_neg (by simp [hkindent, hlt])
    rw [hopen, ← hk]
    exact ⟨hskip, rfl, by simp [emit, skip, allowKey, keyTokens, hlt],
      by simp [emit, skip, allowKey, hlt, hindent, houter], rfl, rfl⟩

theorem reads_key {w : List Char} (hw : IsKey w) (hrest : endsWord rest) (hi : i ≤ column)
    (h : Reads rest (column + w.length + 1) (keyTokens (i < column) w ++ tokens)
      (if i < column then (column : Int) :: i :: outer else i :: outer) false r) :
    Reads (w ++ ':' :: rest) column tokens (i :: outer) true r := by
  intro l n hl hn
  obtain ⟨n, rfl⟩ := Nat.exists_eq_add_of_le' (m := 2) (n := n) (by simp at hn; omega)
  obtain ⟨hindent, houter⟩ := List.cons.inj hl.stack
  obtain ⟨x, xs, hx⟩ : ∃ x xs, w ++ ':' :: rest = x :: xs := List.exists_cons_of_ne_nil (by simp)
  rw [run_token (hl.rest.symm ▸ hw.fresh _) (dropStaleKeys_eq hl.keys) (hl.indent_le hi) (hl.rest.trans hx)
    (token_key hw.isWord hrest hl hx)]
  generalize hl' : Lexer.emit _ _ = l'
  have hcursor : l'.cursor = l.cursor.skip w.length := by rw [← hl']; rfl
  have hrest' : l'.cursor.rest = ':' :: rest := by
    rw [hcursor]
    exact Cursor.rest_skip_append hl.rest
  have hkeys : l'.keys = [some l.here] := by rw [← hl']; rfl
  have hwidth : l'.cursor.offset = l.cursor.offset + w.length := by
    rw [hcursor, Cursor.skip, hl.rest, List.take_left, width_of_letters hw.isWord.letters]
  have hstale : l'.dropStaleKeys = .ok l' := dropStaleKeys_key hkeys (by rw [hcursor]; rfl) (by
    rw [hwidth]
    exact Nat.add_le_add_left hw.short _)
  have hindent' : l'.indent = i := by rw [← hl']; exact hindent
  have hcol : l'.cursor.column = column + w.length := by rw [hcursor, Cursor.column_skip, hl.column]
  have hclose : l'.closeBlocks l'.cursor.column = l' := closeBlocks_eq (by omega)
  have hpos : 0 < w.length := List.length_pos_iff.2 hw.isWord.ne_nil
  have htokens : l'.tokens = .scalar (String.ofList w) .plain :: tokens := by
    rw [← hl', ← hl.tokens]
    rfl
  have hstack : l'.indent :: l'.outer = i :: outer := by rw [← hl']; exact hl.stack
  have hcolumn : l.here.column = column := hl.column
  obtain ⟨k, hvalue, hk⟩ := value_key hkeys (by rw [here, hl.tokens]) htokens hstack hrest'
  rw [hcolumn, hcol] at hk
  rw [run_token (hrest' ▸ fresh_cons rfl (by decide) rfl) hstale hclose hrest'
    ((token_value hrest hrest').trans hvalue)]
  exact h k n hk (by simp at hn; omega)

theorem fresh_scalar {s : String} {style : Style} (hs : style.Holds s.toList) (n : Nat)
    (xs : List Char) : Fresh ((Printer.line (Printer.scalar n s style)).toList ++ xs) := by
  rw [Printer.toList_line, List.append_assoc]
  cases style with
  | plain =>
    obtain ⟨hbare, hprintable, -⟩ := hs
    rw [Printer.scalar]
    obtain ⟨x, ys, hx⟩ := List.exists_cons_of_ne_nil hbare.ne_nil
    rw [hx] at hbare hprintable ⊢
    refine fresh_cons (solid_cons.1 hbare.solid) ?_
      (isByteOrderMark_of_printable (hprintable x (by simp)))
    rintro rfl
    exact hbare.first rfl
  | singleQuoted =>
    simp [Printer.scalar, Printer.singleQuoted, Fresh, isSpacing, isBlank, isBreak, isByteOrderMark]
  | doubleQuoted =>
    simp [Printer.scalar, Printer.doubleQuoted, Fresh, isSpacing, isBlank, isBreak, isByteOrderMark]
  | literal => simp [Printer.scalar, Fresh, isSpacing, isBlank, isBreak, isByteOrderMark]
  | folded => exact hs.elim

section

variable {indent : Nat} (hcol : indent < column) (hrest : Fresh rest)

theorem reads_next {d : Cursor} {t : Token} (hl : At text column tokens stack ready l)
    (h : Reads rest k (t :: tokens) stack true r)
    (hd : d.rest = rest) (hdcol : d.column = k) (hn : rest.length < n) :
    run n ({ l with cursor := d, keyAllowed := true }.emit t) = r :=
  h _ n ⟨hd, hdcol, by simp [emit, hl.tokens], hl.stack, hl.keys, rfl⟩ hn

theorem markKey_of_not_ready (hl : At text column tokens stack false l) : l.markKey = .ok l := by
  simp [markKey, hl.keyAllowed]

include hcol hrest

theorem reads_plain (hcs : Style.plain.Holds cs) (hk : k ≤ indent)
    (h : Reads rest k (.scalar (String.ofList cs) .plain :: tokens) ((indent : Int) :: outer) true r) :
    Reads (cs ++ '\n' :: (List.replicate k ' ' ++ rest)) column tokens ((indent : Int) :: outer) false
      r := by
  obtain ⟨hbare, hprintable, hstart⟩ := hcs
  obtain ⟨x, xs, rfl⟩ := List.exists_cons_of_ne_nil hbare.ne_nil
  have hx := solid_cons.1 hbare.solid
  simp only [Traits.startsMarkup, Bool.or_eq_false_iff] at hstart
  obtain ⟨⟨⟨hindicator, hends⟩, -⟩, -⟩ := hstart
  have hhash : x ≠ '#' := by
    rintro rfl
    exact hbare.first rfl
  have hmark : isByteOrderMark x = false := isByteOrderMark_of_printable (hprintable x (by simp))
  have hends' : (['?', ':', '-'].contains x &&
      endsWord (xs ++ '\n' :: (List.replicate k ' ' ++ rest))) = false := by
    cases xs with
    | nil => simpa [endsWord, isSpacing, isBreak] using hends
    | cons y ys => exact hends
  refine reads_token (fresh_cons hx hhash hmark) (by omega) fun l hl => ?_
  have hindent : l.indent = indent := (List.cons.inj hl.stack).1
  have hmarker (m : Char) : l.cursor.atMarker m = false := hl.atMarker (by omega) m
  have hc : l.cursor.rest = x :: xs ++ '\n' :: (List.replicate k ' ' ++ rest) := hl.rest
  have hlen : (x :: xs).length < l.cursor.rest.length + 1 := by
    rw [hc, List.length_append]
    omega
  obtain ⟨d, hscan, hd, hdcol⟩ := Scan.plain_line hbare hc hrest.solid (Nat.lt_succ_of_le hk)
    (by rw [hl.column]; exact hcol) [] {} (l.cursor.rest.length + 1) hlen
  have htoken : l.token x (xs ++ '\n' :: (List.replicate k ' ' ++ rest)) =
      .ok ({ l with cursor := d, keyAllowed := true }.emit (.scalar (String.ofList (x :: xs)) .plain)) := by
    rw [token_plain hl.inFlow hx hindicator hends' (hmarker _) (hmarker _), plainScalar,
      markKey_of_not_ready hl]
    simp [bind, Except.bind, hl.inFlow, hindent, hscan, Gap.fold]
  exact ⟨_, htoken, fun n hn => reads_next hl h hd hdcol (by simp at hn; omega)⟩

theorem reads_quoted {style : Style} (hx : x = '\'' ∨ x = '"')
    (hstyle : style = if x = '\'' then .singleQuoted else .doubleQuoted)
    (hscan : ∀ c : Cursor, c.column ≠ 0 → c.rest = xs ++ '\n' :: (List.replicate k ' ' ++ rest) →
      ∃ d : Cursor, Scan.quoted (style = .singleQuoted) (c.rest.length + 2) [] c = .ok (cs, d) ∧
        d.rest = '\n' :: (List.replicate k ' ' ++ rest))
    (h : Reads rest k (.scalar (String.ofList cs) style :: tokens) ((indent : Int) :: outer) true r) :
    Reads (x :: xs ++ '\n' :: (List.replicate k ' ' ++ rest)) column tokens ((indent : Int) :: outer)
      false r := by
  have hfresh (ys : List Char) : Fresh (x :: ys) := by
    rcases hx with rfl | rfl <;> exact fresh_cons rfl (by decide) rfl
  rw [List.cons_append]
  refine reads_token (hfresh _) (by omega) fun l hl => ?_
  have hskip : l.cursor.skip.rest = xs ++ '\n' :: (List.replicate k ' ' ++ rest) :=
    Cursor.rest_skip_cons hl.rest
  obtain ⟨d, hscan, hd⟩ := hscan l.cursor.skip (by simp) hskip
  have hlen : l.cursor.skip.rest.length + 2 = l.cursor.rest.length + 1 := by
    rw [hskip, hl.rest]
    simp
  rw [hlen] at hscan
  have hmarker (m : Char) : l.cursor.atMarker m = false := hl.atMarker (by omega) m
  have htoken : l.token x (xs ++ '\n' :: (List.replicate k ' ' ++ rest)) = l.quotedScalar style := by
    rcases hx with rfl | rfl <;> simp [token, hmarker, hstyle]
  refine ⟨{ l with cursor := d, keyAllowed := false }.emit (.scalar (String.ofList cs) style),
    htoken.trans ?_, fun n hn => ?_⟩
  · rw [quotedScalar, markKey_of_not_ready hl]
    simp only [bind, Except.bind, hscan]
  · rw [List.length_append] at hn
    exact reads_line hrest h d.column false _ n
      ⟨hd, rfl, by simp [emit, hl.tokens], hl.stack, hl.keys, rfl⟩ (by omega)

theorem reads_literal (hcs : Style.literal.Holds cs) (hk : k ≤ indent)
    (h : Reads rest k (.scalar (String.ofList cs) .literal :: tokens) ((indent : Int) :: outer) true r) :
    Reads ('|' :: ((Printer.literalMarks cs).toList ++
      '\n' :: ((Printer.literalLines (indent + 2) true cs).toList ++
        ((if cs.getLast?.any isBreak then [] else ['\n']) ++ (List.replicate k ' ' ++ rest)))))
      column tokens ((indent : Int) :: outer) false r := by
  refine reads_token (fresh_cons rfl (by decide) rfl) (by omega) fun l hl => ?_
  have hindent : l.indent = indent := (List.cons.inj hl.stack).1
  obtain ⟨d, hscan, hd, hdcol⟩ := Scan.block_literal hcs.2 hcs.1 (by omega) hrest.solid
    (Cursor.rest_skip_cons hl.rest)
  have hmarker (m : Char) : l.cursor.atMarker m = false := hl.atMarker (by omega) m
  have htoken (ys : List Char) : l.token '|' ys =
      .ok ({ l with cursor := d, keyAllowed := true }.emit (.scalar (String.ofList cs) .literal)) := by
    simp [token, hmarker, hl.inFlow, blockScalar, dropKey, hl.keys, bind, Except.bind, hindent, hscan]
  exact ⟨_, htoken _, fun n hn => reads_next hl h hd hdcol (by simp at hn; omega)⟩

theorem reads_empty
    (h : Reads rest k (.flowSequenceEnd :: .flowSequenceStart :: tokens) ((indent : Int) :: outer) true
      r) :
    Reads ('[' :: ']' :: '\n' :: (List.replicate k ' ' ++ rest)) column tokens ((indent : Int) :: outer)
      false r := by
  refine reads_token (fresh_cons rfl (by decide) rfl) (by omega) fun l hl => ?_
  have hmarker (m : Char) : l.cursor.atMarker m = false := hl.atMarker (by omega) m
  have hopen (ys : List Char) : l.token '[' ys =
      .ok ((({ l with keys := [none, none] }.allowKey true).skip).emit .flowSequenceStart) := by
    simp [token, hmarker, openFlow, markKey_of_not_ready hl, hl.keys, bind, Except.bind]
  refine ⟨_, hopen _, fun n hn => ?_⟩
  obtain ⟨n, rfl⟩ := Nat.exists_eq_add_one.2 (Nat.zero_lt_of_lt hn)
  generalize hl' : Lexer.emit _ _ = l'
  have hrest' : l'.cursor.rest = ']' :: '\n' :: (List.replicate k ' ' ++ rest) := by
    rw [← hl']
    exact Cursor.rest_skip_cons hl.rest
  have hkeys : l'.keys = [none, none] := by rw [← hl']; rfl
  have hcol' : l'.cursor.column = column + 1 := by rw [← hl', ← hl.column]; rfl
  have hindent : l'.indent = indent := by rw [← hl']; exact (List.cons.inj hl.stack).1
  have hclose (ys : List Char) : l'.token ']' ys =
      .ok ((({ l' with keys := [none] }.allowKey false).skip).emit .flowSequenceEnd) := by
    have hmarker' (m : Char) : l'.cursor.atMarker m = false := Cursor.atMarker_of_column (by omega)
    simp [token, hmarker', closeFlow, dropKey, inFlow, hkeys, bind, Except.bind]
  rw [run_token (hrest'.symm ▸ fresh_cons rfl (by decide) rfl) (dropStaleKeys_none (n := 2) hkeys)
    (closeBlocks_eq (by omega)) hrest' (hclose _)]
  refine reads_line hrest h (column + 2) false _ n
    ⟨Cursor.rest_skip_cons hrest', ?_, ?_, ?_, rfl, rfl⟩ (by simpa using hn)
  · simp [emit, skip, allowKey, hcol']
  · simp [← hl', emit, skip, allowKey, hl.tokens]
  · rw [← hl']
    exact hl.stack

theorem reads_scalar {s : String} {style : Style} (hs : style.Holds s.toList) (hk : k ≤ indent)
    (h : Reads rest k (.scalar s style :: tokens) ((indent : Int) :: outer) true r) :
    Reads ((Printer.line (Printer.scalar (indent + 2) s style)).toList ++ (List.replicate k ' ' ++ rest))
      column tokens ((indent : Int) :: outer) false r := by
  rw [Printer.toList_line]
  have hs' : String.ofList s.toList = s := String.ofList_toList
  rw [← hs'] at h
  cases style with
  | plain =>
    have hlast : s.toList.getLast?.any isBreak = false := by
      rw [Option.any_eq_false]
      intro x hx
      exact hs.1.isBreak_last x hx
    rw [Printer.scalar, hlast]
    simpa using reads_plain hcol hrest hs hk h
  | singleQuoted =>
    have hprint : (Printer.singleQuoted (indent + 2) s).toList =
        '\'' :: ((Printer.insideSingle (indent + 2) false s.toList).toList ++ ['\'']) := by
      simp [Printer.singleQuoted]
    have hlast : ('\'' :: ((Printer.insideSingle (indent + 2) false s.toList).toList ++
        ['\''])).getLast?.any isBreak = false := by
      simp [List.getLast?_cons, isBreak]
    rw [Printer.scalar, hprint, hlast, List.append_assoc]
    refine reads_quoted hcol hrest (.inl rfl) rfl (fun c hc hcrest => ?_) h
    rw [List.append_assoc] at hcrest
    have hlen := Printer.length_le_insideSingle (indent + 2) false s.toList
    have hlength : s.toList.length < c.rest.length + 2 := by
      simp only [hcrest, List.length_append, List.length_cons]
      omega
    exact Scan.quoted_folded (by omega) hs hc (by simp) hcrest [] _ hlength
  | doubleQuoted =>
    have hlast : ('"' :: (s.toList.flatMap (fun x => (Printer.escaped x).toList) ++ ['"'])).getLast?.any
        isBreak = false := by
      simp [List.getLast?_cons, isBreak]
    rw [Printer.scalar, Printer.toList_doubleQuoted, hlast, List.append_assoc]
    refine reads_quoted hcol hrest (.inr rfl) rfl (fun c hc hcrest => ?_) h
    rw [List.append_assoc] at hcrest
    have hlen := Scan.length_le_flatMap (w := s.toList) fun x _ => Printer.escaped_ne_nil x
    have hlength : s.toList.length < c.rest.length + 2 := by
      simp only [hcrest, List.length_append, List.length_cons]
      omega
    exact Scan.quoted_escaped hc (by simp) hcrest [] _ hlength
  | literal =>
    have hprint : (Printer.scalar (indent + 2) s .literal).toList =
        '|' :: ((Printer.literalMarks s.toList).toList ++
          '\n' :: (Printer.literalLines (indent + 2) true s.toList).toList) := by
      simp [Printer.scalar]
    obtain ⟨ys, y, hys⟩ := (List.eq_nil_or_concat' s.toList).resolve_left hs.1
    have hlast : ('|' :: ((Printer.literalMarks s.toList).toList ++
        '\n' :: (Printer.literalLines (indent + 2) true s.toList).toList)).getLast? =
          s.toList.getLast? := by
      have hlines := Printer.getLast?_literalLines (n := indent + 2) true ys y
      rw [hys]
      simp [List.getLast?_cons, List.getLast?_append, hlines]
    rw [hprint, hlast]
    simpa using reads_literal hcol hrest hs hk h
  | folded => exact hs.elim

end

end Lexer

end ConnectionPool.Yaml
