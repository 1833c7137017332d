import ConnectionPool.Proofs.Yaml.Lexing

namespace ConnectionPool.Yaml

variable {text rest : List Char} {indent column k : Nat} {i : Int} {tokens : List Token}
  {stack outer : List Int} {r : Except Fault (List Token)} {n : Node} {ps : List (String × Node)}
  {rows : List (List (String × Node))}

mutual

def Node.tokens : Node → List Token
  | .scalar s style _ => [.scalar s style]
  | .sequence _ [] => [.flowSequenceStart, .flowSequenceEnd]
  | .sequence _ (n :: ns) => .blockEntry :: n.tokens ++ itemTokens ns
  | .mapping _ ps => .blockMappingStart :: pairTokens ps ++ [.blockEnd]
  | .alias _ => []

def itemTokens : List Node → List Token
  | [] => []
  | n :: ns => .blockEntry :: n.tokens ++ itemTokens ns

def pairTokens : List (Node × Node) → List Token
  | [] => []
  | (k, v) :: ps => .key :: k.tokens ++ .value :: v.tokens ++ pairTokens ps

end

/-- The nodes that are scalars in a style that holds them, records with words for keys, and lists of
such records. -/
inductive Node.Written : Node → Prop
  | scalar {s : String} {style : Style} (h : style.Holds s.toList) : Written (.scalar s style none)
  | empty : Written (.list [])
  | list {rows : List (List (String × Node))} (hne : rows ≠ []) (hrows : ∀ ps ∈ rows, ps ≠ [])
    (hkeys : ∀ ps ∈ rows, ∀ p ∈ ps, Lexer.IsKey p.1.toList) (h : ∀ ps ∈ rows, ∀ p ∈ ps, Written p.2) :
    Written (.list (rows.map .record))
  | record {ps : List (String × Node)} (hne : ps ≠ []) (hkeys : ∀ p ∈ ps, Lexer.IsKey p.1.toList)
    (h : ∀ p ∈ ps, Written p.2) : Written (.record ps)

namespace Node.Written

theorem ofWord {s : String} (h : IsWord s.toList) : Written (.plain s) := .scalar h.holds_plain

theorem ofText (s : String) : Written (.ofText s) := .scalar (Style.holds_ofText s)

theorem ofNat (n : Nat) : Written (.ofNat n) := .ofWord (isWord_toString n)

theorem ofBool (b : Bool) : Written (.ofBool b) := by cases b <;> exact .ofWord (by decide)

theorem ofOption (o : Option Nat) : Written (.ofOption .ofNat o) := by
  cases o with
  | none => exact .ofWord (by decide)
  | some n => exact .ofNat n

theorem ofList {α : Type} {f : α → List (String × Node)} {xs : List α} (hne : ∀ x ∈ xs, f x ≠ [])
    (hkeys : ∀ x ∈ xs, ∀ p ∈ f x, Lexer.IsKey p.1.toList) (h : ∀ x ∈ xs, ∀ p ∈ f x, Written p.2) :
    Written (.list (xs.map fun x => .record (f x))) := by
  cases xs with
  | nil => exact .empty
  | cons x xs =>
    have hrows : Written (.list (((x :: xs).map f).map .record)) :=
      .list (by simp) (by simpa using hne) (by simpa using hkeys) (by simpa using h)
    rwa [List.map_map] at hrows

end Node.Written

namespace Lexer

/-- After a value, the next thing to read stands in a line of its own, not deeper than `indent`. -/
def Continues (indent : Nat) (text : List Char) (tokens : List Token) (stack : List Int)
    (r : Except Fault (List Token)) : Prop :=
  ∃ k rest, text = List.replicate k ' ' ++ rest ∧ k ≤ indent ∧ Fresh rest ∧
    Reads rest k tokens stack true r

theorem Continues.close (h : Continues indent text (.blockEnd :: tokens) (indent :: outer) r) :
    Continues (indent + 2) text tokens ((indent + 2 : Nat) :: indent :: outer) r := by
  obtain ⟨k, rest, htext, hk, hrest, hreads⟩ := h
  exact ⟨k, rest, htext, by omega, hrest, reads_close hrest (by omega) (by simp) hreads⟩

def ReadsValue (v : Node) : Prop :=
  ∀ {indent column : Nat} {text : List Char} {tokens : List Token} {outer : List Int}
    {r : Except Fault (List Token)}, indent < column →
    Continues indent text (v.tokens.reverse ++ tokens) (indent :: outer) r →
      Reads ((Printer.value indent v).toList ++ text) column tokens (indent :: outer) false r

theorem endsWord_value (indent : Nat) (v : Node) (text : List Char) :
    endsWord ((Printer.value indent v).toList ++ text) := by
  cases v with
  | scalar s style tag => simp [Printer.value, endsWord, isSpacing, isBlank]
  | sequence tag ns => cases ns <;> simp [Printer.value, endsWord, isSpacing, isBlank, isBreak]
  | mapping tag ps => cases ps <;> simp [Printer.value, endsWord, isSpacing, isBlank, isBreak]
  | «alias» number =>
    have hspace : (toString " *").toList = [' ', '*'] := rfl
    simp [Printer.value, Printer.toList_line, hspace, endsWord, isSpacing, isBlank]

def pairsOf (ps : List (String × Node)) : List (Node × Node) := ps.map fun (k, n) => (.plain k, n)

theorem reads_pairs (h : ∀ p ∈ ps, IsKey p.1.toList ∧ ReadsValue p.2)
    (hnext : Continues indent text ((pairTokens (pairsOf ps)).reverse ++ tokens) (indent :: outer) r) :
    Continues indent ((Printer.pairs indent (pairsOf ps)).toList ++ text) tokens (indent :: outer) r := by
  induction ps generalizing tokens with
  | nil => simpa [Printer.pairs, pairsOf, pairTokens] using hnext
  | cons p ps ih =>
    obtain ⟨k, v⟩ := p
    obtain ⟨⟨hkey, hvalue⟩, hps⟩ := List.forall_mem_cons.1 h
    have hprint : (Printer.pairs indent (pairsOf ((k, v) :: ps))).toList ++ text =
        List.replicate indent ' ' ++ (k.toList ++ ':' :: ((Printer.value indent v).toList ++
          ((Printer.pairs indent (pairsOf ps)).toList ++ text))) := by
      simp [pairsOf, Printer.pairs, Printer.key, Node.plain, Printer.scalar, Printer.indentation]
    refine ⟨indent, _, hprint, Nat.le_refl _, hkey.fresh _, ?_⟩
    refine reads_key hkey (endsWord_value _ _ _) (Int.le_refl _) ?_
    have hlt : ¬ (indent : Int) < indent := Int.lt_irrefl _
    simp only [hlt, decide_false, if_false]
    refine hvalue (by omega) (ih hps ?_)
    simpa [keyTokens, pairsOf, pairTokens, Node.tokens, Node.plain] using hnext

theorem reads_record {outer : List Int} (hne : ps ≠ []) (h : ∀ p ∈ ps, IsKey p.1.toList ∧ ReadsValue p.2)
    (hi : i < column)
    (hnext : Continues column text ((pairTokens (pairsOf ps)).reverse ++ .blockMappingStart :: tokens)
      (column :: i :: outer) r) :
    Reads ((Printer.node column (.record ps)).toList ++ text) column tokens (i :: outer) true r := by
  obtain ⟨⟨k, v⟩, ps, rfl⟩ := List.exists_cons_of_ne_nil hne
  obtain ⟨⟨hkey, hvalue⟩, hps⟩ := List.forall_mem_cons.1 h
  have hprint : (Printer.node column (.record ((k, v) :: ps))).toList ++ text =
      k.toList ++ ':' :: ((Printer.value column v).toList ++
        ((Printer.pairs column (pairsOf ps)).toList ++ text)) := by
    simp [Node.record, pairsOf, Printer.node, Printer.key, Node.plain, Printer.scalar]
  rw [hprint]
  refine reads_key hkey (endsWord_value _ _ _) (Int.le_of_lt hi) ?_
  simp only [hi, decide_true, if_true]
  refine hvalue (by omega) (reads_pairs hps ?_)
  simpa [keyTokens, pairsOf, pairTokens, Node.tokens, Node.plain] using hnext

theorem reads_row (hne : ps ≠ []) (h : ∀ p ∈ ps, IsKey p.1.toList ∧ ReadsValue p.2)
    (hnext : Continues indent text ((Node.record ps).tokens.reverse ++ tokens) (indent :: outer) r) :
    Reads ((Printer.node (indent + 2) (.record ps)).toList ++ text) (indent + 2) tokens (indent :: outer)
      true r := by
  refine reads_record hne h (by omega) (Continues.close ?_)
  simpa [Node.record, Node.tokens, pairsOf] using hnext

theorem fresh_record (hne : ps ≠ []) (h : ∀ p ∈ ps, IsKey p.1.toList) (text : List Char) :
    Fresh ((Printer.node indent (.record ps)).toList ++ text) := by
  obtain ⟨⟨k, v⟩, ps, rfl⟩ := List.exists_cons_of_ne_nil hne
  have hkey := h (k, v) (by simp)
  simpa [Node.record, Printer.node, Printer.key, Node.plain, Printer.scalar] using hkey.fresh _

theorem reads_items (hne : ∀ ps ∈ rows, ps ≠ [])
    (h : ∀ ps ∈ rows, ∀ p ∈ ps, IsKey p.1.toList ∧ ReadsValue p.2)
    (hnext : Continues indent text ((itemTokens (rows.map .record)).reverse ++ tokens)
      (indent :: outer) r) :
    Continues indent ((Printer.items indent (rows.map .record)).toList ++ text) tokens
      (indent :: outer) r := by
  induction rows generalizing tokens with
  | nil => simpa [Printer.items, itemTokens] using hnext
  | cons ps rows ih =>
    obtain ⟨hps, hne⟩ := List.forall_mem_cons.1 hne
    obtain ⟨hfields, h⟩ := List.forall_mem_cons.1 h
    have hprint : (Printer.items indent ((ps :: rows).map .record)).toList ++ text =
        List.replicate indent ' ' ++ ('-' :: ' ' :: ((Printer.node (indent + 2) (.record ps)).toList ++
          ((Printer.items indent (rows.map .record)).toList ++ text))) := by
      simp [Printer.items, Printer.indentation]
    refine ⟨indent, _, hprint, Nat.le_refl _, fresh_cons rfl (by decide) rfl, ?_⟩
    refine reads_entry (fresh_record hps (fun p hp => (hfields p hp).1) _) ?_
    refine reads_row hps hfields (ih hne h ?_)
    simpa [itemTokens] using hnext

theorem reads_value (hn : n.Written) : ReadsValue n := by
  induction hn with
  | @scalar s style h =>
    intro indent column text tokens outer r hcol hnext
    obtain ⟨k, rest, rfl, hk, hrest, hreads⟩ := hnext
    have hscalar := reads_scalar (Nat.lt_succ_of_lt hcol) hrest h hk hreads
    rw [Printer.value, String.toList_append, List.append_assoc]
    exact reads_spaces (k := 1) (fresh_scalar h _ _) hscalar
  | empty =>
    intro indent column text tokens outer r hcol hnext
    obtain ⟨k, rest, rfl, hk, hrest, hreads⟩ := hnext
    have hprint : (Printer.value indent (.list [])).toList = [' ', '[', ']', '\n'] := by
      simp [Node.list, Printer.value]
    rw [hprint]
    exact reads_spaces (k := 1) (fresh_cons rfl (by decide) rfl) (reads_empty (by omega) hrest hreads)
  | @list rows hne hrows hkeys h ih =>
    intro indent column text tokens outer r hcol hnext
    have hprint : (Printer.value indent (.list (rows.map .record))).toList =
        '\n' :: (Printer.items indent (rows.map .record)).toList := by
      obtain ⟨ps, rows, rfl⟩ := List.exists_cons_of_ne_nil hne
      simp [Node.list, Printer.value, Printer.items]
    have htokens : (Node.list (rows.map .record)).tokens = itemTokens (rows.map .record) := by
      obtain ⟨ps, rows, rfl⟩ := List.exists_cons_of_ne_nil hne
      simp [Node.list, Node.tokens, itemTokens]
    rw [htokens] at hnext
    obtain ⟨k, rest, htext, hk, hrest, hreads⟩ :=
      reads_items hrows (fun ps hps p hp => ⟨hkeys ps hps p hp, ih ps hps p hp⟩) hnext
    rw [hprint, List.cons_append, htext]
    exact reads_line hrest hreads _ _
  | @record ps hne hkeys h ih =>
    intro indent column text tokens outer r hcol hnext
    have hprint : (Printer.value indent (.record ps)).toList =
        '\n' :: (List.replicate (indent + 2) ' ' ++
          (Printer.node (indent + 2) (.record ps)).toList) := by
      obtain ⟨⟨k, v⟩, ps, rfl⟩ := List.exists_cons_of_ne_nil hne
      simp [Node.record, Printer.value, Printer.node, Printer.indentation]
    rw [hprint, List.cons_append, List.append_assoc]
    have hrow := reads_row hne (fun p hp => ⟨hkeys p hp, ih p hp⟩) hnext
    exact reads_line (fresh_record hne hkeys _) hrow _ _

theorem run_record (hne : ps ≠ []) (hkeys : ∀ p ∈ ps, IsKey p.1.toList) (h : ∀ p ∈ ps, p.2.Written) :
    let chars := (Node.record ps).print.toList
    run (chars.length + 1) { cursor := { rest := chars } } = .ok (Node.record ps).tokens := by
  intro chars
  have hend : Continues 0 [] ((pairTokens (pairsOf ps)).reverse ++ [.blockMappingStart]) [0, -1]
      (.ok (Node.record ps).tokens) := by
    refine ⟨0, [], rfl, Nat.le_refl _, fresh_nil, ?_⟩
    have htokens : (Node.record ps).tokens =
        (.blockEnd :: ((pairTokens (pairsOf ps)).reverse ++ [.blockMappingStart])).reverse := by
      simp [Node.record, Node.tokens, pairsOf]
    rw [htokens]
    exact reads_end
  have hreads := reads_record hne (fun p hp => ⟨hkeys p hp, reads_value (h p hp)⟩) (by decide) hend
  rw [List.append_nil] at hreads
  exact hreads _ _ ⟨rfl, rfl, rfl, rfl, rfl, rfl⟩ (Nat.lt_succ_self _)

end Lexer

end ConnectionPool.Yaml
