import ConnectionPool.Proofs.Yaml.Printable
import ConnectionPool.Yaml.Parser

/-! The tokens of a node are parsed as the node, and so what is printed of a record is a document with
that record. -/

namespace ConnectionPool.Yaml

variable {n : Node} {ps : List (String × Node)} {rows : List (List (String × Node))} {ts : List Token}

namespace Parser

open Lexer (pairsOf)

variable {fuel : Nat} {p : Parser}

theorem count_count (a b : Nat) (p : Parser) : (p.count a).count b = p.count (a + b) := by
  simp [count, Nat.add_assoc]

theorem node_scalar (fuel : Nat) (b d : Bool) (s : String) (style : Style) (ts : List Token)
    (p : Parser) :
    node (fuel + 1) b d (.scalar s style :: ts) p = .ok (.scalar s style none, ts, p.count 1) := rfl

theorem node_empty (fuel : Nat) (b d : Bool) (ts : List Token) (p : Parser) :
    node (fuel + 2) b d (.flowSequenceStart :: .flowSequenceEnd :: ts) p =
      .ok (.list [], ts, p.count 2) := rfl

theorem node_mapping (fuel : Nat) (d : Bool) (ts : List Token) (p : Parser) :
    node (fuel + 1) true d (.blockMappingStart :: ts) p =
      (blockPairs fuel none [] ts p).bind fun (n, ts, p) => .ok (n, ts, p.count 2) := rfl

theorem node_dashes (fuel : Nat) (b : Bool) (ts : List Token) (p : Parser) :
    node (fuel + 1) b true (.blockEntry :: ts) p =
      (dashItems fuel none [] (.blockEntry :: ts) p).bind fun (n, ts, p) => .ok (n, ts, p.count 2) := rfl

/-- What is parsed of the tokens of `n`, where no more items follow. -/
def ParsesValue (n : Node) : Prop :=
  ∀ (fuel : Nat) (ts : List Token) (p : Parser), 3 * n.tokens.length ≤ fuel →
    ts.head? ≠ some .blockEntry → ∃ m, node fuel true true (n.tokens ++ ts) p = .ok (n, ts, p.count m)

theorem startsNext_tokens (hn : n.Written) (ts : List Token) :
    startsNext (n.tokens ++ ts) [.key, .value, .blockEnd] = false := by
  cases hn with
  | scalar h => simp [Node.tokens, startsNext]
  | empty => simp [Node.list, Node.tokens, startsNext]
  | @list rows hne hrows hkeys h =>
    obtain ⟨qs, rows, rfl⟩ := List.exists_cons_of_ne_nil hne
    simp [Node.list, Node.tokens, startsNext]
  | record hne hkeys h => simp [Node.record, Node.tokens, startsNext]

theorem blockPairs_key (k : String) (acc : List (Node × Node))
    (hts : startsNext ts [.key, .value, .blockEnd] = false) :
    blockPairs (fuel + 3) none acc (.key :: .scalar k .plain :: .value :: ts) p =
      (node fuel true true ts (p.count 1)).bind fun (v, ts, p) =>
        blockPairs (fuel + 2) none ((.plain k, v) :: acc) ts p := by
  have hkey : startsNext (.scalar k .plain :: .value :: ts) [.key, .value, .blockEnd] = false := by
    simp [startsNext]
  simp [blockPairs, nodeBefore, hkey, node_scalar, bind, Except.bind, blockValue, hts, Node.plain]

theorem blockPairs_eq (h : ∀ q ∈ ps, q.2.Written ∧ ParsesValue q.2) (fuel : Nat)
    (hfuel : 3 * (pairTokens (pairsOf ps)).length < fuel) (acc : List (Node × Node)) (ts : List Token)
    (p : Parser) :
    ∃ m, blockPairs fuel none acc (pairTokens (pairsOf ps) ++ .blockEnd :: ts) p =
      .ok (.mapping none (acc.reverse ++ pairsOf ps), ts, p.count m) := by
  induction ps generalizing acc fuel p with
  | nil =>
    obtain ⟨fuel, rfl⟩ := Nat.exists_eq_add_of_le' hfuel
    exact ⟨0, by simp [pairsOf, pairTokens, blockPairs]; rfl⟩
  | cons q ps ih =>
    obtain ⟨k, v⟩ := q
    obtain ⟨hv, hps⟩ := List.forall_mem_cons.1 h
    obtain ⟨hwritten, hvalue⟩ : v.Written ∧ ParsesValue v := hv
    have htokens : pairTokens (pairsOf ((k, v) :: ps)) =
        .key :: .scalar k .plain :: .value :: (v.tokens ++ pairTokens (pairsOf ps)) := by
      simp [pairsOf, pairTokens, Node.tokens, Node.plain]
    rw [htokens] at hfuel
    simp only [List.length_cons, List.length_append] at hfuel
    obtain ⟨fuel, rfl⟩ := Nat.exists_eq_add_of_le' (m := 3) (n := fuel) (by omega)
    have hhead : (pairTokens (pairsOf ps) ++ .blockEnd :: ts).head? ≠ some .blockEntry := by
      cases ps <;> simp [pairsOf, pairTokens]
    obtain ⟨a, ha⟩ := hvalue fuel (pairTokens (pairsOf ps) ++ .blockEnd :: ts) (p.count 1) (by omega)
      hhead
    obtain ⟨b, hb⟩ := ih hps (fuel + 2) (by omega) ((.plain k, v) :: acc) (p.count (1 + a))
    refine ⟨1 + a + b, ?_⟩
    simp only [htokens, List.cons_append, List.append_assoc]
    rw [blockPairs_key k acc (startsNext_tokens hwritten _), ha]
    simp only [Except.bind, count_count, hb]
    simp [pairsOf]

theorem node_record (h : ∀ q ∈ ps, q.2.Written ∧ ParsesValue q.2) (fuel : Nat)
    (hfuel : 3 * (Node.record ps).tokens.length ≤ fuel) (d : Bool) (ts : List Token) (p : Parser) :
    ∃ m, node fuel true d ((Node.record ps).tokens ++ ts) p = .ok (.record ps, ts, p.count m) := by
  have htokens : (Node.record ps).tokens ++ ts =
      .blockMappingStart :: (pairTokens (pairsOf ps) ++ .blockEnd :: ts) := by
    simp [Node.record, Node.tokens, pairsOf]
  have hlen : (Node.record ps).tokens.length = (pairTokens (pairsOf ps)).length + 2 := by
    simp [Node.record, Node.tokens, pairsOf]
  obtain ⟨fuel, rfl⟩ := Nat.exists_eq_add_of_le' (m := 1) (n := fuel) (by omega)
  obtain ⟨m, hm⟩ := blockPairs_eq h fuel (by omega) [] ts p
  refine ⟨m + 2, ?_⟩
  rw [htokens, node_mapping, hm]
  simp [Except.bind, count_count, Node.record, pairsOf]

theorem dashItems_item (acc : List Node)
    (hts : startsNext ts [.blockEntry, .key, .value, .blockEnd] = false) :
    dashItems (fuel + 2) none acc (.blockEntry :: ts) p =
      (node fuel true false ts p).bind fun (n, ts, p) => dashItems (fuel + 1) none (n :: acc) ts p := by
  simp [dashItems, nodeBefore, hts, bind, Except.bind]

theorem dashItems_eq (h : ∀ qs ∈ rows, ∀ q ∈ qs, q.2.Written ∧ ParsesValue q.2) (fuel : Nat)
    (hpos : 0 < fuel) (hfuel : 3 * (itemTokens (rows.map .record)).length ≤ fuel + 1) (acc : List Node)
    (hts : ts.head? ≠ some .blockEntry) (p : Parser) :
    ∃ m, dashItems fuel none acc (itemTokens (rows.map .record) ++ ts) p =
      .ok (.sequence none (acc.reverse ++ rows.map .record), ts, p.count m) := by
  induction rows generalizing acc fuel p with
  | nil =>
    obtain ⟨fuel, rfl⟩ := Nat.exists_eq_add_of_le' hpos
    refine ⟨0, ?_⟩
    rw [List.map_nil, itemTokens, List.nil_append, List.append_nil, dashItems]
    dsimp only
    split
    · next us => exact absurd rfl hts
    · rfl
  | cons qs rows ih =>
    obtain ⟨hqs, hrows⟩ := List.forall_mem_cons.1 h
    rw [List.map_cons, itemTokens] at hfuel ⊢
    simp only [List.length_cons, List.length_append] at hfuel
    obtain ⟨fuel, rfl⟩ := Nat.exists_eq_add_of_le' (m := 2) (n := fuel) (by omega)
    obtain ⟨a, ha⟩ := node_record hqs fuel (by omega) false (itemTokens (rows.map .record) ++ ts) p
    obtain ⟨b, hb⟩ := ih hrows (fuel + 1) (by omega) (by omega) (.record qs :: acc) (p.count a)
    have hstart : startsNext ((Node.record qs).tokens ++ (itemTokens (rows.map .record) ++ ts))
        [.blockEntry, .key, .value, .blockEnd] = false := by
      simp [Node.record, Node.tokens, startsNext]
    refine ⟨a + b, ?_⟩
    simp only [List.cons_append, List.append_assoc]
    rw [dashItems_item acc hstart, ha]
    simp only [Except.bind, hb, count_count]
    simp

theorem parses_value (hn : n.Written) : ParsesValue n := by
  induction hn with
  | @scalar s style h =>
    intro fuel ts p hfuel hts
    rw [Node.tokens] at hfuel ⊢
    obtain ⟨fuel, rfl⟩ := Nat.exists_eq_add_of_le' (m := 1) (n := fuel) (by simp at hfuel; omega)
    exact ⟨1, node_scalar fuel true true s style ts p⟩
  | empty =>
    intro fuel ts p hfuel hts
    obtain ⟨fuel, rfl⟩ := Nat.exists_eq_add_of_le' (m := 2) (n := fuel) (by
      simp [Node.list, Node.tokens] at hfuel
      omega)
    exact ⟨2, by rw [Node.list, Node.tokens]; exact node_empty fuel true true ts p⟩
  | @list rows hne hrows hkeys h ih =>
    intro fuel ts p hfuel hts
    obtain ⟨qs, rows, rfl⟩ := List.exists_cons_of_ne_nil hne
    have htokens : (Node.list ((qs :: rows).map .record)).tokens =
        itemTokens ((qs :: rows).map .record) := by
      simp [Node.list, Node.tokens, itemTokens]
    obtain ⟨us, hus⟩ : ∃ us, itemTokens ((qs :: rows).map .record) ++ ts = .blockEntry :: us :=
      ⟨_, rfl⟩
    have hlen : 2 ≤ (itemTokens ((qs :: rows).map .record)).length := by
      simp [itemTokens, Node.record, Node.tokens]
    rw [htokens] at hfuel ⊢
    obtain ⟨fuel, rfl⟩ := Nat.exists_eq_add_of_le' (m := 1) (n := fuel) (by omega)
    obtain ⟨m, hm⟩ := dashItems_eq (fun qs hqs q hq => ⟨h qs hqs q hq, ih qs hqs q hq⟩) fuel (by omega)
      hfuel [] hts p
    refine ⟨m + 2, ?_⟩
    rw [hus] at hm ⊢
    rw [node_dashes, hm]
    simp [Except.bind, count_count, Node.list]
  | @record ps hne hkeys h ih =>
    intro fuel ts p hfuel hts
    exact node_record (fun q hq => ⟨h q hq, ih q hq⟩) fuel hfuel true ts p

end Parser

theorem Document.ofText_print (hne : ps ≠ []) (hkeys : ∀ p ∈ ps, Lexer.IsKey p.1.toList)
    (h : ∀ p ∈ ps, p.2.Written) :
    ∃ size, Document.ofText (Node.record ps).print = .ok { root := some (.record ps), size } := by
  obtain ⟨us, hus⟩ : ∃ us, (Node.record ps).tokens = .blockMappingStart :: us := ⟨_, by
    rw [Node.record, Node.tokens]
    rfl⟩
  obtain ⟨m, hm⟩ := Parser.node_record (fun q hq => ⟨h q hq, Parser.parses_value (h q hq)⟩)
    (4 * (Node.record ps).tokens.length + 4) (by omega) false []
    { handles := Parser.withDefaults [] }
  rw [List.append_nil, hus] at hm
  have hdirectives : Parser.directives none [] (.blockMappingStart :: us) =
      .ok (none, [], .blockMappingStart :: us) := rfl
  refine ⟨m, ?_⟩
  rw [Document.ofText, Token.ofText_print hne hkeys h, hus]
  simp only [bind, Except.bind, Parser.document, hdirectives]
  rw [if_neg (by simp), if_neg (by simp), hm]
  simp [Parser.atEnd, Parser.finish, Parser.count]

end ConnectionPool.Yaml
