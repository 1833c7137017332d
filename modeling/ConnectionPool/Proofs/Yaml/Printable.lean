import ConnectionPool.Proofs.Yaml.Tokens

namespace ConnectionPool.Yaml

variable {s t : String} {cs : List Char} {x y : Char} {ps : List (String × Node)}
  {rows : List (List (String × Node))} {n : Node}

theorem isAllowed_of_printable (hx : isPrintable x) : isAllowed x := by
  simp only [isPrintable, isAllowed, Bool.or_eq_true, Bool.and_eq_true, decide_eq_true_eq] at hx ⊢
  rcases hx with (((rfl | hx) | hx) | hx) | hx
  · decide
  · simp [hx]
  · simp [hx]
  · simp [hx]
  · simp [hx]

namespace Printer

def Prints (s : String) : Prop := ∀ x ∈ s.toList, isPrintable x

instance (s : String) : Decidable (Prints s) :=
  decidable_of_iff (s.toList.all isPrintable) List.all_eq_true

theorem Prints.append (hs : Prints s) (ht : Prints t) : Prints (s ++ t) := by
  intro x hx
  rw [String.toList_append, List.mem_append] at hx
  exact hx.elim (hs x) (ht x)

theorem prints_indentation (n : Nat) : Prints (indentation n) := by
  intro x hx
  rw [indentation, String.toList_ofList] at hx
  rw [List.eq_of_mem_replicate hx]
  decide

theorem prints_toString (hx : isPrintable x) : Prints x.toString := by
  intro y hy
  obtain rfl : y = x := by simpa [Char.toString] using hy
  exact hx

theorem mem_toDigits {base n : Nat} (hbase : 1 < base) (hx : x ∈ Nat.toDigits base n) :
    ∃ d < base, x = d.digitChar := by
  induction n using Nat.strongRecOn with
  | ind n ih =>
    rw [Nat.toDigits_eq_if hbase] at hx
    split at hx
    · next hn => exact ⟨n, hn, by simpa using hx⟩
    · next hn =>
      rcases List.mem_append.1 hx with hx | hx
      · exact ih _ (Nat.div_lt_self (by omega) hbase) hx
      · exact ⟨n % base, Nat.mod_lt n (by omega), by simpa using hx⟩

theorem prints_hex (width n : Nat) : Prints (hex width n) := by
  have hdigit : ∀ d < 16, isPrintable d.digitChar.toUpper := by decide
  intro x hx
  rw [hex, String.toList_ofList, List.mem_append, List.mem_map] at hx
  rcases hx with hx | ⟨y, hy, rfl⟩
  · rw [List.eq_of_mem_replicate hx]
    decide
  · obtain ⟨d, hd, rfl⟩ := mem_toDigits (by decide) hy
    exact hdigit d hd

theorem prints_escaped (x : Char) : Prints (escaped x) := by
  unfold escaped
  dsimp only
  split
  case h_15 =>
    split
    · next hx => exact prints_toString hx
    · split
      · exact Prints.append (by decide) (prints_hex _ _)
      · split
        · exact Prints.append (by decide) (prints_hex _ _)
        · exact Prints.append (by decide) (prints_hex _ _)
  all_goals decide

theorem prints_doubleQuoted (s : String) : Prints (doubleQuoted s) := by
  intro x hx
  rw [toList_doubleQuoted, List.mem_cons, List.mem_append, List.mem_flatMap, List.mem_singleton] at hx
  rcases hx with rfl | ⟨y, -, hx⟩ | rfl
  · decide
  · exact prints_escaped y x hx
  · decide

theorem prints_insideSingle (hcs : ∀ x ∈ cs, isPrintable x) (indent : Nat) (a : Bool) :
    Prints (insideSingle indent a cs) := by
  induction cs generalizing a with
  | nil =>
    rw [insideSingle]
    split
    · exact prints_indentation indent
    · decide
  | cons x cs ih =>
    obtain ⟨hx, hcs⟩ := List.forall_mem_cons.1 hcs
    rw [insideSingle]
    split
    · refine Prints.append (Prints.append ?_ (prints_toString hx)) (ih hcs true)
      split <;> decide
    · refine Prints.append (Prints.append ?_ ?_) (ih hcs false)
      · split
        · exact prints_indentation indent
        · decide
      · split
        · decide
        · exact prints_toString hx

theorem prints_literalLines (hcs : ∀ x ∈ cs, isPrintable x) (indent : Nat) (a : Bool) :
    Prints (literalLines indent a cs) := by
  induction cs generalizing a with
  | nil => exact nofun
  | cons x cs ih =>
    obtain ⟨hx, hcs⟩ := List.forall_mem_cons.1 hcs
    rw [literalLines]
    split
    · exact Prints.append (prints_toString hx) (ih hcs true)
    · refine Prints.append (Prints.append ?_ (prints_toString hx)) (ih hcs false)
      split
      · exact prints_indentation indent
      · decide

theorem prints_literalMarks (cs : List Char) : Prints (literalMarks cs) := by
  refine Prints.append ?_ ?_
  · split <;> decide
  · split
    · decide
    · split <;> decide
    · split
      · decide
      · split <;> decide

theorem prints_scalar {style : Style} (h : style.Holds s.toList) (indent : Nat) :
    Prints (scalar indent s style) := by
  cases style with
  | plain => exact h.2.1
  | singleQuoted =>
    have hinside := prints_insideSingle h.printable indent false
    exact Prints.append (Prints.append (by decide) hinside) (by decide)
  | doubleQuoted => exact prints_doubleQuoted s
  | literal =>
    have hmarks := Prints.append (by decide : Prints "|") (prints_literalMarks s.toList)
    exact Prints.append (Prints.append hmarks (by decide)) (prints_literalLines h.2 indent true)
  | folded => exact h.elim

theorem prints_line (h : Prints s) : Prints (line s) := by
  unfold line
  split
  · exact h
  · exact Prints.append h (by decide)

theorem prints_key {k : String} (h : Lexer.IsKey k.toList) : Prints (key (.plain k)) :=
  Prints.append (fun x hx => isPrintable_of_isLetter (h.isWord.letters x hx)) (by decide)

open Lexer

def PrintsField (p : String × Node) : Prop := IsKey p.1.toList ∧ ∀ indent, Prints (value indent p.2)

theorem prints_pairs (h : ∀ p ∈ ps, PrintsField p) (indent : Nat) :
    Prints (pairs indent (pairsOf ps)) := by
  induction ps with
  | nil => exact nofun
  | cons p ps ih =>
    obtain ⟨⟨hkey, hvalue⟩, hps⟩ := List.forall_mem_cons.1 h
    exact Prints.append (Prints.append (Prints.append (prints_indentation indent) (prints_key hkey))
      (hvalue indent)) (ih hps)

theorem prints_record (h : ∀ p ∈ ps, PrintsField p) (indent : Nat) :
    Prints (node indent (.record ps)) := by
  cases ps with
  | nil => exact (by decide : Prints "\x7b\x7d\n")
  | cons p ps =>
    obtain ⟨⟨hkey, hvalue⟩, hps⟩ := List.forall_mem_cons.1 h
    exact Prints.append (Prints.append (prints_key hkey) (hvalue indent)) (prints_pairs hps indent)

theorem prints_items (h : ∀ ps ∈ rows, ∀ p ∈ ps, PrintsField p) (indent : Nat) :
    Prints (items indent (rows.map .record)) := by
  induction rows with
  | nil => exact nofun
  | cons ps rows ih =>
    obtain ⟨hps, hrows⟩ := List.forall_mem_cons.1 h
    exact Prints.append (Prints.append (Prints.append (prints_indentation indent) (by decide))
      (prints_record hps (indent + 2))) (ih hrows)

theorem prints_value (hn : n.Written) (indent : Nat) : Prints (value indent n) := by
  induction hn generalizing indent with
  | scalar h => exact Prints.append (by decide) (prints_line (prints_scalar h _))
  | empty => exact (by decide : Prints " []\n")
  | @list rows hne hrows hkeys h ih =>
    obtain ⟨ps, rows, rfl⟩ := List.exists_cons_of_ne_nil hne
    have hfields : ∀ qs ∈ ps :: rows, ∀ p ∈ qs, PrintsField p := fun qs hqs p hp =>
      ⟨hkeys qs hqs p hp, ih qs hqs p hp⟩
    obtain ⟨hps, hmore⟩ := List.forall_mem_cons.1 hfields
    have hstart : Prints ("\n" ++ indentation indent ++ "- ") :=
      Prints.append (Prints.append (by decide) (prints_indentation indent)) (by decide)
    have hfirst := Prints.append hstart (prints_record hps (indent + 2))
    exact Prints.append hfirst (prints_items hmore indent)
  | @record ps hne hkeys h ih =>
    obtain ⟨p, ps, rfl⟩ := List.exists_cons_of_ne_nil hne
    have hfields : ∀ q ∈ p :: ps, PrintsField q := fun q hq => ⟨hkeys q hq, ih q hq⟩
    obtain ⟨⟨hkey, hvalue⟩, hps⟩ := List.forall_mem_cons.1 hfields
    have hstart : Prints ("\n" ++ indentation (indent + 2)) :=
      Prints.append (by decide) (prints_indentation (indent + 2))
    exact Prints.append (Prints.append (Prints.append hstart (prints_key hkey)) (hvalue (indent + 2)))
      (prints_pairs hps (indent + 2))

end Printer

theorem Token.ofText_print (hne : ps ≠ []) (hkeys : ∀ p ∈ ps, Lexer.IsKey p.1.toList)
    (h : ∀ p ∈ ps, p.2.Written) : Token.ofText (Node.record ps).print = .ok (Node.record ps).tokens := by
  have hprints : Printer.Prints (Node.record ps).print :=
    Printer.prints_record (fun p hp => ⟨hkeys p hp, Printer.prints_value (h p hp)⟩) 0
  have hnone : (Node.record ps).print.toList.find? (!isAllowed ·) = none := by
    rw [List.find?_eq_none]
    intro x hx
    simp [isAllowed_of_printable (hprints x hx)]
  rw [Token.ofText, hnone]
  exact Lexer.run_record hne hkeys h

end ConnectionPool.Yaml
