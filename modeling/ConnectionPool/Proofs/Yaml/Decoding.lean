import ConnectionPool.Proofs.Yaml.Parsing
import ConnectionPool.Yaml.Decoder

namespace ConnectionPool.Yaml

variable {α β : Type} {fs : List (String × Node)}

namespace Decoder

/-- The decoder reads `x` of the node `n`. -/
def Gives (d : Decoder α) (n : Node) (x : α) : Prop := ∀ a, d n a = .ok (x, a)

theorem bind_eq {m : StateT Anchors (Except Fault) α} {f : α → StateT Anchors (Except Fault) β}
    {x : α} {a b : Anchors} (h : m a = .ok (x, b)) : (m >>= f) a = f x b := by
  simp [bind, StateT.bind, Except.bind, h]

theorem pure_eq (x : α) (a : Anchors) :
    (pure x : StateT Anchors (Except Fault) α) a = .ok (x, a) := rfl

theorem map_eq {m : StateT Anchors (Except Fault) α} {f : α → β} {x : α} {a b : Anchors}
    (h : m a = .ok (x, b)) : (f <$> m) a = .ok (f x, b) := by
  simp [Functor.map, StateT.map, bind, Except.bind, pure, Except.pure, h]

theorem gives_natural {bound n : Nat} (hbound : bound ≤ Nat.pow 2 64) (hn : n < bound) :
    Gives (natural bound) (.ofNat n) n := by
  intro a
  have hread : Scalar.natural? (Nat.pow 2 64) (toString n) = some n :=
    Scalar.natural?_toString (Nat.lt_of_lt_of_le hn hbound)
  rw [natural, bind_eq (x := .ofNat n) (b := a) rfl]
  simp only [Node.ofNat, Node.plain, mayBe, hread]
  simp [hn, pure_eq]

theorem gives_text (s : String) : Gives text (.ofText s) s := fun _ => rfl

theorem gives_bool (b : Bool) : Gives bool (.ofBool b) b := by
  intro a
  cases b <;> rfl

theorem isNull_toString (n : Nat) : (toString n = "" || Scalar.isNull (toString n)) = false := by
  have hdigit : ∀ x ∈ (toString n).toList, x.isDigit := by
    rw [Nat.toString_eq_ofList_toDigits, String.toList_ofList]
    exact fun x hx => Nat.isDigit_of_mem_toDigits (by decide) (by decide) hx
  have hne {w : String} (hw : w.toList.all Char.isDigit = false) : toString n ≠ w := by
    rintro rfl
    rw [List.all_eq_true.2 hdigit] at hw
    cases hw
  have hempty : toString n ≠ "" := fun h => (isWord_toString n).ne_nil (by rw [h]; rfl)
  have hnull := hne (w := "null") (by decide)
  have hNull := hne (w := "Null") (by decide)
  have hNULL := hne (w := "NULL") (by decide)
  have htilde := hne (w := "~") (by decide)
  generalize toString n = s at hempty hnull hNull hNULL htilde
  simp [Scalar.isNull, hempty, hnull, hNull, hNULL, htilde]

theorem gives_optional {d : Decoder Nat} {o : Option Nat} (h : ∀ n ∈ o, Gives d (.ofNat n) n) :
    Gives (optional d) (.ofOption .ofNat o) o := by
  intro a
  cases o with
  | none => rfl
  | some n =>
    have hnull := isNull_toString n
    have hmap := map_eq (f := some) (h n rfl a)
    rw [optional, bind_eq (x := .ofNat n) (b := a) rfl]
    simp only [Node.ofNat, Node.plain] at hmap ⊢
    rw [hnull]
    exact hmap

theorem gives_oneOf {case? : String → Option α} {x : α} (h : case? s = some x) :
    Gives (oneOf case?) (.ofText s) x := by
  intro a
  rw [oneOf, bind_eq (x := .ofText s) (b := a) rfl]
  simp [Node.ofText, h, pure_eq]

theorem gives_list {d : Decoder α} {f : α → Node} {xs : List α} (h : ∀ x ∈ xs, Gives d (f x) x) :
    Gives (list d) (.list (xs.map f)) xs := by
  intro a
  rw [list, bind_eq (x := .list (xs.map f)) (b := a) rfl]
  simp only [Node.list]
  induction xs with
  | nil => rfl
  | cons x xs ih =>
    obtain ⟨hx, hxs⟩ := List.forall_mem_cons.1 h
    rw [List.map_cons, List.mapM_cons, bind_eq (hx a), bind_eq (ih hxs)]
    rfl

theorem foldlM_field {known : List String} (seen : List (String × Node))
    (hknown : ∀ f ∈ fs, f.1 ∈ known) (hseen : ((seen ++ fs).map Prod.fst).Nodup) (a : Anchors) :
    (Lexer.pairsOf fs).foldlM (fields.field known) seen a = .ok (seen ++ fs, a) := by
  induction fs generalizing seen with
  | nil =>
    rw [List.append_nil]
    rfl
  | cons f fs ih =>
    obtain ⟨hf, hfs⟩ := List.forall_mem_cons.1 hknown
    have hnot : (seen.any fun g => g.1 = f.1) = false := by
      rw [List.map_append, List.map_cons, List.nodup_append] at hseen
      rw [List.any_eq_false]
      intro g hg
      have hne := hseen.2.2 g.1 (List.mem_map_of_mem hg) f.1 List.mem_cons_self
      simpa using hne
    have hfield : fields.field known seen (.plain f.1, f.2) a = .ok (seen ++ [f], a) := by
      rw [fields.field, bind_eq (x := f.1) (b := a) rfl]
      simp only [List.contains_eq_mem, hf, hnot, decide_true, Bool.not_true, Bool.false_eq_true,
        if_false]
      rfl
    have hnext := ih (seen ++ [f]) hfs (by simpa using hseen)
    rw [List.append_assoc, List.singleton_append] at hnext
    rw [Lexer.pairsOf, List.map_cons, List.foldlM_cons, bind_eq hfield]
    exact hnext

theorem gives_fields {known : List String} (hknown : ∀ f ∈ fs, f.1 ∈ known)
    (hfs : (fs.map Prod.fst).Nodup) : Gives (fields known) (.record fs) fs := by
  intro a
  rw [fields, bind_eq (x := .record fs) (b := a) rfl]
  exact foldlM_field [] hknown (by simpa using hfs) a

theorem field_eq {d : Decoder α} {x : α} {name : String} {n : Node} (hfs : fs.lookup name = some n)
    (h : Gives d n x) (a : Anchors) : field fs name d a = .ok (x, a) := by
  rw [field, hfs]
  exact h a

theorem field?_eq {d : Decoder α} {x : α} {name : String} {n : Node} (hfs : fs.lookup name = some n)
    (h : Gives d n x) (a : Anchors) : field? fs name d a = .ok (some x, a) := by
  rw [field?, hfs]
  exact map_eq (h a)

theorem ofText_print {f : Format} {d : Decoder α} {n : Node} {x : α} (hf : f.Restores n)
    (hd : Gives d n x) : d.ofText f (f.print n) = .ok x := by
  obtain ⟨doc, hdoc, hroot⟩ := hf
  rw [Decoder.ofText, hdoc]
  simp only [bind, Except.bind, run, hroot, Option.getD_some, hd _]

end Decoder

theorem Format.standard_restores (hne : fs ≠ []) (hkeys : ∀ p ∈ fs, Lexer.IsKey p.1.toList)
    (h : ∀ p ∈ fs, p.2.Written) : Format.standard.Restores (.record fs) := by
  obtain ⟨size, hdoc⟩ := Document.ofText_print hne hkeys h
  exact ⟨_, hdoc, rfl⟩

end ConnectionPool.Yaml
