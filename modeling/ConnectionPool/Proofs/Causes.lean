import ConnectionPool.Failure.Draft

namespace ConnectionPool.Failure

namespace Link

def circumstances (l : Link) : String :=
  match l.context with
  | some c => " context: " ++ c
  | none => ""

def spelled (origin kind : Bool) (l : Link) : String :=
  (if origin then l.origin.name else "") ++ (if kind then " " ++ l.kind.name else "") ++ l.circumstances

/-- Whether what is said of link `i` is news: the link is the outermost one, or the same cannot be said
of the link around it. -/
def isNews {α : Type} [DecidableEq α] (say : Link → α) (ls : List Link) (i : Nat) : Bool :=
  i = 0 || ls[i - 1]?.map say ≠ ls[i]?.map say

def texts : (outer : Option Link) → List Link → List String
  | _, [] => []
  | outer, l :: ls => l.text outer :: texts (some l) ls

theorem text_eq_spelled (outer : Option Link) (l : Link) :
    l.text outer = l.spelled (outer.map origin ≠ some l.origin) (outer.map kind ≠ some l.kind) := by
  have hswap (p : Prop) [Decidable p] (s : String) :
      (if p then "" else s) = if decide (¬ p) then s else "" := by
    by_cases hp : p <;> simp [hp]
  rw [text, hswap, hswap]
  rfl

theorem texts_eq (outer : Option Link) (ls : List Link) :
    texts outer ls = ls.mapIdx fun i l => l.text (if i = 0 then outer else ls[i - 1]?) := by
  induction ls generalizing outer with
  | nil => rfl
  | cons l ls ih =>
    rw [texts, List.mapIdx_cons, ih]
    congr 1
    refine List.ext_getElem (by simp) fun i hi _ => ?_
    cases i <;> simp

theorem texts_none (ls : List Link) :
    texts none ls = ls.mapIdx fun i l => l.spelled (isNews origin ls i) (isNews kind ls i) := by
  rw [texts_eq]
  refine List.ext_getElem (by simp) fun i hi _ => ?_
  have hls : i < ls.length := by simpa using hi
  simp only [List.getElem_mapIdx, text_eq_spelled]
  cases i with
  | zero => simp [isNews]
  | succ i => simp [isNews, List.getElem?_eq_getElem hls]

end Link

theorem texts_links_ne_nil (outer : Option Link) (f : Failure) : Link.texts outer f.links ≠ [] := by
  cases f <;> exact List.cons_ne_nil _ _

theorem textWithin_eq (outer : Option Link) (f : Failure) : f.textWithin outer =
    " cause: ".intercalate (Link.texts outer f.links ++ f.unrecognised.toList) := by
  induction f generalizing outer with
  | root l => simp [textWithin, links, unrecognised, Link.texts]
  | foreign l t => simp [textWithin, links, unrecognised, Link.texts]
  | because l c ih =>
    have hne : Link.texts (some l) c.links ++ c.unrecognised.toList ≠ [] :=
      List.append_ne_nil_of_left_ne_nil (texts_links_ne_nil (some l) c) _
    rw [textWithin, ih, links, Link.texts, unrecognised, List.cons_append,
      String.intercalate_cons_of_ne_nil hne]
  | concealed l c ih => simp [textWithin, links, unrecognised, Link.texts, text]

def beyond : Failure → String
  | root l => l.circumstances
  | foreign l t => l.circumstances ++ " cause: " ++ t
  | because l c => l.circumstances ++ " cause: " ++ c.textWithin (some l)
  | concealed l c => l.circumstances ++ " cause: " ++ c.textWithin none

theorem textWithin_eq_beyond (outer : Option Link) (f : Failure) : f.textWithin outer =
    { f.link with context := none }.text outer ++ f.beyond := by
  have hlink (l : Link) : l.text outer =
      { l with context := none }.text outer ++ l.circumstances := by
    cases hc : l.context <;> simp [Link.text, Link.circumstances, hc]
  cases f with
  | root l => exact hlink l
  | foreign l t =>
    rw [textWithin, hlink, beyond]
    simp only [link, String.append_assoc]
  | because l c =>
    rw [textWithin, hlink, beyond]
    simp only [link, String.append_assoc]
  | concealed l c =>
    rw [textWithin, hlink, beyond]
    simp only [link, String.append_assoc]

theorem text_eq_beyond (f : Failure) :
    f.text = f.origin.name ++ " " ++ f.kind.name ++ f.beyond := by
  rw [text, textWithin_eq_beyond]
  simp [Link.text, origin, kind, String.append_assoc]

theorem beyond_moreContext (c : String) (f : Failure) :
    (f.moreContext c).beyond = " context: " ++ c ++ " cause: " ++ f.beyond := by
  rw [moreContext, beyond, textWithin_eq_beyond]
  simp [Link.text, Link.circumstances, origin, kind]

/-- The failure with more and more told about the circumstances, the first of the contexts innermost. -/
def inContexts (cs : List String) (f : Failure) : Failure := cs.foldl (fun f c => f.moreContext c) f

section Contexts

variable (cs : List String) (f : Failure)

theorem kind_inContexts : (f.inContexts cs).kind = f.kind := by
  induction cs generalizing f with
  | nil => rfl
  | cons c cs ih => exact ih (f.moreContext c)

theorem origin_inContexts : (f.inContexts cs).origin = f.origin := by
  induction cs generalizing f with
  | nil => rfl
  | cons c cs ih => exact ih (f.moreContext c)

theorem unrecognised_inContexts : (f.inContexts cs).unrecognised = f.unrecognised := by
  induction cs generalizing f with
  | nil => rfl
  | cons c cs ih => exact ih (f.moreContext c)

theorem links_inContexts : (f.inContexts cs).links =
    (cs.reverse.map fun c => { kind := f.kind, origin := f.origin, context := some c }) ++ f.links := by
  induction cs generalizing f with
  | nil => rfl
  | cons c cs ih =>
    change ((f.moreContext c).inContexts cs).links = _
    rw [ih, List.reverse_cons, List.map_append, List.append_assoc]
    rfl

theorem beyond_inContexts : (f.inContexts cs).beyond =
    String.join (cs.reverse.map fun c => " context: " ++ c ++ " cause: ") ++ f.beyond := by
  induction cs generalizing f with
  | nil => simp [inContexts]
  | cons c cs ih =>
    change ((f.moreContext c).inContexts cs).beyond = _
    rw [ih, beyond_moreContext]
    simp [String.append_assoc]

theorem foldl_moreContext : (cs.map Draft.moreContext).foldl (fun p d => d.apply p)
    (some (.failure f)) = some (.failure (f.inContexts cs)) := by
  induction cs generalizing f with
  | nil => rfl
  | cons c cs ih => exact ih (f.moreContext c)

end Contexts

/-- Contexts are put in front of the chain of a failure, and in front of all that its text tells after
its own origin and kind, the last one first.  The text of any failure is that of its chain: a link tells
its origin or its kind if it is news, and the full text of a cause that is not recognised ends it. -/
theorem text_follows_chain (e : Failure) (cs : List String) :
    let f := e.inContexts cs
    let head := e.origin.name ++ " " ++ e.kind.name
    (cs.map Draft.moreContext).foldl (fun p d => d.apply p) (some (.failure e)) = some (.failure f) ∧
    (f.kind = e.kind ∧ f.origin = e.origin ∧ f.unrecognised = e.unrecognised ∧ f.links =
      (cs.reverse.map fun c => { kind := e.kind, origin := e.origin, context := some c }) ++ e.links) ∧
    (∃ rest, e.text = head ++ rest ∧ f.text = head ++
      String.join (cs.reverse.map fun c => " context: " ++ c ++ " cause: ") ++ rest) ∧
    e.text = " cause: ".intercalate ((e.links.mapIdx fun i l =>
      l.spelled (Link.isNews Link.origin e.links i) (Link.isNews Link.kind e.links i)) ++
        e.unrecognised.toList) ∧
    (∀ l, (concealed l e).links = [l] ∧ (concealed l e).unrecognised = some e.text) ∧
    ∀ l t, (foreign l t).links = [l] ∧ (foreign l t).unrecognised = some t := by
  intro f head
  refine ⟨foldl_moreContext cs e, ⟨kind_inContexts cs e, origin_inContexts cs e,
    unrecognised_inContexts cs e, links_inContexts cs e⟩, ⟨e.beyond, text_eq_beyond e, ?_⟩, ?_,
    fun l => ⟨rfl, rfl⟩, fun l t => ⟨rfl, rfl⟩⟩
  · rw [text_eq_beyond, beyond_inContexts, kind_inContexts, origin_inContexts]
    simp [head, String.append_assoc]
  · rw [text, textWithin_eq, Link.texts_none]

example : ((internally .poolClosed "shut").toUpstream.inContexts ["first", "last"]).text =
    "Upstream PoolClosed context: last cause:  context: first cause:  context: shut" := by decide

end ConnectionPool.Failure
