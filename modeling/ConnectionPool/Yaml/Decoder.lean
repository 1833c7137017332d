import ConnectionPool.Yaml.Format
import ConnectionPool.Yaml.Scalar

namespace ConnectionPool.Yaml

/-- What a decoder may follow: the anchored nodes, and how many aliases it may still follow. -/
structure Anchors where
  nodes : List (Nat × Node) := []
  jumps : Nat := 0

abbrev Decoder (α : Type) := Node → StateT Anchors (Except Fault) α

namespace Decoder

variable {α : Type}

def fail (f : Fault) : StateT Anchors (Except Fault) α := fun _ => .error f

def target (n : Node) : StateT Anchors (Except Fault) Node := fun a =>
  match n with
  | .alias number =>
    match a.jumps, a.nodes.find? (·.1 = number) with
    | 0, _ => .error .manyAliases
    | jumps + 1, some (_, n) => .ok (n, { a with jumps })
    | _, none => .error (.unexpected "alias")
  | n => .ok (n, a)

def intTag : Tag := .ofText "tag:yaml.org,2002:int"

def boolTag : Tag := .ofText "tag:yaml.org,2002:bool"

def nullTag : Tag := .ofText "tag:yaml.org,2002:null"

/-- Whether a scalar may be read as a value with tag `expected`: a plain one whatever its tag,
and a literal one with that tag. -/
def mayBe (expected : Tag) (style : Style) (tag : Option Tag) : Bool :=
  style = .plain || (style = .literal && tag = some expected)

def natural (bound : Nat) : Decoder Nat := fun n => do
  match ← target n with
  | .scalar text style tag =>
    if mayBe intTag style tag then
      match Scalar.natural? (Nat.pow 2 64) text with
      | some v => if v < bound then pure v else fail (.outOfRange v)
      | none => fail (.expected "number")
    else fail (.expected "number")
  | _ => fail (.expected "number")

def bool : Decoder Bool := fun n => do
  match ← target n with
  | .scalar text style tag =>
    match mayBe boolTag style tag, Scalar.bool? text with
    | true, some b => pure b
    | _, _ => fail (.expected "boolean")
  | _ => fail (.expected "boolean")

def text : Decoder String := fun n => do
  match ← target n with
  | .scalar text _ _ => pure text
  | _ => fail (.expected "string")

def optional (d : Decoder α) : Decoder (Option α) := fun n => do
  let n ← target n
  match n with
  | .scalar text .plain (some tag) =>
    if tag = nullTag then
      if Scalar.isNull text then pure none else fail (.expected "null")
    else some <$> d n
  | .scalar text .plain none =>
    if text = "" || Scalar.isNull text then pure none else some <$> d n
  | _ => some <$> d n

def oneOf (case? : String → Option α) : Decoder α := fun n => do
  match ← target n with
  | .scalar text style tag =>
    match tag.bind Tag.name? with
    | some name =>
      match case? name with
      | some a =>
        if style = .plain && (text = "" || Scalar.isNull text) then pure a
        else fail (.expected "null")
      | none => fail (.unexpected ("case " ++ name))
    | none =>
      match case? text with
      | some a => pure a
      | none => fail (.unexpected ("case " ++ text))
  | _ => fail (.expected "string")

def list (d : Decoder α) : Decoder (List α) := fun n => do
  match ← target n with
  | .sequence _ items => items.mapM d
  | .scalar "" .plain _ => pure []
  | _ => fail (.expected "sequence")

/-- The fields of a mapping, of which those in `known` occur once each and all others are left
out; an unwritten value has none.  Every key is a scalar. -/
def fields (known : List String) : Decoder (List (String × Node)) := fun n => do
  match ← target n with
  | .mapping _ pairs => pairs.foldlM field []
  | .scalar "" .plain _ => pure []
  | _ => fail (.expected "mapping")
where
  field (seen : List (String × Node)) (pair : Node × Node) :
      StateT Anchors (Except Fault) (List (String × Node)) := do
    let name ← text pair.1
    if !known.contains name then pure seen
    else if seen.any (·.1 = name) then fail (.duplicateField name)
    else pure (seen ++ [(name, pair.2)])

def field? (fs : List (String × Node)) (name : String) (d : Decoder α) :
    StateT Anchors (Except Fault) (Option α) :=
  match fs.lookup name with
  | some n => some <$> d n
  | none => pure none

def field (fs : List (String × Node)) (name : String) (d : Decoder α) :
    StateT Anchors (Except Fault) α :=
  match fs.lookup name with
  | some n => d n
  | none => fail (.missingField name)

def run (d : Decoder α) (doc : Document) : Except Fault α := do
  let root := doc.root.getD .empty
  let (a, _) ← d root { nodes := doc.anchored, jumps := 100 * max doc.size 1 }
  .ok a

def ofText (f : Format) (d : Decoder α) (s : String) : Except Fault α := do
  d.run (← f.parse s)

end Decoder

end ConnectionPool.Yaml
