import ConnectionPool.Yaml.Lexer
import ConnectionPool.Yaml.Node
import ConnectionPool.Table

/-! From tokens to a document. -/

namespace ConnectionPool.Yaml

structure Parser where
  handles : Table String Tag
  /-- The number that each anchor's name has now. -/
  numbers : Table String Nat := []
  /-- The mark of the node that each number was given to last. -/
  marks : Table Nat Nat := []
  /-- Anchored nodes by their marks. -/
  nodes : List (Nat × Node) := []
  nextMark : Nat := 0
  size : Nat := 0

namespace Parser

abbrev Reads (α : Type) := List Token → Parser → Except Fault (α × List Token × Parser)

def count (n : Nat) (p : Parser) : Parser := { p with size := p.size + n }

/-- Numbers an anchor by the count of names before it. -/
def declare (anchor : Option String) (p : Parser) : Option Nat × Parser :=
  match anchor with
  | none => (none, p)
  | some name =>
    let number := p.numbers.length
    (some p.nextMark,
      { p with
        numbers := p.numbers.put name number
        marks := p.marks.put number p.nextMark
        nextMark := p.nextMark + 1 })

def record (mark : Option Nat) (n : Node) (p : Parser) : Parser :=
  match mark with
  | none => p
  | some m => { p with nodes := (m, n) :: p.nodes }

def properties : List Token → Option String × Option (String × Tag) × List Token
  | .anchor a :: .tag h s :: ts => (some a, some (h, s), ts)
  | .tag h s :: .anchor a :: ts => (some a, some (h, s), ts)
  | .anchor a :: ts => (some a, none, ts)
  | .tag h s :: ts => (none, some (h, s), ts)
  | ts => (none, none, ts)

def resolveTag (p : Parser) : Option (String × Tag) → Except Fault (Option Tag)
  | none => .ok none
  | some (h, s) =>
    if h = "" then .ok (some s)
    else
      match p.handles.get? h with
      | some expansion => .ok (some (expansion ++ s))
      | none => .error (.unexpected "tag handle")

def startsNext : List Token → List Token → Bool
  | t :: _, stops => stops.contains t
  | [], _ => true

mutual

/-- Reads a node.  In a block, collections may be block collections; where `dashes` holds, items
of a sequence may stand at the indentation of the mapping around it. -/
def node : Nat → (isBlock dashes : Bool) → Reads Node
  | 0, _, _ => fun _ _ => .error (.unexpected "end of stream")
  | fuel + 1, isBlock, dashes => fun ts p =>
    match ts with
    | .alias name :: ts =>
      match p.numbers.get? name with
      | some number => .ok (.alias number, ts, p.count 1)
      | none => .error (.unknownAnchor name)
    | _ => do
      let (anchor, tag, ts) := properties ts
      let tag ← p.resolveTag tag
      let (mark, p) := p.declare anchor
      let collection (read : Reads Node) (ts : List Token) := do
        let (n, ts, p) ← read ts p
        .ok (n, ts, (p.count 2).record mark n)
      match ts with
      | .blockEntry :: _ =>
        if dashes then collection (dashItems fuel tag []) ts else .error (.expected "node content")
      | .scalar text style :: ts =>
        let n := Node.scalar text style tag
        .ok (n, ts, (p.count 1).record mark n)
      | .flowSequenceStart :: ts => collection (flowItems fuel tag [] true) ts
      | .flowMappingStart :: ts => collection (flowPairs fuel tag [] true) ts
      | .blockSequenceStart :: ts =>
        if isBlock then collection (blockItems fuel tag []) ts
        else .error (.expected "node content")
      | .blockMappingStart :: ts =>
        if isBlock then collection (blockPairs fuel tag []) ts
        else .error (.expected "node content")
      | _ =>
        if anchor.isSome || tag.isSome then
          let n := Node.scalar "" .plain tag
          .ok (n, ts, (p.count 1).record mark n)
        else .error (.expected "node content")

def nodeBefore : Nat → (isBlock dashes : Bool) → List Token → Reads Node
  | 0, _, _, _ => fun _ _ => .error (.unexpected "end of stream")
  | fuel + 1, isBlock, dashes, stops => fun ts p =>
    if startsNext ts stops then .ok (.empty, ts, p.count 1) else node fuel isBlock dashes ts p

def blockItems : Nat → Option Tag → List Node → Reads Node
  | 0, _, _ => fun _ _ => .error (.unexpected "end of stream")
  | fuel + 1, tag, items => fun ts p =>
    match ts with
    | .blockEntry :: ts => do
      let (n, ts, p) ← nodeBefore fuel true false [.blockEntry, .blockEnd] ts p
      blockItems fuel tag (n :: items) ts p
    | .blockEnd :: ts => .ok (.sequence tag items.reverse, ts, p)
    | _ => .error (.expected "'-' indicator")

def dashItems : Nat → Option Tag → List Node → Reads Node
  | 0, _, _ => fun _ _ => .error (.unexpected "end of stream")
  | fuel + 1, tag, items => fun ts p =>
    match ts with
    | .blockEntry :: ts => do
      let (n, ts, p) ← nodeBefore fuel true false [.blockEntry, .key, .value, .blockEnd] ts p
      dashItems fuel tag (n :: items) ts p
    | _ => .ok (.sequence tag items.reverse, ts, p)

def blockPairs : Nat → Option Tag → List (Node × Node) → Reads Node
  | 0, _, _ => fun _ _ => .error (.unexpected "end of stream")
  | fuel + 1, tag, pairs => fun ts p =>
    match ts with
    | .key :: ts => do
      let (k, ts, p) ← nodeBefore fuel true true [.key, .value, .blockEnd] ts p
      let (v, ts, p) ← blockValue fuel ts p
      blockPairs fuel tag ((k, v) :: pairs) ts p
    | .blockEnd :: ts => .ok (.mapping tag pairs.reverse, ts, p)
    | _ => .error (.expected "key")

def blockValue : Nat → Reads Node
  | 0 => fun _ _ => .error (.unexpected "end of stream")
  | fuel + 1 => fun ts p =>
    match ts with
    | .value :: ts => nodeBefore fuel true true [.key, .value, .blockEnd] ts p
    | _ => .ok (.empty, ts, p.count 1)

def flowItems : Nat → Option Tag → List Node → (first : Bool) → Reads Node
  | 0, _, _, _ => fun _ _ => .error (.unexpected "end of stream")
  | fuel + 1, tag, items, first => fun ts p =>
    match ts with
    | .flowSequenceEnd :: ts => .ok (.sequence tag items.reverse, ts, p)
    | _ => do
      let ts ← if first then .ok ts else
        match ts with
        | .flowEntry :: ts => .ok ts
        | _ => .error (.expected "',' or ']'")
      match ts with
      | .flowSequenceEnd :: ts => .ok (.sequence tag items.reverse, ts, p)
      | .key :: ts =>
        let (k, ts, p) ←
          if startsNext ts [.value, .flowEntry, .flowSequenceEnd] then
            .ok (Node.empty, ts.drop 1, p.count 1)
          else node fuel false false ts p
        let (v, ts, p) ← flowValue fuel .flowSequenceEnd ts p
        flowItems fuel tag (.mapping none [(k, v)] :: items) false ts (p.count 2)
      | _ =>
        let (n, ts, p) ← node fuel false false ts p
        flowItems fuel tag (n :: items) false ts p

def flowPairs : Nat → Option Tag → List (Node × Node) → (first : Bool) → Reads Node
  | 0, _, _, _ => fun _ _ => .error (.unexpected "end of stream")
  | fuel + 1, tag, pairs, first => fun ts p =>
    match ts with
    | .flowMappingEnd :: ts => .ok (.mapping tag pairs.reverse, ts, p)
    | _ => do
      let ts ← if first then .ok ts else
        match ts with
        | .flowEntry :: ts => .ok ts
        | _ => .error (.expected "',' or '\x7d'")
      match ts with
      | .flowMappingEnd :: ts => .ok (.mapping tag pairs.reverse, ts, p)
      | .key :: ts =>
        let (k, ts, p) ←
          nodeBefore fuel false false [.value, .flowEntry, .flowMappingEnd] ts p
        let (v, ts, p) ← flowValue fuel .flowMappingEnd ts p
        flowPairs fuel tag ((k, v) :: pairs) false ts p
      | _ =>
        let (k, ts, p) ← node fuel false false ts p
        flowPairs fuel tag ((k, .empty) :: pairs) false ts (p.count 1)

def flowValue : Nat → (stop : Token) → Reads Node
  | 0, _ => fun _ _ => .error (.unexpected "end of stream")
  | fuel + 1, stop => fun ts p =>
    match ts with
    | .value :: ts => nodeBefore fuel false false [.flowEntry, stop] ts p
    | _ => .ok (.empty, ts, p.count 1)

end

def directives (version : Option (Nat × Nat)) (handles : Table String Tag) :
    List Token → Except Fault (Option (Nat × Nat) × Table String Tag × List Token)
  | .versionDirective major minor :: ts =>
    if version.isSome then .error (.unexpected "second version directive")
    else if major = 1 ∧ (minor = 1 ∨ minor = 2) then directives (some (major, minor)) handles ts
    else .error (.unexpected "version")
  | .tagDirective h e :: ts =>
    if handles.has h then .error (.unexpected "second directive for a tag handle")
    else directives version (handles.put h e) ts
  | ts => .ok (version, handles, ts)

def withDefaults (handles : Table String Tag) : Table String Tag :=
  handles ++ [("!", .bare), ("!!", .ofText "tag:yaml.org,2002:")]

def finish (root : Node) (p : Parser) : Document where
  root := some root
  anchored := p.marks.filterMap fun (number, mark) =>
    (p.nodes.find? (·.1 = mark)).map fun (_, n) => (number, n)
  size := p.size

def atEnd : List Token → Except Fault Unit
  | [] => .ok ()
  | .documentEnd :: ts => atEnd ts
  | _ => .error .manyDocuments

def document (ts : List Token) : Except Fault Document := do
  if ts = [] then .ok { root := none }
  else
    let fuel := 4 * ts.length + 4
    let (version, handles, rest) ← directives none [] ts
    let p : Parser := { handles := withDefaults handles }
    match rest with
    | .documentStart :: body =>
      let (n, ts, p) ←
        if startsNext body [.documentStart, .documentEnd] then .ok (Node.empty, body, p.count 1)
        else
          match body with
          | .versionDirective _ _ :: _ => .ok (Node.empty, body, p.count 1)
          | .tagDirective _ _ :: _ => .ok (Node.empty, body, p.count 1)
          | _ => node fuel true false body p
      atEnd ts
      .ok (p.finish n)
    | _ =>
      if version.isSome || handles ≠ [] then .error (.expected "<document start>")
      else
        let (n, ts, p) ← node fuel true false rest p
        atEnd ts
        .ok (p.finish n)

end Parser

def Document.ofText (text : String) : Except Fault Document := do
  Parser.document (← Token.ofText text)

end ConnectionPool.Yaml
