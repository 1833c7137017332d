import ConnectionPool.Yaml.Cursor
import ConnectionPool.Yaml.Fault
import ConnectionPool.Yaml.Token

namespace ConnectionPool.Yaml

/-- White space between two parts of a scalar: the blanks, if no line ended, or else the first
line break and the breaks after it. -/
structure Gap where
  blanks : List Char := []
  first : List Char := []
  more : List Char := []
  broken : Bool := false

namespace Gap

def fold (g : Gap) : List Char :=
  if g.broken then
    match g.first with
    | '\n' :: _ => if g.more = [] then [' '] else g.more
    | first => first ++ g.more
  else g.blanks

def read (margin : Nat) : Nat → Gap → Cursor → Except Fault (Gap × Cursor)
  | 0, g, c => .ok (g, c)
  | fuel + 1, g, c =>
    match c.break? with
    | some (b, c) =>
      if g.broken then read margin fuel { g with more := g.more ++ [b] } c
      else read margin fuel { g with blanks := [], first := [b], broken := true } c
    | none =>
      match c.peek with
      | some x =>
        if isBlank x then
          if g.broken && c.column < margin && x = '\t' then .error (.unexpected "tab")
          else if g.broken then read margin fuel g c.skip
          else read margin fuel { g with blanks := g.blanks ++ [x] } c.skip
        else .ok (g, c)
      | none => .ok (g, c)

end Gap

namespace Scan

def plainEnds (inFlow : Bool) : List Char → Bool
  | [] => true
  | ':' :: rest => endsWord rest
  | x :: _ => inFlow && isFlowIndicator x

def plainWord (inFlow : Bool) : Nat → List Char → Cursor → Except Fault (List Char × Cursor)
  | 0, word, c => .ok (word, c)
  | fuel + 1, word, c =>
    match c.rest with
    | [] => .ok (word, c)
    | x :: rest =>
      if isSpacing x then .ok (word, c)
      else if inFlow && x = ':' && (rest.head?.any fun y => y = '?' || isFlowIndicator y) then
        .error (.unexpected "':'")
      else if plainEnds inFlow c.rest then .ok (word, c)
      else plainWord inFlow fuel (word ++ [x]) c.skip

/-- Reads a plain scalar whose lines after the first start at column `margin` or later.  Answers
the text, whether it was last seen at the start of a line, and the place after it. -/
def plain (inFlow : Bool) (margin : Nat) :
    Nat → List Char → Gap → Cursor → Except Fault (List Char × Bool × Cursor)
  | 0, text, g, c => .ok (text, g.broken, c)
  | fuel + 1, text, g, c =>
    if c.atDocumentMarker || c.sees '#' then .ok (text, g.broken, c)
    else do
      let (word, c) ← plainWord inFlow c.rest.length [] c
      let text := if word = [] then text else text ++ g.fold ++ word
      let g := if word = [] then g else {}
      match c.peek with
      | some x =>
        if isSpacing x then
          let (g, c) ← Gap.read margin c.rest.length g c
          if !inFlow && c.column < margin then .ok (text, g.broken, c)
          else plain inFlow margin fuel text g c
        else .ok (text, g.broken, c)
      | none => .ok (text, g.broken, c)

def escape? (x : Char) : Option Char :=
  match x with
  | '0' => some (Char.ofNat 0)
  | 'a' => some (Char.ofNat 0x07)
  | 'b' => some (Char.ofNat 0x08)
  | 't' => some '\t'
  | '\t' => some '\t'
  | 'n' => some '\n'
  | 'v' => some (Char.ofNat 0x0B)
  | 'f' => some (Char.ofNat 0x0C)
  | 'r' => some '\r'
  | 'e' => some (Char.ofNat 0x1B)
  | ' ' => some ' '
  | '"' => some '"'
  | '/' => some '/'
  | '\\' => some '\\'
  | 'N' => some (Char.ofNat 0x85)
  | '_' => some (Char.ofNat 0xA0)
  | 'L' => some (Char.ofNat 0x2028)
  | 'P' => some (Char.ofNat 0x2029)
  | _ => none

def escapeWidth? (x : Char) : Option Nat :=
  match x with
  | 'x' => some 2
  | 'u' => some 4
  | 'U' => some 8
  | _ => none

def hexNumber? (cs : List Char) : Option Nat :=
  cs.foldlM (fun n c => (hexDigit? c).map (16 * n + ·)) 0

def quotedWord (single : Bool) :
    Nat → List Char → Cursor → Except Fault (List Char × Bool × Cursor)
  | 0, word, c => .ok (word, false, c)
  | fuel + 1, word, c =>
    match c.rest with
    | [] => .ok (word, false, c)
    | x :: rest =>
      if isSpacing x then .ok (word, false, c)
      else if single then
        if x = '\'' then
          if rest.head? = some '\'' then quotedWord single fuel (word ++ ['\'']) (c.skip 2)
          else .ok (word, false, c)
        else quotedWord single fuel (word ++ [x]) c.skip
      else if x = '"' then .ok (word, false, c)
      else if x = '\\' then
        match rest with
        | [] => .error (.unexpected "escape")
        | y :: digits =>
          if isBreak y then .ok (word, true, c.skip.skipBreak)
          else
            match escape? y, escapeWidth? y with
            | some z, _ => quotedWord single fuel (word ++ [z]) (c.skip 2)
            | none, some width =>
              match hexNumber? (digits.take width) with
              | some n =>
                if digits.length < width then .error (.expected "hexadecimal number")
                else if n.isValidChar then
                  quotedWord single fuel (word ++ [Char.ofNat n]) (c.skip (2 + width))
                else .error (.unexpected "character code")
              | none => .error (.expected "hexadecimal number")
            | none, none => .error (.unexpected "escape")
      else quotedWord single fuel (word ++ [x]) c.skip

def quoted (single : Bool) : Nat → List Char → Cursor → Except Fault (List Char × Cursor)
  | 0, _, _ => .error (.unexpected "end of stream")
  | fuel + 1, text, c =>
    if c.atDocumentMarker then .error (.unexpected "document marker")
    else if c.rest = [] then .error (.unexpected "end of stream")
    else do
      let (word, joined, c) ← quotedWord single c.rest.length [] c
      let text := text ++ word
      if c.sees (if single then '\'' else '"') then .ok (text, c.skip)
      else
        let (g, c) ← Gap.read 0 c.rest.length { broken := joined } c
        quoted single fuel (text ++ g.fold) c

inductive Chomp
  | strip
  | clip
  | keep
  deriving DecidableEq

def chomp? (c : Cursor) : Option Chomp × Cursor :=
  if c.sees '+' then (some .keep, c.skip)
  else if c.sees '-' then (some .strip, c.skip)
  else (none, c)

def indentHint? (c : Cursor) : Except Fault (Option Nat × Cursor) :=
  match c.peek with
  | some x =>
    if x = '0' then .error (.unexpected "indentation of 0")
    else if x.isDigit then .ok (some (x.toNat - '0'.toNat), c.skip)
    else .ok (none, c)
  | none => .ok (none, c)

/-- Reads the indentation and the empty lines before a line of a block scalar.  The column is the
indentation of the scalar once it is known; `widest` is the deepest indentation so far. -/
def blockGap (column : Option Nat) :
    Nat → List Char → Nat → Cursor → Except Fault (List Char × Nat × Cursor)
  | 0, breaks, widest, c => .ok (breaks, widest, c)
  | fuel + 1, breaks, widest, c =>
    let room := match column with
      | some n => n - c.column
      | none => c.rest.length
    let c := c.skip ((c.rest.take room).takeWhile (· = ' ')).length
    let widest := max widest c.column
    if (column.all (c.column < ·)) && c.sees '\t' then .error (.unexpected "tab")
    else
      match c.break? with
      | some (b, c) => blockGap column fuel (breaks ++ [b]) widest c
      | none => .ok (breaks, widest, c)

/-- Reads the lines of a block scalar at indentation `column`.  `lead` is the break that ended the
line before, `more` are the breaks of empty lines after it, and `blank` says that the line before
started with a blank. -/
def blockLines (isLiteral : Bool) (column : Nat) :
    Nat → List Char → List Char → List Char → Bool → Cursor →
      Except Fault (List Char × List Char × List Char × Cursor)
  | 0, text, lead, more, _, c => .ok (text, lead, more, c)
  | fuel + 1, text, lead, more, blank, c =>
    if c.column = column && c.rest ≠ [] then do
      let startsBlank := c.peek.any isBlank
      let folds := !isLiteral && lead.head? = some '\n' && !blank && !startsBlank
      let join := if folds then (if more = [] then [' '] else more) else lead ++ more
      let (body, c) := c.takeWhile (!isBreak ·)
      let (lead, c) := match c.break? with
        | some (b, c) => ([b], c)
        | none => ([], c)
      let (more, _, c) ← blockGap (some column) c.rest.length [] 0 c
      blockLines isLiteral column fuel (text ++ join ++ body) lead more startsBlank c
    else .ok (text, lead, more, c)

def block (isLiteral : Bool) (indent : Int) (c : Cursor) : Except Fault (List Char × Cursor) := do
  let (chompBefore, c) := chomp? c
  let (hint, c) ← indentHint? c
  let (chompAfter, c) := if chompBefore.isNone && hint.isSome then chomp? c else (none, c)
  let chomp := (chompBefore.or chompAfter).getD .clip
  let c := (c.dropWhile isBlank).skipComment
  if !endsLine c.rest then .error (.expected "comment or line break")
  else
    let c := c.skipBreak
    let hinted := hint.map fun n => if 0 ≤ indent then indent.toNat + n else n
    let (more, widest, c) ← blockGap hinted c.rest.length [] 0 c
    let column := hinted.getD (max (max widest (indent + 1).toNat) 1)
    let (text, lead, more, c) ← blockLines isLiteral column c.rest.length [] [] more false c
    let ending := match chomp with
      | .strip => []
      | .clip => lead
      | .keep => lead ++ more
    .ok (text ++ ending, c)

def name (c : Cursor) : Except Fault (List Char × Cursor) :=
  let (name, c) := c.takeWhile isWordChar
  let ends := endsWord c.rest ||
    c.peek.any fun x => ['?', ':', ',', ']', '}', '%', '@', '\x60'].contains x
  if name = [] || !ends then .error (.expected "alphabetic or numeric character")
  else .ok (name, c)

def tagByte? (c : Cursor) : Option (Nat × Cursor) :=
  match c.rest with
  | '%' :: x :: y :: _ =>
    match hexDigit? x, hexDigit? y with
    | some a, some b => some (16 * a + b, c.skip 3)
    | _, _ => none
  | _ => none

def trailingBytes : (n : Nat) → List UInt8 → Cursor → Except Fault (List UInt8 × Cursor)
  | 0, bytes, c => .ok (bytes, c)
  | n + 1, bytes, c =>
    match tagByte? c with
    | some (b, c) =>
      if b / 0x40 = 2 then trailingBytes n (bytes ++ [b.toUInt8]) c
      else .error (.unexpected "trailing octet")
    | none => .error (.expected "escaped octet")

def trailing? (b : Nat) : Option Nat :=
  if b < 0x80 then some 0
  else if b / 0x20 = 6 then some 1
  else if b / 0x10 = 14 then some 2
  else if b / 0x08 = 30 then some 3
  else none

def tagEscape (c : Cursor) : Except Fault (List UInt8 × Cursor) :=
  match tagByte? c with
  | none => .error (.expected "escaped octet")
  | some (b, c) =>
    match trailing? b with
    | some n => trailingBytes n [b.toUInt8] c
    | none => .error (.unexpected "leading octet")

def tagBytes (verbatim : Bool) :
    Nat → List UInt8 → Cursor → Except Fault (List UInt8 × Cursor)
  | 0, bytes, c => .ok (bytes, c)
  | fuel + 1, bytes, c =>
    match c.peek with
    | some x =>
      if x = '%' then do
        let (more, c) ← tagEscape c
        tagBytes verbatim fuel (bytes ++ more) c
      else if isTagChar verbatim x then tagBytes verbatim fuel (bytes ++ [x.toUInt8]) c.skip
      else .ok (bytes, c)
    | none => .ok (bytes, c)

def handle (c : Cursor) : List Char × Cursor :=
  let (name, c) := c.skip.takeWhile isWordChar
  if c.sees '!' then ('!' :: name ++ ['!'], c.skip) else ('!' :: name, c)

def tag (inFlow : Bool) (c : Cursor) : Except Fault (Token × Cursor) := do
  let (token, c) ←
    if c.rest.take 2 = ['!', '<'] then do
      let (suffix, c) ← tagBytes true c.rest.length [] (c.skip 2)
      if suffix = [] then .error (.expected "tag URI")
      else if c.sees '>' then .ok (Token.tag "" (.ofBytes suffix), c.skip)
      else .error (.expected "'>'")
    else do
      let (head, c) := handle c
      let (suffix, c) ← tagBytes false c.rest.length [] c
      if 2 ≤ head.length && head.getLast? = some '!' then
        if suffix = [] then .error (.expected "tag URI")
        else .ok (Token.tag (String.ofList head) (.ofBytes suffix), c)
      else
        let suffix := Tag.ofBytes ((head.drop 1).map Char.toUInt8 ++ suffix)
        if suffix.isEmpty then .ok (Token.tag "" .bare, c)
        else .ok (Token.tag "!" suffix, c)
  if endsWord c.rest || (inFlow && c.sees ',') then .ok (token, c)
  else .error (.expected "whitespace or line break")

def versionNumber (c : Cursor) : Except Fault (Nat × Cursor) :=
  let (digits, c) := c.takeWhile Char.isDigit
  if digits = [] || 9 < digits.length then .error (.expected "version number")
  else .ok (digits.foldl (fun n d => 10 * n + (d.toNat - '0'.toNat)) 0, c)

def directive (c : Cursor) : Except Fault (Token × Cursor) := do
  let (name, c) := c.takeWhile isWordChar
  if name = [] then .error (.expected "directive name")
  else if !endsWord c.rest then .error (.unexpected "non-alphabetical character")
  else
    let c := c.dropWhile isBlank
    let (token, c) ←
      if name = "YAML".toList then do
        let (major, c) ← versionNumber c
        if c.sees '.' then
          let (minor, c) ← versionNumber c.skip
          .ok (Token.versionDirective major minor, c)
        else .error (.expected "digit or '.' character")
      else if name = "TAG".toList then do
        if !c.sees '!' then .error (.expected "'!'")
        else
          let (head, c) := handle c
          if head ≠ ['!'] && head.getLast? ≠ some '!' then .error (.expected "'!'")
          else if !(c.peek.any isBlank) then .error (.expected "whitespace")
          else
            let c := c.dropWhile isBlank
            let (expansion, c) ← tagBytes true c.rest.length [] c
            if expansion = [] then .error (.expected "tag URI")
            else if !endsWord c.rest then .error (.expected "whitespace or line break")
            else .ok (Token.tagDirective (String.ofList head) (.ofBytes expansion), c)
      else .error (.unexpected "directive name")
    let c := (c.dropWhile isBlank).skipComment
    if endsLine c.rest then .ok (token, c.skipBreak)
    else .error (.expected "comment or line break")

end Scan

end ConnectionPool.Yaml
