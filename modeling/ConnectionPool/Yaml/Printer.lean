import ConnectionPool.Yaml.Node
import ConnectionPool.Yaml.Scalar

/-! Writing nodes as YAML in block style.  A string is written plain where it would be read as
itself, and in the least conspicuous style that can hold it elsewhere. -/

namespace ConnectionPool.Yaml

structure Traits where
  /-- Begins with, or holds, characters that would be read as markup. -/
  markup : Bool
  /-- Holds a character that cannot be written as it is. -/
  special : Bool
  multiline : Bool
  spaceFirst : Bool
  breakFirst : Bool
  spaceLast : Bool
  breakLast : Bool
  spaceAfterBreak : Bool
  breakAfterSpace : Bool
  deriving DecidableEq

namespace Traits

def hasNeighbours (p q : Char → Bool) : List Char → Bool
  | a :: b :: cs => (p a && q b) || hasNeighbours p q (b :: cs)
  | _ => false

def hasInnerMarkup : List Char → Bool
  | a :: b :: cs =>
    (b = ':' && endsWord cs) || (b = '#' && isSpacing a) || hasInnerMarkup (b :: cs)
  | _ => false

def startsMarkup : List Char → Bool
  | [] => false
  | c :: cs =>
    isIndicator c || (['?', ':', '-'].contains c && endsWord cs) ||
    (c :: cs).take 3 = ['-', '-', '-'] || (c :: cs).take 3 = ['.', '.', '.']

def ofChars (cs : List Char) : Traits where
  markup := startsMarkup cs || hasInnerMarkup cs
  special := cs.any (!isPrintable ·)
  multiline := cs.any isBreak
  spaceFirst := cs.head? = some ' '
  breakFirst := cs.head?.any isBreak
  spaceLast := cs.getLast? = some ' '
  breakLast := cs.getLast?.any isBreak
  spaceAfterBreak := hasNeighbours isBreak (· = ' ') cs
  breakAfterSpace := hasNeighbours (· = ' ') isBreak cs

def allowsPlain (t : Traits) : Bool :=
  !(t.markup || t.special || t.multiline || t.spaceFirst || t.breakFirst || t.spaceLast ||
    t.breakLast)

def allowsSingleQuoted (t : Traits) : Bool :=
  !(t.special || t.spaceAfterBreak || t.breakAfterSpace)

def allowsLiteral (t : Traits) : Bool := !(t.special || t.spaceLast || t.breakAfterSpace)

end Traits

def Style.ofText (s : String) : Style :=
  let t := Traits.ofChars s.toList
  let quoted := if t.allowsSingleQuoted then singleQuoted else doubleQuoted
  if s.toList.contains '\n' then if t.allowsLiteral then literal else doubleQuoted
  else if Scalar.isText s && t.allowsPlain then plain
  else quoted

namespace Node

def ofText (s : String) : Node := .scalar s (.ofText s) none

def ofNat (n : Nat) : Node := .plain (toString n)

def ofBool (b : Bool) : Node := .plain (if b then "true" else "false")

def null : Node := .plain "null"

def ofOption (f : α → Node) : Option α → Node
  | some a => f a
  | none => null

def record (fields : List (String × Node)) : Node :=
  .mapping none (fields.map fun (k, n) => (.plain k, n))

def list (items : List Node) : Node := .sequence none items

end Node

namespace Printer

def indentation (n : Nat) : String := String.ofList (List.replicate n ' ')

def hex (width n : Nat) : String :=
  let digits := (Nat.toDigits 16 n).map Char.toUpper
  String.ofList (List.replicate (width - digits.length) '0' ++ digits)

def escaped (c : Char) : String :=
  let n := c.toNat
  match n with
  | 0 => "\\0"
  | 0x07 => "\\a"
  | 0x08 => "\\b"
  | 0x09 => "\\t"
  | 0x0A => "\\n"
  | 0x0B => "\\v"
  | 0x0C => "\\f"
  | 0x0D => "\\r"
  | 0x1B => "\\e"
  | 0x22 => "\\\""
  | 0x5C => "\\\\"
  | 0x85 => "\\N"
  | 0x2028 => "\\L"
  | 0x2029 => "\\P"
  | _ =>
    if isPrintable c then c.toString
    else if n ≤ 0xFF then "\\x" ++ hex 2 n
    else if n ≤ 0xFFFF then "\\u" ++ hex 4 n
    else "\\U" ++ hex 8 n

def doubleQuoted (s : String) : String :=
  "\"" ++ String.join (s.toList.map escaped) ++ "\""

/-- The inside of single quotes.  A first line break is written twice if it is a line feed, and
the line after a break is indented. -/
def insideSingle (indent : Nat) : (afterBreak : Bool) → List Char → String
  | afterBreak, [] => if afterBreak then indentation indent else ""
  | afterBreak, c :: cs =>
    if isBreak c then
      (if !afterBreak && c = '\n' then "\n" else "") ++ c.toString ++ insideSingle indent true cs
    else
      (if afterBreak then indentation indent else "") ++
      (if c = '\'' then "''" else c.toString) ++ insideSingle indent false cs

def singleQuoted (indent : Nat) (s : String) : String :=
  "'" ++ insideSingle indent false s.toList ++ "'"

def literalLines (indent : Nat) : (afterBreak : Bool) → List Char → String
  | _, [] => ""
  | afterBreak, c :: cs =>
    if isBreak c then c.toString ++ literalLines indent true cs
    else (if afterBreak then indentation indent else "") ++ c.toString ++ literalLines indent false cs

/-- The marks after the bar of a literal scalar: the width of the indentation where the text
starts with white space, and what becomes of the breaks at its end. -/
def literalMarks (cs : List Char) : String :=
  (if cs.head?.any fun c => c = ' ' || isBreak c then "2" else "") ++
  (match cs.reverse with
    | [] => "-"
    | [c] => if isBreak c then "+" else "-"
    | c :: d :: _ => if !isBreak c then "-" else if isBreak d then "+" else "")

def scalar (indent : Nat) (s : String) : Style → String
  | .plain => s
  | .singleQuoted => singleQuoted indent s
  | .doubleQuoted => doubleQuoted s
  | .folded => doubleQuoted s
  | .literal => "|" ++ literalMarks s.toList ++ "\n" ++ literalLines indent true s.toList

def line (s : String) : String :=
  if s.toList.getLast?.any isBreak then s else s ++ "\n"

mutual

def node (indent : Nat) : Node → String
  | .scalar s style _ => line (scalar (indent + 2) s style)
  | .sequence _ [] => "[]\n"
  | .sequence _ (n :: ns) => "- " ++ node (indent + 2) n ++ items indent ns
  | .mapping _ [] => "\x7b\x7d\n"
  | .mapping _ ((k, v) :: ps) => key k ++ value indent v ++ pairs indent ps
  | .alias number => line s!"*{number}"

def key : Node → String
  | .scalar s style _ => scalar 0 s style ++ ":"
  | _ => "? "

def value (indent : Nat) : Node → String
  | .scalar s style _ => " " ++ line (scalar (indent + 2) s style)
  | .sequence _ [] => " []\n"
  | .sequence _ (n :: ns) =>
    "\n" ++ indentation indent ++ "- " ++ node (indent + 2) n ++ items indent ns
  | .mapping _ [] => " \x7b\x7d\n"
  | .mapping _ ((k, v) :: ps) =>
    "\n" ++ indentation (indent + 2) ++ key k ++ value (indent + 2) v ++ pairs (indent + 2) ps
  | .alias number => line s!" *{number}"

def items (indent : Nat) : List Node → String
  | [] => ""
  | n :: ns => indentation indent ++ "- " ++ node (indent + 2) n ++ items indent ns

def pairs (indent : Nat) : List (Node × Node) → String
  | [] => ""
  | (k, v) :: ps => indentation indent ++ key k ++ value indent v ++ pairs indent ps

end

end Printer

def Node.print (n : Node) : String := Printer.node 0 n

end ConnectionPool.Yaml
