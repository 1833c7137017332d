import ConnectionPool.Yaml.Char

namespace ConnectionPool.Yaml

structure Cursor where
  rest : List Char
  /-- The length in UTF-8 of what was read. -/
  offset : Nat := 0
  line : Nat := 0
  column : Nat := 0

namespace Cursor

def peek (c : Cursor) : Option Char := c.rest.head?

def sees (c : Cursor) (x : Char) : Bool := c.rest.head? = some x

def width (cs : List Char) : Nat := cs.foldl (fun n c => n + c.utf8Size) 0

def skip (c : Cursor) (n : Nat := 1) : Cursor :=
  { c with
    rest := c.rest.drop n
    offset := c.offset + width (c.rest.take n)
    column := c.column + n }

def takeWhile (c : Cursor) (p : Char → Bool) : List Char × Cursor :=
  let run := c.rest.takeWhile p
  (run, c.skip run.length)

def dropWhile (c : Cursor) (p : Char → Bool) : Cursor := (c.takeWhile p).2

def break? (c : Cursor) : Option (Char × Cursor) :=
  let below (n : Nat) : Cursor :=
    { rest := c.rest.drop n
      offset := c.offset + width (c.rest.take n)
      line := c.line + 1
      column := 0 }
  match c.rest with
  | '\r' :: '\n' :: _ => some ('\n', below 2)
  | x :: _ =>
    if x.toNat = 0x2028 ∨ x.toNat = 0x2029 then some (x, below 1)
    else if isBreak x then some ('\n', below 1)
    else none
  | [] => none

def skipBreak (c : Cursor) : Cursor :=
  match c.break? with
  | some (_, c) => c
  | none => c

/-- Steps over a byte order mark at the start of a line, which takes up a column. -/
def skipByteOrderMark (c : Cursor) : Cursor :=
  if c.column = 0 && c.peek.any isByteOrderMark then c.skip else c

def skipComment (c : Cursor) : Cursor :=
  if c.sees '#' then c.dropWhile (!isBreak ·) else c

def atMarker (c : Cursor) (x : Char) : Bool :=
  c.column = 0 && c.rest.take 3 = [x, x, x] && endsWord (c.rest.drop 3)

def atDocumentMarker (c : Cursor) : Bool := c.atMarker '-' || c.atMarker '.'

end Cursor

end ConnectionPool.Yaml
