import ConnectionPool.Yaml.Scan

/-! From text to tokens.  A mapping key shows itself only by the colon after it, so the lexer
remembers where a key could have begun and puts the key token there once the colon is seen.
Blocks are opened and closed by the indentation of what stands in them. -/

namespace ConnectionPool.Yaml

/-- Where a key could begin: the number of tokens before it and its place in the text.  A key is
needed at the indentation of the block around it. -/
structure KeyPlace where
  needed : Bool
  position : Nat
  offset : Nat
  line : Nat
  column : Nat

structure Lexer where
  cursor : Cursor
  /-- The tokens so far, the last one first. -/
  tokens : List Token := []
  /-- The indentation of the block at hand, then those of the blocks around it. -/
  indent : Int := -1
  outer : List Int := []
  /-- Where a key could begin, for the flow collection at hand and those around it. -/
  keys : List (Option KeyPlace) := [none]
  keyAllowed : Bool := true

namespace Lexer

def inFlow (l : Lexer) : Bool := 1 < l.keys.length

def emit (t : Token) (l : Lexer) : Lexer := { l with tokens := t :: l.tokens }

def insert (position : Nat) (t : Token) (l : Lexer) : Lexer :=
  let later := l.tokens.length - position
  { l with tokens := l.tokens.take later ++ t :: l.tokens.drop later }

def allowKey (b : Bool) (l : Lexer) : Lexer := { l with keyAllowed := b }

def skip (l : Lexer) : Lexer := { l with cursor := l.cursor.skip }

def openBlock (column position : Nat) (t : Token) (l : Lexer) : Lexer :=
  if !l.inFlow && l.indent < (column : Int) then
    { l.insert position t with indent := column, outer := l.indent :: l.outer }
  else l

def closeBlocks (column : Int) (l : Lexer) : Lexer :=
  if l.inFlow then l else go l.outer l
where
  go : List Int → Lexer → Lexer
    | [], l => l
    | i :: rest, l =>
      if column < l.indent then go rest { l.emit .blockEnd with indent := i, outer := rest } else l

def dropKey (l : Lexer) : Except Fault Lexer :=
  match l.keys with
  | some k :: rest =>
    if k.needed then .error (.expected "':'") else .ok { l with keys := none :: rest }
  | _ => .ok l

def markKey (l : Lexer) : Except Fault Lexer :=
  if l.keyAllowed then do
    let k : KeyPlace := {
      needed := !l.inFlow && l.indent = (l.cursor.column : Int)
      position := l.tokens.length
      offset := l.cursor.offset
      line := l.cursor.line
      column := l.cursor.column }
    let l ← l.dropKey
    .ok { l with keys := some k :: l.keys.drop 1 }
  else .ok l

def dropStaleKeys (l : Lexer) : Except Fault Lexer := do
  let stale (k : KeyPlace) : Bool :=
    k.line < l.cursor.line || k.offset + 1024 < l.cursor.offset
  if l.keys.any (·.any fun k => stale k && k.needed) then .error (.expected "':'")
  else .ok { l with keys := l.keys.map (·.filter (!stale ·)) }

/-- Steps over byte order marks, blanks, comments and line ends.  In a block, a tab is no
indentation. -/
def skipSpace : Nat → Lexer → Lexer
  | 0, l => l
  | fuel + 1, l =>
    let mayFollow (x : Char) : Bool := x = ' ' || ((l.inFlow || !l.keyAllowed) && x = '\t')
    let c := (l.cursor.skipByteOrderMark.dropWhile mayFollow).skipComment
    match c.break? with
    | some (_, c) => skipSpace fuel { l with cursor := c, keyAllowed := !l.inFlow || l.keyAllowed }
    | none => { l with cursor := c }

def openFlow (t : Token) (l : Lexer) : Except Fault Lexer := do
  let l ← l.markKey
  .ok (({ l with keys := none :: l.keys }.allowKey true).skip.emit t)

def closeFlow (t : Token) (l : Lexer) : Except Fault Lexer := do
  let l ← l.dropKey
  let keys := if l.inFlow then l.keys.drop 1 else l.keys
  .ok (({ l with keys := keys }.allowKey false).skip.emit t)

def flowEntry (l : Lexer) : Except Fault Lexer := do
  let l ← l.dropKey
  .ok ((l.allowKey true).skip.emit .flowEntry)

def blockEntry (l : Lexer) : Except Fault Lexer := do
  if !l.inFlow && !l.keyAllowed then .error (.unexpected "block sequence entry")
  else
    let l ← (l.openBlock l.cursor.column l.tokens.length .blockSequenceStart).dropKey
    .ok ((l.allowKey true).skip.emit .blockEntry)

def explicitKey (l : Lexer) : Except Fault Lexer := do
  if !l.inFlow && !l.keyAllowed then .error (.unexpected "mapping key")
  else
    let l ← (l.openBlock l.cursor.column l.tokens.length .blockMappingStart).dropKey
    .ok ((l.allowKey !l.inFlow).skip.emit .key)

def value (l : Lexer) : Except Fault Lexer :=
  match l.keys with
  | some k :: rest =>
    let l := (l.insert k.position .key).openBlock k.column k.position .blockMappingStart
    .ok (({ l with keys := none :: rest }.allowKey false).skip.emit .value)
  | _ =>
    if !l.inFlow && !l.keyAllowed then .error (.unexpected "mapping value")
    else
      let l := l.openBlock l.cursor.column l.tokens.length .blockMappingStart
      .ok ((l.allowKey !l.inFlow).skip.emit .value)

def named (token : String → Token) (l : Lexer) : Except Fault Lexer := do
  let l ← l.markKey
  let (name, c) ← Scan.name l.cursor.skip
  .ok ({ l with cursor := c, keyAllowed := false }.emit (token (String.ofList name)))

def tag (l : Lexer) : Except Fault Lexer := do
  let l ← l.markKey
  let (t, c) ← Scan.tag l.inFlow l.cursor
  .ok ({ l with cursor := c, keyAllowed := false }.emit t)

def blockScalar (style : Style) (l : Lexer) : Except Fault Lexer := do
  let l ← l.dropKey
  let (text, c) ← Scan.block (style = .literal) l.indent l.cursor.skip
  .ok ({ l with cursor := c, keyAllowed := true }.emit (.scalar (String.ofList text) style))

def quotedScalar (style : Style) (l : Lexer) : Except Fault Lexer := do
  let l ← l.markKey
  let (text, c) ←
    Scan.quoted (style = .singleQuoted) (l.cursor.rest.length + 1) [] l.cursor.skip
  .ok ({ l with cursor := c, keyAllowed := false }.emit (.scalar (String.ofList text) style))

def plainScalar (l : Lexer) : Except Fault Lexer := do
  let l ← l.markKey
  let (text, broken, c) ←
    Scan.plain l.inFlow (l.indent + 1).toNat (l.cursor.rest.length + 1) [] {} l.cursor
  .ok ({ l with cursor := c, keyAllowed := broken }.emit (.scalar (String.ofList text) .plain))

def directive (l : Lexer) : Except Fault Lexer := do
  let l ← (l.closeBlocks (-1)).dropKey
  let (t, c) ← Scan.directive l.cursor.skip
  .ok ({ l with cursor := c, keyAllowed := false }.emit t)

def documentMarker (t : Token) (l : Lexer) : Except Fault Lexer := do
  let l ← (l.closeBlocks (-1)).dropKey
  .ok ({ l with cursor := l.cursor.skip 3, keyAllowed := false }.emit t)

def token (x : Char) (rest : List Char) (l : Lexer) : Except Fault Lexer :=
  if l.cursor.column = 0 && x = '%' then l.directive
  else if l.cursor.atMarker '-' then l.documentMarker .documentStart
  else if l.cursor.atMarker '.' then l.documentMarker .documentEnd
  else if x = '[' then l.openFlow .flowSequenceStart
  else if x = '{' then l.openFlow .flowMappingStart
  else if x = ']' then l.closeFlow .flowSequenceEnd
  else if x = '}' then l.closeFlow .flowMappingEnd
  else if x = ',' then l.flowEntry
  else if x = '-' && endsWord rest then l.blockEntry
  else if x = '?' && (l.inFlow || endsWord rest) then l.explicitKey
  else if x = ':' && (l.inFlow || endsWord rest) then l.value
  else if x = '*' then l.named .alias
  else if x = '&' then l.named .anchor
  else if x = '!' then l.tag
  else if x = '|' && !l.inFlow then l.blockScalar .literal
  else if x = '>' && !l.inFlow then l.blockScalar .folded
  else if x = '\'' then l.quotedScalar .singleQuoted
  else if x = '"' then l.quotedScalar .doubleQuoted
  else if isSpacing x || isIndicator x then .error (.unexpected "character")
  else l.plainScalar

def run : Nat → Lexer → Except Fault (List Token)
  | 0, _ => .error (.unexpected "end of stream")
  | fuel + 1, l => do
    let l ← (l.skipSpace (l.cursor.rest.length + 1)).dropStaleKeys
    let l := l.closeBlocks l.cursor.column
    match l.cursor.rest with
    | [] =>
      let l ← (l.closeBlocks (-1)).dropKey
      .ok l.tokens.reverse
    | x :: rest => run fuel (← l.token x rest)

end Lexer

def Token.ofText (text : String) : Except Fault (List Token) :=
  let chars := text.toList
  match chars.find? (!isAllowed ·) with
  | some c => .error (.badCharacter c)
  | none => Lexer.run (chars.length + 1) { cursor := { rest := chars } }

end ConnectionPool.Yaml
