import ConnectionPool.Yaml.Char
import ConnectionPool.Yaml.Token

namespace ConnectionPool.Yaml.Scalar

def isNull (s : String) : Bool := ["null", "Null", "NULL", "~"].contains s

def bool? (s : String) : Option Bool :=
  if ["true", "True", "TRUE"].contains s then some true
  else if ["false", "False", "FALSE"].contains s then some false
  else none

def digits? (base : Nat) (cs : List Char) : Option Nat :=
  if cs = [] then none
  else cs.foldlM (fun n c => (hexDigit? c).bind fun d => if d < base then some (base * n + d) else none) 0

def isPadded (cs : List Char) : Bool :=
  match cs with
  | '0' :: c :: rest => (c :: rest).all Char.isDigit
  | _ => false

def dropSign : List Char → List Char
  | '+' :: cs => cs
  | '-' :: cs => cs
  | cs => cs

def dropPlus : List Char → List Char
  | '+' :: cs => cs
  | cs => cs

def based? : List Char → Option Nat
  | '0' :: 'x' :: cs => digits? 16 cs
  | '0' :: 'o' :: cs => digits? 8 cs
  | '0' :: 'b' :: cs => digits? 2 cs
  | _ => none

def natural? (bound : Nat) (s : String) : Option Nat :=
  let unsigned := dropPlus s.toList
  let small (n : Option Nat) := n.filter (· < bound)
  (small (based? unsigned)).or <|
    if isPadded (dropSign s.toList) then none else small (digits? 10 unsigned)

def isNegative (bound : Nat) (s : String) : Bool :=
  match s.toList with
  | '-' :: cs =>
    let small (n : Option Nat) := n.any (· ≤ bound)
    small (based? cs) || (!isPadded cs && small (digits? 10 cs))
  | _ => false

def isInteger (s : String) : Bool :=
  (natural? (Nat.pow 2 128) s).isSome || isNegative (Nat.pow 2 127) s

/-- Whether `mantissa * 10 ^ exponent` is too large for a double.  The mantissa has at most
`places` digits. -/
def overflows (mantissa places : Nat) (exponent : Int) : Bool :=
  if mantissa = 0 then false
  else if (places : Int) + exponent ≤ 308 then false
  else if 400 ≤ exponent then true
  else
    let top := Nat.pow 2 1024 - Nat.pow 2 970
    if 0 ≤ exponent then top ≤ mantissa * Nat.pow 10 exponent.toNat
    else top * Nat.pow 10 (-exponent).toNat ≤ mantissa

def exponent? : List Char → Option Int
  | [] => some 0
  | e :: cs =>
    if e = 'e' || e = 'E' then
      match cs with
      | '-' :: ds => (digits? 10 ds).map fun n => -(n : Int)
      | cs => (digits? 10 (dropPlus cs)).map fun n => (n : Int)
    else none

def isFiniteDecimal (cs : List Char) : Bool :=
  let whole := cs.takeWhile Char.isDigit
  let rest := cs.dropWhile Char.isDigit
  let (places, rest) := match rest with
    | '.' :: rest => (rest.takeWhile Char.isDigit, rest.dropWhile Char.isDigit)
    | rest => ([], rest)
  match digits? 10 (whole ++ places), exponent? rest with
  | some mantissa, some e =>
    !overflows mantissa (whole ++ places).length (e - places.length)
  | _, _ => false

def isFloat (s : String) : Bool :=
  let cs := s.toList
  let unsigned := dropPlus cs
  let doubleSign := match cs with
    | '+' :: c :: _ => c = '+' || c = '-'
    | _ => false
  !doubleSign &&
  ([".inf", ".Inf", ".INF"].contains (String.ofList unsigned) ||
    ["-.inf", "-.Inf", "-.INF"].contains s ||
    [".nan", ".NaN", ".NAN"].contains s ||
    isFiniteDecimal (dropSign unsigned))

/-- Whether a plain scalar with this text is read as itself, and not taken for a number where
leading zeros are allowed. -/
def isText (s : String) : Bool :=
  !(s = "" || isNull s || (bool? s).isSome || isInteger s || isPadded (dropSign s.toList) ||
    isFloat s)

end ConnectionPool.Yaml.Scalar
