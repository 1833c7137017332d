namespace ConnectionPool.Yaml

structure Tag where
  bytes : List UInt8
  zero_notMem : 0 ∉ bytes
  deriving DecidableEq

namespace Tag

/-- The tag that `bs` spell, up to the first null byte. -/
def ofBytes (bs : List UInt8) : Tag where
  bytes := bs.takeWhile (· ≠ 0)
  zero_notMem hm := by
    have h : (bs.takeWhile (· ≠ 0)).all (· ≠ 0) = true := List.all_takeWhile
    simpa using List.all_eq_true.mp h 0 hm

def ofText (s : String) : Tag := ofBytes s.toUTF8.data.toList

def bare : Tag := ofText "!"

def isEmpty (t : Tag) : Bool := t.bytes.isEmpty

def append (t u : Tag) : Tag where
  bytes := t.bytes ++ u.bytes
  zero_notMem := by simp [t.zero_notMem, u.zero_notMem]

instance : Append Tag := ⟨append⟩

def name? (t : Tag) : Option String :=
  match t.bytes with
  | b :: rest => if b = '!'.toUInt8 then String.fromUTF8? rest.toByteArray else none
  | [] => none

@[simp] theorem bytes_append (t u : Tag) : (t ++ u).bytes = t.bytes ++ u.bytes := rfl

end Tag

end ConnectionPool.Yaml
