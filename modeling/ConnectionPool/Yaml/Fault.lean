namespace ConnectionPool.Yaml

inductive Fault
  | badCharacter (c : Char)
  | expected (what : String)
  | unexpected (what : String)
  | unknownAnchor (name : String)
  | manyDocuments
  | manyAliases
  | missingField (name : String)
  | duplicateField (name : String)
  | outOfRange (value : Nat)
  deriving DecidableEq

namespace Fault

def text : Fault → String
  | badCharacter c => s!"control character {c.toNat} is not allowed"
  | expected what => "did not find expected " ++ what
  | unexpected what => "found unexpected " ++ what
  | unknownAnchor name => "unknown anchor " ++ name
  | manyDocuments => "more than one document"
  | manyAliases => "too many aliases"
  | missingField name => "missing field " ++ name
  | duplicateField name => "duplicate field " ++ name
  | outOfRange value => s!"value {value} is out of range"

end Fault

end ConnectionPool.Yaml
