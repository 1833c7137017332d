import ConnectionPool.Yaml.Fault
import ConnectionPool.Yaml.Token

namespace ConnectionPool.Yaml

inductive Node
  | scalar (text : String) (style : Style) (tag : Option Tag)
  | sequence (tag : Option Tag) (items : List Node)
  | mapping (tag : Option Tag) (pairs : List (Node × Node))
  | alias (number : Nat)

namespace Node

def plain (text : String) : Node := scalar text .plain none

def empty : Node := plain ""

end Node

/-- A document.  An alias stands for the anchored node of its number, which may hold the alias
itself.  The size is the number of scalars, aliases and ends of collections. -/
structure Document where
  root : Option Node
  anchored : List (Nat × Node) := []
  size : Nat := 0

end ConnectionPool.Yaml
