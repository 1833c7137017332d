import ConnectionPool.Yaml.Parser
import ConnectionPool.Yaml.Printer

namespace ConnectionPool.Yaml

/-- How trees are written as texts and texts read as trees. -/
structure Format where
  print : Node → String
  parse : String → Except Fault Document

namespace Format

def standard : Format where
  print := Node.print
  parse := Document.ofText

def Restores (f : Format) (n : Node) : Prop :=
  ∃ doc, f.parse (f.print n) = .ok doc ∧ doc.root = some n

end Format

end ConnectionPool.Yaml
