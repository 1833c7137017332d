import ConnectionPool.Text.Hidden

namespace ConnectionPool.Literal

def escape (c : Char) : String :=
  if c = '\x00' then "\\0"
  else if c = '\t' then "\\t"
  else if c = '\r' then "\\r"
  else if c = '\n' then "\\n"
  else if c = '"' then "\\\""
  else if c = '\\' then "\\\\"
  else if Text.isHidden c then
    "\\u\x7b" ++ String.ofList (Nat.toDigits 16 c.toNat) ++ "\x7d"
  else c.toString

def text (s : String) : String := "\"" ++ String.join (s.toList.map escape) ++ "\""

def record (name : String) (fields : List (String × String)) : String :=
  name ++ " \x7b " ++ ", ".intercalate (fields.map fun (n, v) => n ++ ": " ++ v) ++ " \x7d"

def list (items : List String) : String := "[" ++ ", ".intercalate items ++ "]"

def tagged (name item : String) : String := name ++ "(" ++ item ++ ")"

def option : Option String → String
  | some item => tagged "Some" item
  | none => "None"

end ConnectionPool.Literal
