import Collectives.Text.Shown

/-!
# Quoted texts and listed values

How a value is written out for a reader: texts in double quotes with escapes, lists in square brackets, and
records as a name with its fields in braces.
-/

namespace Collectives.Text

/-- Lower-case hexadecimal digits of a number, without leading zeros. -/
def hexDigits (n : Nat) : String := String.ofList (Nat.toDigits 16 n)

/-- One character of a quoted text: five have a short escape, hidden ones are written by code point. -/
def escape (c : Char) : String :=
  if c = '"' then "\\\""
  else if c = '\\' then "\\\\"
  else if c = '\n' then "\\n"
  else if c = '\r' then "\\r"
  else if c = '\t' then "\\t"
  else if c.toNat = 0 then "\\0"
  else if isShown c then c.toString
  else "\\u\x7b" ++ hexDigits c.toNat ++ "\x7d"

/-- A text between double quotes. -/
def quoted (s : String) : String := "\"" ++ String.join (s.toList.map escape) ++ "\""

/-- Items between square brackets. -/
def bracketed (items : List String) : String := "[" ++ ", ".intercalate items ++ "]"

/-- Numbers between square brackets. -/
def numbers (xs : List Nat) : String := bracketed (xs.map toString)

/-- An item between round brackets under a tag. -/
def tagged (tag item : String) : String := tag ++ "(" ++ item ++ ")"

/-- A value that may be missing. -/
def optional : Option String → String
  | none => "None"
  | some item => tagged "Some" item

/-- One field of a record. -/
def field (f : String × String) : String := f.1 ++ ": " ++ f.2

/-- A record under its name; one without fields is the bare name. -/
def record (name : String) (fields : List (String × String)) : String :=
  if fields.isEmpty then name
  else name ++ " \x7b " ++ ", ".intercalate (fields.map field) ++ " \x7d"

end Collectives.Text
