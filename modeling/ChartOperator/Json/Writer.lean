import ChartOperator.Json
import ChartOperator.Text.Quoted

set_option autoImplicit false

/-!
# Writing JSON

The compact text of a value: no blanks, fields in the order of their names, and in strings only the
quotation mark, the backslash and the controls escaped.
-/

namespace ChartOperator.Json

/-- One character of a string. -/
def stringChar (c : Char) : List Char :=
  if c = '"' then ['\\', '"']
  else if c = '\\' then ['\\', '\\']
  else if c = '\n' then ['\\', 'n']
  else if c = '\r' then ['\\', 'r']
  else if c = '\t' then ['\\', 't']
  else if c = '\x08' then ['\\', 'b']
  else if c = '\x0c' then ['\\', 'f']
  else if c.toNat < 0x20 then
    ['\\', 'u', '0', '0', Text.hexDigit (c.toNat / 16), Text.hexDigit (c.toNat % 16)]
  else [c]

/-- A string between quotation marks. -/
def stringText (s : String) : String :=
  String.ofList ('"' :: s.toList.flatMap stringChar ++ ['"'])

mutual
/-- The compact text of a value. -/
def text : Json → String
  | null => "null"
  | bool true => "true"
  | bool false => "false"
  | number n => n.text
  | string s => stringText s
  | array items => "[" ++ itemsText items ++ "]"
  | fields entries => "\x7b" ++ fieldsText entries ++ "\x7d"
/-- The items of an array, separated by commas. -/
def itemsText : List Json → String
  | [] => ""
  | [j] => text j
  | j :: k :: js => text j ++ "," ++ itemsText (k :: js)
/-- The fields of an object, separated by commas. -/
def fieldsText : List (String × Json) → String
  | [] => ""
  | [(n, j)] => stringText n ++ ":" ++ text j
  | (n, j) :: e :: es => stringText n ++ ":" ++ text j ++ "," ++ fieldsText (e :: es)
end

end ChartOperator.Json
