import ChartOperator.Json.Writer
import ChartOperator.Text.Quoted

set_option autoImplicit false

/-!
# Lines of a log

How a message at the level `info` is written: as a plain line, as a line with colours, or as a JSON object.
Controls that a terminal would obey are made visible in lines that are not JSON.
-/

namespace ChartOperator.Log

/-- How messages are written. -/
inductive Style
  | plain
  | coloured
  | json
  deriving DecidableEq, Repr

/-- The characters that stand for a character of a message. -/
def visibleChar (c : Char) : List Char :=
  if c = '\x1b' ∨ c = '\x07' ∨ c = '\x08' ∨ c = '\x0c' ∨ c = '\x7f' then
    ['\\', 'x', Text.hexDigit (c.toNat / 16), Text.hexDigit (c.toNat % 16)]
  else if 0x80 ≤ c.toNat ∧ c.toNat ≤ 0x9f then ['\\', 'u', '\x7b'] ++ Text.hex c.toNat ++ ['\x7d']
  else [c]

/-- A message without controls that a terminal would obey. -/
def visible (s : String) : String := String.ofList (s.toList.flatMap visibleChar)

/-- A text that a terminal shows in a style. -/
def styled (code s : String) : String := "\x1b[" ++ code ++ "m" ++ s ++ "\x1b[0m"

/-- The codes of styles. -/
def dim : String := "2"
def green : String := "32"

/-- The line of a message, without its end. -/
def line (style : Style) (time target message : String) : String :=
  match style with
  | .plain => time ++ "  INFO " ++ target ++ ": " ++ visible message
  | .coloured =>
    styled dim time ++ " " ++ styled green " INFO" ++ " " ++ styled dim target ++ styled dim ":" ++ " " ++
      visible message
  | .json =>
    (Json.fields [
      ("timestamp", .string time),
      ("level", .string "INFO"),
      ("fields", .object [("message", .string message)]),
      ("target", .string target)]).text

end ChartOperator.Log
