import ChartOperator.CommandLine.Reading

set_option autoImplicit false

/-!
# Texts of the command line

The help, the version, and what is said when a command line is refused.
-/

namespace ChartOperator.CommandLine

/-- What the operator is for. -/
def purpose : String := "Kubernetes operator managing the lifecycle and health of Helm-deployed components"

/-- How the operator is called, with the settings that matter. -/
def usage (used : List Setting) : String :=
  "Usage: " ++ operatorName ++
    (if used.isEmpty then " [OPTIONS]" else String.join (used.map fun s => " " ++ s.shown))

/-- A new line in the help of a setting. -/
def helpBreak : String := "\n          "

/-- What the help says of a setting: its meaning, its value in the environment, and the value that it has by
itself. -/
def helpOf (environment : String → Option String) (s : Setting) : String :=
  let d := s.description
  let names := match d.short with
    | some c => String.ofList [' ', ' ', '-', c, ',', ' ']
    | none => "      "
  let inEnvironment := match d.environmentName with
    | some n => " [env: " ++ n ++ "=" ++ (environment n).getD "" ++ "]"
    | none => ""
  let default := match d.default with
    | some v => " [default: " ++ v ++ "]"
    | none => ""
  let lines := (d.help ++ inEnvironment ++ default).splitOn "\n"
  names ++ s.shown ++ helpBreak ++ helpBreak.intercalate lines ++ "\n"

/-- The help. -/
def helpText (environment : String → Option String) : String :=
  purpose ++ "\n\n" ++ usage [] ++ "\n\nOptions:\n" ++ String.join (Setting.all.map (helpOf environment))

/-- The version. -/
def versionText : String := operatorName ++ " " ++ operatorVersion ++ "\n"

namespace Refusal

/-- A text between marks. -/
def marked (s : String) : String := "'" ++ s ++ "'"

/-- Something similar that may have been meant. -/
def tip (what name : String) : String := "\n\n  tip: a similar " ++ what ++ " exists: " ++ marked name

/-- What is wrong. -/
def fault : Refusal → String
  | unexpectedArgument a similar _ =>
    "unexpected argument " ++ marked a ++ " found" ++
      (match similar with
        | some s => tip "argument" ("--" ++ s.description.long)
        | none => "")
  | unexpectedValue v s _ =>
    "unexpected value " ++ marked v ++ " for " ++ marked s.shown ++ " found; no more were expected"
  | missingValue s => "a value is required for " ++ marked s.shown ++ " but none was supplied"
  | repeated s => "the argument " ++ marked s.shown ++ " cannot be used multiple times"
  | invalidNumber s v f => "invalid value " ++ marked v ++ " for " ++ marked s.shown ++ ": " ++ f.text
  | invalidSwitch s v =>
    (if v.isEmpty then "a value is required for " ++ marked s.shown ++ " but none was supplied"
      else "invalid value " ++ marked v ++ " for " ++ marked s.shown) ++
      "\n  [possible values: " ++ ", ".intercalate switchValues ++ "]" ++
      (match Text.mostSimilar? v switchValues with
        | some x => tip "value" x
        | none => "")

/-- The settings that the hint on usage shows; a wrong value needs no hint. -/
def used? : Refusal → Option (List Setting)
  | unexpectedArgument _ _ used | unexpectedValue _ _ used => some used
  | repeated _ => some []
  | missingValue _ | invalidNumber _ _ _ | invalidSwitch _ _ => none

/-- The whole text. -/
def text (r : Refusal) : String :=
  "error: " ++ r.fault ++
    (match r.used? with
      | some used => "\n\n" ++ usage used
      | none => "") ++
    "\n\nFor more information, try '--help'.\n"

end Refusal

end ChartOperator.CommandLine
