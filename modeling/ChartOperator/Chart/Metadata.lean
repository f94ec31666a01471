import ChartOperator.Yaml

set_option autoImplicit false

/-!
# Chart metadata

Of a chart's description only the annotations count. All keys and values in them are texts, as they are
spelled; the last of equal keys counts. Nothing written stands for no annotations.
-/

namespace ChartOperator

open Yaml

/-- Sets a text in an ordered list of texts. -/
def setText (name value : String) : List (String × String) → List (String × String)
  | [] => [(name, value)]
  | (n, v) :: rest =>
    if n = name then (name, value) :: rest
    else if name < n then (name, value) :: (n, v) :: rest
    else (n, v) :: setText name value rest

namespace ChartMetadata

/-- The entries of a mapping, of which there are none where nothing is written. -/
def entries (d : Document) (n : Node) : Reading (List (Node × Node)) := do
  match ← follow d n with
  | .mapping _ es => pure es
  | .scalar _ s isPlain => if s.isEmpty && isPlain then pure [] else failure
  | _ => failure

/-- The texts of a mapping in the order of their names. -/
def texts (d : Document) (n : Node) : Reading (List (String × String)) := do
  (← entries d n).foldlM (fun acc (k, v) => do return setText (← keyText d k) (← keyText d v) acc) []

/-- The annotations among the fields of a description, which may be given only once. -/
def annotationsIn (d : Document) : Option (List (String × String)) → List (Node × Node) →
    Reading (List (String × String))
  | found, [] => pure (found.getD [])
  | found, (k, v) :: rest => do
    if (← keyText d k) = "annotations" then
      if found.isSome then failure
      annotationsIn d (some (← texts d v)) rest
    else annotationsIn d found rest

/-- The annotations of a description in YAML. -/
def annotations? (cs : List Char) : Option (List (String × String)) := do
  let d ← Document.read? cs
  match d.root with
  | none => return []
  | some n => (do annotationsIn d none (← entries d n) : Reading (List (String × String))).run' 0

end ChartMetadata

end ChartOperator
