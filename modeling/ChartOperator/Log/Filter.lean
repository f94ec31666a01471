import ChartOperator.Text.Blank
import ChartOperator.Text.Digits

set_option autoImplicit false

/-!
# Filters of logs

A filter is a list of directives such as `debug`, `target=warn` or `target[span{field}]=info`. A message is
logged if the most specific directive that is meant for it has its level or a finer one. A directive for a
span, or for a value of a field, says nothing about messages outside of spans.
-/

namespace ChartOperator.Log

/-- How fine a log is. -/
inductive Level
  | off | error | warn | info | debug | trace
  deriving DecidableEq, Repr

namespace Level

/-- All levels, the coarsest first. -/
def all : List Level := [off, error, warn, info, debug, trace]

/-- The name of a level. -/
def name : Level → String
  | off => "off"
  | error => "error"
  | warn => "warn"
  | info => "info"
  | debug => "debug"
  | trace => "trace"

/-- The place of a level, which is also a name of it. -/
def rank : Level → Nat
  | off => 0
  | error => 1
  | warn => 2
  | info => 3
  | debug => 4
  | trace => 5

/-- A text with its letters made small; names of levels have no letters but those of ASCII. -/
def lower (s : String) : String := String.ofList (s.toList.map Char.toLower)

/-- Reads a level by its name, in letters of any size, or by its place. -/
def ofText? (s : String) : Option Level :=
  let digits := match s.toList with
    | '+' :: cs => cs
    | cs => cs
  match Text.readNat? digits with
  | some n => all.find? (·.rank == n)
  | none => all.find? (·.name == lower s)

/-- The level that is asked for by name; it is `info` unless it is the name of a level that shows something. -/
def asked (s : String) : Level := ((all.filter (· != off)).find? (·.name == lower s)).getD info

end Level

/-- A part of a filter. -/
structure Directive where
  level : Level
  /-- What the names of targets begin with. -/
  target : Option String := none
  span : Option String := none
  /-- Names of fields, and whether a value is asked for. -/
  fields : List (String × Bool) := []
  deriving Repr

/-- Why a directive cannot be read. -/
inductive DirectiveFault
  | malformed
  | unknownLevel
  deriving DecidableEq, Repr

/-- The text of a fault. -/
def DirectiveFault.text : DirectiveFault → String
  | malformed => "invalid filter directive"
  | unknownLevel =>
    "error parsing level filter: expected one of \"off\", \"error\", \"warn\", \"info\", \"debug\", \"trace\", " ++
      "or a number 0-5"

namespace Directive

/-- The part of a directive that a character stands in. What was read of it is kept in reverse. -/
inductive Part
  | start
  | levelOrTarget (read : List Char)
  | span (read : List Char)
  | field (read : List Char)
  | afterFields
  | afterSpan
  | level (read : List Char)

/-- A directive may begin with this character. -/
def beginsWith (c : Char) : Bool := c.isAlphanum || c == '-' || c == ':' || c == '_' || decide (127 < c.toNat)

/-- A field: its name, and whether a value follows an equals sign. -/
def fieldOf (cs : List Char) : String × Bool := (String.ofList (cs.takeWhile (· ≠ '=')), cs.contains '=')

/-- Reads a character of a directive. -/
def next (d : Directive) (p : Part) (c : Char) : Except DirectiveFault (Directive × Part) :=
  match p with
  | .start =>
    if c = '[' then .ok (d, .span [])
    else if beginsWith c then .ok (d, .levelOrTarget [c])
    else .error .malformed
  | .levelOrTarget read =>
    let target := some (String.ofList read.reverse)
    if c = '=' then .ok ({ d with target }, .level [])
    else if c = '[' then .ok ({ d with target }, .span [])
    else .ok (d, .levelOrTarget (c :: read))
  | .span read =>
    let span := some (String.ofList read.reverse)
    if c = ']' then .ok ({ d with span }, .afterSpan)
    else if c = '\x7b' then .ok ({ d with span := if read.isEmpty then none else span }, .field [])
    else .ok (d, .span (c :: read))
  | .field read =>
    if c = '\x7d' then
      if read.isEmpty then .error .malformed
      else .ok ({ d with fields := d.fields ++ [fieldOf read.reverse] }, .afterFields)
    else .ok (d, .field (c :: read))
  | .afterFields => if c = ']' then .ok (d, .afterSpan) else .error .malformed
  | .afterSpan => if c = '=' then .ok (d, .level []) else .error .malformed
  | .level read => .ok (d, .level (c :: read))

/-- Ends a directive. One without a level shows everything. -/
def close (d : Directive) : Part → Except DirectiveFault Directive
  | .levelOrTarget read =>
    let s := String.ofList read.reverse
    match Level.ofText? s with
    | some level => .ok { d with level }
    | none => .ok { d with target := some s }
  | .level [] => .ok d
  | .level read =>
    match Level.ofText? (String.ofList read.reverse) with
    | some level => .ok { d with level }
    | none => .error .unknownLevel
  | .afterSpan => .ok d
  | _ => .error .malformed

/-- Reads a directive. -/
def read (s : String) : Except DirectiveFault Directive := do
  let (d, p) ← (Text.trim s).toList.foldlM (fun (d, p) c => next d p c) ({ level := .trace }, Part.start)
  d.close p

/-- The directive speaks of messages outside of spans. -/
def isPlain (d : Directive) : Bool := d.span.isNone && d.fields.all fun f => !f.2

/-- The names of the fields of a directive. -/
def fieldNames (d : Directive) : List String := d.fields.map (·.1)

/-- The directive is meant for messages of a target, whose only field is the message. -/
def isFor (target : String) (d : Directive) : Bool :=
  (match d.target with
    | some t => t.toList.isPrefixOf target.toList
    | none => true) && d.fieldNames.all (· == "message")

/-- One directive is at least as specific as another: by its target, then by its fields. -/
def atLeastAsSpecific (a b : Directive) : Bool :=
  let length := fun d : Directive => match d.target with
    | some t => t.utf8ByteSize + 1
    | none => 0
  decide (length b < length a) ||
    (length a == length b && decide (b.fields.length ≤ a.fields.length))

end Directive

/-- Directives, the last of equally specific ones counting. -/
abbrev Filter := List Directive

namespace Filter

/-- Reads the directives of a text between commas; those that cannot be read are left out, and what is said of
each of them is returned beside the others. -/
def read (s : String) : List String × Filter :=
  ((s.splitOn ",").filter fun p => !p.isEmpty).foldr (fun p (complaints, ds) =>
    match Directive.read p with
    | .ok d => (complaints, d :: ds)
    | .error e => (("ignoring " ++ "`" ++ p ++ "`: " ++ e.text ++ "\n") :: complaints, ds)) ([], [])

/-- The directive that counts for a target. -/
def counting? (f : Filter) (target : String) : Option Directive :=
  (f.filter fun d => d.isPlain && d.isFor target).foldl (fun best d =>
    match best with
    | none => some d
    | some b => if d.atLeastAsSpecific b then some d else some b) none

/-- Whether messages of a target and a level are logged. -/
def shows (f : Filter) (target : String) (level : Level) : Bool :=
  match f.counting? target with
  | some d => decide (level.rank ≤ d.level.rank)
  | none => false

end Filter

end ChartOperator.Log
