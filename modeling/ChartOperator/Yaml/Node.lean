import ChartOperator.Yaml.Token

set_option autoImplicit false

/-!
# The nodes of a YAML text

`Document.read?` builds the tree of the one document that a text may hold. Aliases stay in the tree;
the document keeps the nodes that they stand for, so a node may be reached from inside itself.
-/

namespace ChartOperator.Yaml

/-- A node of a document. -/
inductive Node
  | alias (number : Nat)
  | scalar (tag : Option String) (text : String) (isPlain : Bool)
  | sequence (tag : Option String) (items : List Node)
  | mapping (tag : Option String) (entries : List (Node × Node))
  deriving Repr, Inhabited

/-- The node that stands where nothing is written. -/
def Node.blank : Node := scalar none "" true

/-- The anchors of a document. A name gets as its number the count of the names known before it, also
when it is given again; the number then stands for the last anchor that got it. -/
structure Anchors where
  numbers : List (List Char × Nat) := []
  latest : List (Nat × Nat) := []
  nodes : Array Node := #[]

namespace Anchors

/-- Notes a name, and gives the place for the node it marks. -/
def mark (a : Anchors) (name : List Char) : Nat × Anchors :=
  let number := a.numbers.length
  let place := a.nodes.size
  (place, {
    numbers := (name, number) :: a.numbers.filter fun e => e.1 ≠ name
    latest := (number, place) :: a.latest
    nodes := a.nodes.push Node.blank })

/-- The node that a number stands for. -/
def node? (a : Anchors) (number : Nat) : Option Node := do
  let place ← a.latest.lookup number
  a.nodes[place]?

end Anchors

/-- What is left to read, the known prefixes of tags, and how many nodes and anchors were read. -/
structure Parser where
  rest : List Token
  prefixes : List (List Char × List Char) := [(['!'], ['!']), (['!', '!'], "tag:yaml.org,2002:".toList)]
  anchors : Anchors := {}
  events : Nat := 0

namespace Parser

/-- The token at the front; none at the end. -/
def front (p : Parser) : Option Token := p.rest.head?

/-- Drops the token at the front. -/
def skip (p : Parser) : Parser := { p with rest := p.rest.tail }

/-- Counts a thing that was read. -/
def count (p : Parser) : Parser := { p with events := p.events + 1 }

/-- The full tag of a handle and a suffix. -/
def fullTag? (p : Parser) (handle suffix : List Char) : Option (List Char) :=
  if handle.isEmpty then some suffix else (p.prefixes.lookup handle).map (· ++ suffix)

/-- The anchor and the tag in front of a node, each at most once, in either order. -/
def properties? (p : Parser) : Option (Option (List Char) × Option (List Char) × Parser) :=
  match p.rest with
  | .anchor a :: .tag h s :: r => (p.fullTag? h s).map fun t => (some a, some t, { p with rest := r })
  | .anchor a :: r => some (some a, none, { p with rest := r })
  | .tag h s :: .anchor a :: r => (p.fullTag? h s).map fun t => (some a, some t, { p with rest := r })
  | .tag h s :: r => (p.fullTag? h s).map fun t => (none, some t, { p with rest := r })
  | _ => some (none, none, p)

/-- Sets the node of an anchor. -/
def setAnchored (place : Option Nat) (n : Node) (p : Parser) : Parser :=
  match place with
  | some i => { p with anchors := { p.anchors with nodes := p.anchors.nodes.setIfInBounds i n } }
  | none => p

/-- The node of a missing key or value. -/
def missing (p : Parser) : Node × Parser := (.blank, p.count)

/-- Whether the item, key or value at hand is left out, since what follows belongs to the collection. -/
def omits (p : Parser) (stops : List Token) : Bool :=
  match p.front with
  | some t => stops.contains t
  | none => false

mutual

/-- Reads a node. Outside of brackets it may be a block; `atKey` permits a sequence that is not indented,
which belongs to a mapping. -/
def node? : (room : Nat) → (inBlock atKey : Bool) → Parser → Option (Node × Parser)
  | 0, _, _, _ => none
  | room + 1, inBlock, atKey, p =>
    match p.rest with
    | .alias name :: r => do
      let number ← p.anchors.numbers.lookup name
      return (.alias number, { p with rest := r }.count)
    | _ => do
      let (anchor, tag, p) ← p.properties?
      let (place, p) := match anchor with
        | some name =>
          let (place, anchors) := p.anchors.mark name
          (some place, { p with anchors })
        | none => (none, p)
      let text := tag.map String.ofList
      let (n, p) ← match p.front with
        | some (.scalar s isPlain) =>
          let bare := tag == some ['!']
          some (Node.scalar (if bare then none else text) (String.ofList s) isPlain, p.skip.count)
        | some .item =>
          if atKey then
            (flatItems? room [] p).map fun (ns, p) => (.sequence text ns, p.count.count)
          else unwritten? anchor tag p
        | some .openSequence =>
          (bracketItems? room true [] p.skip).map fun (ns, p) => (.sequence text ns, p.count.count)
        | some .openMapping =>
          (bracketEntries? room true [] p.skip).map fun (es, p) => (.mapping text es, p.count.count)
        | some .sequenceStart =>
          if inBlock then (blockItems? room [] p.skip).map fun (ns, p) => (.sequence text ns, p.count.count)
          else unwritten? anchor tag p
        | some .mappingStart =>
          if inBlock then (blockEntries? room [] p.skip).map fun (es, p) => (.mapping text es, p.count.count)
          else unwritten? anchor tag p
        | _ => unwritten? anchor tag p
      return (n, setAnchored place n p)

/-- A node of which only an anchor or a tag is written. -/
def unwritten? (anchor tag : Option (List Char)) (p : Parser) : Option (Node × Parser) :=
  if anchor.isNone && tag.isNone then none else some (.scalar (tag.map String.ofList) "" true, p.count)

/-- Reads the items of an indented sequence, `done` being those before it in reverse. -/
def blockItems? : (room : Nat) → List Node → Parser → Option (List Node × Parser)
  | 0, _, _ => none
  | room + 1, done, p =>
    match p.front with
    | some .item => do
      let p := p.skip
      let (n, p) ← if p.omits [.item, .blockEnd] then some p.missing else node? room true false p
      blockItems? room (n :: done) p
    | some .blockEnd => some (done.reverse, p.skip)
    | _ => none

/-- Reads the items of a sequence that is not indented; it ends where no dash follows. -/
def flatItems? : (room : Nat) → List Node → Parser → Option (List Node × Parser)
  | 0, _, _ => none
  | room + 1, done, p =>
    match p.front with
    | some .item => do
      let p := p.skip
      let (n, p) ← if p.omits [.item, .key, .value, .blockEnd] then some p.missing else node? room true false p
      flatItems? room (n :: done) p
    | _ => some (done.reverse, p)

/-- Reads the entries of an indented mapping. -/
def blockEntries? : (room : Nat) → List (Node × Node) → Parser → Option (List (Node × Node) × Parser)
  | 0, _, _ => none
  | room + 1, done, p =>
    match p.front with
    | some .key => do
      let p := p.skip
      let (k, p) ← if p.omits [.key, .value, .blockEnd] then some p.missing else node? room true true p
      let (v, p) ←
        if p.front = some .value then
          let p := p.skip
          if p.omits [.key, .value, .blockEnd] then some p.missing else node? room true true p
        else some p.missing
      blockEntries? room ((k, v) :: done) p
    | some .blockEnd => some (done.reverse, p.skip)
    | _ => none

/-- Reads the items of a sequence in brackets. An item may be a mapping of one entry; if its key is
marked and left out, the token behind the mark goes with it. -/
def bracketItems? : (room : Nat) → (first : Bool) → List Node → Parser → Option (List Node × Parser)
  | 0, _, _, _ => none
  | room + 1, first, done, p =>
    if p.front = some .closeSequence then some (done.reverse, p.skip) else
    if !first && p.front ≠ some .comma then none else
    let p := if first then p else p.skip
    match p.front with
    | some .closeSequence => some (done.reverse, p.skip)
    | some .key => do
      let p := p.skip
      let (k, p) ← if p.omits [.value, .comma, .closeSequence] then some p.skip.missing else node? room false false p
      let (v, p) ←
        if p.front = some .value then
          let p := p.skip
          if p.omits [.comma, .closeSequence] then some p.missing else node? room false false p
        else some p.missing
      bracketItems? room false (.mapping none [(k, v)] :: done) p.count.count
    | _ => do
      let (n, p) ← node? room false false p
      bracketItems? room false (n :: done) p

/-- Reads the entries of a mapping in brackets. -/
def bracketEntries? : (room : Nat) → (first : Bool) → List (Node × Node) → Parser →
    Option (List (Node × Node) × Parser)
  | 0, _, _, _ => none
  | room + 1, first, done, p =>
    if p.front = some .closeMapping then some (done.reverse, p.skip) else
    if !first && p.front ≠ some .comma then none else
    let p := if first then p else p.skip
    match p.front with
    | some .closeMapping => some (done.reverse, p.skip)
    | some .key => do
      let p := p.skip
      let (k, p) ← if p.omits [.value, .comma, .closeMapping] then some p.missing else node? room false false p
      let (v, p) ←
        if p.front = some .value then
          let p := p.skip
          if p.omits [.comma, .closeMapping] then some p.missing else node? room false false p
        else some p.missing
      bracketEntries? room false ((k, v) :: done) p
    | _ => do
      let (k, p) ← node? room false false p
      bracketEntries? room false ((k, .blank) :: done) p.count

end

/-- Reads the directives in front of a document: at most one version, which must be known, and at most
one prefix for each handle. -/
def directives? : (seenVersion : Bool) → (given : List (List Char × List Char)) → List Token →
    Option (Bool × List (List Char × List Char) × List Token)
  | seen, given, .version major minor :: r =>
    if seen || major != 1 || (minor != 1 && minor != 2) then none else directives? true given r
  | seen, given, .tagPrefix handle start :: r =>
    if (given.lookup handle).isSome then none else directives? seen ((handle, start) :: given) r
  | seen, given, r => some (seen, given, r)

end Parser

/-- A document: its root, unless the text is empty, the nodes that its aliases stand for, and how many
things were read. -/
structure Document where
  root : Option Node
  anchors : Anchors
  events : Nat

namespace Document

/-- A bound on how deep the reading of a text nests. -/
def room (ts : List Token) : Nat := 2 * ts.length + 4

/-- Behind a document only marks of its end may follow. -/
def isOver (ts : List Token) : Bool := ts.all fun t => t == .documentEnd

/-- Reads what a document holds, and the end of the text behind it. -/
def content? (p : Parser) (isMarked : Bool) : Option Document := do
  let (n, p) ←
    match isMarked, p.front with
    | true, none | true, some .documentEnd | true, some .documentStart
    | true, some (.version ..) | true, some (.tagPrefix ..) => some p.missing
    | _, _ => Parser.node? (room p.rest) true false p
  if isOver p.rest then some ⟨some n, p.anchors, p.events⟩ else none

/-- Reads the document of a text. -/
def read? (cs : List Char) : Option Document := do
  let ts ← tokens? cs
  match ts with
  | [] => return ⟨none, {}, 1⟩
  | .version .. :: _ | .tagPrefix .. :: _ | .documentStart :: _ =>
    let (_, given, rest) ← Parser.directives? false [] ts
    match rest with
    | .documentStart :: rest =>
      let p : Parser := { rest }
      content? { p with prefixes := given ++ p.prefixes } true
    | _ => none
  | _ => content? { rest := ts } false

end Document

end ChartOperator.Yaml
