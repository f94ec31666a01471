import ChartOperator.Cluster.Watch
import ChartOperator.World

set_option autoImplicit false

/-!
# A watch in a world

Runs a watch against a scripted server for a fixed time. The server answers list requests and opens
streams of lines as it was told; when the script is at its end a request is never answered, and a stream
stays open and silent. What the watch reports is taken by a `Consumer`, which may also have work that
falls due by itself.
-/

namespace ChartOperator

open Cluster

/-- Takes the reports of a watch. Without a new state it has crashed. -/
structure Consumer (α σ : Type) where
  take : Report α → σ → World → Option σ × World
  /-- When the next work falls due. -/
  due? : σ → Option Nat
  /-- Does the work that falls due next. -/
  work : σ → World → Option σ × World

/-- Something that a scripted stream does. -/
structure StreamEntry where
  /-- The time before it. -/
  wait : Duration
  /-- A change of the world, with what it leaves in the log; none if it crashes. -/
  act : Option (World → Option (Json × World))
  /-- A line that is sent. -/
  line : Option String
  /-- The stream ends. -/
  closes : Bool

/-- The answer of a scripted server to a watch request. -/
inductive Stream
  | response (r : Response)
  | entries (es : List StreamEntry)

/-- What is logged beside calls. -/
inductive LogItem
  | call (c : Call)
  | step (result : Json)
  /-- A request that was answered. -/
  | request (target : String)

/-- A watch that is being run. -/
structure WatchRun (α σ : Type) where
  world : World
  state : σ
  watcher : Watcher α := .start
  lists : List Response
  streams : List Stream
  /-- The rest of the open stream. -/
  pending : List StreamEntry := []
  /-- The failures in a row. -/
  failures : Nat := 0
  /-- What was logged, last first, with the time. -/
  log : List (Nat × LogItem) := []
  /-- When the run ends. -/
  deadline : Nat
  /-- A consumer that has crashed ends the run. -/
  crashed : Bool := false
  /-- Nothing more will be reported. -/
  silent : Bool := false

namespace WatchRun

variable {α σ : Type}

/-- Moves the traced calls to the log. -/
def absorb (r : WatchRun α σ) : WatchRun α σ :=
  { r with
    log := r.world.trace.map (fun t => (t.time, .call t.call)) ++ r.log
    world := { r.world with trace := [] } }

/-- Logs something. -/
def note (r : WatchRun α σ) (i : LogItem) : WatchRun α σ := { r with log := (r.world.clock, i) :: r.log }

/-- The outcome of a consumer. -/
def settle (r : WatchRun α σ) (o : Option σ × World) : WatchRun α σ :=
  match o with
  | (some state, world) => { r with state, world }.absorb
  | (none, world) => { r with world, crashed := true }.absorb

/-- Does the work that falls due before a time. -/
def workUntil (c : Consumer α σ) (time : Nat) : (room : Nat) → WatchRun α σ → WatchRun α σ
  | 0, r => r
  | room + 1, r =>
    if r.crashed then r else
    match c.due? r.state with
    | none => r
    | some due =>
      if time ≤ due then r
      else
        let world := { r.world with clock := max r.world.clock due }
        workUntil c time room (r.settle (c.work r.state world))

/-- A bound on how often work falls due within a run. -/
def workRoom (r : WatchRun α σ) : Nat := r.deadline + 1

/-- Lets time pass, to the end of the run at most. -/
def passTo (c : Consumer α σ) (time : Nat) (r : WatchRun α σ) : WatchRun α σ :=
  let r := workUntil c (min time r.deadline) r.workRoom r
  if r.deadline ≤ time then { r with world := { r.world with clock := r.deadline }, silent := true }
  else { r with world := { r.world with clock := max r.world.clock time } }

/-- Goes on with what a change of the watcher yields. -/
def report (c : Consumer α σ) (r : WatchRun α σ) (o : Option (Report α) × Watcher α) : WatchRun α σ :=
  let r := { r with watcher := o.2 }
  match o.1 with
  | none => r
  | some .failed =>
    passTo c (r.world.clock + (pauseAfter r.failures).nanoseconds) { r with failures := r.failures + 1 }
  | some x => { r with failures := 0 }.settle (c.take x r.state r.world)

/-- A request that is never answered. -/
def unanswered (r : WatchRun α σ) : WatchRun α σ := { r with silent := true }

/-- Asks for a list. -/
def list (c : Consumer α σ) (s : Subject α) (continueAt : Option String) (objects : List α)
    (r : WatchRun α σ) : WatchRun α σ :=
  match checkTarget (s.listTarget continueAt) with
  | .error e => r.report c (Watcher.afterList objects (.error e))
  | .ok target =>
    match r.lists with
    | [] => r.unanswered
    | x :: rest =>
      let page := x.read (page? s.read)
      { r.note (.request target) with lists := rest }.report c (Watcher.afterList objects page)

/-- The lines of a body that is sent at once, after which the stream ends. -/
def entriesOf (body : String) : List StreamEntry :=
  (body.splitOn "\n").map fun l => ⟨⟨0⟩, none, some l, false⟩

/-- Asks for the changes since a version. -/
def openStream (c : Consumer α σ) (s : Subject α) (version : String) (r : WatchRun α σ) : WatchRun α σ :=
  match checkTarget (s.watchTarget version) with
  | .error _ => r.report c (Watcher.afterOpen version false)
  | .ok target =>
    match r.streams with
    | [] => r.unanswered
    | .entries es :: rest =>
      { r.note (.request target) with streams := rest, pending := es }.report c (Watcher.afterOpen version true)
    | .response x :: rest =>
      let r := r.note (.request target)
      match x.body with
      | .error _ => { r with streams := rest }.report c (Watcher.afterOpen version false)
      | .ok body =>
        let es := entriesOf body ++ [⟨⟨0⟩, none, none, true⟩]
        { r with streams := rest, pending := es }.report c (Watcher.afterOpen version true)

/-- Lets a change of the world happen. -/
def act (r : WatchRun α σ) : Option (World → Option (Json × World)) → WatchRun α σ
  | none => r
  | some f =>
    match f r.world with
    | none => { r with crashed := true }
    | some (result, world) => ({ r with world }.absorb).note (.step result)

/-- Follows the open stream by one entry. -/
def follow (c : Consumer α σ) (s : Subject α) (version : String) (r : WatchRun α σ) : WatchRun α σ :=
  match r.pending with
  | [] => { r with silent := true }
  | e :: rest =>
    let r := passTo c (r.world.clock + e.wait.nanoseconds) { r with pending := rest }
    if r.silent || r.crashed then r else
    let r := r.act e.act
    if r.crashed then r else
    if e.closes then { r with watcher := .listed version, pending := [] } else
    match e.line with
    | none => r
    | some l =>
      if Json.isCut l.toList then r
      else r.report c (Watcher.afterLine version ((Json.readWritten? l.toList).bind (notice? s.read)))

/-- Makes the watch go on by one request or one entry of a stream. -/
def step (c : Consumer α σ) (s : Subject α) (r : WatchRun α σ) : WatchRun α σ :=
  match r.watcher with
  | .listing continueAt objects => r.list c s continueAt objects
  | .listed version => r.openStream c s version
  | .following version => r.follow c s version

/-- Runs the watch until it is silent. -/
def run (c : Consumer α σ) (s : Subject α) : (room : Nat) → WatchRun α σ → WatchRun α σ
  | 0, r => r
  | room + 1, r => if r.silent || r.crashed then r else run c s room (r.step c s)

/-- How often a stream is looked at. -/
def streamSize : Stream → Nat
  | .response (.answered _ body) => body.length + 3
  | .response (.lost _) => 3
  | .entries es => es.length + 3

/-- A bound on the steps of a watch: each uses up a part of the script, or fails and pauses. -/
def size (r : WatchRun α σ) : Nat :=
  r.lists.length + (r.streams.map streamSize).foldl (· + ·) 0 + r.deadline / (pauseAfter 0).nanoseconds + 3

/-- Runs the watch to the end of its time. -/
def toEnd (c : Consumer α σ) (s : Subject α) (r : WatchRun α σ) : WatchRun α σ :=
  let r := run c s r.size r
  if r.crashed then r else passTo c r.deadline r

end WatchRun

end ChartOperator
