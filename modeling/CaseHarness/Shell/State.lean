import CaseHarness.Files.Tree
import CaseHarness.Process.Timeline
import CaseHarness.Shell.Pattern
import CaseHarness.Shell.Script
import CaseHarness.Shell.Signal
import CaseHarness.Text.Numeral

/-!
# The state of a running script

Processes run one after another, each on its own clock: a process that is
started in the background runs to its end at once, and what it writes is put
into order of time afterwards.  A process writes through descriptors; every
write is recorded with its time, and so is how long a process holds on to each
target of its descriptors.  A signal that another process sends is kept until
the clock reaches its time.
-/

namespace CaseHarness.Shell

/-- What a write ends up in, other than a file. -/
inductive Target where
  /-- A stream of the program under test. -/
  | stream (stream : Stream)
  /-- A pipe to another process of the script. -/
  | pipe (identity : Nat)
  deriving DecidableEq, Repr

/-- What a descriptor leads to. -/
inductive Channel where
  | target (target : Target)
  /-- Bytes that come from outside or from another process. -/
  | source (identity : Nat)
  | file (identity : Nat)
  | device (device : Device)
  deriving DecidableEq, Repr

/-- Bytes that can be read from some time on, and when they end. -/
structure Source where
  chunks : List (Nat × List UInt8)
  finish : Nat
  deriving Repr

def Source.bytes (source : Source) : List UInt8 :=
  source.chunks.flatMap Prod.snd

/-- A file that has been opened. -/
structure OpenFile where
  location : Location
  position : Nat
  append : Bool
  /-- Whether the file can be written, and whether it can be read. -/
  access : Bool × Bool
  deriving Repr

/-- A record of a process: what it writes, or that it holds on to a target. -/
structure Entry where
  process : Nat
  moment : Nat
  target : Target
  /-- The bytes of a write. -/
  bytes : Option (List UInt8)
  deriving Repr

/-- A signal on its way. -/
structure SentSignal where
  receiver : Nat
  signal : Nat
  moment : Nat
  deriving Repr

/-- What all processes share. -/
structure World where
  tree : Tree
  sources : List (Nat × Source) := []
  files : List (Nat × OpenFile) := []
  /-- The records, the latest first. -/
  log : List Entry := []
  /-- The next free identity of a process, pipe, source or open file. -/
  fresh : Nat := 2
  /-- Signals for processes that are waiting for another one. -/
  signals : List SentSignal := []
  deriving Repr

/-- How a process ends. -/
inductive End where
  | exited (code : Nat)
  | signaled (signal : Nat)
  /-- Killed from outside because its time was over. -/
  | killed
  deriving DecidableEq, Repr

/-- The status that stands for the end of a process. -/
def End.status : End → Nat
  | .exited code => code
  | .signaled signal => 128 + signal
  | .killed => 137

/-- Whether a process goes on, leaves a loop or a function, or has ended. -/
inductive Flow where
  | running
  | breaking (levels : Nat)
  | continuing (levels : Nat)
  | returning
  /-- An error of the shell was reported; it ends what cannot go on without the result. -/
  | failed
  | ended (ending : End)
  deriving DecidableEq, Repr

/-- A process in the background. -/
structure Job where
  process : Nat
  finish : Nat
  ending : End
  /-- The signals that the process does not notice. -/
  ignored : List Nat
  /-- Whether the shell has seen the end of the process. -/
  seen : Bool := false
  deriving Repr

/-- What a variable was before a function took it for itself. -/
structure Saved where
  name : String
  value : Option String
  /-- Whether programs saw it, and whether it kept its value. -/
  marks : Bool × Bool
  deriving DecidableEq, Repr

/-- A process that runs a script or a program. -/
structure State where
  world : World
  process : Nat
  /-- The process that started this one. -/
  parent : Nat := 0
  /-- The process that the script knows as itself. -/
  mainProcess : Nat
  /-- The name in front of diagnostics. -/
  name : String
  /-- The line of the command that runs. -/
  line : Nat := 1
  /-- The command of the shell that runs others, if there is one. -/
  caller : Option String := none
  clock : Nat := 0
  /-- When the process is killed from outside. -/
  killAt : Option Nat := none
  directory : Location
  /-- The path by which the shell knows its directory. -/
  knownPath : String := "/"
  descriptors : List (Nat × Channel)
  bindings : List (String × String) := []
  /-- The variables that programs see. -/
  exported : List String := []
  /-- The variables that keep their values. -/
  fixed : List String := []
  /-- For each function that runs, the variables that are given back at its end, and the options if
  they are. -/
  scopes : List (List Saved × Option (List Char)) := []
  arguments : List String := []
  functions : List (String × Command) := []
  aliases : List (String × String) := []
  /-- The programs that have been looked up. -/
  tracked : List String := []
  status : Nat := 0
  /-- The status of the last script whose output the present command has taken. -/
  outcome : Nat := 0
  /-- The status that an action on a signal must not change. -/
  heldStatus : Option Nat := none
  /-- The next word for options, and how much of the word before it has been read. -/
  optionPlace : Nat × Option Nat := (1, none)
  jobs : List Job := []
  lastJob : Option Nat := none
  /-- The letters of the options that are on. -/
  options : List Char := []
  /-- The mode bits that new files do not get. -/
  mask : Nat := 18
  /-- How many loops the command stands in. -/
  loops : Nat := 0
  /-- What is done on signals; the empty text lets a signal pass unnoticed, and the signal zero
  stands for the end of the process. -/
  traps : List (Nat × String) := []
  /-- The signals that the process has been started not to notice. -/
  ignored : List Nat := []
  /-- The signals whose actions are due. -/
  caught : List Nat := []
  /-- The times and numbers of the signals that other processes have sent. -/
  arriving : List (Nat × Nat) := []
  /-- Whether a program has taken the place of the shell. -/
  replaced : Bool := false
  flow : Flow := .running

namespace State

/-- Whether the process has not ended and leaves nothing. -/
def isRunning (state : State) : Bool :=
  state.flow = .running

def hasEnded (state : State) : Bool :=
  match state.flow with
  | .ended _ => true
  | _ => false

def finish (state : State) (ending : End) : State :=
  { state with flow := .ended ending }

def hasOption (state : State) (letter : Char) : Bool :=
  state.options.contains letter

/-- Let the clock reach a moment, unless the process is killed before. -/
def reach (state : State) (moment : Nat) : State :=
  if state.hasEnded then state
  else
    let next := max state.clock moment
    match state.killAt with
    | some limit =>
        if limit ≤ next then { state with clock := limit, flow := .ended .killed }
        else { state with clock := next }
    | none => { state with clock := next }

/-- A moment that no program under test lives to see. -/
def never : Nat :=
  Nat.pow 10 18

/-- Stand still until a signal lets the process go on or ends it. -/
def stop (state : State) : State :=
  match state.arriving.find? fun (_, signal) => signal = 18 || signal = 9 with
  | some (moment, 9) => (state.reach moment).finish (.signaled 9)
  | some entry =>
      { state.reach entry.1 with arriving := state.arriving.filter fun other => other ≠ entry }
  | none => (state.reach never).finish .killed

/-- What is done on a signal, if anything is. -/
def actionOn? (state : State) (signal : Nat) : Option String :=
  if !Signal.isFree signal then none
  else if state.ignored.contains signal then some ""
  else state.traps.lookup signal

def receive (state : State) (signal : Nat) : State :=
  if state.hasEnded then state
  else
    match state.actionOn? signal with
    | some "" => state
    | some _ =>
        if state.caught.contains signal then state
        else { state with caught := state.caught ++ [signal] }
    | none =>
        match Signal.effect signal with
        | .ends => state.finish (.signaled signal)
        | .stops => state.stop
        | .nothing => state

/-- Wait for a moment and receive at most some signals on the way; with `light` the wait is
over when an action is due. -/
def waitReceiving (light : Bool) (moment : Nat) : Nat → State → State
  | 0, state => state.reach moment
  | signals + 1, state =>
      match state.arriving with
      | [] => state.reach moment
      | (time, signal) :: rest =>
          if max state.clock moment < time then state.reach moment
          else
            let struck := ({ state with arriving := rest }.reach time).receive signal
            if struck.hasEnded || (light && struck.caught ≠ []) then struck
            else waitReceiving light moment signals struck

/-- Let the clock reach a moment, unless the process ends before. -/
def waitUntil (state : State) (moment : Nat) : State :=
  waitReceiving false moment state.arriving.length state

/-- Let the clock reach a moment, unless the process ends or has something to do before. -/
def waitLightly (state : State) (moment : Nat) : State :=
  waitReceiving true moment state.arriving.length state

/-- Let some time pass. -/
def spend (state : State) (time : Nat) : State :=
  state.waitUntil (state.clock + time)

/-- The time that a command of the shell itself takes. -/
def commandTime : Nat :=
  20000

/-- The time that the start of a program takes. -/
def startTime : Nat :=
  1000000

def channel? (state : State) (descriptor : Nat) : Option Channel :=
  state.descriptors.lookup descriptor

/-- Let a descriptor lead to a channel. -/
def setChannel (state : State) (descriptor : Nat) (channel : Channel) : State :=
  { state with descriptors := (descriptor, channel) ::
      (state.descriptors.filter fun entry => entry.1 ≠ descriptor) }

def closeChannel (state : State) (descriptor : Nat) : State :=
  { state with descriptors := state.descriptors.filter fun entry => entry.1 ≠ descriptor }

def record (state : State) (target : Target) (bytes : Option (List UInt8)) : State :=
  { state with world := { state.world with
      log := ⟨state.process, state.clock, target, bytes⟩ :: state.world.log } }

/-- Record that the process holds on to the targets of its descriptors until now. -/
def recordHolding (state : State) : State :=
  state.descriptors.foldl
    (fun current entry =>
      match entry.2 with
      | .target target => current.record target none
      | _ => current)
    state

def freshIdentity (state : State) : Nat × State :=
  (state.world.fresh, { state with world := { state.world with fresh := state.world.fresh + 1 } })

def setTree (state : State) (tree : Tree) : State :=
  { state with world := { state.world with tree := tree } }

def setFile (state : State) (identity : Nat) (file : OpenFile) : State :=
  { state with world := { state.world with files := (identity, file) ::
      (state.world.files.filter fun entry => entry.1 ≠ identity) } }

def setSource (state : State) (identity : Nat) (source : Source) : State :=
  { state with world := { state.world with sources := (identity, source) ::
      (state.world.sources.filter fun entry => entry.1 ≠ identity) } }

def openSource (state : State) (source : Source) : Channel × State :=
  let (identity, next) := state.freshIdentity
  (.source identity, next.setSource identity source)

/-- The bytes at a location, none if it is no file. -/
def bytesAt (state : State) (location : Location) : List UInt8 :=
  match state.world.tree.contentAt location with
  | .ok content => content
  | .error _ => []

/-- Write bytes to a descriptor; the result says why this was impossible. -/
def write (state : State) (descriptor : Nat) (bytes : List UInt8) : State × Option FileError :=
  if bytes = [] then (state, none)
  else
    match state.channel? descriptor with
    | some (.target target) => (state.record target (some bytes), none)
    | some (.device .full) => (state, some .noSpace)
    | some (.device _) => (state, none)
    | some (.file identity) =>
        match state.world.files.lookup identity with
        | none => (state, some .badDescriptor)
        | some file =>
            if file.access.1 = false then (state, some .badDescriptor)
            else
              let content := state.bytesAt file.location
              let position := if file.append then content.length else file.position
              let padded := content ++ List.replicate (position - content.length) 0
              let changed := padded.take position ++ bytes ++ padded.drop (position + bytes.length)
              ((state.setTree (state.world.tree.fill file.location changed)).setFile identity
                { file with position := position + bytes.length }, none)
    | some (.source _) | none => (state, some .badDescriptor)

def say (state : State) (descriptor : Nat) (text : String) : State :=
  (state.write descriptor (Text.Utf8.encode text)).1

/-- Take all bytes that are left behind a descriptor, each piece with the time from
which it can be read, and the time when they end. -/
def takeAll (state : State) (descriptor : Nat) :
    State × Except FileError Source :=
  match state.channel? descriptor with
  | some (.source identity) =>
      match state.world.sources.lookup identity with
      | some source =>
          (state.setSource identity { source with chunks := [] }, .ok source)
      | none => (state, .error .badDescriptor)
  | some (.file identity) =>
      match state.world.files.lookup identity with
      | some file =>
          if file.access.2 = false then (state, .error .badDescriptor)
          else
            match state.world.tree.contentAt file.location with
            | .error fault => (state, .error fault)
            | .ok content =>
                (state.setFile identity { file with position := max file.position content.length },
                  .ok ⟨[(state.clock, content.drop file.position)], state.clock⟩)
      | none => (state, .error .badDescriptor)
  | some (.device device) =>
      (state, device.content.map fun content => ⟨[(state.clock, content)], state.clock⟩)
  | some (.target _) | none => (state, .error .badDescriptor)

/-- Put the last bytes that were taken from a file back behind its descriptor; what comes from
a pipe cannot be put back. -/
def putBack (state : State) (descriptor : Nat) (count : Nat) : State :=
  match state.channel? descriptor with
  | some (.file identity) =>
      match state.world.files.lookup identity with
      | some file => state.setFile identity { file with position := file.position - count }
      | none => state
  | _ => state

/-- The first line of bytes, whether a newline ended it, and the rest. -/
def cutLine (bytes : List UInt8) : List UInt8 × Bool × List UInt8 :=
  let line := bytes.takeWhile fun byte => byte ≠ Reader.newline
  match bytes.dropWhile fun byte => byte ≠ Reader.newline with
  | [] => (line, false, [])
  | _ :: rest => (line, true, rest)

/-- Take one line from a descriptor; the flag says whether a newline ended it.  Without a
channel there is none. -/
def takeLine (state : State) (descriptor : Nat) : State × Option (List UInt8 × Bool) :=
  match state.channel? descriptor with
  | some (.source identity) =>
      match state.world.sources.lookup identity with
      | some source =>
          let early := source.chunks.takeWhile fun chunk => !chunk.2.contains Reader.newline
          let late := source.chunks.drop early.length
          let held := early.flatMap Prod.snd
          match late with
          | [] => ((state.setSource identity { source with chunks := [] }).waitUntil source.finish,
              some (held, false))
          | (moment, bytes) :: others =>
              let (line, _, rest) := cutLine bytes
              let left := { source with chunks := (moment, rest) :: others }
              ((state.setSource identity left).waitUntil moment, some (held ++ line, true))
      | none => (state, none)
  | some (.file identity) =>
      match state.world.files.lookup identity with
      | some file =>
          if file.access.2 = false then (state, none)
          else
            let (line, ended, _) := cutLine ((state.bytesAt file.location).drop file.position)
            (state.setFile identity
              { file with position := file.position + line.length + (if ended then 1 else 0) },
              some (line, ended))
      | none => (state, none)
  | some (.device _) => (state, some ([], false))
  | some (.target _) | none => (state, none)

/-- Copy timed pieces to a descriptor, each as soon as it can be read; the result says why this was
impossible. -/
def copy (state : State) (descriptor : Nat) : List (Nat × List UInt8) → State × Option FileError
  | [] => (state, none)
  | (moment, bytes) :: rest =>
      let ready := state.waitUntil moment
      if ready.hasEnded then (ready, none)
      else
        match ready.write descriptor bytes with
        | (written, none) => copy written descriptor rest
        | (refused, some fault) => (refused, some fault)

def valueOf? (state : State) (name : String) : Option String :=
  state.bindings.lookup name

/-- Give a variable a value. -/
def assign (state : State) (name value : String) : State :=
  { state with
    bindings := (name, value) :: (state.bindings.filter fun entry => entry.1 ≠ name)
    exported :=
      if state.hasOption 'a' && !state.exported.contains name then state.exported ++ [name]
      else state.exported
    tracked := if name = "PATH" then [] else state.tracked }

/-- Forget a variable. -/
def unset (state : State) (name : String) : State :=
  { state with
    bindings := state.bindings.filter fun entry => entry.1 ≠ name
    exported := state.exported.filter fun other => other ≠ name }

/-- The value that a program would find for the search path of programs. -/
def searchPath (state : State) : Option String :=
  state.valueOf? "PATH"

/-- Set the status of the last command. -/
def withStatus (state : State) (status : Nat) : State :=
  { state with status := status }

/-- Report a diagnostic of the shell on the error output. -/
def complain (state : State) (text : String) : State :=
  let label :=
    match state.caller with
    | some caller => caller ++ ": "
    | none => ""
  state.say 2
    (state.name ++ ": " ++ Text.Numeral.decimal state.line ++ ": " ++ label ++ text ++ "\n")

/-- Report an error of the shell, after which what it belongs to cannot go on. -/
def fail (state : State) (text : String) : State :=
  if state.hasEnded then state
  else { state.complain text with status := 2, flow := .failed }

/-- A process that this one starts, with the same descriptors and directory.  Of what is done
on signals it keeps only what lets them pass. -/
def child (state : State) : State :=
  let (identity, next) := state.freshIdentity
  { next with
    process := identity
    parent := state.process
    killAt := none
    jobs := []
    traps := state.traps.filter fun entry => entry.2 = "" && entry.1 ≠ 0
    caught := []
    arriving := []
    flow := .running }

/-- What remains of a process that has ended: its world, with a record of how long it
held on to its descriptors. -/
def remains (state : State) : World :=
  state.recordHolding.world

/-- Go on after another process has changed the world, and expect the signals that it has sent
to this one. -/
def adopt (state : State) (world : World) : State :=
  let isMine := fun sent : SentSignal => sent.receiver = state.process
  let mine := (world.signals.filter isMine).map fun sent => (sent.moment, sent.signal)
  { state with
    world := { world with signals := world.signals.filter fun sent => !isMine sent }
    arriving := (state.arriving ++ mine).mergeSort fun first second => first.1 ≤ second.1 }

/-- How a process has ended; one that has run through exits with its last status. -/
def ending (state : State) : End :=
  match state.flow with
  | .ended ending => ending
  | _ => .exited (state.status % 256)

/-- Cut off at the present moment what a process in the background does later; it lets go of
its descriptors at `release`. -/
def cutJob (state : State) (job : Job) (release : Nat) (ending : End) : State :=
  let now := state.clock
  let kept := state.world.log.filterMap fun entry =>
    if entry.process = job.process ∧ now < entry.moment then
      match entry.bytes with
      | some _ => none
      | none => some { entry with moment := release }
    else some entry
  { state with
    world := { state.world with log := kept }
    jobs := state.jobs.map fun other =>
      if other.process = job.process then { other with finish := release, ending := ending }
      else other }

/-- Let a process in the background receive a signal. -/
def strikeJob (state : State) (job : Job) (signal : Nat) : State :=
  if job.finish ≤ state.clock || (Signal.isFree signal && job.ignored.contains signal) then state
  else
    match Signal.effect signal with
    | .ends => state.cutJob job state.clock (.signaled signal)
    | .stops => state.cutJob job never .killed
    | .nothing => state

/-- Send a signal to a process; the result says whether there is such a process. -/
def send (state : State) (signal receiver : Nat) : State × Bool :=
  if receiver = state.process then
    (if signal = 0 then state else state.receive signal, true)
  else
    match state.jobs.find? fun job => job.process = receiver with
    | some job =>
        if job.finish ≤ state.clock then (state, false)
        else (if signal = 0 then state else state.strikeJob job signal, true)
    | none =>
        if receiver = state.mainProcess ∨ receiver = state.parent then
          (if signal = 0 then state
            else { state with world := { state.world with
              signals := ⟨receiver, signal, state.clock⟩ :: state.world.signals } }, true)
        else (state, false)

end State

/-- The pieces written to a target, in order of time. -/
def World.writesTo (world : World) (target : Target) : List (Nat × List UInt8) :=
  (world.log.reverse.filterMap fun entry =>
    if entry.target = target then entry.bytes.map fun bytes => (entry.moment, bytes)
    else none).mergeSort fun first second => first.1 ≤ second.1

/-- When the last process let go of a target. -/
def World.endOf (world : World) (target : Target) : Nat :=
  (world.log.filter fun entry => entry.target = target).foldl
    (fun latest entry => max latest entry.moment) 0

end CaseHarness.Shell
