import CaseHarness.Shell.State

/-!
# Redirecting descriptors

A redirection lets a descriptor lead to a file, to what another descriptor leads
to, or to nothing.  A path may lead to an open descriptor of the process itself;
what that one leads to is then opened once more.
-/

namespace CaseHarness.Shell.State

/-- The location of the file that stands behind an open descriptor, if a location leads to one. -/
def locationBehind (state : State) (location : Location) : Location :=
  match state.world.tree.node? location with
  | some (.device (.descriptor number _)) =>
      match state.channel? number with
      | some (.file identity) =>
          match state.world.files.lookup identity with
          | some file => file.location
          | none => location
      | _ => location
  | _ => location

/-- Open what stands at a location.  The flags say whether it can be written and whether it can be
read. -/
def openAt (state : State) (location : Location) (append : Bool) (access : Bool × Bool) :
    Except FileError (State × Channel) :=
  match state.world.tree.node? location with
  | some (.device (.descriptor number _)) =>
      match state.channel? number with
      | some channel => .ok (state, channel)
      | none => .error .notFound
  | some (.device .terminal) => .error .noDevice
  | some (.device device) => .ok (state, .device device)
  | _ =>
      let (identity, next) := state.freshIdentity
      .ok (next.setFile identity ⟨location, 0, append, access⟩, .file identity)

def openToRead (state : State) (path : String) : Except FileError (State × Channel) :=
  match state.world.tree.locate state.directory path with
  | .error fault => .error fault
  | .ok location => state.openAt (state.locationBehind location) false (false, true)

/-- Open a file to write it; with `empty` what it holds is dropped first. -/
def openToWrite (state : State) (path : String) (empty append readable : Bool) :
    Except FileError (State × Channel) :=
  match state.world.tree.writable state.directory path with
  | .error fault => .error fault
  | .ok place =>
      let location := state.locationBehind place
      let tree := state.world.tree
      let ready :=
        if empty || (tree.node? location).isNone then tree.fill location [] else tree
      (state.setTree ready).openAt location append (true, readable)

/-- Whether a path names a file that holds bytes of its own. -/
def isOccupied (state : State) (path : String) : Bool :=
  match state.world.tree.locate state.directory path with
  | .error _ => false
  | .ok place =>
      match state.world.tree.node? (state.locationBehind place) with
      | some (.file ..) | some (.program _) => true
      | _ => false

/-- What is said when a file cannot be opened; without a file, `absence` is the reason. -/
def openFault (attempt path absence : String) (fault : FileError) : String :=
  let reason :=
    match fault with
    | .notFound | .notDirectory => absence
    | other => other.reason
  attempt ++ " " ++ path ++ ": " ++ reason

/-- Let a descriptor lead to what has been opened, or fail. -/
def redirectTo (state : State) (descriptor : Nat) (attempt path absence : String)
    (opened : Except FileError (State × Channel)) : State :=
  match opened with
  | .ok (next, channel) => next.setChannel descriptor channel
  | .error fault => state.fail (openFault attempt path absence fault)

/-- Let a descriptor lead to what another one leads to; a hyphen closes it. -/
def redirectToShared (state : State) (descriptor : Nat) (target : String) : State :=
  if target = "-" then state.closeChannel descriptor
  else
    match (Text.Numeral.digits? target.toList) with
    | some other =>
        if other = descriptor then state
        else
          match state.channel? other with
          | some channel => state.setChannel descriptor channel
          | none => state.fail (target ++ ": Bad file descriptor")
    | none => state.fail (target ++ ": Bad file descriptor")

/-- Whether a word names a descriptor that can be shared. -/
def namesDescriptor (target : String) : Bool :=
  target = "-" || (target.length = 1 && target.toList.all Char.isDigit)

/-- Carry out a redirection whose target has been expanded. -/
def redirect (state : State) (descriptor : Nat) (direction : Direction) (target : String) : State :=
  let created := fun opened : Except FileError (State × Channel) =>
    state.redirectTo descriptor "cannot create" target "Directory nonexistent" opened
  match direction with
  | .read =>
      state.redirectTo descriptor "cannot open" target "No such file" (state.openToRead target)
  | .write forced =>
      if !forced && state.hasOption 'C' && state.isOccupied target then
        created (.error (.other "File exists"))
      else created (state.openToWrite target true false false)
  | .append => created (state.openToWrite target false true false)
  | .both => created (state.openToWrite target false false true)
  | .share => state.redirectToShared descriptor target
  | .inline =>
      let (channel, next) :=
        state.openSource ⟨[(state.clock, Text.Utf8.encode target)], state.clock⟩
      next.setChannel descriptor channel

end CaseHarness.Shell.State
