import CaseHarness.Shell.Builtin.Call

/-!
# Settings of the shell

The options of the shell have letters and names.  Besides them the shell keeps
positional arguments, the mode bits that new files do not get, and other names
for commands.
-/

namespace CaseHarness.Shell.Builtin

/-- The names of the options, each with its letter; two of them have none of their own. -/
def optionNames : List (String × Char) :=
  [("errexit", 'e'), ("noglob", 'f'), ("ignoreeof", 'I'), ("interactive", 'i'), ("monitor", 'm'),
    ("noexec", 'n'), ("stdin", 's'), ("xtrace", 'x'), ("verbose", 'v'), ("vi", 'V'), ("emacs", 'E'),
    ("noclobber", 'C'), ("allexport", 'a'), ("notify", 'b'), ("nounset", 'u'), ("privileged", 'p'),
    ("nolog", '1'), ("debug", '2')]

def isOptionLetter (letter : Char) : Bool :=
  letter.isAlpha && optionNames.any fun entry => entry.2 = letter

/-- Turn an option on or off; of the two ways to edit lines only one can be on. -/
def setOption (state : State) (letter : Char) (turnOn : Bool) : State :=
  let without := fun letters : List Char =>
    { state with options := state.options.filter fun other => !letters.contains other }
  if !turnOn then without [letter]
  else
    let cleared := without (if ['V', 'E'].contains letter then ['V', 'E'] else [letter])
    if letter = 'm' then state.complain "can't access tty; job control turned off"
    else { cleared with options := letter :: cleared.options }

/-- Turn options on or off by their letters. -/
def setLetters (state : State) (turnOn : Bool) (letters : List Char) : State :=
  letters.foldl
    (fun current letter =>
      if !current.isRunning then current
      else if isOptionLetter letter then setOption current letter turnOn
      else current.fail ("Illegal option -" ++ String.ofList [letter]))
    state

/-- Turn an option on or off by its name. -/
def setNamed (state : State) (turnOn : Bool) (name : String) : State :=
  match optionNames.lookup name with
  | some letter => setOption state letter turnOn
  | none => state.fail ("Illegal option -o " ++ name)

/-- The options as they are, or as commands that would set them. -/
def shownOptions (state : State) (asCommands : Bool) : String :=
  let lines := optionNames.map fun (name, letter) =>
    let isOn := state.hasOption letter
    if asCommands then "set " ++ (if isOn then "-o " else "+o ") ++ name ++ "\n"
    else
      name ++ String.ofList (List.replicate (16 - name.length) ' ') ++
        (if isOn then "on" else "off") ++ "\n"
  (if asCommands then "" else "Current option settings\n") ++ String.join lines

/-- Carry out the options at the beginning of some words; what is left are arguments, if there
are any or two hyphens have ended the options. -/
def readOptions : Nat → State → List String → State × Option (List String)
  | 0, state, words => (state, some words)
  | _ + 1, state, [] => (state, none)
  | fuel + 1, state, word :: rest =>
      let cluster := fun (turnOn : Bool) (letters : List Char) =>
        let plain := letters.filter fun letter => letter ≠ 'o'
        let set := setLetters state turnOn plain
        if !set.isRunning then (set, none)
        else if plain.length = letters.length then readOptions fuel set rest
        else
          match rest with
          | name :: others =>
              let named := setNamed set turnOn name
              if named.isRunning then readOptions fuel named others else (named, none)
          | [] => (emitText set (shownOptions set !turnOn), none)
      match word.toList with
      | ['-'] =>
          let quiet := setOption (setOption state 'x' false) 'v' false
          (quiet, if rest = [] then none else some rest)
      | ['-', '-'] => (state, some rest)
      | '-' :: letters => cluster true letters
      | '+' :: letters => cluster false letters
      | _ => (state, some (word :: rest))

def replaceArguments (state : State) (arguments : List String) : State :=
  { state with arguments := arguments, optionPlace := (1, none) }

/-- Change options and arguments of the shell, or show its variables. -/
def set (state : State) (arguments : List String) : State :=
  if arguments = [] then
    emitText state (state.shownVariables "" (state.bindings.map Prod.fst))
  else
    match readOptions (arguments.length + 1) (state.withStatus 0) arguments with
    | (next, some words) => replaceArguments next words
    | (next, none) => next

/-- Drop the first positional arguments. -/
def shift (state : State) (arguments : List String) : State :=
  withNumber state (arguments.headD "1") fun count =>
    if count ≤ state.arguments.length then
      (replaceArguments state (state.arguments.drop count)).withStatus 0
    else state.fail "can't shift that many"

/-- Octal digits of a number, at least four. -/
def octalText (number : Nat) : String :=
  let digits := Nat.toDigits 8 number
  String.ofList (List.replicate (4 - digits.length) '0' ++ digits)

/-- The permissions that a mask leaves, written with letters. -/
def maskLetters (mask : Nat) : String :=
  let shown := fun (who : String) (shiftBy : Nat) =>
    let left := 7 - mask / Nat.pow 8 shiftBy % 8
    who ++ "=" ++ (if left / 4 % 2 = 1 then "r" else "") ++
        (if left / 2 % 2 = 1 then "w" else "") ++
      (if left % 2 = 1 then "x" else "")
  String.intercalate "," [shown "u" 2, shown "g" 1, shown "o" 0]

def permissionBits (letters : List Char) : Nat :=
  (if letters.contains 'r' then 4 else 0) + (if letters.contains 'w' then 2 else 0) +
    (if letters.contains 'x' then 1 else 0)

/-- Apply one clause of a mode to the bits of permissions that are left. -/
def applyClause (allowed : Nat) (clause : List Char) : Option Nat :=
  let who := clause.takeWhile fun letter => ['u', 'g', 'o', 'a'].contains letter
  match clause.drop who.length with
  | sign :: letters =>
      if letters.all fun letter => ['r', 'w', 'x', 'X', 's', 't'].contains letter then
        let bits := permissionBits letters
        let isFor := fun group : Char => who = [] || who.contains 'a' || who.contains group
        let change := fun (group : Char) (held : Nat) =>
          if !isFor group then some held
          else
            match sign with
            | '=' => some bits
            | '+' => some (held ||| bits)
            | '-' => some (held &&& (7 - bits))
            | _ => none
        match change 'u' (allowed / 64 % 8), change 'g' (allowed / 8 % 8),
            change 'o' (allowed % 8) with
        | some user, some group, some others => some (user * 64 + group * 8 + others)
        | _, _, _ => none
      else none
  | [] => none

/-- Show or change the mode bits that new files do not get. -/
def umask (state : State) (arguments : List String) : State :=
  withOptions [('S', false)] state arguments fun options =>
    match options.operands with
    | [] =>
        emitText state
          ((if options.has 'S' then maskLetters state.mask else octalText state.mask) ++ "\n")
    | word :: _ =>
        if (word.toList.head?.map Char.isDigit) = some true then
          if word.toList.all Utility.isOctal && Utility.octal word.toList ≤ 0o777 then
            { state with mask := Utility.octal word.toList, status := 0 }
          else state.fail ("Illegal number: " ++ word)
        else
          let allowed := (Path.split ',' word.toList).foldl
            (fun (held : Option Nat) clause => held.bind fun bits => applyClause bits clause)
            (some (0o777 - state.mask))
          match allowed with
          | some bits => { state with mask := 0o777 - bits, status := 0 }
          | none => state.fail ("Illegal mode: " ++ word)

/-- Show or change other names for commands. -/
def abbreviate (state : State) (arguments : List String) : State :=
  let shown := fun entry : String × String => entry.1 ++ "=" ++ quotedValue entry.2 ++ "\n"
  if arguments = [] then
    let names := State.sortedNames (state.aliases.map Prod.fst)
    emitText state (String.join (names.map fun name =>
      shown (name, (state.aliases.lookup name).getD "")))
  else
    forEach (state.withStatus 0) arguments fun current word =>
      match cutAssignment word, current.aliases.lookup word with
      | ("", some _), some known | (_, none), some known =>
          let status := current.status
          (emitText current (shown (word, known))).withStatus status
      | ("", some _), none | (_, none), none =>
          (current.say 2 ("alias: " ++ word ++ " not found\n")).withStatus 1
      | (name, some value), _ =>
          { current with aliases := (name, value) ::
              current.aliases.filter fun entry => entry.1 ≠ name }

/-- Forget other names for commands. -/
def dropAbbreviations (state : State) (arguments : List String) : State :=
  withOptions [('a', false)] (state.withStatus 0) arguments fun options =>
    if options.has 'a' then { state with aliases := [], status := 0 }
    else
      forEach (state.withStatus 0) options.operands fun current name =>
        if (current.aliases.lookup name).isSome then
          { current with aliases := current.aliases.filter fun entry => entry.1 ≠ name }
        else (current.say 2 ("unalias: " ++ name ++ " not found\n")).withStatus 1

/-- Show the limits of the process, none of which is known to be finite. -/
def ulimit (state : State) (arguments : List String) : State :=
  withOptions ("HSatfdscmlpnvwr".toList.map fun letter => (letter, false)) state arguments
      fun options =>
    if options.operands = [] then emitText state "unlimited\n"
    else state.withStatus 0

end CaseHarness.Shell.Builtin
