import CaseHarness.Text.Numeral
import CaseHarness.Text.Search

/-!
# Command-line arguments

The options of the harness stand before the first positional word; that word
and all that follow it are the invocation, taken untouched.  A word that merely
looks like an option but is not one of the known spellings is positional, too.

An option that takes its value from the next word is *pending* until the word
after that value is seen, so a fault in its value is reported only then; a flag
that is given a value is a fault at once.
-/

namespace CaseHarness.CommandLine

/-- The options that take a value. -/
inductive ValueOption where
  | language
  | config
  | timeout
  | report
  deriving DecidableEq, Repr

/-- The options that take no value. -/
inductive Flag where
  | verbose
  | help
  | version
  deriving DecidableEq, Repr

/-- The values of the options that were given. -/
structure Options where
  language : Option String := none
  config : Option String := none
  timeout : Option Nat := none
  report : Option String := none
  verbose : Bool := false
  deriving DecidableEq, Repr

/-- A command line that asks for a run: the options, and the program with its arguments
and the test case. -/
structure Arguments where
  options : Options
  invocation : List String
  deriving DecidableEq, Repr

/-- What is wrong with a command line. -/
inductive Fault where
  | missingValue (option : ValueOption)
  | invalidTimeout (value : String) (reason : Text.Numeral.Fault)
  | repeatedOption (option : ValueOption)
  | repeatedVerbose
  | unexpectedValue (flag : Flag) (value : String)
  deriving DecidableEq, Repr

/-- Why reading ends without arguments. -/
inductive Stop where
  | help
  | version
  | fault (fault : Fault)
  deriving DecidableEq, Repr

/-- The name of a value option after its two hyphens. -/
def ValueOption.name : ValueOption → String
  | language => "lang"
  | config => "config"
  | timeout => "timeout"
  | report => "report"

/-- The name of a flag after its two hyphens. -/
def Flag.name : Flag → String
  | verbose => "verbose"
  | help => "help"
  | version => "version"

def ValueOption.ofName? (name : String) : Option ValueOption :=
  [ValueOption.language, .config, .timeout, .report].find? fun option => option.name = name

def Flag.ofName? (name : String) : Option Flag :=
  [Flag.verbose, .help, .version].find? fun flag => flag.name = name

def ValueOption.ofLetter? : Char → Option ValueOption
  | 'c' => some .config
  | 't' => some .timeout
  | _ => none

def Flag.ofLetter? : Char → Option Flag
  | 'v' => some .verbose
  | 'h' => some .help
  | 'V' => some .version
  | _ => none

/-- Whether a letter stands for an option. -/
def isLetter (character : Char) : Bool :=
  (ValueOption.ofLetter? character).isSome || (Flag.ofLetter? character).isSome

/-- A cluster of single letters: flags, and at most one value option with what follows it. -/
structure Cluster where
  flags : List Flag
  option : Option (ValueOption × Option String)
  deriving DecidableEq, Repr

/-- Read the letters of a cluster; a value option takes the rest as its value. -/
def Cluster.ofLetters : List Char → Cluster
  | [] => ⟨[], none⟩
  | letter :: rest =>
      match ValueOption.ofLetter? letter with
      | some option =>
          ⟨[], some (option, if rest = [] then none else some (String.ofList rest))⟩
      | none =>
          let others := Cluster.ofLetters rest
          ⟨(Flag.ofLetter? letter).toList ++ others.flags, others.option⟩

/-- What a word is before the first positional one. -/
inductive Token where
  /-- Two hyphens. -/
  | separator
  | flag (flag : Flag)
  | flagValue (flag : Flag) (value : String)
  | option (option : ValueOption)
  | optionValue (option : ValueOption) (value : String)
  | cluster (cluster : Cluster)
  /-- A positional word, or the value of a pending option. -/
  | plain
  deriving DecidableEq, Repr

/-- Read a word that begins with two hyphens; `body` is what follows them. -/
def Token.ofLong (body : List Char) : Token :=
  let name := String.ofList (body.takeWhile fun character => character ≠ '=')
  let value := Text.after? ['='] (body.dropWhile fun character => character ≠ '=')
  match ValueOption.ofName? name, Flag.ofName? name, value.map String.ofList with
  | some wanted, _, none => .option wanted
  | some wanted, _, some text => .optionValue wanted text
  | none, some raised, none => .flag raised
  | none, some raised, some text => .flagValue raised text
  | none, none, _ => .plain

def Token.ofWord (word : String) : Token :=
  match word.toList with
  | ['-', '-'] => .separator
  | '-' :: '-' :: body => .ofLong body
  | '-' :: letter :: letters =>
      if (letter :: letters).all isLetter then .cluster (Cluster.ofLetters (letter :: letters))
      else .plain
  | _ => .plain

/-- An option that waits for its value, or whose value has not been examined yet. -/
structure Pending where
  option : ValueOption
  value : Option String
  deriving DecidableEq, Repr

/-- Give an option its value, which must be its first. -/
def Options.assign (options : Options) (option : ValueOption) (value : String) :
    Except Stop Options :=
  match option with
  | .language =>
      if options.language.isSome then .error (.fault (.repeatedOption option))
      else .ok { options with language := some value }
  | .config =>
      if options.config.isSome then .error (.fault (.repeatedOption option))
      else if value.isEmpty then .error (.fault (.missingValue option))
      else .ok { options with config := some value }
  | .timeout =>
      if options.timeout.isSome then .error (.fault (.repeatedOption option))
      else
        match Text.Numeral.bounded value.toList with
        | .ok seconds => .ok { options with timeout := some seconds }
        | .error reason => .error (.fault (.invalidTimeout value reason))
  | .report =>
      if options.report.isSome then .error (.fault (.repeatedOption option))
      else if value.isEmpty then .error (.fault (.missingValue option))
      else .ok { options with report := some value }

def Options.raise (options : Options) : Flag → Except Stop Options
  | .verbose =>
      if options.verbose then .error (.fault .repeatedVerbose)
      else .ok { options with verbose := true }
  | .help => .error .help
  | .version => .error .version

/-- Apply flags from left to right. -/
def Options.raiseAll (options : Options) : List Flag → Except Stop Options
  | [] => .ok options
  | flag :: flags =>
      match options.raise flag with
      | .ok raised => raised.raiseAll flags
      | .error stop => .error stop

def Options.settle (options : Options) : Option Pending → Except Stop Options
  | none => .ok options
  | some ⟨option, none⟩ => .error (.fault (.missingValue option))
  | some ⟨option, some value⟩ => options.assign option value

/-- Apply a cluster; a value option without a value of its own becomes pending. -/
def Options.applyCluster (options : Options) (cluster : Cluster) :
    Except Stop (Options × Option Pending) :=
  match options.raiseAll cluster.flags with
  | .error stop => .error stop
  | .ok raised =>
      match cluster.option with
      | none => .ok (raised, none)
      | some (option, none) => .ok (raised, some ⟨option, none⟩)
      | some (option, some value) => (raised.assign option value).map fun next => (next, none)

/-- Settle what is pending and take the remaining words as the invocation. -/
def finish (options : Options) (pending : Option Pending) (invocation : List String) :
    Except Stop Arguments :=
  (options.settle pending).map fun settled => ⟨settled, invocation⟩

/-- Read the words that follow the name of the program. -/
def readFrom (options : Options) (pending : Option Pending) :
    List String → Except Stop Arguments
  | [] => finish options pending []
  | word :: rest =>
      match Token.ofWord word with
      | .flagValue flag value => .error (.fault (.unexpectedValue flag value))
      | .separator => finish options pending rest
      | .plain =>
          match pending with
          | some ⟨option, none⟩ => readFrom options (some ⟨option, some word⟩) rest
          | _ => finish options pending (word :: rest)
      | .flag flag =>
          match options.settle pending with
          | .error stop => .error stop
          | .ok settled =>
              match settled.raise flag with
              | .error stop => .error stop
              | .ok raised => readFrom raised none rest
      | .option option =>
          match options.settle pending with
          | .error stop => .error stop
          | .ok settled => readFrom settled (some ⟨option, none⟩) rest
      | .optionValue option value =>
          match options.settle pending with
          | .error stop => .error stop
          | .ok settled =>
              match settled.assign option value with
              | .error stop => .error stop
              | .ok assigned => readFrom assigned none rest
      | .cluster cluster =>
          match options.settle pending with
          | .error stop => .error stop
          | .ok settled =>
              match settled.applyCluster cluster with
              | .error stop => .error stop
              | .ok (applied, waiting) => readFrom applied waiting rest

/-- Read a whole command line, whose first word is the name of the program. -/
def read (words : List String) : Except Stop Arguments :=
  readFrom {} none words.tail

@[simp]
theorem readFrom_nil (options : Options) (pending : Option Pending) :
    readFrom options pending [] = finish options pending [] :=
  rfl

end CaseHarness.CommandLine
