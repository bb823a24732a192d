/-!
# Options of commands

A command takes single letters behind a hyphen, some of which need an argument.
The shell reads options up to the first operand; programs find them among the
operands as well, and give some of them a longer name behind two hyphens.  Two
hyphens alone end the options.
-/

namespace CaseHarness.Shell

/-- The options that a command knows. -/
structure OptionTable where
  /-- The letters, and whether they need an argument. -/
  letters : List (Char × Bool)
  /-- The longer names of letters. -/
  names : List (String × Char) := []
  deriving Repr

/-- The options that have been given, each with its argument, and the operands. -/
structure Options where
  given : List (Char × String) := []
  operands : List String := []
  deriving DecidableEq, Repr

/-- Why the words of a command are no options. -/
inductive OptionFault where
  | unknown (letter : Char)
  | noArgument (letter : Char)
  | unknownName (word : String)
  | ambiguousName (word : String)
  | noArgumentFor (name : String)
  | needlessArgument (name : String)
  deriving DecidableEq, Repr

/-- What the shell says about wrong options. -/
def OptionFault.shellText : OptionFault → String
  | unknown letter => "Illegal option -" ++ String.ofList [letter]
  | noArgument letter => "No arg for -" ++ String.ofList [letter] ++ " option"
  | unknownName word | ambiguousName word | noArgumentFor word | needlessArgument word =>
      "Illegal option " ++ word

/-- What programs say about wrong options. -/
def OptionFault.text : OptionFault → String
  | unknown letter => "invalid option -- '" ++ String.ofList [letter] ++ "'"
  | noArgument letter => "option requires an argument -- '" ++ String.ofList [letter] ++ "'"
  | unknownName word => "unrecognized option '" ++ word ++ "'"
  | ambiguousName word => "option '" ++ word ++ "' is ambiguous"
  | noArgumentFor name => "option '--" ++ name ++ "' requires an argument"
  | needlessArgument name => "option '--" ++ name ++ "' doesn't allow an argument"

namespace Options

def has (options : Options) (letter : Char) : Bool :=
  options.given.any fun entry => entry.1 = letter

def argument? (options : Options) (letter : Char) : Option String :=
  ((options.given.filter fun entry => entry.1 = letter).getLast?).map Prod.snd

/-- Whichever of some options has been given last. -/
def lastOf? (options : Options) (letters : List Char) : Option Char :=
  ((options.given.filter fun entry => letters.contains entry.1).getLast?).map Prod.fst

/-- The options in a cluster of letters and the words that follow, and the words that are left. -/
def cluster (table : OptionTable) : List Char → List String →
    Except OptionFault (List (Char × String) × List String)
  | [], words => .ok ([], words)
  | letter :: rest, words =>
      match table.letters.lookup letter with
      | none => .error (.unknown letter)
      | some false =>
          (cluster table rest words).map fun (others, left) => ((letter, "") :: others, left)
      | some true =>
          match rest, words with
          | _ :: _, _ => .ok ([(letter, String.ofList rest)], words)
          | [], word :: others => .ok ([(letter, word)], others)
          | [], [] => .error (.noArgument letter)

/-- The options up to the first operand, as the shell reads them. -/
def leading (table : OptionTable) : Nat → List String → Except OptionFault Options
  | 0, words => .ok ⟨[], words⟩
  | _ + 1, [] => .ok {}
  | fuel + 1, word :: rest =>
      match word.toList with
      | ['-', '-'] => .ok ⟨[], rest⟩
      | '-' :: letter :: letters =>
          match cluster table (letter :: letters) rest with
          | .error fault => .error fault
          | .ok (found, left) =>
              (leading table fuel left).map fun others => ⟨found ++ others.given, others.operands⟩
      | _ => .ok ⟨[], word :: rest⟩

/-- The option that a longer name stands for; an unambiguous beginning of it will do. -/
def named (table : OptionTable) (word name : String) : Except OptionFault (String × Char) :=
  match table.names.find? fun entry => entry.1 = name with
  | some entry => .ok entry
  | none =>
      match table.names.filter fun entry => name.toList.isPrefixOf entry.1.toList with
      | [] => .error (.unknownName word)
      | [entry] => .ok entry
      | _ => .error (.ambiguousName word)

/-- The option behind two hyphens, and the words that are left. -/
def long (table : OptionTable) (word : String) (words : List String) :
    Except OptionFault ((Char × String) × List String) :=
  let written := word.toList.drop 2
  let name := written.takeWhile fun character => character ≠ '='
  match named table word (String.ofList name) with
  | .error fault => .error fault
  | .ok (known, letter) =>
      let needsArgument := (table.letters.lookup letter).getD false
      match written.drop name.length, words with
      | '=' :: value, _ =>
          if needsArgument then .ok ((letter, String.ofList value), words)
          else .error (.needlessArgument known)
      | _, _ =>
          if needsArgument then
            match words with
            | value :: rest => .ok ((letter, value), rest)
            | [] => .error (.noArgumentFor known)
          else .ok ((letter, ""), words)

/-- The options among the operands, as programs read them; with `early` they end at the first
operand. -/
def among (table : OptionTable) (early : Bool) : Nat → List String → Except OptionFault Options
  | 0, words => .ok ⟨[], words⟩
  | _ + 1, [] => .ok {}
  | fuel + 1, word :: rest =>
      let withMore := fun (found : List (Char × String)) (left : List String) =>
        (among table early fuel left).map fun others =>
          (⟨found ++ others.given, others.operands⟩ : Options)
      match word.toList with
      | ['-', '-'] => .ok ⟨[], rest⟩
      | '-' :: '-' :: _ =>
          match long table word rest with
          | .error fault => .error fault
          | .ok (found, left) => withMore [found] left
      | '-' :: letter :: letters =>
          match cluster table (letter :: letters) rest with
          | .error fault => .error fault
          | .ok (found, left) => withMore found left
      | _ =>
          if early then .ok ⟨[], word :: rest⟩
          else
            (among table early fuel rest).map fun others =>
              ⟨others.given, word :: others.operands⟩

def ofCommand (letters : List (Char × Bool)) (words : List String) : Except OptionFault Options :=
  leading ⟨letters, []⟩ (words.length + 1) words

def ofProgram (table : OptionTable) (words : List String) : Except OptionFault Options :=
  among table false (words.length + 1) words

/-- The options of a program that stand before its operands. -/
def beforeOperands (table : OptionTable) (words : List String) : Except OptionFault Options :=
  among table true (words.length + 1) words

end Options

end CaseHarness.Shell
