import CaseHarness.Shell.Utility.Number
import CaseHarness.Shell.Utility.Output

/-!
# Conditions

The utility that tests texts, numbers and files, under both of its names.  Its
words are read as an expression, where a word that could be an operator is one
only where it has operands; a condition of three words with an operator for two
in the middle is never read otherwise.
-/

namespace CaseHarness.Shell

def State.nodeAt? (state : State) (path : String) (aim : Tree.Aim) : Option (Location × Node) :=
  match state.world.tree.arrive state.directory path aim with
  | .ok (.present location) => (state.world.tree.node? location).map fun node => (location, node)
  | _ => none

namespace Condition

/-- What a word of a condition is. -/
inductive Token where
  | finish
  | operand
  | unary
  | binary
  | negation
  | conjunction
  | disjunction
  | opening
  | closing
  deriving DecidableEq, Repr

def unaryOperators : List String :=
  ["-r", "-w", "-x", "-e", "-f", "-d", "-c", "-b", "-p", "-u", "-g", "-k", "-s", "-t", "-z", "-n",
    "-h", "-O", "-G", "-L", "-S"]

def binaryOperators : List String :=
  ["=", "!=", "<", ">", "-eq", "-ne", "-ge", "-gt", "-le", "-lt", "-nt", "-ot", "-ef"]

def operator? (origin : Origin) (word : String) : Option Token :=
  if unaryOperators.contains word then some .unary
  else if binaryOperators.contains word || (word = "==" && origin = .program) then some .binary
  else
    match word with
    | "!" => some .negation
    | "-a" => some .conjunction
    | "-o" => some .disjunction
    | "(" => some .opening
    | ")" => some .closing
    | _ => none

/-- Whether an operator for one operand is itself an operand, judged by the words behind it. -/
def isOperand (origin : Origin) : List String → Bool
  | [] => true
  | [_] => false
  | word :: _ => operator? origin word = some .binary

/-- What the first of some words is. -/
def tokenOf (origin : Origin) : List String → Token
  | [] => .finish
  | word :: rest =>
      match operator? origin word with
      | none => .operand
      | some .unary => if isOperand origin rest then .operand else .unary
      | some .opening => if rest = [] then .operand else .opening
      | some token => token

/-- Why a condition has no value. -/
inductive Fault where
  /-- An operator without its operand. -/
  | noArgument (operator : String)
  | noClosing
  /-- Words that follow a whole condition, the last word of which is given. -/
  | excess (word next : String)
  | illegalNumber (word : String)
  /-- A word that should be an operator for one operand, or for two. -/
  | noUnary (word : String)
  | noBinary (word : String)
  deriving DecidableEq, Repr

/-- What a fault of a condition says. -/
def Fault.text : Origin → Fault → String
  | .shell, noArgument operator => operator ++ ": argument expected"
  | .shell, noClosing => "closing paren expected"
  | .shell, excess word _ =>
      if word.isEmpty then "unexpected operator" else word ++ ": unexpected operator"
  | .shell, illegalNumber word => "Illegal number: " ++ word
  | .shell, noUnary word | .shell, noBinary word => word ++ ": unexpected operator"
  | .program, noArgument operator => "missing argument after " ++ inQuotes operator
  | .program, noClosing => inQuotes ")" ++ " expected"
  | .program, excess _ next => "extra argument " ++ inQuotes next
  | .program, illegalNumber word => "invalid integer " ++ inQuotes word
  | .program, noUnary word => inQuotes word ++ ": unary operator expected"
  | .program, noBinary word => inQuotes word ++ ": binary operator expected"

def unary (state : State) (operator operand : String) : Except Fault Bool :=
  let node := (state.nodeAt? operand .use).map Prod.snd
  match operator with
  | "-n" => .ok (operand ≠ "")
  | "-z" => .ok (operand = "")
  | "-e" | "-r" | "-w" | "-O" | "-G" => .ok node.isSome
  | "-f" =>
      .ok (match node with
        | some (.file ..) | some (.program _) => true
        | _ => false)
  | "-d" => .ok (node = some .folder)
  | "-c" =>
      .ok (match node with
        | some (.device _) => true
        | _ => false)
  | "-s" =>
      .ok (match node with
        | some (.file content _) => content ≠ []
        | some (.program _) | some .folder => true
        | _ => false)
  | "-x" =>
      .ok (match node with
        | some (.file _ executable) => executable
        | some (.program _) | some .folder => true
        | _ => false)
  | "-L" | "-h" =>
      .ok (match state.nodeAt? operand .inspect with
        | some (_, .link _) => true
        | _ => false)
  | "-t" => if (Number.decimal? operand).isSome then .ok false else .error (.illegalNumber operand)
  | _ => .ok false

/-- A test with two operands. -/
def binary (state : State) (left operator right : String) : Except Fault Bool :=
  let numeric := fun compare : Int → Int → Bool =>
    match (Number.decimal? left).filter Number.fits, (Number.decimal? right).filter Number.fits with
    | some first, some second => .ok (compare first second)
    | none, _ => .error (.illegalNumber left)
    | _, none => .error (.illegalNumber right)
  match operator with
  | "=" | "==" => .ok (left = right)
  | "!=" => .ok (left ≠ right)
  | "<" => .ok (left < right)
  | ">" => .ok (right < left)
  | "-eq" => numeric fun first second => first = second
  | "-ne" => numeric fun first second => first ≠ second
  | "-lt" => numeric fun first second => first < second
  | "-le" => numeric fun first second => first ≤ second
  | "-gt" => numeric fun first second => second < first
  | "-ge" => numeric fun first second => second ≤ first
  | "-ef" =>
      .ok (match state.nodeAt? left .use, state.nodeAt? right .use with
        | some first, some second => first.1 = second.1
        | _, _ => false)
  | _ => .ok false

/-- A value, and the words from the last one on that it was read from. -/
abbrev Result :=
  Except Fault (Bool × List String)

mutual

/-- Read alternatives, the first of which begins with a given token. -/
def alternatives (origin : Origin) (state : State) : Nat → Token → List String → Result
  | 0, _, words => .ok (false, words)
  | fuel + 1, token, words =>
      match conditions origin state fuel token words with
      | .error fault => .error fault
      | .ok (value, last) =>
          if tokenOf origin last.tail = .disjunction then
            (alternatives origin state fuel (tokenOf origin (last.drop 2)) (last.drop 2)).map
              fun (other, rest) => (value || other, rest)
          else .ok (value, last)

/-- Read conditions that must all hold. -/
def conditions (origin : Origin) (state : State) : Nat → Token → List String → Result
  | 0, _, words => .ok (false, words)
  | fuel + 1, token, words =>
      match negated origin state fuel token words with
      | .error fault => .error fault
      | .ok (value, last) =>
          if tokenOf origin last.tail = .conjunction then
            (conditions origin state fuel (tokenOf origin (last.drop 2)) (last.drop 2)).map
              fun (other, rest) => (value && other, rest)
          else .ok (value, last)

/-- Read a condition that may be negated. -/
def negated (origin : Origin) (state : State) : Nat → Token → List String → Result
  | 0, _, words => .ok (false, words)
  | fuel + 1, token, words =>
      if token = .negation then
        let inner := tokenOf origin words.tail
        (negated origin state fuel inner (if inner = .finish then words else words.tail)).map
          fun (value, last) => (!value, last)
      else primary origin state fuel token words

/-- Read a condition that is not joined to others. -/
def primary (origin : Origin) (state : State) : Nat → Token → List String → Result
  | 0, _, words => .ok (false, words)
  | fuel + 1, token, words =>
      match token, words with
      | .finish, _ | _, [] => .ok (false, words)
      | .opening, _ :: inside =>
          let inner := tokenOf origin inside
          if inner = .closing then .ok (false, inside)
          else
            match alternatives origin state fuel inner inside with
            | .error fault => .error fault
            | .ok (value, last) =>
                if tokenOf origin last.tail = .closing then .ok (value, last.tail)
                else .error .noClosing
      | .unary, operator :: rest =>
          match rest with
          | [] => .error (.noArgument operator)
          | operand :: _ => (unary state operator operand).map fun value => (value, rest)
      | _, left :: rest =>
          if tokenOf origin rest = .binary then
            match rest with
            | operator :: right :: others =>
                (binary state left operator right).map fun value => (value, right :: others)
            | _ => .error (.noArgument (rest.headD ""))
          else .ok (left ≠ "", words)

end

/-- Evaluate a condition whose first token is given. -/
def evaluateFrom (origin : Origin) (state : State) (token : Token) (words : List String) :
    Except Fault Bool :=
  match alternatives origin state (8 * words.length + 8) token words with
  | .error fault => .error fault
  | .ok (value, word :: next :: _) =>
      if words = [] then .ok value else .error (.excess word next)
  | .ok (value, _) => .ok value

/-- What is wrong with a condition of two or three words that has no operator where one must be, if
it is evaluated by a program. -/
def missingOperator? : List String → Option Fault
  | [operator, last] =>
      let looksUnary := operator.length = 2 && operator.toList.head? = some '-'
      if operator = "!" || unaryOperators.contains operator then none
      else some (if looksUnary then .noUnary operator else .noArgument last)
  | [left, operator, right] =>
      if left = "!" || (left = "(" && right = ")") || (operator? .program operator).isSome then none
      else some (.noBinary operator)
  | _ => none

/-- Evaluate a condition that may begin with negations.  In the shell a second one in front of a
short condition changes nothing. -/
def evaluate (origin : Origin) (state : State) : Nat → Bool → List String → Except Fault Bool
  | 0, _, _ => .ok false
  | turns + 1, isNegated, words =>
      let finish := fun (token : Token) (inner : List String) =>
        (evaluateFrom origin state token inner).map fun value => value != isNegated
      let token := tokenOf origin words
      match (if origin = .program then missingOperator? words else none) with
      | some fault => .error fault
      | none =>
          let whenNegated := origin = .shell || !isNegated
          match words with
          | [] => .ok isNegated
          | [left, operator, right] =>
              if operator? origin operator = some .binary then finish .operand words
              else if left = "(" ∧ right = ")" then finish (tokenOf origin [operator]) [operator]
              else if left = "!" then evaluate origin state turns whenNegated [operator, right]
              else finish token words
          | [first, second, third, last] =>
              if first = "(" ∧ last = ")" then
                finish (tokenOf origin [second, third]) [second, third]
              else if first = "!" then
                evaluate origin state turns whenNegated [second, third, last]
              else finish token words
          | _ => finish token words

end Condition

namespace Utility

/-- Report why a condition has no value. -/
def refuse (origin : Origin) (state : State) (text : String) : State :=
  match origin with
  | .shell => state.fail text
  | .program => report state text 2

/-- Evaluate a condition; the form with brackets needs its closing bracket. -/
def test (origin : Origin) (state : State) (bracketed : Bool) (arguments : List String) : State :=
  if bracketed ∧ arguments.getLast? ≠ some "]" then
    refuse origin state
      (match origin with
        | .shell => "missing ]"
        | .program => "missing " ++ inQuotes "]")
  else
    let words := if bracketed then arguments.dropLast else arguments
    match Condition.evaluate origin state 3 false words with
    | .ok value => state.withStatus (if value then 0 else 1)
    | .error fault => refuse origin state (fault.text origin)

end Utility

end CaseHarness.Shell
