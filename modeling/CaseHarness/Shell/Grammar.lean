import CaseHarness.Shell.Grammar.Cursor

/-!
# Reading shell scripts

A reader for the grammar of the shell, by recursive descent.  It looks one token
ahead and hands on one complete command at a time, so that what stands before a
fault is run before the fault is found.  Every call is given some fuel, which is
computed from the length of the script; each function that reads something
hands on less than it got.
-/

namespace CaseHarness.Shell

namespace Grammar

/-- A token of a script. -/
inductive Token where
  | word (parts : Word)
  | redirection (descriptor : Nat) (direction : Direction) (tabs : Bool)
  | newline
  | semicolon
  | background
  | andIf
  | orIf
  | pipe
  | open
  | close
  | endCase
  | endOfFile

/-- The next token, the number of the line behind it, and the place behind it. -/
structure Ahead where
  token : Token
  next : Cursor

/-- The text of the next token if it is a plain word. -/
def Ahead.plain? (ahead : Ahead) : Option String :=
  match ahead.token with
  | .word parts => plainText? parts
  | _ => none

/-- Whether the next token is a given keyword. -/
def Ahead.isKeyword (ahead : Ahead) (keyword : String) : Bool :=
  ahead.plain? = some keyword

/-- What the next token is called in a fault. -/
def Ahead.shown (ahead : Ahead) : String :=
  match ahead.token with
  | .word _ =>
      match ahead.plain? with
      | some text => if keywords.contains text then "\"" ++ text ++ "\"" else "word"
      | none => "word"
  | .redirection .. => "redirection"
  | .newline => "newline"
  | .semicolon => "\";\""
  | .background => "\"&\""
  | .andIf => "\"&&\""
  | .orIf => "\"||\""
  | .pipe => "\"|\""
  | .open => "\"(\""
  | .close => "\")\""
  | .endCase => "\";;\""
  | .endOfFile => "end of file"

/-- The fault that the next token cannot stand where it stands. -/
def Ahead.unexpected (ahead : Ahead) (expecting : Option String) : Fault :=
  let wanted :=
    match expecting with
    | some text => " (expecting " ++ text ++ ")"
    | none => ""
  ⟨ahead.next.line, "Syntax error: " ++ ahead.shown ++ " unexpected" ++ wanted⟩

def Cursor.fault (cursor : Cursor) (text : String) : Fault :=
  ⟨cursor.line, "Syntax error: " ++ text⟩

/-- Whether the next token ends a list of commands inside another command. -/
def Ahead.endsList (ahead : Ahead) : Bool :=
  match ahead.token with
  | .close | .endCase | .endOfFile => true
  | .word _ =>
      match ahead.plain? with
      | some text =>
          ["do", "done", "elif", "else", "esac", "fi", "then", "\x7d"].contains text
      | none => false
  | _ => false

/-- What quotes stand around characters. -/
inductive Quoting where
  /-- Quotation marks. -/
  | string
  /-- The lines of a redirection. -/
  | document
  /-- Braces inside quotation marks. -/
  | brace
  /-- An expression, inside some parentheses of its own. -/
  | expression (depth : Nat)
  deriving DecidableEq, Repr

/-- Put characters that have been read in front of the parts that follow. -/
def withText (reversed : List Char) (isQuoted : Bool) (word : Word) : Word :=
  if reversed = [] then word else .text reversed.reverse isQuoted :: word

/-- The sign of a change, and the place behind it. -/
def changeSign? (cursor : Cursor) : Option (Change × Bool × Cursor) :=
  match cursor.rest with
  | ':' :: '-' :: _ => some (.substitute, true, cursor.skip 2)
  | ':' :: '=' :: _ => some (.assign, true, cursor.skip 2)
  | ':' :: '?' :: _ => some (.demand, true, cursor.skip 2)
  | ':' :: '+' :: _ => some (.replace, true, cursor.skip 2)
  | '-' :: _ => some (.substitute, false, cursor.skip 1)
  | '=' :: _ => some (.assign, false, cursor.skip 1)
  | '?' :: _ => some (.demand, false, cursor.skip 1)
  | '+' :: _ => some (.replace, false, cursor.skip 1)
  | '#' :: '#' :: _ => some (.dropFront true, false, cursor.skip 2)
  | '#' :: _ => some (.dropFront false, false, cursor.skip 1)
  | '%' :: '%' :: _ => some (.dropBack true, false, cursor.skip 2)
  | '%' :: _ => some (.dropBack false, false, cursor.skip 1)
  | _ => none

/-- The name of a parameter between braces. -/
def parameterName (characters : List Char) : List Char :=
  match characters with
  | [] => []
  | first :: rest =>
      if startsName first then first :: rest.takeWhile continuesName
      else if first.isDigit then first :: rest.takeWhile Char.isDigit
      else if isSpecial first then [first]
      else []

/-- The name of a parameter whose length is asked for, between a sign and a closing brace. -/
def countedName? (characters : List Char) : Option (List Char) :=
  match characters with
  | '#' :: rest =>
      let name := parameterName rest
      if name ≠ [] ∧ rest[name.length]? = some '\x7d' then some name else none
  | _ => none

/-- The descriptor and direction of a redirection sign, whether tabs are dropped, and the length
of the sign. -/
def redirectionSign? (characters : List Char) : Option (Nat × Direction × Bool × Nat) :=
  match characters with
  | '>' :: '>' :: _ => some (1, .append, false, 2)
  | '>' :: '&' :: _ => some (1, .share, false, 2)
  | '>' :: '|' :: _ => some (1, .write true, false, 2)
  | '>' :: _ => some (1, .write false, false, 1)
  | '<' :: '<' :: '-' :: _ => some (0, .inline, true, 3)
  | '<' :: '<' :: _ => some (0, .inline, false, 2)
  | '<' :: '&' :: _ => some (0, .share, false, 2)
  | '<' :: '>' :: _ => some (0, .both, false, 2)
  | '<' :: _ => some (0, .read, false, 1)
  | _ => none

def sign? (characters : List Char) : Option (Token × Nat) :=
  match characters with
  | '&' :: '&' :: _ => some (.andIf, 2)
  | '&' :: _ => some (.background, 1)
  | '|' :: '|' :: _ => some (.orIf, 2)
  | '|' :: _ => some (.pipe, 1)
  | ';' :: ';' :: _ => some (.endCase, 2)
  | ';' :: _ => some (.semicolon, 1)
  | '(' :: _ => some (.open, 1)
  | ')' :: _ => some (.close, 1)
  | _ => none

/-- Pass blanks, joined lines and a comment. -/
def passBlanks : Nat → Cursor → Cursor
  | 0, cursor => cursor
  | fuel + 1, cursor =>
      let here := cursor.joined
      match here.rest with
      | ' ' :: _ | '\t' :: _ => passBlanks fuel here.next
      | '#' :: _ => here.skip (here.rest.takeWhile fun character => character ≠ '\n').length
      | _ => here

mutual

/-- Read the parts of a word up to a mark, or up to a closing brace with `braced`; the
characters read so far that belong to one part come in reverse. -/
def parts : Nat → Bool → List Char → Cursor → Read Word
  | 0, _, _, cursor => .error (cursor.fault "end of file unexpected")
  | fuel + 1, braced, held, cursor =>
      let following := fun (part : Part) (place : Cursor) =>
        (parts fuel braced [] place).map fun (word, others) =>
          (withText held false (part :: word), others)
      match cursor.rest with
      | [] =>
          if braced then .error (cursor.fault "Missing '\x7d'")
          else .ok (withText held false [], cursor)
      | ['\\'] => following (.text ['\\'] true) cursor.next
      | '\\' :: '\n' :: _ => parts fuel braced held cursor.joined
      | '\\' :: character :: _ => following (.text [character] true) cursor.next.next
      | '\x27' :: rest =>
          let content := rest.takeWhile fun character => character ≠ '\x27'
          let close := cursor.next.pass content
          if content.length = rest.length then .error (close.fault "Unterminated quoted string")
          else following (.text content true) close.next
      | '"' :: _ =>
          match quoted fuel .string [] cursor.next with
          | .error fault => .error fault
          | .ok (inner, place) =>
              (parts fuel braced [] place).map fun (word, others) =>
                (withText held false (.text [] true :: inner ++ word), others)
      | '$' :: _ =>
          match dollar fuel false cursor.next.joined with
          | .error fault => .error fault
          | .ok (part, place) => following part place
      | '\x60' :: _ =>
          match backQuote fuel false cursor.next with
          | .error fault => .error fault
          | .ok (part, place) => following part place
      | character :: _ =>
          if (braced && character = '\x7d') || (!braced && isMark character) then
            .ok (withText held false [], cursor)
          else parts fuel braced (character :: held) cursor.next

/-- Read parts between quotes, and pass what closes them. -/
def quoted : Nat → Quoting → List Char → Cursor → Read Word
  | 0, _, _, cursor => .error (cursor.fault "end of file unexpected")
  | fuel + 1, quoting, held, cursor =>
      let following := fun (part : Part) (place : Cursor) =>
        (quoted fuel quoting [] place).map fun (word, others) =>
          (withText held true (part :: word), others)
      match cursor.rest with
      | [] =>
          match quoting with
          | .document => .ok (withText held true [], cursor)
          | .string | .brace => .error (cursor.fault "Unterminated quoted string")
          | .expression _ => .error (cursor.fault "Missing '))'")
      | '\\' :: '\n' :: _ => quoted fuel quoting held cursor.joined
      | '\\' :: character :: _ =>
          let isProtected := ['$', '\x60', '\\'].contains character ||
            (character = '"' && quoting ≠ .document) || (character = '\x7d' && quoting = .brace)
          let taken := if isProtected then character :: held else character :: '\\' :: held
          quoted fuel quoting taken cursor.next.next
      | '$' :: _ =>
          match dollar fuel true cursor.next.joined with
          | .error fault => .error fault
          | .ok (part, place) => following part place
      | '\x60' :: _ =>
          match backQuote fuel true cursor.next with
          | .error fault => .error fault
          | .ok (part, place) => following part place
      | character :: _ =>
          match quoting, character with
          | .string, '"' => .ok (withText held true [], cursor.next)
          | .brace, '"' => quoted fuel quoting held cursor.next
          | .brace, '\x7d' => .ok (withText held true [], cursor.next)
          | .expression depth, '(' =>
              quoted fuel (.expression (depth + 1)) ('(' :: held) cursor.next
          | .expression (depth + 1), ')' =>
              quoted fuel (.expression depth) (')' :: held) cursor.next
          | .expression 0, ')' =>
              let behind := cursor.next.joined
              match behind.rest with
              | ')' :: _ => .ok (withText held true [], behind.next)
              | _ => quoted fuel quoting (')' :: held) behind
          | _, _ => quoted fuel quoting (character :: held) cursor.next

/-- Read a script between back quotes. -/
def backQuote : Nat → Bool → Cursor → Read Part
  | 0, _, cursor => .error (cursor.fault "end of file unexpected")
  | fuel + 1, isQuoted, cursor =>
      match untilBackQuote isQuoted cursor.rest with
      | none => .error (cursor.fault "EOF in backquote substitution")
      | some (inner, passed) =>
          match look fuel ⟨inner, cursor.line, 0⟩ with
          | .error fault => .error fault
          | .ok ahead =>
              (list fuel true ahead).map fun (body, _) =>
                (.output body isQuoted, cursor.pass passed)

/-- Read what follows a dollar sign. -/
def dollar : Nat → Bool → Cursor → Read Part
  | 0, _, cursor => .error (cursor.fault "end of file unexpected")
  | fuel + 1, isQuoted, cursor =>
      match cursor.rest with
      | [] => .ok (.text ['$'] isQuoted, cursor)
      | '(' :: _ =>
          let inside := cursor.next.joined
          match inside.rest with
          | '(' :: _ =>
              (quoted fuel (.expression 0) [] inside.next).map fun (expression, place) =>
                (.arithmetic expression isQuoted, place)
          | _ =>
              match look fuel inside with
              | .error fault => .error fault
              | .ok ahead =>
                  match list fuel true ahead with
                  | .error fault => .error fault
                  | .ok (body, after) =>
                      match after.token with
                      | .close => .ok (.output body isQuoted, after.next)
                      | _ => .error (after.unexpected (some "\")\""))
      | '\x7b' :: _ => braces fuel isQuoted cursor.next.joined
      | character :: rest =>
          if startsName character then
            let name := character :: rest.takeWhile continuesName
            .ok (.parameter (String.ofList name) isQuoted, cursor.skip name.length)
          else if isSpecial character then
            .ok (.parameter (String.ofList [character]) isQuoted, cursor.next)
          else .ok (.text ['$'] isQuoted, cursor)

/-- Read what follows a dollar sign and an opening brace. -/
def braces : Nat → Bool → Cursor → Read Part
  | 0, _, cursor => .error (cursor.fault "end of file unexpected")
  | fuel + 1, isQuoted, cursor =>
      match countedName? cursor.rest with
      | some name => .ok (.length (String.ofList name) isQuoted, cursor.skip (name.length + 2))
      | none =>
          let name := parameterName cursor.rest
          let behind := (cursor.skip name.length).joined
          match name, behind.rest with
          | _ :: _, '\x7d' :: _ => .ok (.parameter (String.ofList name) isQuoted, behind.next)
          | _, _ =>
              match (if name = [] then none else changeSign? behind) with
              | some (change, orEmpty, place) =>
                  let isPlain :=
                    match change with
                    | .dropFront _ | .dropBack _ => true
                    | .substitute | .assign | .demand | .replace => !isQuoted
                  let word :=
                    if isPlain then
                      (parts fuel true [] place).map fun (inner, close) => (inner, close.next)
                    else quoted fuel .brace [] place
                  word.map fun (inner, after) =>
                    (.changed (String.ofList name) change orEmpty inner isQuoted, after)
              | none =>
                  let sign := if behind.rest.head? = some ':' then behind.next.joined else behind
                  let isBare := name = [] && sign.rest.head? = some '\x7d'
                  let place := if isBare || sign.rest = [] then sign else sign.next
                  if isQuoted then
                    (quoted fuel .brace [] place).map fun (_, after) => (.malformed, after)
                  else (parts fuel true [] place).map fun (_, close) => (.malformed, close.next)

/-- Read the next token. -/
def look : Nat → Cursor → Except Fault Ahead
  | 0, cursor => .error (cursor.fault "end of file unexpected")
  | fuel + 1, cursor =>
      let here := passBlanks cursor.rest.length cursor
      let asRedirection := fun (given : Option Nat) (place : Cursor) =>
        (redirectionSign? place.rest).map fun (usual, direction, tabs, length) =>
          (⟨.redirection (given.getD usual) direction tabs, place.skip length⟩ : Ahead)
      let redirection :=
        match here.rest with
        | digit :: sign :: _ =>
            if digit.isDigit ∧ (sign = '<' ∨ sign = '>') then
              asRedirection (Text.Numeral.digits? [digit]) here.next
            else asRedirection none here
        | _ => asRedirection none here
      match here.rest, redirection, sign? here.rest with
      | [], _, _ => .ok ⟨.endOfFile, here⟩
      | '\n' :: _, _, _ => .ok ⟨.newline, here.next⟩
      | _, some ahead, _ => .ok ahead
      | _, none, some (token, length) => .ok ⟨token, here.skip length⟩
      | _, none, none =>
          match parts fuel false [] here with
          | .error fault => .error fault
          | .ok (word, place) => .ok ⟨.word word, place⟩

/-- Read the token behind the next one. -/
def advance : Nat → Ahead → Except Fault Ahead
  | 0, ahead => .error (ahead.unexpected none)
  | fuel + 1, ahead => look fuel ahead.next

/-- Read on until the next token is no line end. -/
def passLines : Nat → Ahead → Except Fault Ahead
  | 0, ahead => .error (ahead.unexpected none)
  | fuel + 1, ahead =>
      match ahead.token with
      | .newline =>
          match advance fuel ahead with
          | .error fault => .error fault
          | .ok next => passLines fuel next
      | _ => .ok ahead

/-- Pass a keyword, after line ends if `lines` is set. -/
def expect : Nat → Bool → String → Ahead → Except Fault Ahead
  | 0, _, _, ahead => .error (ahead.unexpected none)
  | fuel + 1, lines, keyword, ahead =>
      match (if lines then passLines fuel ahead else .ok ahead) with
      | .error fault => .error fault
      | .ok here =>
          if here.isKeyword keyword then advance fuel here
          else .error (here.unexpected (some ("\"" ++ keyword ++ "\"")))

/-- Read a list of commands inside another command; with `mayBeEmpty` it may hold none. -/
def list : Nat → Bool → Ahead → Except Fault (Script × Ahead)
  | 0, _, ahead => .error (ahead.unexpected none)
  | fuel + 1, mayBeEmpty, ahead =>
      match passLines fuel ahead with
      | .error fault => .error fault
      | .ok here =>
          match here.token with
          | .endOfFile => .ok ([], here)
          | _ =>
              if mayBeEmpty && here.endsList then .ok ([], here)
              else
                match chain fuel here with
                | .error fault => .error fault
                | .ok (command, after) =>
                    let goOn := fun background : Bool =>
                      match advance fuel after with
                      | .error fault => .error fault
                      | .ok next =>
                          (list fuel true next).map fun (others, last) =>
                            ((command, background) :: others, last)
                    match after.token with
                    | .background => goOn true
                    | .semicolon => goOn false
                    | .newline => goOn false
                    | _ => .ok ([(command, false)], after)

/-- Read pipelines that are joined by connectives. -/
def chain : Nat → Ahead → Except Fault (Command × Ahead)
  | 0, ahead => .error (ahead.unexpected none)
  | fuel + 1, ahead =>
      match pipeline fuel ahead with
      | .error fault => .error fault
      | .ok (first, after) => chainRest fuel first after

/-- Read the connectives after a command. -/
def chainRest : Nat → Command → Ahead → Except Fault (Command × Ahead)
  | 0, _, ahead => .error (ahead.unexpected none)
  | fuel + 1, first, ahead =>
      let goOn := fun connective : Connective =>
        match advance fuel ahead with
        | .error fault => .error fault
        | .ok next =>
            match passLines fuel next with
            | .error fault => .error fault
            | .ok here =>
                match pipeline fuel here with
                | .error fault => .error fault
                | .ok (second, after) => chainRest fuel (.joined first connective second) after
      match ahead.token with
      | .andIf => goOn .andThen
      | .orIf => goOn .orElse
      | _ => .ok (first, ahead)

def pipeline : Nat → Ahead → Except Fault (Command × Ahead)
  | 0, ahead => .error (ahead.unexpected none)
  | fuel + 1, ahead =>
      if ahead.isKeyword "!" then
        match advance fuel ahead with
        | .error fault => .error fault
        | .ok next =>
            (stages fuel next).map fun (found, after) =>
              (.negated (match found with
                | [only] => only
                | commands => .pipeline commands), after)
      else
        (stages fuel ahead).map fun (found, after) =>
          (match found with
            | [only] => only
            | commands => .pipeline commands, after)

/-- Read the stages of a pipeline. -/
def stages : Nat → Ahead → Except Fault (List Command × Ahead)
  | 0, ahead => .error (ahead.unexpected none)
  | fuel + 1, ahead =>
      match command fuel ahead with
      | .error fault => .error fault
      | .ok (first, after) =>
          match after.token with
          | .pipe =>
              match advance fuel after with
              | .error fault => .error fault
              | .ok next =>
                  match passLines fuel next with
                  | .error fault => .error fault
                  | .ok here => (stages fuel here).map fun (others, last) => (first :: others, last)
          | _ => .ok ([first], after)

/-- Read a command with its redirections. -/
def command : Nat → Ahead → Except Fault (Command × Ahead)
  | 0, ahead => .error (ahead.unexpected none)
  | fuel + 1, ahead =>
      let line := ahead.next.line
      let inside := fun read : Ahead → Except Fault (Command × Ahead) =>
        match advance fuel ahead with
        | .error fault => .error fault
        | .ok begun =>
            match read begun with
            | .error fault => .error fault
            | .ok (body, after) =>
                (redirections fuel after).map fun (targets, last) =>
                  (if targets.isEmpty then body else .redirected line body targets, last)
      match ahead.token with
      | .redirection .. => simple fuel line [] [] [] ahead
      | .open =>
          inside fun begun =>
            match list fuel false begun with
            | .error fault => .error fault
            | .ok (body, after) =>
                match after.token with
                | .close => (advance fuel after).map fun last => (.subshell line body, last)
                | _ => .error (after.unexpected (some "\")\""))
      | .word _ =>
          match ahead.plain? with
          | some "\x7b" =>
              inside fun begun =>
                match list fuel false begun with
                | .error fault => .error fault
                | .ok (body, after) =>
                    (expect fuel false "\x7d" after).map fun last => (.group body, last)
          | some "if" => inside (branches fuel)
          | some "while" => inside (loop fuel false)
          | some "until" => inside (loop fuel true)
          | some "for" => inside (forLoop fuel line)
          | some "case" => inside (caseBlock fuel line)
          | some text =>
              if keywords.contains text then .error (ahead.unexpected none)
              else simple fuel line [] [] [] ahead
          | none => simple fuel line [] [] [] ahead
      | _ => .error (ahead.unexpected none)

/-- Read the rest of a simple command. -/
def simple : Nat → Nat → List (String × Word) → List Word → List Redirection → Ahead →
    Except Fault (Command × Ahead)
  | 0, _, _, _, _, ahead => .error (ahead.unexpected none)
  | fuel + 1, line, assignments, words, targets, ahead =>
      match ahead.token with
      | .word found =>
          match advance fuel ahead with
          | .error fault => .error fault
          | .ok next =>
              match (if words = [] then assignment? found else none) with
              | some assigned => simple fuel line (assignments ++ [assigned]) words targets next
              | none => simple fuel line assignments (words ++ [found]) targets next
      | .redirection .. =>
          match redirection fuel ahead with
          | .error fault => .error fault
          | .ok (target, next) => simple fuel line assignments words (targets ++ [target]) next
      | .open =>
          match words with
          | [name] =>
              if assignments.isEmpty && targets.isEmpty then definition fuel name ahead
              else .ok (.simple line assignments words targets, ahead)
          | _ => .ok (.simple line assignments words targets, ahead)
      | _ => .ok (.simple line assignments words targets, ahead)

/-- Read the definition of a function behind its name. -/
def definition : Nat → Word → Ahead → Except Fault (Command × Ahead)
  | 0, _, ahead => .error (ahead.unexpected none)
  | fuel + 1, name, ahead =>
      match advance fuel ahead with
      | .error fault => .error fault
      | .ok inside =>
          match inside.token with
          | .close =>
              let text := (plainText? name).getD ""
              if !isName text.toList || specialCommands.contains text then
                .error (inside.next.fault "Bad function name")
              else
                match advance fuel inside with
                | .error fault => .error fault
                | .ok next =>
                    match passLines fuel next with
                    | .error fault => .error fault
                    | .ok here =>
                        (command fuel here).map fun (body, after) => (.define text body, after)
          | _ => .error (inside.unexpected (some "\")\""))

/-- Read one redirection, whose sign is the next token. -/
def redirection : Nat → Ahead → Except Fault (Redirection × Ahead)
  | 0, ahead => .error (ahead.unexpected none)
  | fuel + 1, ahead =>
      match advance fuel ahead, ahead.token with
      | .error fault, _ => .error fault
      | .ok named, .redirection descriptor direction tabs =>
          match named.token with
          | .word target =>
              if direction = .inline then
                let (mark, isQuoted) := literalText target
                let (text, place) := takeInline tabs mark named.next
                let content : Except Fault Word :=
                  if isQuoted then .ok [.text text true]
                  else (quoted fuel .document [] ⟨text, named.next.line + 1, 0⟩).map Prod.fst
                match content, look fuel place with
                | .error fault, _ | _, .error fault => .error fault
                | .ok body, .ok next => .ok (.mk descriptor .inline body, next)
              else (advance fuel named).map fun next => (.mk descriptor direction target, next)
          | _ => .error (named.unexpected none)
      | .ok _, _ => .error (ahead.unexpected none)

/-- Read the redirections after a compound command. -/
def redirections : Nat → Ahead → Except Fault (List Redirection × Ahead)
  | 0, ahead => .error (ahead.unexpected none)
  | fuel + 1, ahead =>
      match ahead.token with
      | .redirection .. =>
          match redirection fuel ahead with
          | .error fault => .error fault
          | .ok (target, next) =>
              (redirections fuel next).map fun (others, last) => (target :: others, last)
      | _ => .ok ([], ahead)

/-- Read a block between `do` and `done`. -/
def block : Nat → Bool → Ahead → Except Fault (Script × Ahead)
  | 0, _, ahead => .error (ahead.unexpected none)
  | fuel + 1, lines, ahead =>
      match expect fuel lines "do" ahead with
      | .error fault => .error fault
      | .ok begun =>
          match list fuel false begun with
          | .error fault => .error fault
          | .ok (body, after) => (expect fuel false "done" after).map fun last => (body, last)

/-- Read a loop after its first word. -/
def loop : Nat → Bool → Ahead → Except Fault (Command × Ahead)
  | 0, _, ahead => .error (ahead.unexpected none)
  | fuel + 1, untilTrue, ahead =>
      match list fuel false ahead with
      | .error fault => .error fault
      | .ok (condition, after) =>
          (block fuel false after).map fun (body, last) => (.loop untilTrue condition body, last)

/-- Read a conditional after `if` or `elif`. -/
def branches : Nat → Ahead → Except Fault (Command × Ahead)
  | 0, ahead => .error (ahead.unexpected none)
  | fuel + 1, ahead =>
      match list fuel false ahead with
      | .error fault => .error fault
      | .ok (condition, afterCondition) =>
          match expect fuel false "then" afterCondition with
          | .error fault => .error fault
          | .ok begun =>
              match list fuel false begun with
              | .error fault => .error fault
              | .ok (yes, afterYes) =>
                  if afterYes.isKeyword "elif" then
                    match advance fuel afterYes with
                    | .error fault => .error fault
                    | .ok next =>
                        (branches fuel next).map fun (inner, last) =>
                          (.branch condition yes [(inner, false)], last)
                  else if afterYes.isKeyword "else" then
                    match advance fuel afterYes with
                    | .error fault => .error fault
                    | .ok next =>
                        match list fuel false next with
                        | .error fault => .error fault
                        | .ok (no, afterNo) =>
                            (expect fuel false "fi" afterNo).map fun last =>
                              (.branch condition yes no, last)
                  else
                    (expect fuel false "fi" afterYes).map fun last =>
                      (.branch condition yes [], last)

/-- Read words up to the next token that is none. -/
def words : Nat → Ahead → Except Fault (List Word × Ahead)
  | 0, ahead => .error (ahead.unexpected none)
  | fuel + 1, ahead =>
      match ahead.token with
      | .word found =>
          match advance fuel ahead with
          | .error fault => .error fault
          | .ok next => (words fuel next).map fun (others, last) => (found :: others, last)
      | _ => .ok ([], ahead)

/-- Read a loop over words after `for`. -/
def forLoop : Nat → Nat → Ahead → Except Fault (Command × Ahead)
  | 0, _, ahead => .error (ahead.unexpected none)
  | fuel + 1, line, ahead =>
      let name := (ahead.plain?).getD ""
      if !isName name.toList then .error (ahead.next.fault "Bad for loop variable")
      else
        match advance fuel ahead with
        | .error fault => .error fault
        | .ok named =>
            match passLines fuel named with
            | .error fault => .error fault
            | .ok here =>
                let withWords := fun (given : Option (List Word)) (place : Ahead) =>
                  (block fuel true place).map fun (body, last) => (.each line name given body, last)
                if here.isKeyword "in" then
                  match advance fuel here with
                  | .error fault => .error fault
                  | .ok begun =>
                      match words fuel begun with
                      | .error fault => .error fault
                      | .ok (found, after) =>
                          match after.token with
                          | .newline | .semicolon =>
                              match advance fuel after with
                              | .error fault => .error fault
                              | .ok next => withWords (some found) next
                          | _ => .error (after.unexpected none)
                else
                  match here.token with
                  | .semicolon =>
                      match advance fuel here with
                      | .error fault => .error fault
                      | .ok next => withWords none next
                  | _ => withWords none here

/-- Read a choice by pattern after `case`. -/
def caseBlock : Nat → Nat → Ahead → Except Fault (Command × Ahead)
  | 0, _, ahead => .error (ahead.unexpected none)
  | fuel + 1, line, ahead =>
      match ahead.token with
      | .word subject =>
          match advance fuel ahead with
          | .error fault => .error fault
          | .ok next =>
              match expect fuel true "in" next with
              | .error fault => .error fault
              | .ok begun =>
                  (clauses fuel begun).map fun (found, last) => (.cases line subject found, last)
      | _ => .error (ahead.unexpected (some "word"))

/-- Read the clauses of a choice, and pass `esac`. -/
def clauses : Nat → Ahead → Except Fault (List (List Word × Script) × Ahead)
  | 0, ahead => .error (ahead.unexpected none)
  | fuel + 1, ahead =>
      match passLines fuel ahead with
      | .error fault => .error fault
      | .ok here =>
          if here.isKeyword "esac" then (advance fuel here).map fun last => ([], last)
          else
            let opened :=
              match here.token with
              | .open => advance fuel here
              | _ => .ok here
            match opened with
            | .error fault => .error fault
            | .ok first =>
                match patterns fuel first with
                | .error fault => .error fault
                | .ok (alternatives, begun) =>
                    match list fuel true begun with
                    | .error fault => .error fault
                    | .ok (body, after) =>
                        match after.token with
                        | .endCase =>
                            match advance fuel after with
                            | .error fault => .error fault
                            | .ok next =>
                                (clauses fuel next).map fun (others, last) =>
                                  ((alternatives, body) :: others, last)
                        | _ =>
                            if after.isKeyword "esac" then
                              (advance fuel after).map fun last => ([(alternatives, body)], last)
                            else .error (after.unexpected (some "\";;\""))

/-- Read the patterns of a clause up to its closing parenthesis. -/
def patterns : Nat → Ahead → Except Fault (List Word × Ahead)
  | 0, ahead => .error (ahead.unexpected none)
  | fuel + 1, ahead =>
      let first :=
        match ahead.token with
        | .word found => found
        | _ => []
      match advance fuel ahead with
      | .error fault => .error fault
      | .ok after =>
          match after.token with
          | .pipe =>
              match advance fuel after with
              | .error fault => .error fault
              | .ok next => (patterns fuel next).map fun (others, last) => (first :: others, last)
          | .close => (advance fuel after).map fun last => ([first], last)
          | _ => .error (after.unexpected (some "\")\""))

end

/-- Read the commands of one line up to its end, and the place behind it. -/
def lineOf : Nat → Ahead → Read Script
  | 0, ahead => .error (ahead.unexpected none)
  | fuel + 1, ahead =>
      match ahead.token with
      | .newline | .endOfFile => .ok ([], ahead.next)
      | _ =>
          match chain fuel ahead with
          | .error fault => .error fault
          | .ok (command, after) =>
              let goOn := fun background : Bool =>
                match advance fuel after with
                | .error fault => .error fault
                | .ok next =>
                    (lineOf fuel next).map fun (others, place) =>
                      ((command, background) :: others, place)
              match after.token with
              | .background => goOn true
              | .semicolon => goOn false
              | .newline | .endOfFile => .ok ([(command, false)], after.next)
              | _ => .error (after.unexpected none)

end Grammar

/-- Read the next complete command of a script, which is one line unless a command goes on; there
is none at the end. -/
def Script.next? (cursor : Grammar.Cursor) : Grammar.Read (Option Script) :=
  let fuel := 16 * cursor.rest.length + 64
  match Grammar.look fuel cursor with
  | .error fault => .error fault
  | .ok ahead =>
      match ahead.token with
      | .endOfFile => .ok (none, ahead.next)
      | _ => (Grammar.lineOf fuel ahead).map fun (script, place) => (some script, place)

end CaseHarness.Shell
