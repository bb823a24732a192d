import CaseHarness.Shell.Utility.Number
import CaseHarness.Shell.Utility.Output

/-!
# Contents of files

The utilities that copy, cut and count the contents of files.  A single hyphen,
or no file at all, stands for the standard input.
-/

namespace CaseHarness.Shell

/-- What can be read from a file that is named by its path. -/
def State.inputAt (state : State) (path : String) : State × Except FileError Source :=
  match state.world.tree.locate state.directory path with
  | .error fault => (state, .error fault)
  | .ok location =>
      match state.world.tree.node? location with
      | some (.device (.descriptor number _)) =>
          if (state.channel? number).isSome then state.takeAll number else (state, .error .notFound)
      | _ =>
          (state, (state.world.tree.contentAt location).map fun bytes =>
            ⟨[(state.clock, bytes)], state.clock⟩)

/-- What can be read from a file, or from the standard input if its name is a hyphen. -/
def State.inputOf (state : State) (path : String) : State × Except FileError Source :=
  if path = "-" then state.takeAll 0 else state.inputAt path

/-- All bytes of a file or of the standard input, once they are there. -/
def State.readWhole (state : State) (path : String) : State × Except FileError (List UInt8) :=
  match state.inputOf path with
  | (next, .error fault) => (next, .error fault)
  | (next, .ok input) => (next.waitUntil input.finish, .ok input.bytes)

/-- Put bytes into a file in place of what it holds, or behind it. -/
def State.store (state : State) (path : String) (append : Bool) (bytes : List UInt8) :
    State × Option FileError :=
  match state.world.tree.writable state.directory path with
  | .error fault => (state, some fault)
  | .ok location =>
      match state.world.tree.node? location with
      | some (.device (.descriptor number _)) => state.write number bytes
      | some (.device .full) => (state, if bytes = [] then none else some .noSpace)
      | some (.device _) => (state, none)
      | _ =>
          let before := if append then state.bytesAt location else []
          (state.setTree (state.world.tree.fill location (before ++ bytes)), none)

namespace Utility

/-- The name of an input in diagnostics and headings. -/
def inputName (path : String) : String :=
  if path = "-" then "standard input" else path

/-- The lines of bytes, each with its newline, the one read at present in reverse. -/
def linesFrom (held : List UInt8) : List UInt8 → List (List UInt8)
  | [] => if held = [] then [] else [held.reverse]
  | byte :: rest =>
      if byte = Reader.newline then (byte :: held).reverse :: linesFrom [] rest
      else linesFrom (byte :: held) rest

def linesOf (bytes : List UInt8) : List (List UInt8) :=
  linesFrom [] bytes

def withoutNewline (line : List UInt8) : List UInt8 × Bool :=
  if line.getLast? = some Reader.newline then (line.dropLast, true) else (line, false)

/-- A number at the right side of a field. -/
def rightAligned (width number : Nat) : List Char :=
  let digits := Nat.toDigits 10 number
  List.replicate (width - digits.length) ' ' ++ digits

/-- The operands, or the standard input if there are none. -/
def inputs (operands : List String) : List String :=
  if operands = [] then ["-"] else operands

/-- How lines are shown when files are copied. -/
structure Display where
  numbers : Bool
  /-- Only lines that hold something are numbered. -/
  solidOnly : Bool
  ends : Bool
  tabs : Bool
  controls : Bool
  /-- Of several empty lines one is shown. -/
  squeezed : Bool
  deriving DecidableEq, Repr

/-- Whether everything is copied as it is. -/
def Display.isPlain (display : Display) : Bool :=
  display = ⟨false, false, false, false, false, false⟩

def Display.byte (display : Display) (byte : UInt8) : List UInt8 :=
  let low := fun value : UInt8 =>
    if value < 0x20 then [0x5E, value + 0x40] else if value = 0x7F then [0x5E, 0x3F] else [value]
  if byte = 0x09 then (if display.tabs then [0x5E, 0x49] else [byte])
  else if display.controls = false then [byte]
  else if byte < 0x80 then low byte
  else [0x4D, 0x2D] ++ low (byte - 0x80)

/-- How lines are shown, the next of which has the given number; `empty` says whether the line
before them is empty, and `inside` whether they begin inside a line. -/
def Display.lines (display : Display) (inside : Bool) (empty : Bool) (number : Nat) :
    List (List UInt8) → List UInt8 × Nat × Bool × Bool
  | [] => ([], number, empty, inside)
  | line :: rest =>
      let (content, ended) := withoutNewline line
      let isEmpty := content = [] && !inside
      if display.squeezed && isEmpty && empty then Display.lines display false true number rest
      else
        let isNumbered :=
          !inside && if display.solidOnly then !isEmpty else display.numbers
        let label :=
          if isNumbered then Text.Utf8.encode (String.ofList (rightAligned 6 number) ++ "\t")
          else []
        let finish := if ended then (if display.ends then [0x24, 0x0A] else [0x0A]) else []
        let (others, last) :=
          Display.lines display (!ended) isEmpty (if isNumbered then number + 1 else number) rest
        (label ++ content.flatMap display.byte ++ finish ++ others, last)

/-- The letters that ask for a way of showing lines. -/
def displayOptions : OptionTable where
  letters := "AbeEnstTuv".toList.map fun letter => (letter, false)
  names := [("show-all", 'A'), ("number-nonblank", 'b'), ("show-ends", 'E'), ("number", 'n'),
    ("squeeze-blank", 's'), ("show-tabs", 'T'), ("show-nonprinting", 'v')]

/-- The way of showing lines that has been asked for. -/
def Display.ofOptions (options : Options) : Display where
  numbers := options.has 'n'
  solidOnly := options.has 'b'
  ends := options.has 'E' || options.has 'A' || options.has 'e'
  tabs := options.has 'T' || options.has 'A' || options.has 't'
  controls := options.has 'v' || options.has 'A' || options.has 'e' || options.has 't'
  squeezed := options.has 's'

/-- Whether the standard output goes to the file that a path names, and would feed itself. -/
def feedsItself (state : State) (path : String) : Bool :=
  match state.channel? 1 with
  | some (.file identity) =>
      match state.world.files.lookup identity with
      | some file =>
          let place? :=
            if path = "-" then
              match state.channel? 0 with
              | some (.file other) =>
                  (state.world.files.lookup other).map fun source => source.location
              | _ => none
            else
              match state.world.tree.locate state.directory path with
              | .ok location => some location
              | .error _ => none
          place? = some file.location && state.bytesAt file.location ≠ []
      | none => false
  | _ => false

/-- Copy files, or the standard input, to the output. -/
def cat (state : State) (arguments : List String) : State :=
  withOptions displayOptions 1 state arguments fun options =>
    let display := Display.ofOptions options
    if (state.channel? 1).isNone then report state "standard output: Bad file descriptor" 1
    else
      let copyOne := fun (current : State × Nat × Bool × Bool) (path : String) =>
        let (before, number, empty, inside) := current
        if before.hasEnded then current
        else if feedsItself before path then
          (report before (path ++ ": input file is output file") 1, number, empty, inside)
        else
          match before.inputOf path with
          | (next, .error fault) =>
              let complained := report next (path ++ ": " ++ fault.reason) 1
              (if path = "-" ∧ fault = .badDescriptor then
                report complained "closing standard input: Bad file descriptor" 1
              else complained, number, empty, inside)
          | (next, .ok input) =>
              if display.isPlain then
                match next.copy 1 input.chunks with
                | (copied, none) => (copied.waitUntil input.finish, number, empty, inside)
                | (copied, some fault) =>
                    let failed := report copied ("write error: " ++ fault.reason) 1
                    (failed.finish (.exited 1), number, empty, inside)
              else
                let (shown, last) :=
                  Display.lines display inside empty number (linesOf input.bytes)
                (emit (next.waitUntil input.finish) shown, last)
      ((inputs options.operands).foldl copyOne (state.withStatus 0, 1, false, false)).1

/-- Which part of the lines or bytes of a file is wanted. -/
inductive Portion where
  /-- As many from the beginning. -/
  | first (count : Nat)
  /-- All but as many at the end. -/
  | butLast (count : Nat)
  /-- As many from the end. -/
  | last (count : Nat)
  /-- All from one on. -/
  | fromOne (count : Nat)
  deriving DecidableEq, Repr

/-- The wanted part of a list. -/
def Portion.of {α : Type} (portion : Portion) (items : List α) : List α :=
  match portion with
  | .first count => items.take count
  | .butLast count => items.take (items.length - count)
  | .last count => items.drop (items.length - count)
  | .fromOne count => items.drop (count - 1)

/-- The factor of a letter behind a number. -/
def scale? : List Char → Option Nat
  | [] => some 1
  | ['b'] => some 512
  | ['k', 'B'] | ['K', 'B'] => some 1000
  | ['k'] | ['K'] | ['K', 'i', 'B'] => some 1024
  | ['M', 'B'] => some 1000000
  | ['M'] | ['m'] | ['M', 'i', 'B'] => some (1024 * 1024)
  | ['G', 'B'] => some 1000000000
  | ['G'] | ['G', 'i', 'B'] => some (1024 * 1024 * 1024)
  | _ => none

/-- A number with a letter behind it. -/
def scaled? (characters : List Char) : Option Nat :=
  let (value, count, rest) := Number.digitsOf 10 characters
  if count = 0 then none else (scale? rest).map fun factor => value * factor

def beginning? (argument : String) : Option Portion :=
  match argument.toList with
  | '-' :: digits => (scaled? digits).map .butLast
  | '+' :: digits | digits => (scaled? digits).map .first

/-- The portion at the end that an argument asks for. -/
def ending? (argument : String) : Option Portion :=
  match argument.toList with
  | '+' :: digits => (scaled? digits).map .fromOne
  | '-' :: digits | digits => (scaled? digits).map .last

/-- The arguments with an older form of the first one, a number as an option of its own, written
out. -/
def modernized (fromEnd : Bool) (arguments : List String) : List String :=
  match arguments with
  | [] => []
  | word :: rest =>
      match word.toList with
      | '-' :: digit :: digits =>
          let written := (digit :: digits).takeWhile Char.isDigit
          match written, (digit :: digits).drop written.length with
          | _ :: _, [] => "-n" :: String.ofList written :: rest
          | _ :: _, ['c'] => "-c" :: String.ofList written :: rest
          | _, _ => arguments
      | '+' :: digits =>
          if fromEnd && (Text.Numeral.digits? digits).isSome then "-n" :: word :: rest
          else arguments
      | _ => arguments

/-- The options of the utilities that show a part of files. -/
def portionOptions : OptionTable where
  letters := [('n', true), ('c', true), ('q', false), ('v', false), ('f', false), ('F', false),
    ('s', true), ('z', false)]
  names := [("lines", 'n'), ("bytes", 'c'), ("quiet", 'q'), ("silent", 'q'), ("verbose", 'v'),
    ("follow", 'f'), ("sleep-interval", 's'), ("zero-terminated", 'z')]

/-- What a portion takes of an input, and the time when enough has been read. -/
def Portion.take (portion : Portion) (byBytes : Bool) (input : Source) : List UInt8 × Nat :=
  let wanted := fun bytes : List UInt8 =>
    if byBytes then portion.of bytes else (portion.of (linesOf bytes)).flatten
  let count := fun bytes : List UInt8 =>
    if byBytes then bytes.length else bytes.count Reader.newline
  let enough :=
    match portion with
    | .first needed =>
        if needed = 0 then some 0
        else
          (input.chunks.foldl
            (fun (state : Nat × Option Nat) (chunk : Nat × List UInt8) =>
              let sum := state.1 + count chunk.2
              (sum, state.2.or (if needed ≤ sum then some chunk.1 else none)))
            (0, none)).2
    | _ => none
  (wanted input.bytes, enough.getD input.finish)

/-- Show a part of files; of several files each gets a heading. -/
def showPortion (fromEnd : Bool) (state : State) (arguments : List String) : State :=
  withOptions portionOptions 1 state (modernized fromEnd arguments) fun options =>
    let byBytes := options.lastOf? ['n', 'c'] = some 'c'
    let given := (options.argument? (if byBytes then 'c' else 'n')).getD "10"
    match (if fromEnd then ending? given else beginning? given) with
    | none =>
        report state ("invalid number of " ++ (if byBytes then "bytes" else "lines") ++ ": " ++
          inQuotes given) 1
    | some portion =>
        let paths := inputs options.operands
        let hasHeadings : Bool :=
          match options.lastOf? ['q', 'v'] with
          | some letter => letter = 'v'
          | none => 1 < paths.length
        let showOne := fun (current : State × Bool) (path : String) =>
          let (before, isFirst) := current
          let heading := Text.Utf8.encode
            ((if isFirst then "" else "\n") ++ "==> " ++ inputName path ++ " <==\n")
          let opened := fun next : State => if hasHeadings then emit next heading else next
          if before.hasEnded then current
          else
            match before.inputOf path with
            | (next, .error .isDirectory) =>
                (report (opened next)
                  ("error reading " ++ inQuotes (inputName path) ++ ": Is a directory") 1, false)
            | (next, .error fault) =>
                if path = "-" then
                  let text :=
                    if fromEnd then "cannot fstat 'standard input': "
                    else "error reading 'standard input': "
                  (report (report next (text ++ fault.reason) 1) ("-: " ++ fault.reason) 1, false)
                else
                  (report next
                    ("cannot open " ++ inQuotes path ++ " for reading: " ++ fault.reason) 1,
                        isFirst)
            | (next, .ok input) =>
                let (bytes, moment) := portion.take byBytes input
                (emit (opened (next.waitUntil moment)) bytes, false)
        let shown := (paths.foldl showOne (state.withStatus 0, true)).1
        let isEndless := fromEnd && (options.has 'f' || options.has 'F') &&
          shown.status = 0 && options.operands ≠ []
        if isEndless then (shown.waitUntil State.never).withStatus 0 else shown

/-- Show the beginning of files. -/
def head (state : State) (arguments : List String) : State :=
  showPortion false state arguments

/-- Show the end of files. -/
def tail (state : State) (arguments : List String) : State :=
  showPortion true state arguments

/-- The number of words of bytes. -/
def wordCount (inside : Bool) (count : Nat) : List UInt8 → Nat
  | [] => count
  | byte :: rest =>
      if byte = 32 ∨ (9 ≤ byte ∧ byte ≤ 13) then wordCount false count rest
      else if inside then wordCount true count rest
      else wordCount true (count + 1) rest

def countOptions : OptionTable where
  letters := "clmwL".toList.map fun letter => (letter, false)
  names :=
    [("bytes", 'c'), ("chars", 'm'), ("lines", 'l'), ("words", 'w'), ("max-line-length", 'L')]

/-- Count the lines, words and bytes of files.  The numbers of several files stand below each
other in a width that the sizes of the files determine. -/
def count (state : State) (arguments : List String) : State :=
  withOptions countOptions 1 state arguments fun options =>
    let wanted := fun letter : Char =>
      options.has letter || (options.given = [] && ['l', 'w', 'c'].contains letter)
    let numbers := fun bytes : List UInt8 =>
      (if wanted 'l' then [bytes.count Reader.newline] else []) ++
        (if wanted 'w' then [wordCount false 0 bytes] else []) ++
        (if wanted 'm' then [bytes.length] else []) ++
        (if wanted 'c' then [bytes.length] else []) ++
        (if wanted 'L' then
          [((linesOf bytes).map fun line => (withoutNewline line).1.length).foldl max 0] else [])
    let isRegular := fun path : String =>
      if path = "-" then
        match state.channel? 0 with
        | some (.file _) => true
        | _ => false
      else state.world.tree.namesFile state.directory path
    let readOne := fun (current : State × List (String × List Nat) × List (Option Nat))
        (path : String) =>
      let (before, rows, sizes) := current
      match before.inputOf path with
      | (next, .ok input) =>
          (next.waitUntil input.finish, rows ++ [(path, numbers input.bytes)],
            sizes ++ [if isRegular path then some input.bytes.length else none])
      | (next, .error fault) =>
          let complained := report next
            ((if path = "-" then "'standard input'" else path) ++ ": " ++ fault.reason) 1
          if fault = .isDirectory || path = "-" then
            (complained, rows ++ [(path, numbers [])], sizes ++ [none])
          else (complained, rows, sizes)
    let paths := inputs options.operands
    let (read, rows, sizes) := paths.foldl readOne (state.withStatus 0, [], [])
    let columns := (numbers []).length
    let least := if sizes.any Option.isNone then 7 else 1
    let total := (sizes.filterMap id).foldl (fun sum size => sum + size) 0
    let width :=
      if paths.length < 2 ∧ columns = 1 then 1
      else if rows.length < paths.length ∧ rows.length = 0 then 1
      else max least (Nat.toDigits 10 total).length
    let sum := rows.foldl
      (fun (known : List Nat) row => List.zipWith (fun first second => first + second) known row.2)
      (List.replicate columns 0)
    let all := if paths.length < 2 then rows else rows ++ [("total", sum)]
    let text := all.map fun (path, row) =>
      String.intercalate " " (row.map fun number => String.ofList (rightAligned width number)) ++
        (if options.operands = [] then "" else " " ++ path) ++ "\n"
    let written := emitText read (String.join text)
    if paths.contains "-" && (state.channel? 0).isNone then
      report written "-: Bad file descriptor" 1
    else written

/-- Copy the standard input to the output and to files. -/
def tee (state : State) (arguments : List String) : State :=
  withOptions ⟨[('a', false), ('i', false), ('p', false)],
      [("append", 'a'), ("ignore-interrupts", 'i')]⟩ 1 state arguments fun options =>
    let opened := options.operands.foldl
      (fun (current : State) path =>
        match current.store path (options.has 'a') [] with
        | (next, none) => next
        | (next, some fault) => report next (path ++ ": " ++ fault.reason) 1)
      (state.withStatus 0)
    match opened.takeAll 0 with
    | (next, .error fault) => report next ("read error: " ++ fault.reason) 1
    | (next, .ok input) =>
        let copied := (next.copy 1 input.chunks).1.waitUntil input.finish
        options.operands.foldl (fun current path => (current.store path true input.bytes).1) copied

/-- Show lines, the last one first. -/
def reversed (state : State) (arguments : List String) : State :=
  withOptions ⟨[], []⟩ 1 state arguments fun options =>
    (inputs options.operands).foldl
      (fun (current : State) path =>
        match current.readWhole path with
        | (next, .ok bytes) => emit next (linesOf bytes).reverse.flatten
        | (next, .error .isDirectory) =>
            report next (path ++ ": read error: Is a directory") 1
        | (next, .error fault) =>
            report next ("failed to open " ++ inQuotes path ++ " for reading: " ++ fault.reason) 1)
      (state.withStatus 0)

end Utility

end CaseHarness.Shell
