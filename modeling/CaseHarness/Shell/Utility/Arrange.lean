import CaseHarness.Shell.Pattern
import CaseHarness.Shell.Utility.Content

/-!
# Arranging lines

The utilities that sort, cut and change lines: each reads lines and writes
others, in bytes.
-/

namespace CaseHarness.Shell.Utility

/-! ### Sorting -/

/-- How keys are compared. -/
structure Comparison where
  numeric : Bool := false
  backwards : Bool := false
  /-- Upper and lower case are alike. -/
  alike : Bool := false
  /-- Blanks at the beginning are passed over. -/
  blanks : Bool := false
  deriving DecidableEq, Repr

/-- A part of a line that lines are sorted by: from a field and a character in it on, up to another
one. -/
structure SortKey where
  start : Nat × Nat
  finish : Option (Nat × Nat)
  comparison : Comparison
  deriving DecidableEq, Repr

def isBlankByte (byte : UInt8) : Bool :=
  byte = 0x20 || byte = 0x09

/-- The fields of a line; without a separator each begins with the blanks in front of it. -/
def fieldsOfLine (separator : Option UInt8) : Nat → List UInt8 → List (List UInt8)
  | 0, _ => []
  | fuel + 1, line =>
      match separator with
      | some mark =>
          let field := line.takeWhile fun byte => byte ≠ mark
          match line.drop field.length with
          | [] => [field]
          | _ :: rest => (field ++ [mark]) :: fieldsOfLine separator fuel rest
      | none =>
          if line = [] then []
          else
            let spaces := line.takeWhile isBlankByte
            let word := (line.drop spaces.length).takeWhile fun byte => !isBlankByte byte
            (spaces ++ word) ::
              fieldsOfLine separator fuel (line.drop (spaces.length + word.length))

/-- The bytes of a line that a key means. -/
def SortKey.of (key : SortKey) (separator : Option UInt8) (line : List UInt8) : List UInt8 :=
  let fields := fieldsOfLine separator (line.length + 1) line
  let before :=
    ((fields.take (key.start.1 - 1)).map List.length).foldl (fun sum size => sum + size) 0
  let begun := line.drop before
  let trimmed := if key.comparison.blanks then begun.dropWhile isBlankByte else begun
  let passed := line.length - trimmed.length + (key.start.2 - 1)
  let length :=
    match key.finish with
    | none => line.length
    | some (field, 0) =>
        let whole :=
          ((fields.take field).map List.length).foldl (fun sum size => sum + size) 0
        if separator.isSome ∧ field < fields.length then whole - 1 else whole
    | some (field, character) =>
        ((fields.take (field - 1)).map List.length).foldl (fun sum size => sum + size) 0 + character
  (line.take length).drop passed

/-- The number that bytes begin with, as a numerator and its decimal places. -/
def numberOfBytes (bytes : List UInt8) : Int × Nat :=
  let characters := (bytes.dropWhile isBlankByte).map fun byte => Char.ofNat byte.toNat
  let (negative, digits) :=
    match characters with
    | '-' :: rest => (true, rest)
    | rest => (false, rest)
  let (whole, _, behind) := Number.digitsOf 10 digits
  let (fraction, places, _) :=
    match behind with
    | '.' :: rest => Number.digitsOf 10 rest
    | _ => (0, 0, [])
  let value := Int.ofNat (whole * Nat.pow 10 places + fraction)
  (if negative then -value else value, places)

def compareBytes : List UInt8 → List UInt8 → Ordering
  | [], [] => .eq
  | [], _ :: _ => .lt
  | _ :: _, [] => .gt
  | first :: firsts, second :: seconds =>
      if first < second then .lt
      else if second < first then .gt
      else compareBytes firsts seconds

def upperByte (byte : UInt8) : UInt8 :=
  if 0x61 ≤ byte ∧ byte ≤ 0x7A then byte - 0x20 else byte

/-- The order of two keys. -/
def Comparison.order (comparison : Comparison) (first second : List UInt8) : Ordering :=
  let plain :=
    if comparison.numeric then
      let (left, leftPlaces) := numberOfBytes first
      let (right, rightPlaces) := numberOfBytes second
      compare (left * Nat.pow 10 rightPlaces) (right * Nat.pow 10 leftPlaces)
    else if comparison.alike then compareBytes (first.map upperByte) (second.map upperByte)
    else compareBytes first second
  if comparison.backwards then plain.swap else plain

/-- The order of two lines by the first key in which they differ. -/
def orderBy (separator : Option UInt8) (keys : List SortKey) (first second : List UInt8) :
    Ordering :=
  keys.foldl
    (fun known key =>
      match known with
      | .eq => key.comparison.order (key.of separator first) (key.of separator second)
      | found => found)
    .eq

/-- Set the way of comparing that a letter asks for. -/
def Comparison.withLetter (comparison : Comparison) : Char → Comparison
  | 'n' | 'g' => { comparison with numeric := true }
  | 'r' => { comparison with backwards := true }
  | 'f' => { comparison with alike := true }
  | 'b' => { comparison with blanks := true }
  | _ => comparison

/-- A place in a key, and the letters behind it. -/
def keyPlace (characters : List Char) : (Nat × Option Nat) × List Char :=
  let (field, _, rest) := Number.digitsOf 10 characters
  match rest with
  | '.' :: others =>
      let (character, _, last) := Number.digitsOf 10 others
      ((field, some character), last)
  | _ => ((field, none), rest)

/-- Read a key; one without letters is compared as all lines are. -/
def SortKey.ofText (general : Comparison) (text : String) : SortKey :=
  let ((field, character), rest) := keyPlace text.toList
  let letters := rest.takeWhile fun letter => letter ≠ ','
  let behind := (rest.drop letters.length).drop 1
  let ((lastField, lastCharacter), lastLetters) := keyPlace behind
  let all := letters ++ lastLetters
  { start := (field, character.getD 1)
    finish := if behind = [] then none else some (lastField, lastCharacter.getD 0)
    comparison := if all = [] then general else all.foldl Comparison.withLetter {} }

def sortOptions : OptionTable where
  letters := ("nrfubcsmCdigMhVz".toList.map fun letter => (letter, false)) ++
    ("ktoST".toList.map fun letter => (letter, true))
  names := [("numeric-sort", 'n'), ("reverse", 'r'), ("ignore-case", 'f'), ("unique", 'u'),
    ("ignore-leading-blanks", 'b'), ("check", 'c'), ("stable", 's'), ("key", 'k'),
    ("field-separator", 't'), ("output", 'o')]

/-- Leave one of several neighbours that are alike. -/
def uniqueNeighbours (alike : List UInt8 → List UInt8 → Bool) :
    List (List UInt8) → List (List UInt8)
  | [] => []
  | [line] => [line]
  | first :: second :: rest =>
      match uniqueNeighbours alike (second :: rest) with
      | kept => if alike first second then first :: kept.tail else first :: kept

/-- Sort the lines of files. -/
def sort (state : State) (arguments : List String) : State :=
  withOptions sortOptions 2 state arguments fun options =>
    let general := (options.given.map Prod.fst).foldl Comparison.withLetter {}
    let separator := (options.argument? 't').bind fun text => (Text.Utf8.encode text).head?
    let given := (options.given.filter fun entry => entry.1 = 'k').map fun entry =>
      SortKey.ofText general entry.2
    let keys := if given = [] then [⟨(1, 1), none, general⟩] else given
    let read := (inputs options.operands).foldl
      (fun (current : State × List (List UInt8)) path =>
        if current.1.status ≠ 0 then current
        else
          match current.1.readWhole path with
          | (next, .error .isDirectory) =>
              (report next ("read failed: " ++ path ++ ": Is a directory") 2, current.2)
          | (next, .error fault) =>
              (report next ("cannot read: " ++ path ++ ": " ++ fault.reason) 2, current.2)
          | (next, .ok bytes) =>
              (next, current.2 ++ (linesOf bytes).map fun line => (withoutNewline line).1))
      (state.withStatus 0, [])
    let (ready, lines) := read
    if ready.status ≠ 0 then ready
    else
      let byKeys := orderBy separator keys
      let inOrder := fun first second : List UInt8 =>
        match byKeys first second with
        | .lt => true
        | .gt => false
        | .eq =>
            if options.has 's' || options.has 'u' then true
            else ((⟨false, general.backwards, false, false⟩ : Comparison).order first second) ≠ .gt
      if options.has 'c' || options.has 'C' then
        match (lines.zip lines.tail).zipIdx.find? fun entry =>
            !inOrder entry.1.1 entry.1.2 with
        | some ((_, line), place) =>
            let name := (inputs options.operands).headD "-"
            if options.has 'C' then ready.withStatus 1
            else
              report ready (name ++ ":" ++ Text.Numeral.decimal (place + 2) ++ ": disorder: " ++
                Text.Utf8.decode line) 1
        | none => ready
      else
        let sorted := lines.mergeSort inOrder
        let kept :=
          if options.has 'u' then
            uniqueNeighbours (fun first second => byKeys first second = .eq) sorted
          else sorted
        let bytes := kept.flatMap fun line => line ++ [Reader.newline]
        match options.argument? 'o' with
        | some path =>
            match ready.store path false bytes with
            | (stored, none) => stored
            | (stored, some fault) =>
                report stored ("open failed: " ++ path ++ ": " ++ fault.reason) 2
        | none => emit ready bytes

/-! ### Neighbours -/

/-- Runs of lines that are alike, each with its first line and its length. -/
def runsOf (alike : List UInt8 → List UInt8 → Bool) : List (List UInt8) → List (List UInt8 × Nat)
  | [] => []
  | line :: rest =>
      match runsOf alike rest with
      | [] => [(line, 1)]
      | (first, count) :: others =>
          if alike line first then (line, count + 1) :: others
          else (line, 1) :: (first, count) :: others

/-- The options of the utility that compares neighbours. -/
def runOptions : OptionTable where
  letters := ("cduiDz".toList.map fun letter => (letter, false)) ++
    ("fsw".toList.map fun letter => (letter, true))
  names := [("count", 'c'), ("repeated", 'd'), ("unique", 'u'), ("ignore-case", 'i')]

/-- Show one of several neighbouring lines that are alike. -/
def unique (state : State) (arguments : List String) : State :=
  withOptions runOptions 1 state arguments fun options =>
    let path := options.operands.headD "-"
    match (state.withStatus 0).readWhole path with
    | (next, .error .isDirectory) =>
        report next ("error reading " ++ inQuotes path ++ ": Is a directory") 1
    | (next, .error fault) => report next (path ++ ": " ++ fault.reason) 1
    | (next, .ok bytes) =>
        let alike := fun first second : List UInt8 =>
          if options.has 'i' then first.map upperByte == second.map upperByte else first == second
        let runs := (runsOf alike ((linesOf bytes).map fun line => (withoutNewline line).1)).filter
          fun run =>
            (!options.has 'd' || 1 < run.2) && (!options.has 'u' || run.2 = 1)
        let shown := runs.flatMap fun (line, count) =>
          (if options.has 'c' then
            Text.Utf8.encode (String.ofList (rightAligned 7 count) ++ " ") else []) ++
            line ++ [Reader.newline]
        match options.operands[1]? with
        | some target =>
            match next.store target false shown with
            | (stored, none) => stored
            | (stored, some fault) => report stored (target ++ ": " ++ fault.reason) 1
        | none => emit next shown

/-! ### Columns -/

/-- Inclusive ranges of places, counted from one; a missing end is open. -/
def ranges? (text : String) : Option (List (Nat × Option Nat)) :=
  let one := fun piece : List Char =>
    let first := piece.takeWhile fun character => character ≠ '-'
    match piece.drop first.length with
    | [] => (Text.Numeral.digits? first).map fun place => (place, some place)
    | _ :: last =>
        if first = [] then (Text.Numeral.digits? last).map fun place => (1, some place)
        else if last = [] then (Text.Numeral.digits? first).map fun place => (place, none)
        else
          match Text.Numeral.digits? first, Text.Numeral.digits? last with
          | some low, some high => some (low, some high)
          | _, _ => none
  (Path.split ',' text.toList).foldr
    (fun piece known =>
      match known, one piece with
      | some others, some found => some (found :: others)
      | _, _ => none)
    (some [])

def isInRanges (ranges : List (Nat × Option Nat)) (place : Nat) : Bool :=
  ranges.any fun (low, high) => low ≤ place && high.all fun last => place ≤ last

def cutAt (mark : UInt8) : List UInt8 → List (List UInt8)
  | [] => [[]]
  | byte :: rest =>
      match cutAt mark rest with
      | piece :: pieces => if byte = mark then [] :: piece :: pieces else (byte :: piece) :: pieces
      | [] => [[byte]]

/-- The options of the utility that shows columns. -/
def columnOptions : OptionTable where
  letters := [('b', true), ('c', true), ('f', true), ('d', true), ('s', false), ('n', false)]
  names := [("bytes", 'b'), ("characters", 'c'), ("fields", 'f'), ("delimiter", 'd'),
    ("only-delimited", 's')]

/-- Show some columns of each line. -/
def cut (state : State) (arguments : List String) : State :=
  withOptions columnOptions 1 state arguments fun options =>
    let byFields := options.has 'f'
    match (options.argument? 'f').or ((options.argument? 'c').or (options.argument? 'b')) with
    | none => misuse state "you must specify a list of bytes, characters, or fields" 1
    | some text =>
        match ranges? text with
        | none =>
            misuse state
              ((if byFields then "invalid field value " else "invalid byte/character position ") ++
                inQuotes text) 1
        | some ranges =>
            if ranges.any fun range => range.1 = 0 then
              misuse state
                ((if byFields then "fields" else "byte/character positions") ++
                  " are numbered from 1") 1
            else
              let mark := ((options.argument? 'd').bind fun given =>
                (Text.Utf8.encode given).head?).getD 0x09
              let chosen := fun (items : List (List UInt8)) =>
                ((items.zipIdx 1).filter fun item => isInRanges ranges item.2).map Prod.fst
              let shown := fun line : List UInt8 =>
                if byFields then
                  if line.contains mark then
                    some ((chosen (cutAt mark line)).intersperse [mark]).flatten
                  else if options.has 's' then none
                  else some line
                else some (chosen (line.map fun byte => [byte])).flatten
              (inputs options.operands).foldl
                (fun (current : State) path =>
                  match current.readWhole path with
                  | (next, .error fault) => report next (path ++ ": " ++ fault.reason) 1
                  | (next, .ok bytes) =>
                      emit next ((linesOf bytes).flatMap fun line =>
                        ((shown (withoutNewline line).1).map fun text =>
                          text ++ [Reader.newline]).getD []))
                (state.withStatus 0)

/-! ### Characters -/

def classBytes (name : String) : List UInt8 :=
  (((List.range 128).filter fun code => inClass name (Char.ofNat code)).map UInt8.ofNat)

/-- The bytes of a set, and the classes among them in order of their places. -/
def setBytes : Nat → List Char → List UInt8
  | 0, _ => []
  | _ + 1, [] => []
  | fuel + 1, '[' :: ':' :: rest =>
      let name := rest.takeWhile Char.isLower
      match rest.drop name.length with
      | ':' :: ']' :: others => classBytes (String.ofList name) ++ setBytes fuel others
      | _ => 0x5B :: setBytes fuel (':' :: rest)
  | fuel + 1, characters =>
      let one := fun given : List Char =>
        match given with
        | '\\' :: rest => (Escapes.shellFormat.read? rest).getD ([], [])
        | character :: rest => (String.utf8EncodeChar character, rest)
        | [] => ([], [])
      let (bytes, rest) := one characters
      let (known, behind) :=
        match bytes, rest with
        | [low], '-' :: last :: others =>
            match one (last :: others) with
            | ([high], following) =>
                ((List.range' low.toNat (high.toNat + 1 - low.toNat)).map UInt8.ofNat, following)
            | _ => (bytes, rest)
        | _, _ => (bytes, rest)
      known ++ setBytes fuel behind

/-- The options of the utility that changes characters. -/
def changeOptions : OptionTable where
  letters := "cCdst".toList.map fun letter => (letter, false)
  names := [("complement", 'c'), ("delete", 'd'), ("squeeze-repeats", 's'), ("truncate-set1", 't')]

/-- Leave one of several equal neighbours that are in a set. -/
def squeezed (set : List UInt8) (last : Option UInt8) : List UInt8 → List UInt8
  | [] => []
  | byte :: rest =>
      if last = some byte && set.contains byte then squeezed set last rest
      else byte :: squeezed set (some byte) rest

/-- Change, remove or squeeze the bytes of the standard input. -/
def translate (state : State) (arguments : List String) : State :=
  match Options.beforeOperands changeOptions arguments with
  | .error fault => misuse state fault.text 1
  | .ok options =>
      let deletes := options.has 'd'
      let squeezes := options.has 's'
      let most := if deletes && !squeezes then 1 else 2
      match options.operands with
      | [] => misuse state "missing operand" 1
      | first :: others =>
          if others = [] ∧ !deletes ∧ !squeezes then
            misuse state ("missing operand after " ++ inQuotes first ++
              "\nTwo strings must be given when translating.") 1
          else
            match (first :: others).drop most with
            | extra :: _ =>
                let reason :=
                  if deletes && others.length = 1 then
                    "\nOnly one string may be given when deleting without squeezing repeats."
                  else ""
                misuse state ("extra operand " ++ inQuotes extra ++ reason) 1
            | [] =>
                let written := setBytes (first.length + 1) first.toList
                let source :=
                  if options.has 'c' || options.has 'C' then
                    ((List.range 256).map UInt8.ofNat).filter fun byte => !written.contains byte
                  else written
                let second := others.head?.map fun text => setBytes (text.length + 1) text.toList
                let target := second.getD []
                let changed := fun byte : UInt8 =>
                  match source.reverse.idxOf? byte with
                  | some fromEnd =>
                      ((target[source.length - 1 - fromEnd]?).or target.getLast?).getD byte
                  | none => byte
                match (state.withStatus 0).readWhole "-" with
                | (next, .error fault) => report next ("read error: " ++ fault.reason) 1
                | (next, .ok bytes) =>
                    let kept :=
                      if deletes then bytes.filter fun byte => !source.contains byte
                      else if second.isSome then bytes.map changed
                      else bytes
                    let set := second.getD source
                    emit next (if squeezes then squeezed set none kept else kept)

/-! ### Other changes -/

def changeLines (change : List UInt8 → List UInt8) (state : State) (arguments : List String) :
    State :=
  withOptions ⟨[], []⟩ 1 state arguments fun options =>
    (inputs options.operands).foldl
      (fun (current : State) path =>
        match current.readWhole path with
        | (next, .error fault) =>
            report next ("cannot open " ++ path ++ ": " ++ fault.reason) 1
        | (next, .ok bytes) =>
            emit next ((linesOf bytes).flatMap fun line =>
              let (content, ended) := withoutNewline line
              change content ++ if ended then [Reader.newline] else []))
      (state.withStatus 0)

/-- Show each line backwards. -/
def mirrored (state : State) (arguments : List String) : State :=
  changeLines
    (fun line =>
        Text.Utf8.encode (String.ofList (Text.Utf8.decode line).toList.reverse)) state arguments

/-- Show lines with numbers in front of those that hold something. -/
def numbered (state : State) (arguments : List String) : State :=
  withOptions ⟨[('b', true), ('w', true), ('s', true)], []⟩ 1 state arguments fun options =>
    let all := options.argument? 'b' = some "a"
    let read := (inputs options.operands).foldl
      (fun (current : State × List (List UInt8)) path =>
        match current.1.readWhole path with
        | (next, .error fault) => (report next (path ++ ": " ++ fault.reason) 1, current.2)
        | (next, .ok bytes) => (next, current.2 ++ linesOf bytes))
      (state.withStatus 0, [])
    let shown := read.2.foldl
      (fun (current : List (List UInt8) × Nat) line =>
        let content := (withoutNewline line).1
        if content = [] && !all then
          ((List.replicate 7 0x20 ++ [Reader.newline]) :: current.1, current.2)
        else
          ((Text.Utf8.encode (String.ofList (rightAligned 6 current.2) ++ "\t") ++ content ++
            [Reader.newline]) :: current.1, current.2 + 1))
      ([], 1)
    emit read.1 shown.1.reverse.flatten

end CaseHarness.Shell.Utility
