/-!
# Reading bytes as UTF-8

Reading never fails: each maximal run of bytes that begins a character but
does not complete it, and each byte that cannot begin one, is read as one
replacement character.  The reader is a machine that takes one byte at a time
and remembers the character it is in the middle of.
-/

namespace CaseHarness.Text.Utf8

/-- The character that stands for bytes that are no character. -/
def replacement : Char :=
  '\uFFFD'

/-- A character whose first bytes have been read. -/
structure Partial where
  /-- The bits read so far. -/
  value : Nat
  /-- How many bytes are still to come. -/
  missing : Nat
  /-- The least byte that may come next. -/
  low : UInt8
  /-- The greatest byte that may come next. -/
  high : UInt8
  deriving DecidableEq, Repr

/-- Whether a byte continues a character. -/
def Partial.accepts (held : Partial) (byte : UInt8) : Bool :=
  held.low ≤ byte && byte ≤ held.high

/-- Begin a character: what is read at once, and what is left unfinished. -/
def start (byte : UInt8) : List Char × Option Partial :=
  if byte ≤ 0x7F then ([Char.ofNat byte.toNat], none)
  else if 0xC2 ≤ byte && byte ≤ 0xDF then ([], some ⟨byte.toNat - 0xC0, 1, 0x80, 0xBF⟩)
  else if byte = 0xE0 then ([], some ⟨0, 2, 0xA0, 0xBF⟩)
  else if byte = 0xED then ([], some ⟨0xD, 2, 0x80, 0x9F⟩)
  else if 0xE1 ≤ byte && byte ≤ 0xEF then ([], some ⟨byte.toNat - 0xE0, 2, 0x80, 0xBF⟩)
  else if byte = 0xF0 then ([], some ⟨0, 3, 0x90, 0xBF⟩)
  else if 0xF1 ≤ byte && byte ≤ 0xF3 then ([], some ⟨byte.toNat - 0xF0, 3, 0x80, 0xBF⟩)
  else if byte = 0xF4 then ([], some ⟨4, 3, 0x80, 0x8F⟩)
  else ([replacement], none)

def step : Option Partial → UInt8 → List Char × Option Partial
  | none, byte => start byte
  | some held, byte =>
      if held.accepts byte then
        let value := held.value * 64 + byte.toNat % 64
        if held.missing ≤ 1 then ([Char.ofNat value], none)
        else ([], some ⟨value, held.missing - 1, 0x80, 0xBF⟩)
      else
        (replacement :: (start byte).1, (start byte).2)

/-- Read all bytes from a given state; an unfinished character at the end is replaced. -/
def decodeFrom : Option Partial → List UInt8 → List Char
  | none, [] => []
  | some _, [] => [replacement]
  | state, byte :: rest => (step state byte).1 ++ decodeFrom (step state byte).2 rest

/-- Read bytes as text, replacing what is no character. -/
def decode (bytes : List UInt8) : String :=
  String.ofList (decodeFrom none bytes)

def encode (text : String) : List UInt8 :=
  text.toList.flatMap String.utf8EncodeChar

/-- Read bytes as text if they are the bytes of a text. -/
def decode? (bytes : List UInt8) : Option String :=
  if encode (decode bytes) = bytes then some (decode bytes) else none

@[simp]
theorem decodeFrom_none_nil : decodeFrom none [] = [] :=
  rfl

@[simp]
theorem decodeFrom_some_nil (held : Partial) : decodeFrom (some held) [] = [replacement] :=
  rfl

theorem decodeFrom_cons (state : Option Partial) (byte : UInt8) (rest : List UInt8) :
    decodeFrom state (byte :: rest) =
      (step state byte).1 ++ decodeFrom (step state byte).2 rest := by
  cases state <;> rfl

end CaseHarness.Text.Utf8
