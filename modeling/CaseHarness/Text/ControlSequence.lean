import CaseHarness.Text.Utf8

/-!
# Removing terminal control sequences

A text that is shown as plain text loses the sequences that steer a terminal
and the control characters, white space apart.  The reader is a machine that
takes one byte at a time; outside of a sequence every printable byte is kept.
A byte that continues a character beyond ASCII is never part of a sequence, so
it ends the one it stands in and is kept, and so is white space after an escape
character or inside a control sequence proper.
-/

namespace CaseHarness.Text.ControlSequence

/-- What the reader is in the middle of. -/
inductive State where
  /-- Nothing: bytes are text. -/
  | text
  /-- An escape character was read. -/
  | escape
  /-- An escape character and intermediate bytes were read. -/
  | intermediate
  /-- A control sequence proper, which ends at its first letter. -/
  | sequence
  /-- A command to the operating system, which ends at a bell. -/
  | command
  /-- A device string, which ends only where another sequence begins. -/
  | string
  deriving DecidableEq, Repr

/-- White space among the bytes of text. -/
def isBlank (byte : UInt8) : Bool :=
  byte = 0x20 || byte = 0x09 || byte = 0x0A || byte = 0x0C || byte = 0x0D

/-- Whether a byte outside of every sequence is kept. -/
def isText (byte : UInt8) : Bool :=
  isBlank byte || (0x20 ≤ byte && byte ≠ 0x7F)

/-- Whether a byte continues a character beyond ASCII. -/
def continues (byte : UInt8) : Bool :=
  0x80 ≤ byte && byte ≤ 0xBF

/-- The state after the byte that follows an escape character. -/
def State.afterEscape (byte : UInt8) : State :=
  if 0x20 ≤ byte && byte ≤ 0x2F then .intermediate
  else if byte = 0x5B then .sequence
  else if byte = 0x5D then .command
  else if byte = 0x50 || byte = 0x58 || byte = 0x5E || byte = 0x5F then .string
  else if 0x30 ≤ byte && byte ≤ 0x7E then .text
  else .escape

/-- The state after a byte that is not kept. -/
def State.next (state : State) (byte : UInt8) : State :=
  if byte = 0x1B then .escape
  else if byte = 0x18 || byte = 0x1A then .text
  else
    match state with
    | .text => .text
    | .escape => .afterEscape byte
    | .intermediate => if 0x30 ≤ byte && byte ≤ 0x7E then .text else .intermediate
    | .sequence => if 0x40 ≤ byte && byte ≤ 0x7E then .text else .sequence
    | .command => if byte = 0x07 then .text else .command
    | .string => .string

def State.keeps (state : State) (byte : UInt8) : Bool :=
  continues byte ||
    match state with
    | .text => isText byte
    | .escape | .intermediate | .sequence => isBlank byte && byte ≠ 0x20
    | .command | .string => false

/-- The bytes that are kept of a sequence of bytes. -/
def stripFrom : State → List UInt8 → List UInt8
  | _, [] => []
  | state, byte :: rest =>
      if state.keeps byte then byte :: stripFrom .text rest
      else stripFrom (state.next byte) rest

/-- A text without control sequences. -/
def strip (text : String) : String :=
  Utf8.decode (stripFrom .text (Utf8.encode text))

/-- Text without control characters is kept as it is. -/
theorem stripFrom_text_of_all {bytes : List UInt8} (plain : ∀ byte ∈ bytes, isText byte) :
    stripFrom .text bytes = bytes := by
  induction bytes with
  | nil => rfl
  | cons byte rest ih =>
      have kept : State.keeps .text byte = true := by
        simp [State.keeps, plain byte List.mem_cons_self]
      rw [stripFrom, if_pos kept, ih fun other member =>
        plain other (List.mem_cons_of_mem _ member)]

/-- An escape character begins a sequence whatever it stands in. -/
theorem stripFrom_escape (state : State) (rest : List UInt8) :
    stripFrom state (0x1B :: rest) = stripFrom .escape rest := by
  have dropped : state.keeps 0x1B = false := by cases state <;> decide
  have begins : state.next 0x1B = .escape := by simp [State.next]
  rw [stripFrom, dropped, begins]
  rfl

end CaseHarness.Text.ControlSequence
