import CaseHarness.Text.Utf8
import Mathlib.Tactic.Ring

/-!
# Reading bytes as text

An ASCII byte is always read as its own character: it ends whatever was unfinished before it,
and a byte beyond ASCII is only ever read as characters beyond ASCII.  The codes that an
unfinished character can still have are an interval, which each further byte narrows.  The
bytes of a text are read as that text, whatever follows them, and so bytes are read as a text
with an ASCII opening exactly if they begin with the bytes of that opening.
-/

namespace CaseHarness.Text.Utf8

/-- The least code that an unfinished character can still have. -/
def Partial.least (held : Partial) : Nat :=
  (held.value * 64 + held.low.toNat % 64) * Nat.pow 64 (held.missing - 1)

/-- The first code behind all those that an unfinished character can still have. -/
def Partial.limit (held : Partial) : Nat :=
  (held.value * 64 + held.high.toNat % 64 + 1) * Nat.pow 64 (held.missing - 1)

/-- An unfinished character that only bytes beyond ASCII continue, and which they make a
character beyond ASCII. -/
structure Partial.Wide (held : Partial) : Prop where
  low : 128 ≤ held.low.toNat
  high : held.high.toNat ≤ 191
  beyond : 128 ≤ held.least
  valid : held.limit ≤ 0xD800 ∨ 0xE000 ≤ held.least ∧ held.limit ≤ 0x110000

theorem Partial.accepts_iff {held : Partial} {byte : UInt8} :
    held.accepts byte = true ↔
      held.low.toNat ≤ byte.toNat ∧ byte.toNat ≤ held.high.toNat := by
  simp [Partial.accepts, UInt8.le_iff_toNat_le]

/-- A further byte leaves some of the codes that the character could have. -/
theorem Partial.Wide.narrows {held : Partial} {byte : UInt8} (wide : held.Wide)
    (accepts : held.accepts byte = true) :
    held.least ≤ (held.value * 64 + byte.toNat % 64) * Nat.pow 64 (held.missing - 1) ∧
      (held.value * 64 + byte.toNat % 64 + 1) * Nat.pow 64 (held.missing - 1) ≤ held.limit := by
  obtain ⟨lowLe, leHigh⟩ := Partial.accepts_iff.mp accepts
  have low := wide.low
  have high := wide.high
  exact ⟨Nat.mul_le_mul_right _ (by omega), Nat.mul_le_mul_right _ (by omega)⟩

def Beyond (character : Char) : Prop :=
  128 ≤ character.toNat

theorem beyond_replacement : Beyond replacement := by
  unfold Beyond
  decide

theorem toNat_ofNat {code : Nat} (valid : code < 0xD800 ∨ 0xE000 ≤ code ∧ code < 0x110000) :
    (Char.ofNat code).toNat = code := by
  have isValid : code.isValidChar := valid
  rw [Char.ofNat, dif_pos isValid]
  rfl

theorem beyond_ofNat {code : Nat} (beyond : 128 ≤ code)
    (valid : code < 0xD800 ∨ 0xE000 ≤ code ∧ code < 0x110000) : Beyond (Char.ofNat code) := by
  rwa [Beyond, toNat_ofNat valid]

/-- The last byte makes a character beyond ASCII, and any other one leaves it unfinished. -/
theorem Partial.Wide.accept {held : Partial} {byte : UInt8} (wide : held.Wide)
    (accepts : held.accepts byte = true) :
    (held.missing ≤ 1 → Beyond (Char.ofNat (held.value * 64 + byte.toNat % 64))) ∧
      (¬ held.missing ≤ 1 → Partial.Wide
        ⟨held.value * 64 + byte.toNat % 64, held.missing - 1, 0x80, 0xBF⟩) := by
  obtain ⟨least, limit⟩ := wide.narrows accepts
  have beyond := wide.beyond
  have valid := wide.valid
  generalize held.value * 64 + byte.toNat % 64 = code at *
  constructor
  · intro last
    have weight : Nat.pow 64 (held.missing - 1) = 1 := by rw [Nat.sub_eq_zero_of_le last]
    rw [weight] at least limit
    exact beyond_ofNat (by omega) (by omega)
  · intro more
    have weight : Nat.pow 64 (held.missing - 1) = Nat.pow 64 (held.missing - 1 - 1) * 64 := by
      obtain ⟨left, leftEq⟩ : ∃ left, held.missing - 1 = left + 1 := ⟨held.missing - 2, by omega⟩
      rw [leftEq]
      rfl
    have leastEq : Partial.least ⟨code, held.missing - 1, 0x80, 0xBF⟩ =
        code * Nat.pow 64 (held.missing - 1) := by
      simp only [Partial.least, weight, UInt8.reduceToNat]
      ring
    have limitEq : Partial.limit ⟨code, held.missing - 1, 0x80, 0xBF⟩ =
        (code + 1) * Nat.pow 64 (held.missing - 1) := by
      simp only [Partial.limit, weight, UInt8.reduceToNat]
      ring
    refine ⟨by simp, by simp, ?_, ?_⟩
    · rw [leastEq]
      omega
    · rw [leastEq, limitEq]
      omega

/-- What the reader remembers is the beginning of a character beyond ASCII. -/
def Ready (state : Option Partial) : Prop :=
  ∀ held ∈ state, held.Wide

theorem ready_none : Ready none := by
  simp [Ready]

theorem ready_some {held : Partial} (wide : held.Wide) : Ready (some held) := by
  simpa [Ready] using wide

/-- A byte that is no ASCII character begins a longer one or is replaced at once. -/
theorem start_cases {byte : UInt8} (beyond : 128 ≤ byte.toNat) :
    start byte = ([replacement], none) ∨
      ∃ held, Partial.Wide held ∧ start byte = ([], some held) := by
  have notAscii : ¬ byte ≤ 0x7F := by
    simp only [UInt8.le_iff_toNat_le, UInt8.reduceToNat]
    omega
  unfold start
  rw [if_neg notAscii]
  repeat' split
  all_goals first
    | exact Or.inl rfl
    | refine Or.inr ⟨_, ?_, rfl⟩
      constructor <;>
        simp_all [UInt8.le_iff_toNat_le, ← UInt8.toNat_inj, Partial.least, Partial.limit] <;> omega

variable {state : Option Partial} {byte : UInt8} {bytes : List UInt8}

/-- A byte beyond ASCII is read as characters beyond ASCII, if any. -/
theorem step_beyond (ready : Ready state) (beyond : 128 ≤ byte.toNat) :
    (∀ character ∈ (step state byte).1, Beyond character) ∧ Ready (step state byte).2 ∧
      (step state byte).1 ++ decodeFrom (step state byte).2 [] ≠ [] := by
  have started : (∀ character ∈ (start byte).1, Beyond character) ∧ Ready (start byte).2 ∧
      (start byte).1 ++ decodeFrom (start byte).2 [] ≠ [] := by
    rcases start_cases beyond with startEq | ⟨held, wide, startEq⟩
    · simp [startEq, beyond_replacement, ready_none]
    · simp [startEq, ready_some wide]
  cases state with
  | none => exact started
  | some held =>
      have wide : held.Wide := ready held rfl
      obtain ⟨startBeyond, startReady, -⟩ := started
      simp only [step]
      split
      · next accepts =>
        obtain ⟨last, more⟩ := wide.accept accepts
        split
        · next isLast => simp [last isLast, ready_none]
        · next isNotLast => exact ⟨by simp, ready_some (more isNotLast), by simp⟩
      · refine ⟨?_, startReady, by simp⟩
        simpa [beyond_replacement] using startBeyond

/-- An ASCII byte ends every unfinished character and is read as itself. -/
theorem step_ascii (ready : Ready state) (ascii : byte.toNat < 128) :
    step state byte = (decodeFrom state [] ++ [Char.ofNat byte.toNat], none) := by
  have isAscii : byte ≤ 0x7F := by
    simp only [UInt8.le_iff_toNat_le, UInt8.reduceToNat]
    omega
  have startEq : start byte = ([Char.ofNat byte.toNat], none) := by
    rw [start, if_pos isAscii]
  cases state with
  | none => exact startEq
  | some held =>
      have wide : held.Wide := ready held rfl
      have refused : ¬ held.accepts byte = true := by
        rw [Partial.accepts_iff]
        have low := wide.low
        omega
      simp [step, refused, startEq]

theorem beyond_of_mem_decodeFrom_nil {character : Char} (mem : character ∈ decodeFrom state []) :
    Beyond character := by
  cases state with
  | none => simp at mem
  | some held =>
      simp only [decodeFrom_some_nil, List.mem_singleton] at mem
      exact mem ▸ beyond_replacement

/-- Only an ASCII byte is read as an ASCII character at the beginning. -/
theorem head?_of_decodeFrom_eq_ascii {character : Char} (ascii : character.toNat < 128)
    (ready : Ready state) (headEq : (decodeFrom state bytes).head? = some character) :
    state = none ∧ ∃ byte rest, bytes = byte :: rest ∧ byte.toNat = character.toNat := by
  have notBeyond : ¬ Beyond character := Nat.not_le_of_lt ascii
  induction bytes generalizing state with
  | nil => exact absurd (beyond_of_mem_decodeFrom_nil (List.mem_of_head? headEq)) notBeyond
  | cons byte rest ih =>
      rw [decodeFrom_cons] at headEq
      by_cases byteAscii : byte.toNat < 128
      · rw [step_ascii ready byteAscii] at headEq
        cases state with
        | none =>
            simp only [decodeFrom_none_nil, List.nil_append, List.singleton_append,
              List.head?_cons, Option.some.injEq] at headEq
            refine ⟨rfl, byte, rest, rfl, ?_⟩
            rw [← headEq, toNat_ofNat (by omega)]
        | some held =>
            simp only [decodeFrom_some_nil, List.cons_append, List.head?_cons,
              Option.some.injEq] at headEq
            exact absurd (headEq ▸ beyond_replacement) notBeyond
      · obtain ⟨beyond, nextReady, nonempty⟩ := step_beyond ready (Nat.le_of_not_lt byteAscii)
        cases emitted : (step state byte).1 with
        | cons first others =>
            rw [emitted, List.cons_append, List.head?_cons, Option.some.injEq] at headEq
            exact absurd (headEq ▸ beyond first (by simp [emitted])) notBeyond
        | nil =>
            rw [emitted, List.nil_append] at headEq
            obtain ⟨nothing, -⟩ := ih nextReady headEq
            simp [emitted, nothing] at nonempty

section Characters

variable {code : Nat} (rest : List UInt8)

theorem start_two : ∀ lead < 32, 2 ≤ lead →
    start (UInt8.ofNat (lead + 0xC0)) = ([], some ⟨lead, 1, 0x80, 0xBF⟩) := by
  decide

theorem start_three : ∀ lead < 16, start (UInt8.ofNat (lead + 0xE0)) =
    ([], some ⟨lead, 2, if lead = 0 then 0xA0 else 0x80, if lead = 13 then 0x9F else 0xBF⟩) := by
  decide

theorem start_four : ∀ lead < 5, start (UInt8.ofNat (lead + 0xF0)) =
    ([], some ⟨lead, 3, if lead = 0 then 0x90 else 0x80, if lead = 4 then 0x8F else 0xBF⟩) := by
  decide

/-- A byte that continues a character adds its six bits. -/
theorem step_tail {held : Partial} {tail : Nat} (small : tail < 64)
    (low : held.low.toNat ≤ tail + 0x80) (high : tail + 0x80 ≤ held.high.toNat) :
    step (some held) (UInt8.ofNat (tail + 0x80)) =
      if held.missing ≤ 1 then ([Char.ofNat (held.value * 64 + tail)], none)
      else ([], some ⟨held.value * 64 + tail, held.missing - 1, 0x80, 0xBF⟩) := by
  have toNatEq : (UInt8.ofNat (tail + 0x80)).toNat = tail + 0x80 := by
    rw [UInt8.toNat_ofNat']
    omega
  have accepts : held.accepts (UInt8.ofNat (tail + 0x80)) = true :=
    Partial.accepts_iff.mpr ⟨by omega, by omega⟩
  have bits : (tail + 0x80) % 64 = tail := by omega
  simp only [step, accepts, if_true, toNatEq, bits]

theorem step_last_tail (value tail : Nat) (small : tail < 64) :
    step (some ⟨value, 1, 0x80, 0xBF⟩) (UInt8.ofNat (tail + 0x80)) =
      ([Char.ofNat (value * 64 + tail)], none) :=
  step_tail small (by simp) (by simp; omega)

theorem decodeFrom_two (least : 0x80 ≤ code) (bound : code < 0x800) :
    decodeFrom none (UInt8.ofNat (code / 64 + 0xC0) :: UInt8.ofNat (code % 64 + 0x80) :: rest) =
      Char.ofNat code :: decodeFrom none rest := by
  have codeEq : code / 64 * 64 + code % 64 = code := by omega
  rw [decodeFrom_cons, step, start_two _ (by omega) (by omega), decodeFrom_cons,
    step_last_tail _ _ (Nat.mod_lt _ (by decide)), codeEq]
  rfl

theorem decodeFrom_three (least : 0x800 ≤ code)
    (bound : code < 0xD800 ∨ 0xE000 ≤ code ∧ code < 0x10000) :
    decodeFrom none (UInt8.ofNat (code / 4096 + 0xE0) :: UInt8.ofNat (code / 64 % 64 + 0x80) ::
        UInt8.ofNat (code % 64 + 0x80) :: rest) =
      Char.ofNat code :: decodeFrom none rest := by
  have codeEq : (code / 4096 * 64 + code / 64 % 64) * 64 + code % 64 = code := by omega
  have second : step
      (some ⟨code / 4096, 2, if code / 4096 = 0 then 0xA0 else 0x80,
        if code / 4096 = 13 then 0x9F else 0xBF⟩)
      (UInt8.ofNat (code / 64 % 64 + 0x80)) =
        ([], some ⟨code / 4096 * 64 + code / 64 % 64, 1, 0x80, 0xBF⟩) := by
    refine step_tail (Nat.mod_lt _ (by decide)) ?_ ?_
    · dsimp only
      split
      · simp
        omega
      · simp
    · dsimp only
      split <;> simp <;> omega
  rw [decodeFrom_cons, step, start_three _ (by omega), decodeFrom_cons, second, decodeFrom_cons,
    step_last_tail _ _ (Nat.mod_lt _ (by decide)), codeEq]
  rfl

theorem decodeFrom_four (least : 0x10000 ≤ code) (bound : code < 0x110000) :
    decodeFrom none (UInt8.ofNat (code / 262144 + 0xF0) ::
        UInt8.ofNat (code / 4096 % 64 + 0x80) :: UInt8.ofNat (code / 64 % 64 + 0x80) ::
        UInt8.ofNat (code % 64 + 0x80) :: rest) =
      Char.ofNat code :: decodeFrom none rest := by
  have codeEq : ((code / 262144 * 64 + code / 4096 % 64) * 64 + code / 64 % 64) * 64 +
      code % 64 = code := by omega
  have second : step
      (some ⟨code / 262144, 3, if code / 262144 = 0 then 0x90 else 0x80,
        if code / 262144 = 4 then 0x8F else 0xBF⟩)
      (UInt8.ofNat (code / 4096 % 64 + 0x80)) =
        ([], some ⟨code / 262144 * 64 + code / 4096 % 64, 2, 0x80, 0xBF⟩) := by
    refine step_tail (Nat.mod_lt _ (by decide)) ?_ ?_
    · dsimp only
      split
      · simp
        omega
      · simp
    · dsimp only
      split <;> simp <;> omega
  have third : step (some ⟨code / 262144 * 64 + code / 4096 % 64, 2, 0x80, 0xBF⟩)
      (UInt8.ofNat (code / 64 % 64 + 0x80)) =
        ([], some ⟨(code / 262144 * 64 + code / 4096 % 64) * 64 + code / 64 % 64, 1, 0x80,
          0xBF⟩) :=
    step_tail (Nat.mod_lt _ (by decide)) (by simp) (by simp; omega)
  rw [decodeFrom_cons, step, start_four _ (by omega), decodeFrom_cons, second, decodeFrom_cons,
    third, decodeFrom_cons, step_last_tail _ _ (Nat.mod_lt _ (by decide)), codeEq]
  rfl

/-- The bytes of a character are read as that character, whatever follows them. -/
theorem decodeFrom_utf8EncodeChar (character : Char) :
    decodeFrom none (String.utf8EncodeChar character ++ rest) =
      character :: decodeFrom none rest := by
  have valid : character.val.toNat < 0xD800 ∨
      0xDFFF < character.val.toNat ∧ character.val.toNat < 0x110000 := character.valid
  have charEq : Char.ofNat character.val.toNat = character := Char.ofNat_toNat character
  unfold String.utf8EncodeChar
  generalize character.val.toNat = code at *
  rw [← charEq]
  dsimp only
  split
  · next one =>
    have ascii : (UInt8.ofNat code).toNat = code := by
      rw [UInt8.toNat_ofNat']
      omega
    rw [List.singleton_append, decodeFrom_cons, step_ascii ready_none (by omega), ascii]
    rfl
  split
  · next two =>
    rw [Nat.mod_eq_of_lt (by omega)]
    exact decodeFrom_two rest (by omega) (by omega)
  split
  · next three =>
    rw [Nat.mod_eq_of_lt (by omega : code / 4096 < 0x10)]
    exact decodeFrom_three rest (by omega) (by omega)
  · next four =>
    rw [Nat.mod_eq_of_lt (by omega : code / 262144 < 0x08)]
    exact decodeFrom_four rest (by omega) (by omega)

/-- The bytes of a text are read as that text, whatever follows them. -/
theorem decodeFrom_flatMap_utf8EncodeChar (characters : List Char) :
    decodeFrom none (characters.flatMap String.utf8EncodeChar ++ rest) =
      characters ++ decodeFrom none rest := by
  induction characters with
  | nil => rfl
  | cons character characters ih =>
      rw [List.flatMap_cons, List.append_assoc, decodeFrom_utf8EncodeChar, ih, List.cons_append]

theorem decode_encode_append (text : String) :
    decode (encode text ++ rest) = text ++ decode rest := by
  rw [← String.toList_inj, String.toList_append]
  simp only [decode, encode, String.toList_ofList, decodeFrom_flatMap_utf8EncodeChar]

theorem decode_encode (text : String) : decode (encode text) = text := by
  have whole := decode_encode_append [] text
  have nothing : decode [] = "" := rfl
  rwa [List.append_nil, nothing, String.append_empty] at whole

end Characters

theorem utf8EncodeChar_of_ascii {character : Char} (ascii : character.toNat < 128) :
    String.utf8EncodeChar character = [UInt8.ofNat character.toNat] := by
  have small : character.val.toNat ≤ 0x7F := Nat.le_of_lt_succ ascii
  rw [String.utf8EncodeChar]
  exact if_pos small

/-- Bytes that are read as a text with an ASCII opening begin with the bytes of the opening. -/
theorem exists_of_decodeFrom_eq_append {opening others : List Char}
    (ascii : ∀ character ∈ opening, character.toNat < 128)
    (reads : decodeFrom none bytes = opening ++ others) :
    ∃ rest, bytes = opening.flatMap String.utf8EncodeChar ++ rest ∧
      others = decodeFrom none rest := by
  induction opening generalizing bytes with
  | nil => exact ⟨bytes, rfl, reads.symm⟩
  | cons character opening ih =>
      obtain ⟨characterAscii, openingAscii⟩ := List.forall_mem_cons.mp ascii
      obtain ⟨-, byte, rest, rfl, byteEq⟩ :=
        head?_of_decodeFrom_eq_ascii characterAscii ready_none (by rw [reads]; rfl)
      have sameByte : byte = UInt8.ofNat character.toNat := by
        rw [← byteEq, UInt8.ofNat_toNat]
      have readsByte : decodeFrom none (byte :: rest) =
          Char.ofNat byte.toNat :: decodeFrom none rest := by
        rw [decodeFrom_cons, step_ascii ready_none (by omega)]
        rfl
      rw [readsByte, byteEq, Char.ofNat_toNat, List.cons_append, List.cons.injEq] at reads
      obtain ⟨more, rfl, othersEq⟩ := ih openingAscii reads.2
      exact ⟨more, by simp [utf8EncodeChar_of_ascii characterAscii, sameByte], othersEq⟩

/-- Behind an ASCII opening a text is read just as it would be without the opening. -/
theorem decode_eq_append_iff {opening others : String}
    (ascii : opening.toList.all fun character => character.toNat < 128) :
    decode bytes = opening ++ others ↔
      ∃ rest, bytes = encode opening ++ rest ∧ others = decode rest := by
  constructor
  · intro reads
    have charactersEq : decodeFrom none bytes = opening.toList ++ others.toList := by
      rw [← String.toList_append, ← reads, decode, String.toList_ofList]
    have asciiMem : ∀ character ∈ opening.toList, character.toNat < 128 :=
      fun character mem => of_decide_eq_true (List.all_eq_true.mp ascii character mem)
    obtain ⟨rest, bytesEq, othersEq⟩ := exists_of_decodeFrom_eq_append asciiMem charactersEq
    refine ⟨rest, bytesEq, ?_⟩
    rw [decode, ← othersEq, String.ofList_toList]
  · rintro ⟨rest, rfl, rfl⟩
    exact decode_encode_append rest opening

end CaseHarness.Text.Utf8
