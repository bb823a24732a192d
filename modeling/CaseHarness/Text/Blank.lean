/-!
# White space

The characters with the Unicode property `White_Space`, and the removal of
such characters at both ends of a text.
-/

namespace CaseHarness.Text

/-- The code points with the property `White_Space`, as inclusive ranges. -/
def blankRanges : List (Nat × Nat) :=
  [(0x09, 0x0D), (0x20, 0x20), (0x85, 0x85), (0xA0, 0xA0), (0x1680, 0x1680),
    (0x2000, 0x200A), (0x2028, 0x2029), (0x202F, 0x202F), (0x205F, 0x205F), (0x3000, 0x3000)]

/-- Whether a character is white space. -/
def isBlank (character : Char) : Bool :=
  blankRanges.any fun range => range.1 ≤ character.toNat && character.toNat ≤ range.2

/-- Remove the white space at the end. -/
def trimEnd (characters : List Char) : List Char :=
  (characters.reverse.dropWhile isBlank).reverse

/-- Remove the white space at both ends. -/
def trim (characters : List Char) : List Char :=
  trimEnd (characters.dropWhile isBlank)

@[simp]
theorem trim_nil : trim [] = [] :=
  rfl

/-- A text without white space at either end is kept. -/
theorem trim_eq_self {characters : List Char}
    (firstSolid : ∀ first ∈ characters.head?, isBlank first = false)
    (lastSolid : ∀ last ∈ characters.getLast?, isBlank last = false) :
    trim characters = characters := by
  have keepsFront : characters.dropWhile isBlank = characters := by
    cases characters with
    | nil => rfl
    | cons first rest => simp [firstSolid first rfl]
  have keepsBack : characters.reverse.dropWhile isBlank = characters.reverse := by
    cases reverseEq : characters.reverse with
    | nil => rfl
    | cons last others =>
        have lastEq : characters.getLast? = some last := by
          rw [List.getLast?_eq_head?_reverse, reverseEq]
          rfl
        simp [lastSolid last lastEq]
  simp [trim, trimEnd, keepsFront, keepsBack]

end CaseHarness.Text
