import Mathlib.Data.List.Basic

/-!
# The Unicode classes of `str.isdigit`, `str.isspace` and `int`

CPython 3.11 reads digits and white space off the Unicode 14.0 character database
(`unicodedata.unidata_version`). The scripts meet three of its classes:

- the decimal digits (`Numeric_Type=Decimal`, `unicodedata.decimal`): 66 runs of ten code
  points, `0` to `9` of one script each, given by their first code point
  (`decimalBlocks`). `int()` reads them as digits of their value (`decimalValue`);
- the other digits (`Numeric_Type=Digit`): superscripts, subscripts, circled and
  parenthesised digits (`otherDigitRanges`). `str.isdigit` accepts them with the decimal
  ones (`isDigitChar`); `int()` rejects them;
- the white space of `str.isspace` and `str.strip` (`isSpace`). `int()` skips only part of
  it around its literal: the ASCII characters `\t\n\v\f\r` and space, and every non-ASCII
  one, which CPython maps to a space before parsing; not the ASCII separators
  `\x1c`-`\x1f` (`intSpace`).

The proofs use that an ASCII digit is a decimal digit of its own value
(`decimalValue_of_isDigit`), that the value of a decimal digit is below ten
(`decimalValue_lt`), and that no digit is white space (`isSpace_of_isDigitChar`).
-/

set_option autoImplicit false

namespace TopologyPinning.Python

/-- The first code point of each run of ten decimal digits of Unicode 14.0, the ASCII
digits first. -/
def decimalBlocks : List Nat :=
  [48, 1632, 1776, 1984, 2406, 2534, 2662, 2790, 2918, 3046, 3174,
  3302, 3430, 3558, 3664, 3792, 3872, 4160, 4240, 6112, 6160, 6470,
  6608, 6784, 6800, 6992, 7088, 7232, 7248, 42528, 43216, 43264, 43472,
  43504, 43600, 44016, 65296, 66720, 68912, 69734, 69872, 69942, 70096, 70384,
  70736, 70864, 71248, 71360, 71472, 71904, 72016, 72784, 73040, 73120, 92768,
  92864, 93008, 120782, 120792, 120802, 120812, 120822, 123200, 123632, 125264, 130032]

/-- The digits of Unicode 14.0 that are not decimal digits, as ranges of code points. -/
def otherDigitRanges : List (Nat × Nat) :=
  [(178, 179), (185, 185), (4969, 4977), (6618, 6618), (8304, 8304), (8308, 8313),
  (8320, 8329), (9312, 9320), (9332, 9340), (9352, 9360), (9450, 9450), (9461, 9469),
  (9471, 9471), (10102, 10110), (10112, 10120), (10122, 10130), (68160, 68163), (69216, 69224),
  (69714, 69722), (127232, 127242)]

/-- `unicodedata.decimal` of the code point `n`. -/
def decimalOf (n : Nat) : Option Nat :=
  (decimalBlocks.find? fun b => b ≤ n && n < b + 10).map (n - ·)

/-- `str.isdigit` of the code point `n`. -/
def isDigitCode (n : Nat) : Bool :=
  (decimalOf n).isSome || otherDigitRanges.any fun r => r.1 ≤ n && n ≤ r.2

/-- `unicodedata.decimal(c)`: the value of a decimal digit of any script. -/
def decimalValue (c : Char) : Option Nat := decimalOf c.toNat

/-- `str.isdigit` on one character. -/
def isDigitChar (c : Char) : Bool := isDigitCode c.toNat

/-- `str.isspace` on one character. -/
def isSpace (c : Char) : Bool :=
  c.toNat ∈ [9, 10, 11, 12, 13, 28, 29, 30, 31, 32, 133, 160, 5760, 8192, 8193, 8194,
    8195, 8196, 8197, 8198, 8199, 8200, 8201, 8202, 8232, 8233, 8239, 8287, 12288]

/-- The white space `int()` skips around its literal. -/
def intSpace (c : Char) : Bool :=
  if c.toNat < 128 then c.toNat ∈ [9, 10, 11, 12, 13, 32] else isSpace c

example : decimalValue '٣' = some 3 ∧ isDigitChar '²' = true ∧ decimalValue '²' = none := by
  decide

/-- An ASCII digit is the decimal digit of its own value. -/
theorem decimalValue_of_isDigit {c : Char} (h : c.isDigit = true) :
    decimalValue c = some (c.toNat - 48) := by
  simp only [Char.isDigit, Bool.and_eq_true, decide_eq_true_eq] at h
  have h1 : 48 ≤ c.toNat := h.1
  have h2 : c.toNat ≤ 57 := h.2
  simp only [decimalValue, decimalOf, decimalBlocks, List.find?_cons]
  simp [h1, show c.toNat < 58 by omega]

theorem decimalValue_lt {c : Char} {v : Nat} (h : decimalValue c = some v) : v < 10 := by
  obtain ⟨b, hb, rfl⟩ := Option.map_eq_some'.1 h
  have := List.find?_some hb
  simp only [Bool.and_eq_true, decide_eq_true_eq] at this
  omega

theorem isDigitChar_of_decimalValue {c : Char} {v : Nat} (h : decimalValue c = some v) :
    isDigitChar c = true := by
  simp only [isDigitChar, isDigitCode, Bool.or_eq_true]
  exact .inl (by simp only [decimalValue] at h; simp [h])

theorem intSpace_isSpace {c : Char} (h : intSpace c = true) : isSpace c = true := by
  unfold intSpace at h
  split at h
  · simp only [isSpace, List.mem_cons, List.not_mem_nil, or_false, decide_eq_true_eq] at h ⊢
    omega
  · exact h

/-- No digit is white space. -/
theorem isSpace_of_isDigitChar {c : Char} (h : isDigitChar c = true) : isSpace c = false := by
  have hcodes : ∀ n ∈ [9, 10, 11, 12, 13, 28, 29, 30, 31, 32, 133, 160, 5760, 8192, 8193,
      8194, 8195, 8196, 8197, 8198, 8199, 8200, 8201, 8202, 8232, 8233, 8239, 8287, 12288],
      isDigitCode n = false := by decide
  by_contra hs
  simp only [isSpace, Bool.not_eq_false, decide_eq_true_eq] at hs
  exact absurd h (by simp [isDigitChar, hcodes _ hs])

end TopologyPinning.Python
