import Mathlib.Algebra.Group.Nat.Defs
import Mathlib.Data.List.DropRight
import Mathlib.Data.Nat.Notation

/-!
# Texts as Python reads them

Library `Base`. The string methods `strip`, `isdigit` and `startswith`, and the conversions
between texts of digits and integers. The classes of characters are those of Unicode 14.0, which
Python 3.11 uses. More characters are digits to `isdigit` than `int` accepts, and both
conversions refuse more digits than the interpreter allows.
-/

namespace VisionGame.Base.Text

/-! ### Classes of characters -/

/-- A code point lies in one of the ranges. -/
def inRanges (ranges : List (ℕ × ℕ)) (n : ℕ) : Bool := ranges.any fun r ↦ r.1 ≤ n ∧ n ≤ r.2

/-- Code points of whitespace. -/
def spaceRanges : List (ℕ × ℕ) :=
  [(0x9, 0xD), (0x1C, 0x20), (0x85, 0x85), (0xA0, 0xA0), (0x1680, 0x1680), (0x2000, 0x200A),
    (0x2028, 0x2029), (0x202F, 0x202F), (0x205F, 0x205F), (0x3000, 0x3000)]

/-- Zeros of the decimal digits, each followed by the other nine digits of its script. -/
def decimalZeros : List ℕ :=
  [0x30, 0x660, 0x6F0, 0x7C0, 0x966, 0x9E6, 0xA66, 0xAE6, 0xB66, 0xBE6, 0xC66, 0xCE6, 0xD66,
    0xDE6, 0xE50, 0xED0, 0xF20, 0x1040, 0x1090, 0x17E0, 0x1810, 0x1946, 0x19D0, 0x1A80, 0x1A90,
    0x1B50, 0x1BB0, 0x1C40, 0x1C50, 0xA620, 0xA8D0, 0xA900, 0xA9D0, 0xA9F0, 0xAA50, 0xABF0,
    0xFF10, 0x104A0, 0x10D30, 0x11066, 0x110F0, 0x11136, 0x111D0, 0x112F0, 0x11450, 0x114D0,
    0x11650, 0x116C0, 0x11730, 0x118E0, 0x11950, 0x11C50, 0x11D50, 0x11DA0, 0x16A60, 0x16AC0,
    0x16B50, 0x1D7CE, 0x1D7D8, 0x1D7E2, 0x1D7EC, 0x1D7F6, 0x1E140, 0x1E2F0, 0x1E950, 0x1FBF0]

/-- Code points of the digits that are not decimal: raised, lowered, circled and the like. -/
def otherDigitRanges : List (ℕ × ℕ) :=
  [(0xB2, 0xB3), (0xB9, 0xB9), (0x1369, 0x1371), (0x19DA, 0x19DA), (0x2070, 0x2070),
    (0x2074, 0x2079), (0x2080, 0x2089), (0x2460, 0x2468), (0x2474, 0x247C), (0x2488, 0x2490),
    (0x24EA, 0x24EA), (0x24F5, 0x24FD), (0x24FF, 0x24FF), (0x2776, 0x277E), (0x2780, 0x2788),
    (0x278A, 0x2792), (0x10A40, 0x10A43), (0x10E60, 0x10E68), (0x11052, 0x1105A),
    (0x1F100, 0x1F10A)]

/-- `c.isspace()`. -/
def isspaceChar (c : Char) : Bool := inRanges spaceRanges c.toNat

/-- Value of a decimal digit. -/
def decimal (c : Char) : Option ℕ :=
  (decimalZeros.find? fun z ↦ z ≤ c.toNat ∧ c.toNat < z + 10).map (c.toNat - ·)

/-- `c.isdecimal()`. -/
def isdecimalChar (c : Char) : Bool := (decimal c).isSome

/-- `c.isdigit()`. -/
def isdigitChar (c : Char) : Bool := isdecimalChar c || inRanges otherDigitRanges c.toNat

/-- ASCII digit of the value of a decimal digit. -/
def asciiDigit (c : Char) : Char := ((decimal c).getD 0).digitChar

/-- Code points of the ASCII digits. -/
theorem toNat_of_isDigit {c : Char} (h : c.isDigit = true) : 48 ≤ c.toNat ∧ c.toNat ≤ 57 := by
  simp only [Char.isDigit, Bool.and_eq_true, decide_eq_true_eq] at h
  exact h

/-- An ASCII digit has its own value. -/
theorem decimal_of_isDigit {c : Char} (h : c.isDigit = true) : decimal c = some (c.toNat - 48) := by
  have ⟨hlow, hhigh⟩ := toNat_of_isDigit h
  have hfind : (decimalZeros.find? fun z ↦ z ≤ c.toNat ∧ c.toNat < z + 10) = some 48 := by
    apply List.find?_cons_of_pos
    rw [decide_eq_true_iff]
    omega
  rw [decimal, hfind]
  rfl

/-- An ASCII digit is a decimal character. -/
theorem isdecimalChar_of_isDigit {c : Char} (h : c.isDigit = true) : isdecimalChar c = true := by
  rw [isdecimalChar, decimal_of_isDigit h]
  rfl

/-- An ASCII digit stays what it is. -/
theorem asciiDigit_of_isDigit {c : Char} (h : c.isDigit = true) : asciiDigit c = c := by
  have ⟨hlow, hhigh⟩ := toNat_of_isDigit h
  rw [asciiDigit, decimal_of_isDigit h, Option.getD_some]
  apply Char.toNat_inj.mp
  rw [Nat.toNat_digitChar_of_lt_ten (by omega)]
  omega

/-- An ASCII digit is no space. -/
theorem isspaceChar_of_isDigit {c : Char} (h : c.isDigit = true) : isspaceChar c = false := by
  have ⟨hlow, hhigh⟩ := toNat_of_isDigit h
  simp only [isspaceChar, inRanges, spaceRanges, List.any_cons, List.any_nil, Bool.or_false,
    Bool.or_eq_false_iff, decide_eq_false_iff_not]
  omega

/-- The value of a decimal digit is below ten. -/
theorem decimal_lt {c : Char} {d : ℕ} (h : decimal c = some d) : d < 10 := by
  have ⟨z, hfind, hd⟩ := Option.map_eq_some_iff.mp h
  have hrange := List.find?_some hfind
  rw [decide_eq_true_iff] at hrange
  omega

/-- What `asciiDigit` gives is an ASCII digit. -/
theorem asciiDigit_isDigit (c : Char) : (asciiDigit c).isDigit = true := by
  have hd : (decimal c).getD 0 < 10 := by
    cases hdecimal : decimal c with
    | none => decide
    | some d => exact decimal_lt hdecimal
  rw [asciiDigit, Nat.isDigit_digitChar]
  exact decide_eq_true hd

/-! ### Methods of texts -/

/-- `s.strip()`. -/
def strip (s : String) : String :=
  .ofList ((s.toList.dropWhile isspaceChar).rdropWhile isspaceChar)

/-- `s.isdigit()`. -/
def isdigit (s : String) : Bool := !s.toList.isEmpty && s.toList.all isdigitChar

/-- `s.startswith(start)`. -/
def startswith (s start : String) : Bool := start.toList.isPrefixOf s.toList

/-- The text has no whitespace at its ends. -/
def Trimmed (s : String) : Prop :=
  (∀ c ∈ s.toList.head?, isspaceChar c = false) ∧
    ∀ c ∈ s.toList.getLast?, isspaceChar c = false

private theorem head?_dropWhile (p : Char → Bool) (cs : List Char) :
    ∀ c ∈ (cs.dropWhile p).head?, p c = false := by
  intro c hc
  have hnot := List.head?_dropWhile_not p cs
  rw [Option.mem_def.mp hc] at hnot
  exact hnot

private theorem dropWhile_of_head? {p : Char → Bool} {cs : List Char}
    (h : ∀ c ∈ cs.head?, p c = false) : cs.dropWhile p = cs := by
  cases cs with
  | nil => rfl
  | cons c cs => exact List.dropWhile_cons_of_neg (by simp [h c rfl])

/-- Stripping leaves no whitespace at the ends. -/
theorem trimmed_strip (s : String) : Trimmed (strip s) := by
  simp only [Trimmed, strip, String.toList_ofList]
  constructor
  · intro c hc
    have ⟨rest, hrest⟩ := List.rdropWhile_prefix isspaceChar (s.toList.dropWhile isspaceChar)
    apply head?_dropWhile isspaceChar s.toList
    rw [← hrest, List.head?_append, Option.mem_def.mp hc]
    rfl
  · rw [List.rdropWhile, List.getLast?_reverse]
    exact head?_dropWhile _ _

/-- A text without whitespace at its ends is stripped already. -/
theorem strip_of_trimmed {s : String} (h : Trimmed s) : strip s = s := by
  have hlast : ∀ c ∈ s.toList.reverse.head?, isspaceChar c = false := by
    rw [List.head?_reverse]
    exact h.2
  rw [strip, dropWhile_of_head? h.1, List.rdropWhile, dropWhile_of_head? hlast,
    List.reverse_reverse, String.ofList_toList]

/-- A text of digits has no whitespace at its ends. -/
theorem trimmed_of_isDigit {s : String} (h : ∀ c ∈ s.toList, c.isDigit = true) : Trimmed s :=
  ⟨fun c hc ↦ isspaceChar_of_isDigit (h c (List.mem_of_mem_head? hc)),
    fun c hc ↦ isspaceChar_of_isDigit (h c (List.mem_of_mem_getLast? hc))⟩

/-- A text of ASCII digits is one of digits. -/
theorem isdigit_of_isDigit {s : String} (hne : s.toList ≠ [])
    (h : ∀ c ∈ s.toList, c.isDigit = true) : isdigit s = true := by
  have hall : s.toList.all isdigitChar = true := by
    rw [List.all_eq_true]
    intro c hc
    rw [isdigitChar, isdecimalChar_of_isDigit (h c hc), Bool.true_or]
  rw [isdigit, hall, Bool.and_true, Bool.not_eq_true', List.isEmpty_eq_false_iff]
  exact hne

/-! ### Integers and their texts -/

/-- `sys.int_info.default_max_str_digits`: no conversion handles more digits. -/
def maxStrDigits : ℕ := 4300

/-- The text is one of decimal digits that `int` converts. -/
def IntAccepts (s : String) : Prop :=
  s.toList ≠ [] ∧ s.toList.length ≤ maxStrDigits ∧ s.toList.all isdecimalChar = true

instance (s : String) : Decidable (IntAccepts s) := inferInstanceAs (Decidable (_ ∧ _ ∧ _))

/-- `int(s)` for a text without sign, whitespace and underscores; absent when it raises. -/
def int (s : String) : Option ℕ :=
  if IntAccepts s then some (Nat.ofDigitChars 10 (s.toList.map asciiDigit) 0) else none

/-- `str(n)` of an integer; absent when it raises. -/
def str (n : ℤ) : Option String :=
  if n.natAbs.repr.toList.length ≤ maxStrDigits then some (toString n) else none

/-- A number of so many digits is below the power of ten. -/
theorem ofDigitChars_lt {cs : List Char} (h : ∀ c ∈ cs, c.isDigit = true) :
    Nat.ofDigitChars 10 cs 0 < 10 ^ cs.length := by
  induction cs with
  | nil => decide
  | cons c cs ih =>
    have ⟨_, hhigh⟩ := toNat_of_isDigit (h c List.mem_cons_self)
    have htail := ih fun d hd ↦ h d (List.mem_cons_of_mem c hd)
    have hfirst : 10 ^ cs.length * (c.toNat - 48) ≤ 10 ^ cs.length * 9 :=
      Nat.mul_le_mul_left _ (by omega)
    rw [Nat.ofDigitChars_cons, Nat.ofDigitChars_eq_ofDigitChars_zero, List.length_cons,
      Nat.pow_succ, Nat.mul_zero, Nat.zero_add]
    change 10 ^ cs.length * (c.toNat - 48) + _ < _
    omega

/-- A converted number can be printed again. -/
theorem int_lt {s : String} {n : ℕ} (h : int s = some n) : n < 10 ^ maxStrDigits := by
  rw [int] at h
  split at h
  · next haccepts =>
    have hdigits : ∀ c ∈ s.toList.map asciiDigit, c.isDigit = true := by
      rw [List.forall_mem_map]
      exact fun c _ ↦ asciiDigit_isDigit c
    have hvalue := ofDigitChars_lt hdigits
    rw [Option.some.inj h, List.length_map] at hvalue
    exact Nat.lt_of_lt_of_le hvalue (Nat.pow_le_pow_right (by decide) haccepts.2.1)
  · cases h

/-- Only a text that is accepted is converted. -/
theorem int_isSome_iff (s : String) : (int s).isSome = true ↔ IntAccepts s := by
  rw [int]
  split
  · next h => exact ⟨fun _ ↦ h, fun _ ↦ rfl⟩
  · next h => exact ⟨fun hnone ↦ absurd hnone (by decide), fun haccepts ↦ absurd haccepts h⟩

/-- A number is written in ASCII digits. -/
theorem isDigit_of_mem_repr {n : ℕ} : ∀ c ∈ n.repr.toList, c.isDigit = true := by
  intro c hc
  rw [Nat.toList_repr] at hc
  exact Nat.isDigit_of_mem_toDigits (by decide) (by decide) hc

/-- A number below the limit is written in as many digits at most. -/
theorem length_repr_le {n : ℕ} (h : n < 10 ^ maxStrDigits) :
    n.repr.toList.length ≤ maxStrDigits := by
  rw [Nat.toList_repr]
  exact (Nat.length_toDigits_le_iff (by decide) (by decide)).mpr h

/-- `str` of a number below the limit. -/
theorem str_natCast {n : ℕ} (h : n < 10 ^ maxStrDigits) : str n = some n.repr := by
  rw [str, Int.natAbs_natCast, if_pos (length_repr_le h)]
  rfl

/-- The text of a number is converted to the number. -/
theorem int_repr {n : ℕ} (h : n < 10 ^ maxStrDigits) : int n.repr = some n := by
  have haccepts : IntAccepts n.repr := by
    refine ⟨?_, length_repr_le h, ?_⟩
    · rw [Nat.toList_repr]
      exact Nat.toDigits_ne_nil
    · rw [List.all_eq_true]
      exact fun c hc ↦ isdecimalChar_of_isDigit (isDigit_of_mem_repr c hc)
  have hascii : n.repr.toList.map asciiDigit = n.repr.toList := by
    rw [List.map_congr_left fun c hc ↦ asciiDigit_of_isDigit (isDigit_of_mem_repr c hc),
      List.map_id']
  rw [int, if_pos haccepts, hascii, Nat.toList_repr, Nat.ofDigitChars_ten_toDigits]

end VisionGame.Base.Text
