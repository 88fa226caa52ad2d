import VisionGame.Base.Dict
import VisionGame.Base.Scalar

/-!
# JSON values and the dynamic operations on them

Library `Base`. A parsed JSON text is either an object, whose keys are a dictionary, or some
other value. The operations are the ones Python code applies to such values without looking
at their type first; each is partial exactly where Python raises.
-/

namespace VisionGame.Base

/-- JSON value. Numbers are of one kind: an integral one stands for the integer notation. -/
inductive Json (R : Type) where
  | null
  | bool (b : Bool)
  | num (x : R)
  | str (s : String)
  | arr (xs : List (Json R))
  | obj (kvs : List (String × Json R))

/-- Parsed text of a JSON file. -/
inductive Document (R : Type) where
  | object (fields : Dict (Json R))
  | other (value : Json R)

namespace Json

variable {R : Type} [Scalar R]

/-- Value of a number; Python counts `True` and `False` as 1 and 0. -/
def asNumber : Json R → Option R
  | bool b => some (if b then 1 else 0)
  | num x => some x
  | _ => none

/-- From `2 ^ 1024 - 2 ^ 970` on, half a unit beyond the largest float, no float holds an
integer. -/
def floatLimit : ℕ := (2 ^ 54 - 1) * (2 ^ 97) ^ 10

/-- Value of a number that is divided by a float: Python converts it, and raises for an integer
that no float holds. -/
def asFloat (v : Json R) : Option R := v.asNumber.filter fun x ↦ |x| < (floatLimit : R)

/-- A number that a float holds is converted to itself. -/
theorem asFloat_num {x : R} (h : |x| < (floatLimit : R)) : (num x).asFloat = some x := by
  unfold asFloat asNumber
  rw [Option.filter_some, decide_eq_true h, if_pos rfl]

/-- Only numbers are converted. -/
theorem asNumber_of_asFloat {v : Json R} {x : R} (h : v.asFloat = some x) :
    v.asNumber = some x := (Option.filter_eq_some_iff.mp h).1

/-- The value is this string. -/
def isStr : Json R → String → Bool
  | str s, t => s = t
  | _, _ => false

omit [Scalar R] in
/-- The value is a string exactly when it equals it. -/
theorem isStr_iff {v : Json R} {t : String} : v.isStr t = true ↔ v = .str t := by
  cases v <;> simp [isStr]

/-- `value[i]` for a number `i`: lists and strings have positions, nothing else does. -/
def index : Json R → ℕ → Option (Json R)
  | arr xs, i => xs[i]?
  | str s, i => s.toList[i]?.map fun c ↦ str (String.singleton c)
  | _, _ => none

/-- Mark Python prints a string between: the apostrophe (39), or the quotation mark (34) when
the string has apostrophes only. -/
def quoteOf (s : String) : Char :=
  let apostrophe := Char.ofNat 39
  let quotation := Char.ofNat 34
  if apostrophe ∈ s.toList ∧ quotation ∉ s.toList then quotation else apostrophe

/-- `repr` of a string: its mark, backslashes (92) and control characters are escaped. -/
def quoted (s : String) : String :=
  let mark := quoteOf s
  let escape (c : Char) : String :=
    if c = mark ∨ c.toNat = 92 then "\\" ++ c.toString
    else if c.toNat = 9 then "\\t"
    else if c.toNat = 10 then "\\n"
    else if c.toNat = 13 then "\\r"
    else if c.toNat < 32 ∨ c.toNat = 127 then
      "\\x" ++ String.ofList ((Nat.toDigits 16 c.toNat).leftpad 2 '0')
    else c.toString
  mark.toString ++ String.join (s.toList.map escape) ++ mark.toString

mutual

/-- `repr(value)`, the form a value has inside a printed container. -/
def repr : Json R → String
  | null => "None"
  | bool b => if b then "True" else "False"
  | num x => Scalar.text x
  | str s => quoted s
  | arr xs => "[" ++ ", ".intercalate (reprItems xs) ++ "]"
  | obj kvs => "\x7b" ++ ", ".intercalate (reprFields kvs) ++ "\x7d"

/-- Items of a printed list. -/
def reprItems : List (Json R) → List String
  | [] => []
  | x :: xs => repr x :: reprItems xs

/-- Fields of a printed dictionary. -/
def reprFields : List (String × Json R) → List String
  | [] => []
  | (k, v) :: rest => (quoted k ++ ": " ++ repr v) :: reprFields rest

end

/-- `str(value)`. -/
def pyStr : Json R → String
  | str s => s
  | v => v.repr

mutual

/-- `a == b`: numbers by value across their types, containers by their contents. -/
def pyEq : Json R → Json R → Bool
  | null, null => true
  | str s, str t => s = t
  | arr xs, arr ys => pyEqList xs ys
  | obj xs, obj ys => xs.length = ys.length && pyEqFields xs ys
  | a, b =>
    match a.asNumber, b.asNumber with
    | some x, some y => x = y
    | _, _ => false

/-- Lists are equal position by position. -/
def pyEqList : List (Json R) → List (Json R) → Bool
  | [], [] => true
  | x :: xs, y :: ys => pyEq x y && pyEqList xs ys
  | _, _ => false

/-- Objects are equal key by key, in whatever order the keys stand. -/
def pyEqFields : List (String × Json R) → List (String × Json R) → Bool
  | [], _ => true
  | (k, v) :: rest, ys =>
    (match ys.lookup k with
      | some w => pyEq v w
      | none => false) && pyEqFields rest ys

end

end Json

end VisionGame.Base
