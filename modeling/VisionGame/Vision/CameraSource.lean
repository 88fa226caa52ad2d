import VisionGame.Base.Text
import VisionGame.Vision.Globals

/-!
# Camera sources

Library `Vision`. `src/mediapipe/app_gestures.py:128–143`. A camera source is the index of a local
camera or the address of a stream; one that is typed by hand is completed to an address. The
result is normal: it has a scheme and no whitespace at its ends, or it is an index, and printed
and read again it is the same. The one way to miss it is a text that `isdigit` takes for a number
and `int` does not.
-/

namespace VisionGame.Vision
open VisionGame.Base
open Text

/-- Result of `parse_camera_source`. -/
inductive CameraSource where
  | index (n : ℤ)
  | url (address : String)
  deriving DecidableEq, Repr

variable {R : Type} [Scalar R]

/-- The address a text without surrounding whitespace stands for; `app_gestures.py:138–143`. -/
def completeAddress (sourceStr : String) : String :=
  if ¬ startswith sourceStr "http://" ∧ ¬ startswith sourceStr "https://" ∧
      ¬ startswith sourceStr "rtsp://" then
    if ':' ∈ sourceStr.toList then "http://" ++ sourceStr ++ "/stream"
    else "http://" ++ sourceStr ++ ":81/stream"
  else sourceStr

/-- The part that reads the text of the source; `app_gestures.py:134–143`. -/
def parseText (source : String) : Except PyError CameraSource :=
  let sourceStr := strip source
  if isdigit sourceStr then
    match int sourceStr with
    | some n => .ok (.index n)
    | none => .error .valueError
  else .ok (.url (completeAddress sourceStr))

/-- `parse_camera_source`; `app_gestures.py:128–143`. A truth value is an instance of `int`. -/
def parseCameraSource : Json R → Except PyError CameraSource
  | .null => .ok (.index 0)
  | .bool b => .ok (.index (if b then 1 else 0))
  | .num x => if (⌊x⌋ : R) = x then .ok (.index ⌊x⌋) else parseText (Json.num x).pyStr
  | source => parseText source.pyStr

/-- `str(...)` of the result. -/
def CameraSource.str : CameraSource → Except PyError String
  | index n =>
    match Text.str n with
    | some t => .ok t
    | none => .error .valueError
  | url address => .ok address

/-! ### Addresses -/

/-- The address starts with a scheme. -/
def HasScheme (address : String) : Prop :=
  startswith address "http://" = true ∨ startswith address "https://" = true ∨
    startswith address "rtsp://" = true

/-- An address with a scheme is kept; any other text becomes the host of one. -/
theorem completeAddress_cases (s : String) :
    HasScheme s ∧ completeAddress s = s ∨
      ¬HasScheme s ∧ ∃ path, (path = "/stream" ∨ path = ":81/stream") ∧
        completeAddress s = "http://" ++ s ++ path := by
  by_cases h : HasScheme s
  · refine .inl ⟨h, if_neg ?_⟩
    rintro ⟨hhttp, hhttps, hrtsp⟩
    rcases h with h | h | h
    · exact hhttp h
    · exact hhttps h
    · exact hrtsp h
  · right
    have hnone : ¬startswith s "http://" = true ∧ ¬startswith s "https://" = true ∧
        ¬startswith s "rtsp://" = true := by
      rw [HasScheme, not_or, not_or] at h
      exact h
    refine ⟨h, ?_⟩
    rw [completeAddress, if_pos hnone]
    by_cases hport : ':' ∈ s.toList
    · exact ⟨"/stream", .inl rfl, if_pos hport⟩
    · exact ⟨":81/stream", .inr rfl, if_neg hport⟩

/-- A completed address has a scheme. -/
theorem hasScheme_completeAddress (s : String) : HasScheme (completeAddress s) := by
  rcases completeAddress_cases s with ⟨h, hkept⟩ | ⟨_, path, _, hhost⟩
  · rw [hkept]
    exact h
  · left
    rw [hhost, startswith, List.isPrefixOf_iff_prefix, String.toList_append, String.toList_append,
      List.append_assoc]
    exact List.prefix_append _ _

/-- A completed address keeps its ends free of whitespace. -/
theorem trimmed_completeAddress {s : String} (h : Trimmed s) : Trimmed (completeAddress s) := by
  rcases completeAddress_cases s with ⟨_, hkept⟩ | ⟨_, path, hpath, hhost⟩
  · rw [hkept]
    exact h
  · have hlast : path.toList.getLast? = some 'm' := by
      rcases hpath with rfl | rfl
      · decide
      · decide
    have hfirst : "http://".toList.head? = some 'h' := by decide
    rw [hhost]
    simp only [Trimmed, String.toList_append, List.getLast?_append, hlast, List.head?_append,
      hfirst, Option.some_or, Option.mem_some_iff, forall_eq']
    decide

/-- An address with a scheme is not a number. -/
theorem isdigit_of_hasScheme {s : String} (h : HasScheme s) : isdigit s = false := by
  have hletter : ∃ c ∈ s.toList, isdigitChar c = false := by
    simp only [HasScheme, startswith, List.isPrefixOf_iff_prefix] at h
    rcases h with h | h | h
    · exact ⟨'h', h.subset (by decide), by decide⟩
    · exact ⟨'h', h.subset (by decide), by decide⟩
    · exact ⟨'r', h.subset (by decide), by decide⟩
  have ⟨c, hc, hnot⟩ := hletter
  rw [isdigit, Bool.and_eq_false_iff, List.all_eq_false]
  exact .inr ⟨c, hc, by simp [hnot]⟩

/-! ### Reading a text -/

/-- The text of a JSON string is the string. -/
theorem parseCameraSource_str (s : String) :
    parseCameraSource (.str s : Json R) = parseText s := rfl

/-- A stripped text of digits is converted, which may raise. -/
theorem parseText_digits {s : String} (h : isdigit (strip s) = true) :
    parseText s = ((int (strip s)).elim (.error .valueError) fun n ↦ .ok (.index n)) := by
  simp only [parseText]
  rw [if_pos h]
  cases int (strip s) <;> rfl

/-- Any other text is completed to an address. -/
theorem parseText_address {s : String} (h : isdigit (strip s) = false) :
    parseText s = .ok (.url (completeAddress (strip s))) := by
  simp only [parseText]
  rw [if_neg (by simp [h])]

/-- A normal address is read as it is. -/
theorem parseText_of_normal {address : String} (hscheme : HasScheme address)
    (htrimmed : Trimmed address) : parseText address = .ok (.url address) := by
  have hkept : completeAddress address = address := by
    rcases completeAddress_cases address with ⟨_, hkept⟩ | ⟨hnone, _⟩
    · exact hkept
    · exact absurd hscheme hnone
  have hstrip := strip_of_trimmed htrimmed
  rw [parseText_address (by rw [hstrip]; exact isdigit_of_hasScheme hscheme), hstrip, hkept]

/-- The text of an index is read as the index. -/
theorem parseText_repr {n : ℕ} (h : n < 10 ^ maxStrDigits) :
    parseText n.repr = .ok (.index n) := by
  have hdigits := isDigit_of_mem_repr (n := n)
  have hne : n.repr.toList ≠ [] := by
    rw [Nat.toList_repr]
    exact Nat.toDigits_ne_nil
  have hstrip := strip_of_trimmed (trimmed_of_isDigit hdigits)
  rw [parseText_digits (by rw [hstrip]; exact isdigit_of_isDigit hne hdigits), hstrip, int_repr h]
  rfl

/-- A result is normal: an index is not negative, an address has a scheme and no whitespace at
its ends. -/
def CameraSource.Normal : CameraSource → Prop
  | index n => 0 ≤ n
  | url address => HasScheme address ∧ Trimmed address

variable (R) in
/-- The text is read without raising, as something normal, which is read again from its own
text. -/
def Normalises (s : String) : Prop :=
  ∃ source, parseCameraSource (.str s : Json R) = .ok source ∧ source.Normal ∧
    ∃ t, source.str = .ok t ∧ parseCameraSource (.str t : Json R) = .ok source

/-- A text is normalised exactly when what is left of it after stripping is accepted by `int`, or
is no number to `isdigit`. -/
theorem normalises_iff (s : String) :
    Normalises R s ↔ (isdigit (strip s) = true → IntAccepts (strip s)) := by
  simp only [Normalises, parseCameraSource_str]
  constructor
  · rintro ⟨source, hsource, -⟩ hdigit
    rw [parseText_digits hdigit] at hsource
    rw [← int_isSome_iff]
    cases hint : int (strip s) with
    | none =>
      rw [hint] at hsource
      cases hsource
    | some n => rfl
  · intro haccepts
    cases hdigit : isdigit (strip s) with
    | true =>
      have ⟨n, hn⟩ := Option.isSome_iff_exists.mp ((int_isSome_iff _).mpr (haccepts hdigit))
      have hbound := int_lt hn
      have hread : parseText s = .ok (.index n) := by
        rw [parseText_digits hdigit, hn]
        rfl
      have hprint : (CameraSource.index n).str = .ok n.repr := by
        rw [CameraSource.str, str_natCast hbound]
      exact ⟨.index n, hread, Int.natCast_nonneg n, n.repr, hprint, parseText_repr hbound⟩
    | false =>
      have hscheme := hasScheme_completeAddress (strip s)
      have htrimmed := trimmed_completeAddress (trimmed_strip s)
      exact ⟨.url (completeAddress (strip s)), parseText_address hdigit, ⟨hscheme, htrimmed⟩,
        completeAddress (strip s), rfl, parseText_of_normal hscheme htrimmed⟩

example : parseText " ٣ " = .ok (.index 3) := by decide +kernel

/-- The raised two is a digit that `int` refuses. -/
theorem not_normalises_raisedTwo : ¬Normalises ℚ "²" := by
  have hchars : "²".toList = ['²'] := rfl
  have hstrip : strip "²" = "²" := by
    apply strip_of_trimmed
    have hspace : isspaceChar '²' = false := by decide
    simp [Trimmed, hchars, hspace]
  have hdigit : isdigit "²" = true := by
    rw [isdigit, hchars]
    decide
  have hrefused : int "²" = none := by
    apply if_neg
    rintro ⟨_, _, hdecimal⟩
    rw [hchars] at hdecimal
    exact absurd hdecimal (by decide)
  rintro ⟨source, hsource, -⟩
  rw [parseCameraSource_str, parseText_digits (by rw [hstrip, hdigit]), hstrip, hrefused] at hsource
  cases hsource

end VisionGame.Vision
