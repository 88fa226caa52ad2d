import VisionGame.Base.Reader
import VisionGame.Base.Text

/-!
# Answers of many parts

Library `Base`. An HTTP answer begins with a status line and lines of fields. When its type is one
of many parts, the parts follow, each between marks that the type names and with lines of fields
of its own, which say how long its body is. What a client reads off such an answer is defined here
by what has arrived, wherever that ends.
-/

namespace VisionGame.Base
open Text

/-- Bytes as they are sent. -/
abbrev Bytes := List UInt8

/-- `s.encode('latin-1')`, for texts of its characters. -/
def latin1 (s : String) : Bytes := s.toList.map fun c ↦ .ofNat c.toNat

/-- The characters of bytes. -/
def chars (b : Bytes) : List Char := b.map fun x ↦ .ofNat x.toNat

/-- End of a line. -/
def crlf : Bytes := [13, 10]

/-- Texts are encoded one after the other. -/
theorem latin1_append (s t : String) : latin1 (s ++ t) = latin1 s ++ latin1 t := by
  simp [latin1]

/-- Digits are sent as themselves. -/
theorem chars_latin1 {s : String} (h : ∀ c ∈ s.toList, c.isDigit = true) :
    chars (latin1 s) = s.toList := by
  rw [chars, latin1, List.map_map]
  refine (List.map_congr_left fun c hc ↦ ?_).trans (List.map_id _)
  have ⟨_, hhigh⟩ := toNat_of_isDigit (h c hc)
  have hsmall : (UInt8.ofNat c.toNat).toNat = c.toNat :=
    UInt8.toNat_ofNat_of_lt' (by change c.toNat < 256; omega)
  change Char.ofNat (UInt8.ofNat c.toNat).toNat = c
  rw [hsmall, Char.ofNat_toNat]

/-! ### Fields -/

/-- Lines, and an empty one that ends them. -/
def block (lines : List Bytes) : Bytes := lines.flatMap (· ++ crlf) ++ crlf

/-- Lines up to an empty one, at most so many. -/
def readBlock : ℕ → Reader UInt8 (List Bytes)
  | 0 => fun _ ↦ none
  | k + 1 => do
    let line ← Reader.upTo crlf
    if line = [] then pure [] else (line :: ·) <$> readBlock k

/-- A line of a block. -/
def IsLine (line : Bytes) : Prop := line ≠ [] ∧ 13 ∉ line

/-- A line is read up to its end. -/
theorem reads_line {line : Bytes} (h : 13 ∉ line) :
    Reads (Reader.upTo crlf) (line ++ crlf) line :=
  Reads.upTo h

/-- A block of lines is read back. -/
theorem reads_block {lines : List Bytes} (h : ∀ line ∈ lines, IsLine line) {k : ℕ}
    (hk : lines.length < k) : Reads (readBlock k) (block lines) lines := by
  induction lines generalizing k with
  | nil =>
    cases k with
    | zero => exact absurd hk (Nat.not_lt_zero _)
    | succ k =>
      have hempty : Reads (Reader.upTo crlf) ([] ++ crlf) [] := reads_line (List.not_mem_nil)
      have hend := hempty.bind
        (f := fun line ↦ if line = [] then pure [] else (line :: ·) <$> readBlock k)
        (Reads.pure [])
      exact hend
  | cons line lines ih =>
    cases k with
    | zero => exact absurd hk (Nat.not_lt_zero _)
    | succ k =>
      have ⟨hne, hplain⟩ := h line List.mem_cons_self
      have hrest := ih (fun l hl ↦ h l (List.mem_cons_of_mem _ hl)) (Nat.lt_of_succ_lt_succ hk)
      have hlater : Reads (if line = [] then pure [] else (line :: ·) <$> readBlock k)
          (block lines) (line :: lines) := by
        rw [if_neg hne]
        exact hrest.map _
      have hboth := (reads_line hplain).bind
        (f := fun line ↦ if line = [] then pure [] else (line :: ·) <$> readBlock k) hlater
      rw [List.append_assoc] at hboth
      rw [block, List.flatMap_cons, List.append_assoc, List.append_assoc]
      exact hboth

/-- Lower case of an ASCII letter. -/
def lower (b : UInt8) : UInt8 := if 65 ≤ b ∧ b ≤ 90 then b + 32 else b

/-- Name of a field, in lower case. -/
def fieldName (line : Bytes) : Bytes := (line.takeWhile (· ≠ 58)).map lower

/-- Value of a field, without the blanks before it. -/
def fieldValue (line : Bytes) : Bytes :=
  ((line.dropWhile (· ≠ 58)).drop 1).dropWhile (· = 32)

/-- Value of the first field of a name. -/
def field (name : String) (lines : List Bytes) : Option Bytes :=
  (lines.find? fun line ↦ fieldName line = latin1 name).map fieldValue

/-- `"%s: %s" % (keyword, value)`. -/
def fieldLine (keyword value : String) : Bytes := latin1 (keyword ++ ": " ++ value)

/-- A field of a name without a colon is found by its name. -/
theorem fieldName_fieldLine {keyword : String} (h : 58 ∉ latin1 keyword) (value : String) :
    fieldName (fieldLine keyword value) = (latin1 keyword).map lower := by
  have hcolon : latin1 ": " = [58, 32] := by decide +kernel
  rw [fieldName, fieldLine, latin1_append, latin1_append, hcolon, List.append_assoc,
    List.takeWhile_append_of_pos (fun x hx ↦ by simpa using ne_of_mem_of_not_mem hx h)]
  simp

/-- Value of a field, without the spaces in front. -/
theorem fieldValue_fieldLine {keyword : String} (h : 58 ∉ latin1 keyword) (value : String) :
    fieldValue (fieldLine keyword value) = (latin1 value).dropWhile (· = 32) := by
  have hcolon : latin1 ": " = [58, 32] := by decide +kernel
  rw [fieldValue, fieldLine, latin1_append, latin1_append, hcolon, List.append_assoc,
    List.dropWhile_append_of_pos (fun x hx ↦ by simpa using ne_of_mem_of_not_mem hx h)]
  simp

/-- A field of two plain texts keeps to its line. -/
theorem isLine_fieldLine {keyword value : String} (hkeyword : 13 ∉ latin1 keyword)
    (hvalue : 13 ∉ latin1 value) : IsLine (fieldLine keyword value) := by
  have hcolon : latin1 ": " = [58, 32] := by decide +kernel
  constructor
  · simp [fieldLine, latin1_append, hcolon]
  · simp [fieldLine, latin1_append, hcolon, hkeyword, hvalue]

/-- A field of another name is passed over. -/
theorem field_cons_ne {name keyword : String} (h : 58 ∉ latin1 keyword)
    (hne : (latin1 keyword).map lower ≠ latin1 name) (value : String) (lines : List Bytes) :
    field name (fieldLine keyword value :: lines) = field name lines := by
  rw [field, List.find?_cons_of_neg (by rw [fieldName_fieldLine h]; simpa using hne), field]

/-- The first field of the name is found. -/
theorem field_cons_eq {name keyword : String} (h : 58 ∉ latin1 keyword)
    (heq : (latin1 keyword).map lower = latin1 name) (value : String) (lines : List Bytes) :
    field name (fieldLine keyword value :: lines) =
      some ((latin1 value).dropWhile (· = 32)) := by
  rw [field, List.find?_cons_of_pos (by rw [fieldName_fieldLine h]; simpa using heq),
    Option.map_some, fieldValue_fieldLine h]

/-! ### Parts -/

/-- The number that digits denote. -/
def readNat (digits : Bytes) : Option ℕ :=
  if digits ≠ [] ∧ (chars digits).all Char.isDigit then some (Nat.ofDigitChars 10 (chars digits) 0)
  else none

/-- The bytes of digits. -/
theorem range_latin1_repr {n : ℕ} {b : UInt8} (h : b ∈ latin1 n.repr) :
    48 ≤ b.toNat ∧ b.toNat ≤ 57 := by
  obtain ⟨c, hc, rfl⟩ := List.mem_map.mp h
  have ⟨hlow, hhigh⟩ := toNat_of_isDigit (isDigit_of_mem_repr c hc)
  have hsmall : (UInt8.ofNat c.toNat).toNat = c.toNat :=
    UInt8.toNat_ofNat_of_lt' (by change c.toNat < 256; omega)
  rw [hsmall]
  exact ⟨hlow, hhigh⟩

/-- Digits keep to their line. -/
theorem not_mem_latin1_repr (n : ℕ) : 13 ∉ latin1 n.repr := fun h ↦
  absurd (range_latin1_repr h).1 (by decide)

/-- Digits do not begin with a blank. -/
theorem dropWhile_latin1_repr (n : ℕ) :
    (latin1 n.repr).dropWhile (· = 32) = latin1 n.repr := by
  rw [List.dropWhile_eq_self_iff]
  intro hpos
  have hrange := range_latin1_repr (List.getElem_mem hpos)
  rw [decide_eq_true_iff]
  intro h32
  rw [h32] at hrange
  exact absurd hrange.1 (by decide)

/-- The number is read off its digits. -/
theorem readNat_latin1 (n : ℕ) : readNat (latin1 n.repr) = some n := by
  have hdigits : ∀ c ∈ n.repr.toList, c.isDigit = true := isDigit_of_mem_repr
  have hchars := chars_latin1 hdigits
  have hne : latin1 n.repr ≠ [] := by
    intro hnil
    rw [hnil, Nat.toList_repr] at hchars
    exact Nat.toDigits_ne_nil hchars.symm
  rw [readNat, hchars, if_pos ⟨hne, List.all_eq_true.mpr hdigits⟩, Nat.toList_repr,
    Nat.ofDigitChars_ten_toDigits]

/-- The body of a part between two marks, as long as a field says. -/
def readPart (boundary : Bytes) : Reader UInt8 Bytes := do
  Reader.literal ([45, 45] ++ boundary ++ crlf)
  let lines ← readBlock 100
  let n ← Reader.expect ((field "content-length" lines).bind readNat)
  let body ← Reader.take n
  Reader.literal crlf
  pure body

/-- A part with these lines of fields. -/
def part (boundary : Bytes) (lines : List Bytes) (body : Bytes) : Bytes :=
  [45, 45] ++ boundary ++ crlf ++ (block lines ++ (body ++ crlf))

/-- A part that says how long it is is read, whatever its body is. -/
theorem reads_part (boundary : Bytes) {lines : List Bytes} {body : Bytes}
    (h : ∀ line ∈ lines, IsLine line) (hfew : lines.length < 100)
    (hlength : field "content-length" lines = some (latin1 body.length.repr)) :
    Reads (readPart boundary) (part boundary lines body) body := by
  have hnumber : (field "content-length" lines).bind readNat = some body.length := by
    rw [hlength]
    exact readNat_latin1 _
  have hend := (Reads.literal crlf).bind (f := fun _ ↦ pure body) (Reads.pure body)
  have hbody := (Reads.take body).bind
    (f := fun body ↦ do Reader.literal crlf; pure body) hend
  have hsize := (Reads.expect hnumber).bind
    (f := fun n ↦ do let body ← Reader.take n; Reader.literal crlf; pure body) hbody
  have hlines := (reads_block h hfew).bind
    (f := fun lines ↦ do
      let n ← Reader.expect ((field "content-length" lines).bind readNat)
      let body ← Reader.take n
      Reader.literal crlf
      pure body) hsize
  have hpart := (Reads.literal ([45, 45] ++ boundary ++ crlf)).bind
    (f := fun _ ↦ do
      let lines ← readBlock 100
      let n ← Reader.expect ((field "content-length" lines).bind readNat)
      let body ← Reader.take n
      Reader.literal crlf
      pure body) hlines
  rw [List.nil_append, List.append_nil] at hpart
  exact hpart

/-! ### Answers -/

/-- Status line of an answer and its lines of fields. -/
def readHead : Reader UInt8 (Bytes × List Bytes) := do
  let status ← Reader.upTo crlf
  let lines ← readBlock 100
  pure (status, lines)

/-- The mark between parts that a type names. -/
def boundaryOf (type : Bytes) : Option Bytes :=
  type.tails.findSome? fun rest ↦
    if (latin1 "boundary=").isPrefixOf rest then some (rest.drop 9) else none

/-- The bodies of the parts that have arrived. -/
def readMultipart (s : Bytes) : List Bytes :=
  match readHead s with
  | some ((_, lines), rest) =>
    match (field "content-type" lines).bind boundaryOf with
    | some boundary => (readPart boundary).all rest
    | none => []
  | none => []

/-- Head of an answer. -/
def head (status : Bytes) (lines : List Bytes) : Bytes := status ++ crlf ++ block lines

/-- A head is read back. -/
theorem reads_head {status : Bytes} (hstatus : 13 ∉ status) {lines : List Bytes}
    (h : ∀ line ∈ lines, IsLine line) (hfew : lines.length < 100) :
    Reads readHead (head status lines) (status, lines) := by
  have hlines := (reads_block h hfew).bind (f := fun lines ↦ pure (status, lines))
    (Reads.pure (status, lines))
  have hall := (reads_line hstatus).bind
    (f := fun status ↦ do let lines ← readBlock 100; pure (status, lines)) hlines
  rw [List.append_nil] at hall
  exact hall

section
variable {status : Bytes} {lines : List Bytes} {boundary : Bytes} {enc : Bytes → Bytes}
  (hhead : Reads readHead (head status lines) (status, lines))
  (hboundary : (field "content-type" lines).bind boundaryOf = some boundary)
  (hpart : ∀ body, Reads (readPart boundary) (enc body) body) (hne : ∀ body, enc body ≠ [])
include hhead hboundary hpart hne

/-- Wherever an answer is cut off, what is read is the beginning of its bodies. -/
theorem readMultipart_isPrefix {bodies : List Bytes} {v : Bytes}
    (h : v <+: head status lines ++ bodies.flatMap enc) : readMultipart v <+: bodies := by
  rw [readMultipart]
  rcases List.prefix_or_prefix_of_prefix h (List.prefix_append _ _) with hin | ⟨u, rfl⟩
  · by_cases heq : v = head status lines
    · have hall := hhead.whole []
      rw [List.append_nil] at hall
      rw [heq, hall]
      simp only [hboundary]
      exact Reads.all_prefix hpart hne bodies List.nil_prefix
    · rw [hhead.short v hin heq]
      exact List.nil_prefix
  · rw [hhead.whole]
    simp only [hboundary]
    exact Reads.all_prefix hpart hne bodies ((List.prefix_append_right_inj _).mp h)

/-- Of a whole answer all bodies are read. -/
theorem readMultipart_whole (bodies : List Bytes) :
    readMultipart (head status lines ++ bodies.flatMap enc) = bodies := by
  rw [readMultipart, hhead.whole]
  simp only [hboundary]
  exact Reads.all_flatMap hpart hne bodies

end

/-- An answer that is not one of many parts has none, wherever it is cut off. -/
theorem readMultipart_plain {status : Bytes} {lines : List Bytes}
    (hhead : Reads readHead (head status lines) (status, lines))
    (htype : (field "content-type" lines).bind boundaryOf = none) {v : Bytes}
    (h : v <+: head status lines) : readMultipart v = [] := by
  rw [readMultipart]
  by_cases heq : v = head status lines
  · have hall := hhead.whole []
    rw [List.append_nil] at hall
    rw [heq, hall]
    simp only [htype]
  · rw [hhead.short v h heq]

end VisionGame.Base
