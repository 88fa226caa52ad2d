import VisionGame.Base.Json

/-!
# The settings store

Library `Web`. `convex/schema.ts:6–12`, `convex/settings.ts`. The settings table with the query
and the mutation on it; mutations are taken one after the other. The creation time that a row
also has is not read by anyone. Read and insert each bring their own defaults, and they differ
in the mappings.
-/

namespace VisionGame.Web
open VisionGame.Base

variable {R : Type}

/-- Document of the settings table; `schema.ts:6–12`. -/
structure Settings (R : Type) where
  activeProfile : String
  sensitivity : R
  triggerDelay : R
  cameraEnabled : Bool
  mappings : Document R

/-- Arguments of `updateSettings`, each of them optional; `settings.ts:29–35`. -/
structure SettingsArgs (R : Type) where
  activeProfile : Option String := none
  sensitivity : Option R := none
  triggerDelay : Option R := none
  cameraEnabled : Option Bool := none
  mappings : Option (Document R) := none

/-- Row of the settings table. -/
structure SettingsRow (R : Type) where
  id : ℕ
  doc : Settings R

/-- The settings table, oldest row first. -/
abbrev SettingsTable (R : Type) := List (SettingsRow R)

/-- `value ?? {}`: the empty object for a missing value and for `null`. -/
def orEmpty : Option (Document R) → Document R
  | none => .object Dict.empty
  | some (.other .null) => .object Dict.empty
  | some value => value

/-- A document overwritten on the fields that are present. -/
def Settings.overwrite (s : Settings R) (args : SettingsArgs R) : Settings R where
  activeProfile := args.activeProfile.getD s.activeProfile
  sensitivity := args.sensitivity.getD s.sensitivity
  triggerDelay := args.triggerDelay.getD s.triggerDelay
  cameraEnabled := args.cameraEnabled.getD s.cameraEnabled
  mappings := args.mappings.getD s.mappings

/-- Two partial updates as one, the later one winning. -/
def SettingsArgs.merge (a b : SettingsArgs R) : SettingsArgs R where
  activeProfile := b.activeProfile.or a.activeProfile
  sensitivity := b.sensitivity.or a.sensitivity
  triggerDelay := b.triggerDelay.or a.triggerDelay
  cameraEnabled := b.cameraEnabled.or a.cameraEnabled
  mappings := b.mappings.or a.mappings

namespace SettingsTable

/-- `db.insert`. -/
def insert (doc : Settings R) (t : SettingsTable R) : SettingsTable R := t ++ [⟨t.length, doc⟩]

/-- `db.patch`. -/
def patch (id : ℕ) (args : SettingsArgs R) (t : SettingsTable R) : SettingsTable R :=
  t.map fun row ↦ if row.id = id then { row with doc := row.doc.overwrite args } else row

end SettingsTable

section
variable [Scalar R]

/-- What `getSettings` answers on an empty table; `settings.ts:8–22`. -/
def defaultSettings : Settings R where
  activeProfile := "escritorio"
  sensitivity := 65
  triggerDelay := 200
  cameraEnabled := true
  mappings := .object (Dict.ofList [
    ("pinch", .str "click"),
    ("v-sign", .str "drag"),
    ("fist", .str "show-desktop"),
    ("open-palm", .str "hover"),
    ("swipe-left", .str "swipe-left"),
    ("swipe-right", .str "swipe-right")])

/-- `getSettings`; `settings.ts:5–26`. -/
def getSettings (t : SettingsTable R) : Settings R :=
  match t.head? with
  | none => defaultSettings
  | some row => row.doc

/-- The document that `updateSettings` inserts; `settings.ts:41–47`. -/
def insertedSettings (args : SettingsArgs R) : Settings R where
  activeProfile := args.activeProfile.getD "escritorio"
  sensitivity := args.sensitivity.getD 65
  triggerDelay := args.triggerDelay.getD 200
  cameraEnabled := args.cameraEnabled.getD true
  mappings := orEmpty args.mappings

/-- `updateSettings`; `settings.ts:36–50`. -/
def updateSettings (args : SettingsArgs R) (t : SettingsTable R) : SettingsTable R :=
  match t.head? with
  | some existing => t.patch existing.id args
  | none => t.insert (insertedSettings args)

/-- The table after some updates of the empty table. -/
def stored (updates : List (SettingsArgs R)) : SettingsTable R :=
  updates.foldl (fun t args ↦ updateSettings args t) []

/-! ### The only row -/

/-- The only row is the answer. -/
@[simp] theorem getSettings_singleton (row : SettingsRow R) : getSettings [row] = row.doc := rfl

private theorem updateSettings_nil (args : SettingsArgs R) :
    updateSettings args [] = [⟨0, insertedSettings args⟩] := rfl

private theorem updateSettings_singleton (args : SettingsArgs R) (row : SettingsRow R) :
    updateSettings args [row] = [{ row with doc := row.doc.overwrite args }] := by
  simp [updateSettings, SettingsTable.patch]

/-- One more update. -/
theorem stored_concat (updates : List (SettingsArgs R)) (args : SettingsArgs R) :
    stored (updates ++ [args]) = updateSettings args (stored updates) := by
  simp only [stored, List.foldl_append, List.foldl_cons, List.foldl_nil]

private theorem exists_updateSettings (args : SettingsArgs R) {t : SettingsTable R}
    (h : t = [] ∨ ∃ row, t = [row]) : ∃ row, updateSettings args t = [row] := by
  rcases h with rfl | ⟨row, rfl⟩
  · exact ⟨_, updateSettings_nil args⟩
  · exact ⟨_, updateSettings_singleton args row⟩

/-- The table has no row before the first update and one row from then on. -/
theorem stored_rows (updates : List (SettingsArgs R)) :
    (updates = [] ∧ stored updates = []) ∨
      (updates ≠ [] ∧ ∃ row, stored updates = [row]) := by
  induction updates using List.reverseRecOn with
  | nil => exact .inl ⟨rfl, rfl⟩
  | append_singleton updates args ih =>
    right
    constructor
    · simp
    · rw [stored_concat]
      apply exists_updateSettings
      rcases ih with ⟨_, hnone⟩ | ⟨_, hrow⟩
      · exact .inl hnone
      · exact .inr hrow

/-! ### Fields that were carried -/

private theorem getD_getD {V : Type} (x y : Option V) (z : V) :
    y.getD (x.getD z) = (y.or x).getD z := by
  cases y <;> rfl

/-- The value of a field in the last update that carried it. -/
def lastCarried {V : Type} (field : SettingsArgs R → Option V) (updates : List (SettingsArgs R)) :
    Option V :=
  updates.foldl (fun last args ↦ (field args).or last) none

section
variable {V : Type} {field : SettingsArgs R → Option V}

omit [Scalar R] in
/-- One more update carries its value, or leaves the last one. -/
theorem lastCarried_concat (updates : List (SettingsArgs R)) (args : SettingsArgs R) :
    lastCarried field (updates ++ [args]) = (field args).or (lastCarried field updates) := by
  simp only [lastCarried, List.foldl_append, List.foldl_cons, List.foldl_nil]

omit [Scalar R] in
/-- The last value was carried by some update. -/
theorem exists_of_lastCarried {updates : List (SettingsArgs R)} {v : V}
    (h : lastCarried field updates = some v) : ∃ args ∈ updates, field args = some v := by
  induction updates using List.reverseRecOn with
  | nil => cases h
  | append_singleton updates args ih =>
    rw [lastCarried_concat] at h
    rcases Option.or_eq_some_iff.mp h with hnew | ⟨_, hold⟩
    · exact ⟨args, by simp, hnew⟩
    · have ⟨old, hmem, hv⟩ := ih hold
      exact ⟨old, List.mem_append_left _ hmem, hv⟩

omit [Scalar R] in
/-- There is no last value exactly when no update carried one. -/
theorem lastCarried_eq_none_iff (updates : List (SettingsArgs R)) :
    lastCarried field updates = none ↔ ∀ args ∈ updates, field args = none := by
  induction updates using List.reverseRecOn with
  | nil => simp [lastCarried]
  | append_singleton updates args ih =>
    rw [lastCarried_concat, Option.or_eq_none_iff, ih]
    simp [or_imp, forall_and, and_comm]

end

/-- The query answers the sensitivity and the delay that were carried last, or the defaults that
query and insert have in common. -/
theorem stored_sliders (updates : List (SettingsArgs R)) :
    (getSettings (stored updates)).sensitivity =
        (lastCarried SettingsArgs.sensitivity updates).getD 65 ∧
      (getSettings (stored updates)).triggerDelay =
        (lastCarried SettingsArgs.triggerDelay updates).getD 200 := by
  induction updates using List.reverseRecOn with
  | nil => exact ⟨rfl, rfl⟩
  | append_singleton updates args ih =>
    rw [stored_concat, lastCarried_concat, lastCarried_concat]
    rcases stored_rows updates with ⟨rfl, hrows⟩ | ⟨_, row, hrow⟩
    · rw [hrows, updateSettings_nil, getSettings_singleton]
      simp only [lastCarried, List.foldl_nil, Option.or_none]
      exact ⟨rfl, rfl⟩
    · rw [hrow, getSettings_singleton] at ih
      rw [hrow, updateSettings_singleton, getSettings_singleton, ← getD_getD, ← getD_getD, ← ih.1,
        ← ih.2]
      exact ⟨rfl, rfl⟩

omit [Scalar R] in
/-- Every value but `null` is kept. -/
theorem orEmpty_some_iff (m : Document R) : orEmpty (some m) = m ↔ m ≠ .other .null := by
  constructor
  · rintro h rfl
    cases h
  · intro h
    unfold orEmpty
    split
    · next hnone => cases hnone
    · next hnull => exact absurd (Option.some.inj hnull) h
    · next hsome => exact (Option.some.inj hsome).symm

/-- The query answers the mappings that were supplied last. Before that it answers its own on an
empty table, and none on a row. -/
theorem stored_mappings (updates : List (SettingsArgs R))
    (h : ∀ args ∈ updates, args.mappings ≠ some (.other .null)) :
    (getSettings (stored updates)).mappings = (lastCarried SettingsArgs.mappings updates).getD
      (if updates = [] then defaultSettings.mappings else .object Dict.empty) := by
  induction updates using List.reverseRecOn with
  | nil => rfl
  | append_singleton updates args ih =>
    have hnew : args.mappings ≠ some (.other .null) := h args (by simp)
    have hold := ih fun a ha ↦ h a (List.mem_append_left _ ha)
    rw [stored_concat, lastCarried_concat]
    rcases stored_rows updates with ⟨hnone, hrows⟩ | ⟨hsome, row, hrow⟩
    · rw [hrows, updateSettings_nil, getSettings_singleton, hnone]
      change orEmpty args.mappings = _
      cases hm : args.mappings with
      | none => simp [lastCarried, orEmpty]
      | some m =>
        rw [hm] at hnew
        exact (orEmpty_some_iff m).mpr fun hnull ↦ hnew (congrArg some hnull)
    · rw [hrow, getSettings_singleton, if_neg hsome] at hold
      rw [hrow, updateSettings_singleton, getSettings_singleton]
      change args.mappings.getD row.doc.mappings = _
      rw [hold]
      cases args.mappings with
      | none => simp
      | some m => simp

/-! ### The law of the store -/

/-- The update carries mappings, and they are not `null`. -/
def SettingsArgs.SuppliesMappings (args : SettingsArgs R) : Prop :=
  ∃ m, args.mappings = some m ∧ m ≠ .other .null

/-- After some updates, a further one overwrites what the query answers on exactly the fields
that it carries, two further ones act like their union, and there is at most one row. -/
structure StoreLaw (updates : List (SettingsArgs R)) (a b : SettingsArgs R) : Prop where
  overwrites :
    getSettings (updateSettings a (stored updates)) = (getSettings (stored updates)).overwrite a
  merges :
    getSettings (updateSettings b (updateSettings a (stored updates))) =
      getSettings (updateSettings (a.merge b) (stored updates))
  single : (stored updates).length ≤ 1

omit [Scalar R] in
/-- Overwriting twice is overwriting with the union. -/
theorem overwrite_overwrite (s : Settings R) (a b : SettingsArgs R) :
    (s.overwrite a).overwrite b = s.overwrite (a.merge b) := by
  simp only [Settings.overwrite, SettingsArgs.merge, getD_getD]

/-- The document of an insert is the defaults of the query overwritten exactly when the
update supplies the mappings. -/
theorem insertedSettings_eq_iff (args : SettingsArgs R) :
    insertedSettings args = defaultSettings.overwrite args ↔ args.SuppliesMappings := by
  have hmappings : insertedSettings args = defaultSettings.overwrite args ↔
      orEmpty args.mappings = args.mappings.getD defaultSettings.mappings := by
    constructor
    · exact congrArg Settings.mappings
    · intro h
      simp only [insertedSettings, Settings.overwrite, h]
      rfl
  rw [hmappings]
  simp only [SettingsArgs.SuppliesMappings]
  cases args.mappings with
  | none =>
    constructor
    · intro h
      have hpinch := congrFun (Document.object.inj h) "pinch"
      simp [Dict.ofList] at hpinch
    · rintro ⟨m, hsome, _⟩
      cases hsome
  | some m =>
    rw [Option.getD_some, orEmpty_some_iff]
    constructor
    · intro h
      exact ⟨m, rfl, h⟩
    · rintro ⟨m', hm', h⟩
      rw [Option.some.inj hm']
      exact h

/-- On an empty table two updates act like their union unless the second one brings `null`. -/
theorem insertedSettings_overwrite_iff (a b : SettingsArgs R) :
    (insertedSettings a).overwrite b = insertedSettings (a.merge b) ↔
      b.mappings ≠ some (.other .null) := by
  have hmappings : (insertedSettings a).overwrite b = insertedSettings (a.merge b) ↔
      b.mappings.getD (orEmpty a.mappings) = orEmpty (b.mappings.or a.mappings) := by
    constructor
    · exact congrArg Settings.mappings
    · intro h
      simp only [insertedSettings, Settings.overwrite, SettingsArgs.merge, h, getD_getD]
  rw [hmappings]
  cases b.mappings with
  | none => simp
  | some m =>
    rw [Option.getD_some, Option.some_or, eq_comm, orEmpty_some_iff]
    simp

/-- The law holds after an update, and on the empty table for a first update that supplies
the mappings and a second one that does not remove them. -/
theorem store_law_iff (updates : List (SettingsArgs R)) (a b : SettingsArgs R) :
    StoreLaw updates a b ↔
      updates ≠ [] ∨ (a.SuppliesMappings ∧ b.mappings ≠ some (.other .null)) := by
  rcases stored_rows updates with ⟨hnone, hrows⟩ | ⟨hsome, row, hrow⟩
  · have hsingle : (stored updates).length ≤ 1 := by
      rw [hrows]
      exact Nat.zero_le 1
    rw [← insertedSettings_eq_iff, ← insertedSettings_overwrite_iff a b]
    constructor
    · intro h
      right
      have hover := h.overwrites
      have hmerge := h.merges
      rw [hrows, updateSettings_nil] at hover hmerge
      rw [updateSettings_singleton, updateSettings_nil] at hmerge
      exact ⟨hover, hmerge⟩
    · rintro (hne | ⟨hover, hmerge⟩)
      · exact absurd hnone hne
      · constructor
        · rw [hrows, updateSettings_nil]
          exact hover
        · rw [hrows, updateSettings_nil, updateSettings_singleton, updateSettings_nil]
          exact hmerge
        · exact hsingle
  · constructor
    · intro _
      exact .inl hsome
    · intro _
      constructor
      · rw [hrow, updateSettings_singleton]
        rfl
      · rw [hrow, updateSettings_singleton, updateSettings_singleton, updateSettings_singleton]
        exact overwrite_overwrite row.doc a b
      · rw [hrow]
        exact le_rfl

/-- Switching the camera off first of all changes the mappings as well: the query answered six
of them before, and answers none afterwards. -/
theorem store_law_fails :
    ¬ StoreLaw [] ({ cameraEnabled := some false } : SettingsArgs ℚ) {} := by
  intro h
  have hpinch := congrFun (Document.object.inj (congrArg Settings.mappings h.overwrites)) "pinch"
  simp [Dict.ofList] at hpinch

end
end VisionGame.Web
