import Mathlib.Data.Finset.Card
import VisionGame.Game.Slicing

/-!
# Score and fruits

Library `Game`. `components/FruitNinjaGame.tsx:527–604,615–630,640–675,735–797`. The ledger of
a run is the set of the fruits seen sliced so far. The invariant relates it to the score and
to the fruits that are still there; a fruit is well formed when it has both halves exactly if
it is sliced, and these fall level with each other.
-/

namespace VisionGame.Game
open VisionGame.Base

variable {R : Type} [Scalar R]

/-! ### Fruits -/

/-- Both halves are there exactly when the fruit is sliced, and they fall level. -/
structure Fruit.WellFormed (fruit : Fruit R) : Prop where
  half1 : fruit.half1.isSome = fruit.isSliced
  half2 : fruit.half2.isSome = fruit.isSliced
  level : ∀ h1 h2, fruit.half1 = some h1 → fruit.half2 = some h2 → h1.y = h2.y ∧ h1.vy = h2.vy

private theorem wellFormed_launchFruit (lvl : Level R) (draw : GameState.FruitDraw R) (id : ℕ) :
    (GameState.launchFruit lvl draw id).WellFormed where
  half1 := rfl
  half2 := rfl
  level _ _ h := by cases h

private theorem wellFormed_sliceIf {fruit : Fruit R} (h : fruit.WellFormed)
    (hits : Fruit R → Bool) :
    (fruit.sliceIf hits).WellFormed := by
  simp only [Fruit.sliceIf]
  split
  · constructor
    · rfl
    · rfl
    · intro h1 h2 e1 e2
      rw [← Option.some.inj e1, ← Option.some.inj e2]
      exact ⟨rfl, rfl⟩
  · exact h

/-- Halves that fall level go on doing so. -/
theorem move_level {h1 h2 : FruitHalf R} (h : h1.y = h2.y ∧ h1.vy = h2.vy) (gravity dt : R) :
    (h1.move gravity dt).y = (h2.move gravity dt).y ∧
      (h1.move gravity dt).vy = (h2.move gravity dt).vy := by
  simp only [FruitHalf.move]
  rw [h.1, h.2]
  exact ⟨rfl, rfl⟩

omit [Scalar R] in
/-- A sliced fruit has its halves. -/
theorem Fruit.WellFormed.exists_halves {fruit : Fruit R} (h : fruit.WellFormed)
    (hsliced : fruit.isSliced = true) :
    ∃ h1 h2, fruit.half1 = some h1 ∧ fruit.half2 = some h2 := by
  have ⟨h1, e1⟩ := Option.isSome_iff_exists.mp (h.half1.trans hsliced)
  have ⟨h2, e2⟩ := Option.isSome_iff_exists.mp (h.half2.trans hsliced)
  exact ⟨h1, h2, e1, e2⟩

/-- A frame moves a well-formed fruit without raising and keeps it well formed. -/
theorem exists_advance {fruit : Fruit R} (h : fruit.WellFormed) (gravity dt : R) :
    ∃ m, fruit.advance gravity dt = some m ∧ m.1.WellFormed := by
  simp only [Fruit.advance]
  cases hsliced : fruit.isSliced with
  | false =>
    refine ⟨_, rfl, ?_⟩
    constructor
    · exact h.half1
    · exact h.half2
    · exact h.level
  | true =>
    obtain ⟨h1, h2, e1, e2⟩ := h.exists_halves hsliced
    rw [e1, e2]
    refine ⟨_, rfl, ?_⟩
    constructor
    · rfl
    · rfl
    · intro g1 g2 f1 f2
      rw [← Option.some.inj f1, ← Option.some.inj f2]
      exact move_level (h.level h1 h2 e1 e2) gravity dt

private theorem advance_drops {fruit : Fruit R} (h : fruit.WellFormed)
    (hsliced : fruit.isSliced = true) {gravity dt : R} {m : Fruit R × Bool}
    (hadvance : fruit.advance gravity dt = some m) (hdropped : m.2 = false) {h1 h2 : FruitHalf R}
    (e1 : fruit.half1 = some h1) (e2 : fruit.half2 = some h2) :
    540 ≤ (h1.move gravity dt).y ∧ 540 ≤ (h2.move gravity dt).y := by
  have hlevel := (move_level (h.level h1 h2 e1 e2) gravity dt).1
  simp only [Fruit.advance] at hadvance
  rw [hsliced, e1, e2] at hadvance
  rw [← Option.some.inj hadvance] at hdropped
  simp only [Bool.and_eq_false_iff, decide_eq_false_iff_not, not_lt] at hdropped
  rw [← hlevel] at hdropped ⊢
  rcases hdropped with hdown | hdown
  · exact ⟨hdown, hdown⟩
  · exact ⟨hdown, hdown⟩

/-! ### The ledger -/

/-- The fruits that are sliced and still there. -/
def GameState.slicedIds (s : GameState R) : Finset ℕ :=
  ((s.fruits.filter Fruit.isSliced).map Fruit.id).toFinset

omit [Scalar R] in
private theorem mem_slicedIds {s : GameState R} {id : ℕ} :
    id ∈ s.slicedIds ↔ ∃ fruit ∈ s.fruits, fruit.isSliced = true ∧ fruit.id = id := by
  simp only [GameState.slicedIds]
  rw [List.mem_toFinset, List.mem_map]
  constructor
  · rintro ⟨fruit, hfruit, hid⟩
    have ⟨hmem, hsliced⟩ := List.mem_filter.mp hfruit
    exact ⟨fruit, hmem, hsliced, hid⟩
  · rintro ⟨fruit, hmem, hsliced, hid⟩
    exact ⟨fruit, List.mem_filter.mpr ⟨hmem, hsliced⟩, hid⟩

/-- The fruits launched since number `first`, those among them that were ever sliced, and the
state they have left behind. -/
structure Ledger (first : ℕ) (ids : Finset ℕ) (s : GameState R) : Prop where
  score : s.score = ids.card
  stroke : s.slicedInStrokeCount ≤ s.score
  first_le : first ≤ s.spawned
  nodup : (s.fruits.map Fruit.id).Nodup
  launched : ∀ fruit ∈ s.fruits, first ≤ fruit.id ∧ fruit.id < s.spawned
  counted : ∀ id ∈ ids, first ≤ id ∧ id < s.spawned
  sliced : ∀ fruit ∈ s.fruits, fruit.isSliced = true ↔ fruit.id ∈ ids
  wellFormed : ∀ fruit ∈ s.fruits, fruit.WellFormed

section
variable {first : ℕ} {ids : Finset ℕ} {s t : GameState R}

omit [Scalar R] in
/-- The ledger has no more to note when the sliced fruits are noted already. -/
theorem Ledger.union_eq (h : Ledger first ids s) : ids ∪ s.slicedIds = ids := by
  apply Finset.union_eq_left.mpr
  intro id hid
  have ⟨fruit, hmem, hsliced, hfruit⟩ := mem_slicedIds.mp hid
  rw [← hfruit]
  exact (h.sliced fruit hmem).mp hsliced

/-- The fruits a stroke cuts. -/
def cutIds (hits : Fruit R → Bool) (fruits : List (Fruit R)) : Finset ℕ :=
  ((fruits.filter (Fruit.isCut hits)).map Fruit.id).toFinset

omit [Scalar R] in
private theorem mem_cutIds {hits : Fruit R → Bool} {fruits : List (Fruit R)} {id : ℕ} :
    id ∈ cutIds hits fruits ↔ ∃ fruit ∈ fruits, fruit.isCut hits = true ∧ fruit.id = id := by
  simp only [cutIds]
  rw [List.mem_toFinset, List.mem_map]
  constructor
  · rintro ⟨fruit, hfruit, hid⟩
    have ⟨hmem, hcut⟩ := List.mem_filter.mp hfruit
    exact ⟨fruit, hmem, hcut, hid⟩
  · rintro ⟨fruit, hmem, hcut, hid⟩
    exact ⟨fruit, List.mem_filter.mpr ⟨hmem, hcut⟩, hid⟩

omit [Scalar R] in
private theorem card_cutIds (hits : Fruit R → Bool) {fruits : List (Fruit R)}
    (h : (fruits.map Fruit.id).Nodup) : (cutIds hits fruits).card = cuts hits fruits := by
  unfold cutIds cuts
  rw [List.toFinset_card_of_nodup ((List.filter_sublist.map _).nodup h), List.length_map,
    List.countP_eq_length_filter]

/-- After a stroke the sliced fruits are those sliced before and those it cut. -/
theorem slicedIds_of_strikes {hits : Fruit R → Bool} (h : Strikes hits s t) :
    t.slicedIds = s.slicedIds ∪ cutIds hits s.fruits := by
  ext id
  rw [Finset.mem_union, mem_slicedIds, mem_slicedIds, mem_cutIds, h.fruits]
  constructor
  · rintro ⟨fruit, hfruit, hsliced, hid⟩
    have ⟨old, hold, hslice⟩ := List.mem_map.mp hfruit
    rw [← hslice, Fruit.sliceIf_isSliced, Bool.or_eq_true] at hsliced
    rw [← hslice, Fruit.sliceIf_id] at hid
    rcases hsliced with hbefore | hcut
    · exact .inl ⟨old, hold, hbefore, hid⟩
    · exact .inr ⟨old, hold, hcut, hid⟩
  · rintro (⟨old, hold, hsliced, hid⟩ | ⟨old, hold, hcut, hid⟩)
    · refine ⟨_, List.mem_map_of_mem hold, ?_, (Fruit.sliceIf_id hits old).trans hid⟩
      rw [Fruit.sliceIf_isSliced, hsliced, Bool.true_or]
    · refine ⟨_, List.mem_map_of_mem hold, ?_, (Fruit.sliceIf_id hits old).trans hid⟩
      rw [Fruit.sliceIf_isSliced, hcut, Bool.or_true]

omit [Scalar R] in
/-- A fruit that is cut was not noted before. -/
theorem Ledger.notMem_of_isCut (h : Ledger first ids s) {hits : Fruit R → Bool}
    {fruit : Fruit R} (hmem : fruit ∈ s.fruits) (hcut : fruit.isCut hits = true) :
    fruit.id ∉ ids := by
  intro hid
  rw [← h.sliced fruit hmem] at hid
  simp only [Fruit.isCut] at hcut
  rw [hid] at hcut
  cases hcut

private theorem Ledger.strikes (h : Ledger first ids s) {hits : Fruit R → Bool}
    (hstroke : Strikes hits s t) : Ledger first (ids ∪ t.slicedIds) t := by
  have hids : ids ∪ t.slicedIds = ids ∪ cutIds hits s.fruits := by
    rw [slicedIds_of_strikes hstroke, ← Finset.union_assoc, h.union_eq]
  have hdisjoint : Disjoint ids (cutIds hits s.fruits) := by
    apply Finset.disjoint_right.mpr
    intro id hcut hid
    obtain ⟨fruit, hmem, hnew, hfruit⟩ := mem_cutIds.mp hcut
    rw [← hfruit] at hid
    exact h.notMem_of_isCut hmem hnew hid
  have hscore : t.score = s.score + cuts hits s.fruits := by
    have hboard := congrArg Scoreboard.score hstroke.board
    rw [Scoreboard.iterate_count_score] at hboard
    exact hboard
  constructor
  · rw [hids, Finset.card_union_of_disjoint hdisjoint, card_cutIds hits h.nodup, ← h.score,
      hscore]
  · have hbefore := h.stroke
    have hcount := hstroke.stroke
    omega
  · rw [hstroke.spawned]
    exact h.first_le
  · rw [hstroke.map_id]
    exact h.nodup
  · intro fruit hfruit
    obtain ⟨old, hold, hslice⟩ := hstroke.exists_old hfruit
    rw [← hslice, Fruit.sliceIf_id, hstroke.spawned]
    exact h.launched old hold
  · intro id hid
    rw [hstroke.spawned]
    rw [hids] at hid
    rcases Finset.mem_union.mp hid with hold | hcut
    · exact h.counted id hold
    · obtain ⟨fruit, hmem, _, hfruit⟩ := mem_cutIds.mp hcut
      rw [← hfruit]
      exact h.launched fruit hmem
  · intro fruit hfruit
    constructor
    · intro hsliced
      exact Finset.mem_union_right _ (mem_slicedIds.mpr ⟨fruit, hfruit, hsliced, rfl⟩)
    · intro hid
      obtain ⟨old, hold, hslice⟩ := hstroke.exists_old hfruit
      rw [← hslice, Fruit.sliceIf_id, hids] at hid
      rw [← hslice, Fruit.sliceIf_isSliced, Bool.or_eq_true]
      rcases Finset.mem_union.mp hid with hnoted | hcut
      · exact .inl ((h.sliced old hold).mpr hnoted)
      · obtain ⟨new, hnew, hiscut, hsame⟩ := mem_cutIds.mp hcut
        rw [← List.inj_on_of_nodup_map h.nodup hnew hold hsame]
        exact .inr hiscut
  · intro fruit hfruit
    obtain ⟨old, hold, hslice⟩ := hstroke.exists_old hfruit
    rw [← hslice]
    exact wellFormed_sliceIf (h.wellFormed old hold) hits

private theorem Ledger.spawn (h : Ledger first ids s) (lvl : Level R) (r : R)
    (draws : ℕ → GameState.FruitDraw R) : Ledger first ids (s.spawnFruit lvl r draws) := by
  simp only [GameState.spawnFruit]
  split
  · exact h
  · have hnew : ∀ fruit ∈ (List.range (GameState.spawnCount lvl r)).map
        (fun i ↦ GameState.launchFruit lvl (draws i) (s.spawned + i)),
        s.spawned ≤ fruit.id ∧ fruit.id < s.spawned + GameState.spawnCount lvl r ∧
          fruit.isSliced = false ∧ fruit.WellFormed := by
      intro fruit hfruit
      obtain ⟨i, hi, hlaunch⟩ := List.mem_map.mp hfruit
      have hlt := List.mem_range.mp hi
      rw [← hlaunch]
      refine ⟨Nat.le_add_right _ _, ?_, rfl, wellFormed_launchFruit lvl _ _⟩
      change s.spawned + i < s.spawned + GameState.spawnCount lvl r
      omega
    constructor
    · exact h.score
    · exact h.stroke
    · exact h.first_le.trans (Nat.le_add_right _ _)
    · rw [List.map_append, List.nodup_append]
      refine ⟨h.nodup, ?_, ?_⟩
      · rw [List.map_map]
        apply List.nodup_range.map
        intro i j hij
        exact Nat.add_left_cancel hij
      · intro id hold id' hlaunched heq
        obtain ⟨old, hmem, hid⟩ := List.mem_map.mp hold
        obtain ⟨new, hmem', hid'⟩ := List.mem_map.mp hlaunched
        have hlt := (h.launched old hmem).2
        have hge := (hnew new hmem').1
        omega
    · intro fruit hfruit
      change first ≤ fruit.id ∧ fruit.id < s.spawned + GameState.spawnCount lvl r
      rcases List.mem_append.mp hfruit with hold | hlaunched
      · have hrange := h.launched fruit hold
        omega
      · have hrange := hnew fruit hlaunched
        have hfirst := h.first_le
        omega
    · intro id hid
      change first ≤ id ∧ id < s.spawned + GameState.spawnCount lvl r
      have hrange := h.counted id hid
      omega
    · intro fruit hfruit
      rcases List.mem_append.mp hfruit with hold | hlaunched
      · exact h.sliced fruit hold
      · obtain ⟨hge, _, hwhole, _⟩ := hnew fruit hlaunched
        rw [hwhole]
        constructor
        · intro hsliced
          cases hsliced
        · intro hid
          have hlt := (h.counted _ hid).2
          omega
    · intro fruit hfruit
      rcases List.mem_append.mp hfruit with hold | hlaunched
      · exact h.wellFormed fruit hold
      · exact (hnew fruit hlaunched).2.2.2

private theorem Ledger.frame (h : Ledger first ids s) {lvl : Level R} {elapsed now : R}
    (hrender : s.render lvl elapsed now = some t) : Ledger first ids t := by
  have ⟨_, _, _, hboard, hspawned, hstroke⟩ := render_spec hrender
  have hscore : t.score = s.score := congrArg Scoreboard.score hboard
  constructor
  · rw [hscore]
    exact h.score
  · rw [hscore, hstroke]
    exact h.stroke
  · rw [hspawned]
    exact h.first_le
  · exact (render_ids hrender).nodup h.nodup
  · intro fruit hfruit
    have ⟨old, hold, hadvance⟩ := exists_advance_of_mem hrender hfruit
    rw [(advance_same hadvance).1, hspawned]
    exact h.launched old hold
  · rw [hspawned]
    exact h.counted
  · intro fruit hfruit
    have ⟨old, hold, hadvance⟩ := exists_advance_of_mem hrender hfruit
    have ⟨hid, hsliced⟩ := advance_same hadvance
    rw [hid, hsliced]
    exact h.sliced old hold
  · intro fruit hfruit
    have ⟨old, hold, hadvance⟩ := exists_advance_of_mem hrender hfruit
    have ⟨m, hm, hwell⟩ := exists_advance (h.wellFormed old hold) lvl.gravity
      (GameState.frameStep elapsed)
    rw [hadvance] at hm
    rw [← Option.some.inj hm] at hwell
    exact hwell

/-- Every event keeps the ledger and notes what it cuts. -/
theorem Ledger.step (h : Ledger first ids s) {lvl : Level R} {e : GameEvent R}
    (hstep : s.step lvl e = some t) : Ledger first (ids ∪ t.slicedIds) t := by
  rcases step_cases hstep with hstroke | ⟨r, draws, rfl, rfl⟩ | ⟨elapsed, now, rfl, hrender⟩ |
    ⟨rfl, rfl⟩
  · exact h.strikes hstroke
  · have hspawn := h.spawn lvl r draws
    rw [hspawn.union_eq]
    exact hspawn
  · have hframe := h.frame hrender
    rw [hframe.union_eq]
    exact hframe
  · have hcleanup : Ledger first ids s.cleanup :=
      ⟨h.score, h.stroke, h.first_le, h.nodup, h.launched, h.counted, h.sliced, h.wellFormed⟩
    rw [hcleanup.union_eq]
    exact hcleanup

end

private theorem exists_mapM {α β : Type} {f : α → Option β} {xs : List α}
    (h : ∀ x ∈ xs, ∃ y, f x = some y) : ∃ ys, xs.mapM f = some ys := by
  induction xs with
  | nil => exact ⟨[], List.mapM_nil⟩
  | cons x xs ih =>
    have ⟨y, hy⟩ := h x List.mem_cons_self
    have ⟨ys, hys⟩ := ih fun z hz ↦ h z (List.mem_cons_of_mem _ hz)
    refine ⟨y :: ys, ?_⟩
    rw [List.mapM_cons, hy, hys]
    rfl

/-- No event raises while the fruits are well formed. -/
theorem exists_step {s : GameState R} (h : ∀ fruit ∈ s.fruits, fruit.WellFormed)
    (lvl : Level R) (e : GameEvent R) : ∃ t, s.step lvl e = some t := by
  cases e with
  | frame elapsed now =>
    have ⟨moved, hmoved⟩ : ∃ moved, s.fruits.mapM
        (Fruit.advance lvl.gravity (GameState.frameStep elapsed)) = some moved := by
      apply exists_mapM
      intro fruit hfruit
      have ⟨m, hm, _⟩ := exists_advance (h fruit hfruit) lvl.gravity
        (GameState.frameStep elapsed)
      exact ⟨m, hm⟩
    have hrender : (s.render lvl elapsed now).isSome := by
      simp only [GameState.render]
      rw [hmoved]
      rfl
    exact Option.isSome_iff_exists.mp hrender
  | _ => exact ⟨_, rfl⟩

/-! ### Runs -/

/-- The fruits seen sliced after some turn. -/
def everSliced (turns : List (GameTurn R)) : Finset ℕ :=
  turns.foldl (fun ids t ↦ ids ∪ t.after.slicedIds) ∅

omit [Scalar R] in
/-- One more turn adds the fruits that it leaves sliced. -/
theorem everSliced_concat (turns : List (GameTurn R)) (t : GameTurn R) :
    everSliced (turns ++ [t]) = everSliced turns ∪ t.after.slicedIds := by
  simp only [everSliced]
  rw [List.foldl_append]
  rfl

omit [Scalar R] in
/-- A level starts with an empty ledger. -/
theorem Ledger.start (lvl : Level R) (s : GameState R) :
    Ledger s.spawned (everSliced ([] : List (GameTurn R))) (s.startLevel lvl) :=
  ⟨rfl, le_rfl, le_rfl, List.nodup_nil, by simp [GameState.startLevel], by simp [everSliced],
    by simp [GameState.startLevel], by simp [GameState.startLevel]⟩

/-- What holds after a turn with this past in a level that began with fruit number `first`. -/
structure GameTurn.Accounted (lvl : Level R) (first : ℕ) (past : List (GameTurn R))
    (t : GameTurn R) : Prop where
  raised : t.raised = false
  score : t.after.score = (everSliced (past ++ [t])).card
  launched : ∀ id ∈ everSliced (past ++ [t]), first ≤ id ∧ id < t.after.spawned
  sliced : ∀ old ∈ t.before.fruits, old.isSliced = true →
    ∀ fruit ∈ t.after.fruits, fruit.id = old.id → fruit.isSliced = true
  stroke : t.after.slicedInStrokeCount ≤ t.after.score
  wellFormed : ∀ fruit ∈ t.after.fruits, fruit.WellFormed
  dropped : ∀ old ∈ t.before.fruits, ∀ h1 h2, old.half1 = some h1 → old.half2 = some h2 →
    old.id ∉ t.after.fruits.map Fruit.id →
    ∃ elapsed now, t.event = .frame elapsed now ∧
      540 ≤ (h1.move lvl.gravity (GameState.frameStep elapsed)).y ∧
      540 ≤ (h2.move lvl.gravity (GameState.frameStep elapsed)).y

/-- Only a frame removes a fruit, which it has moved to where it does not stay. -/
theorem exists_advance_of_gone {lvl : Level R} {s t : GameState R} {e : GameEvent R}
    (hstep : s.step lvl e = some t) {old : Fruit R} (hold : old ∈ s.fruits)
    (hgone : old.id ∉ t.fruits.map Fruit.id) :
    ∃ elapsed now m, e = .frame elapsed now ∧
      old.advance lvl.gravity (GameState.frameStep elapsed) = some m ∧ m.2 = false := by
  rcases step_cases hstep with hstroke | ⟨r, draws, rfl, rfl⟩ | ⟨elapsed, now, rfl, hrender⟩ |
    ⟨rfl, rfl⟩
  · apply absurd _ hgone
    rw [hstroke.map_id]
    exact List.mem_map_of_mem hold
  · apply absurd _ hgone
    simp only [GameState.spawnFruit]
    split
    · exact List.mem_map_of_mem hold
    · exact List.mem_map_of_mem (List.mem_append_left _ hold)
  · obtain ⟨m, hm, hstays⟩ := exists_advance_of_before hrender hold
    refine ⟨elapsed, now, m, rfl, hm, ?_⟩
    cases hdropped : m.2 with
    | false => rfl
    | true =>
      apply absurd _ hgone
      rw [← (advance_same hm).1]
      exact List.mem_map_of_mem (hstays hdropped)
  · exact absurd (List.mem_map_of_mem hold) hgone

/-- Only a frame drops a sliced fruit, and only when both halves are below the field. -/
theorem dropped_step {lvl : Level R} {s t : GameState R} {e : GameEvent R}
    (hwell : ∀ fruit ∈ s.fruits, fruit.WellFormed) (hstep : s.step lvl e = some t)
    {old : Fruit R} (hold : old ∈ s.fruits) {h1 h2 : FruitHalf R} (e1 : old.half1 = some h1)
    (e2 : old.half2 = some h2) (hgone : old.id ∉ t.fruits.map Fruit.id) :
    ∃ elapsed now, e = .frame elapsed now ∧
      540 ≤ (h1.move lvl.gravity (GameState.frameStep elapsed)).y ∧
      540 ≤ (h2.move lvl.gravity (GameState.frameStep elapsed)).y := by
  obtain ⟨elapsed, now, m, rfl, hm, hdropped⟩ := exists_advance_of_gone hstep hold hgone
  have hsliced : old.isSliced = true := by
    rw [← (hwell old hold).half1, e1]
    rfl
  exact ⟨elapsed, now, rfl, advance_drops (hwell old hold) hsliced hm hdropped e1 e2⟩

/-- A turn from a state with a ledger is accounted for, and leaves a ledger. -/
theorem accounted_step {lvl : Level R} {first : ℕ} {past : List (GameTurn R)} {s : GameState R}
    (h : Ledger first (everSliced past) s) (e : GameEvent R) :
    ((gameMachine lvl).step s e).Accounted lvl first past ∧
      Ledger first (everSliced (past ++ [(gameMachine lvl).step s e]))
        ((gameMachine lvl).step s e).after := by
  have ⟨t, hstep⟩ := exists_step h.wellFormed lvl e
  have hafter := h.step hstep
  rw [← everSliced_concat past ⟨e, s, t, false⟩] at hafter
  rw [gameMachine_step_of_step hstep]
  refine ⟨?_, hafter⟩
  constructor
  · rfl
  · exact hafter.score
  · exact hafter.counted
  · intro old hold hsliced fruit hfruit hid
    apply (hafter.sliced fruit hfruit).mpr
    rw [hid, everSliced_concat]
    exact Finset.mem_union_left _ ((h.sliced old hold).mp hsliced)
  · exact hafter.stroke
  · exact hafter.wellFormed
  · intro old hold h1 h2 e1 e2 hgone
    exact dropped_step h.wellFormed hstep hold e1 e2 hgone

/-- Throughout a level the score is the number of fruits of this level that have been sliced,
the stroke counts no more than the score, no frame raises, every fruit has its halves exactly
when it is sliced, and a sliced fruit is dropped only with both halves below the field. -/
theorem score_counts_sliced (lvl : Level R) (s : GameState R) (events : List (GameEvent R)) :
    ∀ past t rest, (gameMachine lvl).trace (s.startLevel lvl) events = past ++ t :: rest →
      t.Accounted lvl s.spawned past := by
  apply (gameMachine lvl).split_forall (I := fun past u ↦ Ledger s.spawned (everSliced past) u)
    (P := fun past t ↦ t.Accounted lvl s.spawned past)
  · intro past u e _ hu
    exact (accounted_step hu e).1
  · intro past u e _ v hu hnext
    rw [← Option.some.inj hnext]
    exact (accounted_step hu e).2
  · exact Ledger.start lvl s

/-- A pair is launched and cut. -/
theorem score_counts_sliced_of_one_pair :
    ∃ past t, (gameMachine firstLevel).trace (GameState.init.startLevel firstLevel) cutPair =
        past ++ [t] ∧ t.after.score = 2 ∧ t.Accounted firstLevel 0 past := by
  have hsplit : ∃ past t, (gameMachine firstLevel).trace
      (GameState.init.startLevel firstLevel) cutPair = past ++ [t] ∧ t.after.score = 2 := by
    refine ⟨[_], _, rfl, ?_⟩
    decide +kernel
  have ⟨past, t, htrace, hscore⟩ := hsplit
  exact ⟨past, t, htrace, hscore,
    score_counts_sliced firstLevel GameState.init cutPair past t [] htrace⟩

end VisionGame.Game
