import VisionGame.Base.Tally
import VisionGame.Game.FruitState
import VisionGame.Game.Strokes

/-!
# Combos

Library `Game`. `components/FruitNinjaGame.tsx:437–524,967–997`. One counter serves all
strokes. It is reset when a stroke has paused, when the pointer goes up and when a swipe
begins; it is announced before the first two resets and after the swipe. The ledger of a run
tallies each fruit that is cut under the number of its stroke. A swipe leaves its fruits on the
counter, and so does a stroke that ends without a pause; the next announcement counts them again.
-/

namespace VisionGame.Game
open VisionGame.Base

variable {R : Type} [Scalar R]

/-! ### What an event does to the counter -/

/-- What an event means for the counter of the stroke. -/
inductive CounterAct (R : Type) where
  /-- A point is registered. -/
  | point (p : TrailPoint R)
  /-- The pointer goes up. -/
  | up
  /-- A swipe is made. -/
  | swipe
  /-- The counter is left alone. -/
  | none

/-- The last stroke has paused at a clock reading; `FruitNinjaGame.tsx:493`. -/
def GameState.paused (now : R) (s : GameState R) : Bool := 220 < now - s.lastStrokeTime

/-- What an event in a state means for the counter. -/
def GameEvent.counterAct (s : GameState R) (e : GameEvent R) : CounterAct R :=
  match (e.mark s).point with
  | some p => .point p
  | none =>
    match e with
    | .pointerUp => if s.receivesPointer then .up else .none
    | .swipeSlice _ _ _ _ => if s.gameActive && s.canvas then .swipe else .none
    | _ => .none

/-- How counter, score and announcements change. -/
def CounterAct.Counts (s t : GameState R) : CounterAct R → Prop
  | .point p =>
    t.slicedInStrokeCount + s.score =
        (if s.paused p.time then 0 else s.slicedInStrokeCount) + t.score ∧
      t.combos = if s.paused p.time then s.playCombo.combos else s.combos
  | .up => t.slicedInStrokeCount = 0 ∧ t.score = s.score ∧ t.combos = s.playCombo.combos
  | .swipe => t.slicedInStrokeCount + s.score = t.score ∧
      t.combos = if 1 < t.slicedInStrokeCount then s.combos ++ [t.slicedInStrokeCount] else s.combos
  | .none => t.slicedInStrokeCount = s.slicedInStrokeCount ∧ t.score = s.score ∧
      t.combos = s.combos

/-- The loop over the fruits adds as much to the counter as to the score. -/
theorem sliceWhere_gain (hits : Fruit R → Bool) (s : GameState R) :
    (s.sliceWhere hits).slicedInStrokeCount + s.score =
      s.slicedInStrokeCount + (s.sliceWhere hits).score := by
  have ⟨_, hboard, _, hstroke⟩ := foldl_visit hits s.fruits { s with fruits := [] }
  have hscore : (s.sliceWhere hits).score = s.score + cuts hits s.fruits := by
    have hcount := congrArg Scoreboard.score hboard
    rw [Scoreboard.iterate_count_score] at hcount
    exact hcount
  have hcount : (s.sliceWhere hits).slicedInStrokeCount =
      s.slicedInStrokeCount + cuts hits s.fruits := hstroke
  omega

private theorem sweep_gain (prev : Point R) (points : List (TrailPoint R)) (s : GameState R) :
    (GameState.sweep prev points s).slicedInStrokeCount + s.score =
      s.slicedInStrokeCount + (GameState.sweep prev points s).score := by
  induction points generalizing prev s with
  | nil => rfl
  | cons p points ih =>
    have hfirst : ({ s with trail := s.trail ++ [p] }.checkCollisions p.x p.y
        (some prev)).slicedInStrokeCount + s.score = s.slicedInStrokeCount +
          ({ s with trail := s.trail ++ [p] }.checkCollisions p.x p.y (some prev)).score :=
      sliceWhere_gain _ _
    have hrest := ih p.toPoint
      ({ s with trail := s.trail ++ [p] }.checkCollisions p.x p.y (some prev))
    change (GameState.sweep p.toPoint points _).slicedInStrokeCount + s.score =
      s.slicedInStrokeCount + (GameState.sweep p.toPoint points _).score
    omega

omit [Scalar R] in
/-- A combo of several fruits is announced with their number. -/
theorem playCombo_combos (s : GameState R) :
    s.playCombo.combos =
      if 1 < s.slicedInStrokeCount then s.combos ++ [s.slicedInStrokeCount] else s.combos := by
  simp only [GameState.playCombo]
  split <;> rfl

private theorem registerPoint_counts (p : TrailPoint R) (s : GameState R) :
    (CounterAct.point p).Counts s (s.registerPoint p.x p.y p.time) := by
  obtain ⟨hscore, hcount, hcombos⟩ : (s.endPausedStroke p.time).score = s.score ∧
      (s.endPausedStroke p.time).slicedInStrokeCount =
        (if s.paused p.time then 0 else s.slicedInStrokeCount) ∧
      (s.endPausedStroke p.time).combos =
        (if s.paused p.time then s.playCombo.combos else s.combos) := by
    have hboard := congrArg Scoreboard.score (playCombo_same s).2.1
    simp only [GameState.endPausedStroke, GameState.paused, decide_eq_true_eq]
    split
    · exact ⟨hboard, rfl, rfl⟩
    · exact ⟨rfl, rfl, rfl⟩
  have hgain := sliceWhere_gain
    (Fruit.hitBy p.x p.y ((s.endPausedStroke p.time).extendTrail p.x p.y p.time).lastPoint)
    ((s.endPausedStroke p.time).extendTrail p.x p.y p.time)
  obtain ⟨_, _, hkept⟩ := sliceWhere_stroke
    (Fruit.hitBy p.x p.y ((s.endPausedStroke p.time).extendTrail p.x p.y p.time).lastPoint)
    ((s.endPausedStroke p.time).extendTrail p.x p.y p.time)
  constructor
  · rw [← hscore, ← hcount]
    exact hgain
  · rw [← hcombos]
    exact hkept

private theorem playCombo_counts {s u : GameState R}
    (hgain : u.slicedInStrokeCount + s.score = u.score)
    (hcombos : u.combos = s.combos) : CounterAct.swipe.Counts s u.playCombo := by
  have ⟨_, hboard, _, hcount, _⟩ := playCombo_same u
  have hscore := congrArg Scoreboard.score hboard
  constructor
  · rw [hcount]
    exact hgain.trans hscore.symm
  · rw [hcount, playCombo_combos, hcombos]

private theorem triggerSwipeSlice_counts (direction : GameState.Direction) (rx ry : R)
    (clock : ℕ → R) {s : GameState R} (h : (s.gameActive && s.canvas) = true) :
    CounterAct.swipe.Counts s (s.triggerSwipeSlice direction rx ry clock) := by
  have hopen : ¬(!s.gameActive || !s.canvas) = true := by
    rw [← Bool.not_and, h]
    exact Bool.false_ne_true
  simp only [GameState.triggerSwipeSlice]
  rw [if_neg hopen]
  have hgain := sweep_gain (GameState.swipeEnds direction rx ry).1
    (GameState.swipePoints (GameState.swipeEnds direction rx ry) clock)
    { s with slicedInStrokeCount := 0 }
  rw [Nat.zero_add] at hgain
  exact playCombo_counts hgain (sweep_stroke _ _ _).2.2

private theorem still_counts (lvl : Level R) {s : GameState R} {e : GameEvent R}
    (hnone : (e.mark s).point = none) (hup : e ≠ .pointerUp)
    (hswipe : ∀ direction rx ry clock, e ≠ .swipeSlice direction rx ry clock) :
    CounterAct.none.Counts s ((gameMachine lvl).step s e).after := by
  cases e with
  | resize w h =>
    change CounterAct.none.Counts s (s.resizeCanvas w h)
    simp only [GameState.resizeCanvas]
    split
    · exact ⟨rfl, rfl, rfl⟩
    · split <;> exact ⟨rfl, rfl, rfl⟩
  | pointerDown rawX rawY now =>
    change CounterAct.none.Counts s (s.handlePointerDown rawX rawY now)
    simp only [GameEvent.mark] at hnone
    simp only [GameState.handlePointerDown]
    split at hnone
    · cases hnone
    · next hclosed =>
      rw [if_pos (by simp [hclosed])]
      exact ⟨rfl, rfl, rfl⟩
  | pointerMove rawX rawY now =>
    change CounterAct.none.Counts s (s.handlePointerMove rawX rawY now)
    simp only [GameEvent.mark] at hnone
    rw [handlePointerMove_eq]
    split at hnone
    · cases hnone
    · next hstill =>
      rw [if_neg hstill]
      exact ⟨rfl, rfl, rfl⟩
  | pointerUp => exact absurd rfl hup
  | pointerLeave =>
    change CounterAct.none.Counts s s.handlePointerLeave
    simp only [GameState.handlePointerLeave]
    split <;> exact ⟨rfl, rfl, rfl⟩
  | gestureSlice x y now =>
    change CounterAct.none.Counts s (s.handleGestureSlice x y now)
    simp only [GameEvent.mark] at hnone
    simp only [GameState.handleGestureSlice]
    split at hnone
    · cases hnone
    · next hover =>
      rw [if_pos (by simp [hover])]
      exact ⟨rfl, rfl, rfl⟩
  | swipeSlice direction rx ry clock => exact absurd rfl (hswipe direction rx ry clock)
  | spawn r draws =>
    change CounterAct.none.Counts s (s.spawnFruit lvl r draws)
    simp only [GameState.spawnFruit]
    split <;> exact ⟨rfl, rfl, rfl⟩
  | frame elapsed now =>
    rcases gameMachine_step_cases lvl s (.frame elapsed now) with ⟨t, hstep, hturn⟩ | ⟨_, hturn⟩
    · obtain ⟨_, _, hmoved⟩ := Option.map_eq_some_iff.mp hstep
      rw [hturn, ← hmoved]
      exact ⟨rfl, rfl, rfl⟩
    · rw [hturn]
      exact ⟨rfl, rfl, rfl⟩
  | cleanup => exact ⟨rfl, rfl, rfl⟩

private theorem counterAct_counts (lvl : Level R) (s : GameState R) (e : GameEvent R) :
    (e.counterAct s).Counts s ((gameMachine lvl).step s e).after := by
  have hmark := mark_explains lvl s e
  simp only [GameEvent.counterAct]
  simp only [StrokeMark.Explains] at hmark
  split
  · next p hp =>
    rw [hp] at hmark
    rw [hmark]
    split
    · have ⟨hcount, hcombos⟩ := registerPoint_counts p s.lift
      have hlift : s.lift.playCombo.combos = s.playCombo.combos := by
        rw [playCombo_combos, playCombo_combos]
        rfl
      rw [hlift] at hcombos
      exact ⟨hcount, hcombos⟩
    · exact registerPoint_counts p s
  · next hnone =>
    split
    · change CounterAct.Counts s s.handlePointerUp _
      simp only [GameState.handlePointerUp]
      have hscore := congrArg Scoreboard.score (playCombo_same s).2.1
      cases s.receivesPointer with
      | true => exact ⟨rfl, hscore, rfl⟩
      | false => exact ⟨rfl, rfl, rfl⟩
    · next direction rx ry clock =>
      change CounterAct.Counts s (s.triggerSwipeSlice direction rx ry clock) _
      split
      · next hopen => exact triggerSwipeSlice_counts direction rx ry clock hopen
      · next hclosed =>
        simp only [GameState.triggerSwipeSlice]
        rw [if_pos (by simpa [Bool.and_eq_true, imp_iff_not_or] using hclosed)]
        exact ⟨rfl, rfl, rfl⟩
    · next hup hswipe => exact still_counts lvl hnone hup hswipe

/-! ### The ledger of a level -/

/-- Stroke that was drawn point by point, or swipe; both are numbered. -/
inductive StrokeId where
  | drawn (n : ℕ)
  | swiped (n : ℕ)
  deriving DecidableEq, Repr

namespace GameTurn

/-- The mark of the event of a turn. -/
def mark (t : GameTurn R) : StrokeMark R := t.event.mark t.before

/-- What the event of a turn means for the counter. -/
def counterAct (t : GameTurn R) : CounterAct R := t.event.counterAct t.before

/-- The fruits that a turn cuts. -/
def cut (t : GameTurn R) : List ℕ :=
  (t.before.fruits.filter (Fruit.isCut (t.event.hits t.before))).map Fruit.id

end GameTurn

/-- The strokes of a level so far, and the fruits they cut that are on the counter or were
announced. -/
structure ComboLedger (R : Type) where
  /-- The point that may be continued. -/
  last : Option (TrailPoint R)
  /-- Number of strokes drawn; the last one has this number. -/
  drawn : ℕ
  /-- Number of swipes made. -/
  swiped : ℕ
  tally : Tally ℕ StrokeId

namespace ComboLedger

/-- Nothing has happened since the level started. -/
def empty : ComboLedger R := ⟨none, 0, 0, .empty⟩

/-- A registered point goes on with the last stroke that was drawn. -/
def joins (l : ComboLedger R) (m : StrokeMark R) (p : TrailPoint R) : Bool :=
  match l.last with
  | some q => !m.breaks && p.time - q.time ≤ 220
  | none => false

/-- One more turn. -/
def note (l : ComboLedger R) (t : GameTurn R) : ComboLedger R :=
  let last := t.mark.leaves l.last
  match t.counterAct with
  | .point p =>
    let drawn := if l.joins t.mark p then l.drawn else l.drawn + 1
    let tally :=
      if t.before.paused p.time then (l.tally.announce (.drawn l.drawn)).reset else l.tally
    ⟨last, drawn, l.swiped, tally.count (.drawn drawn) t.cut⟩
  | .up => ⟨last, l.drawn, l.swiped, (l.tally.announce (.drawn l.drawn)).reset⟩
  | .swipe =>
    ⟨last, l.drawn, l.swiped + 1,
      (l.tally.reset.count (.swiped l.swiped) t.cut).announce (.swiped l.swiped)⟩
  | .none => { l with last := last }

end ComboLedger

/-- The ledger after some turns of a level. -/
def comboLedger (turns : List (GameTurn R)) : ComboLedger R := turns.foldl .note .empty

private theorem comboLedger_concat (turns : List (GameTurn R)) (t : GameTurn R) :
    comboLedger (turns ++ [t]) = (comboLedger turns).note t := by
  simp only [comboLedger]
  rw [List.foldl_append]
  rfl

private theorem comboLedger_last (turns : List (GameTurn R)) :
    (comboLedger turns).last = openPoint (turns.map GameTurn.mark) := by
  induction turns using List.reverseRecOn with
  | nil => rfl
  | append_singleton turns t ih =>
    rw [comboLedger_concat, List.map_append, List.map_singleton, openPoint_concat, ← ih]
    simp only [ComboLedger.note]
    split <;> rfl

/-- A registered point goes on with a stroke when it is of one stroke with the point before. -/
theorem joins_iff {turns : List (GameTurn R)} {m : StrokeMark R} {p : TrailPoint R}
    (hp : m.point = some p) :
    (comboLedger turns).joins m p = true ↔
      ∃ q, SameStroke (turns.map GameTurn.mark) m q p := by
  simp only [ComboLedger.joins, SameStroke]
  rw [comboLedger_last]
  constructor
  · intro h
    split at h
    · next q hq =>
      rw [Bool.and_eq_true, Bool.not_eq_true', decide_eq_true_iff] at h
      exact ⟨q, hp, h.1, h.2, (openPoint_eq_some_iff _ q).mp hq⟩
    · cases h
  · rintro ⟨q, _, hbreaks, hsoon, hlast⟩
    rw [(openPoint_eq_some_iff _ q).mpr hlast, hbreaks]
    simpa using hsoon

/-! ### The books -/

/-- The counter and the announcements of a state agree with the tally of a ledger whose last
stroke drawn has a number. `leftover` says that the counter holds fruits of other strokes. -/
structure Books (tally : Tally ℕ StrokeId) (drawn : ℕ) (leftover : Prop) (ids : Finset ℕ)
    (count : ℕ) (combos : List ℕ) : Prop where
  count : count = tally.counted.length
  combos : combos = tally.sizes
  fair : tally.Fair
  nodup : (tally.counted.map Prod.fst).Nodup
  counted : ∀ c ∈ tally.counted, c.1 ∈ ids
  announced : ∀ id ∈ tally.announcedItems, id ∈ ids
  fresh : ∀ n, ∀ c ∈ tally.counted, c.2 = .drawn n → c.1 ∉ tally.announcedItems
  numbered : ∀ n, ∀ c ∈ tally.counted, c.2 = .drawn n → n ≤ drawn
  own : ¬leftover → ∀ c ∈ tally.counted, c.2 = .drawn drawn
  foreign : leftover → ∃ c ∈ tally.counted, c.2 ≠ .drawn drawn

namespace Books

variable {tally : Tally ℕ StrokeId} {drawn count : ℕ} {leftover : Prop} {ids more : Finset ℕ}
  {combos : List ℕ}

/-- Books may be read with equal entries and with more fruits noted. -/
theorem congr (h : Books tally drawn leftover ids count combos) (hsub : ids ⊆ more)
    {leftover' : Prop} (hleft : leftover' ↔ leftover) {count' : ℕ} (hcount : count' = count)
    {combos' : List ℕ} (hcombos : combos' = combos) :
    Books tally drawn leftover' more count' combos' where
  count := hcount.trans h.count
  combos := hcombos.trans h.combos
  fair := h.fair
  nodup := h.nodup
  counted := fun c hc ↦ hsub (h.counted c hc)
  announced := fun id hid ↦ hsub (h.announced id hid)
  fresh := h.fresh
  numbered := h.numbered
  own := fun hnone ↦ h.own (hnone ∘ hleft.mpr)
  foreign := fun hsome ↦ h.foreign (hleft.mp hsome)

/-- Announcing the last stroke drawn stays fair unless the counter holds fruits of others. -/
theorem fair_announce_iff (h : Books tally drawn leftover ids count combos) :
    (tally.announce (.drawn drawn)).Fair ↔ (1 < count → ¬leftover) := by
  rw [Tally.fair_announce_iff h.fair h.nodup (h.fresh drawn), ← h.count]
  apply imp_congr_right
  intro _
  constructor
  · intro hown hleft
    have ⟨c, hc, hother⟩ := h.foreign hleft
    exact hother (hown c hc)
  · exact h.own

/-- The last stroke drawn is announced and the counter reset. -/
theorem close (h : Books tally drawn leftover ids count combos)
    (hfair : (tally.announce (.drawn drawn)).Fair) :
    Books (tally.announce (.drawn drawn)).reset drawn False ids 0
      (if 1 < count then combos ++ [count] else combos) where
  count := rfl
  combos := by
    change _ = (tally.announce (.drawn drawn)).sizes
    rw [Tally.sizes_announce, ← h.combos, ← h.count]
  fair := (Tally.fair_reset _).mpr hfair
  nodup := List.nodup_nil
  counted := by simp [Tally.reset]
  announced := by
    intro id hid
    rcases Tally.mem_announcedItems_announce hid with hold | ⟨c, hc, hid⟩
    · exact h.announced id hold
    · rw [← hid]
      exact h.counted c hc
  fresh := by simp [Tally.reset]
  numbered := by simp [Tally.reset]
  own := by simp [Tally.reset]
  foreign := False.elim

private theorem draw (h : Books tally drawn leftover ids count combos) (hsub : ids ⊆ more)
    {cut : List ℕ} (hnodup : cut.Nodup) (hnew : ∀ id ∈ cut, id ∉ ids) (hcut : ∀ id ∈ cut, id ∈ more)
    {next : ℕ} (hnext : next = drawn ∨ next = drawn + 1) :
    Books (tally.count (.drawn next) cut) next (leftover ∨ next = drawn + 1 ∧ 0 < count) more
      (count + cut.length) combos where
  count := by simp [Tally.count, h.count]
  combos := h.combos
  fair := (Tally.fair_count _ _ _).mpr h.fair
  nodup := by
    rw [Tally.items_count]
    apply h.nodup.append hnodup
    intro id hold hlate
    obtain ⟨c, hc, hid⟩ := List.mem_map.mp hold
    rw [← hid] at hlate
    exact hnew c.1 hlate (h.counted c hc)
  counted := by
    intro c hc
    rcases Tally.mem_counted_count.mp hc with hold | ⟨hid, _⟩
    · exact hsub (h.counted c hold)
    · exact hcut c.1 hid
  announced := fun id hid ↦ hsub (h.announced id hid)
  fresh := by
    intro n c hc hlabel hann
    rcases Tally.mem_counted_count.mp hc with hold | ⟨hid, _⟩
    · exact h.fresh n c hold hlabel hann
    · exact hnew c.1 hid (h.announced c.1 hann)
  numbered := by
    intro n c hc hlabel
    rcases Tally.mem_counted_count.mp hc with hold | ⟨_, hdrawn⟩
    · have hle := h.numbered n c hold hlabel
      omega
    · rw [hdrawn] at hlabel
      exact (StrokeId.drawn.inj hlabel).ge
  own := by
    intro hleft c hc
    rcases Tally.mem_counted_count.mp hc with hold | ⟨_, hdrawn⟩
    · rcases hnext with rfl | rfl
      · exact h.own (fun hforeign ↦ hleft (.inl hforeign)) c hold
      · have hcount : 0 < count := by
          rw [h.count]
          exact List.length_pos_of_mem hold
        exact absurd (.inr ⟨rfl, hcount⟩) hleft
    · exact hdrawn
  foreign := by
    have hlater : next = drawn + 1 → ∀ c ∈ tally.counted, c.2 ≠ .drawn next := by
      intro hlate c hc hlabel
      have hle := h.numbered next c hc hlabel
      omega
    rintro (hforeign | ⟨hlate, hcount⟩)
    · obtain ⟨c, hc, hother⟩ := h.foreign hforeign
      refine ⟨c, List.mem_append_left _ hc, ?_⟩
      rcases hnext with rfl | hlate
      · exact hother
      · exact hlater hlate c hc
    · rw [h.count] at hcount
      obtain ⟨c, hc⟩ := List.exists_mem_of_length_pos hcount
      exact ⟨c, List.mem_append_left _ hc, hlater hlate c hc⟩

private theorem point (h : Books tally drawn leftover ids count combos) (hsub : ids ⊆ more)
    {cut : List ℕ} (hnodup : cut.Nodup) (hnew : ∀ id ∈ cut, id ∉ ids) (hcut : ∀ id ∈ cut, id ∈ more)
    {next : ℕ} (hnext : next = drawn ∨ next = drawn + 1) {paused : Bool}
    (hfair : (if paused then (tally.announce (.drawn drawn)).reset else tally).Fair) :
    Books ((if paused then (tally.announce (.drawn drawn)).reset else tally).count
        (.drawn next) cut) next
      (paused = false ∧ (leftover ∨ next = drawn + 1 ∧ 0 < count)) more
      ((if paused then 0 else count) + cut.length)
      (if paused then if 1 < count then combos ++ [count] else combos else combos) := by
  cases paused with
  | true =>
    have hclosed := h.close ((Tally.fair_reset _).mp hfair)
    apply (hclosed.draw hsub hnodup hnew hcut hnext).congr subset_rfl _ rfl rfl
    simp
  | false =>
    apply (h.draw hsub hnodup hnew hcut hnext).congr subset_rfl _ rfl rfl
    exact and_iff_right rfl

/-- The fruits of a swipe are counted from zero and announced. -/
theorem swipe (h : Books tally drawn leftover ids count combos) (hsub : ids ⊆ more)
    {cut : List ℕ} (hnodup : cut.Nodup) (hnew : ∀ id ∈ cut, id ∉ ids) (hcut : ∀ id ∈ cut, id ∈ more)
    (n : ℕ) :
    Books ((tally.reset.count (.swiped n) cut).announce (.swiped n)) drawn (cut ≠ []) more
      cut.length (if 1 < cut.length then combos ++ [cut.length] else combos) := by
  have hlength : (tally.reset.count (.swiped n) cut).counted.length = cut.length :=
    List.length_map _
  have hitems : (tally.reset.count (.swiped n) cut).counted.map Prod.fst = cut :=
    Tally.items_count _ _ _
  have hlabel : ∀ c ∈ (tally.reset.count (.swiped n) cut).counted,
      c.1 ∈ cut ∧ c.2 = .swiped n := by
    intro c hc
    rcases Tally.mem_counted_count.mp hc with hold | hswiped
    · cases hold
    · exact hswiped
  constructor
  · rw [Tally.announce_counted, hlength]
  · rw [Tally.sizes_announce, hlength]
    have hsizes : (tally.reset.count (.swiped n) cut).sizes = tally.sizes := rfl
    rw [hsizes, ← h.combos]
  · apply (Tally.fair_announce_iff _ _ _).mpr
    · intro _ c hc
      exact (hlabel c hc).2
    · exact (Tally.fair_count _ _ _).mpr ((Tally.fair_reset tally).mpr h.fair)
    · rw [hitems]
      exact hnodup
    · intro c hc _ hann
      exact hnew c.1 (hlabel c hc).1 (h.announced c.1 hann)
  · rw [Tally.announce_counted, hitems]
    exact hnodup
  · rw [Tally.announce_counted]
    intro c hc
    exact hcut c.1 (hlabel c hc).1
  · intro id hid
    rcases Tally.mem_announcedItems_announce hid with hold | ⟨c, hc, hid⟩
    · exact hsub (h.announced id hold)
    · rw [← hid]
      exact hcut c.1 (hlabel c hc).1
  · rw [Tally.announce_counted]
    intro k c hc hdrawn
    rw [(hlabel c hc).2] at hdrawn
    cases hdrawn
  · rw [Tally.announce_counted]
    intro k c hc hdrawn
    rw [(hlabel c hc).2] at hdrawn
    cases hdrawn
  · rw [Tally.announce_counted]
    intro hnone c hc
    have hmem := (hlabel c hc).1
    rw [not_not.mp hnone] at hmem
    cases hmem
  · rw [Tally.announce_counted]
    intro hsome
    have ⟨id, hid⟩ := List.exists_mem_of_ne_nil cut hsome
    refine ⟨(id, .swiped n), Tally.mem_counted_count.mpr (.inr ⟨hid, rfl⟩), ?_⟩
    intro hdrawn
    cases hdrawn

end Books

/-! ### Turns -/

namespace GameTurn

/-- The turn resets the counter. -/
def resetsCounter (t : GameTurn R) : Bool :=
  match t.counterAct with
  | .point p => t.before.paused p.time
  | .up => true
  | .swipe => true
  | .none => false

/-- The turn announces the last stroke drawn, which has paused or is ended by the pointer. -/
def endsStroke (t : GameTurn R) : Bool :=
  match t.counterAct with
  | .point p => t.before.paused p.time
  | .up => true
  | _ => false

/-- The turn leaves fruits on the counter that are not of the stroke that comes next: it is a
swipe that cut some, or it begins a stroke without a pause while the counter holds some. -/
def LeavesFruits (past : List (GameTurn R)) (t : GameTurn R) : Prop :=
  match t.counterAct with
  | .point p =>
    t.before.paused p.time = false ∧ (¬∃ q, SameStroke (past.map mark) t.mark q p) ∧
      0 < t.before.slicedInStrokeCount
  | .swipe => t.cut ≠ []
  | _ => False

/-- Fruits of other strokes were left on the counter and it has not been reset since. -/
def Leftover (past : List (GameTurn R)) : Prop :=
  Since LeavesFruits (fun j ↦ j.resetsCounter = false) past

/-- A stroke that is announced with several fruits finds no fruits of others on the counter. -/
def AnnouncesOwn (past : List (GameTurn R)) (t : GameTurn R) : Prop :=
  t.endsStroke = true → 1 < t.before.slicedInStrokeCount → ¬Leftover past

/-- After a turn every cut fruit has been announced at most once and only with the stroke that
cut it, and the announced combos add up to no more than the score. -/
structure CountsOnce (past : List (GameTurn R)) (t : GameTurn R) : Prop where
  recorded : t.after.combos = (comboLedger (past ++ [t])).tally.sizes
  fair : (comboLedger (past ++ [t])).tally.Fair
  sum_le : t.after.combos.sum ≤ t.after.score

private theorem mark_point_of_counterAct {t : GameTurn R} {p : TrailPoint R}
    (h : t.counterAct = .point p) : t.mark.point = some p := by
  simp only [counterAct, GameEvent.counterAct] at h
  split at h
  · next q hq =>
    rw [← CounterAct.point.inj h]
    exact hq
  · split at h
    · split at h <;> cases h
    · split at h <;> cases h
    · cases h

end GameTurn

section
variable {lvl : Level R} {first : ℕ} {ids : Finset ℕ} {s u : GameState R} {e : GameEvent R}

private theorem strikes_of_cuts_pos (hstep : s.step lvl e = some u) (hpos : 0 < e.cuts s) :
    Strikes (e.hits s) s u := by
  rcases step_cases hstep with hstroke | ⟨r, draws, rfl, _⟩ | ⟨elapsed, now, rfl, _⟩ | ⟨rfl, _⟩
  · exact hstroke
  · exact absurd (cuts_false s.fruits) hpos.ne'
  · exact absurd (cuts_false s.fruits) hpos.ne'
  · exact absurd (cuts_false s.fruits) hpos.ne'

/-- The fruits a turn cuts are different and new, are sliced afterwards, and are what the score
gains. -/
theorem cut_spec (h : Ledger first ids s) (hstep : s.step lvl e = some u) :
    (GameTurn.cut ⟨e, s, u, false⟩).Nodup ∧ (∀ id ∈ GameTurn.cut ⟨e, s, u, false⟩, id ∉ ids) ∧
      (∀ id ∈ GameTurn.cut ⟨e, s, u, false⟩, id ∈ u.slicedIds) ∧
      s.score + (GameTurn.cut ⟨e, s, u, false⟩).length = u.score := by
  have hlength : (GameTurn.cut ⟨e, s, u, false⟩).length = e.cuts s := by
    simp only [GameTurn.cut, GameEvent.cuts, cuts]
    rw [List.length_map, List.countP_eq_length_filter]
  refine ⟨(List.filter_sublist.map _).nodup h.nodup, ?_, ?_, ?_⟩
  · intro id hid
    obtain ⟨fruit, hfruit, hsame⟩ := List.mem_map.mp hid
    obtain ⟨hmem, hcut⟩ := List.mem_filter.mp hfruit
    rw [← hsame]
    exact h.notMem_of_isCut hmem hcut
  · intro id hid
    have hpos := List.length_pos_of_mem hid
    rw [hlength] at hpos
    rw [slicedIds_of_strikes (strikes_of_cuts_pos hstep hpos)]
    exact Finset.mem_union_right _ (List.mem_toFinset.mpr hid)
  · rw [hlength]
    rcases board_step hstep with hboard | ⟨hboard, hnone⟩
    · have hscore := congrArg Scoreboard.score hboard
      rw [Scoreboard.iterate_count_score] at hscore
      exact hscore.symm
    · have hscore := congrArg Scoreboard.score hboard
      rw [hnone]
      exact hscore.symm

variable {past : List (GameTurn R)}

/-- The ledger and the books of a state after some turns. -/
structure Booked (first : ℕ) (past : List (GameTurn R)) (s : GameState R) : Prop where
  ledger : Ledger first (everSliced past) s
  books : Books (comboLedger past).tally (comboLedger past).drawn (GameTurn.Leftover past)
    (everSliced past) s.slicedInStrokeCount s.combos

/-- The announcements stay fair in a turn exactly when it announces a stroke with its own
fruits only. -/
theorem Booked.fair_note_iff (h : Booked first past s) (hstep : s.step lvl e = some u) :
    ((comboLedger past).note ⟨e, s, u, false⟩).tally.Fair ↔
      GameTurn.AnnouncesOwn past ⟨e, s, u, false⟩ := by
  have ⟨hledger, hbooks⟩ := h
  have hannounce := hbooks.fair_announce_iff
  simp only [ComboLedger.note, GameTurn.AnnouncesOwn, GameTurn.endsStroke]
  cases hact : GameTurn.counterAct ⟨e, s, u, false⟩ with
  | point p =>
    dsimp only
    rw [Tally.fair_count]
    cases s.paused p.time with
    | true => simpa using hannounce
    | false => simpa using hbooks.fair
  | up =>
    dsimp only
    rw [Tally.fair_reset, hannounce]
    simp
  | swipe =>
    have ⟨hnodup, hnew, hcut, _⟩ := cut_spec hledger hstep
    have hsub : everSliced past ⊆ everSliced past ∪ u.slicedIds := Finset.subset_union_left
    have hswipe := hbooks.swipe hsub hnodup hnew (fun id hid ↦
      Finset.mem_union_right _ (hcut id hid)) (comboLedger past).swiped
    simpa using hswipe.fair
  | none => simpa using hbooks.fair

/-- A turn that announces a stroke with its own fruits only keeps the books. -/
theorem Booked.note (h : Booked first past s) (hstep : s.step lvl e = some u)
    (hown : GameTurn.AnnouncesOwn past ⟨e, s, u, false⟩) :
    Booked first (past ++ [⟨e, s, u, false⟩]) u := by
  have ⟨hledger, hbooks⟩ := h
  have ⟨hnodup, hnew, hcut, hlength⟩ := cut_spec hledger hstep
  have hcounts : (GameTurn.counterAct ⟨e, s, u, false⟩).Counts s u := by
    have hact := counterAct_counts lvl s e
    rw [gameMachine_step_of_step hstep] at hact
    exact hact
  have hsub : everSliced past ⊆ everSliced past ∪ u.slicedIds := Finset.subset_union_left
  have hmem : ∀ id ∈ GameTurn.cut ⟨e, s, u, false⟩, id ∈ everSliced past ∪ u.slicedIds :=
    fun id hid ↦ Finset.mem_union_right _ (hcut id hid)
  constructor
  · rw [everSliced_concat]
    exact hledger.step hstep
  · have hleft : GameTurn.Leftover (past ++ [⟨e, s, u, false⟩]) ↔
        GameTurn.LeavesFruits past ⟨e, s, u, false⟩ ∨
          GameTurn.Leftover past ∧ GameTurn.resetsCounter ⟨e, s, u, false⟩ = false :=
      since_concat _ _ _ _
    rw [comboLedger_concat, everSliced_concat]
    simp only [ComboLedger.note]
    simp only [GameTurn.LeavesFruits, GameTurn.resetsCounter] at hleft
    have hfair := h.fair_note_iff hstep |>.mpr hown
    simp only [ComboLedger.note] at hfair
    cases hact : GameTurn.counterAct ⟨e, s, u, false⟩ with
    | point p =>
      rw [hact] at hcounts hleft hfair
      have ⟨hcount, hcombos⟩ := hcounts
      have hjoins : (comboLedger past).joins (GameTurn.mark ⟨e, s, u, false⟩) p = true ↔
          ∃ q, SameStroke (past.map GameTurn.mark) (GameTurn.mark ⟨e, s, u, false⟩) q p :=
        joins_iff (GameTurn.mark_point_of_counterAct hact)
      have hnext : ∀ joins : Bool, (if joins = true then (comboLedger past).drawn
          else (comboLedger past).drawn + 1) = (comboLedger past).drawn + 1 ↔ joins = false := by
        intro joins
        cases joins <;> simp
      dsimp only at hleft hfair ⊢
      apply (hbooks.point hsub hnodup hnew hmem _ ((Tally.fair_count _ _ _).mp hfair)).congr
        subset_rfl
      · rw [hleft, hnext, ← hjoins, Bool.not_eq_true]
        cases s.paused p.time <;> simp [or_comm]
      · omega
      · rw [hcombos, playCombo_combos]
      · split <;> simp
    | up =>
      rw [hact] at hcounts hleft hfair
      have ⟨hcount, _, hcombos⟩ := hcounts
      have hclosed := hbooks.close ((Tally.fair_reset _).mp hfair)
      apply hclosed.congr hsub _ hcount (hcombos.trans (playCombo_combos s))
      rw [hleft]
      simp
    | swipe =>
      rw [hact] at hcounts hleft
      have ⟨hcount, hcombos⟩ := hcounts
      have hcut : u.slicedInStrokeCount = (GameTurn.cut ⟨e, s, u, false⟩).length := by omega
      rw [hcut] at hcombos
      have hswipe := hbooks.swipe hsub hnodup hnew hmem (comboLedger past).swiped
      apply hswipe.congr subset_rfl _ hcut hcombos
      rw [hleft]
      simp
    | none =>
      rw [hact] at hcounts hleft
      have ⟨hcount, _, hcombos⟩ := hcounts
      apply hbooks.congr hsub _ hcount hcombos
      rw [hleft]
      simp

/-- After a turn the law holds exactly when the turn announces a stroke with its own fruits
only. -/
theorem Booked.countsOnce_iff (h : Booked first past s) (hstep : s.step lvl e = some u) :
    GameTurn.CountsOnce past ⟨e, s, u, false⟩ ↔ GameTurn.AnnouncesOwn past ⟨e, s, u, false⟩ := by
  have hfair := h.fair_note_iff hstep
  rw [← comboLedger_concat] at hfair
  constructor
  · intro hlaw
    exact hfair.mp hlaw.fair
  · intro hown
    have hafter := h.note hstep hown
    constructor
    · exact hafter.books.combos
    · exact hafter.books.fair
    · change u.combos.sum ≤ u.score
      rw [hafter.books.combos, hafter.ledger.score]
      exact hafter.books.fair.sum_sizes_le hafter.books.announced

end

/-- Throughout a level every cut fruit is announced at most once and only with the stroke that
cut it, and the announced combos add up to no more than the score, exactly when every stroke that
is announced finds no fruits of other strokes on the counter. -/
theorem combos_count_once_iff (lvl : Level R) (s : GameState R) (events : List (GameEvent R)) :
    (∀ past t rest, (gameMachine lvl).trace (s.startLevel lvl) events = past ++ t :: rest →
        t.CountsOnce past) ↔
      ∀ past t rest, (gameMachine lvl).trace (s.startLevel lvl) events = past ++ t :: rest →
        t.AnnouncesOwn past := by
  apply (gameMachine lvl).split_forall_iff (I := fun past u ↦ Booked s.spawned past u)
    (P := fun past t ↦ t.CountsOnce past) (C := fun past t ↦ t.AnnouncesOwn past)
  · intro past u e _ hu
    obtain ⟨v, hstep⟩ := exists_step hu.ledger.wellFormed lvl e
    rw [gameMachine_step_of_step hstep]
    exact hu.countsOnce_iff hstep
  · intro past u e _ v hu hown hnext
    obtain ⟨w, hstep⟩ := exists_step hu.ledger.wellFormed lvl e
    rw [gameMachine_step_of_step hstep] at hown hnext ⊢
    rw [← Option.some.inj hnext]
    exact hu.note hstep hown
  · constructor
    · exact Ledger.start lvl s
    · constructor
      · rfl
      · rfl
      · exact ⟨List.nodup_nil, by simp [comboLedger, ComboLedger.empty, Tally.empty]⟩
      · exact List.nodup_nil
      · simp [comboLedger, ComboLedger.empty, Tally.empty]
      · simp [comboLedger, ComboLedger.empty, Tally.empty, Tally.announcedItems]
      · simp [comboLedger, ComboLedger.empty, Tally.empty]
      · simp [comboLedger, ComboLedger.empty, Tally.empty]
      · simp [comboLedger, ComboLedger.empty, Tally.empty]
      · intro hleft
        exact absurd hleft (not_since_nil _ _)

/-- Two fruits rise, a swipe cuts both, and the pointer goes up. -/
def swipeThenUp : List (GameEvent ℚ) :=
  .spawn 0.5 (fun _ ↦ ⟨0.98, 0.8, 0.125, 0, 0, 0⟩) :: List.replicate 5 (.frame 50 0) ++
    [.swipeSlice .random 0.99 0.99 fun _ ↦ 0, .pointerUp]

/-- The two fruits of a swipe are announced again when the pointer goes up. -/
theorem combos_count_once_fails :
    ¬∀ past t rest, (gameMachine firstLevel).trace (GameState.init.startLevel firstLevel)
      swipeThenUp = past ++ t :: rest → t.CountsOnce past := by
  have hsplit : ∃ past t, (gameMachine firstLevel).trace
      (GameState.init.startLevel firstLevel) swipeThenUp = past ++ [t] ∧
        t.after.combos = [2, 2] ∧ t.after.score = 2 := by
    refine ⟨[_, _, _, _, _, _, _], _, rfl, ?_⟩
    decide +kernel
  have ⟨past, t, htrace, hcombos, hscore⟩ := hsplit
  intro hlaw
  have hsum := (hlaw past t [] htrace).sum_le
  rw [hcombos, hscore] at hsum
  exact absurd hsum (by decide)

end VisionGame.Game
