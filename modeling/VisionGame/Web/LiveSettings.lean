import VisionGame.Base.Window
import VisionGame.Vision.SaneSettings
import VisionGame.Web.PythonConfig

/-!
# From the settings page to the running program

Library `Web`. `app/api/python-config/route.ts:7–56`, `components/python-settings.tsx:20–76`,
`src/mediapipe/app_gestures.py:427–442,472–758,760–771,1005–1043`. Pages, the route and the vision
loop share the settings file, while requests and answers of the pages are under way. When every
write leaves a later modification time, no order of their steps makes an iteration raise, and what
a page has applied is in force after the next check, unless the file was written in between.
-/

namespace VisionGame.Web
open VisionGame.Base VisionGame.Vision

variable {R : Type} [Scalar R]

/-! ### Pages, route and loop together -/

/-- The program in its loop, the pages opened so far and the messages under way. -/
structure System (R : Type) where
  loop : LoopState R
  pages : ℕ → Option (Page R)
  requests : List (Request R)
  replies : List (Reply R)

/-- What can happen next: an event at a page or the route, or an iteration of the loop. -/
inductive SystemEvent (R : Type) where
  | web (e : Event R)
  | iterate (inp : IterInput R)

/-- A number that an edit sets is one that a float holds. -/
def Edit.InRange : Edit R → Prop
  | sensVal val | suavVal val => |val| < (Json.floatLimit : R)
  | cameraSource _ | targetHand _ | gameMode _ => True

/-- What would come of a write of the file. -/
def SystemEvent.written : SystemEvent R → WriteOutcome R
  | .web (.serve _ env) => env.written.elim .refused .done
  | .web _ => .refused
  | .iterate inp => inp.written

/-- Edits set floats. -/
def SystemEvent.InRange : SystemEvent R → Prop
  | .web (.edit _ change) => change.InRange
  | _ => True

namespace System

/-- No page has been opened. -/
def start (loop : LoopState R) : System R := ⟨loop, fun _ ↦ none, [], []⟩

/-- What pages and route see. -/
def world (s : System R) : World R := ⟨s.loop.shared, s.pages, s.requests, s.replies⟩

/-- An event at a page or the route. The program acts in its iterations only. -/
def handle (numeral : Json R → Option R) (s : System R) : Event R → System R
  | .python _ => s
  | e =>
    let w := s.world.handle numeral e
    ⟨{ s.loop with shared := w.shared }, w.pages, w.requests, w.replies⟩

end System

/-- An event between the systems before and after it, with the end of an iteration. -/
structure SystemTurn (R : Type) where
  event : SystemEvent R
  before : System R
  after : System R
  result : Option (Except PyError IterEnd)

/-- Pages, route and loop as a machine, until the loop is left. -/
def systemMachine (numeral : Json R → Option R) :
    Machine (System R) (SystemEvent R) (SystemTurn R) where
  step s e :=
    match e with
    | .web e => ⟨.web e, s, s.handle numeral e, none⟩
    | .iterate inp =>
      let r := Vision.iterate inp (s.loop.enter id)
      ⟨.iterate inp, s, { s with loop := r.after }, some r.result⟩
  next t :=
    match t.result with
    | some (.ok .quit) | some (.error _) => none
    | _ => some t.after

/-! ### Sane copies -/

/-- An answered configuration is a sane object. -/
def SaneAnswer (data : Option (Document R)) : Prop := ∃ C, data = some (.object C) ∧ Sane C

/-- The copies of all pages are sane, and so is what is under way. -/
def SaneWorld (w : World R) : Prop := w.Each (fun copy ↦ Sane copy.config) SaneAnswer

private theorem isFloat_three : IsFloat (.num 3 : Json R) := isFloat_ofNat 3 (by decide)

private theorem isFloat_ten : IsFloat (.num 10 : Json R) := isFloat_ofNat 10 (by decide)

private theorem sane_fallbackConfig : Sane (fallbackConfig (R := R)) := by
  apply sane_ofList
  simp only [List.forall_mem_cons]
  exact ⟨fits_cameraSource (.inl ⟨_, rfl⟩), fits_gameMode _, fits_targetHand _,
    fits_sensVal isFloat_three, fits_suavVal isFloat_ten, fits_defaultZone (by decide),
    fits_defaultZone (by decide), List.forall_mem_nil _⟩

private theorem sane_initialConfig : Sane (initialConfig (R := R)) := by
  apply sane_ofList
  simp only [List.forall_mem_cons]
  exact ⟨fits_cameraSource (.inl ⟨_, rfl⟩), fits_gameMode _, fits_targetHand _,
    fits_sensVal isFloat_three, fits_suavVal isFloat_ten, List.forall_mem_nil _⟩

private theorem Edit.fits {e : Edit R} (h : e.InRange) : Fits e.key e.value := by
  cases e with
  | cameraSource text => exact fits_cameraSource (.inl ⟨_, rfl⟩)
  | sensVal val => exact fits_sensVal ⟨val, rfl, h⟩
  | suavVal val => exact fits_suavVal ⟨val, rfl, h⟩
  | targetHand hand => exact fits_targetHand _
  | gameMode mode => exact fits_gameMode _

private theorem isFloat_numberOr (numeral : Json R → Option R) {default : R}
    (hdefault : IsFloat (.num default)) {v : Option (Json R)} (hv : ∀ w, v = some w → IsFloat w) :
    IsFloat (numberOr numeral default v) := by
  cases v with
  | none => exact hdefault
  | some w =>
    obtain ⟨x, rfl, hx⟩ := hv w rfl
    unfold numberOr toNumber
    dsimp only
    split
    · exact hdefault
    · exact ⟨x, rfl, hx⟩

private theorem sane_normalised (numeral : Json R → Option R) {C : Dict (Json R)} (h : Sane C) :
    Sane (normalised numeral C) := by
  have hsens := isFloat_numberOr numeral isFloat_three fun v hv ↦ (h "sens_val" v hv).sensVal rfl
  have hsuav := isFloat_numberOr numeral isFloat_ten fun v hv ↦ (h "suav_val" v hv).suavVal rfl
  exact (h.set (fits_sensVal hsens)).set (fits_suavVal hsuav)

private theorem sane_currentConfig {file : Option (ConfigFile R)}
    (h : ∀ f, file = some f → SaneFile f) : Sane (currentConfig file) := by
  unfold currentConfig
  cases file with
  | none => exact sane_empty
  | some f =>
    have ⟨C, hcontent, hC⟩ := h f rfl
    dsimp only
    rw [hcontent]
    exact hC

private theorem sane_getConfig {file : Option (ConfigFile R)}
    (h : ∀ f, file = some f → SaneFile f) :
    SaneAnswer (getConfig file) := by
  cases file with
  | none => exact ⟨_, rfl, sane_fallbackConfig⟩
  | some f => exact h f rfl

/-- A sane world stays sane while its file is sane and edits set floats. -/
theorem SaneWorld.handle {w : World R} (h : SaneWorld w)
    (hfile : ∀ f, w.shared.file = some f → SaneFile f) (numeral : Json R → Option R) {e : Event R}
    (hrange : ∀ p change, e = .edit p change → change.InRange) :
    SaneWorld (w.handle numeral e) := by
  apply World.Each.handle h
  · exact sane_initialConfig
  · exact fun p change he _ hcopy ↦ hcopy.set (Edit.fits (hrange p change he))
  · rintro data ⟨C, rfl, hC⟩ _ _
    exact sane_normalised numeral hC
  · exact sane_getConfig hfile

/-! ### What pages and route do to the file -/

private theorem handle_shared (numeral : Json R → Option R) (w : World R) (e : Event R) :
    (w.handle numeral e).shared = w.shared ∨ (∃ act, e = .python act) ∨
      ∃ i env p copy mtime, e = .serve i env ∧ w.requests[i]? = some (.post p copy) ∧
        env.written = some mtime ∧
        (w.handle numeral e).shared =
          { w.shared with
            file := some ⟨mtime,
              some (.object ((currentConfig w.shared.file).merge copy.config))⟩ } := by
  cases e with
  | openPage p =>
    left
    change (w.openPage p).shared = w.shared
    unfold World.openPage
    split <;> rfl
  | fetchConfig p =>
    left
    change (w.fetchConfig p).shared = w.shared
    unfold World.fetchConfig
    split
    · split <;> rfl
    · rfl
  | edit p e => exact .inl rfl
  | saveConfig p =>
    left
    change (w.saveConfig p).shared = w.shared
    unfold World.saveConfig
    split
    · split <;> rfl
    · rfl
  | serve i env =>
    change (w.serve i env).shared = w.shared ∨ _ ∨ ∃ _ _ _ _ _, _ ∧ _ ∧ _ ∧
      (w.serve i env).shared = _
    unfold World.serve
    split
    · exact .inl rfl
    · next p copy hpost =>
      unfold postConfig
      dsimp only
      split
      · exact .inl rfl
      · cases hwritten : env.written with
        | none => exact .inl rfl
        | some mtime => exact .inr (.inr ⟨i, env, p, copy, mtime, rfl, hpost, hwritten, rfl⟩)
    · exact .inl rfl
  | deliver i =>
    left
    change (w.deliver numeral i).shared = w.shared
    unfold World.deliver
    split <;> rfl
  | loseRequest i =>
    left
    change (w.loseRequest i).shared = w.shared
    unfold World.loseRequest
    split <;> rfl
  | loseReply i =>
    left
    change (w.loseReply i).shared = w.shared
    unfold World.loseReply
    split <;> rfl
  | python act => exact .inr (.inl ⟨act, rfl⟩)

/-! ### Runs -/

namespace SystemTurn

/-- A write in this turn does not break off, and leaves a later modification time than those so
far. -/
def Later (t : SystemTurn R) : Prop :=
  t.event.written.Leaves fun mtime ↦ t.before.loop.lastMtime < mtime ∧
    ∀ file ∈ t.before.loop.shared.file, file.mtime < mtime

instance (t : SystemTurn R) : Decidable t.Later :=
  inferInstanceAs (Decidable (t.event.written.Leaves fun _ ↦ _ ∧ ∀ file ∈ _, _))


/-- A copy of a page is applied: its request is served, and the write goes through. -/
def Applies (copy : Copy R) (t : SystemTurn R) : Prop :=
  ∃ i env p, t.event = .web (.serve i env) ∧ t.before.requests[i]? = some (.post p copy) ∧
    env.dirExists = true ∧ env.written.isSome

/-- The file is left alone. -/
def KeepsFile (t : SystemTurn R) : Prop :=
  t.after.loop.shared.file = t.before.loop.shared.file

/-- An iteration whose check of the file is due. -/
def Checks (t : SystemTurn R) : Prop :=
  ∃ inp, t.event = .iterate inp ∧ inp.clock.check - t.before.loop.lastConfigCheck > 1

/-- No iteration raises. After a check the settings in force are those of the file it found; when
nobody has written the file since a copy was applied, they are those of the copy. -/
structure Effective (past : List (SystemTurn R)) (t : SystemTurn R) : Prop where
  runs : ∀ e, t.result ≠ some (.error e)
  inForce : t.Checks → ∀ file C, t.before.loop.shared.file = some file →
    file.content = some (.object C) → Loop.InForce C t.after.loop
  applied : t.Checks → ∀ copy, Since (fun _ u ↦ u.Applies copy) KeepsFile past →
    ∀ k : Setting, (∀ key ∈ k.keys, (copy.config key).isSome) →
      k.InForce copy.config t.after.loop

end SystemTurn

/-- The file holds a copy that was applied. -/
def System.Holds (copy : Copy R) (s : System R) : Prop :=
  ∃ file C, s.loop.shared.file = some file ∧ file.content = some (.object C) ∧
    ∀ k v, copy.config k = some v → C k = some v

/-- What is known about the system after some turns. -/
structure SystemLog (past : List (SystemTurn R)) (s : System R) : Prop where
  sound : Sound s.loop.shared
  adjusted : Adjusted s.loop
  world : SaneWorld s.world
  follows : Loop.FollowsFile s.loop
  applied : ∀ copy, Since (fun _ u ↦ u.Applies copy) SystemTurn.KeepsFile past → s.Holds copy

section
variable {numeral : Json R → Option R} {past : List (SystemTurn R)} {s : System R}

private theorem System.handle_cases (numeral : Json R → Option R) (s : System R) (e : Event R) :
    s.handle numeral e = s ∨ (∀ act, e ≠ .python act) ∧
      (s.handle numeral e).world = s.world.handle numeral e ∧
      (s.handle numeral e).loop =
        { s.loop with shared := (s.world.handle numeral e).shared } := by
  cases e with
  | python act => exact .inl rfl
  | _ => exact .inr ⟨nofun, rfl, rfl⟩

private theorem holds_of_applies {copy : Copy R} {e : SystemEvent R}
    (h : ((systemMachine numeral).step s e).Applies copy) :
    ((systemMachine numeral).step s e).after.Holds copy := by
  have ⟨i, env, p, he, hpost, hdir, hwritten⟩ := h
  have ⟨mtime, hmtime⟩ := Option.isSome_iff_exists.mp hwritten
  have hserve : e = .web (.serve i env) := by
    cases e with
    | web e => exact he
    | iterate inp => cases he
  subst hserve
  have hbefore : s.world.requests[i]? = some (.post p copy) := hpost
  refine ⟨⟨mtime, some (.object ((currentConfig s.loop.shared.file).merge copy.config))⟩, _, ?_,
    rfl, fun k v hv ↦ Dict.merge_of_some _ hv⟩
  change (World.serve i env s.world).shared.file = _
  unfold World.serve
  rw [hbefore]
  unfold postConfig
  dsimp only
  rw [hdir, hmtime]
  rfl

private theorem SystemLog.holds_concat (h : SystemLog past s) {e : SystemEvent R} {copy : Copy R}
    (hsince : Since (fun _ u ↦ u.Applies copy) SystemTurn.KeepsFile
      (past ++ [(systemMachine numeral).step s e])) :
    ((systemMachine numeral).step s e).after.Holds copy := by
  rcases (since_concat _ _ _ _).mp hsince with happlies | ⟨hpast, hkeeps⟩
  · exact holds_of_applies happlies
  · have ⟨file, C, hfile, hcontent, hcopy⟩ := h.applied copy hpast
    refine ⟨file, C, ?_, hcontent, hcopy⟩
    have hbefore : ((systemMachine numeral).step s e).before = s := by
      cases e <;> rfl
    unfold SystemTurn.KeepsFile at hkeeps
    rw [hkeeps, hbefore]
    exact hfile

private theorem SystemLog.web (h : SystemLog past s) {e : Event R}
    (hlater : ((systemMachine numeral).step s (.web e)).Later)
    (hrange : (SystemEvent.web e).InRange) :
    Sound (s.handle numeral e).loop.shared ∧ Adjusted (s.handle numeral e).loop ∧
      SaneWorld (s.handle numeral e).world ∧ Loop.FollowsFile (s.handle numeral e).loop := by
  rcases s.handle_cases numeral e with hsame | ⟨hweb, hworld, hloop⟩
  · rw [hsame]
    exact ⟨h.sound, h.adjusted, h.world, h.follows⟩
  · rw [hworld, hloop]
    have hedits (p : ℕ) (change : Edit R) (he : e = .edit p change) : change.InRange := by
      rw [he] at hrange
      exact hrange
    have hsane := h.world.handle h.sound.file numeral hedits
    rcases handle_shared numeral s.world e with hshared | ⟨act, hact⟩ |
      ⟨i, env, p, copy, mtime, he, hpost, hwritten, hshared⟩
    · rw [hshared]
      exact ⟨h.sound, h.adjusted, hsane, h.follows⟩
    · exact absurd hact (hweb act)
    · rw [hshared]
      refine ⟨?_, h.adjusted.congr rfl rfl, hsane, fun file C hfile _ hnoted ↦ ?_⟩
      · have hcopy : Sane copy.config := h.world.posts p copy (List.mem_of_getElem? hpost)
        have hmerged := (sane_currentConfig h.sound.file).merge hcopy
        refine ⟨h.sound.gameMode, h.sound.targetHand, h.sound.sensVal, h.sound.suavVal,
          h.sound.cameraSrc, h.sound.zoneX, h.sound.zoneY, h.sound.idle, fun file hfile ↦ ?_⟩
        rw [← Option.some.inj hfile]
        exact ⟨_, rfl, hmerged⟩
      · have hdone : (SystemEvent.web e).written = .done mtime := by
          rw [he]
          exact congrArg (Option.elim · _ _) hwritten
        unfold SystemTurn.Later at hlater
        rw [show ((systemMachine numeral).step s (.web e)).event = .web e from rfl, hdone] at hlater
        rw [← Option.some.inj hfile] at hnoted
        exact absurd hnoted (ne_of_gt hlater.1)

/-- Where an iteration starts the filters are as adjusted. -/
theorem SystemLog.adjusted_enter (h : SystemLog past s) : Adjusted (s.loop.enter id) :=
  h.adjusted.congr rfl rfl

/-- Where an iteration starts the loop follows the file as well. -/
theorem SystemLog.follows_enter (h : SystemLog past s) : Loop.FollowsFile (s.loop.enter id) :=
  fun file C hfile hcontent hnoted ↦
    (h.follows file C hfile hcontent hnoted).of_settled rfl h.adjusted_enter

/-- Every turn whose write is later than those so far keeps the log. -/
theorem SystemLog.step (h : SystemLog past s) {e : SystemEvent R}
    (hlater : ((systemMachine numeral).step s e).Later)
    (hrange : e.InRange) :
    SystemLog (past ++ [(systemMachine numeral).step s e])
      ((systemMachine numeral).step s e).after := by
  cases e with
  | web e =>
    have ⟨hsound, hadjusted, hworld, hfollows⟩ := h.web hlater hrange
    exact ⟨hsound, hadjusted, hworld, hfollows, fun copy hsince ↦ h.holds_concat hsince⟩
  | iterate inp =>
    have hleaves : inp.written.Leaves fun mtime ↦ s.loop.lastMtime < mtime ∧
        ∀ file ∈ s.loop.shared.file, file.mtime < mtime := hlater
    have hwritten := hleaves.whole
    constructor
    · exact Loop.iterate_sound (s := s.loop.enter id) hwritten h.sound rfl
    · exact Loop.iterate_adjusted (s := s.loop.enter id) hwritten h.sound rfl h.adjusted_enter
    · exact ⟨h.world.pages, h.world.posts, h.world.answers⟩
    · exact Loop.iterate_followsFile hwritten rfl h.sound h.adjusted_enter h.follows_enter
        fun mtime ↦ hleaves.of_done
    · exact fun copy hsince ↦ h.holds_concat hsince

/-- A turn from a system with a log is effective. -/
theorem SystemLog.effective (h : SystemLog past s) {e : SystemEvent R}
    (hlater : ((systemMachine numeral).step s e).Later) :
    ((systemMachine numeral).step s e).Effective past := by
  have hforce : ((systemMachine numeral).step s e).Checks → ∀ file C,
      s.loop.shared.file = some file → file.content = some (.object C) →
        Loop.InForce C ((systemMachine numeral).step s e).after.loop := by
    rintro ⟨inp, he, hdue⟩ file C hfile hcontent
    cases e with
    | web e => cases he
    | iterate inp =>
      cases he
      have hwritten : inp.written.Whole := WriteOutcome.Leaves.whole hlater
      exact Loop.iterate_inForce (s := s.loop.enter id) hwritten rfl h.sound h.adjusted_enter
        h.follows_enter hdue hfile hcontent
  have hbefore : ((systemMachine numeral).step s e).before = s := by
    cases e <;> rfl
  constructor
  · intro error herror
    cases e with
    | web e => cases herror
    | iterate inp =>
      have hwritten : inp.written.Whole := WriteOutcome.Leaves.whole hlater
      have hok : ∃ done, (Vision.iterate inp (s.loop.enter id)).result = .ok done :=
        Loop.iterate_ok hwritten h.sound rfl
      have ⟨done, hdone⟩ := hok
      have hresult : (Vision.iterate inp (s.loop.enter id)).result = .error error :=
        Option.some.inj herror
      rw [hdone] at hresult
      cases hresult
  · rw [hbefore]
    exact hforce
  · intro hchecks copy hsince k hkeys
    have ⟨file, C, hfile, hcontent, hcopy⟩ := h.applied copy hsince
    apply Setting.inForce_congr ?_ (hforce hchecks file C hfile hcontent k)
    intro key hkey
    have ⟨v, hv⟩ := Option.isSome_iff_exists.mp (hkeys key hkey)
    rw [hv]
    exact hcopy key v hv

end

/-- Throughout a run of pages, route and loop, no iteration raises, and what a page has applied is
in force after the next check, unless the file was written in between. -/
theorem applied_settings_in_force (numeral : Json R → Option R) {file : Option (ConfigFile R)}
    (hfile : ∀ f, file = some f → SaneFile f) {created opened : WriteOutcome R}
    (hcreated : created.Whole) (hopened : opened.Whole) {opens : Bool}
    {w h : ℤ} {loop : LoopState R} (hloop : startUp created opened opens file w h = .ok loop)
    (hpositive : ∀ f ∈ loop.shared.file, 0 < f.mtime) {events : List (SystemEvent R)}
    (hrange : ∀ e ∈ events, e.InRange)
    (hlater : ∀ t ∈ (systemMachine numeral).trace (.start loop) events, t.Later) :
    ∀ past t rest, (systemMachine numeral).trace (.start loop) events = past ++ t :: rest →
      t.Effective past := by
  apply (systemMachine numeral).split_forall_of (I := SystemLog)
    (C := fun _ t ↦ t.Later ∧ t.event.InRange) (P := fun past t ↦ t.Effective past)
  · exact fun past s e _ hs hturn ↦ hs.effective hturn.1
  · intro past s e _ t hs hl hnext
    have hafter : ((systemMachine numeral).step s e).after = t := by
      unfold systemMachine at hnext
      dsimp only at hnext
      split at hnext
      · cases hnext
      · cases hnext
      · exact Option.some.inj hnext
    have hevent : ((systemMachine numeral).step s e).event = e := by
      cases e <;> rfl
    rw [← hafter]
    exact hs.step hl.1 (hevent ▸ hl.2)
  · have ⟨u, hu, hsound, hadjusted, hnoted⟩ := startUp_sound hfile hcreated hopened opens w h
    rw [hloop] at hu
    cases hu
    constructor
    · exact hsound
    · exact hadjusted
    · exact ⟨nofun, nofun, nofun⟩
    · intro f C hf _ hmtime
      have hzero : f.mtime = 0 := hmtime.trans hnoted
      exact absurd hzero (ne_of_gt (hpositive f hf))
    · exact fun copy hsince ↦ absurd hsince (not_since_nil _ _)
  · intro past t rest htrace
    have hmem : t ∈ (systemMachine numeral).trace (.start loop) events := by
      rw [htrace]
      simp
    have hevents := (systemMachine numeral).map_trace_isPrefix SystemTurn.event
      (fun _ e ↦ by cases e <;> rfl) (.start loop) events
    exact ⟨hlater t hmem, hrange _ (hevents.subset (List.mem_map_of_mem hmem))⟩

/-- A page is opened, fetches the settings, raises the sensitivity and applies it; the next
iteration checks the file. -/
def raiseSensitivity : List (SystemEvent ℚ) :=
  [.web (.openPage 0), .web (.serve 0 ⟨true, none⟩), .web (.deliver 0), .web (.edit 0 (.sensVal 7)),
    .web (.saveConfig 0), .web (.serve 0 ⟨true, some 5⟩), .iterate (Tick.blind 10).input]

/-- The sensitivity is in force after that iteration. -/
theorem applied_settings_in_force_raiseSensitivity :
    ∃ loop : LoopState ℚ, startUp .refused (.done 2) true
      (some ⟨1, some (.object defaultConfig)⟩) 640 480 = .ok loop ∧
      ∃ t, ((systemMachine fun _ ↦ none).trace (.start loop) raiseSensitivity)[6]? = some t ∧
        (t.before.loop.shared.globals.scaleFactor, t.after.loop.shared.globals.scaleFactor) =
          (scaleOf 3, scaleOf 7) ∧
        t.Effective
          (((systemMachine fun _ ↦ none).trace (.start loop) raiseSensitivity).take 6) := by
  have hfile (f : ConfigFile ℚ) (hf : some ⟨1, some (.object defaultConfig)⟩ = some f) :
      SaneFile f := by
    rw [← Option.some.inj hf]
    exact ⟨_, rfl, sane_defaultConfig⟩
  have hruns : ∃ loop : LoopState ℚ,
      startUp .refused (.done 2) true (some ⟨1, some (.object defaultConfig)⟩) 640 480 = .ok loop ∧
      (∀ f ∈ loop.shared.file, 0 < f.mtime) ∧
      (∀ t ∈ (systemMachine fun _ ↦ none).trace (.start loop) raiseSensitivity, t.Later) ∧
      ((systemMachine fun _ ↦ none).trace (.start loop) raiseSensitivity)[6]?.map (fun t ↦
          (t.before.loop.shared.globals.scaleFactor, t.after.loop.shared.globals.scaleFactor)) =
        some (scaleOf 3, scaleOf 7) :=
    ⟨_, rfl, by decide +kernel, by decide +kernel, by decide +kernel⟩
  have hrange : ∀ e ∈ raiseSensitivity, e.InRange := by
    simp [raiseSensitivity, SystemEvent.InRange, Edit.InRange]
    decide
  have hrefused : (WriteOutcome.refused : WriteOutcome ℚ).Whole := fun _ ↦ nofun
  have hopened : (WriteOutcome.done 2 : WriteOutcome ℚ).Whole := fun _ ↦ nofun
  obtain ⟨loop, hloop, hpositive, hlater, hnext⟩ := hruns
  obtain ⟨t, hget, hscale⟩ := Option.map_eq_some_iff.mp hnext
  exact ⟨loop, hloop, t, hget, hscale,
    applied_settings_in_force (fun _ ↦ none) hfile hrefused hopened hloop hpositive
      hrange hlater _ t _ (eq_take_cons_drop hget)⟩

end VisionGame.Web
