import VisionGame.Web.PythonConfig
import VisionGame.Web.SettingsStore

/-!
# The control page and its store

Library `Web`. `lib/gestures.ts:15–142`, `app/page.tsx:36–66,127–192,218–242,270–333,354`,
`components/advanced-settings.tsx:75–118`, `components/gesture-card.tsx:117–126`. One page, the
mutations it has under way and the mutations the store has taken. Mutations arrive in the order
in which they are sent. An answer of the query shows the store as of some number of mutations,
never fewer than the answer before it. Names, icons, logs and the HUD are left out.
-/

namespace VisionGame.Web
open VisionGame.Base

/-! ### Vocabulary -/

/-- `GestureId`; `lib/gestures.ts:15–20`. -/
inductive GestureId where
  | swipeLeft
  | swipeRight
  | pinch
  | openPalm
  | fist
  deriving DecidableEq, Repr

/-- Text of a gesture. -/
def GestureId.text : GestureId → String
  | swipeLeft => "swipe-left"
  | swipeRight => "swipe-right"
  | pinch => "pinch"
  | openPalm => "open-palm"
  | fist => "fist"

/-- Identifiers of `GESTURES`; `lib/gestures.ts:65–96`. -/
def gestures : List GestureId := [.swipeLeft, .swipeRight, .pinch, .openPalm, .fist]

/-- `OsActionId`; `lib/gestures.ts:22–32`. -/
inductive OsActionId where
  | playPause
  | nextSlide
  | prevSlide
  | volumeUp
  | volumeDown
  | mute
  | pageNext
  | pagePrev
  | altTab
  | none
  deriving DecidableEq, Repr

/-- Text of an action. -/
def OsActionId.text : OsActionId → String
  | playPause => "play-pause"
  | nextSlide => "next-slide"
  | prevSlide => "prev-slide"
  | volumeUp => "volume-up"
  | volumeDown => "volume-down"
  | mute => "mute"
  | pageNext => "page-next"
  | pagePrev => "page-prev"
  | altTab => "alt-tab"
  | none => "none"

/-- Identifiers of `OS_ACTIONS`; `lib/gestures.ts:52–63`. -/
def osActions : List OsActionId :=
  [.playPause, .nextSlide, .prevSlide, .volumeUp, .volumeDown, .mute, .pageNext, .pagePrev,
    .altTab, .none]

/-- `PROFILES`; `lib/gestures.ts:98–103`. -/
inductive Profile where
  | escritorio
  | powerpoint
  | multimedia
  | fruitNinja
  deriving DecidableEq, Repr

/-- Identifier of a profile. -/
def Profile.id : Profile → String
  | escritorio => "escritorio"
  | powerpoint => "powerpoint"
  | multimedia => "multimedia"
  | fruitNinja => "fruit-ninja"

/-- `Record<GestureId, OsActionId>`. -/
abbrev GestureMap := GestureId → OsActionId

/-- `DEFAULT_MAPPINGS`; `lib/gestures.ts:105–111`. -/
def defaultMap : GestureMap
  | .swipeLeft => .prevSlide
  | .swipeRight => .nextSlide
  | .pinch => .playPause
  | .openPalm => .volumeUp
  | .fist => .altTab

/-- `PROFILE_MAPPINGS` as shipped; `lib/gestures.ts:113–142`. -/
def Profile.preset : Profile → GestureMap
  | .escritorio => fun
    | .swipeLeft => .pagePrev
    | .swipeRight => .pageNext
    | .pinch => .playPause
    | .openPalm => .volumeUp
    | .fist => .altTab
  | .powerpoint => fun
    | .swipeLeft => .prevSlide
    | .swipeRight => .nextSlide
    | .pinch => .playPause
    | .openPalm => .volumeUp
    | .fist => .altTab
  | .multimedia => fun
    | .swipeLeft => .prevSlide
    | .swipeRight => .nextSlide
    | .pinch => .playPause
    | .openPalm => .volumeUp
    | .fist => .mute
  | .fruitNinja => fun
    | .swipeLeft => .prevSlide
    | .swipeRight => .nextSlide
    | .pinch => .playPause
    | .openPalm => .volumeUp
    | .fist => .none

variable {R : Type}

/-- The object that holds a map. -/
def GestureMap.toDocument (m : GestureMap) : Document R :=
  .object (Dict.ofList (gestures.map fun g ↦ (g.text, .str (m g).text)))

/-- The module's mutable table as the module is loaded. -/
def shippedMappings : Dict (Document R) :=
  Dict.ofList ([Profile.escritorio, .powerpoint, .multimedia, .fruitNinja].map fun p ↦
    (p.id, p.preset.toDocument))

/-! ### The page -/

/-- State of the mounted page; `page.tsx:39–47`. -/
structure ControlPage (R : Type) where
  mappings : Document R
  sensitivity : R
  triggerDelay : R
  cameraEnabled : Bool
  activeProfile : String
  /-- `activeTab === 'game'`. -/
  inGame : Bool

namespace ControlPage

/-- A page that is mounted; `page.tsx:39–47`. -/
def initial [Scalar R] : ControlPage R where
  mappings := defaultMap.toDocument
  sensitivity := 65
  triggerDelay := 200
  cameraEnabled := true
  activeProfile := "escritorio"
  inGame := false

/-- The effect that copies an answer into the page; `page.tsx:58–66`. -/
def sync (settings : Settings R) (page : ControlPage R) : ControlPage R :=
  { page with
    mappings := settings.mappings
    sensitivity := settings.sensitivity
    triggerDelay := settings.triggerDelay
    cameraEnabled := settings.cameraEnabled
    activeProfile := settings.activeProfile }

/-- What `handleSave` sends; `page.tsx:174–180`. -/
def savedArgs (page : ControlPage R) : SettingsArgs R where
  activeProfile := some page.activeProfile
  sensitivity := some page.sensitivity
  triggerDelay := some page.triggerDelay
  cameraEnabled := some page.cameraEnabled
  mappings := some page.mappings

end ControlPage

/-! ### Page and store together -/

/-- The page, its module, the mutations under way and the mutations the store has taken. The
last three fields are history, which no step reads: the values that the user last set on this
page, and the mappings last saved under each profile. -/
structure ControlWorld (R : Type) where
  page : ControlPage R
  /-- `PROFILE_MAPPINGS`. -/
  profileMappings : Dict (Document R)
  outbox : List (SettingsArgs R)
  log : List (SettingsArgs R)
  /-- Number of mutations that the last answer took into account. -/
  seen : ℕ
  lastSensitivity : Option R
  lastTriggerDelay : Option R
  lastSaved : Dict (Document R)

/-- What can happen next: the user acts on the page, the store takes a mutation, an answer as of
some number of mutations arrives, or the page is loaded again, when only the first of the
mutations under way have left it. -/
inductive ControlEvent (R : Type) where
  | slideSensitivity (value : R)
  | slideTriggerDelay (value : R)
  | changeMapping (gesture : GestureId) (action : OsActionId)
  | toggleCamera (value : Bool)
  | selectProfile (profile : Profile)
  | save
  | reset
  | showTab (game : Bool)
  | commit
  | refresh (n : ℕ)
  | reload (sent : ℕ)

/-- The page shows the control and does not disable it; `advanced-settings.tsx:75–118`,
`gesture-card.tsx:117–126`. -/
def ControlEvent.usable (page : ControlPage R) : ControlEvent R → Bool
  | slideSensitivity _ => !page.inGame && page.cameraEnabled
  | slideTriggerDelay _ => !page.inGame && page.cameraEnabled
  | changeMapping _ _ => !page.inGame && page.cameraEnabled
  | toggleCamera _ => !page.inGame
  | selectProfile _ => !page.inGame
  | save => !page.inGame
  | reset => !page.inGame
  | _ => true

namespace ControlWorld

/-- A mutation is sent. -/
def send (args : SettingsArgs R) (w : ControlWorld R) : ControlWorld R :=
  { w with outbox := w.outbox ++ [args] }

/-- `onSensitivityChange`; `page.tsx:327`. -/
def slideSensitivity (value : R) (w : ControlWorld R) : ControlWorld R :=
  { w with page := { w.page with sensitivity := value }, lastSensitivity := some value }

/-- `onTriggerDelayChange`; `page.tsx:329`. -/
def slideTriggerDelay (value : R) (w : ControlWorld R) : ControlWorld R :=
  { w with page := { w.page with triggerDelay := value }, lastTriggerDelay := some value }

/-- `handleMappingChange`; `page.tsx:127–137`. -/
def handleMappingChange (gesture : GestureId) (action : OsActionId) (w : ControlWorld R) :
    ControlWorld R :=
  let next := .object ((spread w.page.mappings).set gesture.text (.str action.text))
  { w with page := { w.page with mappings := next } } |>.send { mappings := some next }

/-- `handleCameraToggle`; `page.tsx:155–158`. -/
def handleCameraToggle (value : Bool) (w : ControlWorld R) : ControlWorld R :=
  { w with page := { w.page with cameraEnabled := value } }
  |>.send { cameraEnabled := some value }

/-- `handleProfileChange`; `page.tsx:160–170`. -/
def handleProfileChange (profile : Profile) (w : ControlWorld R) : ControlWorld R :=
  let w := { w with page := { w.page with
    activeProfile := profile.id, inGame := w.page.inGame || profile = .fruitNinja } }
  match w.profileMappings profile.id with
  | none => w
  | some preset =>
    { w with page := { w.page with mappings := preset } }
    |>.send { activeProfile := some profile.id, mappings := some preset }

/-- `handleSave`; `page.tsx:172–181`. -/
def handleSave (w : ControlWorld R) : ControlWorld R :=
  let copy : Document R := .object (spread w.page.mappings)
  { w with
    profileMappings := w.profileMappings.set w.page.activeProfile copy
    lastSaved := w.lastSaved.set w.page.activeProfile w.page.mappings }
  |>.send w.page.savedArgs

section
variable [Scalar R]

/-- `handleReset`; `page.tsx:183–192`. -/
def handleReset (w : ControlWorld R) : ControlWorld R :=
  let page : ControlPage R :=
    { w.page with mappings := defaultMap.toDocument, sensitivity := 65, triggerDelay := 200 }
  { w with page := page, lastSensitivity := some 65, lastTriggerDelay := some 200 }
  |>.send
    { mappings := some defaultMap.toDocument, sensitivity := some 65, triggerDelay := some 200 }

/-- The store takes up the first mutation under way. -/
def commit (w : ControlWorld R) : ControlWorld R :=
  match w.outbox with
  | [] => w
  | args :: rest => { w with outbox := rest, log := w.log ++ [args] }

/-- The answer of the query as of some number of mutations. -/
def answer (n : ℕ) (w : ControlWorld R) : Settings R := getSettings (stored (w.log.take n))

/-- The answer as of some number of mutations can arrive. -/
def arrives (n : ℕ) (w : ControlWorld R) : Bool := w.seen ≤ n && n ≤ w.log.length

/-- An answer arrives, and the page is synchronised. -/
def refresh (n : ℕ) (w : ControlWorld R) : ControlWorld R :=
  if w.arrives n then { w with page := w.page.sync (w.answer n), seen := n } else w

/-- The page is loaded, over a store that has taken some mutations. -/
def load (log : List (SettingsArgs R)) : ControlWorld R where
  page := .initial
  profileMappings := shippedMappings
  outbox := []
  log := log
  seen := log.length
  lastSensitivity := none
  lastTriggerDelay := none
  lastSaved := Dict.empty

/-- The page is loaded again; the module with its table is, too. -/
def reload (sent : ℕ) (w : ControlWorld R) : ControlWorld R :=
  { load w.log with outbox := w.outbox.take sent, lastSaved := w.lastSaved }

/-- What an event does to a world in which it can happen. -/
def perform (w : ControlWorld R) : ControlEvent R → ControlWorld R
  | .slideSensitivity value => w.slideSensitivity value
  | .slideTriggerDelay value => w.slideTriggerDelay value
  | .changeMapping gesture action => w.handleMappingChange gesture action
  | .toggleCamera value => w.handleCameraToggle value
  | .selectProfile profile => w.handleProfileChange profile
  | .save => w.handleSave
  | .reset => w.handleReset
  | .showTab game => { w with page := { w.page with inGame := game } }
  | .commit => w.commit
  | .refresh n => w.refresh n
  | .reload sent => w.reload sent

/-- One event. -/
def handle (w : ControlWorld R) (e : ControlEvent R) : ControlWorld R :=
  if e.usable w.page then w.perform e else w

end
end ControlWorld

/-- An event between the worlds before and after it. -/
structure ControlTurn (R : Type) where
  event : ControlEvent R
  before : ControlWorld R
  after : ControlWorld R

/-- Page and store as a machine. -/
def controlMachine [Scalar R] : Machine (ControlWorld R) (ControlEvent R) (ControlTurn R) where
  step w e := ⟨e, w, w.handle e⟩
  next t := some t.after

end VisionGame.Web
