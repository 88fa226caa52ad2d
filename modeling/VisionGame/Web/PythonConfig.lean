import VisionGame.Base.Machine
import VisionGame.Vision.Globals

/-!
# The settings route and the settings page

Library `Web`. `app/api/python-config/route.ts:7–56`, `components/python-settings.tsx:11–76`.
Several pages, the route and the Python process share `config.json`. Requests and replies are
under way until the server or the page takes one of them up, in any order. What JavaScript's
`Number` makes of a text is an argument; so are the outcomes of operations of the system.
-/

namespace VisionGame.Web
open VisionGame.Base VisionGame.Vision

variable {R : Type} [Scalar R]

/-! ### Values -/

/-- Own fields that `{...value}` copies. -/
def spread : Document R → Dict (Json R)
  | .object fields => fields
  | .other (.arr xs) => Dict.ofList (xs.zipIdx.map fun xi ↦ (toString xi.2, xi.1))
  | .other (.str s) =>
    Dict.ofList (s.toList.zipIdx.map fun ci ↦ (toString ci.2, .str (String.singleton ci.1)))
  | .other _ => Dict.empty

/-- `Number(value)`, absent for `NaN`; `numeral` reads strings and the text of lists. -/
def toNumber (numeral : Json R → Option R) : Option (Json R) → Option R
  | some .null => some 0
  | some (.bool b) => some (if b then 1 else 0)
  | some (.num x) => some x
  | some (.obj _) => none
  | some v => numeral v
  | none => none

/-- `Number(value) || default`. -/
def numberOr (numeral : Json R → Option R) (default : R) (v : Option (Json R)) : Json R :=
  match toNumber numeral v with
  | some x => .num (if x = 0 then default else x)
  | none => .num default

/-! ### The route -/

/-- What `GET` answers without a file; `route.ts:14–22`. -/
def fallbackConfig : Dict (Json R) := Dict.ofList [
  ("camera_source", .str "0"),
  ("game_mode", .str "normal"),
  ("target_hand", .str "DERECHA"),
  ("sens_val", .num 3),
  ("suav_val", .num 10),
  ("zone_x", .arr [.num 0.2, .num 0.8]),
  ("zone_y", .arr [.num 0.2, .num 0.8])]

/-- `GET`, absent for a failure; `route.ts:7–26`. -/
def getConfig : Option (ConfigFile R) → Option (Document R)
  | none => some (.object fallbackConfig)
  | some file => file.content

/-- `currentConfig`: what `POST` reads before it merges; `route.ts:32–37`. -/
def currentConfig : Option (ConfigFile R) → Dict (Json R)
  | none => Dict.empty
  | some file =>
    match file.content with
    | none => Dict.empty
    | some document => spread document

/-- Answers of `POST`. -/
inductive PostReply where
  | success
  | serverless
  | failed
  deriving DecidableEq, Repr

/-- What the system does for a `POST`: whether the directory is there, and the modification
time that the write leaves, absent when the file cannot be opened. A write that breaks off is left
out. -/
structure PostEnv (R : Type) where
  dirExists : Bool
  written : Option R

/-- `POST`; `route.ts:28–56`. A body that is not JSON is absent. -/
def postConfig (env : PostEnv R) (body : Option (Document R)) (file : Option (ConfigFile R)) :
    PostReply × Option (ConfigFile R) :=
  match body with
  | none => (.failed, file)
  | some body =>
    let newConfig := (currentConfig file).merge (spread body)
    if !env.dirExists then (.serverless, file)
    else
      match env.written with
      | some mtime => (.success, some ⟨mtime, some (.object newConfig)⟩)
      | none => (.failed, file)

omit [Scalar R] in
/-- A `POST` leaves the file alone or merges its body into what it reads there. -/
theorem postConfig_cases (env : PostEnv R) (body : Document R) (file : Option (ConfigFile R)) :
    (postConfig env (some body) file).2 = file ∨
      currentConfig (postConfig env (some body) file).2 =
        (currentConfig file).merge (spread body) := by
  unfold postConfig
  dsimp only
  split
  · exact .inl rfl
  · split
    · exact .inr rfl
    · exact .inl rfl

/-! ### The page -/

/-- Initial copy of a page; `python-settings.tsx:20–26`. -/
def initialConfig : Dict (Json R) := Dict.ofList [
  ("camera_source", .str "0"),
  ("game_mode", .str "normal"),
  ("target_hand", .str "DERECHA"),
  ("sens_val", .num 3),
  ("suav_val", .num 10)]

/-- The object a page fills its copy with; `python-settings.tsx:37–41`. -/
def normalised (numeral : Json R → Option R) (data : Dict (Json R)) : Dict (Json R) :=
  data
    |>.set "sens_val" (numberOr numeral 3 (data "sens_val"))
    |>.set "suav_val" (numberOr numeral 10 (data "suav_val"))

/-- Hands that the page offers; `python-settings.tsx:156`. -/
inductive HandChoice where
  | derecha
  | izquierda
  deriving DecidableEq, Repr

/-- Text of a hand. -/
def HandChoice.text : HandChoice → String
  | derecha => "DERECHA"
  | izquierda => "IZQUIERDA"

/-- Modes that the page offers; `python-settings.tsx:178–182`. -/
inductive ModeChoice where
  | normal
  | fruitninja
  | osugame
  deriving DecidableEq, Repr

/-- Identifier of a mode. -/
def ModeChoice.id : ModeChoice → String
  | normal => "normal"
  | fruitninja => "fruitninja"
  | osugame => "osugame"

/-- Edit of one field; `python-settings.tsx:107–188`. -/
inductive Edit (R : Type) where
  | cameraSource (text : String)
  | sensVal (val : R)
  | suavVal (val : R)
  | targetHand (hand : HandChoice)
  | gameMode (mode : ModeChoice)

/-- Key that an edit changes. -/
def Edit.key : Edit R → String
  | cameraSource _ => "camera_source"
  | sensVal _ => "sens_val"
  | suavVal _ => "suav_val"
  | targetHand _ => "target_hand"
  | gameMode _ => "game_mode"

/-- Value that an edit sets. -/
def Edit.value : Edit R → Json R
  | cameraSource text => .str text
  | sensVal val => .num val
  | suavVal val => .num val
  | targetHand hand => .str hand.text
  | gameMode mode => .str mode.id

/-- A page's `config`. The other two fields are history, which no step reads: what the copy
was last filled with, and the edits since. -/
structure Copy (R : Type) where
  config : Dict (Json R)
  fetched : Dict (Json R)
  edits : Dict (Json R)

namespace Copy

/-- Copy of a page that has fetched nothing yet. -/
def initial : Copy R := ⟨initialConfig, initialConfig, Dict.empty⟩

/-- `setConfig({ ...config, key: value })`. -/
def edit (e : Edit R) (c : Copy R) : Copy R :=
  { c with config := c.config.set e.key e.value, edits := c.edits.set e.key e.value }

/-- The answer to a `GET` arrives; `python-settings.tsx:35–42`. Reading a field of `null`
raises, and so the copy stays. -/
def receive (numeral : Json R → Option R) (data : Option (Document R)) (c : Copy R) : Copy R :=
  match data with
  | none => c
  | some (.other .null) => c
  | some data => ⟨normalised numeral (spread data), spread data, Dict.empty⟩

end Copy

/-- State of one mounted `PythonSettings`; `python-settings.tsx:20–29`. -/
structure Page (R : Type) where
  copy : Copy R
  loading : Bool
  saving : Bool

/-! ### Pages, route and Python process together -/

/-- Request under way to the server. -/
inductive Request (R : Type) where
  | get (page : ℕ)
  | post (page : ℕ) (copy : Copy R)

/-- Answer under way to a page. -/
inductive Reply (R : Type) where
  | config (page : ℕ) (data : Option (Document R))
  | posted (page : ℕ) (reply : PostReply)

/-- The variables of the Python process, its file, the pages opened so far and the messages
under way. -/
structure World (R : Type) where
  shared : Shared R
  pages : ℕ → Option (Page R)
  requests : List (Request R)
  replies : List (Reply R)

/-- No page has been opened. -/
def World.init (sh : Shared R) : World R := ⟨sh, fun _ ↦ none, [], []⟩

/-- What can happen next. A page is opened, refreshed, edited or applied; the server takes up
a request; a page takes up an answer; a request or an answer gets lost; or the Python process
acts on its variables and the file. -/
inductive Event (R : Type) where
  | openPage (page : ℕ)
  | fetchConfig (page : ℕ)
  | edit (page : ℕ) (e : Edit R)
  | saveConfig (page : ℕ)
  | serve (i : ℕ) (env : PostEnv R)
  | deliver (i : ℕ)
  | loseRequest (i : ℕ)
  | loseReply (i : ℕ)
  | python (act : Shared R → Shared R)

namespace World

/-- Change one page, if it is open. -/
def update (p : ℕ) (f : Page R → Page R) (w : World R) : World R :=
  { w with pages := Function.update w.pages p ((w.pages p).map f) }

/-- Send a request. -/
def send (r : Request R) (w : World R) : World R := { w with requests := w.requests ++ [r] }

/-- A page is mounted and fetches; `python-settings.tsx:20–52`. -/
def openPage (p : ℕ) (w : World R) : World R :=
  match w.pages p with
  | some _ => w
  | none => { w with pages := Function.update w.pages p (some ⟨.initial, true, false⟩) }
      |>.send (.get p)

/-- The button that fetches, disabled while loading; `python-settings.tsx:31–34,90–91`. -/
def fetchConfig (p : ℕ) (w : World R) : World R :=
  match w.pages p with
  | some page =>
    if page.loading then w
    else w.update p (fun page ↦ { page with loading := true }) |>.send (.get p)
  | none => w

/-- The button that applies, disabled while saving; `python-settings.tsx:54–62,210–211`. -/
def saveConfig (p : ℕ) (w : World R) : World R :=
  match w.pages p with
  | some page =>
    if page.saving then w
    else w.update p (fun page ↦ { page with saving := true }) |>.send (.post p page.copy)
  | none => w

/-- The server takes up a request. -/
def serve (i : ℕ) (env : PostEnv R) (w : World R) : World R :=
  match w.requests[i]? with
  | some (.get p) =>
    { w with
      requests := w.requests.eraseIdx i
      replies := w.replies ++ [.config p (getConfig w.shared.file)] }
  | some (.post p copy) =>
    let (reply, file) := postConfig env (some (.object copy.config)) w.shared.file
    { w with
      shared := { w.shared with file := file }
      requests := w.requests.eraseIdx i
      replies := w.replies ++ [.posted p reply] }
  | none => w

/-- A page takes up an answer; `python-settings.tsx:35–48,63–75`. -/
def deliver (numeral : Json R → Option R) (i : ℕ) (w : World R) : World R :=
  match w.replies[i]? with
  | some (.config p data) =>
    { w with replies := w.replies.eraseIdx i }
      |>.update p fun page ↦
        { page with copy := page.copy.receive numeral data, loading := false }
  | some (.posted p _) =>
    { w with replies := w.replies.eraseIdx i }.update p fun page ↦ { page with saving := false }
  | none => w

/-- The connection of a request breaks before the server sees it; `catch` and `finally` of
`python-settings.tsx:43–47,69–74`. -/
def loseRequest (i : ℕ) (w : World R) : World R :=
  match w.requests[i]? with
  | some (.get p) =>
    { w with requests := w.requests.eraseIdx i }
      |>.update p fun page ↦ { page with loading := false }
  | some (.post p _) =>
    { w with requests := w.requests.eraseIdx i }.update p fun page ↦ { page with saving := false }
  | none => w

/-- The connection of a request breaks after the server has acted. -/
def loseReply (i : ℕ) (w : World R) : World R :=
  match w.replies[i]? with
  | some (.config p _) =>
    { w with replies := w.replies.eraseIdx i }.update p fun page ↦ { page with loading := false }
  | some (.posted p _) =>
    { w with replies := w.replies.eraseIdx i }.update p fun page ↦ { page with saving := false }
  | none => w

/-- One event. -/
def handle (numeral : Json R → Option R) (w : World R) : Event R → World R
  | .openPage p => w.openPage p
  | .fetchConfig p => w.fetchConfig p
  | .edit p e => w.update p fun page ↦ { page with copy := page.copy.edit e }
  | .saveConfig p => w.saveConfig p
  | .serve i env => w.serve i env
  | .deliver i => w.deliver numeral i
  | .loseRequest i => w.loseRequest i
  | .loseReply i => w.loseReply i
  | .python act => { w with shared := act w.shared }

end World

/-- An event between the worlds before and after it. -/
structure Turn (R : Type) where
  event : Event R
  before : World R
  after : World R

/-- Pages, route and Python process as a machine. -/
def settingsMachine (numeral : Json R → Option R) : Machine (World R) (Event R) (Turn R) where
  step w e := ⟨e, w, w.handle numeral e⟩
  next t := some t.after

/-! ### What holds of every copy -/

/-- Every copy, on a page or under way, is of one kind, and every answer to a `GET` under way is of
another. -/
structure World.Each (P : Copy R → Prop) (Q : Option (Document R) → Prop) (w : World R) :
    Prop where
  pages : ∀ p page, w.pages p = some page → P page.copy
  posts : ∀ p copy, .post p copy ∈ w.requests → P copy
  answers : ∀ p data, .config p data ∈ w.replies → Q data

namespace World.Each

variable {P : Copy R → Prop} {Q : Option (Document R) → Prop} {w : World R}

omit [Scalar R] in
private theorem set (h : w.Each P Q) (p : ℕ) {v : Option (Page R)}
    (hv : ∀ page, v = some page → P page.copy) :
    { w with pages := Function.update w.pages p v }.Each P Q := by
  refine ⟨fun q page hq ↦ ?_, h.posts, h.answers⟩
  change Function.update w.pages p v q = some page at hq
  by_cases hqp : q = p
  · subst hqp
    rw [Function.update_self] at hq
    exact hv page hq
  · rw [Function.update_of_ne hqp] at hq
    exact h.pages q page hq

omit [Scalar R] in
private theorem update (h : w.Each P Q) (p : ℕ) {f : Page R → Page R}
    (hf : ∀ page : Page R, P page.copy → P (f page).copy) : (w.update p f).Each P Q := by
  apply h.set
  intro page hpage
  have ⟨old, hold, hnew⟩ := Option.map_eq_some_iff.mp hpage
  rw [← hnew]
  exact hf old (h.pages p old hold)

omit [Scalar R] in
private theorem send (h : w.Each P Q) {r : Request R}
    (hr : ∀ p copy, r = .post p copy → P copy) : (w.send r).Each P Q := by
  refine ⟨h.pages, fun p copy hmem ↦ ?_, h.answers⟩
  rcases List.mem_append.mp hmem with hold | hnew
  · exact h.posts p copy hold
  · exact hr p copy (List.mem_singleton.mp hnew).symm

omit [Scalar R] in
private theorem takeRequest (h : w.Each P Q) (i : ℕ) :
    { w with requests := w.requests.eraseIdx i }.Each P Q :=
  ⟨h.pages, fun p copy hmem ↦ h.posts p copy (List.mem_of_mem_eraseIdx hmem), h.answers⟩

omit [Scalar R] in
private theorem takeReply (h : w.Each P Q) (i : ℕ) :
    { w with replies := w.replies.eraseIdx i }.Each P Q :=
  ⟨h.pages, h.posts, fun p data hmem ↦ h.answers p data (List.mem_of_mem_eraseIdx hmem)⟩

omit [Scalar R] in
private theorem answer (h : w.Each P Q) {r : Reply R} (hr : ∀ p data, r = .config p data → Q data)
    (i : ℕ) (sh : Shared R) :
    { w with
      shared := sh, requests := w.requests.eraseIdx i, replies := w.replies ++ [r] }.Each P Q := by
  refine ⟨h.pages, (h.takeRequest i).posts, fun p data hmem ↦ ?_⟩
  rcases List.mem_append.mp hmem with hold | hnew
  · exact h.answers p data hold
  · exact hr p data (List.mem_singleton.mp hnew).symm

private theorem openPage (h : w.Each P Q) (hinitial : P .initial) (p : ℕ) :
    (w.openPage p).Each P Q := by
  unfold World.openPage
  split
  · exact h
  · apply World.Each.send
    · apply h.set
      intro page hpage
      rw [← Option.some.inj hpage]
      exact hinitial
    · exact nofun

omit [Scalar R] in
private theorem fetchConfig (h : w.Each P Q) (p : ℕ) : (w.fetchConfig p).Each P Q := by
  unfold World.fetchConfig
  split
  · split
    · exact h
    · apply World.Each.send
      · exact h.update p fun _ ↦ id
      · exact nofun
  · exact h

omit [Scalar R] in
private theorem saveConfig (h : w.Each P Q) (p : ℕ) : (w.saveConfig p).Each P Q := by
  unfold World.saveConfig
  split
  · next page hpage =>
    split
    · exact h
    · apply World.Each.send
      · exact h.update p fun _ ↦ id
      · intro _ copy hr
        rw [← (Request.post.inj hr).2]
        exact h.pages p page hpage
  · exact h

private theorem serve (h : w.Each P Q) (hget : Q (getConfig w.shared.file)) (i : ℕ)
    (env : PostEnv R) : (w.serve i env).Each P Q := by
  unfold World.serve
  split
  · apply h.answer
    intro p data hdata
    rw [← (Reply.config.inj hdata).2]
    exact hget
  · next p copy _ =>
    have hposted (reply : PostReply) (q : ℕ) (data : Option (Document R))
        (hr : .posted p reply = Reply.config q data) : Q data := by
      cases hr
    exact h.answer (hposted _) i _
  · exact h

private theorem deliver {numeral : Json R → Option R} (h : w.Each P Q)
    (hreceive : ∀ data, Q data → ∀ c, P c → P (c.receive numeral data)) (i : ℕ) :
    (w.deliver numeral i).Each P Q := by
  unfold World.deliver
  split
  · next p data hreply =>
    have hdata := h.answers p data (List.mem_of_getElem? hreply)
    exact (h.takeReply i).update _ fun _ hcopy ↦ hreceive data hdata _ hcopy
  · exact (h.takeReply i).update _ fun _ ↦ id
  · exact h

omit [Scalar R] in
private theorem lose (h : w.Each P Q) (i : ℕ) :
    (w.loseRequest i).Each P Q ∧ (w.loseReply i).Each P Q := by
  constructor
  · unfold World.loseRequest
    split
    · exact (h.takeRequest i).update _ fun _ ↦ id
    · exact (h.takeRequest i).update _ fun _ ↦ id
    · exact h
  · unfold World.loseReply
    split
    · exact (h.takeReply i).update _ fun _ ↦ id
    · exact (h.takeReply i).update _ fun _ ↦ id
    · exact h

/-- Every event keeps what the initial copy has and edits and answers keep, when the file is
answered with the right kind. -/
theorem handle {numeral : Json R → Option R} {e : Event R} (h : w.Each P Q)
    (hinitial : P .initial) (hedit : ∀ p change, e = .edit p change → ∀ c, P c → P (c.edit change))
    (hreceive : ∀ data, Q data → ∀ c, P c → P (c.receive numeral data))
    (hget : Q (getConfig w.shared.file)) : (w.handle numeral e).Each P Q := by
  cases e with
  | openPage p => exact h.openPage hinitial p
  | fetchConfig p => exact h.fetchConfig p
  | edit p change => exact h.update p fun _ hcopy ↦ hedit p change rfl _ hcopy
  | saveConfig p => exact h.saveConfig p
  | serve i env => exact h.serve hget i env
  | deliver i => exact h.deliver hreceive i
  | loseRequest i => exact (h.lose i).1
  | loseReply i => exact (h.lose i).2
  | python act => exact ⟨h.pages, h.posts, h.answers⟩

end World.Each

end VisionGame.Web
