import VisionGame.Web.PythonConfig

/-!
# The shared secret

Library `Web`. `app/api/gesture/route.ts:33–92`, `app/api/python-config/route.ts:7–56`,
`src/mediapipe/app_gestures.py:145–172`. The gesture route compares what a request presents with
the expected secret; the settings route compares nothing and answers with the whole file, where
the Python process keeps the same secret. Two servers that differ in the secret only are told
apart by the first answer that contains it. The message of a failure depends on the request and
its outcomes, not on the secret, and is left out.
-/

namespace VisionGame.Web
open VisionGame.Base VisionGame.Vision

variable {R : Type} [Scalar R]

/-! ### The gesture route -/

/-- `!value`. -/
def falsy : Option (Json R) → Bool
  | none => true
  | some .null => true
  | some (.bool b) => !b
  | some (.num x) => x = 0
  | some (.str s) => s = ""
  | some (.arr _) => false
  | some (.obj _) => false

/-- Fields of a body that is taken apart; absent when that raises. -/
def destructured : Document R → Option (Dict (Json R))
  | .object fields => some fields
  | .other .null => none
  | .other _ => some Dict.empty

/-- Arguments of `gestureLogs.addLog`; `gesture/route.ts:57`. -/
structure GestureLog (R : Type) where
  gesture : Option (Json R)
  action : Option (Json R)
  device : Option (Json R)

/-- What Convex does for a request: whether a client can be made, whether it takes a log, and
what it answers about the settings, absent when it fails. -/
structure GestureEnv (R : Type) where
  client : Bool
  logged : Bool
  settings : Option (Document R)

/-- Answers of the gesture route. -/
inductive GestureReply (R : Type) where
  | unauthorized
  | missing
  | success
  | settings (data : Document R)
  | failed

/-- The value is this secret. -/
def isSecret (expectedSecret : String) (secret : Option (Json R)) : Bool :=
  secret.any fun v ↦ v.isStr expectedSecret

/-- `POST`, and the log that Convex takes; `gesture/route.ts:34–67`. A body that is not JSON is
absent. There always is a client when making it does not raise. -/
def postGesture (expectedSecret : String) (env : GestureEnv R) (body : Option (Document R)) :
    GestureReply R × Option (GestureLog R) :=
  match body.bind destructured with
  | none => (.failed, none)
  | some fields =>
    if !isSecret expectedSecret (fields "secret") then (.unauthorized, none)
    else if falsy (fields "gesture") || falsy (fields "action") then (.missing, none)
    else if !env.client then (.failed, none)
    else
      (.success,
        if env.logged then some ⟨fields "gesture", fields "action", fields "device"⟩ else none)

/-- `req.nextUrl.searchParams.get("secret") || authHeader`; `gesture/route.ts:76`. -/
def getSecret (param authHeader : Option String) : Option String :=
  match param with
  | some secret => if secret = "" then authHeader else some secret
  | none => authHeader

/-- `GET`; `gesture/route.ts:70–92`. -/
def getGesture (expectedSecret : String) (env : GestureEnv R)
    (param authHeader : Option String) : GestureReply R :=
  if getSecret param authHeader ≠ some expectedSecret then .unauthorized
  else if !env.client then .failed
  else
    match env.settings with
    | some data => .settings data
    | none => .failed

/-! ### The API -/

/-- Request to one of the two routes, with what the system does for it. -/
inductive ApiRequest (R : Type) where
  | postGesture (env : GestureEnv R) (body : Option (Document R))
  | getGesture (env : GestureEnv R) (param authHeader : Option String)
  | getConfig
  | postConfig (env : PostEnv R) (body : Option (Document R))

/-- Answer to a request. -/
inductive ApiResponse (R : Type) where
  | gesture (reply : GestureReply R)
  | config (data : Option (Document R))
  | posted (reply : PostReply)

/-- The server, its file and the logs that Convex has taken. -/
structure ApiServer (R : Type) where
  expectedSecret : String
  file : Option (ConfigFile R)
  logs : List (GestureLog R)

namespace ApiServer

/-- A request is served. -/
def serve (a : ApiServer R) : ApiRequest R → ApiResponse R × ApiServer R
  | .postGesture env body =>
    let (reply, log) := Web.postGesture a.expectedSecret env body
    (.gesture reply, { a with logs := a.logs ++ log.toList })
  | .getGesture env param authHeader =>
    (.gesture (Web.getGesture a.expectedSecret env param authHeader), a)
  | .getConfig => (.config (Web.getConfig a.file), a)
  | .postConfig env body =>
    let (reply, file) := Web.postConfig env body a.file
    (.posted reply, { a with file := file })

/-- A server and its file with the secret in both; the other settings of the file are given. -/
def withSecret (config : Dict (Json R)) (mtime : R) (logs : List (GestureLog R))
    (secret : String) : ApiServer R where
  expectedSecret := secret
  file := some ⟨mtime, some (.object (config.set "api_secret_key" (.str secret)))⟩
  logs := logs

end ApiServer

/-- A request between the servers before and after it. -/
structure ApiTurn (R : Type) where
  request : ApiRequest R
  before : ApiServer R
  after : ApiServer R
  response : ApiResponse R

/-- The API as a machine. -/
def apiMachine : Machine (ApiServer R) (ApiRequest R) (ApiTurn R) where
  step a r := ⟨r, a, (a.serve r).2, (a.serve r).1⟩
  next t := some t.after

namespace ApiRequest

/-- The request presents a secret to the gesture route. -/
def Presents (secret : String) : ApiRequest R → Prop
  | .postGesture _ body =>
    ∃ fields, body.bind destructured = some fields ∧ fields "secret" = some (.str secret)
  | .getGesture _ param authHeader => getSecret param authHeader = some secret
  | _ => False

/-- The request succeeds in writing another value in place of the secret of the file. -/
def ReplacesSecret : ApiRequest R → Prop
  | .postConfig env (some body) =>
    env.dirExists = true ∧ env.written ≠ none ∧ spread body "api_secret_key" ≠ none
  | _ => False

end ApiRequest

/-! ### Two servers -/

omit [Scalar R] in
private theorem isSecret_eq_false {secret : String} {v : Option (Json R)}
    (h : v ≠ some (.str secret)) :
    isSecret secret v = false := by
  cases v with
  | none => rfl
  | some v =>
    apply eq_false_of_ne_true
    intro hstr
    exact h (congrArg some (Json.isStr_iff.mp hstr))

/-- A request that does not present the expected secret is answered without regard to it. -/
theorem postGesture_eq {s₁ s₂ : String} {env : GestureEnv R} {body : Option (Document R)}
    (h₁ : ¬(ApiRequest.postGesture env body).Presents s₁)
    (h₂ : ¬(ApiRequest.postGesture env body).Presents s₂) :
    postGesture s₁ env body = postGesture s₂ env body := by
  simp only [postGesture]
  cases hbody : body.bind destructured with
  | none => rfl
  | some fields =>
    have hdenied {secret : String} (h : ¬(ApiRequest.postGesture env body).Presents secret) :
        isSecret secret (fields "secret") = false :=
      isSecret_eq_false fun hsecret ↦ h ⟨fields, hbody, hsecret⟩
    dsimp only
    rw [hdenied h₁, hdenied h₂]

omit [Scalar R] in
/-- The same for reading. -/
theorem getGesture_eq {s₁ s₂ : String} {env : GestureEnv R} {param authHeader : Option String}
    (h₁ : ¬(ApiRequest.getGesture env param authHeader).Presents s₁)
    (h₂ : ¬(ApiRequest.getGesture env param authHeader).Presents s₂) :
    getGesture s₁ env param authHeader = getGesture s₂ env param authHeader := by
  have hdenied {secret : String}
      (h : ¬(ApiRequest.getGesture env param authHeader).Presents secret) :
      getSecret param authHeader ≠ some secret := h
  simp only [getGesture]
  rw [if_pos (hdenied h₁), if_pos (hdenied h₂)]

/-- Two servers after some requests: their files are equal once the secret of the file has been
replaced, and until then they differ in the secret only. -/
structure Differ (s₁ s₂ : String) (past : List (ApiRequest R)) (a b : ApiServer R) : Prop where
  expected₁ : a.expectedSecret = s₁
  expected₂ : b.expectedSecret = s₂
  replaced : (∃ q ∈ past, q.ReplacesSecret) → a.file = b.file
  stored : (¬∃ q ∈ past, q.ReplacesSecret) → ∃ (mtime : R) (config : Dict (Json R)),
    a.file = some ⟨mtime, some (.object (config.set "api_secret_key" (.str s₁)))⟩ ∧
      b.file = some ⟨mtime, some (.object (config.set "api_secret_key" (.str s₂)))⟩

omit [Scalar R] in
private theorem replaces_concat (past : List (ApiRequest R)) (r : ApiRequest R) :
    (∃ q ∈ past ++ [r], q.ReplacesSecret) ↔
      (∃ q ∈ past, q.ReplacesSecret) ∨ r.ReplacesSecret := by
  simp [or_and_right, exists_or]

omit [Scalar R] in
private theorem set_merge (config e : Dict (Json R)) (k : String) (v : Json R) :
    (config.set k v).merge e =
      match e k with
      | some _ => config.merge e
      | none => (config.merge e).set k v := by
  funext l
  by_cases h : l = k
  · rw [h]
    cases he : e k with
    | some w => simp [he]
    | none => simp [he]
  · cases e k <;> simp [h]

omit [Scalar R] in
private theorem currentConfig_object (mtime : R) (fields : Dict (Json R)) :
    currentConfig (some ⟨mtime, some (.object fields)⟩) = fields := rfl

variable {s₁ s₂ : String}

/-- The settings route tells two servers apart unless the secret of the file was replaced. -/
theorem Differ.getConfig_iff (hne : s₁ ≠ s₂) {past : List (ApiRequest R)} {a b : ApiServer R}
    (h : Differ s₁ s₂ past a b) :
    getConfig a.file = getConfig b.file ↔ ∃ q ∈ past, q.ReplacesSecret := by
  constructor
  · intro heq
    by_contra hnone
    obtain ⟨mtime, config, ha, hb⟩ := h.stored hnone
    rw [ha, hb] at heq
    have hfields := Document.object.inj (Option.some.inj heq)
    have hkey := congrFun hfields "api_secret_key"
    rw [Dict.set_self, Dict.set_self] at hkey
    exact hne (Json.str.inj (Option.some.inj hkey))
  · intro hreplaced
    rw [h.replaced hreplaced]

omit [Scalar R] in
private theorem Differ.keep {past : List (ApiRequest R)} {a b a' b' : ApiServer R}
    (h : Differ s₁ s₂ past a b) {r : ApiRequest R} (hr : ¬r.ReplacesSecret)
    (ha : a'.expectedSecret = a.expectedSecret ∧ a'.file = a.file)
    (hb : b'.expectedSecret = b.expectedSecret ∧ b'.file = b.file) :
    Differ s₁ s₂ (past ++ [r]) a' b' := by
  have hsame : (∃ q ∈ past ++ [r], q.ReplacesSecret) ↔ ∃ q ∈ past, q.ReplacesSecret := by
    rw [replaces_concat]
    exact or_iff_left hr
  constructor
  · exact ha.1.trans h.expected₁
  · exact hb.1.trans h.expected₂
  · rw [hsame, ha.2, hb.2]
    exact h.replaced
  · rw [hsame, ha.2, hb.2]
    exact h.stored

private theorem Differ.write {past : List (ApiRequest R)} {a b : ApiServer R}
    (h : Differ s₁ s₂ past a b) {env : PostEnv R} {mtime : R} (hdir : env.dirExists = true)
    (hwritten : env.written = some mtime) (body : Document R) :
    Differ s₁ s₂ (past ++ [.postConfig env (some body)]) (a.serve (.postConfig env (some body))).2
      (b.serve (.postConfig env (some body))).2 := by
  have hfile (c : ApiServer R) : (c.serve (.postConfig env (some body))).2.file =
      some ⟨mtime, some (.object ((currentConfig c.file).merge (spread body)))⟩ := by
    simp only [ApiServer.serve, postConfig]
    rw [hdir, hwritten]
    rfl
  have hkeeps : (ApiRequest.postConfig env (some body)).ReplacesSecret ↔
      spread body "api_secret_key" ≠ none := by
    simp only [ApiRequest.ReplacesSecret]
    simp [hdir, hwritten]
  constructor
  · exact h.expected₁
  · exact h.expected₂
  · rw [replaces_concat, hkeeps, hfile, hfile]
    intro hreplaced
    by_cases hbefore : ∃ q ∈ past, q.ReplacesSecret
    · rw [h.replaced hbefore]
    · obtain ⟨_, config, ha, hb⟩ := h.stored hbefore
      have ⟨v, hv⟩ := Option.ne_none_iff_exists'.mp (hreplaced.resolve_left hbefore)
      rw [ha, hb, currentConfig_object, currentConfig_object, set_merge, set_merge, hv]
  · rw [replaces_concat, hkeeps, hfile, hfile, not_or, not_not]
    rintro ⟨hbefore, hnone⟩
    obtain ⟨_, config, ha, hb⟩ := h.stored hbefore
    refine ⟨mtime, config.merge (spread body), ?_, ?_⟩
    · rw [ha, currentConfig_object, set_merge, hnone]
    · rw [hb, currentConfig_object, set_merge, hnone]

private theorem Differ.serve {past : List (ApiRequest R)} {a b : ApiServer R}
    (h : Differ s₁ s₂ past a b) (r : ApiRequest R) :
    Differ s₁ s₂ (past ++ [r]) (a.serve r).2 (b.serve r).2 := by
  cases r with
  | postGesture env body => exact h.keep id ⟨rfl, rfl⟩ ⟨rfl, rfl⟩
  | getGesture env param authHeader => exact h.keep id ⟨rfl, rfl⟩ ⟨rfl, rfl⟩
  | getConfig => exact h.keep id ⟨rfl, rfl⟩ ⟨rfl, rfl⟩
  | postConfig env body =>
    cases body with
    | none => exact h.keep id ⟨rfl, rfl⟩ ⟨rfl, rfl⟩
    | some body =>
      cases hdir : env.dirExists with
      | false =>
        have hsame (c : ApiServer R) :
            (c.serve (.postConfig env (some body))).2.file = c.file := by
          simp only [ApiServer.serve, postConfig]
          rw [hdir]
          rfl
        have hkeeps : ¬(ApiRequest.postConfig env (some body)).ReplacesSecret := by
          simp [ApiRequest.ReplacesSecret, hdir]
        exact h.keep hkeeps ⟨rfl, hsame a⟩ ⟨rfl, hsame b⟩
      | true =>
        cases hwritten : env.written with
        | some mtime => exact h.write hdir hwritten body
        | none =>
          have hsame (c : ApiServer R) :
              (c.serve (.postConfig env (some body))).2.file = c.file := by
            simp only [ApiServer.serve, postConfig]
            rw [hdir, hwritten]
            rfl
          have hkeeps : ¬(ApiRequest.postConfig env (some body)).ReplacesSecret := by
            simp [ApiRequest.ReplacesSecret, hwritten]
          exact h.keep hkeeps ⟨rfl, hsame a⟩ ⟨rfl, hsame b⟩

/-- Two servers are told apart by an answer exactly when it shows a file whose secret was not
replaced. -/
theorem Differ.response_iff (hne : s₁ ≠ s₂) {past : List (ApiRequest R)} {a b : ApiServer R}
    (h : Differ s₁ s₂ past a b) {r : ApiRequest R} (h₁ : ¬r.Presents s₁) (h₂ : ¬r.Presents s₂) :
    (a.serve r).1 = (b.serve r).1 ↔ (r = .getConfig → ∃ q ∈ past, q.ReplacesSecret) := by
  cases r with
  | postGesture env body =>
    simp only [ApiServer.serve]
    rw [h.expected₁, h.expected₂, postGesture_eq h₁ h₂]
    simp
  | getGesture env param authHeader =>
    simp only [ApiServer.serve]
    rw [h.expected₁, h.expected₂, getGesture_eq h₁ h₂]
    simp
  | getConfig =>
    simp only [ApiServer.serve]
    rw [ApiResponse.config.injEq, h.getConfig_iff hne]
    simp
  | postConfig env body =>
    have hreply (c : ApiServer R) : (Web.postConfig env body c.file).1 =
        (Web.postConfig env body a.file).1 := by
      simp only [postConfig]
      cases body with
      | none => rfl
      | some body =>
        dsimp only
        split
        · rfl
        · split <;> rfl
    simp only [ApiServer.serve]
    rw [hreply b]
    simp

/-- Two servers that differ in the secret only answer all requests that present neither secret
alike, exactly when every reading of the settings comes after a write that replaced the secret of
the file. -/
theorem secret_hidden_iff (config : Dict (Json R)) (mtime : R) (logs : List (GestureLog R))
    {s₁ s₂ : String} (hne : s₁ ≠ s₂) (requests : List (ApiRequest R))
    (hpresent : ∀ r ∈ requests, ¬r.Presents s₁ ∧ ¬r.Presents s₂) :
    (apiMachine.trace (.withSecret config mtime logs s₁) requests).map ApiTurn.response =
        (apiMachine.trace (.withSecret config mtime logs s₂) requests).map ApiTurn.response ↔
      ∀ before r after, requests = before ++ r :: after → r = .getConfig →
        ∃ q ∈ before, q.ReplacesSecret := by
  have hstart : Differ s₁ s₂ ([] : List (ApiRequest R)) (.withSecret config mtime logs s₁)
      (.withSecret config mtime logs s₂) := by
    constructor
    · rfl
    · rfl
    · rintro ⟨q, hq, _⟩
      cases hq
    · intro _
      exact ⟨mtime, config, rfl, rfl⟩
  apply apiMachine.map_trace_eq_iff (I := Differ s₁ s₂)
    (C := fun past r ↦ r = .getConfig → ∃ q ∈ past, q.ReplacesSecret) requests _ _ hstart
  · intro past r hr a b h
    have ⟨h₁, h₂⟩ := hpresent r hr
    exact h.response_iff hne h₁ h₂
  · intro past r _ a b h
    exact ⟨_, _, rfl, rfl, h.serve r⟩

/-- A request replaces the secret of the file before the settings are read. -/
def replaceThenRead : List (ApiRequest ℚ) := [
  .postConfig ⟨true, some 1⟩ (some (.object (Dict.ofList [("api_secret_key", .null)]))),
  .getConfig]

/-- Two servers are not told apart by these requests. -/
theorem secret_hidden_iff_replaceThenRead :
    (apiMachine.trace (.withSecret Dict.empty 0 [] "ademangesturesecret123") replaceThenRead).map
        ApiTurn.response =
      (apiMachine.trace (.withSecret Dict.empty 0 [] "another") replaceThenRead).map
        ApiTurn.response := by
  apply (secret_hidden_iff Dict.empty 0 [] (by decide) replaceThenRead _).mpr
  · intro before r after hsplit hr
    cases before with
    | nil =>
      have hfirst := (List.cons.inj hsplit).1
      rw [hr] at hfirst
      cases hfirst
    | cons q before =>
      refine ⟨q, List.mem_cons_self, ?_⟩
      rw [← (List.cons.inj hsplit).1]
      exact ⟨rfl, by simp, by simp [spread, Dict.ofList]⟩
  · simp [replaceThenRead, ApiRequest.Presents]

/-- Reading the settings tells the shipped secret from another one. -/
theorem secret_hidden_fails :
    (∀ r ∈ [ApiRequest.getConfig (R := ℚ)],
        ¬r.Presents "ademangesturesecret123" ∧ ¬r.Presents "another") ∧
      (apiMachine.trace (.withSecret Dict.empty 0 [] "ademangesturesecret123")
          [ApiRequest.getConfig (R := ℚ)]).map ApiTurn.response ≠
        (apiMachine.trace (.withSecret Dict.empty 0 [] "another")
          [ApiRequest.getConfig (R := ℚ)]).map ApiTurn.response := by
  constructor
  · simp [ApiRequest.Presents]
  · intro h
    have hanswer := (List.cons.inj h).1
    have hfields := Document.object.inj (Option.some.inj (ApiResponse.config.inj hanswer))
    have hkey := congrFun hfields "api_secret_key"
    rw [Dict.set_self, Dict.set_self] at hkey
    exact absurd (Json.str.inj (Option.some.inj hkey)) (by decide)

end VisionGame.Web
