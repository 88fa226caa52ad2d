import VisionGame.Base.Courier
import VisionGame.Vision.LogQueue
import VisionGame.Vision.RateLimits
import VisionGame.Web.Secret

/-!
# From a gesture to the history

Library `Web`. `src/mediapipe/app_gestures.py:323–367`, `app/api/gesture/route.ts:34–67`,
`convex/gestureLogs.ts:5–31`. The vision loop queues the gestures it logs. A worker thread takes
them from the queue one by one, posts each of them with the secret of the settings, and waits for
an answer, for two seconds at most. A request that it has given up on can still be under way. The
server stores what it accepts in a table, and the page shows the last rows of it, newest first.
-/

namespace VisionGame.Web
open VisionGame.Base VisionGame.Vision

variable {R : Type} [Scalar R]

/-! ### Data -/

/-- Row of the table `gestureLogs`. The last field is history: the number of the queue entry
that the row was stored for, absent for the requests of others. -/
structure LogRow (R : Type) where
  log : GestureLog R
  timestamp : R
  source : Option ℕ

/-- `addLog`, when the route takes the log; `gestureLogs.ts:5–19`. -/
def addLog (log : Option (GestureLog R)) (now : R) (source : Option ℕ) (table : List (LogRow R)) :
    List (LogRow R) :=
  table ++ (log.map fun log ↦ ⟨log, now, source⟩).toList

/-- `getRecentLogs`; `gestureLogs.ts:22–31`. -/
def getRecentLogs (limit : Option ℕ) (table : List (LogRow R)) : List (LogRow R) :=
  table.reverse.take (limit.getD 20)

/-- `config.get("api_secret_key", ...)`; `app_gestures.py:347`. -/
def secretOf (config : Dict (Json R)) : Json R :=
  config.getD "api_secret_key" (.str "ademangesturesecret123")

/-- `payload`; `app_gestures.py:350–355`. -/
def logPayload (pcName : String) (config : Dict (Json R)) (entry : Gesture × Action) :
    Document R :=
  .object (Dict.ofList [
    ("gesture", .str entry.1.name),
    ("action", .str entry.2.name),
    ("device", .str pcName),
    ("secret", secretOf config)])

/-- What a row says of a queue entry. -/
def entryLog (pcName : String) (entry : Gesture × Action) : GestureLog R :=
  ⟨some (.str entry.1.name), some (.str entry.2.name), some (.str pcName)⟩

/-- The Python process with its vision loop and its worker, the requests of the worker and the
table. `logged` is history: the queue with the readings of its entries. -/
structure Pipeline (R : Type) where
  loop : LoopState R
  running : Bool
  logged : List ((Gesture × Action) × R)
  /-- Number of the request that the worker waits for. -/
  awaited : Option ℕ
  courier : Courier (Document R)
  table : List (LogRow R)

namespace Pipeline

/-- The process starts; the table holds the rows of others. -/
def start (sh : Shared R) (controller : PCController R) (earlier : List (GestureLog R × R)) :
    Pipeline R where
  loop := .fresh sh controller
  running := true
  logged := []
  awaited := none
  courier := .idle
  table := earlier.map fun row ↦ ⟨row.1, row.2, none⟩

/-- A turn of the vision loop; the process ends with it. -/
def iterate (tick : Tick R) (p : Pipeline R) : Pipeline R :=
  if p.running then
    let turn := visionMachine.step p.loop tick
    { p with
      loop := turn.after
      running := (visionMachine.next turn).isSome
      logged := p.logged ++ gained tick.input.clock.log p.loop.log turn.after.log }
  else p

/-- The worker takes the oldest entry and posts it. `sent` says whether the request gets under
way to this server; `app_gestures.py:343–363`. -/
def post (pcName : String) (sent : Bool) (p : Pipeline R) : Pipeline R :=
  match p.running, p.awaited, p.loop.log.queue[p.courier.taken]? with
  | true, none, some entry =>
    if sent then
      { p with
        courier := p.courier.send (some (logPayload pcName p.loop.shared.globals.config entry))
        awaited := some p.courier.taken }
    else { p with courier := p.courier.send none }
  | _, _, _ => p

/-- The worker gets an answer, or an error, or has waited for two seconds;
`app_gestures.py:362–367`. -/
def giveUp (p : Pipeline R) : Pipeline R := { p with awaited := none }

/-- The server handles a request of the worker. -/
def serve (expectedSecret : String) (k : ℕ) (env : GestureEnv R) (now : R) (p : Pipeline R) :
    Pipeline R :=
  match p.courier.flight[k]? with
  | some (n, body) =>
    { p with
      courier := p.courier.arrive k
      table := addLog (postGesture expectedSecret env (some body)).2 now (some n) p.table }
  | none => p

/-- A request of the worker is lost. -/
def lose (k : ℕ) (p : Pipeline R) : Pipeline R := { p with courier := p.courier.lose k }

/-- The server handles a request of somebody else. -/
def serveOther (expectedSecret : String) (env : GestureEnv R) (body : Option (Document R))
    (now : R) (p : Pipeline R) : Pipeline R :=
  { p with table := addLog (postGesture expectedSecret env body).2 now none p.table }

end Pipeline

/-- What can happen to the pipeline. -/
inductive PipelineEvent (R : Type) where
  | iterate (tick : Tick R)
  | post (sent : Bool)
  | giveUp
  | serve (k : ℕ) (env : GestureEnv R) (now : R)
  | lose (k : ℕ)
  | serveOther (env : GestureEnv R) (body : Option (Document R)) (now : R)

/-- The worker gets an answer or gives up. -/
def PipelineEvent.isGiveUp {R : Type} : PipelineEvent R → Bool
  | .giveUp => true
  | _ => false

/-- One event. -/
def Pipeline.handle (expectedSecret pcName : String) (p : Pipeline R) :
    PipelineEvent R → Pipeline R
  | .iterate tick => p.iterate tick
  | .post sent => p.post pcName sent
  | .giveUp => p.giveUp
  | .serve k env now => p.serve expectedSecret k env now
  | .lose k => p.lose k
  | .serveOther env body now => p.serveOther expectedSecret env body now

/-- An event between the pipelines before and after it. -/
structure PipelineTurn (R : Type) where
  event : PipelineEvent R
  before : Pipeline R
  after : Pipeline R

/-- The pipeline as a machine. -/
def pipelineMachine (expectedSecret pcName : String) :
    Machine (Pipeline R) (PipelineEvent R) (PipelineTurn R) where
  step p e := ⟨e, p, p.handle expectedSecret pcName e⟩
  next t := some t.after

/-! ### Rows and their sources -/

/-- Numbers of the entries that the rows were stored for. -/
def sources (table : List (LogRow R)) : List ℕ := table.filterMap LogRow.source

omit [Scalar R] in
/-- A log that is taken adds its number at the end. -/
theorem sources_addLog (log : Option (GestureLog R)) (now : R) (source : Option ℕ)
    (table : List (LogRow R)) :
    (sources (addLog log now source table)).Sublist (sources table ++ source.toList) := by
  simp only [sources, addLog]
  rw [List.filterMap_append]
  apply List.Sublist.append_left
  cases log with
  | none => exact List.nil_sublist _
  | some log =>
    change ([(⟨log, now, source⟩ : LogRow R)].filterMap LogRow.source).Sublist source.toList
    cases source <;> exact List.Sublist.refl _

omit [Scalar R] in
private theorem logPayload_fields (pcName : String) (config : Dict (Json R))
    (entry : Gesture × Action) :
    ∃ fields, logPayload pcName config entry = .object fields ∧
      fields "gesture" = some (.str entry.1.name) ∧ fields "action" = some (.str entry.2.name) ∧
      fields "device" = some (.str pcName) ∧ fields "secret" = some (secretOf config) := by
  refine ⟨_, rfl, ?_, ?_, ?_, ?_⟩ <;> simp [Dict.ofList]

private theorem postGesture_logPayload {expectedSecret pcName : String} {env : GestureEnv R}
    {config : Dict (Json R)} {entry : Gesture × Action} {log : GestureLog R}
    (h : (postGesture expectedSecret env (some (logPayload pcName config entry))).2 = some log) :
    log = entryLog pcName entry ∧ secretOf config = .str expectedSecret := by
  obtain ⟨fields, hfields, hgesture, haction, hdevice, hsecret⟩ :=
    logPayload_fields pcName config entry
  rw [hfields] at h
  simp only [postGesture, Option.bind_some, destructured] at h
  rw [hgesture, haction, hdevice, hsecret] at h
  split at h
  · cases h
  · next hopen =>
    simp only [isSecret, Option.any_some, Bool.not_eq_true', Bool.not_eq_false] at hopen
    split at h
    · cases h
    · split at h
      · cases h
      · dsimp only at h
        split at h
        · exact ⟨(Option.some.inj h).symm, Json.isStr_iff.mp hopen⟩
        · cases h

/-! ### What holds of every run -/

/-- The turn posts the entry with this number, with these settings. -/
structure PipelineTurn.Posts (t : PipelineTurn R) (n : ℕ) (config : Dict (Json R)) : Prop where
  event : t.event = .post true
  number : t.before.courier.taken = n
  settings : t.before.loop.shared.globals.config = config

/-- A message was packed from the queue entry with its number, and posted in the run so far. -/
def Packed (pcName : String) (past : List (PipelineTurn R)) (queue : List (Gesture × Action))
    (m : ℕ × Document R) : Prop :=
  ∃ entry config, queue[m.1]? = some entry ∧ m.2 = logPayload pcName config entry ∧
    ∃ t ∈ past, t.Posts m.1 config

/-- A row with a source says what the queue entry says, which was posted with the expected
secret in the run so far. -/
def Sourced (expectedSecret pcName : String) (past : List (PipelineTurn R))
    (queue : List (Gesture × Action)) (row : LogRow R) : Prop :=
  ∀ n, row.source = some n → ∃ entry config, queue[n]? = some entry ∧
    row.log = entryLog pcName entry ∧ secretOf config = .str expectedSecret ∧
    ∃ t ∈ past, t.Posts n config

/-- What holds after some turns of a run. -/
structure PipelineLog (expectedSecret pcName : String) (past : List (PipelineTurn R))
    (p : Pipeline R) : Prop where
  once : p.courier.Once
  stored : (sources p.table).Sublist (p.courier.delivered.map Prod.fst)
  packed : ∀ m ∈ p.courier.messages, Packed pcName past p.loop.log.queue m
  sourced : ∀ row ∈ p.table, Sourced expectedSecret pcName past p.loop.log.queue row
  stamped : Stamped p.logged p.loop.log

omit [Scalar R] in
private theorem queue_get {logged more : List ((Gesture × Action) × R)}
    {queue queue' : List (Gesture × Action)} (h : logged.map Prod.fst = queue)
    (h' : (logged ++ more).map Prod.fst = queue') {n : ℕ} {entry : Gesture × Action}
    (hn : queue[n]? = some entry) : queue'[n]? = some entry := by
  rw [← h', List.map_append, h]
  rw [List.getElem?_append_left (List.getElem?_eq_some_iff.mp hn).1]
  exact hn

section
variable {expectedSecret pcName : String} {past : List (PipelineTurn R)} {p : Pipeline R}

omit [Scalar R] in
private theorem Packed.mono {queue queue' : List (Gesture × Action)} {m : ℕ × Document R}
    (h : Packed pcName past queue m)
    (hqueue : ∀ (n : ℕ) entry, queue[n]? = some entry → queue'[n]? = some entry)
    (t : PipelineTurn R) : Packed pcName (past ++ [t]) queue' m := by
  obtain ⟨entry, config, hentry, hpacked, u, hu, hposts⟩ := h
  exact ⟨entry, config, hqueue _ _ hentry, hpacked, u, List.mem_append_left _ hu, hposts⟩

omit [Scalar R] in
private theorem Sourced.mono {queue queue' : List (Gesture × Action)} {row : LogRow R}
    (h : Sourced expectedSecret pcName past queue row)
    (hqueue : ∀ (n : ℕ) entry, queue[n]? = some entry → queue'[n]? = some entry)
    (t : PipelineTurn R) : Sourced expectedSecret pcName (past ++ [t]) queue' row := by
  intro n hn
  obtain ⟨entry, config, hentry, hlog, hsecret, u, hu, hposts⟩ := h n hn
  exact ⟨entry, config, hqueue _ _ hentry, hlog, hsecret, u, List.mem_append_left _ hu, hposts⟩

/-- The process starts with an empty log. -/
theorem PipelineLog.start (sh : Shared R) (controller : PCController R)
    (earlier : List (GestureLog R × R)) :
    PipelineLog expectedSecret pcName [] (.start sh controller earlier) := by
  have hnone : sources (Pipeline.start sh controller earlier).table = [] := by
    simp [sources, Pipeline.start]
  constructor
  · exact .idle
  · rw [hnone]
    exact List.nil_sublist _
  · intro m hm
    cases hm
  · intro row hrow n hn
    have hmem : n ∈ sources (Pipeline.start sh controller earlier).table :=
      List.mem_filterMap.mpr ⟨row, hrow, hn⟩
    rw [hnone] at hmem
    cases hmem
  · exact .empty _

variable (h : PipelineLog expectedSecret pcName past p)
include h

/-- An event that leaves the queue and the table alone, and whose messages are packed, is
logged. -/
theorem PipelineLog.quiet (t : PipelineTurn R) {q : Pipeline R} (hloop : q.loop = p.loop)
    (hlogged : q.logged = p.logged) (htable : q.table = p.table) (honce : q.courier.Once)
    (hdelivered : q.courier.delivered = p.courier.delivered)
    (hpacked : ∀ m ∈ q.courier.messages, m ∈ p.courier.messages ∨
      Packed pcName (past ++ [t]) p.loop.log.queue m) :
    PipelineLog expectedSecret pcName (past ++ [t]) q := by
  constructor
  · exact honce
  · rw [htable, hdelivered]
    exact h.stored
  · intro m hm
    rw [hloop]
    rcases hpacked m hm with hold | hnew
    · exact (h.packed m hold).mono (fun _ _ hn ↦ hn) t
    · exact hnew
  · intro row hrow
    rw [hloop]
    rw [htable] at hrow
    exact (h.sourced row hrow).mono (fun _ _ hn ↦ hn) t
  · rw [hloop, hlogged]
    exact h.stamped

private theorem PipelineLog.iterate (tick : Tick R) (t : PipelineTurn R) :
    PipelineLog expectedSecret pcName (past ++ [t]) (p.iterate tick) := by
  simp only [Pipeline.iterate]
  split
  · have hstamped := h.stamped.logs rfl (visionMachine_logs p.loop tick)
    constructor
    · exact h.once
    · exact h.stored
    · exact fun m hm ↦
        (h.packed m hm).mono (fun _ _ ↦ queue_get h.stamped.keys hstamped.keys) t
    · exact fun row hrow ↦
        (h.sourced row hrow).mono (fun _ _ ↦ queue_get h.stamped.keys hstamped.keys) t
    · exact hstamped
  · exact h.quiet t rfl rfl rfl h.once rfl fun m hm ↦ .inl hm

private theorem PipelineLog.post (sent : Bool) :
    PipelineLog expectedSecret pcName (past ++ [⟨.post sent, p, p.post pcName sent⟩])
      (p.post pcName sent) := by
  have hsend (message : Option (Document R)) (m : ℕ × Document R)
      (hm : m ∈ (p.courier.send message).messages) :
      m ∈ p.courier.messages ∨ m ∈ message.toList.map (p.courier.taken, ·) := by
    rw [Courier.messages_send] at hm
    exact List.mem_append.mp hm
  generalize ht : (⟨.post sent, p, p.post pcName sent⟩ : PipelineTurn R) = t
  simp only [Pipeline.post]
  split
  · next entry _ _ hentry =>
    split
    · next hsent =>
      refine h.quiet t rfl rfl rfl (h.once.send _) rfl fun m hm ↦ ?_
      rcases hsend _ m hm with hold | hnew
      · exact .inl hold
      · rw [Option.toList_some, List.map_singleton, List.mem_singleton] at hnew
        rw [hnew]
        refine .inr ⟨entry, _, hentry, rfl, t, by simp, ?_⟩
        rw [← ht, hsent]
        exact ⟨rfl, rfl, rfl⟩
    · refine h.quiet t rfl rfl rfl (h.once.send _) rfl fun m hm ↦ ?_
      rcases hsend _ m hm with hold | hnew
      · exact .inl hold
      · cases hnew
  · exact h.quiet t rfl rfl rfl h.once rfl fun m hm ↦ .inl hm

private theorem PipelineLog.serve (k : ℕ) (env : GestureEnv R) (now : R) (t : PipelineTurn R) :
    PipelineLog expectedSecret pcName (past ++ [t]) (p.serve expectedSecret k env now) := by
  simp only [Pipeline.serve]
  split
  · next n body hflight =>
    have hmem : (n, body) ∈ p.courier.messages :=
      List.mem_append_right _ (List.mem_of_getElem? hflight)
    obtain ⟨entry, config, hentry, hbody, u, hu, hposts⟩ := h.packed _ hmem
    constructor
    · exact h.once.arrive k
    · apply (sources_addLog _ now (some n) p.table).trans
      simp only [Courier.arrive]
      rw [hflight, List.map_append]
      exact h.stored.append_right _
    · intro m hm
      exact (h.packed m ((Courier.messages_arrive k p.courier).mem_iff.mp hm)).mono
        (fun _ _ hn ↦ hn) t
    · intro row hrow
      rcases List.mem_append.mp hrow with hold | hnew
      · exact (h.sourced row hold).mono (fun _ _ hn ↦ hn) t
      · obtain ⟨log, hlog, rfl⟩ := Option.map_eq_some_iff.mp (Option.mem_toList.mp hnew)
        change body = _ at hbody
        rw [hbody] at hlog
        obtain ⟨hpacked, hsecret⟩ := postGesture_logPayload hlog
        intro m hm
        rw [← Option.some.inj hm]
        exact ⟨entry, config, hentry, hpacked, hsecret, u, List.mem_append_left _ hu, hposts⟩
    · exact h.stamped
  · exact h.quiet t rfl rfl rfl h.once rfl fun m hm ↦ .inl hm

private theorem PipelineLog.serveOther (env : GestureEnv R) (body : Option (Document R)) (now : R)
    (t : PipelineTurn R) :
    PipelineLog expectedSecret pcName (past ++ [t])
      (p.serveOther expectedSecret env body now) := by
  constructor
  · exact h.once
  · apply (sources_addLog _ now none p.table).trans
    rw [Option.toList_none, List.append_nil]
    exact h.stored
  · exact fun m hm ↦ (h.packed m hm).mono (fun _ _ hn ↦ hn) t
  · intro row hrow
    rcases List.mem_append.mp hrow with hold | hnew
    · exact (h.sourced row hold).mono (fun _ _ hn ↦ hn) t
    · obtain ⟨log, _, rfl⟩ := Option.map_eq_some_iff.mp (Option.mem_toList.mp hnew)
      intro m hm
      cases hm
  · exact h.stamped

/-- Every event is logged. -/
theorem PipelineLog.handle (e : PipelineEvent R) :
    PipelineLog expectedSecret pcName
      (past ++ [(pipelineMachine expectedSecret pcName).step p e])
      (p.handle expectedSecret pcName e) := by
  cases e with
  | iterate tick => exact h.iterate tick _
  | post sent => exact h.post sent
  | giveUp => exact h.quiet _ rfl rfl rfl h.once rfl fun m hm ↦ .inl hm
  | serve k env now => exact h.serve k env now _
  | lose k =>
    exact h.quiet _ rfl rfl rfl (h.once.lose k) rfl fun m hm ↦
      .inl ((Courier.messages_lose k p.courier).subset hm)
  | serveOther env body now => exact h.serveOther env body now _

end

/-! ### What is stored -/

/-- After a turn every queue entry is in at most one row, a row with a source says what its entry
says and was posted with the expected secret, and rows that say the same were logged more than
0.6 s apart. -/
structure PipelineTurn.StoresSoundly (expectedSecret pcName : String)
    (past : List (PipelineTurn R)) (t : PipelineTurn R) : Prop where
  stamped : Stamped t.after.logged t.after.loop.log
  once : (sources t.after.table).Nodup
  sourced : ∀ row ∈ t.after.table,
    Sourced expectedSecret pcName (past ++ [t]) t.after.loop.log.queue row
  spaced : ∀ row ∈ t.after.table, ∀ later ∈ t.after.table, ∀ m n, row.source = some m →
    later.source = some n → m < n → row.log = later.log →
    ∃ p q, t.after.logged[m]? = some p ∧ t.after.logged[n]? = some q ∧ p.2 + 0.6 < q.2

omit [Scalar R] in
private theorem entryLog_inj {pcName : String} {entry entry' : Gesture × Action}
    (h : (entryLog pcName entry : GestureLog R) = entryLog pcName entry') : entry = entry' := by
  simp only [entryLog, GestureLog.mk.injEq, Option.some.injEq, Json.str.injEq] at h
  exact Prod.ext (Gesture.name_injective h.1) (Action.name_injective h.2.1)

private theorem spaced_of_queue {logged : List ((Gesture × Action) × R)} {log : Vision.GestureLog R}
    (h : Stamped logged log) {m n : ℕ} (hlt : m < n) {entry : Gesture × Action}
    (hm : log.queue[m]? = some entry) (hn : log.queue[n]? = some entry) :
    ∃ p q, logged[m]? = some p ∧ logged[n]? = some q ∧ p.2 + 0.6 < q.2 := by
  rw [← h.keys, List.getElem?_map] at hm hn
  obtain ⟨p, hp, hpkey⟩ := Option.map_eq_some_iff.mp hm
  obtain ⟨q, hq, hqkey⟩ := Option.map_eq_some_iff.mp hn
  obtain ⟨hpm, hpget⟩ := List.getElem?_eq_some_iff.mp hp
  obtain ⟨hqn, hqget⟩ := List.getElem?_eq_some_iff.mp hq
  have hspaced := List.pairwise_iff_getElem.mp h.spaced m n hpm hqn hlt
  rw [hpget, hqget] at hspaced
  exact ⟨p, q, hp, hq, hspaced (hpkey.trans hqkey.symm)⟩

/-- What was logged is stored soundly. -/
theorem PipelineLog.storesSoundly {expectedSecret pcName : String}
    {past : List (PipelineTurn R)} {t : PipelineTurn R}
    (h : PipelineLog expectedSecret pcName (past ++ [t]) t.after) :
    t.StoresSoundly expectedSecret pcName past := by
  constructor
  · exact h.stamped
  · exact h.stored.nodup h.once.nodup_delivered
  · exact h.sourced
  · intro row hrow later hlater m n hm hn hlt hsame
    obtain ⟨entry, _, hentry, hlog, _⟩ := h.sourced row hrow m hm
    obtain ⟨entry', _, hentry', hlog', _⟩ := h.sourced later hlater n hn
    rw [hlog, hlog'] at hsame
    rw [← entryLog_inj hsame] at hentry'
    exact spaced_of_queue h.stamped hlt hentry hentry'

/-- Whatever is delayed, lost or given up, every gesture that is logged is stored at most once, as
it was logged, only with the expected secret, and no faster than it was logged. -/
theorem logs_stored_soundly (expectedSecret pcName : String) (sh : Shared R)
    (controller : PCController R) (earlier : List (GestureLog R × R))
    (events : List (PipelineEvent R)) :
    ∀ past t rest, (pipelineMachine expectedSecret pcName).trace
        (.start sh controller earlier) events = past ++ t :: rest →
      t.StoresSoundly expectedSecret pcName past := by
  apply (pipelineMachine expectedSecret pcName).split_forall
    (I := PipelineLog expectedSecret pcName)
    (P := fun past t ↦ t.StoresSoundly expectedSecret pcName past)
  · intro past p e _ h
    exact (h.handle e).storesSoundly
  · intro past p e _ q h hnext
    rw [← Option.some.inj hnext]
    exact h.handle e
  · exact .start sh controller earlier

/-! ### In which order -/

/-- The worker gives up only on a request that is no longer under way. -/
def PipelineTurn.Patient (t : PipelineTurn R) : Prop :=
  t.event.isGiveUp = true →
    ∀ n ∈ t.before.awaited, n ∉ t.before.courier.flight.map Prod.fst

instance (t : PipelineTurn R) : Decidable t.Patient := inferInstanceAs (Decidable (_ → _))

/-- The worker waits for the request that is under way, if there is one. -/
structure Pipeline.Orderly (p : Pipeline R) : Prop where
  inOrder : p.courier.InOrder
  waits : ∀ m ∈ p.courier.flight, p.awaited = some m.1
  stored : (sources p.table).Sublist (p.courier.delivered.map Prod.fst)

section
variable {expectedSecret pcName : String} {p : Pipeline R} (h : p.Orderly)
include h

omit [Scalar R] in
private theorem Pipeline.Orderly.flight_eq_nil (hawaited : p.awaited = none) :
    p.courier.flight = [] := by
  apply List.eq_nil_iff_forall_not_mem.mpr
  intro m hm
  have hwaits := h.waits m hm
  rw [hawaited] at hwaits
  cases hwaits

omit [Scalar R] in
private theorem Pipeline.Orderly.post (sent : Bool) : (p.post pcName sent).Orderly := by
  simp only [Pipeline.post]
  split
  · next hawaited _ =>
    have hempty := h.flight_eq_nil hawaited
    split
    · refine ⟨h.inOrder.send hempty _, ?_, h.stored⟩
      intro m hm
      simp only [Courier.send] at hm
      rw [hempty] at hm
      rw [List.mem_singleton.mp hm]
    · refine ⟨h.inOrder.send hempty _, ?_, h.stored⟩
      intro m hm
      simp only [Courier.send] at hm
      rw [hempty] at hm
      cases hm
  · exact h

private theorem Pipeline.Orderly.serve (k : ℕ) (env : GestureEnv R) (now : R) :
    (p.serve expectedSecret k env now).Orderly := by
  simp only [Pipeline.serve]
  split
  · next n body hflight =>
    refine ⟨h.inOrder.arrive k, fun m hm ↦ h.waits m (List.mem_of_mem_eraseIdx hm), ?_⟩
    apply (sources_addLog _ now (some n) p.table).trans
    simp only [Courier.arrive]
    rw [hflight, List.map_append]
    exact h.stored.append_right _
  · exact h

/-- A patient turn keeps the order. -/
theorem Pipeline.Orderly.handle {e : PipelineEvent R}
    (hpatient : ((pipelineMachine expectedSecret pcName).step p e).Patient) :
    (p.handle expectedSecret pcName e).Orderly := by
  cases e with
  | iterate tick =>
    change (p.iterate tick).Orderly
    simp only [Pipeline.iterate]
    split
    · exact ⟨h.inOrder, h.waits, h.stored⟩
    · exact h
  | post sent => exact h.post sent
  | giveUp =>
    refine ⟨h.inOrder, fun m hm ↦ ?_, h.stored⟩
    exact absurd (List.mem_map_of_mem hm) (hpatient rfl m.1 (h.waits m hm))
  | serve k env now => exact h.serve k env now
  | lose k =>
    exact ⟨h.inOrder.lose k, fun m hm ↦ h.waits m (List.mem_of_mem_eraseIdx hm), h.stored⟩
  | serveOther env body now =>
    refine ⟨h.inOrder, h.waits, ?_⟩
    apply (sources_addLog _ now none p.table).trans
    rw [Option.toList_none, List.append_nil]
    exact h.stored

omit [Scalar R] in
/-- Rows are in the order of the queue. -/
theorem Pipeline.Orderly.sorted : (sources p.table).Pairwise (· < ·) :=
  h.inOrder.sorted_delivered.sublist h.stored

omit [Scalar R] in
private theorem Pipeline.Orderly.sorted_recent (limit : Option ℕ) :
    (sources (getRecentLogs limit p.table)).Pairwise (· > ·) := by
  have hsublist : (sources (getRecentLogs limit p.table)).Sublist (sources p.table).reverse := by
    simp only [sources, getRecentLogs]
    rw [← List.filterMap_reverse]
    exact (List.take_sublist _ _).filterMap _
  exact (List.pairwise_reverse.mpr h.sorted).sublist hsublist

end

/-- The process starts with nothing under way. -/
theorem Pipeline.Orderly.start (sh : Shared R) (controller : PCController R)
    (earlier : List (GestureLog R × R)) : (Pipeline.start sh controller earlier).Orderly where
  inOrder := .idle
  waits m hm := by cases hm
  stored := by simp [sources, Pipeline.start]

/-- The rows are in the order of the queue, and the page shows the newest ones first. -/
structure PipelineTurn.ShownInOrder (t : PipelineTurn R) : Prop where
  stored : (sources t.after.table).Pairwise (· < ·)
  recent : ∀ limit, (sources (getRecentLogs limit t.after.table)).Pairwise (· > ·)

/-- While the worker is patient, gestures are stored in the order in which they were logged, and
the page shows them in the opposite order. -/
theorem logs_in_order (expectedSecret pcName : String) (sh : Shared R)
    (controller : PCController R) (earlier : List (GestureLog R × R))
    (events : List (PipelineEvent R))
    (hpatient : ∀ t ∈ (pipelineMachine expectedSecret pcName).trace
      (.start sh controller earlier) events, t.Patient) :
    ∀ t ∈ (pipelineMachine expectedSecret pcName).trace (.start sh controller earlier) events,
      t.ShownInOrder := by
  apply (pipelineMachine expectedSecret pcName).trace_forall_of (I := Pipeline.Orderly)
    (C := PipelineTurn.Patient) (P := PipelineTurn.ShownInOrder) events _ _
    (.start sh controller earlier) hpatient
  · intro p e _ h hstep
    have hafter := h.handle hstep
    exact ⟨hafter.sorted, hafter.sorted_recent⟩
  · intro p e _ q h hstep hnext
    rw [← Option.some.inj hnext]
    exact h.handle hstep

/-- A click and a drag are logged and posted. The second request is handled first when the
worker gives up on the first one too early. -/
def clickThenDrag (early : Bool) : List (PipelineEvent ℚ) :=
  let click := Tick.seeing 10 [⟨GestureAnalyzer.clickPose, "Right"⟩]
  let drag := Tick.seeing 11 [⟨GestureAnalyzer.dragPose, "Right"⟩]
  let env : GestureEnv ℚ := ⟨true, true, none⟩
  [.iterate click, .iterate drag, .post true] ++
    if early then [.giveUp, .post true, .serve 1 env 12, .serve 0 env 13]
    else [.serve 0 env 12, .giveUp, .post true, .serve 0 env 13]

/-- Both are stored, the second one first. -/
theorem logs_stored_soundly_clickThenDrag :
    ∃ past t, (pipelineMachine "ademangesturesecret123" "pc").trace
        (.start .online (.blank 640 480) []) (clickThenDrag true) = past ++ [t] ∧
      sources t.after.table = [1, 0] ∧
      t.StoresSoundly "ademangesturesecret123" "pc" past := by
  have hsplit : ∃ past t, (pipelineMachine "ademangesturesecret123" "pc").trace
      (.start .online (.blank 640 480) []) (clickThenDrag true) = past ++ [t] ∧
      sources t.after.table = [1, 0] := by
    refine ⟨[_, _, _, _, _, _], _, rfl, ?_⟩
    decide +kernel
  obtain ⟨past, t, htrace, hstored⟩ := hsplit
  exact ⟨past, t, htrace, hstored, logs_stored_soundly _ _ _ _ _ _ past t [] htrace⟩

/-- With patience they are stored in order. -/
theorem logs_in_order_clickThenDrag :
    ∃ t, ((pipelineMachine "ademangesturesecret123" "pc").trace
        (.start .online (.blank 640 480) []) (clickThenDrag false))[6]? = some t ∧
      sources t.after.table = [0, 1] ∧ t.ShownInOrder := by
  have hlast : ∃ t, ((pipelineMachine "ademangesturesecret123" "pc").trace
      (.start .online (.blank 640 480) []) (clickThenDrag false))[6]? = some t ∧
      sources t.after.table = [0, 1] := ⟨_, rfl, by decide +kernel⟩
  obtain ⟨t, hget, hstored⟩ := hlast
  exact ⟨t, hget, hstored,
    logs_in_order _ _ _ _ _ _ (by decide +kernel) t (List.mem_of_getElem? hget)⟩

end VisionGame.Web
