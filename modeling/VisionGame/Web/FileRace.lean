import VisionGame.Web.PythonConfig

/-!
# The settings file between two programs

Library `Web`. `app/api/python-config/route.ts:28–56`, `src/mediapipe/app_gestures.py:427–442`.
The Python process truncates the file when it opens it and writes the text later, at the start
of whatever is there by then; `POST` reads and writes in two steps as well. Several saves and
several requests can be under way, since both programs serve them concurrently. The directory
is there, as the Python process runs from it. What a request found is told by the turn in which it
read, and what has become of the settings since by the last configuration that was complete.
-/

namespace VisionGame.Web
open VisionGame.Base VisionGame.Vision

variable {R : Type}

/-! ### The steps -/

/-- A `POST` between its read and its write. -/
structure Posting (R : Type) where
  body : Dict (Json R)
  currentConfig : Dict (Json R)

/-- The file, and what is under way on it. The last two fields are history: the last configuration
that stood in the file as a whole, and how often the file has been opened for writing. -/
structure FileRace (R : Type) where
  file : Option (ConfigFile R)
  /-- Length of the text in the file. -/
  length : ℕ
  posts : ℕ → Option (Posting R)
  /-- Saves that have truncated the file and not written yet. -/
  saves : ℕ → Bool
  lastComplete : Option (Document R)
  openings : ℕ

/-- What can happen next. A write tells what comes of it and the length of the text it leaves. -/
inductive FileEvent (R : Type) where
  | openSave (save : ℕ) (mtime : R)
  | writeSave (save : ℕ) (config : Dict (Json R)) (length : ℕ) (mtime : R)
  | readPost (post : ℕ) (body : Dict (Json R))
  | writePost (post : ℕ) (written : WriteOutcome R) (length : ℕ)

/-- The file holds text that is not JSON. -/
def isDamaged (file : Option (ConfigFile R)) : Bool := file.any fun f ↦ f.content.isNone

/-- `POST` up to its read; `route.ts:30–37`. -/
def Posting.read (body : Dict (Json R)) (file : Option (ConfigFile R)) : Posting R where
  body := body
  currentConfig := Web.currentConfig file

/-- `POST` from its read on; `route.ts:39–55`. `writeFileSync` empties the file when it opens it,
and raises when it cannot or when it breaks off. -/
def Posting.write (written : WriteOutcome R) (q : Posting R) (file : Option (ConfigFile R)) :
    PostReply × Option (ConfigFile R) :=
  let newConfig := q.currentConfig.merge q.body
  match written with
  | .done mtime => (.success, some ⟨mtime, some (.object newConfig)⟩)
  | written => (.failed, written.leave (.object newConfig) file)

/-- The two steps together are a `POST` that nothing interrupts. -/
theorem postConfig_eq_write_read (body : Dict (Json R)) (written : Option R)
    (file : Option (ConfigFile R)) :
    postConfig ⟨true, written⟩ (some (.object body)) file =
      (Posting.read body file).write (written.elim .refused .done) file := by
  cases written <;> rfl

namespace FileRace

/-- No request and no save is under way. -/
def start (file : Option (ConfigFile R)) (length : ℕ) : FileRace R where
  file := file
  length := length
  posts := fun _ ↦ none
  saves := fun _ ↦ false
  lastComplete := file.bind ConfigFile.content
  openings := 0

/-- `open(config_path, 'w')`; `app_gestures.py:439`. -/
def openSave (save : ℕ) (mtime : R) (s : FileRace R) : FileRace R :=
  { s with
    file := some ⟨mtime, none⟩
    length := 0
    saves := Function.update s.saves save true
    openings := s.openings + 1 }

/-- `json.dump`; `app_gestures.py:440`. The end of a longer text stays behind the new one, and
the whole is not JSON. -/
def writeSave (save : ℕ) (config : Dict (Json R)) (length : ℕ) (mtime : R) (s : FileRace R) :
    FileRace R :=
  if !s.saves save then s
  else
    let s := { s with saves := Function.update s.saves save false }
    if s.length ≤ length then
      { s with
        file := some ⟨mtime, some (.object config)⟩
        length := length
        lastComplete := some (.object config) }
    else { s with file := some ⟨mtime, none⟩ }

/-- A `POST` reads. -/
def readPost (post : ℕ) (body : Dict (Json R)) (s : FileRace R) : FileRace R :=
  { s with posts := Function.update s.posts post (some (.read body s.file)) }

/-- A `POST` writes and answers. -/
def writePost (post : ℕ) (written : WriteOutcome R) (length : ℕ) (s : FileRace R) :
    Option PostReply × FileRace R :=
  match s.posts post with
  | none => (none, s)
  | some q =>
    let (reply, file) := q.write written s.file
    let s := { s with file := file, posts := Function.update s.posts post none }
    match written with
    | .refused => (some reply, s)
    | .brokenOff _ => (some reply, { s with length := length, openings := s.openings + 1 })
    | .done _ =>
      (some reply,
        { s with
          length := length
          openings := s.openings + 1
          lastComplete := file.bind ConfigFile.content })

/-- One event, with the answer that it sends. -/
def handle (s : FileRace R) : FileEvent R → Option PostReply × FileRace R
  | .openSave save mtime => (none, s.openSave save mtime)
  | .writeSave save config length mtime => (none, s.writeSave save config length mtime)
  | .readPost post body => (none, s.readPost post body)
  | .writePost post written length => s.writePost post written length

end FileRace

/-- An event between the states before and after it. -/
structure FileTurn (R : Type) where
  event : FileEvent R
  before : FileRace R
  after : FileRace R
  reply : Option PostReply

/-- The two programs as a machine. -/
def fileMachine : Machine (FileRace R) (FileEvent R) (FileTurn R) where
  step s e := ⟨e, s, (s.handle e).2, (s.handle e).1⟩
  next t := some t.after

/-! ### What a `POST` keeps -/

/-- Settings of the last configuration that stood in the file as a whole. -/
def FileRace.settings (s : FileRace R) : Dict (Json R) :=
  (s.lastComplete.map spread).getD Dict.empty

/-- A step of this request. -/
def FileTurn.Concerns (post : ℕ) (t : FileTurn R) : Prop :=
  match t.event with
  | .readPost p _ | .writePost p _ _ => p = post
  | .openSave _ _ | .writeSave _ _ _ _ => False

/-- This request has read in this turn, and has done nothing since. -/
def ReadIn (post : ℕ) (body : Dict (Json R)) (r : FileTurn R) (past : List (FileTurn R)) : Prop :=
  Since (fun _ u ↦ u = r ∧ u.event = .readPost post body) (fun u ↦ ¬u.Concerns post) past

/-- A request that is answered with success keeps every setting of the last complete configuration
that is not in its body, and one that could not parse the file leaves it untouched and reports an
error. -/
def FileTurn.KeepsSettings (past : List (FileTurn R)) (t : FileTurn R) : Prop :=
  ∀ post written length, t.event = .writePost post written length →
    ∀ body r, ReadIn post body r past →
      (t.reply = some .success → ∀ k, body k = none → ∀ v, t.before.settings k = some v →
        currentConfig t.after.file k = some v) ∧
      (isDamaged r.before.file = true →
        t.reply = some .failed ∧ t.after.openings = t.before.openings ∧
          t.after.file = t.before.file)

/-- A request that opens the file for writing has read a file that could be parsed, and when it
writes the whole text every key outside its body has the value in the last complete configuration
that it had there when the request read. -/
def FileTurn.Undisturbed (past : List (FileTurn R)) (t : FileTurn R) : Prop :=
  ∀ post written length, t.event = .writePost post written length →
    ∀ body r, ReadIn post body r past →
      (written ≠ .refused → isDamaged r.before.file = false) ∧
      ∀ mtime, written = .done mtime → ∀ k, body k = none → ∀ v, t.before.settings k = some v →
        r.before.settings k = some v

/-! ### What is known of the file and of the requests -/

/-- A file that can be parsed holds the last complete configuration. -/
def FileRace.Current (s : FileRace R) : Prop :=
  isDamaged s.file = false → s.lastComplete = s.file.bind ConfigFile.content

private theorem FileRace.Current.currentConfig_eq {s : FileRace R} (h : s.Current)
    (hparsed : isDamaged s.file = false) : currentConfig s.file = s.settings := by
  simp only [FileRace.settings, h hparsed]
  cases hf : s.file with
  | none => rfl
  | some f =>
    cases hc : f.content with
    | some document =>
      simp only [currentConfig, hc, Option.bind_some, Option.map_some, Option.getD_some]
    | none => simp [isDamaged, hf, hc] at hparsed

/-- Every step leaves a file that holds the last complete configuration, or none that can be
parsed. -/
theorem FileRace.Current.handle {s : FileRace R} (h : s.Current) (e : FileEvent R) :
    (s.handle e).2.Current := by
  cases e with
  | openSave save mtime => exact nofun
  | readPost post body => exact h
  | writeSave save config length mtime =>
    simp only [FileRace.handle, FileRace.writeSave]
    split
    · exact h
    · split
      · exact fun _ ↦ rfl
      · exact nofun
  | writePost post written length =>
    simp only [FileRace.handle, FileRace.writePost]
    split
    · exact h
    · cases written with
      | refused => exact h
      | brokenOff mtime => exact nofun
      | done mtime => exact fun _ ↦ rfl

/-- What is known after some turns: every file that could be parsed held the last complete
configuration, and a request under way has in hand what it read in the turn of its read. -/
structure FileLog (past : List (FileTurn R)) (s : FileRace R) : Prop where
  current : s.Current
  earlier : ∀ r ∈ past, r.before.Current
  posts : ∀ post q, s.posts post = some q ↔
    ∃ body r, ReadIn post body r past ∧ q = .read body r.before.file

private theorem ReadIn.mem {post : ℕ} {body : Dict (Json R)} {r : FileTurn R}
    {past : List (FileTurn R)} (h : ReadIn post body r past) : r ∈ past := by
  obtain ⟨before, u, between, rfl, ⟨rfl, _⟩, _⟩ := h
  exact List.mem_append_right _ List.mem_cons_self

private theorem readIn_concat_of_not_concerns {post : ℕ} {t : FileTurn R} (h : ¬t.Concerns post)
    (body : Dict (Json R)) (r : FileTurn R) (past : List (FileTurn R)) :
    ReadIn post body r (past ++ [t]) ↔ ReadIn post body r past := by
  unfold ReadIn
  rw [since_concat]
  constructor
  · rintro (⟨_, hread⟩ | ⟨hpast, _⟩)
    · unfold FileTurn.Concerns at h
      rw [hread] at h
      exact absurd rfl h
    · exact hpast
  · exact fun hpast ↦ .inr ⟨hpast, h⟩

private theorem readIn_concat_of_concerns {post : ℕ} {t : FileTurn R} (h : t.Concerns post)
    (body : Dict (Json R)) (r : FileTurn R) (past : List (FileTurn R)) :
    ReadIn post body r (past ++ [t]) ↔ t = r ∧ t.event = .readPost post body := by
  unfold ReadIn
  rw [since_concat]
  constructor
  · rintro (hread | ⟨_, hnot⟩)
    · exact hread
    · exact absurd h hnot
  · exact .inl

private theorem handle_posts_of_not_concerns {s : FileRace R} {e : FileEvent R} {post : ℕ}
    (h : ¬(fileMachine.step s e).Concerns post) : (s.handle e).2.posts post = s.posts post := by
  cases e with
  | openSave save mtime => rfl
  | writeSave save config length mtime =>
    simp only [FileRace.handle, FileRace.writeSave]
    split
    · rfl
    · split <;> rfl
  | readPost p body => exact Function.update_of_ne (Ne.symm h) _ _
  | writePost p written length =>
    simp only [FileRace.handle, FileRace.writePost]
    split
    · rfl
    · cases written with
      | _ => exact Function.update_of_ne (Ne.symm h) _ _

private theorem handle_posts_of_concerns {s : FileRace R} {e : FileEvent R} {post : ℕ}
    (h : (fileMachine.step s e).Concerns post) (q : Posting R) :
    (s.handle e).2.posts post = some q ↔
      ∃ body, e = .readPost post body ∧ q = .read body s.file := by
  cases e with
  | openSave save mtime => exact h.elim
  | writeSave save config length mtime => exact h.elim
  | readPost p body =>
    obtain rfl : p = post := h
    change Function.update s.posts p (some (.read body s.file)) p = some q ↔ _
    rw [Function.update_self]
    constructor
    · exact fun hq ↦ ⟨body, rfl, (Option.some.inj hq).symm⟩
    · rintro ⟨body', hbody, rfl⟩
      rw [(FileEvent.readPost.inj hbody).2]
  | writePost p written length =>
    obtain rfl : p = post := h
    have hnone : (s.handle (.writePost p written length)).2.posts p = none := by
      simp only [FileRace.handle, FileRace.writePost]
      split
      · assumption
      · cases written with
        | _ => exact Function.update_self _ _ _
    rw [hnone]
    constructor
    · exact nofun
    · rintro ⟨_, hread, _⟩
      cases hread

/-- Every step keeps the log. -/
theorem FileLog.step {past : List (FileTurn R)} {s : FileRace R} (h : FileLog past s)
    (e : FileEvent R) : FileLog (past ++ [fileMachine.step s e]) (s.handle e).2 := by
  constructor
  · exact h.current.handle e
  · intro r hr
    rcases List.mem_append.mp hr with hold | hnew
    · exact h.earlier r hold
    · rw [List.mem_singleton.mp hnew]
      exact h.current
  · intro post q
    by_cases hconcerns : (fileMachine.step s e).Concerns post
    · simp only [handle_posts_of_concerns hconcerns, readIn_concat_of_concerns hconcerns]
      constructor
      · rintro ⟨body, rfl, rfl⟩
        exact ⟨body, _, ⟨rfl, rfl⟩, rfl⟩
      · rintro ⟨body, r, ⟨rfl, hread⟩, rfl⟩
        exact ⟨body, hread, rfl⟩
    · rw [handle_posts_of_not_concerns hconcerns, h.posts]
      simp only [readIn_concat_of_not_concerns hconcerns]

private theorem writePost_of_posts {s : FileRace R} {post : ℕ} {q : Posting R}
    (h : s.posts post = some q) (written : WriteOutcome R) (length : ℕ) :
    (s.writePost post written length).1 = some (q.write written s.file).1 ∧
      (s.writePost post written length).2.file = (q.write written s.file).2 ∧
      ((s.writePost post written length).2.openings = s.openings ↔ written = .refused) := by
  cases written with
  | _ => simp [FileRace.writePost, h]

/-- A step keeps the settings exactly when it is undisturbed. -/
theorem FileLog.keepsSettings_iff {past : List (FileTurn R)} {s : FileRace R}
    (h : FileLog past s) (e : FileEvent R) :
    (fileMachine.step s e).KeepsSettings past ↔ (fileMachine.step s e).Undisturbed past := by
  unfold FileTurn.KeepsSettings FileTurn.Undisturbed
  refine forall₃_congr fun post written length ↦ forall_congr' fun he ↦
    forall₂_congr fun body r ↦ forall_congr' fun hread ↦ ?_
  obtain rfl : e = .writePost post written length := he
  have hpost := (h.posts post _).mpr ⟨body, r, hread, rfl⟩
  have ⟨hreply, hfile, hopenings⟩ := writePost_of_posts hpost written length
  change ((s.writePost post written length).1 = _ → ∀ k, _ → ∀ v, s.settings k = some v →
      currentConfig (s.writePost post written length).2.file k = some v) ∧
    (_ → (s.writePost post written length).1 = _ ∧
      (s.writePost post written length).2.openings = s.openings ∧
      (s.writePost post written length).2.file = s.file) ↔
    (_ → _) ∧ ∀ mtime, _ → ∀ k, _ → ∀ v, s.settings k = some v → _
  rw [hreply, hfile, hopenings]
  cases written with
  | refused => simp [Posting.write, WriteOutcome.leave]
  | brokenOff mtime => simp [Posting.write]
  | done mtime =>
    -- the settings that the request found are those of the last complete configuration then
    have hfound (hparsed : isDamaged r.before.file = false) (k : String) (hk : body k = none) :
        (currentConfig r.before.file).merge body k = r.before.settings k := by
      rw [Dict.merge_of_none _ hk, (h.earlier r hread.mem).currentConfig_eq hparsed]
    constructor
    · rintro ⟨hkept, hdamaged⟩
      have hparsed : isDamaged r.before.file = false := by
        by_contra hnot
        have hfailed := (hdamaged (Bool.not_eq_false _ ▸ hnot)).1
        cases hfailed
      refine ⟨fun _ ↦ hparsed, fun _ _ k hk v hv ↦ ?_⟩
      rw [← hfound hparsed k hk]
      exact hkept rfl k hk v hv
    · rintro ⟨hopens, hsame⟩
      have hparsed := hopens nofun
      constructor
      · intro _ k hk v hv
        change (currentConfig r.before.file).merge body k = some v
        rw [hfound hparsed k hk]
        exact hsame mtime rfl k hk v hv
      · intro hdamaged
        rw [hparsed] at hdamaged
        cases hdamaged

/-- In every interleaving, every request keeps the settings outside its body and refuses a file
that it cannot parse exactly when every request is undisturbed. -/
theorem post_keeps_settings_iff (file : Option (ConfigFile R)) (length : ℕ)
    (events : List (FileEvent R)) :
    (∀ past t rest, fileMachine.trace (.start file length) events = past ++ t :: rest →
        t.KeepsSettings past) ↔
      ∀ past t rest, fileMachine.trace (.start file length) events = past ++ t :: rest →
        t.Undisturbed past := by
  apply fileMachine.split_forall_iff (I := FileLog) (P := fun past t ↦ t.KeepsSettings past)
    (C := fun past t ↦ t.Undisturbed past) events
  · exact fun past s e _ hs ↦ hs.keepsSettings_iff e
  · intro past s e _ t hs _ hnext
    rw [← Option.some.inj hnext]
    exact hs.step e
  · constructor
    · exact fun _ ↦ rfl
    · exact List.forall_mem_nil _
    · intro post q
      constructor
      · exact nofun
      · rintro ⟨body, r, hread, _⟩
        exact absurd hread (not_since_nil _ _)

/-- A save has truncated the file when a request reads it. -/
def readTruncated : List (FileEvent ℚ) :=
  [.openSave 0 1, .readPost 0 (Dict.ofList [("sens_val", .num 4)]), .writePost 0 (.done 2) 20]

/-- A file with two settings. -/
def wholeFile : Option (ConfigFile ℚ) :=
  some ⟨0, some (.object (Dict.ofList [("sens_val", .num 3), ("game_mode", .str "normal")]))⟩

/-- The request wipes the game mode. -/
theorem post_keeps_settings_fails :
    ¬ ∀ past t rest, fileMachine.trace (.start wholeFile 48) readTruncated = past ++ t :: rest →
      t.KeepsSettings past := by
  intro h
  let body : Dict (Json ℚ) := Dict.ofList [("sens_val", .num 4)]
  let s₀ : FileRace ℚ := .start wholeFile 48
  let opened := fileMachine.step s₀ (.openSave 0 1)
  let read := fileMachine.step opened.after (.readPost 0 body)
  let wrote := fileMachine.step read.after (.writePost 0 (.done 2) 20)
  have htrace : fileMachine.trace s₀ readTruncated = [opened, read] ++ wrote :: [] := rfl
  have hread : ReadIn 0 body read [opened, read] :=
    ⟨[opened], read, [], rfl, ⟨rfl, rfl⟩, List.forall_mem_nil _⟩
  have hmode : wrote.before.settings "game_mode" = some (.str "normal") := rfl
  have hwiped : currentConfig wrote.after.file "game_mode" = none := rfl
  have hkept := (h _ _ _ htrace 0 (.done 2) 20 rfl body read hread).1 rfl "game_mode" rfl _ hmode
  rw [hwiped] at hkept
  cases hkept

end VisionGame.Web
