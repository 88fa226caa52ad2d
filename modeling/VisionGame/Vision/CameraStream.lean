import VisionGame.Base.Machine
import VisionGame.Vision.CameraSource

/-!
# The camera thread

Library `Vision`. `src/mediapipe/app_gestures.py:174–292`. A stream owns at most one capture of
the camera. Its thread polls the capture and, after more than thirty failures in a row, drops it
and tries the candidates of its source in turn. `release` runs in another thread: it asks the
thread to stop, and later closes the capture that the stream holds at that moment. The steps of
both are interleaved in any order; what the devices do is their input.
-/

namespace VisionGame.Vision
open VisionGame.Base
open Text

/-! ### Candidates -/

/-- Backend of a local camera. -/
inductive CaptureApi where
  | dshow
  | any
  deriving DecidableEq, Repr

/-- What `connect` tries to open. -/
inductive Candidate where
  | address (url : String)
  | device (index : ℤ) (api : CaptureApi)
  deriving DecidableEq, Repr

/-- `part in text`. -/
def contains (text part : List Char) : Bool := text.tails.any part.isPrefixOf

/-- `text.split(part)[0]`. -/
def splitHead (part : List Char) : List Char → List Char
  | [] => []
  | c :: cs => if part.isPrefixOf (c :: cs) then [] else c :: splitHead part cs

/-- `urls_to_try`; `app_gestures.py:195–202`. -/
def urlsToTry (src : String) : List String :=
  if contains src.toList ":81/stream".toList then
    let baseIp := String.ofList (splitHead ":81".toList src.toList)
    [src, baseIp ++ "/stream", baseIp ++ ":8080/video", baseIp ++ "/mjpeg"]
  else [src]

/-- `indices`; `app_gestures.py:214–217`. -/
def indicesToTry (src : ℤ) : List ℤ :=
  [0, 1, 2].foldl (fun indices idx ↦ if idx ∈ indices then indices else indices ++ [idx])
    (if src = 0 then [src] else [src, 0, 1])

/-- What is tried for a source, in this order; `app_gestures.py:193–230`. -/
def candidates : CameraSource → List Candidate
  | .url address => (urlsToTry address).map .address
  | .index n => (indicesToTry n).flatMap fun idx ↦ [.device idx .dshow, .device idx .any]

/-- A local source tries its own camera and the first three. -/
theorem mem_indicesToTry (src idx : ℤ) :
    idx ∈ indicesToTry src ↔ idx = src ∨ idx = 0 ∨ idx = 1 ∨ idx = 2 := by
  simp only [indicesToTry, List.foldl_cons, List.foldl_nil]
  by_cases hzero : src = 0
  · subst hzero
    simp
  · by_cases htwo : 2 = src
    · subst htwo
      simp
      omega
    · simp [hzero, htwo]

/-- A source is never without a candidate. -/
theorem candidates_ne_nil (source : CameraSource) : candidates source ≠ [] := by
  cases source with
  | url address =>
    simp only [candidates, urlsToTry]
    split <;> simp
  | index n =>
    have hfirst : Candidate.device n .dshow ∈ candidates (.index n) :=
      List.mem_flatMap.mpr ⟨n, (mem_indicesToTry n n).mpr (.inl rfl), by simp⟩
    exact List.ne_nil_of_mem hfirst

private theorem splitHead_append {first : Char} {part : List Char} {front : List Char}
    (hfront : first ∉ front) (back : List Char) :
    splitHead (first :: part) (front ++ back) = front ++ splitHead (first :: part) back := by
  induction front with
  | nil => rfl
  | cons c front ih =>
    rw [List.mem_cons, not_or] at hfront
    have hother : (first :: part).isPrefixOf (c :: (front ++ back)) = false := by
      rw [List.isPrefixOf, beq_false_of_ne hfront.1]
      rfl
    rw [List.cons_append, splitHead, hother, ih hfront.2]
    rfl

/-- A host that is typed by hand is tried at the usual places of a network camera. -/
theorem urlsToTry_host {host : String} (hhost : ':' ∉ host.toList) :
    urlsToTry ("http://" ++ host ++ ":81/stream") = ["http://" ++ host ++ ":81/stream",
      "http://" ++ host ++ "/stream", "http://" ++ host ++ ":8080/video",
      "http://" ++ host ++ "/mjpeg"] := by
  have hlist : ("http://" ++ host ++ ":81/stream").toList =
      "http:".toList ++ (("//".toList ++ host.toList) ++ ":81/stream".toList) := by
    simp [String.toList_append]
  have hcontains : contains ("http://" ++ host ++ ":81/stream").toList
      ":81/stream".toList = true := by
    apply List.any_eq_true.mpr
    refine ⟨":81/stream".toList, ?_, by decide⟩
    rw [List.mem_tails, hlist]
    exact (List.suffix_append _ _).trans (List.suffix_append _ _)
  have hscheme : ':' ∉ "//".toList ++ host.toList := by simp [hhost]
  have hhead : splitHead ":81".toList ("http://" ++ host ++ ":81/stream").toList =
      ("http://" ++ host).toList := by
    have hlater : splitHead ":81".toList (("//".toList ++ host.toList) ++ ":81/stream".toList) =
        ("//".toList ++ host.toList) ++ [] := splitHead_append hscheme _
    rw [hlist]
    -- the colon of the scheme is followed by a slash
    change "http:".toList ++ splitHead ":81".toList
      (("//".toList ++ host.toList) ++ ":81/stream".toList) = _
    rw [hlater, List.append_nil, String.toList_append]
    rfl
  unfold urlsToTry
  rw [if_pos hcontains, hhead, String.ofList_toList]

/-! ### The stream and its two threads -/

/-- Where the thread of a stream is: at the test of `stopped`, at the poll, in `connect` before
the old capture is dropped, with candidates left to try, with a candidate open and under test,
before the first read, between the two stores of what that read yielded, or returned. -/
inductive StreamPhase where
  | check
  | poll
  | drop
  | tryNext (rest : List Candidate)
  | testing (capture : ℕ) (rest : List Candidate)
  | firstRead
  | storing (image : Option ℕ)
  | done
  deriving DecidableEq, Repr

namespace StreamPhase

/-- The thread is in `connect`. -/
def connecting : StreamPhase → Bool
  | .check | .poll | .done => false
  | .drop | .tryNext _ | .testing _ _ | .firstRead | .storing _ => true

/-- The capture under test. -/
def underTest : StreamPhase → Option ℕ
  | .testing capture _ => some capture
  | _ => none

/-- The first image of a connection is being stored. -/
def isStoring : StreamPhase → Bool
  | .storing _ => true
  | _ => false

end StreamPhase

/-- Only a phase of testing has a capture under test. -/
theorem StreamPhase.exists_of_underTest {phase : StreamPhase} {capture : ℕ}
    (h : phase.underTest = some capture) : ∃ rest, phase = .testing capture rest := by
  cases phase with
  | testing other rest =>
    cases h
    exact ⟨rest, rfl⟩
  | _ => cases h

/-- How far `release` has come. -/
inductive ReleasePhase where
  | idle
  | stopping
  | released
  deriving DecidableEq, Repr

/-- A stream. Captures are numbered in the order in which they are opened, images in the order in
which they are taken. The last two fields are history: the captures that are open, and the
number of polls since the image was read. -/
structure CameraStream where
  candidates : List Candidate
  stream : Option ℕ
  grabbed : Bool
  frame : Option ℕ
  stopped : Bool
  consecutiveFailures : ℕ
  started : Bool
  phase : StreamPhase
  release : ReleasePhase
  opened : ℕ
  live : List ℕ
  age : ℕ
  deriving DecidableEq, Repr

/-- What the devices do in a step of the thread: the image a read yields, and whether a candidate
opens. -/
structure DeviceAnswer where
  image : Option ℕ
  opens : Bool

namespace CameraStream

/-- The constructor runs `connect`; `app_gestures.py:175–184`. -/
def init (source : CameraSource) : CameraStream where
  candidates := Vision.candidates source
  stream := none
  grabbed := false
  frame := none
  stopped := false
  consecutiveFailures := 0
  started := false
  phase := .tryNext (Vision.candidates source)
  release := .idle
  opened := 0
  live := []
  age := 0

/-- `self.stream is not None and self.stream.isOpened()`. -/
def isOpened (s : CameraStream) : Bool := s.stream.any s.live.contains

/-- What a read of the capture yields. -/
def readCapture (answer : DeviceAnswer) (s : CameraStream) : Option ℕ :=
  if s.isOpened then answer.image else none

/-- One round of the loop behind its test; `app_gestures.py:256–272`. -/
def poll (answer : DeviceAnswer) (s : CameraStream) : CameraStream :=
  match s.readCapture answer with
  | some image =>
    { s with
      grabbed := true
      frame := some image
      consecutiveFailures := 0
      age := 0
      phase := .check }
  | none =>
    let s := { s with consecutiveFailures := s.consecutiveFailures + 1, age := s.age + 1 }
    if 30 < s.consecutiveFailures then { s with grabbed := false, phase := .drop }
    else { s with phase := .check }

/-- The capture is released; `app_gestures.py:190,212,228,292`. -/
def closeCapture (capture : Option ℕ) (s : CameraStream) : CameraStream :=
  { s with live := s.live.filter fun other ↦ capture ≠ some other }

/-- The old capture is dropped; `app_gestures.py:189–191`. -/
def dropCapture (s : CameraStream) : CameraStream :=
  { s.closeCapture s.stream with stream := none, phase := .tryNext s.candidates }

/-- A candidate is opened; `app_gestures.py:205–206,221–222`. -/
def openCandidate (answer : DeviceAnswer) (rest : List Candidate) (s : CameraStream) :
    CameraStream :=
  if answer.opens then
    { s with
      live := s.live ++ [s.opened]
      opened := s.opened + 1
      phase := .testing s.opened rest }
  else { s with phase := .tryNext rest }

/-- It becomes the capture of the stream when it yields an image, and is released otherwise;
`app_gestures.py:207–212,223–228`. -/
def testCandidate (answer : DeviceAnswer) (capture : ℕ) (rest : List Candidate)
    (s : CameraStream) : CameraStream :=
  if answer.image.isSome then { s with stream := some capture, phase := .firstRead }
  else { s.closeCapture (some capture) with phase := .tryNext rest }

/-- The new capture is read, and whether it yielded an image is stored;
`app_gestures.py:232–243`. -/
def storeGrabbed (answer : DeviceAnswer) (s : CameraStream) : CameraStream :=
  { s with
    grabbed := (s.readCapture answer).isSome
    phase := .storing (s.readCapture answer) }

/-- The image is stored, and the connection is over; `app_gestures.py:238,243,277`. -/
def storeFrame (image : Option ℕ) (s : CameraStream) : CameraStream :=
  { s with
    frame := image
    age := 0
    consecutiveFailures := 0
    started := true
    phase := .check }

/-- The next step of the thread; `app_gestures.py:187–280`. -/
def advance (answer : DeviceAnswer) (s : CameraStream) : CameraStream :=
  match s.phase with
  | .check => { s with phase := if s.stopped then .done else .poll }
  | .poll => s.poll answer
  | .drop => s.dropCapture
  | .tryNext (_ :: rest) => s.openCandidate answer rest
  | .tryNext [] => { s with phase := .firstRead }
  | .testing capture rest => s.testCandidate answer capture rest
  | .firstRead => s.storeGrabbed answer
  | .storing image => s.storeFrame image
  | .done => s

/-- The first statement of `release`; `app_gestures.py:289`. There is nobody to call it before
the constructor has returned. -/
def stop (s : CameraStream) : CameraStream :=
  if s.started && s.release = .idle then { s with stopped := true, release := .stopping } else s

/-- The last statement of `release`; `app_gestures.py:291–292`. -/
def close (s : CameraStream) : CameraStream :=
  if s.release = .stopping then { s.closeCapture s.stream with release := .released } else s

/-- `read`; `app_gestures.py:282–286`. -/
def read (s : CameraStream) : Bool × Option ℕ := (s.grabbed, s.frame)

end CameraStream

/-- Steps of the two threads. -/
inductive StreamEvent where
  | advance (answer : DeviceAnswer)
  | stop
  | close

/-- One step. -/
def CameraStream.handle (s : CameraStream) : StreamEvent → CameraStream
  | .advance answer => s.advance answer
  | .stop => s.stop
  | .close => s.close

/-- A step between the streams before and after it. -/
structure StreamTurn where
  event : StreamEvent
  before : CameraStream
  after : CameraStream

/-- A stream as a machine. -/
def streamMachine : Machine CameraStream StreamEvent StreamTurn where
  step s e := ⟨e, s, s.handle e⟩
  next t := some t.after

/-! ### One capture at a time -/

namespace CameraStream

/-- Every open capture is the one that the stream holds, or the candidate under test, and there is
at most one. Nothing is shown while the thread connects, and it does so after thirty failures. -/
structure Tidy (s : CameraStream) : Prop where
  held : ∀ capture ∈ s.live, s.stream = some capture ∨ s.phase.underTest = some capture
  single : s.live.length ≤ 1
  searching : ∀ rest, s.phase = .tryNext rest → s.stream = none
  testing : ∀ capture rest, s.phase = .testing capture rest →
    s.stream = none ∧ s.live = [capture]
  failures : s.phase.connecting = false → s.consecutiveFailures ≤ 30
  blind : s.phase.connecting = true → s.phase.isStoring = false → s.grabbed = false
  stored : ∀ image, s.phase = .storing image → s.grabbed = image.isSome
  shown : s.phase.isStoring = false → s.grabbed = true →
    s.frame.isSome ∧ s.age ≤ s.consecutiveFailures
  asked : s.release ≠ .idle → s.stopped = true
  choices : s.candidates ≠ []

private theorem Tidy.init (source : CameraSource) : (CameraStream.init source).Tidy := by
  constructor <;> simp [CameraStream.init, StreamPhase.connecting, candidates_ne_nil]

private theorem closeCapture_none (s : CameraStream) : s.closeCapture none = s := by
  unfold CameraStream.closeCapture
  simp

private theorem tidy_of_idle {s : CameraStream} (hidle : s.phase.connecting = false)
    (held : ∀ capture ∈ s.live, s.stream = some capture) (single : s.live.length ≤ 1)
    (failures : s.consecutiveFailures ≤ 30)
    (shown : s.grabbed = true → s.frame.isSome ∧ s.age ≤ s.consecutiveFailures)
    (asked : s.release ≠ .idle → s.stopped = true) (choices : s.candidates ≠ []) : s.Tidy := by
  refine ⟨fun c hc ↦ .inl (held c hc), single, ?_, ?_, fun _ ↦ failures, ?_, ?_, fun _ ↦ shown,
    asked, choices⟩
  · intro rest hphase
    rw [hphase] at hidle
    cases hidle
  · intro capture rest hphase
    rw [hphase] at hidle
    cases hidle
  · intro hconnecting
    rw [hidle] at hconnecting
    cases hconnecting
  · intro image hphase
    rw [hphase] at hidle
    cases hidle

section
variable {s : CameraStream} (h : s.Tidy)
include h

private theorem Tidy.closeCapture_eq (hnone : s.phase.underTest = none) :
    s.closeCapture s.stream = { s with live := [] } := by
  have hlive : (s.live.filter fun other ↦ s.stream ≠ some other) = [] := by
    apply List.filter_eq_nil_iff.mpr
    intro capture hcapture
    rcases h.held capture hcapture with hheld | htested
    · simp [hheld]
    · rw [hnone] at htested
      cases htested
  unfold CameraStream.closeCapture
  rw [hlive]

private theorem Tidy.live_eq_nil (hnone : s.stream = none) (hnot : s.phase.underTest = none) :
    s.live = [] := by
  apply List.eq_nil_iff_forall_not_mem.mpr
  intro capture hcapture
  rcases h.held capture hcapture with hheld | htested
  · rw [hnone] at hheld
    cases hheld
  · rw [hnot] at htested
    cases htested

private theorem Tidy.stream_of_live (hnot : s.phase.underTest = none) :
    ∀ capture ∈ s.live, s.stream = some capture := by
  intro capture hcapture
  have hcase := h.held capture hcapture
  rw [hnot] at hcase
  exact hcase.resolve_right nofun

private theorem Tidy.check (hphase : s.phase = .check) :
    { s with phase := if s.stopped then .done else .poll }.Tidy := by
  apply tidy_of_idle
  · dsimp only
    split <;> rfl
  · exact h.stream_of_live (by rw [hphase]; rfl)
  · exact h.single
  · exact h.failures (by rw [hphase]; rfl)
  · exact h.shown (by rw [hphase]; rfl)
  · exact h.asked
  · exact h.choices

private theorem Tidy.poll (hphase : s.phase = .poll) (answer : DeviceAnswer) :
    (s.poll answer).Tidy := by
  have hfailures : s.consecutiveFailures ≤ 30 := h.failures (by rw [hphase]; rfl)
  have hheld := h.stream_of_live (by rw [hphase]; rfl)
  have hshown := h.shown (by rw [hphase]; rfl)
  unfold CameraStream.poll
  split
  · exact tidy_of_idle rfl hheld h.single (Nat.zero_le _) (fun _ ↦ ⟨rfl, le_rfl⟩) h.asked h.choices
  · dsimp only
    split
    · exact ⟨fun c hc ↦ .inl (hheld c hc), h.single, nofun, nofun, nofun, fun _ _ ↦ rfl, nofun,
        nofun, h.asked, h.choices⟩
    · next hfew =>
      refine tidy_of_idle rfl hheld h.single (not_lt.mp hfew) (fun hgrabbed ↦ ?_) h.asked h.choices
      obtain ⟨hframe, hage⟩ := hshown hgrabbed
      exact ⟨hframe, Nat.succ_le_succ hage⟩

private theorem Tidy.dropCapture (hphase : s.phase = .drop) : s.dropCapture.Tidy := by
  have hblind := h.blind (by rw [hphase]; rfl) (by rw [hphase]; rfl)
  unfold CameraStream.dropCapture
  rw [h.closeCapture_eq (by rw [hphase]; rfl)]
  exact ⟨nofun, Nat.zero_le 1, fun _ _ ↦ rfl, nofun, nofun, fun _ _ ↦ hblind, nofun,
    fun _ ↦ h.shown (by rw [hphase]; rfl), h.asked, h.choices⟩

private theorem Tidy.openCandidate {first : Candidate} {rest : List Candidate}
    (hphase : s.phase = .tryNext (first :: rest)) (answer : DeviceAnswer) :
    (s.openCandidate answer rest).Tidy := by
  have hnone := h.searching _ hphase
  have hblind := h.blind (by rw [hphase]; rfl) (by rw [hphase]; rfl)
  have hlive := h.live_eq_nil hnone (by rw [hphase]; rfl)
  have hshown := h.shown (by rw [hphase]; rfl)
  unfold CameraStream.openCandidate
  rw [hlive]
  split
  · refine ⟨fun c hc ↦ .inr ?_, le_rfl, nofun, ?_, nofun, fun _ _ ↦ hblind, nofun, fun _ ↦ hshown,
      h.asked, h.choices⟩
    · rw [List.nil_append, List.mem_singleton] at hc
      rw [hc]
      rfl
    · rintro capture rest ⟨⟩
      exact ⟨hnone, rfl⟩
  · exact ⟨nofun, Nat.zero_le 1, fun _ _ ↦ hnone, nofun, nofun, fun _ _ ↦ hblind, nofun,
      fun _ ↦ hshown, h.asked, h.choices⟩

private theorem Tidy.testCandidate {capture : ℕ} {rest : List Candidate}
    (hphase : s.phase = .testing capture rest) (answer : DeviceAnswer) :
    (s.testCandidate answer capture rest).Tidy := by
  have ⟨hnone, hlive⟩ := h.testing capture rest hphase
  have hblind := h.blind (by rw [hphase]; rfl) (by rw [hphase]; rfl)
  have hshown := h.shown (by rw [hphase]; rfl)
  unfold CameraStream.testCandidate
  split
  · refine ⟨fun c hc ↦ .inl ?_, h.single, nofun, nofun, nofun, fun _ _ ↦ hblind, nofun,
      fun _ ↦ hshown, h.asked, h.choices⟩
    have hone : c ∈ s.live := hc
    rw [hlive, List.mem_singleton] at hone
    rw [hone]
  · have hclosed : s.closeCapture (some capture) = { s with live := [] } := by
      unfold CameraStream.closeCapture
      rw [hlive]
      simp
    rw [hclosed]
    exact ⟨nofun, Nat.zero_le 1, fun _ _ ↦ hnone, nofun, nofun, fun _ _ ↦ hblind, nofun,
      fun _ ↦ hshown, h.asked, h.choices⟩

private theorem Tidy.storeGrabbed (hphase : s.phase = .firstRead) (answer : DeviceAnswer) :
    (s.storeGrabbed answer).Tidy := by
  have hheld := h.stream_of_live (by rw [hphase]; rfl)
  refine ⟨fun c hc ↦ .inl (hheld c hc), h.single, nofun, nofun, nofun, nofun, ?_, nofun, h.asked,
    h.choices⟩
  rintro image ⟨⟩
  rfl

private theorem Tidy.storeFrame {image : Option ℕ} (hphase : s.phase = .storing image) :
    (s.storeFrame image).Tidy := by
  have hheld := h.stream_of_live (by rw [hphase]; rfl)
  refine tidy_of_idle rfl hheld h.single (Nat.zero_le _) (fun hgrabbed ↦ ?_) h.asked h.choices
  have hstored := h.stored image hphase
  exact ⟨hstored.symm.trans hgrabbed, le_rfl⟩

private theorem Tidy.advance (answer : DeviceAnswer) : (s.advance answer).Tidy := by
  unfold CameraStream.advance
  split
  · next hphase => exact h.check hphase
  · next hphase => exact h.poll hphase answer
  · next hphase => exact h.dropCapture hphase
  · next hphase => exact h.openCandidate hphase answer
  · next hphase =>
    have hblind := h.blind (by rw [hphase]; rfl) (by rw [hphase]; rfl)
    have hheld := h.stream_of_live (by rw [hphase]; rfl)
    exact ⟨fun c hc ↦ .inl (hheld c hc), h.single, nofun, nofun, nofun, fun _ _ ↦ hblind, nofun,
      fun _ ↦ h.shown (by rw [hphase]; rfl), h.asked, h.choices⟩
  · next hphase => exact h.testCandidate hphase answer
  · next hphase => exact h.storeGrabbed hphase answer
  · next hphase => exact h.storeFrame hphase
  · exact h

/-- Every step of either thread keeps the stream tidy. -/
theorem Tidy.handle (e : StreamEvent) : (s.handle e).Tidy := by
  cases e with
  | advance answer => exact h.advance answer
  | stop =>
    change s.stop.Tidy
    unfold CameraStream.stop
    split
    · exact ⟨h.held, h.single, h.searching, h.testing, h.failures, h.blind, h.stored, h.shown,
        fun _ ↦ rfl, h.choices⟩
    · exact h
  | close =>
    change s.close.Tidy
    unfold CameraStream.close
    split
    · next hstopping =>
      have hstopped := h.asked (by rw [hstopping]; nofun)
      cases htest : s.phase.underTest with
      | none =>
        rw [h.closeCapture_eq htest]
        refine ⟨nofun, Nat.zero_le 1, h.searching, ?_, h.failures, h.blind, h.stored, h.shown,
          fun _ ↦ hstopped, h.choices⟩
        intro capture rest hphase
        have hsome := congrArg StreamPhase.underTest hphase
        rw [htest] at hsome
        cases hsome
      | some capture =>
        -- a candidate under test is not held by the stream and stays open
        obtain ⟨rest, hphase⟩ := StreamPhase.exists_of_underTest htest
        rw [(h.testing capture rest hphase).1, closeCapture_none]
        exact ⟨h.held, h.single, h.searching, h.testing, h.failures, h.blind, h.stored, h.shown,
          fun _ ↦ hstopped, h.choices⟩
    · exact h

end
end CameraStream

/-- After a step at most one capture is open, which the stream holds or which is under test; `read`
shows an image only if at most thirty polls have failed since it was taken, unless the first image
of a connection is just being stored. -/
structure StreamTurn.Sound (t : StreamTurn) : Prop where
  held : ∀ capture ∈ t.after.live,
    t.after.stream = some capture ∨ t.after.phase.underTest = some capture
  single : t.after.live.length ≤ 1
  fresh : t.after.phase.isStoring = false → t.after.read.1 = true →
    t.after.read.2.isSome ∧ t.after.age ≤ 30

/-- A camera is opened and shows an image, which is still shown after a poll that fails. -/
def onceSeen : List StreamEvent :=
  [⟨none, true⟩, ⟨some 0, true⟩, ⟨some 1, true⟩, ⟨none, true⟩, ⟨none, true⟩, ⟨none, true⟩].map
    .advance

namespace CameraStream

/-- Several steps, one after the other. -/
def run (events : List StreamEvent) (s : CameraStream) : CameraStream := events.foldl handle s

/-- The thread is not on its way to another capture: it will find the stream stopped, or at most the
thirtieth failure, first. -/
def Settled (s : CameraStream) : Prop :=
  match s.phase with
  | .check | .tryNext [] | .firstRead | .storing _ | .done => True
  | .poll => s.consecutiveFailures < 30
  | .drop | .tryNext (_ :: _) | .testing _ _ => False

private theorem Settled.not_searching {s : CameraStream} (h : s.Settled) :
    s.phase ≠ .drop ∧ (∀ first rest, s.phase ≠ .tryNext (first :: rest)) ∧
      ∀ capture rest, s.phase ≠ .testing capture rest := by
  unfold Settled at h
  refine ⟨?_, fun first rest ↦ ?_, fun capture rest ↦ ?_⟩
  all_goals
    intro hphase
    rw [hphase] at h
    exact h

/-- What stays so from the closing of a settled stream on. -/
structure Closed (s : CameraStream) : Prop where
  stopped : s.stopped = true
  released : s.release = .released
  live : s.live = []
  settled : s.Settled

private theorem Closed.readCapture {s : CameraStream} (h : s.Closed) (answer : DeviceAnswer) :
    s.readCapture answer = none := by
  have hclosed : s.isOpened = false := by
    unfold isOpened
    rw [h.live]
    cases s.stream <;> rfl
  unfold CameraStream.readCapture
  rw [hclosed]
  rfl

/-- No step opens a capture again. -/
theorem Closed.handle {s : CameraStream} (h : s.Closed) (e : StreamEvent) :
    (s.handle e).Closed := by
  have hstopped := h.stopped
  have hreleased := h.released
  have hlive := h.live
  have ⟨hdrop, htry, htesting⟩ := h.settled.not_searching
  cases e with
  | stop =>
    have hsame : s.stop = s := by simp [CameraStream.stop, hreleased]
    change s.stop.Closed
    rw [hsame]
    exact h
  | close =>
    have hsame : s.close = s := by simp [CameraStream.close, hreleased]
    change s.close.Closed
    rw [hsame]
    exact h
  | advance answer =>
    change (s.advance answer).Closed
    unfold CameraStream.advance
    split
    · refine ⟨hstopped, hreleased, hlive, ?_⟩
      rw [hstopped]
      exact trivial
    · next hphase =>
      have hfew : s.consecutiveFailures < 30 := by
        have hsettled := h.settled
        unfold Settled at hsettled
        rw [hphase] at hsettled
        exact hsettled
      have hstill : ¬30 < s.consecutiveFailures + 1 := by omega
      unfold CameraStream.poll
      rw [h.readCapture answer]
      dsimp only
      rw [if_neg hstill]
      exact ⟨hstopped, hreleased, hlive, trivial⟩
    · next hphase => exact absurd hphase hdrop
    · next hphase => exact absurd hphase (htry _ _)
    · exact ⟨hstopped, hreleased, hlive, trivial⟩
    · next hphase => exact absurd hphase (htesting _ _)
    · exact ⟨hstopped, hreleased, hlive, trivial⟩
    · exact ⟨hstopped, hreleased, hlive, trivial⟩
    · exact h

private theorem Closed.run {s : CameraStream} (h : s.Closed) (events : List StreamEvent) :
    (s.run events).Closed := by
  induction events generalizing s with
  | nil => exact h
  | cons e events ih => exact ih (h.handle e)

private theorem Tidy.run {s : CameraStream} (h : s.Tidy) (events : List StreamEvent) :
    (s.run events).Tidy := by
  induction events generalizing s with
  | nil => exact h
  | cons e events ih => exact ih (h.handle e)

/-- The thread can return with a capture left open. -/
def Leaks (s : CameraStream) : Prop :=
  ∃ events, (s.run events).phase = .done ∧ (s.run events).live ≠ []

private theorem Leaks.of_handle {s : CameraStream} (e : StreamEvent) (h : (s.handle e).Leaks) :
    s.Leaks := by
  obtain ⟨events, hdone, hlive⟩ := h
  exact ⟨e :: events, hdone, hlive⟩

/-- A candidate under test can still pass. -/
theorem leaks_of_testing {s : CameraStream} {capture : ℕ} {rest : List Candidate}
    (hphase : s.phase = .testing capture rest) (hstopped : s.stopped = true)
    (hlive : s.live ≠ []) : s.Leaks := by
  let passing : StreamEvent := .advance ⟨some 0, true⟩
  refine ⟨[passing, passing, passing, passing], ?_, ?_⟩ <;>
    simp [CameraStream.run, CameraStream.handle, passing, CameraStream.advance, hphase,
      CameraStream.testCandidate, CameraStream.storeGrabbed, CameraStream.storeFrame, hstopped,
      hlive]

/-- A thread with candidates left to try can still open one of them. -/
theorem leaks_of_tryNext {s : CameraStream} {first : Candidate} {rest : List Candidate}
    (hphase : s.phase = .tryNext (first :: rest)) (hstopped : s.stopped = true) : s.Leaks := by
  have hopen : s.handle (.advance ⟨none, true⟩) = s.openCandidate ⟨none, true⟩ rest := by
    change s.advance _ = _
    unfold CameraStream.advance
    rw [hphase]
  apply Leaks.of_handle (.advance ⟨none, true⟩)
  rw [hopen]
  exact leaks_of_testing rfl hstopped (by simp [CameraStream.openCandidate])

/-- So can a thread that is about to drop its capture. -/
theorem leaks_of_drop {s : CameraStream} (hphase : s.phase = .drop) (hstopped : s.stopped = true)
    (hchoices : s.candidates ≠ []) : s.Leaks := by
  obtain ⟨first, rest, hcandidates⟩ := List.exists_cons_of_ne_nil hchoices
  have hdrop : s.handle (.advance ⟨none, true⟩) = s.dropCapture := by
    change s.advance _ = _
    unfold CameraStream.advance
    rw [hphase]
  have hrest : s.dropCapture.phase = .tryNext (first :: rest) := congrArg _ hcandidates
  apply Leaks.of_handle (.advance ⟨none, true⟩)
  rw [hdrop]
  exact leaks_of_tryNext hrest hstopped

private theorem leaks_of_poll {s : CameraStream} (hphase : s.phase = .poll)
    (hmany : ¬s.consecutiveFailures < 30) (hstopped : s.stopped = true)
    (hchoices : s.candidates ≠ []) : s.Leaks := by
  have hnone : s.readCapture ⟨none, true⟩ = none := ite_self none
  have hlast : 30 < s.consecutiveFailures + 1 := by omega
  have hdrop : s.handle (.advance ⟨none, true⟩) =
      { s with
        consecutiveFailures := s.consecutiveFailures + 1
        age := s.age + 1
        grabbed := false
        phase := .drop } := by
    change s.advance _ = _
    unfold CameraStream.advance
    rw [hphase]
    change s.poll _ = _
    unfold CameraStream.poll
    rw [hnone]
    exact if_pos hlast
  apply Leaks.of_handle (.advance ⟨none, true⟩)
  rw [hdrop]
  exact leaks_of_drop rfl hstopped hchoices

/-- A stream that is not settled when it is closed can leak. -/
theorem Tidy.leaks {s : CameraStream} (h : s.Tidy) (hstopping : s.release = .stopping)
    (hunsettled : ¬s.Settled) : s.close.Leaks := by
  have hstopped := h.asked (by rw [hstopping]; nofun)
  have hclose : s.close = { s.closeCapture s.stream with release := .released } := if_pos hstopping
  rw [hclose]
  unfold Settled at hunsettled
  cases hphase : s.phase with
  | check =>
    rw [hphase] at hunsettled
    exact absurd trivial hunsettled
  | poll =>
    rw [hphase] at hunsettled
    exact leaks_of_poll hphase hunsettled hstopped h.choices
  | drop => exact leaks_of_drop hphase hstopped h.choices
  | tryNext rest =>
    cases rest with
    | nil =>
      rw [hphase] at hunsettled
      exact absurd trivial hunsettled
    | cons first rest => exact leaks_of_tryNext hphase hstopped
  | testing capture rest =>
    have ⟨hnone, hlive⟩ := h.testing capture rest hphase
    rw [hnone, closeCapture_none]
    exact leaks_of_testing hphase hstopped (by simp [hlive])
  | firstRead =>
    rw [hphase] at hunsettled
    exact absurd trivial hunsettled
  | storing image =>
    rw [hphase] at hunsettled
    exact absurd trivial hunsettled
  | done =>
    rw [hphase] at hunsettled
    exact absurd trivial hunsettled

/-- A settled stream that is closed stays closed. -/
theorem Tidy.closed {s : CameraStream} (h : s.Tidy) (hstopping : s.release = .stopping)
    (hsettled : s.Settled) : s.close.Closed := by
  have htest : s.phase.underTest = none := by
    cases hunder : s.phase.underTest with
    | none => rfl
    | some capture =>
      obtain ⟨rest, hphase⟩ := StreamPhase.exists_of_underTest hunder
      exact absurd hphase (hsettled.not_searching.2.2 _ _)
  have hclose : s.close = { s with live := [], release := .released } := by
    unfold CameraStream.close
    rw [if_pos hstopping, h.closeCapture_eq htest]
  rw [hclose]
  exact ⟨h.asked (by rw [hstopping]; nofun), rfl, rfl, hsettled⟩

/-- When `release` closes a stream, then whatever the thread still does it leaves no capture open
exactly if it was not on its way to open another one. -/
theorem released_iff (source : CameraSource) {before : List StreamEvent}
    (hstopping : ((init source).run before).release = .stopping) :
    (∀ after, (((init source).run before).close.run after).phase = .done →
        (((init source).run before).close.run after).live = []) ↔
      ((init source).run before).Settled := by
  have htidy := (Tidy.init source).run before
  constructor
  · intro hclosed
    by_contra hunsettled
    obtain ⟨after, hdone, hlive⟩ := htidy.leaks hstopping hunsettled
    exact hlive (hclosed after hdone)
  · intro hsettled after _
    exact ((htidy.closed hstopping hsettled).run after).live

end CameraStream

/-- A camera fails thirty times, and `release` begins during the next poll. -/
def thirtyFailures : List StreamEvent :=
  [.advance ⟨none, true⟩, .advance ⟨some 0, true⟩] ++
    List.replicate 63 (.advance ⟨none, true⟩) ++ [.stop]

/-- The thread opens a capture after `release` has closed the last one. -/
theorem released_iff_thirtyFailures :
    ((CameraStream.init (.index 0)).run thirtyFailures).consecutiveFailures = 30 ∧
      ¬∀ after, (((CameraStream.init (.index 0)).run thirtyFailures).close.run after).phase =
          .done →
        (((CameraStream.init (.index 0)).run thirtyFailures).close.run after).live = [] := by
  have hphase : ((CameraStream.init (.index 0)).run thirtyFailures).phase = .poll := by
    decide +kernel
  have hstopping : ((CameraStream.init (.index 0)).run thirtyFailures).release = .stopping := by
    decide +kernel
  have hmany : ((CameraStream.init (.index 0)).run thirtyFailures).consecutiveFailures = 30 := by
    decide +kernel
  refine ⟨hmany, ?_⟩
  rw [CameraStream.released_iff (.index 0) hstopping]
  unfold CameraStream.Settled
  rw [hphase]
  exact not_lt.mpr hmany.ge

end VisionGame.Vision
