import VisionGame.Base.Effect
import VisionGame.Base.Multipart
import VisionGame.Base.Window

/-!
# The video feed

Library `Vision`. `src/mediapipe/app_gestures.py:369–425,738–743`. The loop leaves each image it
has encoded in a shared variable. A server answers every request in a thread of its own: the video
feed by a part for the image that is there, again and again until the connection breaks, anything
else at once. A handler copies the image under the lock and sends the copy after it has let the lock
go. Threads and loop take turns in any order, between these two steps as well. The answer is made of
bytes, and it may break off after any of them. A request is taken to be one of HTTP/1.0 or later.
-/

namespace VisionGame.Vision
open VisionGame.Base
open Effect

/-! ### One request -/

/-- A text that keeps to its line. -/
structure HeaderText where
  text : String
  plain : 13 ∉ latin1 text

/-- What a write to a connection raises. -/
inductive SocketError where
  | brokenPipe
  deriving DecidableEq, Repr

/-- Handler of a request: what it asks for, the lines of the header not yet sent, and what has
been written. The peer takes only so many more bytes, if it does not take all. -/
structure StreamingHandler where
  path : String
  headersBuffer : List Bytes
  wfile : Bytes
  room : Option ℕ
  deriving DecidableEq, Repr

/-- Programs of a handler. -/
abbrev Handling := Effect SocketError StreamingHandler

namespace StreamingHandler

/-- `self.wfile.write`. -/
def write (b : Bytes) : Handling Unit := do
  let self ← get
  match self.room with
  | none => modify fun self ↦ { self with wfile := self.wfile ++ b }
  | some n =>
    modify fun self ↦ { self with wfile := self.wfile ++ b.take n, room := some (n - b.length) }
    if n < b.length then throw .brokenPipe

/-- `self.send_header`. -/
def sendHeader (keyword value : String) : Handling Unit :=
  modify fun self ↦
    { self with headersBuffer := self.headersBuffer ++ [fieldLine keyword value ++ crlf] }

/-- `self.end_headers`, which writes the lines and forgets them. -/
def endHeaders : Handling Unit := do
  modify fun self ↦ { self with headersBuffer := self.headersBuffer ++ [crlf] }
  let self ← get
  write self.headersBuffer.flatten
  modify fun self ↦ { self with headersBuffer := [] }

/-- `self.send_response`. -/
def sendResponse (status : String) (server date : HeaderText) : Handling Unit := do
  modify fun self ↦ { self with headersBuffer := self.headersBuffer ++ [latin1 status ++ crlf] }
  sendHeader "Server" server.text
  sendHeader "Date" date.text

/-- `do_OPTIONS`; `app_gestures.py:375–380`. -/
def doOptions (server date : HeaderText) : Handling Unit := do
  sendResponse "HTTP/1.0 200 OK" server date
  sendHeader "Access-Control-Allow-Origin" "*"
  sendHeader "Access-Control-Allow-Methods" "GET, OPTIONS"
  sendHeader "Access-Control-Allow-Headers" "Content-Type"
  endHeaders

/-- `do_GET` up to its loop, and whether it comes to it; `app_gestures.py:382–391,410–412`. -/
def doGet (server date : HeaderText) : Handling Bool := do
  let self ← get
  if self.path = "/video_feed" then
    sendResponse "HTTP/1.0 200 OK" server date
    sendHeader "Access-Control-Allow-Origin" "*"
    sendHeader "Age" "0"
    sendHeader "Cache-Control" "no-cache, private"
    sendHeader "Pragma" "no-cache"
    sendHeader "Content-Type" "multipart/x-mixed-replace; boundary=frame"
    endHeaders
    pure true
  else
    sendResponse "HTTP/1.0 404 Not Found" server date
    endHeaders
    pure false

/-- What a round of the loop of `do_GET` sends of what it has copied; `app_gestures.py:400–405`. -/
def sendFrame (frameBytes : Option Bytes) : Handling Unit :=
  match frameBytes with
  | none => pure ()
  | some frameBytes => do
    write (latin1 "--frame\r\n")
    sendHeader "Content-Type" "image/jpeg"
    sendHeader "Content-Length" frameBytes.length.repr
    endHeaders
    write frameBytes
    write (latin1 "\r\n")

end StreamingHandler

/-! ### The loop and the server -/

/-- What a client may ask. -/
inductive FeedMethod where
  | get
  | options
  deriving DecidableEq, Repr

/-- A request, with the texts that the server adds to its answer and what the client will take. -/
structure FeedRequest where
  method : FeedMethod
  path : String
  server : HeaderText
  date : HeaderText
  room : Option ℕ

/-- Where the handler of a request is: before the lock, with what it has copied still to send, or
at its end. -/
inductive HandlerPhase where
  | looking
  | sending (frameBytes : Option Bytes)
  | returned
  deriving DecidableEq, Repr

/-- A request that has come in. -/
structure Connection where
  handler : StreamingHandler
  phase : HandlerPhase
  deriving DecidableEq, Repr

namespace Connection

/-- A request is answered up to the loop. -/
def accept (request : FeedRequest) : Connection :=
  let fresh : StreamingHandler := ⟨request.path, [], [], request.room⟩
  match request.method with
  | .options =>
    ⟨(exec (StreamingHandler.doOptions request.server request.date) fresh).2, .returned⟩
  | .get =>
    match exec (StreamingHandler.doGet request.server request.date) fresh with
    | (.ok loops, handler) => ⟨handler, if loops then .looking else .returned⟩
    | (.error _, handler) => ⟨handler, .returned⟩

/-- The shared image is copied under the lock; `app_gestures.py:393–398`. -/
def copy (latestEncodedFrame : Option Bytes) (c : Connection) : Connection :=
  match c.phase with
  | .looking => { c with phase := .sending latestEncodedFrame }
  | _ => c

/-- The copy is sent, and the loop ends when a write raises; `app_gestures.py:400–409`. -/
def send (c : Connection) : Connection :=
  match c.phase with
  | .sending frameBytes =>
    match exec (StreamingHandler.sendFrame frameBytes) c.handler with
    | (.ok _, handler) => ⟨handler, .looking⟩
    | (.error _, handler) => ⟨handler, .returned⟩
  | _ => c

end Connection

/-- The shared image, and the requests in the order in which they came in. -/
structure VideoFeed where
  latestEncodedFrame : Option Bytes
  connections : List Connection

/-- What the loop and the handlers do: the loop encodes an image, if that succeeds; a request comes
in; the handler of a request copies the image that is there, or sends its copy. -/
inductive FeedEvent where
  | encode (jpegEncoded : Option Bytes)
  | request (r : FeedRequest)
  | copy (k : ℕ)
  | send (k : ℕ)

namespace VideoFeed

/-- Nothing encoded, nothing asked. -/
def init : VideoFeed := ⟨none, []⟩

/-- One event; `app_gestures.py:373–412,738–743`. -/
def handle (f : VideoFeed) : FeedEvent → VideoFeed
  | .encode (some frame) => { f with latestEncodedFrame := some frame }
  | .encode none => f
  | .request r => { f with connections := f.connections ++ [.accept r] }
  | .copy k =>
    { f with connections := f.connections.modify k (.copy f.latestEncodedFrame) }
  | .send k => { f with connections := f.connections.modify k .send }

/-- The feed after some events. -/
def after (events : List FeedEvent) : VideoFeed := events.foldl handle init

end VideoFeed

/-- The images that have been encoded. -/
def published (events : List FeedEvent) : List Bytes :=
  events.filterMap fun
    | .encode jpegEncoded => jpegEncoded
    | _ => none

/-! ### What a handler writes -/

/-- A program writes these bytes and leaves some lines unsent, or it raises after a part of the
bytes. -/
def EmitsFrom {α : Type} (h : StreamingHandler) (m : Handling α) (out : Bytes)
    (buffer' : List Bytes) (a : α) : Prop :=
  (∃ room, exec m h =
      (.ok a, { h with headersBuffer := buffer', wfile := h.wfile ++ out, room := room })) ∨
    ∃ e h' part, exec m h = (.error e, h') ∧ part <+: out ∧ h'.wfile = h.wfile ++ part

/-- It does so whenever these lines are unsent. -/
def Emits {α : Type} (m : Handling α) (buffer : List Bytes) (out : Bytes) (buffer' : List Bytes)
    (a : α) : Prop :=
  ∀ h : StreamingHandler, h.headersBuffer = buffer → EmitsFrom h m out buffer' a

namespace Emits
open StreamingHandler

variable {α β : Type} {m : Handling α} {n : Handling β} {buffer buffer' buffer'' : List Bytes}
  {out out' : Bytes} {a : α} {b : β}

private theorem pure (a : α) : Emits (Pure.pure a) buffer [] buffer a := by
  intro h hbuffer
  left
  refine ⟨h.room, ?_⟩
  rw [← hbuffer, List.append_nil]
  rfl

/-- One program after the other writes what both write. -/
theorem seq (hm : Emits m buffer out buffer' a) (hn : Emits n buffer' out' buffer'' b) :
    Emits (m >>= fun _ ↦ n) buffer (out ++ out') buffer'' b := by
  intro h hbuffer
  rcases hm h hbuffer with ⟨room, hok⟩ | ⟨e, h', part, herror, hpart, hwritten⟩
  · rcases hn { h with headersBuffer := buffer', wfile := h.wfile ++ out, room := room } rfl with
      ⟨room', hok'⟩ | ⟨e, h', part, herror, hpart, hwritten⟩
    · left
      refine ⟨room', ?_⟩
      rw [exec_bind_ok hok, hok']
      simp only [List.append_assoc]
    · right
      refine ⟨e, h', out ++ part, ?_, (List.prefix_append_right_inj out).mpr hpart, ?_⟩
      · rw [exec_bind_ok hok, herror]
      · rw [hwritten, List.append_assoc]
  · right
    exact ⟨e, h', part, exec_bind_error herror, hpart.trans (List.prefix_append ..), hwritten⟩

/-- A line is put off. -/
theorem queue (line : Bytes) :
    Emits (modify fun self ↦ { self with headersBuffer := self.headersBuffer ++ [line] })
      buffer [] (buffer ++ [line]) () := by
  intro h hbuffer
  left
  refine ⟨h.room, ?_⟩
  rw [← hbuffer, List.append_nil]
  rfl

private theorem write (data : Bytes) : Emits (write data) buffer data buffer () := by
  intro h hbuffer
  unfold EmitsFrom
  rw [StreamingHandler.write, exec_bind_get]
  cases hroom : h.room with
  | none =>
    left
    refine ⟨h.room, ?_⟩
    rw [← hbuffer]
    rfl
  | some n =>
    simp only [exec_bind_modify]
    by_cases hfull : n < data.length
    · right
      rw [if_pos hfull]
      exact ⟨_, _, data.take n, rfl, List.take_prefix n data, rfl⟩
    · left
      rw [if_neg hfull, List.take_of_length_le (not_lt.mp hfull)]
      refine ⟨some (n - data.length), ?_⟩
      rw [← hbuffer]
      rfl

private theorem sendHeader (keyword value : String) :
    Emits (sendHeader keyword value) buffer [] (buffer ++ [fieldLine keyword value ++ crlf]) () :=
  queue _

/-- The lines put off are written, and an empty one. -/
theorem endHeaders : Emits endHeaders buffer (buffer ++ [crlf]).flatten [] () := by
  intro h hbuffer
  have hwrite := write (buffer ++ [crlf]).flatten
    { h with headersBuffer := buffer ++ [crlf] } rfl
  unfold EmitsFrom
  rw [StreamingHandler.endHeaders, exec_bind_modify, exec_bind_get, hbuffer]
  rcases hwrite with ⟨room, hok⟩ | ⟨e, h', part, herror, hpart, hwritten⟩
  · left
    refine ⟨room, ?_⟩
    rw [exec_bind_ok hok]
    rfl
  · right
    exact ⟨e, h', part, exec_bind_error herror, hpart, hwritten⟩

private theorem sendResponse (status : String) (server date : HeaderText) :
    Emits (sendResponse status server date) buffer []
      (buffer ++ [latin1 status ++ crlf, fieldLine "Server" server.text ++ crlf,
        fieldLine "Date" date.text ++ crlf]) () := by
  have hall : Emits (StreamingHandler.sendResponse status server date) buffer _ _ () :=
    (queue (latin1 status ++ crlf)).seq
      ((sendHeader "Server" server.text).seq (sendHeader "Date" date.text))
  rw [List.append_assoc, List.append_assoc] at hall
  exact hall

end Emits

/-- Lines that are put off and written are a block. -/
theorem flatten_block (lines : List Bytes) :
    (lines.map (· ++ crlf) ++ [crlf]).flatten = block lines := by
  rw [List.flatten_append, List.flatten_singleton, block, List.flatMap]

/-- Fields of an image. -/
def frameLines (frame : Bytes) : List Bytes :=
  [fieldLine "Content-Type" "image/jpeg", fieldLine "Content-Length" frame.length.repr]

/-- The part of an image. -/
def framePart (frame : Bytes) : Bytes := part (latin1 "frame") (frameLines frame) frame

/-- A round of the loop writes the part of the image that is there. -/
theorem emits_sendFrame (frame : Bytes) :
    Emits (StreamingHandler.sendFrame (some frame)) [] (framePart frame) [] () := by
  have hall : Emits (StreamingHandler.sendFrame (some frame)) []
      (latin1 "--frame\r\n" ++ ([] ++ ([] ++
        (([] ++ [fieldLine "Content-Type" "image/jpeg" ++ crlf] ++
          [fieldLine "Content-Length" frame.length.repr ++ crlf] ++ [crlf]).flatten ++
            (frame ++ latin1 "\r\n"))))) [] () :=
    (Emits.write _).seq ((Emits.sendHeader _ _).seq ((Emits.sendHeader _ _).seq
      (Emits.endHeaders.seq ((Emits.write _).seq (Emits.write _)))))
  have hmark : latin1 "--frame\r\n" = [45, 45] ++ latin1 "frame" ++ crlf := by decide +kernel
  have hend : latin1 "\r\n" = crlf := by decide +kernel
  rw [hmark, hend] at hall
  have hblock := flatten_block (frameLines frame)
  change (([] ++ [fieldLine "Content-Type" "image/jpeg" ++ crlf] ++
    [fieldLine "Content-Length" frame.length.repr ++ crlf] ++ [crlf]).flatten) = _ at hblock
  rw [hblock] at hall
  exact hall

/-! ### Answers -/

/-- Status line and fields of an answer. -/
structure Answer where
  status : Bytes
  lines : List Bytes
  statusPlain : 13 ∉ status
  linesPlain : ∀ line ∈ lines, IsLine line
  few : lines.length < 100

namespace Answer

/-- What is sent of it. -/
def head (answer : Answer) : Bytes := Base.head answer.status answer.lines

private theorem reads (answer : Answer) :
    Reads readHead answer.head (answer.status, answer.lines) :=
  reads_head answer.statusPlain answer.linesPlain answer.few

/-- The head of an answer is the block of its status line and fields. -/
theorem head_eq_flatten (answer : Answer) :
    answer.head = ((answer.status :: answer.lines).map (· ++ crlf) ++ [crlf]).flatten := by
  rw [flatten_block, head, Base.head, block, block, List.flatMap_cons, List.append_assoc,
    List.append_assoc, List.append_assoc]

end Answer

private theorem isLine_server (server : HeaderText) : IsLine (fieldLine "Server" server.text) :=
  isLine_fieldLine (by decide +kernel) server.plain

private theorem isLine_date (date : HeaderText) : IsLine (fieldLine "Date" date.text) :=
  isLine_fieldLine (by decide +kernel) date.plain

/-- A field whose texts are known. -/
theorem isLine_known (keyword value : String) (h : 13 ∉ latin1 keyword ∧ 13 ∉ latin1 value) :
    IsLine (fieldLine keyword value) :=
  isLine_fieldLine h.1 h.2

/-- The answer to a request for the feed. -/
def feedAnswer (server date : HeaderText) : Answer where
  status := latin1 "HTTP/1.0 200 OK"
  lines := [fieldLine "Server" server.text, fieldLine "Date" date.text,
    fieldLine "Access-Control-Allow-Origin" "*", fieldLine "Age" "0",
    fieldLine "Cache-Control" "no-cache, private", fieldLine "Pragma" "no-cache",
    fieldLine "Content-Type" "multipart/x-mixed-replace; boundary=frame"]
  statusPlain := by decide +kernel
  linesPlain := by
    simp only [List.forall_mem_cons, isLine_server, isLine_date, true_and]
    refine ⟨?_, ?_, ?_, ?_, ?_, by simp⟩
    all_goals exact isLine_known _ _ (by decide +kernel)
  few := by simp

/-- The answer to a request for anything else. -/
def notFoundAnswer (server date : HeaderText) : Answer where
  status := latin1 "HTTP/1.0 404 Not Found"
  lines := [fieldLine "Server" server.text, fieldLine "Date" date.text]
  statusPlain := by decide +kernel
  linesPlain := by simp [isLine_server, isLine_date]
  few := by simp

/-- The answer to a question for the options. -/
def optionsAnswer (server date : HeaderText) : Answer where
  status := latin1 "HTTP/1.0 200 OK"
  lines := [fieldLine "Server" server.text, fieldLine "Date" date.text,
    fieldLine "Access-Control-Allow-Origin" "*",
    fieldLine "Access-Control-Allow-Methods" "GET, OPTIONS",
    fieldLine "Access-Control-Allow-Headers" "Content-Type"]
  statusPlain := by decide +kernel
  linesPlain := by
    simp only [List.forall_mem_cons, isLine_server, isLine_date, true_and]
    refine ⟨?_, ?_, ?_, by simp⟩
    all_goals exact isLine_known _ _ (by decide +kernel)
  few := by simp

section
variable (server date : HeaderText)

/-- The feed names the mark between its parts. -/
theorem boundary_feedAnswer :
    (field "content-type" (feedAnswer server date).lines).bind boundaryOf =
      some (latin1 "frame") := by
  simp only [feedAnswer]
  iterate 6 rw [field_cons_ne (by decide +kernel) (by decide +kernel)]
  rw [field_cons_eq (by decide +kernel) (by decide +kernel)]
  decide +kernel

private theorem boundary_notFoundAnswer :
    (field "content-type" (notFoundAnswer server date).lines).bind boundaryOf = none := by
  simp only [notFoundAnswer]
  iterate 2 rw [field_cons_ne (by decide +kernel) (by decide +kernel)]
  rfl

private theorem boundary_optionsAnswer :
    (field "content-type" (optionsAnswer server date).lines).bind boundaryOf = none := by
  simp only [optionsAnswer]
  iterate 5 rw [field_cons_ne (by decide +kernel) (by decide +kernel)]
  rfl

/-- A request for the feed is answered by its head, and comes to the loop. -/
theorem emits_doGet_feed {h : StreamingHandler} (hpath : h.path = "/video_feed")
    (hbuffer : h.headersBuffer = []) :
    EmitsFrom h (StreamingHandler.doGet server date) (feedAnswer server date).head [] true := by
  have hall := ((Emits.sendResponse "HTTP/1.0 200 OK" server date).seq
    ((Emits.sendHeader "Access-Control-Allow-Origin" "*").seq
    ((Emits.sendHeader "Age" "0").seq
    ((Emits.sendHeader "Cache-Control" "no-cache, private").seq
    ((Emits.sendHeader "Pragma" "no-cache").seq
    ((Emits.sendHeader "Content-Type" "multipart/x-mixed-replace; boundary=frame").seq
    (Emits.endHeaders.seq (Emits.pure true)))))))) h hbuffer
  simp only [List.nil_append, List.append_nil] at hall
  unfold EmitsFrom
  rw [StreamingHandler.doGet, exec_bind_get, if_pos hpath, Answer.head_eq_flatten]
  exact hall

/-- One for anything else is answered at once. -/
theorem emits_doGet_notFound {h : StreamingHandler} (hpath : h.path ≠ "/video_feed")
    (hbuffer : h.headersBuffer = []) :
    EmitsFrom h (StreamingHandler.doGet server date) (notFoundAnswer server date).head []
      false := by
  have hall := ((Emits.sendResponse "HTTP/1.0 404 Not Found" server date).seq
    (Emits.endHeaders.seq (Emits.pure false))) h hbuffer
  simp only [List.nil_append, List.append_nil] at hall
  unfold EmitsFrom
  rw [StreamingHandler.doGet, exec_bind_get, if_neg hpath, Answer.head_eq_flatten]
  exact hall

private theorem emits_doOptions :
    Emits (StreamingHandler.doOptions server date) [] (optionsAnswer server date).head [] () := by
  have hall : Emits (StreamingHandler.doOptions server date) [] _ _ () :=
    (Emits.sendResponse "HTTP/1.0 200 OK" server date).seq
    ((Emits.sendHeader "Access-Control-Allow-Origin" "*").seq
    ((Emits.sendHeader "Access-Control-Allow-Methods" "GET, OPTIONS").seq
    ((Emits.sendHeader "Access-Control-Allow-Headers" "Content-Type").seq Emits.endHeaders)))
  simp only [List.nil_append] at hall
  rw [Answer.head_eq_flatten]
  exact hall

end

/-- The part of an image is read, whatever the image is. -/
theorem reads_framePart (frame : Bytes) :
    Reads (readPart (latin1 "frame")) (framePart frame) frame := by
  apply reads_part
  · simp only [frameLines, List.forall_mem_cons]
    exact ⟨isLine_known _ _ (by decide +kernel),
      isLine_fieldLine (by decide +kernel) (not_mem_latin1_repr _), by simp⟩
  · simp [frameLines]
  · rw [frameLines, field_cons_ne (by decide +kernel) (by decide +kernel),
      field_cons_eq (by decide +kernel) (by decide +kernel), dropWhile_latin1_repr]

private theorem framePart_ne_nil (frame : Bytes) : framePart frame ≠ [] := by
  simp [framePart, part]

/-- All images of the feed are read. -/
theorem readMultipart_feed (server date : HeaderText) (frames : List Bytes) :
    readMultipart ((feedAnswer server date).head ++ frames.flatMap framePart) = frames :=
  readMultipart_whole (feedAnswer server date).reads (boundary_feedAnswer server date)
    reads_framePart framePart_ne_nil frames

/-! ### One connection -/

/-- What a handler has copied: nothing while nothing has been encoded, or an image that may be shown
next. -/
def Held (images : List Bytes) (since : ℕ) (positions : List ℕ) (frames : List Bytes) :
    Option Bytes → Prop
  | none => frames = []
  | some frame => ∃ p, since ≤ p + 1 ∧ Replays images (positions ++ [p]) (frames ++ [frame])

private theorem Held.later {images : List Bytes} {since : ℕ} {positions : List ℕ}
    {frames : List Bytes} {frameBytes : Option Bytes}
    (h : Held images since positions frames frameBytes) (more : List Bytes) :
    Held (images ++ more) since positions frames frameBytes := by
  cases frameBytes with
  | none => exact h
  | some frame =>
    obtain ⟨p, hp, hframes⟩ := h
    exact ⟨p, hp, hframes.later more⟩

/-- What a connection has carried that came in after `since` images: the head of the feed and parts
of images, in their order and from the last of those on, all of it while the handler is in the loop;
or a part of another answer. -/
inductive Connection.Sound (images : List Bytes) (since : ℕ) (c : Connection) : Prop
  | feed (server date : HeaderText) (positions : List ℕ) (frames : List Bytes)
    (hframes : Replays images positions frames) (hsince : ∀ p ∈ positions, since ≤ p + 1)
    (hsent : c.handler.wfile <+: (feedAnswer server date).head ++ frames.flatMap framePart)
    (hlive : c.phase ≠ .returned → c.handler.headersBuffer = [] ∧
      c.handler.wfile = (feedAnswer server date).head ++ frames.flatMap framePart)
    (hheld : ∀ frameBytes, c.phase = .sending frameBytes →
      Held images since positions frames frameBytes)
  | other (answer : Answer) (htype : (field "content-type" answer.lines).bind boundaryOf = none)
    (hsent : c.handler.wfile <+: answer.head) (hdone : c.phase = .returned)

namespace Connection

private theorem Sound.accept (images : List Bytes) (since : ℕ) (request : FeedRequest) :
    (accept request).Sound images since := by
  unfold Connection.accept
  cases request.method with
  | options =>
    refine .other (optionsAnswer request.server request.date)
      (boundary_optionsAnswer request.server request.date) ?_ rfl
    rcases emits_doOptions request.server request.date ⟨request.path, [], [], request.room⟩ rfl with
      ⟨room, hok⟩ | ⟨e, h', part, herror, hpart, hwritten⟩
    · simp only [hok, List.nil_append]
      exact List.prefix_rfl
    · simp only [herror, hwritten, List.nil_append]
      exact hpart
  | get =>
    by_cases hpath : request.path = "/video_feed"
    · refine .feed request.server request.date [] [] (.nil images) (by simp) ?_ ?_ ?_
      all_goals
        rcases emits_doGet_feed request.server request.date
          (h := ⟨request.path, [], [], request.room⟩) hpath rfl with
          ⟨room, hok⟩ | ⟨e, h', part, herror, hpart, hwritten⟩
      · simp [hok]
      · simpa [herror, hwritten] using hpart
      · simp [hok]
      · simp [herror]
      · simp [hok]
      · simp [herror]
    · refine .other (notFoundAnswer request.server request.date)
        (boundary_notFoundAnswer request.server request.date) ?_ ?_
      all_goals
        rcases emits_doGet_notFound request.server request.date
          (h := ⟨request.path, [], [], request.room⟩) hpath rfl with
          ⟨room, hok⟩ | ⟨e, h', part, herror, hpart, hwritten⟩
      · simp [hok]
      · simpa [herror, hwritten] using hpart
      · simp [hok]
      · simp [herror]

section
variable {images : List Bytes} {since : ℕ} {c : Connection} (h : c.Sound images since)
include h

private theorem Sound.later (more : List Bytes) : c.Sound (images ++ more) since := by
  cases h with
  | other answer htype hsent hdone => exact .other answer htype hsent hdone
  | feed server date positions frames hframes hsince hsent hlive hheld =>
    exact .feed server date positions frames (hframes.later more) hsince hsent hlive
      fun frameBytes hphase ↦ (hheld frameBytes hphase).later more

private theorem Sound.copy (hlength : since ≤ images.length) :
    (c.copy images.getLast?).Sound images since := by
  unfold Connection.copy
  split
  · next hlooking =>
    cases h with
    | other answer htype hsent hdone =>
      rw [hdone] at hlooking
      cases hlooking
    | feed server date positions frames hframes hsince hsent hlive hheld =>
      refine .feed server date positions frames hframes hsince hsent
        (fun _ ↦ hlive (by rw [hlooking]; exact nofun)) fun frameBytes hphase ↦ ?_
      cases hphase
      cases hlatest : images.getLast? with
      | none => exact hframes.eq_nil (List.getLast?_eq_none_iff.mp hlatest)
      | some frame =>
        have hpos : 0 < images.length := List.length_pos_of_mem (List.mem_of_getLast? hlatest)
        exact ⟨images.length - 1, by omega, hframes.concat hlatest⟩
  · exact h

/-- What is sent is sound, and while the connection holds the client has then read the copy. -/
theorem Sound.send : c.send.Sound images since ∧
    ∀ frameBytes, c.phase = .sending frameBytes → c.send.phase ≠ .returned →
      (readMultipart c.send.handler.wfile).getLast? = frameBytes := by
  unfold Connection.send
  split
  · next frameBytes hsending =>
    cases h with
    | other answer htype hsent hdone =>
      rw [hdone] at hsending
      cases hsending
    | feed server date positions frames hframes hsince hsent hlive hheld =>
      obtain ⟨hbuffer, hwfile⟩ := hlive (by rw [hsending]; exact nofun)
      have hcopy := hheld frameBytes hsending
      have hsame : ∀ other, c.phase = .sending other → other = frameBytes := by
        intro other hother
        rw [hsending] at hother
        cases hother
        rfl
      cases frameBytes with
      | none =>
        -- nothing had been encoded, and nothing is sent
        refine ⟨.feed server date positions frames hframes hsince hsent (fun _ ↦ ⟨hbuffer, hwfile⟩)
          nofun, fun other hother _ ↦ ?_⟩
        change (readMultipart c.handler.wfile).getLast? = other
        rw [hsame other hother, hwfile, readMultipart_feed, hcopy]
        rfl
      | some frame =>
        obtain ⟨p, hp, hmore⟩ := hcopy
        have hlater : ∀ q ∈ positions ++ [p], since ≤ q + 1 := by
          simp only [List.forall_mem_append, List.forall_mem_singleton]
          exact ⟨hsince, hp⟩
        have hbytes : (feedAnswer server date).head ++ (frames ++ [frame]).flatMap framePart =
            c.handler.wfile ++ framePart frame := by
          rw [hwfile, List.flatMap_append, List.flatMap_singleton, List.append_assoc]
        rcases emits_sendFrame frame c.handler hbuffer with
          ⟨room, hok⟩ | ⟨e, h', part, herror, hpart, hwritten⟩
        · rw [hok]
          refine ⟨.feed server date _ _ hmore hlater ?_ (fun _ ↦ ⟨rfl, hbytes.symm⟩) nofun,
            fun other hother _ ↦ ?_⟩
          · rw [hbytes]
          · change (readMultipart (c.handler.wfile ++ framePart frame)).getLast? = _
            rw [hsame other hother, ← hbytes, readMultipart_feed, List.getLast?_concat]
        · rw [herror]
          refine ⟨.feed server date _ _ hmore hlater ?_ (fun hphase ↦ absurd rfl hphase) nofun,
            fun _ _ hphase ↦ absurd rfl hphase⟩
          rw [hbytes, hwritten]
          exact (List.prefix_append_right_inj _).mpr hpart
  · next hother => exact ⟨h, fun frameBytes hsending ↦ absurd hsending (hother frameBytes)⟩

/-- Whatever has arrived shows images that have been encoded, in their order. -/
theorem Sound.arrived (n : ℕ) :
    ∃ positions, Replays images positions (readMultipart (c.handler.wfile.take n)) ∧
      ∀ p ∈ positions, since ≤ p + 1 := by
  cases h with
  | other answer htype hsent hdone =>
    rw [readMultipart_plain answer.reads htype ((List.take_prefix n _).trans hsent)]
    exact ⟨[], .nil images, by simp⟩
  | feed server date positions frames hframes hsince hsent hlive hheld =>
    exact ⟨_, hframes.take (readMultipart_isPrefix (feedAnswer server date).reads
      (boundary_feedAnswer server date) reads_framePart framePart_ne_nil
      ((List.take_prefix n _).trans hsent)), fun p hp ↦ hsince p (List.mem_of_mem_take hp)⟩

end

/-- What an event does to the connection with this number. -/
def turn (k : ℕ) (latestEncodedFrame : Option Bytes) (c : Connection) : FeedEvent → Connection
  | .copy j => if j = k then c.copy latestEncodedFrame else c
  | .send j => if j = k then c.send else c
  | _ => c

/-- Every event keeps a connection sound. -/
theorem Sound.turn {images : List Bytes} {since : ℕ} {c : Connection} (h : c.Sound images since)
    (hlength : since ≤ images.length) (k : ℕ) (e : FeedEvent) :
    (c.turn k images.getLast? e).Sound images since := by
  cases e with
  | encode jpegEncoded => exact h
  | request r => exact h
  | copy j =>
    change Connection.Sound images since (if j = k then c.copy images.getLast? else c)
    split
    · exact h.copy hlength
    · exact h
  | send j =>
    change Connection.Sound images since (if j = k then c.send else c)
    split
    · exact h.send.1
    · exact h

end Connection

/-! ### Every run -/

namespace VideoFeed

private theorem getElem?_handle {f : VideoFeed} {k : ℕ} {c : Connection}
    (h : f.connections[k]? = some c) (e : FeedEvent) :
    (f.handle e).connections[k]? = some (c.turn k f.latestEncodedFrame e) := by
  cases e with
  | encode jpegEncoded => cases jpegEncoded <;> exact h
  | request r =>
    have hk := (List.getElem?_eq_some_iff.mp h).1
    exact (List.getElem?_append_left hk).trans h
  | copy j =>
    change (f.connections.modify j _)[k]? = _
    rw [List.getElem?_modify, h, Connection.turn]
    split <;> rfl
  | send j =>
    change (f.connections.modify j _)[k]? = _
    rw [List.getElem?_modify, h, Connection.turn]
    split <;> rfl

private theorem handle_cases {f : VideoFeed} {e : FeedEvent} {k : ℕ} {c : Connection}
    (h : (f.handle e).connections[k]? = some c) :
    (∃ r, e = .request r ∧ k = f.connections.length ∧ c = .accept r) ∨
      ∃ d, f.connections[k]? = some d ∧ c = d.turn k f.latestEncodedFrame e := by
  cases hd : f.connections[k]? with
  | some d =>
    right
    rw [getElem?_handle hd] at h
    exact ⟨d, rfl, (Option.some.inj h).symm⟩
  | none =>
    left
    have hk := List.getElem?_eq_none_iff.mp hd
    cases e with
    | encode jpegEncoded => cases jpegEncoded <;> exact absurd (hd.symm.trans h) nofun
    | request r =>
      change (f.connections ++ [_])[k]? = some c at h
      rw [List.getElem?_append_right hk, List.getElem?_singleton] at h
      split at h
      · next hzero => exact ⟨r, rfl, by omega, (Option.some.inj h).symm⟩
      · cases h
    | copy j =>
      change (f.connections.modify j _)[k]? = some c at h
      rw [List.getElem?_modify, hd] at h
      cases h
    | send j =>
      change (f.connections.modify j _)[k]? = some c at h
      rw [List.getElem?_modify, hd] at h
      cases h

private theorem after_concat (events : List FeedEvent) (e : FeedEvent) :
    after (events ++ [e]) = (after events).handle e := by
  rw [after, List.foldl_append]
  rfl

/-- The image that is there is the last one encoded, and every connection has come in with a
request and is sound since then. -/
structure Sound (events : List FeedEvent) (f : VideoFeed) : Prop where
  latest : f.latestEncodedFrame = (published events).getLast?
  connections : ∀ k c, f.connections[k]? = some c → ∃ past r rest,
    events = past ++ .request r :: rest ∧ k = (after past).connections.length ∧
      c.Sound (published events) (published past).length

private theorem published_append (events more : List FeedEvent) :
    published (events ++ more) = published events ++ published more :=
  List.filterMap_append

private theorem latest_handle {f : VideoFeed} {images : List Bytes}
    (h : f.latestEncodedFrame = images.getLast?) (e : FeedEvent) :
    (f.handle e).latestEncodedFrame = (images ++ published [e]).getLast? := by
  have hsame : f.latestEncodedFrame = (images ++ []).getLast? := by
    rw [List.append_nil]
    exact h
  cases e with
  | encode jpegEncoded =>
    cases jpegEncoded with
    | none => exact hsame
    | some frame => exact List.getLast?_concat.symm
  | request r => exact hsame
  | copy k => exact hsame
  | send k => exact hsame

/-- Every run is sound. -/
theorem Sound.after (events : List FeedEvent) : (after events).Sound events := by
  induction events using List.reverseRecOn with
  | nil => exact ⟨rfl, by simp [VideoFeed.after, init]⟩
  | append_singleton events e ih =>
    rw [after_concat]
    refine ⟨?_, fun k c hc ↦ ?_⟩
    · rw [published_append]
      exact latest_handle ih.latest e
    · rcases handle_cases hc with ⟨r, rfl, rfl, rfl⟩ | ⟨d, hd, rfl⟩
      · exact ⟨events, r, [], rfl, rfl, .accept ..⟩
      · obtain ⟨past, r, rest, hevents, hk, hsound⟩ := ih.connections k d hd
        refine ⟨past, r, rest ++ [e], by rw [hevents, List.append_assoc]; rfl, hk, ?_⟩
        have hlength : (published past).length ≤ (published events).length := by
          rw [hevents, published_append, List.length_append]
          omega
        rw [published_append, ih.latest]
        exact (hsound.turn hlength k e).later (published [e])

private theorem copy_kept {past rest : List FeedEvent} {k : ℕ} {c : Connection}
    (hc : (VideoFeed.after past).connections[k]? = some c) (hlooking : c.phase = .looking)
    (hrest : .send k ∉ rest) :
    (VideoFeed.after (past ++ .copy k :: rest)).connections[k]? =
      some { c with phase := .sending (published past).getLast? } := by
  induction rest using List.reverseRecOn with
  | nil =>
    rw [after_concat, getElem?_handle hc, (Sound.after past).latest, Connection.turn, if_pos rfl,
      Connection.copy, hlooking]
  | append_singleton rest e ih =>
    have hearlier : .send k ∉ rest := fun hmem ↦ hrest (List.mem_append_left _ hmem)
    have he : e ≠ .send k := by
      rintro rfl
      exact hrest (List.mem_append_right _ List.mem_cons_self)
    rw [← List.cons_append, ← List.append_assoc, after_concat, getElem?_handle (ih hearlier)]
    cases e with
    | encode jpegEncoded => rfl
    | request r => rfl
    | copy j =>
      rw [Connection.turn, Connection.copy]
      split <;> rfl
    | send j =>
      have hne : j ≠ k := fun heq ↦ he (congrArg FeedEvent.send heq)
      rw [Connection.turn, if_neg hne]

end VideoFeed

/-- In every interleaving of the loop and the handlers, and wherever a connection breaks off, the
client reads images that have been encoded, each of them whole, none older than the last one before
its request came in, and never goes back to an older one. When a copy has been sent and the
connection has survived it, the image read last is the one that was newest at the copy. -/
theorem feed_shows_published (events : List FeedEvent) (k : ℕ) :
    (∀ c, (VideoFeed.after events).connections[k]? = some c → ∃ past r rest,
      events = past ++ .request r :: rest ∧ k = (VideoFeed.after past).connections.length ∧
        ∀ n, ∃ positions,
          Replays (published events) positions (readMultipart (c.handler.wfile.take n)) ∧
            ∀ p ∈ positions, (published past).length ≤ p + 1) ∧
    ∀ past rest c, events = past ++ .copy k :: rest → .send k ∉ rest →
      (VideoFeed.after past).connections[k]? = some c → c.phase = .looking →
      ∃ c', (VideoFeed.after (events ++ [.send k])).connections[k]? = some c' ∧
        (c'.phase ≠ .returned →
          (readMultipart c'.handler.wfile).getLast? = (published past).getLast?) := by
  have hsound := VideoFeed.Sound.after events
  constructor
  · intro c hc
    obtain ⟨past, r, rest, hevents, hk, hconnection⟩ := hsound.connections k c hc
    exact ⟨past, r, rest, hevents, hk, hconnection.arrived⟩
  · intro past rest c hevents hrest hc hlooking
    have hkept := VideoFeed.copy_kept hc hlooking hrest
    rw [← hevents] at hkept
    obtain ⟨_, _, _, _, _, hconnection⟩ := hsound.connections k _ hkept
    refine ⟨_, ?_, hconnection.send.2 _ rfl⟩
    rw [VideoFeed.after_concat, VideoFeed.getElem?_handle hkept, Connection.turn, if_pos rfl]

/-- A client is sent an image that looks like a mark between parts. Then another one is encoded and
copied, and a third one before the copy is sent. -/
def threeFrames : List FeedEvent :=
  [.encode (some [5]), .encode (some (latin1 "--frame\r\n\r\n")),
    .request ⟨.get, "/video_feed", ⟨"BaseHTTP/0.6 Python/3.11", by decide +kernel⟩,
      ⟨"Thu, 01 Jan 1970 00:00:00 GMT", by decide +kernel⟩, none⟩,
    .copy 0, .send 0, .encode none, .encode (some [7])]

/-- It has read the copy, although another image was newer when the copy was sent. -/
theorem feed_shows_published_threeFrames :
    ∃ c, (VideoFeed.after (threeFrames ++ [.copy 0, .encode (some [9]), .send 0])).connections[0]? =
        some c ∧ c.phase = .looking ∧ (readMultipart c.handler.wfile).getLast? = some [7] ∧
      ∃ past r rest, threeFrames ++ [.copy 0, .encode (some [9]), .send 0] =
          past ++ .request r :: rest ∧ 0 = (VideoFeed.after past).connections.length ∧
        ∀ n, ∃ positions, Replays (published (threeFrames ++
            [.copy 0, .encode (some [9]), .send 0])) positions
              (readMultipart (c.handler.wfile.take n)) ∧
          ∀ p ∈ positions, (published past).length ≤ p + 1 := by
  have hbefore : (VideoFeed.after threeFrames).connections[0]?.map Connection.phase =
      some .looking := by decide +kernel
  have hafter : (VideoFeed.after
      (threeFrames ++ [.copy 0, .encode (some [9]), .send 0])).connections[0]?.map
        Connection.phase = some .looking := by decide +kernel
  obtain ⟨d, hd, hlooking⟩ := Option.map_eq_some_iff.mp hbefore
  obtain ⟨c, hc, hloops⟩ := (feed_shows_published
    (threeFrames ++ [.copy 0, .encode (some [9])]) 0).2 threeFrames [.encode (some [9])] d rfl
      nofun hd hlooking
  have hget : (VideoFeed.after
      (threeFrames ++ [.copy 0, .encode (some [9]), .send 0])).connections[0]? = some c := hc
  rw [hget] at hafter
  have hphase := Option.some.inj hafter
  refine ⟨c, hget, hphase, hloops ?_, (feed_shows_published
    (threeFrames ++ [.copy 0, .encode (some [9]), .send 0]) 0).1 c hget⟩
  rw [hphase]
  exact nofun

end VisionGame.Vision
