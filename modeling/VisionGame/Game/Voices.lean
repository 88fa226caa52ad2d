import Mathlib.Tactic.Linarith
import Mathlib.Tactic.NormNum
import VisionGame.Base.Leases
import VisionGame.Base.Machine
import VisionGame.Base.Scalar

/-!
# Voices of the synthesizer

Library `Game`. `components/FruitNinjaGame.tsx:179–304,351–370,411–418`. A sound takes one of
three voices until a timer gives it back; a sound that finds no voice is dropped. The browser
calls a timer at its time or later. The tones of a sound end before its voice is given back, so
that no more than three sounds are heard at once. The clock of the audio context is taken to run
with the timers, and the constructor of the context to succeed.
-/

namespace VisionGame.Game
open VisionGame.Base

/-! ### Sounds -/

/-- Sounds of the game. -/
inductive Sound where
  | whoosh
  | squish
  | combo (count : ℕ)
  deriving DecidableEq, Repr

/-- Oscillator or noise source, by the milliseconds from the start of its sound to its own start
and stop, and the semitones that it is above the base frequency. -/
structure Tone (R : Type) where
  start : R
  stop : R
  semitones : ℕ

variable {R : Type} [Scalar R]

/-- `intervals[i] || 12`; `FruitNinjaGame.tsx:275–285`. -/
def comboInterval (i : ℕ) : ℕ :=
  match [0, 3, 7, 10, 12][i]? with
  | some (n + 1) => n + 1
  | _ => 12

namespace Sound

/-- The tones of a sound; `FruitNinjaGame.tsx:205–300`. -/
def tones : Sound → List (Tone R)
  | whoosh => [⟨0, 120, 0⟩]
  | squish => [⟨0, 60, 0⟩]
  | combo count =>
    (List.range (min count 5)).map fun (i : ℕ) ↦ ⟨i * 60, i * 60 + 180, comboInterval i⟩

/-- How long a sound keeps its voice; `FruitNinjaGame.tsx:231,267,301`. -/
def durationMs : Sound → R
  | whoosh => 120
  | squish => 80
  | combo count => 180 + count * 60

/-- A combo sounds at most five tones, the first of them an octave up. -/
theorem combo_semitones (count : ℕ) :
    ((combo count).tones : List (Tone R)).map Tone.semitones = [12, 3, 7, 10, 12].take count := by
  have hall : (List.range 5).map comboInterval = [12, 3, 7, 10, 12] := by decide
  simp only [tones, List.map_map]
  change (List.range (min count 5)).map comboInterval = _
  rw [← hall, ← List.map_take, List.take_range]

private theorem stop_le_durationMs (sound : Sound) {tone : Tone R}
    (h : tone ∈ (sound.tones : List _)) :
    tone.stop ≤ sound.durationMs := by
  cases sound with
  | whoosh =>
    rw [List.mem_singleton.mp h]
    exact le_rfl
  | squish =>
    rw [List.mem_singleton.mp h]
    change (60 : R) ≤ 80
    norm_num
  | combo count =>
    obtain ⟨i, hi, rfl⟩ := List.mem_map.mp h
    have hlt : i < count := (List.mem_range.mp hi).trans_le (min_le_left _ _)
    have hcast : (i : R) ≤ count := by exact_mod_cast hlt.le
    change (i : R) * 60 + 180 ≤ 180 + count * 60
    linarith

end Sound

/-! ### The synthesizer -/

/-- `SoundSynth` and the timers it has set. `played` is history: the sounds that got a voice,
with their times. -/
structure SoundSynth (R : Type) where
  ctx : Bool
  isMuted : Bool
  activeVoices : ℕ
  timers : Leases R
  clock : R
  played : List (Sound × R)

namespace SoundSynth

/-- A synthesizer that has not played yet. -/
def new (clock : R) : SoundSynth R := ⟨false, false, 0, .empty, clock, []⟩

/-- `init`; `FruitNinjaGame.tsx:184–192`. -/
def init (s : SoundSynth R) : SoundSynth R := if s.isMuted then s else { s with ctx := true }

/-- `playWithThrottle`; an error of the sound itself is caught. `FruitNinjaGame.tsx:194–206`. -/
def playWithThrottle (sound : Sound) (s : SoundSynth R) : SoundSynth R :=
  let s := s.init
  if !s.ctx || s.isMuted then s
  else if 3 ≤ s.activeVoices then s
  else
    { s with
      activeVoices := s.activeVoices + 1
      timers := s.timers.grant (s.clock + sound.durationMs)
      played := (sound, s.clock) :: s.played }

/-- The callback of a timer, which the browser calls at its time or later;
`FruitNinjaGame.tsx:203–205`. -/
def fire (k : ℕ) (s : SoundSynth R) : SoundSynth R :=
  match s.timers.pending[k]? with
  | some due =>
    if due ≤ s.clock then
      { s with activeVoices := max 0 (s.activeVoices - 1), timers := s.timers.giveBack k }
    else s
  | none => s

/-- `toggleMute` and the setting read at the start; `FruitNinjaGame.tsx:364–369,411–418`. -/
def setMuted (muted : Bool) (s : SoundSynth R) : SoundSynth R := { s with isMuted := muted }

/-- Time passes. -/
def wait (time : R) (s : SoundSynth R) : SoundSynth R := { s with clock := s.clock + time }

end SoundSynth

/-- What can happen to a synthesizer. -/
inductive SynthAction where
  | play (sound : Sound)
  | fire (k : ℕ)
  | setMuted (muted : Bool)
  deriving DecidableEq, Repr

/-- An action, some time after the one before it. -/
structure SynthEvent (R : Type) where
  wait : R
  action : SynthAction

/-- One action. -/
def SoundSynth.handle (s : SoundSynth R) : SynthAction → SoundSynth R
  | .play sound => s.playWithThrottle sound
  | .fire k => s.fire k
  | .setMuted muted => s.setMuted muted

/-- An event between the synthesizers before and after it. -/
structure SynthTurn (R : Type) where
  event : SynthEvent R
  before : SoundSynth R
  after : SoundSynth R

/-- A synthesizer as a machine. -/
def synthMachine : Machine (SoundSynth R) (SynthEvent R) (SynthTurn R) where
  step s e := ⟨e, s, (s.wait e.wait).handle e.action⟩
  next t := some t.after

/-! ### Voices and timers -/

/-- Every voice has its timer, at most three are taken, and the sounds that were played are those
whose timers were set. -/
structure SoundSynth.Balanced (s : SoundSynth R) : Prop where
  counted : s.activeVoices = s.timers.pending.length
  sound : s.timers.Sound 3 s.clock
  played : (s.played.map fun p ↦ p.2 + p.1.durationMs).Perm s.timers.granted

namespace SoundSynth

private theorem Balanced.new (clock : R) : (SoundSynth.new clock).Balanced :=
  ⟨rfl, .empty 3 clock, .refl _⟩

section
variable {s : SoundSynth R} (h : s.Balanced)
include h

private theorem Balanced.wait {time : R} (htime : 0 ≤ time) : (s.wait time).Balanced :=
  ⟨h.counted, h.sound.later (le_add_of_nonneg_right htime), h.played⟩

private theorem Balanced.init : s.init.Balanced := by
  unfold SoundSynth.init
  split
  · exact h
  · exact ⟨h.counted, h.sound, h.played⟩

private theorem Balanced.playWithThrottle (sound : Sound) :
    (s.playWithThrottle sound).Balanced := by
  have hinit := h.init
  unfold SoundSynth.playWithThrottle
  dsimp only
  generalize s.init = s' at hinit ⊢
  split
  · exact hinit
  · split
    · exact hinit
    · next hroom =>
      have hfew : s'.timers.pending.length < 3 := by
        rw [← hinit.counted]
        omega
      refine ⟨congrArg (· + 1) hinit.counted, hinit.sound.grant hfew _, ?_⟩
      exact hinit.played.cons _

private theorem Balanced.fire (k : ℕ) : (s.fire k).Balanced := by
  unfold SoundSynth.fire
  split
  · next due hget =>
    split
    · next hdue =>
      have hk : k < s.timers.pending.length := (List.getElem?_eq_some_iff.mp hget).1
      refine ⟨?_, h.sound.giveBack ?_, ?_⟩
      · change max 0 (s.activeVoices - 1) = (s.timers.pending.eraseIdx k).length
        rw [List.length_eraseIdx_of_lt hk, ← h.counted, Nat.zero_max]
      · intro d hd
        rw [Option.mem_def, hget] at hd
        rw [← Option.some.inj hd]
        exact hdue
      · exact h.played.trans (s.timers.granted_giveBack k).symm
    · exact h
  · exact h

/-- Whatever happens after whatever time, the voices stay balanced. -/
theorem Balanced.handle (a : SynthAction) : (s.handle a).Balanced := by
  cases a with
  | play sound => exact h.playWithThrottle sound
  | fire k => exact h.fire k
  | setMuted muted => exact ⟨h.counted, h.sound, h.played⟩

end
end SoundSynth

/-- A muted synthesizer does not play. -/
theorem SoundSynth.handle_muted {s : SoundSynth R} (h : s.isMuted = true) (a : SynthAction) :
    (s.handle a).played = s.played := by
  cases a with
  | play sound =>
    have hinit : s.init = s := if_pos h
    change (s.playWithThrottle sound).played = s.played
    unfold SoundSynth.playWithThrottle
    rw [hinit]
    dsimp only
    rw [if_pos (by rw [h, Bool.or_true])]
  | fire k =>
    change (s.fire k).played = s.played
    unfold SoundSynth.fire
    split
    · split <;> rfl
    · rfl
  | setMuted muted => rfl

/-! ### What is heard -/

/-- A sound that was played is heard: one of its tones has started and not stopped. -/
def heard (now : R) (p : Sound × R) : Bool :=
  p.1.tones.any fun tone ↦ p.2 + tone.start ≤ now && now < p.2 + tone.stop

private theorem lt_of_heard {now : R} {p : Sound × R} (h : heard now p = true) :
    now < p.2 + p.1.durationMs := by
  obtain ⟨tone, htone, hnow⟩ := List.any_eq_true.mp h
  have hstop := of_decide_eq_true (Bool.and_eq_true_iff.mp hnow).2
  have hle := p.1.stop_le_durationMs htone
  linarith

private theorem SoundSynth.Balanced.heard_le {s : SoundSynth R} (h : s.Balanced) {now : R}
    (hnow : s.clock ≤ now) : (s.played.filter (heard now)).length ≤ 3 := by
  have hrunning := (h.sound.later hnow).running_le
  have hperm := h.played.filter (now < ·)
  have hsub : ((s.played.filter (heard now)).map fun p ↦ p.2 + p.1.durationMs).Sublist
      ((s.played.map fun p ↦ p.2 + p.1.durationMs).filter (now < ·)) := by
    rw [List.filter_map]
    apply List.Sublist.map
    apply List.monotone_filter_right
    intro p hp
    exact decide_eq_true (lt_of_heard hp)
  have hlength := hsub.length_le
  rw [List.length_map, hperm.length_eq] at hlength
  exact hlength.trans hrunning

/-- After an event the voices are counted, at most three of them are taken, and at most three
sounds are heard until the next one; a muted synthesizer has not played. -/
structure SynthTurn.Bounded (t : SynthTurn R) : Prop where
  counted : t.after.activeVoices = t.after.timers.pending.length
  few : t.after.activeVoices ≤ 3
  heard : ∀ now, t.after.clock ≤ now → (t.after.played.filter (heard now)).length ≤ 3
  muted : t.before.isMuted = true → t.after.played = t.before.played

/-- In every order of sounds, timers and mutings, at most three sounds are heard at once. -/
theorem voices_bounded (clock : R) {events : List (SynthEvent R)}
    (hevents : ∀ e ∈ events, 0 ≤ e.wait) :
    ∀ t ∈ synthMachine.trace (.new clock) events, t.Bounded := by
  apply synthMachine.trace_forall (I := SoundSynth.Balanced) (P := SynthTurn.Bounded) events
  · intro s e he h
    have hafter := (h.wait (hevents e he)).handle e.action
    exact ⟨hafter.counted, hafter.counted.le.trans hafter.sound.few,
      fun _ hnow ↦ hafter.heard_le hnow, fun hmuted ↦ (s.wait e.wait).handle_muted hmuted e.action⟩
  · intro s e he t h hnext
    rw [← Option.some.inj hnext]
    exact (h.wait (hevents e he)).handle e.action
  · exact .new clock

/-- Four sounds, the second of them over before a fifth. -/
def fiveSounds : List (SynthEvent ℚ) :=
  [⟨10, .play (.combo 4)⟩, ⟨5, .play .squish⟩, ⟨5, .play .whoosh⟩, ⟨5, .play .whoosh⟩,
    ⟨100, .fire 1⟩, ⟨5, .play .squish⟩]

/-- The fourth finds no voice and the fifth does. -/
theorem voices_bounded_fiveSounds :
    (synthMachine.trace (.new 0) fiveSounds).map (fun t ↦ t.after.activeVoices) =
        [1, 2, 3, 3, 2, 3] ∧
      ∃ t, (synthMachine.trace (.new 0) fiveSounds)[5]? = some t ∧
        t.after.played.length = 4 ∧ t.Bounded := by
  have hlast : ∃ t, (synthMachine.trace (.new 0) fiveSounds)[5]? = some t ∧
      t.after.played.length = 4 := ⟨_, rfl, by decide +kernel⟩
  have hwaits : ∀ e ∈ fiveSounds, 0 ≤ e.wait := by simp [fiveSounds]
  obtain ⟨t, hget, hplayed⟩ := hlast
  exact ⟨by decide +kernel, t, hget, hplayed,
    voices_bounded 0 hwaits t (List.mem_of_getElem? hget)⟩

end VisionGame.Game
