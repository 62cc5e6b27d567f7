import Mathlib.Data.List.Basic

/-!
# Frames cut off a stream

A framing cuts frames off the front of a stream. What it has found in the octets at hand does not
change when more octets arrive: a frame stays a frame, and a failure stays a failure. Then it does
not matter in which pieces the stream arrives, as long as a reader keeps what is not yet a frame.
-/

namespace Foundation

/-- A way to cut a frame off a stream: no frame yet, a frame and what follows it, or a failure. -/
structure Framing (α β ε : Type) where
  cut : List α → Except ε (Option (β × List α))
  cut_shorter : ∀ {stream frame rest}, cut stream = .ok (some (frame, rest)) →
    rest.length < stream.length
  cut_append : ∀ {stream frame rest} (more), cut stream = .ok (some (frame, rest)) →
    cut (stream ++ more) = .ok (some (frame, rest ++ more))
  cut_append_error : ∀ {stream e} (more), cut stream = .error e → cut (stream ++ more) = .error e

/-- What a reader has found: some frames, and then a failure or octets that are not yet a frame. -/
@[ext] structure Reading (α β ε : Type) where
  frames : List β
  failure : Option ε
  rest : List α

namespace Reading

variable {α β ε : Type}

/-- Frames found before. -/
def after (frames : List β) (r : Reading α β ε) : Reading α β ε :=
  { r with frames := frames ++ r.frames }

@[simp] theorem after_nil (r : Reading α β ε) : r.after [] = r := rfl

@[simp] theorem after_after (frames frames' : List β) (r : Reading α β ε) :
    (r.after frames').after frames = r.after (frames ++ frames') := by
  simp [after]

end Reading

namespace Framing

variable {α β ε : Type} (F : Framing α β ε)

/-- Cut all frames off a stream. -/
def read (stream : List α) : Reading α β ε :=
  match _h : F.cut stream with
  | .error e => ⟨[], some e, []⟩
  | .ok none => ⟨[], none, stream⟩
  | .ok (some (frame, rest)) => (read rest).after [frame]
termination_by stream.length
decreasing_by exact F.cut_shorter _h

variable {F} {stream rest : List α} {frame : β} {e : ε}

/-- Induction along the frames of a stream. -/
theorem frames_induction {P : List α → Prop}
    (error : ∀ stream e, F.cut stream = .error e → P stream)
    (none : ∀ stream, F.cut stream = .ok none → P stream)
    (some : ∀ stream frame rest, F.cut stream = .ok (some (frame, rest)) → P rest → P stream)
    (stream : List α) : P stream :=
  match h : F.cut stream with
  | .error e => error stream e h
  | .ok .none => none stream h
  | .ok (.some (frame, rest)) =>
    some stream frame rest h (frames_induction error none some rest)
termination_by stream.length
decreasing_by exact F.cut_shorter h

theorem read_of_error (h : F.cut stream = .error e) : F.read stream = ⟨[], some e, []⟩ := by
  rw [read]
  split <;> simp_all

theorem read_of_none (h : F.cut stream = .ok none) : F.read stream = ⟨[], none, stream⟩ := by
  rw [read]
  split <;> simp_all

theorem read_of_some (h : F.cut stream = .ok (some (frame, rest))) :
    F.read stream = (F.read rest).after [frame] := by
  rw [read]
  split <;> simp_all

/-- What a reader keeps is not yet a frame. -/
theorem cut_read_rest (h : (F.read stream).failure = none) :
    F.cut (F.read stream).rest = .ok none := by
  induction stream using F.frames_induction with
  | error stream e hcut => simp [read_of_error hcut] at h
  | none stream hcut => simpa [read_of_none hcut] using hcut
  | some stream frame rest hcut ih =>
    rw [read_of_some hcut] at h ⊢
    exact ih h

/-- More octets after a stream are read after what was kept of it. -/
theorem read_append (more : List α) (h : (F.read stream).failure = none) :
    F.read (stream ++ more) =
      (F.read ((F.read stream).rest ++ more)).after (F.read stream).frames := by
  induction stream using F.frames_induction with
  | error stream e hcut => simp [read_of_error hcut] at h
  | none stream hcut => simp [read_of_none hcut]
  | some stream frame rest hcut ih =>
    rw [read_of_some hcut] at h ⊢
    rw [read_of_some (F.cut_append more hcut), ih h, Reading.after_after]
    rfl

/-- A failure stays where it is when more octets arrive. -/
theorem read_append_of_failure (more : List α) (h : (F.read stream).failure = some e) :
    F.read (stream ++ more) = F.read stream := by
  induction stream using F.frames_induction with
  | error stream e hcut => rw [read_of_error hcut, read_of_error (F.cut_append_error more hcut)]
  | none stream hcut => simp [read_of_none hcut] at h
  | some stream frame rest hcut ih =>
    rw [read_of_some hcut] at h ⊢
    rw [read_of_some (F.cut_append more hcut), ih h]

/-! ## Streams in pieces -/

variable (F) in
/-- Read a stream that arrives in pieces, keeping what is not yet a frame. -/
def feed (kept : List α) : List (List α) → Reading α β ε
  | [] => ⟨[], none, kept⟩
  | piece :: pieces =>
    let r := F.read (kept ++ piece)
    match r.failure with
    | some _ => r
    | none => (feed r.rest pieces).after r.frames

/-- The pieces in which a stream arrives do not matter. -/
theorem feed_eq {kept : List α} (hkept : F.cut kept = .ok none) (pieces : List (List α)) :
    F.feed kept pieces = F.read (kept ++ pieces.flatten) := by
  induction pieces generalizing kept with
  | nil => simp [feed, read_of_none hkept]
  | cons piece pieces ih =>
    rw [feed, List.flatten_cons, ← List.append_assoc]
    match hfailure : (F.read (kept ++ piece)).failure with
    | some e => rw [read_append_of_failure _ hfailure]
    | none => rw [read_append _ hfailure, ih (cut_read_rest hfailure)]

end Framing

end Foundation
