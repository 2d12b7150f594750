import Mathlib.Algebra.Group.Int.Defs
import Mathlib.Algebra.Group.Nat.Defs
import Mathlib.Data.List.Flatten
import VynxDesk.Codec.Negotiation
import VynxDesk.HbbsHttp.RecordUpload

/-!
# The recorder

`Recorder` of `scrap/src/common/record.rs` writes the frames of a display to files.  It begins a new
file when the size or the format changes and when a timestamp goes back, and tells the upload what
it does.  A file begins with a key frame, is of one size and one format, and its timestamps never go
back (`recorded_of_run`); what the upload is told are the files, one after the other
(`told_of_run`).
-/

namespace VynxDesk.Record

open Codec (CodecFormat)
open RecordUpload (RecordState)

/-! ### Names -/

/-- `char::is_control`. -/
def isControl (c : Char) : Bool :=
  c.toNat < 32 ∨ (127 ≤ c.toNat ∧ c.toNat < 160)

/-- The characters that are invalid in a file name of Windows. -/
def invalidChars : List Char :=
  ['<', '>', ':', '"', '/', '\\', '|', '?', '*']

def sanitizeFilenameComponent (value : String) : String :=
  String.ofList (value.toList.map fun c => if isControl c ∨ c ∈ invalidChars then '_' else c)

/-- `CodecFormat::to_string`. -/
def toString : CodecFormat → String
  | .VP8 => "VP8"
  | .VP9 => "VP9"
  | .AV1 => "AV1"
  | .H264 => "H264"
  | .H265 => "H265"
  | .Unknown => "Unknown"

structure RecorderContext where
  server : Bool
  id : String
  dir : String
  displayIdx : ℕ
  camera : Bool
  tx : Bool
  deriving DecidableEq

/-- The formats that `WebmRecorder` writes. -/
def isWebm : CodecFormat → Bool
  | .VP8 | .VP9 | .AV1 => true
  | _ => false

/-- The name of a file, where `stamp` is the time. -/
def RecorderContext.file (ctx : RecorderContext) (format : CodecFormat) (stamp : String) : String :=
  (if ctx.server then "incoming" else "outgoing") ++ "_" ++ sanitizeFilenameComponent ctx.id
    ++ stamp ++ ((if ctx.camera then "camera" else "display") ++ ctx.displayIdx.repr ++ "_")
    ++ (toString format).toLower ++ (if isWebm format then ".webm" else ".mp4")

/-- `PathBuf::join` of a relative path, on Unix. -/
def join (dir file : String) : String :=
  if dir = "" ∨ dir.toList.getLast? = some '/' then dir ++ file else dir ++ "/" ++ file

/-! ### Files -/

structure EncodedVideoFrame where
  data : List UInt8
  key : Bool
  pts : ℤ
  deriving DecidableEq

/-- `video_frame::Union`; `other` is a variant without a codec. -/
inductive VideoFrame where
  | vp8s (frames : List EncodedVideoFrame)
  | vp9s (frames : List EncodedVideoFrame)
  | av1s (frames : List EncodedVideoFrame)
  | h264s (frames : List EncodedVideoFrame)
  | h265s (frames : List EncodedVideoFrame)
  | other
  deriving DecidableEq

/-- `CodecFormat::from`. -/
def VideoFrame.format : VideoFrame → CodecFormat
  | .vp8s _ => .VP8
  | .vp9s _ => .VP9
  | .av1s _ => .AV1
  | .h264s _ => .H264
  | .h265s _ => .H265
  | .other => .Unknown

def VideoFrame.frames : VideoFrame → List EncodedVideoFrame
  | .vp8s frames | .vp9s frames | .av1s frames | .h264s frames | .h265s frames => frames
  | .other => []

/-- A frame, with the size and the format it came with. -/
structure Picture where
  frame : EncodedVideoFrame
  width : ℕ
  height : ℕ
  format : CodecFormat
  deriving DecidableEq

/-- What a muxer was given, and whether it took it. -/
structure Packet where
  picture : Picture
  ok : Bool
  deriving DecidableEq

/-- The time that `WebmRecorder` gives its muxer: `pts as u64 * 1_000_000`. -/
def Packet.timestamp (p : Packet) : ℕ :=
  (p.picture.frame.pts % 2 ^ 64).toNat * 1000000 % 2 ^ 64

/-- `RecorderContext2`. -/
structure RecorderContext2 where
  filename : String
  width : ℕ
  height : ℕ
  format : CodecFormat
  deriving DecidableEq

/-- `WebmRecorder` or `HwRecorder`, with what its muxer was given, and how often the upload was told
of a frame. -/
structure Writer where
  ctx2 : RecorderContext2
  key : Bool := false
  written : Bool := false
  packets : List Packet := []
  newFrames : ℕ := 0
  deriving DecidableEq

/-- `write_video`: the muxer gets nothing before a key frame. -/
def Writer.writeVideo (f : Writer) (picture : Picture) (ok : Bool) : Writer :=
  let key := f.key || picture.frame.key
  if key then
    { f with key, written := f.written || ok, packets := f.packets ++ [⟨picture, ok⟩] }
  else { f with key }

/-- The upload is told of a frame. -/
def Writer.told (f : Writer) : Writer :=
  { f with newFrames := f.newFrames + 1 }

/-! ### The recorder -/

/-- What the recorder meets: the time for a name, unless the directory cannot be made; whether a
file can be created; how many seconds the file that is dropped was open; whether the muxer takes a
frame. -/
structure Env where
  stamp : Option String := some ""
  created : Bool := true
  elapsed : ℕ := 0
  added : Bool := true

/-- `Recorder`, with the files it is done with, each with whether it was kept, and what it has sent
to the upload. -/
structure Recorder where
  ctx : RecorderContext
  inner : Option Writer := none
  ctx2 : Option RecorderContext2 := none
  pts : Option ℤ := none
  checkFailed : Bool := false
  closed : List (Writer × Bool) := []
  sent : List RecordState := []

/-- `MIN_SECS`. -/
def minSecs : ℕ := 1

namespace Recorder

/-- `send_state`. -/
def sendState (r : Recorder) (state : RecordState) : Recorder :=
  { r with sent := if r.ctx.tx then r.sent ++ [state] else r.sent }

/-- The drop of `inner`: a file in which nothing was written, or of less than a second, is
removed. -/
def dropInner (r : Recorder) (env : Env) : Recorder :=
  match r.inner with
  | none => r
  | some f =>
      let kept := f.written && minSecs ≤ env.elapsed
      { r with inner := none, closed := r.closed ++ [(f, kept)] }.sendState
        (if kept then .writeTail else .removeFile)

/-- `NewFrame` is sent. -/
def notify (r : Recorder) : Recorder :=
  sendState { r with inner := r.inner.map Writer.told } .newFrame

/-- `set_filename` of a context for a size and a format. -/
def setFilename (r : Recorder) (w h : ℕ) (format : CodecFormat) (env : Env) :
    Option RecorderContext2 :=
  env.stamp.map fun stamp => ⟨join r.ctx.dir (r.ctx.file format stamp), w, h, format⟩

/-- The end of `check`: without a file, one is created. -/
def create (hwcodec : Bool) (r : Recorder) (format : CodecFormat) (env : Env) : Bool × Recorder :=
  match r.ctx2 with
  | none => (false, r)
  | some ctx2 =>
      if r.inner.isSome then (true, r)
      else if env.created ∧ (isWebm format ∨ hwcodec) then
        (true, { r with inner := some { ctx2 }, pts := none }.sendState (.newFile ctx2.filename))
      else (false, r)

/-- `check`: whether it succeeds, and the recorder. -/
def check (hwcodec : Bool) (r : Recorder) (w h : ℕ) (format : CodecFormat) (env : Env) :
    Bool × Recorder :=
  if r.ctx2.any fun ctx2 => ctx2.width = w ∧ ctx2.height = h ∧ ctx2.format = format then
    r.create hwcodec format env
  else
    match r.setFilename w h format env with
    | none => (false, r)
    | some ctx2 => ({ r with ctx2 := some ctx2 }.dropInner env).create hwcodec format env

/-- `check_pts`: a timestamp that goes back begins a new file. -/
def checkPts (hwcodec : Bool) (r : Recorder) (pts : ℤ) (key : Bool) (w h : ℕ)
    (format : CodecFormat) (env : Env) : Bool × Recorder :=
  if r.pts.isNone ∧ !key then (false, r)
  else if pts < r.pts.getD 0 then
    let res := ({ r with pts := some pts, ctx2 := none }.dropInner env).check hwcodec w h format env
    if res.1 then (true, { res.2 with pts := some pts })
    else (false, { res.2 with checkFailed := true })
  else (true, { r with pts := some pts })

/-- `write_video` of the file, if there is one. -/
def writeVideo (r : Recorder) (picture : Picture) (env : Env) : Recorder :=
  { r with inner := r.inner.map fun f => f.writeVideo picture env.added }

/-- The frames of a message from the one with number `i` on, which meets `env i`. -/
def writeFrames (hwcodec : Bool) (w h : ℕ) (format : CodecFormat) (env : ℕ → Env) :
    ℕ → List EncodedVideoFrame → Recorder → Bool × Recorder
  | _, [], r => (true, r)
  | i, frame :: frames, r =>
      let res := r.checkPts hwcodec frame.pts frame.key w h format (env i)
      if res.1 then
        writeFrames hwcodec w h format env (i + 1) frames
          (res.2.writeVideo ⟨frame, w, h, format⟩ (env i))
      else res

end Recorder

/-- A call of `write_frame`, and what it meets: at first, and at each frame. -/
structure Write where
  frame : VideoFrame
  w : ℕ
  h : ℕ
  first : Env := {}
  env : ℕ → Env := fun _ => {}

/-- `write_frame`. -/
def Recorder.writeFrame (hwcodec : Bool) (r : Recorder) (x : Write) : Bool × Recorder :=
  if r.checkFailed then (false, r)
  else if x.frame.format = .Unknown then (false, r)
  else
    let res := r.check hwcodec x.w x.h x.frame.format x.first
    if res.1 then
      let res := res.2.writeFrames hwcodec x.w x.h x.frame.format x.env 0 x.frame.frames
      if res.1 then (true, res.2.notify) else res
    else (false, { res.2 with checkFailed := true })

/-- A call of the recorder. -/
def Step (hwcodec : Bool) (r : Recorder) (x : Write) (r' : Recorder) : Prop :=
  r' = (r.writeFrame hwcodec x).2

/-! ### What holds along a run -/

/-- What the muxer of a file was given: a key frame first, timestamps that never go back, and all of
the size and the format of the file. -/
structure Writer.Valid (f : Writer) : Prop where
  key : f.key = true ↔ f.packets ≠ []
  first : ∀ p, f.packets.head? = some p → p.picture.frame.key = true
  sorted : (f.packets.map fun p => p.picture.frame.pts).Pairwise (· ≤ ·)
  same : ∀ p ∈ f.packets, p.picture.width = f.ctx2.width ∧ p.picture.height = f.ctx2.height
    ∧ p.picture.format = f.ctx2.format
  written : f.written = f.packets.any Packet.ok

/-- What the upload is told of a file that is open. -/
def Writer.states (f : Writer) : List RecordState :=
  .newFile f.ctx2.filename :: List.replicate f.newFrames .newFrame

/-- What the upload is told of a file that is closed. -/
def closedStates (x : Writer × Bool) : List RecordState :=
  x.1.states ++ [if x.2 then .writeTail else .removeFile]

namespace Recorder

/-- All files, in the order in which they were begun. -/
def writers (r : Recorder) : List Writer :=
  r.closed.map Prod.fst ++ r.inner.toList

/-- All that the muxers were given, in order. -/
def pictures (r : Recorder) : List Picture :=
  r.writers.flatMap fun f => f.packets.map Packet.picture

/-- What the upload is told of all files. -/
def states (r : Recorder) : List RecordState :=
  r.closed.flatMap closedStates ++ r.inner.toList.flatMap Writer.states

/-- The recorder has a file for a size and a format. -/
def Fits (r : Recorder) (w h : ℕ) (format : CodecFormat) : Prop :=
  ∃ f, r.inner = some f ∧ f.ctx2.width = w ∧ f.ctx2.height = h ∧ f.ctx2.format = format

end Recorder

/-- The invariant: the files are valid, what is kept was written, the last timestamp is not before
those of the open file, and the upload was told of the files. -/
structure Inv (r : Recorder) : Prop where
  valid : ∀ f ∈ r.writers, f.Valid
  kept : ∀ x ∈ r.closed, x.2 = true → x.1.written = true
  ctx2 : ∀ f, r.inner = some f → r.ctx2 = some f.ctx2
  pts : ∀ f, r.inner = some f → f.packets ≠ [] →
    ∃ pts, r.pts = some pts ∧ ∀ p ∈ f.packets, p.picture.frame.pts ≤ pts
  sent : r.sent = if r.ctx.tx then r.states else []

variable {r : Recorder} (hwcodec : Bool) (w h : ℕ) (format : CodecFormat) (env : Env)

theorem Inv.start (ctx : RecorderContext) :
  Inv { ctx }
  := by
  constructor <;> simp [Recorder.writers, Recorder.states]

/-- Behind a drop there is no file, and the upload was told. -/
theorem Inv.dropInner (hinv : Inv r) (ctx2 : Option RecorderContext2) (pts : Option ℤ) :
  Inv (Recorder.dropInner { r with ctx2, pts } env) ∧
    (Recorder.dropInner { r with ctx2, pts } env).pictures = r.pictures ∧
    (Recorder.dropInner { r with ctx2, pts } env).inner = none ∧
    (Recorder.dropInner { r with ctx2, pts } env).ctx2 = ctx2
  := by
  obtain hinner | ⟨f, hinner⟩ := r.inner.eq_none_or_eq_some
  · have hdrop : Recorder.dropInner { r with ctx2, pts } env = { r with ctx2, pts } := by
      simp only [Recorder.dropInner, hinner]
    rw [hdrop]
    refine ⟨⟨hinv.valid, hinv.kept, ?_, ?_, hinv.sent⟩, rfl, hinner, rfl⟩
    · intro f hf
      rw [hinner] at hf
      cases hf
    · intro f hf
      rw [hinner] at hf
      cases hf
  · simp only [Recorder.dropInner, hinner]
    generalize hkept : (f.written && decide (minSecs ≤ env.elapsed)) = kept
    have hwriters : (r.closed ++ [(f, kept)]).map Prod.fst ++ [] = r.writers := by
      simp [Recorder.writers, hinner]
    refine ⟨⟨?_, ?_, ?_, ?_, ?_⟩, ?_, rfl, rfl⟩
    · change ∀ f' ∈ (r.closed ++ [(f, kept)]).map Prod.fst ++ [], f'.Valid
      rw [hwriters]
      exact hinv.valid
    · change ∀ x ∈ r.closed ++ [(f, kept)], _
      intro x hx hx2
      rw [List.mem_append, List.mem_singleton] at hx
      rcases hx with hx | rfl
      · exact hinv.kept x hx hx2
      · obtain rfl : kept = true := hx2
        exact (Bool.and_eq_true_iff.mp hkept).1
    · intro f' hf'
      cases hf'
    · intro f' hf'
      cases hf'
    · change (if r.ctx.tx then r.sent ++ [_] else r.sent) =
        if r.ctx.tx then (r.closed ++ [(f, kept)]).flatMap closedStates ++ [] else []
      rw [hinv.sent]
      by_cases htx : r.ctx.tx = true
      · rw [if_pos htx, if_pos htx, if_pos htx]
        simp [Recorder.states, hinner, closedStates]
      · rw [if_neg htx, if_neg htx, if_neg htx]
    · change ((r.closed ++ [(f, kept)]).map Prod.fst ++ []).flatMap _ = _
      rw [hwriters, Recorder.pictures]

/-- What `create` and `check` do: the files are those before and perhaps a new one; when they
succeed, there is a file, and it is new when there was none. -/
structure Checked (r : Recorder) (res : Bool × Recorder) : Prop where
  inv : Inv res.2
  pictures : res.2.pictures = r.pictures
  fits : res.1 = true → ∃ f, res.2.inner = some f
  fresh : r.inner = none → res.1 = true → res.2.pts = none

theorem Inv.create (hinv : Inv r) :
  Checked r (r.create hwcodec format env)
  := by
  have hfail : Checked r (false, r) := ⟨hinv, rfl, nofun, nofun⟩
  rw [Recorder.create]
  split
  · exact hfail
  · rename_i ctx2 hctx2
    split_ifs with hsome hcreated
    · obtain ⟨f, hinner⟩ := Option.isSome_iff_exists.mp hsome
      refine ⟨hinv, rfl, fun _ => ⟨f, hinner⟩, ?_⟩
      intro hnone
      rw [hnone] at hsome
      cases hsome
    · have hinner : r.inner = none := Option.not_isSome_iff_eq_none.mp hsome
      have hwriters : r.writers = r.closed.map Prod.fst := by
        simp [Recorder.writers, hinner]
      refine ⟨⟨?_, hinv.kept, ?_, ?_, ?_⟩, ?_, fun _ => ⟨_, rfl⟩, fun _ _ => rfl⟩
      · intro f hf
        change f ∈ r.closed.map Prod.fst ++ [({ ctx2 } : Writer)] at hf
        rw [List.mem_append, List.mem_singleton] at hf
        rcases hf with hf | rfl
        · exact hinv.valid f (hwriters ▸ hf)
        · exact ⟨by simp, by simp, .nil, by simp, rfl⟩
      · intro f hf
        cases hf
        exact hctx2
      · intro f hf hne
        cases hf
        exact absurd rfl hne
      · change (if r.ctx.tx then r.sent ++ [_] else r.sent) =
          if r.ctx.tx then r.closed.flatMap closedStates ++ [Writer.states { ctx2 }].flatten else []
        rw [hinv.sent]
        by_cases htx : r.ctx.tx = true
        · rw [if_pos htx, if_pos htx, if_pos htx]
          simp [Recorder.states, hinner, Writer.states]
        · rw [if_neg htx, if_neg htx, if_neg htx]
      · change (r.closed.map Prod.fst ++ [({ ctx2 } : Writer)]).flatMap _ = _
        simp [Recorder.pictures, hwriters]
    · exact hfail

theorem create_ctx2 :
  (r.create hwcodec format env).2.ctx2 = r.ctx2
  := by
  rw [Recorder.create]
  split
  · rfl
  · split_ifs <;> rfl

/-- With a context for a size and a format, `create` makes a file for them. -/
theorem Inv.fits_create (hinv : Inv r) {ctx2 : RecorderContext2} (hctx2 : r.ctx2 = some ctx2)
    (hok : (r.create hwcodec format env).1 = true) :
  (r.create hwcodec format env).2.Fits ctx2.width ctx2.height ctx2.format
  := by
  have hchecked := hinv.create hwcodec format env
  obtain ⟨f, hinner⟩ := hchecked.fits hok
  have heq := hchecked.inv.ctx2 f hinner
  rw [create_ctx2, hctx2] at heq
  obtain rfl := Option.some.inj heq
  exact ⟨f, hinner, rfl, rfl, rfl⟩

theorem Inv.check (hinv : Inv r) :
  Checked r (r.check hwcodec w h format env) ∧
    ((r.check hwcodec w h format env).1 = true →
      (r.check hwcodec w h format env).2.Fits w h format)
  := by
  rw [Recorder.check]
  split_ifs with hsame
  · refine ⟨hinv.create hwcodec format env, ?_⟩
    intro hok
    obtain hctx2 | ⟨ctx2, hctx2⟩ := r.ctx2.eq_none_or_eq_some
    · rw [hctx2] at hsame
      cases hsame
    · rw [hctx2, Option.any_some, decide_eq_true_eq] at hsame
      obtain ⟨rfl, rfl, hformat⟩ := hsame
      obtain ⟨f, hinner, hwidth, hheight, hf⟩ := hinv.fits_create hwcodec format env hctx2 hok
      exact ⟨f, hinner, hwidth, hheight, hf.trans hformat⟩
  · split
    · exact ⟨⟨hinv, rfl, nofun, nofun⟩, nofun⟩
    · rename_i ctx2 hfilename
      obtain ⟨hinv', hpictures, hinner, hctx2⟩ := hinv.dropInner env (some ctx2) r.pts
      have hchecked := hinv'.create hwcodec format env
      refine ⟨⟨hchecked.inv, hchecked.pictures.trans hpictures, hchecked.fits, ?_⟩, ?_⟩
      · intro _ hok
        exact hchecked.fresh hinner hok
      · intro hok
        obtain ⟨stamp, -, rfl⟩ := Option.map_eq_some_iff.mp hfilename
        exact hinv'.fits_create hwcodec format env hctx2 hok

/-- A timestamp that does not go back is remembered. -/
theorem Inv.remember (hinv : Inv r) {pts : ℤ} (hpts : ∀ old, r.pts = some old → old ≤ pts) :
  Inv { r with pts := some pts }
  := by
  refine ⟨hinv.valid, hinv.kept, hinv.ctx2, ?_, hinv.sent⟩
  intro f hinner hne
  obtain ⟨old, hold, hle⟩ := hinv.pts f hinner hne
  exact ⟨pts, rfl, fun p hp => (hle p hp).trans (hpts old hold)⟩

/-- `check_pts` keeps what the muxers were given; when it succeeds, there is a file for the frame
and no later timestamp in it. -/
theorem Inv.checkPts (hinv : Inv r) (pts : ℤ) (key : Bool) (hfits : r.Fits w h format) :
  Inv (r.checkPts hwcodec pts key w h format env).2 ∧
    (r.checkPts hwcodec pts key w h format env).2.pictures = r.pictures ∧
    ((r.checkPts hwcodec pts key w h format env).1 = true →
      (r.checkPts hwcodec pts key w h format env).2.Fits w h format ∧
        (r.checkPts hwcodec pts key w h format env).2.pts = some pts)
  := by
  rw [Recorder.checkPts]
  split_ifs with hfirst hback
  · exact ⟨hinv, rfl, nofun⟩
  · obtain ⟨hinv', hpictures, hinner, -⟩ := hinv.dropInner env none (some pts)
    have hcheck := hinv'.check hwcodec w h format env
    dsimp only
    generalize Recorder.check hwcodec _ w h format env = res at hcheck ⊢
    obtain ⟨hchecked, hfits'⟩ := hcheck
    have hsame := hchecked.pictures.trans hpictures
    have hkept := hchecked.inv
    split_ifs with hres
    · have hnone := hchecked.fresh hinner hres
      refine ⟨hkept.remember ?_, hsame, fun _ => ⟨hfits' hres, rfl⟩⟩
      intro old hold
      rw [hnone] at hold
      cases hold
    · exact ⟨⟨hkept.valid, hkept.kept, hkept.ctx2, hkept.pts, hkept.sent⟩, hsame, nofun⟩
  · refine ⟨hinv.remember ?_, rfl, fun _ => ⟨hfits, rfl⟩⟩
    intro old hold
    rw [hold, Option.getD_some] at hback
    exact not_lt.mp hback

/-- The first packet of a list that grows at its end. -/
theorem first_append {packets : List Packet} {p : Packet}
    (hfirst : ∀ q, packets.head? = some q → q.picture.frame.key = true)
    (hkey : packets = [] → p.picture.frame.key = true) (q : Packet)
    (hq : (packets ++ [p]).head? = some q) :
  q.picture.frame.key = true
  := by
  cases packets with
  | nil =>
      obtain rfl := Option.some.inj hq
      exact hkey rfl
  | cons first packets => exact hfirst q hq

/-- What `write_video` leaves as it is, and what it adds. -/
theorem Writer.writeVideo_eq (f : Writer) (picture : Picture) (ok : Bool) :
  (f.writeVideo picture ok).ctx2 = f.ctx2 ∧ (f.writeVideo picture ok).newFrames = f.newFrames ∧
    ((f.writeVideo picture ok).packets = f.packets ++ [⟨picture, ok⟩] ∨
      (f.writeVideo picture ok).packets = f.packets ∧ picture.frame.key = false)
  := by
  rw [Writer.writeVideo]
  split_ifs with hkey
  · exact ⟨rfl, rfl, .inl rfl⟩
  · refine ⟨rfl, rfl, .inr ⟨rfl, ?_⟩⟩
    simp only [Bool.or_eq_true, not_or, Bool.not_eq_true] at hkey
    exact hkey.2

/-- A frame for a file, not before what the file has, keeps the file valid. -/
theorem Writer.Valid.writeVideo {f : Writer} (hf : f.Valid) {picture : Picture} (ok : Bool)
    (hpts : ∀ p ∈ f.packets, p.picture.frame.pts ≤ picture.frame.pts)
    (hsame : picture.width = f.ctx2.width ∧ picture.height = f.ctx2.height
      ∧ picture.format = f.ctx2.format) :
  (f.writeVideo picture ok).Valid
  := by
  rw [Writer.writeVideo]
  split_ifs with hkey
  · refine ⟨?_, ?_, ?_, ?_, ?_⟩
    · simp [hkey]
    · apply first_append hf.first
      intro hnil
      cases hold : f.key with
      | false => simpa [hold] using hkey
      | true => exact absurd hnil (hf.key.mp hold)
    · rw [List.map_append, List.pairwise_append]
      refine ⟨hf.sorted, List.pairwise_singleton _ _, ?_⟩
      intro pts hmem pts' hmem'
      obtain ⟨p, hp, rfl⟩ := List.mem_map.mp hmem
      obtain rfl := List.mem_singleton.mp hmem'
      exact hpts p hp
    · intro p hp
      rw [List.mem_append, List.mem_singleton] at hp
      rcases hp with hp | rfl
      · exact hf.same p hp
      · exact hsame
    · simp [hf.written]
  · have hold : f.key = false := by
      simp only [Bool.or_eq_true, not_or, Bool.not_eq_true] at hkey
      exact hkey.1
    refine ⟨?_, hf.first, hf.sorted, hf.same, hf.written⟩
    have hnew : (f.key || picture.frame.key) = f.key := by
      rw [hold]
      simpa [hold] using hkey
    change (f.key || picture.frame.key) = true ↔ f.packets ≠ []
    rw [hnew]
    exact hf.key

variable {w h format}

theorem mem_writers {f : Writer} (hinner : r.inner = some f) :
  f ∈ r.writers
  := by
  simp [Recorder.writers, hinner]

/-- A frame that is written keeps the invariant; it goes to the file, or is left out before a first
key frame. -/
theorem Inv.writeVideo (hinv : Inv r) (picture : Picture)
    (hfits : r.Fits picture.width picture.height picture.format)
    (hpts : r.pts = some picture.frame.pts) :
  Inv (r.writeVideo picture env) ∧
    (r.writeVideo picture env).Fits picture.width picture.height picture.format ∧
    ((r.writeVideo picture env).pictures = r.pictures ++ [picture] ∨
      (r.writeVideo picture env).pictures = r.pictures ∧ picture.frame.key = false)
  := by
  obtain ⟨f, hinner, hwidth, hheight, hformat⟩ := hfits
  have hwrite : r.writeVideo picture env
      = { r with inner := some (f.writeVideo picture env.added) } := by
    rw [Recorder.writeVideo, hinner]
    rfl
  have hbefore : ∀ p ∈ f.packets, p.picture.frame.pts ≤ picture.frame.pts := by
    intro p hp
    obtain ⟨old, hold, hle⟩ := hinv.pts f hinner (List.ne_nil_of_mem hp)
    rw [hpts] at hold
    obtain rfl := Option.some.inj hold
    exact hle p hp
  have hvalid := (hinv.valid f (mem_writers hinner)).writeVideo env.added hbefore
    ⟨hwidth.symm, hheight.symm, hformat.symm⟩
  obtain ⟨hctx2, hnew, hpackets⟩ := f.writeVideo_eq picture env.added
  rw [hwrite]
  generalize f.writeVideo picture env.added = g at hvalid hctx2 hnew hpackets ⊢
  refine ⟨⟨?_, hinv.kept, ?_, ?_, ?_⟩, ?_, ?_⟩
  · change ∀ f' ∈ r.closed.map Prod.fst ++ [g], f'.Valid
    intro f' hf'
    rw [List.mem_append, List.mem_singleton] at hf'
    rcases hf' with hf' | rfl
    · exact hinv.valid f' (List.mem_append_left _ hf')
    · exact hvalid
  · intro f' hf'
    cases hf'
    rw [hctx2]
    exact hinv.ctx2 f hinner
  · intro f' hf' _
    cases hf'
    refine ⟨picture.frame.pts, hpts, ?_⟩
    intro p hp
    rcases hpackets with heq | ⟨heq, -⟩
    · rw [heq, List.mem_append, List.mem_singleton] at hp
      rcases hp with hp | rfl
      · exact hbefore p hp
      · exact le_refl _
    · exact hbefore p (heq ▸ hp)
  · rw [hinv.sent]
    change (if r.ctx.tx then r.states else []) =
      if r.ctx.tx then r.closed.flatMap closedStates ++ [g].flatMap Writer.states else []
    rw [Recorder.states, hinner, Option.toList_some, List.flatMap_singleton, List.flatMap_singleton,
      Writer.states, Writer.states, hctx2, hnew]
  · exact ⟨g, rfl, hctx2 ▸ hwidth, hctx2 ▸ hheight, hctx2 ▸ hformat⟩
  · have hg : ({ r with inner := some g } : Recorder).pictures
        = r.closed.flatMap (fun x => x.1.packets.map Packet.picture)
          ++ g.packets.map Packet.picture := by
      change (r.closed.map Prod.fst ++ [g]).flatMap _ = _
      rw [List.flatMap_append, List.flatMap_map, List.flatMap_singleton]
    have hf : r.pictures = r.closed.flatMap (fun x => x.1.packets.map Packet.picture)
        ++ f.packets.map Packet.picture := by
      rw [Recorder.pictures, Recorder.writers, hinner, Option.toList_some, List.flatMap_append,
        List.flatMap_map, List.flatMap_singleton]
    rw [hg, hf]
    rcases hpackets with heq | ⟨heq, hkey⟩
    · left
      rw [heq, List.map_append, List.map_singleton, List.append_assoc]
    · right
      rw [heq]
      exact ⟨rfl, hkey⟩

/-- What a call does for the pictures of its message: the muxers are given some of them, in order,
and when it succeeds, all key frames. -/
structure Given (r : Recorder) (pictures : List Picture) (res : Bool × Recorder) : Prop where
  inv : Inv res.2
  given : ∃ l, l.Sublist pictures ∧ res.2.pictures = r.pictures ++ l ∧
    (res.1 = true → ∀ p ∈ pictures, p.frame.key = true → p ∈ l)

theorem Given.nothing {pictures : List Picture} {res : Bool × Recorder} (hinv : Inv res.2)
    (hpictures : res.2.pictures = r.pictures) (hfail : res.1 = false) :
  Given r pictures res
  := by
  refine ⟨hinv, [], List.nil_sublist _, ?_, ?_⟩
  · rw [hpictures, List.append_nil]
  · rw [hfail]
    nofun

theorem Inv.writeFrames (w h : ℕ) (format : CodecFormat) (env : ℕ → Env)
    (frames : List EncodedVideoFrame) :
  ∀ {r : Recorder} (i : ℕ), Inv r → r.Fits w h format →
    Given r (frames.map fun frame => ⟨frame, w, h, format⟩)
        (r.writeFrames hwcodec w h format env i frames) ∧
      ((r.writeFrames hwcodec w h format env i frames).1 = true →
        (r.writeFrames hwcodec w h format env i frames).2.Fits w h format)
  := by
  induction frames with
  | nil =>
      intro r i hinv hfits
      refine ⟨⟨hinv, [], List.Sublist.refl _, (List.append_nil _).symm, ?_⟩, fun _ => hfits⟩
      simp
  | cons frame frames ih =>
      intro r i hinv hfits
      have hcheck := hinv.checkPts hwcodec w h format (env i) frame.pts frame.key hfits
      rw [Recorder.writeFrames]
      generalize r.checkPts hwcodec frame.pts frame.key w h format (env i) = res at hcheck ⊢
      obtain ⟨hinv', hpictures, hok⟩ := hcheck
      split_ifs with hres
      · obtain ⟨hfits', hpts⟩ := hok hres
        obtain ⟨hinv'', hfits'', hgiven⟩ :=
          hinv'.writeVideo (env i) ⟨frame, w, h, format⟩ hfits' hpts
        obtain ⟨⟨hrest, l, hsub, hl, hkeys⟩, hfits⟩ := ih (i + 1) hinv'' hfits''
        refine ⟨⟨hrest, ?_⟩, hfits⟩
        rcases hgiven with hgiven | ⟨hgiven, hkey⟩
        · refine ⟨⟨frame, w, h, format⟩ :: l, hsub.cons_cons _, ?_, ?_⟩
          · rw [hl, hgiven, hpictures, List.append_assoc]
            rfl
          · intro hend p hp hpkey
            rw [List.map_cons, List.mem_cons] at hp
            rcases hp with rfl | hp
            · exact List.mem_cons_self
            · exact List.mem_cons_of_mem _ (hkeys hend p hp hpkey)
        · refine ⟨l, hsub.cons _, ?_, ?_⟩
          · rw [hl, hgiven, hpictures]
          · intro hend p hp hpkey
            rw [List.map_cons, List.mem_cons] at hp
            rcases hp with rfl | hp
            · rw [hkey] at hpkey
              cases hpkey
            · exact hkeys hend p hp hpkey
      · exact ⟨.nothing hinv' hpictures (Bool.eq_false_of_not_eq_true hres), fun h => absurd h hres⟩

/-- The upload is told of a frame of the open file. -/
theorem Inv.notify (hinv : Inv r) {f : Writer} (hinner : r.inner = some f) :
  Inv r.notify ∧ r.notify.pictures = r.pictures
  := by
  have hnotify : r.notify =
      { r with
        inner := some f.told, sent := if r.ctx.tx then r.sent ++ [.newFrame] else r.sent } := by
    rw [Recorder.notify, hinner]
    rfl
  have hvalid := hinv.valid f (mem_writers hinner)
  rw [hnotify]
  refine ⟨⟨?_, hinv.kept, ?_, ?_, ?_⟩, ?_⟩
  · change ∀ f' ∈ r.closed.map Prod.fst ++ [f.told], f'.Valid
    intro f' hf'
    rw [List.mem_append, List.mem_singleton] at hf'
    rcases hf' with hf' | rfl
    · exact hinv.valid f' (List.mem_append_left _ hf')
    · exact ⟨hvalid.key, hvalid.first, hvalid.sorted, hvalid.same, hvalid.written⟩
  · intro f' hf'
    cases hf'
    exact hinv.ctx2 f hinner
  · intro f' hf'
    cases hf'
    exact hinv.pts f hinner
  · change (if r.ctx.tx then r.sent ++ [_] else r.sent) =
      if r.ctx.tx then r.closed.flatMap closedStates ++ [f.told].flatMap Writer.states else []
    rw [hinv.sent]
    by_cases htx : r.ctx.tx = true
    · rw [if_pos htx, if_pos htx, if_pos htx]
      simp [Recorder.states, hinner, Writer.states, Writer.told, List.replicate_succ']
    · rw [if_neg htx, if_neg htx, if_neg htx]
  · rw [Recorder.pictures, Recorder.pictures, Recorder.writers, Recorder.writers, hinner]
    simp [Writer.told]

/-- The pictures of a call. -/
def Write.pictures (x : Write) : List Picture :=
  x.frame.frames.map fun frame => ⟨frame, x.w, x.h, x.frame.format⟩

theorem Inv.writeFrame (hinv : Inv r) (x : Write) :
  Given r x.pictures (r.writeFrame hwcodec x)
  := by
  rw [Recorder.writeFrame]
  split_ifs with hfailed hunknown
  · exact .nothing hinv rfl rfl
  · exact .nothing hinv rfl rfl
  · have hcheck := hinv.check hwcodec x.w x.h x.frame.format x.first
    generalize r.check hwcodec x.w x.h x.frame.format x.first = res at hcheck ⊢
    obtain ⟨hchecked, hfits⟩ := hcheck
    have hkept := hchecked.inv
    dsimp only
    by_cases hres : res.1 = true
    · rw [if_pos hres]
      have hframes := hkept.writeFrames hwcodec x.w x.h x.frame.format x.env x.frame.frames 0
        (hfits hres)
      generalize res.2.writeFrames hwcodec x.w x.h x.frame.format x.env 0 x.frame.frames = res'
        at hframes ⊢
      obtain ⟨⟨hinv', l, hsub, hl, hkeys⟩, hfits'⟩ := hframes
      rw [hchecked.pictures] at hl
      split_ifs with hres'
      · obtain ⟨f, hinner, -⟩ := hfits' hres'
        obtain ⟨hinv'', hsame⟩ := hinv'.notify hinner
        exact ⟨hinv'', l, hsub, hsame.trans hl, fun _ => hkeys hres'⟩
      · exact ⟨hinv', l, hsub, hl, hkeys⟩
    · rw [if_neg hres]
      exact .nothing ⟨hkept.valid, hkept.kept, hkept.ctx2, hkept.pts, hkept.sent⟩
        hchecked.pictures rfl

/-- The pictures of the calls of a run. -/
def offered (h : List (Recorder × Write)) : List Picture :=
  h.flatMap fun x => x.2.pictures

/-- Along a run the invariant holds, the muxers are given pictures in order, and those with a key
frame of a call that succeeds are among them. -/
theorem given_of_run {ctx : RecorderContext} {h : List (Recorder × Write)}
    (hrun : Run (Step hwcodec) { ctx } h r) :
  Inv r ∧ r.pictures.Sublist (offered h) ∧
    ∀ x ∈ h, (x.1.writeFrame hwcodec x.2).1 = true →
      ∀ p ∈ x.2.pictures, p.frame.key = true → p ∈ r.pictures
  := by
  apply hrun.history_invariant fun h r => Inv r ∧ r.pictures.Sublist (offered h) ∧
    ∀ x ∈ h, (x.1.writeFrame hwcodec x.2).1 = true →
      ∀ p ∈ x.2.pictures, p.frame.key = true → p ∈ r.pictures
  · refine ⟨.start ctx, List.Sublist.refl _, ?_⟩
    intro x hx
    cases hx
  · rintro h r x r' - ⟨hinv, hsub, hkeys⟩ hstep
    rw [Step] at hstep
    obtain ⟨hinv', l, hl, hpictures, hkeys'⟩ := hinv.writeFrame hwcodec x
    rw [← hstep] at hinv' hpictures
    refine ⟨hinv', ?_, ?_⟩
    · rw [hpictures, offered, List.flatMap_append, List.flatMap_singleton]
      exact hsub.append hl
    · intro y hy hok p hp hkey
      rw [hpictures, List.mem_append]
      rw [List.mem_append, List.mem_singleton] at hy
      rcases hy with hy | rfl
      · exact .inl (hkeys y hy hok p hp hkey)
      · exact .inr (hkeys' hok p hp hkey)

/-- The time for the muxer, unless the timestamp is negative or too large. -/
theorem timestamp_eq {p : Packet} (hp : 0 ≤ p.picture.frame.pts)
    (hlt : p.picture.frame.pts * 1000000 < 2 ^ 64) :
  p.timestamp = p.picture.frame.pts.toNat * 1000000
  := by
  have hpts : p.picture.frame.pts < 2 ^ 64 := by omega
  rw [Packet.timestamp, Int.emod_eq_of_lt hp hpts]
  apply Nat.mod_eq_of_lt
  omega

/-- The times for the muxer of a valid file. -/
theorem Writer.Valid.timestamps {f : Writer} (hf : f.Valid)
    (hrange : ∀ p ∈ f.packets, 0 ≤ p.picture.frame.pts ∧ p.picture.frame.pts * 1000000 < 2 ^ 64) :
  (f.packets.map Packet.timestamp).Pairwise (· ≤ ·)
  := by
  rw [List.pairwise_map]
  apply (List.pairwise_map.mp hf.sorted).imp_of_mem
  intro p q hp hq hle
  rw [timestamp_eq (hrange p hp).1 (hrange p hp).2, timestamp_eq (hrange q hq).1 (hrange q hq).2]
  exact Nat.mul_le_mul_right _ (Int.toNat_le_toNat hle)

/-- In every run what the muxer of a file is given begins with a key frame, has timestamps that never
go back, and is of one size and one format; no frame is given twice or out of order, and the key
frames of the calls that succeed are all given to a muxer.  A frame that the muxer refuses was given
to it, too. -/
theorem recorded_of_run {ctx : RecorderContext} {h : List (Recorder × Write)}
    (hrun : Run (Step hwcodec) { ctx } h r) :
  (∀ f ∈ r.writers, (∀ p, f.packets.head? = some p → p.picture.frame.key = true) ∧
      (f.packets.map fun p => p.picture.frame.pts).Pairwise (· ≤ ·) ∧
      (∀ p ∈ f.packets, p.picture.width = f.ctx2.width ∧ p.picture.height = f.ctx2.height ∧
        p.picture.format = f.ctx2.format) ∧
      ((∀ p ∈ f.packets, 0 ≤ p.picture.frame.pts ∧ p.picture.frame.pts * 1000000 < 2 ^ 64) →
        (f.packets.map Packet.timestamp).Pairwise (· ≤ ·))) ∧
    (r.writers.flatMap fun f => f.packets.map Packet.picture).Sublist (offered h) ∧
    ∀ x ∈ h, (x.1.writeFrame hwcodec x.2).1 = true → ∀ p ∈ x.2.pictures, p.frame.key = true →
      p ∈ r.writers.flatMap fun f => f.packets.map Packet.picture
  := by
  obtain ⟨hinv, hsub, hkeys⟩ := given_of_run hwcodec hrun
  refine ⟨?_, hsub, hkeys⟩
  intro f hf
  have hvalid := hinv.valid f hf
  exact ⟨hvalid.first, hvalid.sorted, hvalid.same, hvalid.timestamps⟩

/-- Frames that come before a key frame, whose timestamp goes back, and of another size. -/
def sampleWrites : List Write :=
  [ { frame := .vp9s [⟨[1], false, 0⟩], w := 4, h := 3, first := { stamp := some "_1_" } }
  , { frame := .vp9s [⟨[2], true, 10⟩, ⟨[3], false, 43⟩], w := 4, h := 3 }
  , { frame := .vp9s [⟨[4], false, 5⟩, ⟨[5], true, 38⟩], w := 4, h := 3
      env := fun _ => { stamp := some "_2_", elapsed := 7 } }
  , { frame := .av1s [⟨[6], true, 71⟩], w := 8, h := 3
      first := { stamp := some "_3_" } } ]

/-- The context of a client. -/
def sampleContext : RecorderContext where
  server := false
  id := "a/b"
  dir := "/r"
  displayIdx := 0
  camera := false
  tx := true

/-- The recorder behind these calls. -/
def sampleEnd : Recorder :=
  sampleWrites.foldl (fun r x => (r.writeFrame false x).2) { ctx := sampleContext }

theorem run_sample :
  Run (Step false) { ctx := sampleContext }
    (Run.trace (fun r x => (r.writeFrame false x).2) { ctx := sampleContext } sampleWrites)
    sampleEnd
  :=
  Run.of_next (R := Step false) (fun _ _ => rfl) _ _

theorem recorded_of_run_sample :
  sampleEnd.writers.map (fun f => f.packets.map fun p => p.picture.frame.data)
      = [[[2], [3]], [[5]], [[6]]] ∧
    ∀ f ∈ sampleEnd.writers, (f.packets.map fun p => p.picture.frame.pts).Pairwise (· ≤ ·)
  := by
  constructor
  · decide +kernel
  · intro f hf
    exact ((recorded_of_run false run_sample).1 f hf).2.1

/-! ### The upload -/

section

open RecordUpload (State)

variable (host : HostPath.Host) {s : State}

/-- The upload is told of frames. -/
theorem tell_frames (n : ℕ) (hwriting : s.writing.isSome) :
  ∃ h s', Run (State.Step host) s h s' ∧ s'.writing = s.writing ∧ s'.files = s.files ∧
    s'.channel = s.channel ++ List.replicate n .newFrame
  := by
  induction n with
  | zero => exact ⟨[], s, .nil, rfl, rfl, (List.append_nil _).symm⟩
  | succ n ih =>
      obtain ⟨h, s', hrun, hsame, hfiles, hchannel⟩ := ih
      have hstep : State.Step host s' .frame (s'.record s'.files s'.writing [.newFrame]) :=
        ⟨hsame ▸ hwriting, rfl⟩
      refine ⟨_, _, hrun.snoc hstep, hsame, hfiles, ?_⟩
      change s'.channel ++ [_] = _
      rw [hchannel, List.append_assoc, List.replicate_succ']

/-- The upload is told of a file that is open. -/
theorem tell_open (f : Writer) (hwriting : s.writing = none)
    (hnew : s.files f.ctx2.filename = none) :
  ∃ h s', Run (State.Step host) s h s' ∧ s'.writing = some f.ctx2.filename ∧
    s'.files = Function.update s.files f.ctx2.filename (some ⟨[], false⟩) ∧
    s'.channel = s.channel ++ f.states
  := by
  let s₁ : State :=
    s.record (Function.update s.files f.ctx2.filename (some ⟨[], false⟩)) (some f.ctx2.filename)
      [.newFile f.ctx2.filename]
  have hcreate : State.Step host s (.create f.ctx2.filename []) s₁ := ⟨hwriting, hnew, rfl⟩
  have hwriting₁ : s₁.writing.isSome := rfl
  obtain ⟨h, s', hrun, hsame, hfiles, hchannel⟩ := tell_frames host f.newFrames hwriting₁
  refine ⟨_, s', (Run.nil.snoc hcreate).append hrun, hsame, hfiles, ?_⟩
  rw [hchannel]
  exact List.append_assoc ..

/-- The upload is told of a file that is closed. -/
theorem tell_closed (x : Writer × Bool) (hwriting : s.writing = none)
    (hnew : s.files x.1.ctx2.filename = none) :
  ∃ h s', Run (State.Step host) s h s' ∧ s'.writing = none ∧
    (∀ filepath, filepath ≠ x.1.ctx2.filename → s'.files filepath = s.files filepath) ∧
    s'.channel = s.channel ++ closedStates x
  := by
  obtain ⟨h, s', hrun, hsame, hfiles, hchannel⟩ := tell_open host x.1 hwriting hnew
  obtain ⟨f, kept⟩ := x
  cases kept with
  | true =>
      have hstep : State.Step host s' .finish (s'.record s'.files none [.writeTail]) :=
        ⟨hsame ▸ rfl, rfl⟩
      refine ⟨_, _, hrun.snoc hstep, rfl, ?_, ?_⟩
      · intro filepath hne
        change s'.files filepath = _
        rw [hfiles, Function.update_of_ne hne]
      · change s'.channel ++ [_] = _
        rw [hchannel, List.append_assoc]
        rfl
  | false =>
      have hfile : s'.files f.ctx2.filename = some ⟨[], false⟩ := by
        rw [hfiles, Function.update_self]
      have hstep : State.Step host s' (.discard true) _ := ⟨_, _, hsame, hfile, rfl⟩
      refine ⟨_, _, hrun.snoc hstep, rfl, ?_, ?_⟩
      · intro filepath hne
        change Function.update s'.files _ _ filepath = _
        rw [Function.update_of_ne hne, hfiles, Function.update_of_ne hne]
      · change s'.channel ++ [_] = _
        rw [hchannel, List.append_assoc]
        rfl

/-- The upload is told of files that are closed, one after the other. -/
theorem tell_all (closed : List (Writer × Bool)) :
  ∀ {s : State}, s.writing = none →
    (∀ x ∈ closed, s.files x.1.ctx2.filename = none) →
    (closed.map fun x => x.1.ctx2.filename).Nodup →
    ∃ h s', Run (State.Step host) s h s' ∧ s'.writing = none ∧
      (∀ filepath, filepath ∉ closed.map (fun x => x.1.ctx2.filename) →
        s'.files filepath = s.files filepath) ∧
      s'.channel = s.channel ++ closed.flatMap closedStates
  := by
  induction closed with
  | nil =>
      intro s hwriting _ _
      exact ⟨[], s, .nil, hwriting, fun _ _ => rfl, (List.append_nil _).symm⟩
  | cons x closed ih =>
      intro s hwriting hnew hnodup
      rw [List.map_cons, List.nodup_cons] at hnodup
      obtain ⟨h, s₁, hrun, hwriting₁, hfiles₁, hchannel₁⟩ :=
        tell_closed host x hwriting (hnew x List.mem_cons_self)
      have hnew₁ : ∀ y ∈ closed, s₁.files y.1.ctx2.filename = none := by
        intro y hy
        rw [hfiles₁ _ ?_]
        · exact hnew y (List.mem_cons_of_mem _ hy)
        · intro heq
          exact hnodup.1 (heq ▸ List.mem_map_of_mem hy)
      obtain ⟨h', s₂, hrun', hwriting₂, hfiles₂, hchannel₂⟩ := ih hwriting₁ hnew₁ hnodup.2
      refine ⟨h ++ h', s₂, hrun.append hrun', hwriting₂, ?_, ?_⟩
      · intro filepath hmem
        rw [List.map_cons, List.mem_cons, not_or] at hmem
        rw [hfiles₂ filepath hmem.2, hfiles₁ filepath hmem.1]
      · rw [hchannel₂, hchannel₁, List.append_assoc, List.flatMap_cons]

end

/-- In every run with a channel, what the upload is told are the files in order: that there is a new
file, its frames, and whether it is complete or removed; and what is kept was written.  When the
names of the files differ, all that is told is what the recorder of the upload's model may tell. -/
theorem told_of_run {ctx : RecorderContext} {h : List (Recorder × Write)}
    (hrun : Run (Step hwcodec) { ctx } h r) (htx : r.ctx.tx = true) (host : HostPath.Host) :
  r.sent = r.closed.flatMap closedStates ++ r.inner.toList.flatMap Writer.states ∧
    (∀ x ∈ r.closed, x.2 = true → ∃ p ∈ x.1.packets, p.ok = true) ∧
    ((r.writers.map fun f => f.ctx2.filename).Nodup →
      ∃ h' s, Run (RecordUpload.State.Step host) {} h' s ∧ s.channel = r.sent ∧
        s.writing = r.inner.map fun f => f.ctx2.filename)
  := by
  obtain ⟨hinv, -, -⟩ := given_of_run hwcodec hrun
  have hsent := hinv.sent
  rw [if_pos htx] at hsent
  refine ⟨hsent, ?_, ?_⟩
  · intro x hx hkept
    have hvalid := hinv.valid x.1 (List.mem_append_left _ (List.mem_map_of_mem hx))
    have hwritten := hinv.kept x hx hkept
    rw [hvalid.written, List.any_eq_true] at hwritten
    exact hwritten
  · intro hnodup
    rw [Recorder.writers, List.map_append, List.map_map] at hnodup
    have hclosed := (List.nodup_append.mp hnodup).1
    obtain ⟨h₁, s₁, hrun₁, hwriting₁, hfiles₁, hchannel₁⟩ :=
      tell_all host r.closed (s := {}) rfl (fun _ _ => rfl) hclosed
    rw [hsent, Recorder.states]
    obtain hinner | ⟨f, hinner⟩ := r.inner.eq_none_or_eq_some
    · refine ⟨h₁, s₁, hrun₁, ?_, ?_⟩
      · simp [hchannel₁, hinner]
      · rw [hwriting₁, hinner]
        rfl
    · have hnew : s₁.files f.ctx2.filename = none := by
        apply hfiles₁
        intro hmem
        rw [hinner] at hnodup
        exact (List.nodup_append.mp hnodup).2.2 _ hmem _ (List.mem_singleton_self _) rfl
      obtain ⟨h₂, s₂, hrun₂, hwriting₂, -, hchannel₂⟩ := tell_open host f hwriting₁ hnew
      refine ⟨h₁ ++ h₂, s₂, hrun₁.append hrun₂, ?_, ?_⟩
      · simp [hchannel₂, hchannel₁, hinner]
      · rw [hwriting₂, hinner]
        rfl

theorem told_of_run_sample :
  ∃ h s, Run (RecordUpload.State.Step .unix) {} h s ∧ s.channel = sampleEnd.sent ∧
    s.writing = some "/r/outgoing_a_b_3_display0_av1.webm" ∧
    sampleEnd.sent.filter (· = .removeFile) = [.removeFile]
  := by
  obtain ⟨h, s, hrun, hchannel, hwriting⟩ :=
    (told_of_run false run_sample (by decide +kernel) .unix).2.2 (by decide +kernel)
  refine ⟨h, s, hrun, hchannel, hwriting.trans ?_, ?_⟩
  · decide +kernel
  · decide +kernel

end VynxDesk.Record
