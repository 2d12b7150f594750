import VynxDesk.Lib.Entries
import VynxDesk.Lib.Run
import VynxDesk.Lib.Significand
import VynxDesk.Lib.Window

/-!
# The quality of the video stream

`VideoQoS` (`src/server/video_qos.rs`) sets the frame rate and the bitrate ratio of the stream from
what its viewers report: the limits and the image quality they ask for, the delay of each, and
whether an answer is overdue.  The numbers of type `f32` are rational numbers here, and each
operation on them rounds to 24 bits (`f32`); all of them are in the range of the normal numbers.
The maps of the viewers and of the displays are lists, and a call may find them in any order
(`Step`).  A call that panics has no result.
-/

namespace VynxDesk.VideoQos

open Significand Window

/-- The nearest value of type `f32`. -/
def f32 (x : ℚ) : ℚ :=
  roundSig 24 x

def FPS : ℕ := 30

def MIN_FPS : ℕ := 1

def MAX_FPS : ℕ := 120

def INIT_FPS : ℕ := 15

def BR_MAX : ℚ := f32 40

def BR_MIN : ℚ := f32 0.2

def BR_MIN_HIGH_RESOLUTION : ℚ := f32 0.1

def MAX_BR_MULTIPLE : ℚ := f32 1

def BR_BEST : ℚ := f32 1.5

def BR_BALANCED : ℚ := f32 0.67

def BR_SPEED : ℚ := f32 0.5

def HISTORY_DELAY_LEN : ℕ := 2

def ADJUST_RATIO_INTERVAL : ℕ := 3

def DYNAMIC_SCREEN_THRESHOLD : ℕ := 2

def DELAY_THRESHOLD_150MS : ℕ := 150

/-- `clamp` of the standard library, which panics when its bounds are out of order. -/
def clamp {α : Type*} [LinearOrder α] (x low high : α) : Option α :=
  if low ≤ high then some (max low (min x high)) else none

/-! ### The round trip of a viewer -/

/-- `RttCalculator`. -/
structure RttCalculator where
  minRtt : Option ℕ := none
  windowMinRtt : Option ℕ := none
  smoothedRtt : Option ℕ := none
  samples : List ℕ := []
  deriving DecidableEq

def WINDOW_SAMPLES : ℕ := 60

def MIN_SAMPLES : ℕ := 10

def ALPHA : ℚ := f32 0.5

/-- The weighted average of two samples, in `f32`. -/
def weightedAverage (min windowMin : ℕ) : ℕ :=
  ⌊f32 (f32 (f32 (1 - ALPHA) * f32 min) + f32 (ALPHA * f32 windowMin))⌋₊

/-- The historical minimum with one more sample. -/
def lowered (minRtt : Option ℕ) (delay : ℕ) : Option ℕ :=
  match minRtt with
  | some minRtt => if delay < minRtt then some delay else some minRtt
  | none => some delay

/-- `update`. -/
def RttCalculator.update (r : RttCalculator) (delay : ℕ) : RttCalculator :=
  let minRtt := lowered r.minRtt delay
  let samples := pushBack (WINDOW_SAMPLES ≤ r.samples.length) r.samples delay
  let windowMinRtt := samples.min?
  let smoothedRtt :=
    if WINDOW_SAMPLES ≤ samples.length then
      match minRtt, windowMinRtt with
      | some min, some windowMin => some (weightedAverage min windowMin)
      | _, _ => r.smoothedRtt
    else r.smoothedRtt
  { minRtt, windowMinRtt, smoothedRtt, samples }

/-- `get_rtt`. -/
def RttCalculator.getRtt (r : RttCalculator) : Option ℕ :=
  match r.smoothedRtt with
  | some rtt => some rtt
  | none => if MIN_SAMPLES ≤ r.samples.length then r.minRtt else none

/-! ### The delay of a viewer -/

/-- `UserDelay`. -/
structure UserDelay where
  responseDelayed : Bool := false
  delayHistory : List ℕ := []
  fps : Option ℕ := none
  rttCalculator : RttCalculator := {}
  quickIncreaseFpsCount : ℕ := 0
  increaseFpsCount : ℕ := 0
  deriving DecidableEq

/-- `add_delay`. -/
def UserDelay.addDelay (d : UserDelay) (delay : ℕ) : UserDelay :=
  { d with
    rttCalculator := d.rttCalculator.update delay
    delayHistory := pushBack (HISTORY_DELAY_LEN < d.delayHistory.length) d.delayHistory delay }

/-- `avg_delay`: the sum is one of type `u32`. -/
def UserDelay.avgDelay (d : UserDelay) : ℕ :=
  if 0 < d.delayHistory.length then
    let avgDelay := d.delayHistory.sum % 2 ^ 32 / d.delayHistory.length
    match d.rttCalculator.getRtt with
    | some rtt => if rtt < avgDelay then avgDelay - rtt else avgDelay
    | none => avgDelay
  else DELAY_THRESHOLD_150MS

/-- `devide_fps`, in `f32`. -/
def devideFps (fps avgDelay : ℕ) : ℕ :=
  ⌈f32 (f32 fps / f32 (f32 avgDelay / f32 DELAY_THRESHOLD_150MS))⌉₊

/-- What `user_network_delay` makes of the frame rate and of `quick_increase_fps_count` by the
average delay. -/
def adaptFps (minFps normalFps oldAvgDelay avgDelay fps quick : ℕ) : ℕ × ℕ :=
  let dividendMs := DELAY_THRESHOLD_150MS * minFps
  if avgDelay < 50 then
    let step := if 3 ≤ quick + 1 then 5 else if fps < normalFps then 1 else 0
    (max minFps (fps + step), if 3 ≤ quick + 1 then 0 else quick + 1)
  else if avgDelay < 100 then
    let step := if avgDelay < oldAvgDelay then if fps < normalFps then 1 else 0 else 0
    (max minFps (fps + step), quick)
  else if avgDelay < DELAY_THRESHOLD_150MS then (max minFps fps, quick)
  else if avgDelay < 200 then (max minFps (devideFps fps avgDelay), quick)
  else if avgDelay < 300 then (min minFps (devideFps fps avgDelay), quick)
  else if avgDelay < 600 then (dividendMs / avgDelay, quick)
  else (min (dividendMs / avgDelay) (devideFps fps avgDelay), quick)

/-- The part of `user_network_delay` that changes the delay of the viewer, where `fps` is the frame
rate of the stream. -/
def UserDelay.report (d : UserDelay) (highestFps minFps normalFps fps delay : ℕ) :
    Option UserDelay :=
  let oldAvgDelay := d.avgDelay
  let d := d.addDelay (max delay 10)
  let avgDelay := max d.avgDelay 10
  let adapted := adaptFps minFps normalFps oldAvgDelay avgDelay fps d.quickIncreaseFpsCount
  let increase := if avgDelay < DELAY_THRESHOLD_150MS then d.increaseFpsCount + 1 else 0
  let fps := if 3 ≤ increase then adapted.1 + 1 else adapted.1
  (clamp fps MIN_FPS highestFps).map fun fps =>
    { d with
      fps := some fps
      quickIncreaseFpsCount := if 50 < avgDelay then 0 else adapted.2
      increaseFpsCount := if 3 ≤ increase then 0 else increase }

/-! ### The state -/

/-- `Quality`. -/
inductive Quality where
  | best
  | balanced
  | low
  | custom (ratio : ℚ)
  deriving DecidableEq

/-- `Quality::ratio`. -/
def Quality.ratio : Quality → ℚ
  | best => BR_BEST
  | balanced => BR_BALANCED
  | low => BR_SPEED
  | custom v => v

/-- `UserData`. -/
structure UserData where
  autoAdjustFps : Option ℕ := none
  customFps : Option ℕ := none
  quality : Option (ℤ × Quality) := none
  delay : UserDelay := {}
  record : Bool := false
  deriving DecidableEq

/-- `DisplayData`. -/
structure DisplayData where
  sendCounter : ℕ := 0
  supportChangingQuality : Bool := false
  deriving DecidableEq

/-- `VideoQoS`, with times in milliseconds. -/
structure VideoQoS where
  fps : ℕ := FPS
  ratio : ℚ := BR_BALANCED
  users : List (ℤ × UserData) := []
  displays : List (String × DisplayData) := []
  bitrateStore : ℕ := 0
  adjustRatioInstant : ℕ
  abrConfig : Bool := true
  newUserInstant : ℕ
  deriving DecidableEq

/-- `VideoQoS::default`. -/
def VideoQoS.default (now : ℕ) : VideoQoS :=
  { adjustRatioInstant := now, newUserInstant := now }

variable (q : VideoQoS)

/-- `fps`. -/
def VideoQoS.getFps : ℕ :=
  if MIN_FPS ≤ q.fps ∧ q.fps ≤ MAX_FPS then q.fps else FPS

/-- `ratio`, which may reset the field. -/
def VideoQoS.getRatio : VideoQoS :=
  if q.ratio < BR_MIN_HIGH_RESOLUTION ∨ BR_MAX < q.ratio then { q with ratio := BR_BALANCED } else q

/-- `in_vbr_state`. -/
def VideoQoS.inVbrState : Bool :=
  q.abrConfig && q.displays.all fun d => d.2.supportChangingQuality

/-- `user_fps` of `highest_fps`: what a viewer asks for at most. -/
def UserData.limit (u : UserData) : ℕ :=
  let fps := u.customFps.getD FPS
  match u.autoAdjustFps with
  | some autoAdjustFps => if fps = 0 ∨ autoAdjustFps < fps then autoAdjustFps else fps
  | none => fps

/-- `highest_fps`; its last `clamp` has constant bounds. -/
def VideoQoS.highestFps : ℕ :=
  let fps := (((q.users.map fun u => u.2.limit).filter fun fps => MIN_FPS ≤ fps).min?).getD FPS
  max MIN_FPS (min fps MAX_FPS)

/-- `Iterator::max_by` on the times: the last one of the greatest. -/
def latest : List (ℤ × Quality) → Option (ℤ × Quality)
  | [] => none
  | first :: rest => some (rest.foldl (fun best q => if q.1 < best.1 then best else q) first)

/-- `latest_quality`. -/
def VideoQoS.latestQuality : Quality :=
  ((latest (q.users.filterMap fun u => u.2.quality)).getD (0, .balanced)).2

/-- The frame rate of `adjust_fps` before it is clamped. -/
def VideoQoS.wantedFps (now : ℕ) : ℕ :=
  let fps := ((q.users.map fun u => u.2.delay.fps.getD INIT_FPS).min?).getD INIT_FPS
  let fps :=
    if (q.users.any fun u => u.2.delay.responseDelayed) ∧ MIN_FPS + 1 < fps then MIN_FPS + 1
    else fps
  if (now - q.newUserInstant) / 1000 < 1 ∧ INIT_FPS < fps then INIT_FPS else fps

/-- `adjust_fps`. -/
def VideoQoS.adjustFps (now : ℕ) : Option VideoQoS :=
  (clamp (q.wantedFps now) MIN_FPS q.highestFps).map fun fps => { q with fps }

/-- The least ratio of `adjust_ratio`. -/
def minRatio (quality : Quality) (ratio1mbps : Option ℚ) : ℚ :=
  let lower (min : ℚ) : ℚ :=
    match ratio1mbps with
    | some ratio => if ratio < min then ratio else min
    | none => min
  match quality with
  | .best => max (lower (f32 (BR_BEST / f32 2.5))) BR_MIN
  | .balanced => max (lower (min (f32 (BR_BALANCED / f32 2)) (f32 0.4))) BR_MIN_HIGH_RESOLUTION
  | .low => BR_MIN_HIGH_RESOLUTION
  | .custom _ => BR_MIN_HIGH_RESOLUTION

/-- The factor of `adjust_ratio` by the greatest delay. -/
def factor (maxDelay : ℕ) (dynamicScreen : Bool) : Option ℚ :=
  if maxDelay < 50 then if dynamicScreen then some (f32 1.15) else none
  else if maxDelay < 100 then if dynamicScreen then some (f32 1.1) else none
  else if maxDelay < DELAY_THRESHOLD_150MS then if dynamicScreen then some (f32 1.05) else none
  else if maxDelay < 200 then some (f32 0.95)
  else if maxDelay < 300 then some (f32 0.9)
  else if maxDelay < 500 then some (f32 0.85)
  else some (f32 0.8)

/-- `adjust_ratio`. -/
def VideoQoS.adjustRatio (now : ℕ) (dynamicScreen : Bool) : Option VideoQoS :=
  if q.inVbrState then
    match (q.users.map fun u => u.2.delay.avgDelay).max? with
    | none => some q
    | some maxDelay =>
        let targetQuality := q.latestQuality
        let targetRatio := q.latestQuality.ratio
        let currentRatio := q.ratio
        let currentBitrate := q.bitrateStore
        let ratio1mbps :=
          if 0 < currentBitrate then
            some (max (f32 (f32 (currentRatio * f32 1000) / f32 currentBitrate))
              BR_MIN_HIGH_RESOLUTION)
          else none
        let ratioAdd150kbps :=
          if 0 < currentBitrate then
            some (f32 (f32 (f32 ((currentBitrate + 150) % 2 ^ 32 : ℕ) * currentRatio) /
              f32 currentBitrate))
          else none
        let min := minRatio targetQuality ratio1mbps
        let max := f32 (targetRatio * MAX_BR_MULTIPLE)
        let v :=
          match factor maxDelay dynamicScreen with
          | some factor => f32 (currentRatio * factor)
          | none => currentRatio
        let v :=
          match ratioAdd150kbps with
          | some ratio =>
              if ratio < v ∧ currentRatio < ratio ∧ BR_SPEED ≤ currentRatio then ratio else v
          | none => v
        (clamp v min max).map fun ratio => { q with ratio, adjustRatioInstant := now }
  else some q

/-! ### The calls -/

/-- `on_connection_open`, with the option `enable-abr`. -/
def VideoQoS.onConnectionOpen (now : ℕ) (id : ℤ) (enableAbr : Bool) : VideoQoS :=
  { q with users := Entries.insert id {} q.users, abrConfig := enableAbr, newUserInstant := now }

/-- `on_connection_close`. -/
def VideoQoS.onConnectionClose (now : ℕ) (id : ℤ) : VideoQoS :=
  let users := Entries.remove id q.users
  if users.isEmpty then VideoQoS.default now else { q with users }

/-- `user_custom_fps`. -/
def VideoQoS.userCustomFps (id : ℤ) (fps : ℕ) : VideoQoS :=
  if fps < MIN_FPS ∨ MAX_FPS < fps then q
  else { q with users := Entries.modify id (fun u => { u with customFps := some fps }) q.users }

/-- `user_auto_adjust_fps`. -/
def VideoQoS.userAutoAdjustFps (id : ℤ) (fps : ℕ) : VideoQoS :=
  if fps < MIN_FPS ∨ MAX_FPS < fps then q
  else { q with users := Entries.modify id (fun u => { u with autoAdjustFps := some fps }) q.users }

/-- The numbers of `ImageQuality`, a type of the messages. -/
structure ImageQuality where
  balanced : ℤ
  low : ℤ
  best : ℤ

/-- `convert_quality`; the bounds of its `clamp` are constants. -/
def convertQuality (values : ImageQuality) (imageQuality : ℤ) : Quality :=
  if imageQuality = values.balanced then .balanced
  else if imageQuality = values.low then .low
  else if imageQuality = values.best then .best
  else
    let b := f32 (f32 (imageQuality / 2 ^ 8 % 2 ^ 12 * 2 : ℤ) / f32 100)
    .custom (max BR_MIN (min b BR_MAX))

/-- `user_image_quality` at the time `time` of `get_time`. -/
def VideoQoS.userImageQuality (values : ImageQuality) (id imageQuality time : ℤ) : VideoQoS :=
  if (q.users.lookup id).isSome then
    let quality := some (time, convertQuality values imageQuality)
    let q' := { q with users := Entries.modify id (fun u => { u with quality }) q.users }
    { q' with ratio := q'.latestQuality.ratio }
  else q

/-- `user_record`. -/
def VideoQoS.userRecord (id : ℤ) (v : Bool) : VideoQoS :=
  { q with users := Entries.modify id (fun u => { u with record := v }) q.users }

/-- `min_fps` and `normal_fps` of `user_network_delay`. -/
def VideoQoS.delayFps : ℕ × ℕ :=
  let targetRatio := q.latestQuality.ratio
  let fps :=
    if BR_BEST ≤ targetRatio then (8, 16)
    else if BR_BALANCED ≤ targetRatio then (10, 20)
    else (12, 24)
  (fps.1, if FPS < q.highestFps then q.highestFps else fps.2)

/-- `user_network_delay`; on Linux the ratio is left alone. -/
def VideoQoS.userNetworkDelay (linux : Bool) (now : ℕ) (id : ℤ) (delay : ℕ) : Option VideoQoS :=
  match q.users.lookup id with
  | none => q.adjustFps now
  | some user =>
      (user.delay.report q.highestFps q.delayFps.1 q.delayFps.2 q.fps delay).bind fun d =>
        let q' := { q with users := Entries.modify id (fun u => { u with delay := d }) q.users }
        (q'.adjustFps now).bind fun q' =>
          if user.delay.fps.isNone && !linux then q'.adjustRatio now false else some q'

/-- `user_delay_response_elapsed`; the delay added is one of type `u32`. -/
def VideoQoS.userDelayResponseElapsed (now : ℕ) (id : ℤ) (elapsed : ℕ) : Option VideoQoS :=
  if (q.users.lookup id).isSome then
    if 2000 < elapsed then
      let delayed (d : UserDelay) : UserDelay :=
        { d with responseDelayed := true }.addDelay (elapsed % 2 ^ 32)
      let users := Entries.modify id (fun u => { u with delay := delayed u.delay }) q.users
      { q with users }.adjustFps now
    else
      let answered (d : UserDelay) : UserDelay := { d with responseDelayed := false }
      let users := Entries.modify id (fun u => { u with delay := answered u.delay }) q.users
      some { q with users }
  else some q

/-- `update_display_data`. -/
def VideoQoS.updateDisplayData (now : ℕ) (name : String) (sendCounter : ℕ) : Option VideoQoS :=
  let add (d : DisplayData) : DisplayData := { d with sendCounter := d.sendCounter + sendCounter }
  ({ q with displays := Entries.modify name add q.displays }.adjustFps now).bind fun q =>
    if q.inVbrState then
      if ADJUST_RATIO_INTERVAL ≤ (now - q.adjustRatioInstant) / 1000 then
        let dynamicScreen :=
          q.displays.any fun d => ADJUST_RATIO_INTERVAL * DYNAMIC_SCREEN_THRESHOLD ≤ d.2.sendCounter
        let displays :=
          q.displays.map fun (d : String × DisplayData) => (d.1, { d.2 with sendCounter := 0 })
        { q with displays }.adjustRatio now dynamicScreen
      else some q
    else some { q with ratio := q.latestQuality.ratio }

/-- The calls of the connections and of the video services. -/
inductive Call where
  | onConnectionOpen (id : ℤ) (enableAbr : Bool)
  | onConnectionClose (id : ℤ)
  | userCustomFps (id : ℤ) (fps : ℕ)
  | userAutoAdjustFps (id : ℤ) (fps : ℕ)
  | userImageQuality (id imageQuality time : ℤ)
  | userRecord (id : ℤ) (v : Bool)
  | userNetworkDelay (id : ℤ) (delay : ℕ)
  | userDelayResponseElapsed (id : ℤ) (elapsed : ℕ)
  | ratio
  | storeBitrate (bitrate : ℕ)
  | setSupportChangingQuality (name : String) (support : Bool)
  | newDisplay (name : String)
  | removeDisplay (name : String)
  | updateDisplayData (name : String) (sendCounter : ℕ)
  deriving DecidableEq

/-- What the program is compiled for: the numbers of the messages, and whether it is for Linux. -/
structure Build where
  imageQuality : ImageQuality
  linux : Bool

/-- A call at the time `now`. -/
def VideoQoS.call (b : Build) (now : ℕ) : Call → Option VideoQoS
  | .onConnectionOpen id enableAbr => some (q.onConnectionOpen now id enableAbr)
  | .onConnectionClose id => some (q.onConnectionClose now id)
  | .userCustomFps id fps => some (q.userCustomFps id fps)
  | .userAutoAdjustFps id fps => some (q.userAutoAdjustFps id fps)
  | .userImageQuality id imageQuality time =>
      some (q.userImageQuality b.imageQuality id imageQuality time)
  | .userRecord id v => some (q.userRecord id v)
  | .userNetworkDelay id delay => q.userNetworkDelay b.linux now id delay
  | .userDelayResponseElapsed id elapsed => q.userDelayResponseElapsed now id elapsed
  | .ratio => some q.getRatio
  | .storeBitrate bitrate => some { q with bitrateStore := bitrate }
  | .setSupportChangingQuality name support =>
      let set (d : DisplayData) : DisplayData := { d with supportChangingQuality := support }
      some { q with displays := Entries.modify name set q.displays }
  | .newDisplay name => some { q with displays := Entries.insert name {} q.displays }
  | .removeDisplay name => some { q with displays := Entries.remove name q.displays }
  | .updateDisplayData name sendCounter => q.updateDisplayData now name sendCounter

/-- The state with its viewers in another order. -/
def VideoQoS.reorder (users : List (ℤ × UserData)) : VideoQoS :=
  { q with users }

/-- A call at a time, which finds the viewers in some order. -/
def Step (b : Build) (q : VideoQoS) (c : ℕ × Call) (q' : VideoQoS) : Prop :=
  ∃ users, users.Perm q.users ∧ (q.reorder users).call b c.1 c.2 = some q'

end VynxDesk.VideoQos
