import Mathlib.Algebra.GroupWithZero.Nat
import Mathlib.Data.List.Basic
import VynxDesk.Connection.Message

/-!
# Flow control of a multiplexed tunnel

The counters of `port_forward_mux.rs`: what a `data` frame costs, the window of the end that
receives, and the credit of the end that sends.  They are `u32`s; where the code saturates, the
model does.
-/

namespace VynxDesk.Mux

/-- `u32::MAX`. -/
def u32Max : Nat := 2 ^ 32 - 1

/-- `u32::saturating_add`. -/
def saturatingAdd (a b : Nat) : Nat := min (a + b) u32Max

theorem saturatingAdd_of_le {a b : Nat} (h : a + b ≤ u32Max) :
  saturatingAdd a b = a + b
  := Nat.min_eq_left h

/-! ### Constants -/

/-- `INITIAL_WINDOW`. -/
def initialWindow : Nat := 64 * 1024

/-- `MIN_FRAME_CHARGE`. -/
def minFrameCharge : Nat := 64

/-- `CHANNEL_WINDOW`. -/
def channelWindow : Nat := 256 * 1024

/-- `MAX_FRAME`. -/
def maxFrame : Nat := 64 * 1024

/-- `UPDATE_THRESHOLD`. -/
def updateThreshold : Nat := channelWindow / 2

/-- `MAX_CHANNELS`. -/
def maxChannels : Nat := 256

/-- `DATA_QUEUE_FRAMES`. -/
def dataQueueFrames : Nat := 128

/-- `MAX_SEND_CREDIT`. -/
def maxSendCredit : Nat := channelWindow

theorem channelWindow_le : channelWindow ≤ u32Max := by decide

theorem initialWindow_le : initialWindow ≤ channelWindow := by decide

/-- `effective_window`. -/
def effectiveWindow (advertised : Nat) : Nat := max advertised initialWindow

/-! ### The charge of a frame -/

/-- What a `data` frame of this length costs its channel's window. -/
def charge (len : Nat) : Nat := max (min len u32Max) minFrameCharge

theorem minFrameCharge_le_charge (len : Nat) : minFrameCharge ≤ charge len := Nat.le_max_right _ _

theorem le_charge {len : Nat} (h : charge len ≤ channelWindow) :
  len ≤ charge len
  := by
  rw [charge] at h ⊢
  rw [channelWindow] at h
  rw [u32Max] at h ⊢
  omega

/-- A frame that fits in a whole minimum charge costs no more. -/
theorem charge_le {len allow : Nat} (hlen : len ≤ allow) (hallow : minFrameCharge ≤ allow) :
  charge len ≤ allow
  := by
  apply Nat.max_le.mpr
  apply And.intro _ hallow
  apply Nat.le_trans (Nat.min_le_left _ _) hlen

/-- What a sequence of `data` frames costs. -/
def charges (l : List Bytes) : Nat := (l.map fun b => charge b.length).sum

@[simp]
theorem charges_nil : charges [] = 0 := rfl

@[simp]
theorem charges_cons (b : Bytes) (l : List Bytes) :
  charges (b :: l) = charge b.length + charges l
  := by
  simp [charges]

@[simp]
theorem charges_append (l l' : List Bytes) :
  charges (l ++ l') = charges l + charges l'
  := by
  simp [charges]

theorem charges_le_of_sublist {l l' : List Bytes} (h : l.Sublist l') :
  charges l ≤ charges l'
  := by
  induction h with
  | slnil => exact Nat.le_refl _
  | cons b _ ih =>
      rw [charges_cons]
      omega
  | cons_cons b _ ih =>
      rw [charges_cons, charges_cons]
      omega

/-- Every frame costs the minimum at least. -/
theorem length_le_charges (l : List Bytes) :
  minFrameCharge * l.length ≤ charges l
  := by
  induction l with
  | nil => simp
  | cons b l ih =>
      have hb := minFrameCharge_le_charge b.length
      rw [charges_cons, List.length_cons, Nat.mul_succ]
      omega

/-- Frames that fit in a window together are no longer than what they cost. -/
theorem flatten_length_le_charges (l : List Bytes) (h : charges l ≤ channelWindow) :
  l.flatten.length ≤ charges l
  := by
  induction l with
  | nil => simp
  | cons b l ih =>
      rw [charges_cons] at h ⊢
      rw [List.flatten_cons, List.length_append]
      have hcharge : charge b.length ≤ channelWindow := by omega
      have hb := le_charge hcharge
      have hl := ih (by omega)
      omega

/-! ### The window of the receiver -/

/-- `RecvWindow`. -/
structure RecvWindow where
  remaining : Nat
  drainedSinceUpdate : Nat
  deriving DecidableEq

namespace RecvWindow

/-- `RecvWindow::new`. -/
def new (granted : Nat) : RecvWindow := ⟨effectiveWindow granted, 0⟩

/-- `RecvWindow::accept`: `none` when the peer overran the window. -/
def accept (len : Nat) (w : RecvWindow) : Option RecvWindow :=
  if charge len ≤ w.remaining then some { w with remaining := w.remaining - charge len } else none

/-- `RecvWindow::grant`. -/
def grant (n : Nat) (w : RecvWindow) : RecvWindow :=
  { w with remaining := saturatingAdd w.remaining n }

/-- `RecvWindow::drained`, and the amount to advertise, if any. -/
def drained (n : Nat) (w : RecvWindow) : RecvWindow × Option Nat :=
  let add := saturatingAdd w.drainedSinceUpdate (charge n)
  if add < updateThreshold then ({ w with drainedSinceUpdate := add }, none)
  else (⟨saturatingAdd w.remaining add, 0⟩, some add)

/-- What is accounted for in the window: what the peer may still send, and what was drained since
the last update. -/
def total (w : RecvWindow) : Nat := w.remaining + w.drainedSinceUpdate

variable {w w' : RecvWindow}

/-- An accepted frame takes its charge from the window. -/
theorem accept_eq_some {len : Nat} :
  w.accept len = some w' ↔ w'.remaining + charge len = w.remaining
    ∧ w'.drainedSinceUpdate = w.drainedSinceUpdate
  := by
  obtain ⟨r, d⟩ := w
  obtain ⟨r', d'⟩ := w'
  rw [accept]
  dsimp only
  split_ifs with h
  · simp only [Option.some.injEq, RecvWindow.mk.injEq]
    omega
  · simp only [false_iff]
    omega

/-- A grant that does not saturate. -/
theorem grant_total {n : Nat} (h : w.remaining + n ≤ u32Max) :
  (w.grant n).remaining = w.remaining + n ∧ (w.grant n).total = w.total + n
    ∧ (w.grant n).drainedSinceUpdate = w.drainedSinceUpdate
  := by
  have hadd : (w.grant n).remaining = w.remaining + n := saturatingAdd_of_le h
  refine ⟨hadd, ?_, rfl⟩
  unfold total
  rw [hadd]
  change _ + w.drainedSinceUpdate = _
  omega

/-- What was drained is added to the account, and what is advertised to the window. -/
theorem drained_total {n : Nat} (h : w.total + charge n ≤ u32Max) :
  (w.drained n).1.total = w.total + charge n
    ∧ (w.drained n).1.remaining = w.remaining + (w.drained n).2.getD 0
  := by
  unfold total at h
  have hdrained : saturatingAdd w.drainedSinceUpdate (charge n)
      = w.drainedSinceUpdate + charge n := saturatingAdd_of_le (by omega)
  unfold drained total
  rw [hdrained]
  dsimp only
  split_ifs
  · dsimp only [Option.getD]
    omega
  · have hadd : saturatingAdd w.remaining (w.drainedSinceUpdate + charge n)
        = w.remaining + (w.drainedSinceUpdate + charge n) := saturatingAdd_of_le (by omega)
    rw [hadd]
    dsimp only [Option.getD]
    omega

end RecvWindow

/-! ### The credit of the sender -/

namespace SendCredit

/-- `SendCredit::new`. -/
def new (initial : Nat) : Nat := min initial maxSendCredit

/-- What `SendCredit::take` takes, once a whole minimum charge is available. -/
def taken (max credit : Nat) : Nat := min credit max

/-- `SendCredit::add`. -/
def add (n credit : Nat) : Nat := min (saturatingAdd credit n) maxSendCredit

/-- `SendCredit::raise_initial`. -/
def raiseInitial (total credit : Nat) : Nat :=
  let extra := effectiveWindow total - initialWindow
  if 0 < extra then add extra credit else credit

/-- Credit that stays below the cap is added as it is. -/
theorem add_of_le {n credit : Nat} (h : credit + n ≤ maxSendCredit) :
  add n credit = credit + n
  := by
  rw [add]
  rw [saturatingAdd_of_le (Nat.le_trans h (by decide)), Nat.min_eq_left h]

theorem add_le_add (n credit : Nat) :
  add n credit ≤ credit + n
  := by
  rw [add, saturatingAdd]
  omega

end SendCredit

end VynxDesk.Mux
