import VynxDesk.PortForward.Grammar

/-!
# Where the credit of a channel goes

Credit is taken by the relay that reads the socket, spent on a frame or given back.  `Step.credit`
says what a step of the task does to it; saturation and the cap can only lose credit, and they
lose none while the credit and what was taken stay below the cap.
-/

namespace VynxDesk.Mux

/-- The bytes of a `data` frame. -/
def dataOf : PortForwardChannel → Option Bytes
  | .data _ data => some data
  | _ => none

/-- The credit the relay has taken, and has neither spent nor given back. -/
def ToTunnel.taken : ToTunnel → Nat
  | .read allow => allow
  | .refund allow _ => allow
  | .send _ chunk => charge chunk.length
  | _ => 0

namespace Output

/-- The frames of a step. -/
def frames : Output → List PortForwardChannel
  | .quiet => []
  | .ordered m | .control m => [m]

/-- What the data frames of a step cost. -/
def cost (out : Output) : Nat := charges (out.frames.filterMap dataOf)

end Output

namespace Chan

/-- The credit of the channel that is not spent: in its counter, or taken by its relay. -/
def unspent (c : Chan) : Nat := c.credit + c.toTunnel.taken

variable {side : Side} {c c' : Chan}

/-- The frame a task sends first, or last, costs nothing. -/
theorem cost_of_not_isData {m : PortForwardChannel} (hm : isData m = false) :
  (Output.ordered m).cost = 0
  := by
  rw [Output.cost, Output.frames]
  cases m with
  | data id data => cases hm
  | _ => rfl

/-- What the relay gives back does not exceed what it has taken. -/
theorem refund_unspent {allow : Nat} {chunk : Bytes} (hhand : InHand (.refund allow chunk))
    (ht : c.toTunnel = .refund allow chunk) :
  (c.refund allow chunk).unspent ≤ c.unspent
    ∧ (c.unspent ≤ maxSendCredit → (c.refund allow chunk).unspent = c.unspent)
  := by
  obtain ⟨⟨hmin, -⟩, hlen⟩ := hhand
  have hcharge := charge_le hlen hmin
  unfold unspent Chan.refund
  rw [ht]
  dsimp only
  by_cases hchunk : chunk = []
  · rw [if_pos hchunk, if_pos hchunk]
    change (if 0 < allow then SendCredit.add allow c.credit else c.credit) + 0 ≤ c.credit + allow
      ∧ (c.credit + allow ≤ maxSendCredit →
          (if 0 < allow then SendCredit.add allow c.credit else c.credit) + 0 = c.credit + allow)
    split_ifs with hallow
    · constructor
      · apply SendCredit.add_le_add
      · apply SendCredit.add_of_le
    · omega
  · rw [if_neg hchunk, if_neg hchunk]
    change (if charge chunk.length < allow
          then SendCredit.add (allow - charge chunk.length) c.credit else c.credit)
          + charge chunk.length ≤ c.credit + allow
      ∧ (c.credit + allow ≤ maxSendCredit →
          (if charge chunk.length < allow
            then SendCredit.add (allow - charge chunk.length) c.credit else c.credit)
            + charge chunk.length = c.credit + allow)
    split_ifs with hlt
    · have hadd := SendCredit.add_le_add (allow - charge chunk.length) c.credit
      constructor
      · omega
      · intro hmax
        rw [SendCredit.add_of_le (by omega)]
        omega
    · omega

/-- A step of the task neither makes credit nor, below the cap and while the sink is open, loses
any. -/
theorem Step.credit {gone down : Bool} {out : Output} (hpaying : c.Paying) (hcourse : c.Course side)
    (hstep : Step gone down c out c') :
  c'.unspent + out.cost ≤ c.unspent
    ∧ (c.unspent ≤ maxSendCredit → gone = false → c'.unspent + out.cost = c.unspent)
  := by
  have hkept : c'.unspent + Output.quiet.cost = c.unspent → c'.unspent + Output.quiet.cost ≤ c.unspent
      ∧ (c.unspent ≤ maxSendCredit → gone = false →
        c'.unspent + Output.quiet.cost = c.unspent) :=
    fun heq => ⟨Nat.le_of_eq heq, fun _ _ => heq⟩
  have hhand := hpaying.inHand
  cases hstep with
  | take hs ht hcredit =>
      apply hkept
      unfold unspent
      rw [ht]
      change c.credit - SendCredit.taken maxFrame c.credit + SendCredit.taken maxFrame c.credit + 0
        = c.credit + 0
      have hle : SendCredit.taken maxFrame c.credit ≤ c.credit := Nat.min_le_left _ _
      omega
  | cancelTake hs ht hcancel =>
      apply hkept
      unfold unspent
      rw [ht]
      rfl
  | readPrebuf hs ht hbuf =>
      apply hkept
      unfold unspent
      rw [ht]
      rfl
  | readSocket hs ht hbuf hlen =>
      apply hkept
      unfold unspent
      rw [ht]
      rfl
  | @cancelRead allow hs ht hcancel =>
      unfold unspent
      rw [ht]
      change SendCredit.add allow c.credit + 0 + 0 ≤ c.credit + allow
        ∧ (c.credit + allow ≤ maxSendCredit → _ →
            SendCredit.add allow c.credit + 0 + 0 = c.credit + allow)
      constructor
      · apply SendCredit.add_le_add
      · intro hmax _
        apply SendCredit.add_of_le hmax
  | refund hs ht =>
      rw [ht] at hhand
      obtain ⟨hle, heq⟩ := refund_unspent hhand ht
      exact ⟨hle, fun hmax _ => heq hmax⟩
  | @send allow chunk hs ht hsink =>
      have hcost : (Output.ordered (.data c.id chunk)).cost = charge chunk.length := by
        change charges [chunk] = _
        rw [charges_cons, charges_nil, Nat.add_zero]
      unfold unspent
      rw [hcost, ht]
      change c.credit + 0 + charge chunk.length ≤ c.credit + charge chunk.length
        ∧ (_ → _ → c.credit + 0 + charge chunk.length = c.credit + charge chunk.length)
      omega
  | sendGone hs ht hsink =>
      unfold unspent
      constructor
      · change c.credit + 0 + 0 ≤ _
        omega
      · intro _ hgone
        cases hsink.symm.trans hgone
  | update hs ht hsink => exact hkept rfl
  | part hs hsink =>
      rw [cost_of_not_isData (hcourse.not_isData (Or.inr hs))]
      exact hkept rfl
  | greet hs hsink =>
      rw [cost_of_not_isData (hcourse.not_isData (Or.inl hs))]
      exact hkept rfl
  | @nextInbound cmd cmds hs ht hpending hinbound => cases cmd <;> exact hkept rfl
  | @connecting addr isRdp charged cmd cmds hs hinbound =>
      unfold onConnecting at hkept ⊢
      cases cmd with
      | data b =>
          dsimp only at hkept ⊢
          split_ifs at hkept ⊢ <;> exact hkept rfl
      | close => exact hkept rfl
      | violation => exact hkept rfl
  | grant hs =>
      unfold Chan.grant at hkept ⊢
      exact hkept rfl
  | _ => exact hkept rfl

end Chan

end VynxDesk.Mux
