import VynxDesk.PortForward.Outbound

/-!
# What the two ends of a channel owe each other

The end that receives widens its window before its peer hears of it: what it has added and not told
yet is what it owes (`Chan.owed`).  A direction is balanced when the credit of the sender, what its
frames on the way cost, what the updates on the way add and what the receiver owes make up the
window of the receiver.
-/

namespace VynxDesk.Mux

/-- What a frame adds to the credit of the end that receives it. -/
def addOf : PortForwardChannel → Nat
  | .windowUpdate _ add => add
  | .opened _ true _ window => effectiveWindow window - initialWindow
  | _ => 0

theorem addOf_windowUpdate (id : ChannelId) (add : Nat) :
  addOf (.windowUpdate id add) = add
  := rfl

theorem addOf_opened (id : ChannelId) (message : String) (window : Nat) :
  addOf (.opened id true message window) = effectiveWindow window - initialWindow
  := rfl

/-- What the frames cost. -/
def cost (l : List PortForwardChannel) : Nat := charges (l.filterMap dataOf)

/-- What the frames add. -/
def adds (l : List PortForwardChannel) : Nat := (l.map addOf).sum

@[simp]
theorem cost_nil : cost [] = 0 := rfl

@[simp]
theorem cost_append (l l' : List PortForwardChannel) :
  cost (l ++ l') = cost l + cost l'
  := by
  rw [cost, List.filterMap_append, charges_append]
  rfl

theorem cost_cons (m : PortForwardChannel) (l : List PortForwardChannel) :
  cost (m :: l) = cost [m] + cost l
  := cost_append [m] l

@[simp]
theorem adds_nil : adds [] = 0 := rfl

@[simp]
theorem adds_append (l l' : List PortForwardChannel) :
  adds (l ++ l') = adds l + adds l'
  := by
  simp [adds]

@[simp]
theorem adds_cons (m : PortForwardChannel) (l : List PortForwardChannel) :
  adds (m :: l) = addOf m + adds l
  := by
  simp [adds]

/-- Frames that add nothing, one by one, add nothing. -/
theorem adds_eq_zero {l : List PortForwardChannel} (h : ∀ m ∈ l, addOf m = 0) :
  adds l = 0
  := by
  induction l with
  | nil => rfl
  | cons m l ih =>
      rw [List.forall_mem_cons] at h
      rw [adds_cons, h.1, ih h.2]

/-- The update the relay has to send. -/
def ToSocket.owed : ToSocket → Nat
  | .update add => add
  | _ => 0

/-- What the first frame is going to add. -/
def Stage.owed : Stage → Nat
  | .greeting m => addOf m
  | _ => 0

namespace Chan

/-- What the channel has added to its window, and has not told its peer yet. -/
def owed (c : Chan) : Nat := c.toSocket.owed + c.stage.owed

variable {side : Side} {c c' : Chan}

theorem owed_of_sameTask (h : SameTask c c') :
  c'.owed = c.owed
  := by
  rw [owed, owed]
  rw [h.toSocket, h.stage]

/-- The last frame of a task adds nothing. -/
theorem Course.addOf_parting (h : c.Course side) {m : PortForwardChannel}
    (hs : c.stage = .parting m) :
  addOf m = 0
  := by
  rw [Course] at h
  rw [hs] at h
  obtain ⟨rfl, -⟩ | ⟨-, -, rfl, -⟩ | ⟨-, -, -, reason, rfl⟩ := h <;> rfl

/-- What a step of the task adds to the window, it owes or tells. -/
theorem Step.owed {gone down : Bool} {out : Output} (hcourse : c.Course side)
    (hwindowed : c.Windowed) (hsink : gone = false) (hstep : Step gone down c out c') :
  c'.owed + adds out.frames + c.window.remaining = c.owed + c'.window.remaining
  := by
  have hquiet : c'.window = c.window → c'.owed = c.owed →
      c'.owed + adds Output.quiet.frames + c.window.remaining = c.owed + c'.window.remaining := by
    intro hwindow howed
    rw [hwindow, howed]
    rfl
  cases hstep with
  | @account chunk hs ht =>
      have hle := Nat.le_trans (hwindowed.total_add_charge hs ht) channelWindow_le
      have hadd := (RecvWindow.drained_total hle).2
      have howed : (c.account chunk.length).owed = (c.window.drained chunk.length).2.getD 0 := by
        unfold Chan.account Chan.owed
        rw [hs]
        dsimp only
        cases (c.window.drained chunk.length).2 <;> rfl
      have hnone : c.owed = 0 := by
        unfold Chan.owed
        rw [hs, ht]
        rfl
      rw [howed, hnone]
      change _ + 0 + _ = 0 + (c.window.drained chunk.length).1.remaining
      omega
  | grant hs =>
      have hle := hwindowed.bounded.grant_le hs
      have hadd := (RecvWindow.grant_total hle).1
      have howed : c.grant.owed = c.owed + (channelWindow - initialWindow) := by
        unfold Chan.grant Chan.owed
        rw [hs]
        rfl
      have hremaining : c.grant.window.remaining
          = c.window.remaining + (channelWindow - initialWindow) := by
        unfold Chan.grant
        exact hadd
      rw [howed, hremaining]
      change _ + _ + 0 + _ = _
      omega
  | @update add hs ht hopen =>
      unfold Chan.owed
      rw [ht]
      change 0 + c.stage.owed + (add + 0) + c.window.remaining
        = add + c.stage.owed + c.window.remaining
      omega
  | @greet m hs hopen =>
      unfold Chan.owed
      rw [hs]
      change c.toSocket.owed + 0 + (addOf m + 0) + c.window.remaining
        = c.toSocket.owed + addOf m + c.window.remaining
      omega
  | @part m hs hopen =>
      have hm := hcourse.addOf_parting hs
      unfold Chan.owed
      rw [hs]
      change c.toSocket.owed + 0 + (addOf m + 0) + c.window.remaining
        = c.toSocket.owed + 0 + c.window.remaining
      omega
  | sendGone hs ht hgone => cases hsink.symm.trans hgone
  | updateGone hs ht hgone => cases hsink.symm.trans hgone
  | partGone hs hgone => cases hsink.symm.trans hgone
  | greetGone hs hgone => cases hsink.symm.trans hgone
  | send hs ht hopen =>
      unfold Chan.owed
      rfl
  | @nextInbound cmd cmds hs ht hpending hinbound =>
      cases cmd with
      | _ =>
          apply hquiet rfl
          unfold Chan.owed
          rw [ht]
          rfl
  | nextPending hs ht hpending | nextGone hs ht hpending hinbound hlisted
  | cancelNext hs ht hpending hcancel | write hs ht | writeFailed hs ht
  | cancelWrite hs ht hcancel =>
      apply hquiet rfl
      unfold Chan.owed
      rw [ht]
      rfl
  | @connecting addr isRdp charged cmd cmds hs hinbound =>
      unfold onConnecting at hquiet ⊢
      cases cmd with
      | data b =>
          dsimp only at hquiet ⊢
          split_ifs at hquiet ⊢ with hfits
          · apply hquiet rfl
            unfold Chan.owed
            rw [hs]
            rfl
          · apply hquiet rfl
            unfold Chan.owed
            rw [hs]
            rfl
      | close | violation =>
          apply hquiet rfl
          unfold Chan.owed
          rw [hs]
          rfl
  | join hs htunnel hsocket =>
      apply hquiet rfl
      unfold Chan.owed
      rw [hs]
      dsimp only
      split_ifs <;> rfl
  | connectingGone hs hinbound hlisted | connected hs hinbound hlisted
  | connectFailed hs hinbound hlisted =>
      apply hquiet rfl
      unfold Chan.owed
      rw [hs]
      rfl
  | _ =>
      apply hquiet rfl
      unfold Chan.owed
      rfl

/-! ### A frame of the peer -/

/-- What the demultiplexer of an end does with a frame of a channel, while the table has the entry.
-/
def onFrame (side : Side) (m : PortForwardChannel) (c : Chan) : Chan :=
  if c.listed then
    match m with
    | .data _ data => c.onData data
    | .close _ => c.onClose
    | .windowUpdate _ add => c.onWindowUpdate add
    | .opened _ success _ window =>
        match side, success with
        | .controller, true => c.onOpened window
        | .controller, false => c.onClose
        | .controlled, _ => c
    | .openCh _ _ _ _ | .other => c
  else c

/-- An entry that has left the table takes no frame. -/
theorem onFrame_of_unlisted (side : Side) (m : PortForwardChannel) (h : c.listed = false) :
  c.onFrame side m = c
  := by
  unfold onFrame
  rw [h]
  rfl

/-- What the demultiplexer does with a frame is something an end does to a channel. -/
theorem move_onFrame (t : Teardown) (side : Side) (m : PortForwardChannel) (c : Chan) :
  Move side t c (c.onFrame side m)
  := by
  unfold onFrame
  split_ifs with hlisted
  · cases m with
    | data id data => exact .data data hlisted
    | close id => exact .close hlisted
    | windowUpdate id add => exact .windowUpdate add hlisted
    | opened id success message window =>
        cases side with
        | controller =>
            cases success with
            | true => exact .opened window hlisted rfl
            | false => exact .close hlisted
        | controlled => exact .stay
    | openCh id host port window => exact .stay
    | other => exact .stay
  · exact .stay

/-- A frame leaves the task where it was. -/
theorem sameTask_onFrame (side : Side) (m : PortForwardChannel) (c : Chan) :
  SameTask c (c.onFrame side m)
  := by
  have hclose : SameTask c c.onClose := (SameTask.refl c).unlist.push .close
  unfold onFrame
  split_ifs with hlisted
  · cases m with
    | data id data => exact sameTask_onData data c
    | close id => exact hclose
    | windowUpdate id add => constructor <;> rfl
    | opened id success message window =>
        cases side with
        | controller =>
            cases success with
            | true => exact sameTask_onOpened window c
            | false => exact hclose
        | controlled => exact SameTask.refl c
    | openCh id host port window => exact SameTask.refl c
    | other => exact SameTask.refl c
  · exact SameTask.refl c

theorem onClose_listed (c : Chan) : c.onClose.listed = false := push_listed .close c.unlist

/-- A `data` frame that leaves the entry in the table is taken from its window. -/
theorem onData_remaining {data : Bytes} (hlisted : (c.onData data).listed = true) :
  (c.onData data).window.remaining + charge data.length = c.window.remaining
    ∧ (c.onData data).accepted = c.accepted ++ [data]
  := by
  cases haccept : c.window.accept data.length with
  | none =>
      rw [onData] at hlisted
      rw [haccept] at hlisted
      cases hlisted.symm.trans (push_listed .violation c.unlist)
  | some w =>
      by_cases hreceiving : c.receiving = true
      · rw [onData_of_receiving haccept hreceiving]
        exact ⟨(RecvWindow.accept_eq_some.mp haccept).1, rfl⟩
      · have hnot : ¬ Chan.receiving { c with window := w, accepted := c.accepted ++ [data] } = true :=
          hreceiving
        rw [onData] at hlisted
        rw [haccept] at hlisted
        dsimp only at hlisted
        rw [if_neg hnot] at hlisted
        cases hlisted

/-- A frame that leaves the entry in the table is taken from its window. -/
theorem onFrame_remaining {m : PortForwardChannel} (hlisted : (c.onFrame side m).listed = true) :
  (c.onFrame side m).window.remaining + cost [m] = c.window.remaining
  := by
  unfold onFrame at hlisted ⊢
  split_ifs at hlisted ⊢ with hbefore
  · cases m with
    | data id data =>
        have hcost : cost [.data id data] = charge data.length := charges_cons data []
        rw [hcost]
        exact (onData_remaining hlisted).1
    | close id => cases hlisted.symm.trans (onClose_listed c)
    | windowUpdate id add => rfl
    | opened id success message window =>
        cases side with
        | controller =>
            cases success with
            | true =>
                dsimp only
                rw [onOpened]
                split_ifs <;> rfl
            | false => cases hlisted.symm.trans (onClose_listed c)
        | controlled => rfl
    | openCh id host port window => rfl
    | other => rfl
  · cases hbefore hlisted

/-- A frame adds to the credit what it brings, unless it is an `opened` that is repeated. -/
theorem onFrame_unspent {m : PortForwardChannel} (hlisted : (c.onFrame side m).listed = true)
    (hle : c.unspent + addOf m ≤ maxSendCredit) (hopened : c.opened = true → ∀ id message window,
      m ≠ .opened id true message window)
    (hside : side = .controlled → ∀ id message window, m ≠ .opened id true message window) :
  (c.onFrame side m).unspent = c.unspent + addOf m
  := by
  have hcredit : c.credit + addOf m ≤ maxSendCredit := by
    rw [unspent] at hle
    omega
  unfold onFrame at hlisted ⊢
  split_ifs at hlisted ⊢ with hbefore
  · cases m with
    | data id data => exact onData_unspent data c
    | close id => cases hlisted.symm.trans (onClose_listed c)
    | windowUpdate id add =>
        rw [addOf_windowUpdate] at hcredit ⊢
        rw [unspent, unspent]
        change SendCredit.add add c.credit + c.toTunnel.taken = _
        rw [SendCredit.add_of_le hcredit]
        omega
    | opened id success message window =>
        cases success with
        | false =>
            cases side with
            | controller => cases hlisted.symm.trans (onClose_listed c)
            | controlled => rfl
        | true =>
            cases side with
            | controlled => exact absurd rfl (hside rfl id message window)
            | controller =>
                have hopen : ¬ c.opened = true := fun h => hopened h id message window rfl
                dsimp only
                rw [onOpened]
                rw [addOf_opened] at hcredit ⊢
                rw [if_neg hopen]
                unfold unspent SendCredit.raiseInitial
                dsimp only
                split_ifs with hextra
                · rw [SendCredit.add_of_le hcredit]
                  omega
                · omega
    | openCh id host port window => rfl
    | other => rfl
  · cases hbefore hlisted

theorem Windowed.remaining_le (h : c.Windowed) :
  c.window.remaining ≤ maxSendCredit
  := by
  have htotal := h.total
  have hgranted := h.granted
  rw [RecvWindow.total] at htotal
  change _ ≤ channelWindow
  omega

end Chan

/-! ### A balanced direction -/

/-- One direction is balanced: the credit of the sender, what its frames on the way cost, what the
frames on the way back add, and what the receiver owes make up the window of the receiver. -/
def Balanced (sender receiver : Chan) (toReceiver toSender : List PortForwardChannel) : Prop :=
  sender.unspent + cost toReceiver + adds toSender + receiver.owed = receiver.window.remaining

namespace Balanced

variable {c c' peer : Chan} {toPeer toPeer' fromPeer fromPeer' : List PortForwardChannel}

/-- A step of a task keeps both directions balanced. -/
theorem step {side : Side} {down : Bool} {out : Output} (hcourse : c.Course side)
    (hpaying : c.Paying) (hwindowed : c.Windowed) (hpeer : peer.Windowed)
    (hstep : Chan.Step false down c out c') (hcost : cost toPeer' = cost toPeer + cost out.frames)
    (hadds : adds toPeer' = adds toPeer + adds out.frames)
    (hto : Balanced c peer toPeer fromPeer) (hfrom : Balanced peer c fromPeer toPeer) :
  Balanced c' peer toPeer' fromPeer ∧ Balanced peer c' fromPeer toPeer'
  := by
  have hle := hpeer.remaining_le
  rw [Balanced] at hto hfrom
  have hunspent : c'.unspent + cost out.frames = c.unspent :=
    (hstep.credit hpaying hcourse).2 (by omega) rfl
  have howed := hstep.owed hcourse hwindowed rfl
  rw [Balanced, Balanced]
  omega

/-- A frame that leaves the entry in the table keeps both directions balanced. -/
theorem deliver {side : Side} {m : PortForwardChannel} (hpeer : peer.Windowed)
    (hlisted : (c.onFrame side m).listed = true)
    (hopened : c.opened = true → ∀ id message window, m ≠ .opened id true message window)
    (hside : side = .controlled → ∀ id message window, m ≠ .opened id true message window)
    (hcost : cost fromPeer = cost [m] + cost fromPeer')
    (hadds : adds fromPeer = addOf m + adds fromPeer')
    (hto : Balanced c peer toPeer fromPeer) (hfrom : Balanced peer c fromPeer toPeer) :
  Balanced (c.onFrame side m) peer toPeer fromPeer' ∧ Balanced peer (c.onFrame side m) fromPeer' toPeer
  := by
  have hle := hpeer.remaining_le
  rw [Balanced] at hto hfrom
  have hunspent := Chan.onFrame_unspent hlisted (by omega) hopened hside
  have hremaining := Chan.onFrame_remaining hlisted
  have howed := Chan.owed_of_sameTask (Chan.sameTask_onFrame side m c)
  rw [Balanced, Balanced, howed]
  omega

end Balanced

end VynxDesk.Mux
