import VynxDesk.Lib.Pipe
import VynxDesk.PortForward.Balance
import VynxDesk.PortForward.Stream

/-!
# One direction of a channel

What one end of a channel has sent arrives at the other end in order.  `Flow` says what the receiver
has made of what has arrived: it has accepted the data frames, as long as the table has its entry,
and once it has found the peer's `close` it has accepted all there is.
-/

namespace VynxDesk.Mux

/-- The frame opens the channel. -/
def opens : PortForwardChannel → Bool
  | .openCh _ _ _ _ => true
  | .opened _ success _ _ => success
  | _ => false

/-- The frame is the last one of its channel. -/
def isLast : PortForwardChannel → Bool
  | .close _ => true
  | .opened _ success _ _ => !success
  | _ => false

namespace Output

/-- What a step of the controller puts on its data queue. -/
def toData : Output → List PortForwardChannel
  | .ordered m => [m]
  | _ => []

/-- What a step of the controller puts on its control queue. -/
def toControl : Output → List PortForwardChannel
  | .control m => [m]
  | _ => []

theorem frames_eq (out : Output) :
  out.frames = out.toData ++ out.toControl
  := by
  cases out <;> rfl

end Output

namespace Chan

variable {side : Side} {id : ChannelId} {c c' : Chan} {m : PortForwardChannel}
  {l : List PortForwardChannel} {out : Output}

theorem opens_of_isBody (h : IsBody id m) :
  opens m = false ∧ isLast m = false
  := by
  obtain ⟨data, rfl⟩ | ⟨add, rfl⟩ := h <;> exact ⟨rfl, rfl⟩

theorem isLast_of_greets (h : Greets side id m) :
  isLast m = false
  := by
  cases side with
  | controller =>
      obtain ⟨host, port, rfl⟩ := h
      rfl
  | controlled =>
      cases h
      rfl

/-- Only the first frame of a channel opens it. -/
theorem Grammar.opens_tail (h : Grammar side id l) :
  ∀ m ∈ l.tail, opens m = false
  := by
  cases h with
  | nothing => exact nofun
  | refused hside reason => exact nofun
  | closed hside => exact nofun
  | running hg hbody => exact fun m hm => (opens_of_isBody (hbody m hm)).1
  | parted hg hbody =>
      intro m hm
      rw [List.cons_append, List.tail_cons, List.mem_append, List.mem_singleton] at hm
      obtain hm | rfl := hm
      · exact (opens_of_isBody (hbody m hm)).1
      · rfl

/-- Nothing follows the last frame of a channel. -/
theorem Grammar.isLast_dropLast (h : Grammar side id l) :
  ∀ m ∈ l.dropLast, isLast m = false
  := by
  cases h with
  | nothing => exact nofun
  | refused hside reason => exact nofun
  | closed hside => exact nofun
  | running hg hbody =>
      intro m hm
      obtain rfl | hm := List.mem_cons.mp (List.mem_of_mem_dropLast hm)
      · apply isLast_of_greets hg
      · exact (opens_of_isBody (hbody m hm)).2
  | parted hg hbody =>
      intro m hm
      rw [List.dropLast_concat] at hm
      obtain rfl | hm := List.mem_cons.mp hm
      · apply isLast_of_greets hg
      · exact (opens_of_isBody (hbody m hm)).2

/-- The frame that opens a channel is the first. -/
theorem Grammar.eq_nil_of_opens {l' : List PortForwardChannel}
    (h : Grammar side id (l ++ m :: l')) (hm : opens m = true) :
  l = []
  := by
  cases l with
  | nil => rfl
  | cons x l =>
      have hfalse := h.opens_tail m (by simp)
      cases hm.symm.trans hfalse

/-- The frame that ends a channel is the last. -/
theorem Grammar.eq_nil_of_isLast {l' : List PortForwardChannel}
    (h : Grammar side id (l ++ m :: l')) (hm : isLast m = true) :
  l' = []
  := by
  by_contra hne
  have hmem : m ∈ (l ++ m :: l').dropLast := by
    rw [List.dropLast_append_of_ne_nil (List.cons_ne_nil m l'), List.dropLast_cons_of_ne_nil hne]
    simp
  cases hm.symm.trans (h.isLast_dropLast m hmem)

theorem Running.isLast_eq_false (h : c.Running side l) (hm : m ∈ l) :
  isLast m = false
  := by
  obtain ⟨g, body, hg, hbody, rfl⟩ := h
  obtain rfl | hm := List.mem_cons.mp hm
  · apply isLast_of_greets hg
  · exact (opens_of_isBody (hbody m hm)).2

/-- A task that has sent its last frame has ended. -/
theorem Course.ended (h : c.Course side) (hm : m ∈ c.sent) (hlast : isLast m = true) :
  c.stage = .ended
  := by
  have hnothing : c.sent ≠ [] := List.ne_nil_of_mem hm
  rw [Course] at h
  split at h
  · exact absurd h.2.1.sent hnothing
  · exact absurd h.2.1.sent hnothing
  · exact absurd h.2.1.sent hnothing
  · cases hlast.symm.trans (h.1.isLast_eq_false hm)
  · obtain ⟨-, hrun, -⟩ | ⟨-, hrelay, -⟩ | ⟨-, hrelay, -⟩ := h
    · cases hlast.symm.trans (hrun.isLast_eq_false hm)
    · exact absurd hrelay.sent hnothing
    · exact absurd hrelay.sent hnothing
  · assumption

/-- What the controller's task says in order. -/
theorem Course.mem_emitted (h : c.Course .controller) (hm : m ∈ c.emitted .controller) :
  (∃ host port, m = .openCh c.id host port channelWindow) ∨ (∃ data, m = .data c.id data)
    ∨ m = .close c.id
  := by
  have hordered : isOrdered m = true := (List.mem_filter.mp hm).2
  have hbody : IsBody c.id m → ∃ data, m = .data c.id data := by
    rintro (hdata | ⟨add, rfl⟩)
    · exact hdata
    · cases hordered
  have hgrammar := h.grammar
  generalize c.emitted .controller = l at hgrammar hm
  cases hgrammar with
  | nothing => cases hm
  | refused hside reason => cases hside
  | closed hside => cases hside
  | running hg hb =>
      obtain rfl | hm := List.mem_cons.mp hm
      · exact Or.inl hg
      · exact Or.inr (Or.inl (hbody (hb m hm)))
  | parted hg hb =>
      rw [List.cons_append, List.mem_cons, List.mem_append, List.mem_singleton] at hm
      obtain rfl | hm | rfl := hm
      · exact Or.inl hg
      · exact Or.inr (Or.inl (hbody (hb m hm)))
      · exact Or.inr (Or.inr rfl)

/-- A step of the task says what it puts on its sink, which is nothing when its sink is closed. -/
theorem Step.says {gone down : Bool} (hstep : Step gone down c out c') :
  c'.sent = c.sent ++ out.frames ∧ (gone = true → out = .quiet)
  := by
  have hquiet : c.sent = c.sent ++ Output.quiet.frames := (List.append_nil _).symm
  cases hstep with
  | send hs ht hsink | update hs ht hsink | part hs hsink | greet hs hsink =>
      refine ⟨rfl, ?_⟩
      intro hgone
      cases hsink.symm.trans hgone
  | @nextInbound cmd cmds hs ht hpending hinbound => cases cmd <;> exact ⟨hquiet, fun _ => rfl⟩
  | @connecting addr isRdp charged cmd cmds hs hinbound =>
      unfold onConnecting
      cases cmd with
      | data b =>
          dsimp only
          split_ifs <;> exact ⟨hquiet, fun _ => rfl⟩
      | close => exact ⟨hquiet, fun _ => rfl⟩
      | violation => exact ⟨hquiet, fun _ => rfl⟩
  | grant hs =>
      unfold Chan.grant
      exact ⟨hquiet, fun _ => rfl⟩
  | _ => exact ⟨hquiet, fun _ => rfl⟩

/-- A task that has ended takes no step. -/
theorem Step.not_ended {gone down : Bool} (hstep : Step gone down c out c') :
  c.stage ≠ .ended
  := by
  intro hended
  cases hstep <;> simp_all

/-- What the controller's task puts on its two queues. -/
theorem Step.queues {gone down : Bool} (hcourse : c.Course .controller)
    (hstep : Step gone down c out c') :
  inOrder .controller out.frames = out.toData
    ∧ ∀ m ∈ out.toControl, ∃ add, m = .windowUpdate c.id add
  := by
  cases hstep with
  | update hs ht hsink =>
      refine ⟨rfl, ?_⟩
      intro m hm
      exact ⟨_, List.mem_singleton.mp hm⟩
  | @part m hs hsink =>
      refine ⟨?_, by rintro m ⟨⟩⟩
      have hm : isOrdered m = true := by
        rw [Course] at hcourse
        rw [hs] at hcourse
        obtain ⟨rfl, -⟩ | ⟨-, -, rfl, -⟩ | ⟨-, -, -, reason, rfl⟩ := hcourse <;> rfl
      exact List.filter_cons_of_pos hm
  | @greet m hs hsink =>
      refine ⟨?_, by rintro m ⟨⟩⟩
      have hm : isOrdered m = true := by
        rw [Course] at hcourse
        rw [hs] at hcourse
        obtain ⟨host, port, rfl⟩ := hcourse.1
        rfl
      exact List.filter_cons_of_pos hm
  | _ => exact ⟨rfl, by rintro m ⟨⟩⟩

/-- The data frames keep their order on either queue. -/
theorem dataOf_inOrder (side : Side) (l : List PortForwardChannel) :
  (inOrder side l).filterMap dataOf = l.filterMap dataOf
  := by
  cases side with
  | controlled => rfl
  | controller =>
      rw [inOrder]
      rw [List.filterMap_filter]
      apply List.filterMap_congr
      intro m hm
      cases m <;> rfl

theorem inOrder_append (side : Side) (l l' : List PortForwardChannel) :
  inOrder side (l ++ l') = inOrder side l ++ inOrder side l'
  := by
  cases side with
  | controlled => rfl
  | controller => exact List.filter_append l l'

/-! ### The peer's `close` -/

/-- The channel has been told that its peer has closed it. -/
def Closing (c : Chan) : Prop := .close ∈ c.inbound ∨ c.toSocket = .done .peerClosed

/-- A channel that is told so has left the table. -/
theorem Received.unlisted (h : c.Received) (hclosing : c.Closing) :
  c.listed = false
  := by
  obtain hmem | hdone := hclosing
  · rw [Bool.eq_false_iff]
    intro hlisted
    exact h.entry hlisted .close hmem rfl
  · exact (h.closed hdone).1

/-- The task learns of it only from the inbound queue. -/
theorem Step.closing {gone down : Bool} (hstep : Step gone down c out c') (hclosing : c'.Closing) :
  c.Closing
  := by
  have hsuffix := hstep.entry.2.2
  obtain hmem | hdone := hclosing
  · exact Or.inl (hsuffix.subset hmem)
  · have hkept : c'.toSocket = c.toSocket → c.Closing := fun heq => Or.inr (heq ▸ hdone)
    cases hstep with
    | @nextInbound cmd cmds hs ht hpending hinbound =>
        cases cmd with
        | data b => cases hdone
        | close =>
            left
            rw [hinbound]
            apply List.mem_cons_self
        | violation => cases hdone
    | @connecting addr isRdp charged cmd cmds hs hinbound =>
        unfold onConnecting at hkept
        cases cmd with
        | data b =>
            dsimp only at hkept
            split_ifs at hkept
            · exact hkept rfl
            · exact hkept rfl
        | close => exact hkept rfl
        | violation => exact hkept rfl
    | @account chunk hs ht =>
        unfold Chan.account at hdone
        dsimp only at hdone
        split at hdone <;> cases hdone
    | nextPending hs ht hpending => cases hdone
    | nextGone hs ht hpending hinbound hlisted => cases hdone
    | cancelNext hs ht hpending hcancel => cases hdone
    | write hs ht => cases hdone
    | writeFailed hs ht => cases hdone
    | cancelWrite hs ht hcancel => cases hdone
    | update hs ht hsink => cases hdone
    | updateGone hs ht hsink => cases hdone
    | grant hs =>
        unfold Chan.grant at hkept
        exact hkept rfl
    | _ => exact hkept rfl

/-- An entry that leaves the table without a word tells nothing. -/
theorem closing_of_unlist (hclosing : c.unlist.Closing) : c.Closing := hclosing

/-- A frame that is no last one does not tell that the peer has closed the channel. -/
theorem closing_of_onFrame (hm : isLast m = false) (hclosing : (c.onFrame side m).Closing) :
  c.Closing
  := by
  have hpush : ∀ (c : Chan) (cmd : Inbound), cmd ≠ .close → (c.push cmd).Closing → c.Closing := by
    intro c cmd hcmd h
    rw [push] at h
    split_ifs at h
    · obtain hmem | hdone := h
      · obtain hmem | hmem := List.mem_append.mp hmem
        · exact Or.inl hmem
        · exact absurd (List.mem_singleton.mp hmem).symm hcmd
      · exact Or.inr hdone
    · exact h
  unfold onFrame at hclosing
  split_ifs at hclosing with hlisted
  · cases m with
    | data id data =>
        dsimp only at hclosing
        rw [onData] at hclosing
        cases haccept : c.window.accept data.length with
        | none =>
            rw [haccept] at hclosing
            exact hpush c.unlist .violation (by rintro ⟨⟩) hclosing
        | some w =>
            rw [haccept] at hclosing
            dsimp only at hclosing
            split_ifs at hclosing
            · exact hpush { c with window := w, accepted := c.accepted ++ [data] } (.data data) (by rintro ⟨⟩)
                hclosing
            · exact hclosing
    | close id => cases hm
    | windowUpdate id add => exact hclosing
    | opened id success message window =>
        cases success with
        | false => cases hm
        | true =>
            cases side with
            | controller =>
                have hinbound : (c.onOpened window).inbound = c.inbound := by
                  rw [onOpened]
                  split_ifs <;> rfl
                dsimp only at hclosing
                rw [Closing] at hclosing ⊢
                rw [hinbound, (sameTask_onOpened window c).toSocket] at hclosing
                exact hclosing
            | controlled => exact hclosing
    | openCh id host port window => exact hclosing
    | other => exact hclosing
  · exact hclosing

/-- A frame that leaves the entry in the table is accepted when it brings data. -/
theorem onFrame_accepted (side : Side) (m : PortForwardChannel) (c : Chan) :
  ((c.onFrame side m).accepted = c.accepted ∧ (c.onFrame side m).listed = false)
    ∨ (c.onFrame side m).accepted = c.accepted ++ [m].filterMap dataOf
  := by
  have hpush : ∀ cmd, (c.unlist.push cmd).accepted = c.accepted := by
    intro cmd
    rw [push]
    split_ifs <;> rfl
  have hclose : c.onClose.accepted = c.accepted ∧ c.onClose.listed = false :=
    ⟨hpush .close, onClose_listed c⟩
  have hnone : c.accepted = c.accepted ++ [] := (List.append_nil _).symm
  unfold onFrame
  split_ifs with hlisted
  · cases m with
    | data id data =>
        dsimp only
        rw [onData]
        cases haccept : c.window.accept data.length with
        | none => exact Or.inl ⟨hpush .violation, push_listed .violation c.unlist⟩
        | some w =>
            right
            dsimp only
            rw [push]
            split_ifs <;> rfl
    | close id => exact Or.inl hclose
    | windowUpdate id add => exact Or.inr hnone
    | opened id success message window =>
        cases side with
        | controlled => exact Or.inr hnone
        | controller =>
            cases success with
            | false => exact Or.inl hclose
            | true =>
                right
                dsimp only
                rw [onOpened]
                split_ifs <;> exact hnone
    | openCh id host port window => exact Or.inr hnone
    | other => exact Or.inr hnone
  · left
    exact ⟨rfl, by simpa using hlisted⟩

theorem onFrame_listed (h : (c.onFrame side m).listed = true) :
  c.listed = true
  := by
  by_contra hlisted
  rw [onFrame_of_unlisted side m (by simpa using hlisted)] at h
  exact hlisted h

end Chan

/-! ### What arrives -/

/-- What the sender has sent in order arrives at the receiver, which accepts the data frames while
its table has the entry.  A receiver that is told that its peer has closed the channel has accepted
all that the peer has framed. -/
structure Flow (side : Side) (cut : Bool) (sender receiver : Chan)
    (arrived queue : List PortForwardChannel) : Prop where
  pipe : Pipe (sender.emitted side) (cut = true) arrived queue
  accepted : receiver.accepted <+: arrived.filterMap dataOf
  whole : receiver.listed = true → receiver.accepted = arrived.filterMap dataOf
  closed : receiver.Closing →
    sender.stage = .ended ∧ receiver.accepted = sender.sent.filterMap dataOf

namespace Flow

variable {side : Side} {cut : Bool} {sender sender' receiver receiver' : Chan} {m : PortForwardChannel}
  {arrived queue queue' : List PortForwardChannel}

/-- The sender's task takes a step. -/
theorem send {down : Bool} {out : Output} (h : Flow side cut sender receiver arrived queue)
    (hstep : Chan.Step cut down sender out sender') :
  Flow side cut sender' receiver arrived (queue ++ Chan.inOrder side out.frames)
  := by
  obtain ⟨hsent, hquiet⟩ := hstep.says
  have hemitted : sender'.emitted side = sender.emitted side ++ Chan.inOrder side out.frames := by
    rw [Chan.emitted, hsent, Chan.inOrder_append]
    rfl
  refine ⟨?_, h.accepted, h.whole, ?_⟩
  · rw [hemitted]
    cases cut with
    | false => exact h.pipe.send (by rintro ⟨⟩) _
    | true =>
        rw [hquiet rfl]
        have hnil : Chan.inOrder side Output.quiet.frames = [] := by cases side <;> rfl
        rw [hnil, List.append_nil, List.append_nil]
        exact h.pipe
  · intro hclosing
    exact absurd (h.closed hclosing).1 hstep.not_ended

/-- Something is done to the sender that leaves its task where it was. -/
theorem sameSender (h : Flow side cut sender receiver arrived queue)
    (hsame : Chan.SameTask sender sender') :
  Flow side cut sender' receiver arrived queue
  := by
  constructor
  · rw [Chan.emitted, hsame.sent]
    exact h.pipe
  · exact h.accepted
  · exact h.whole
  · rw [hsame.stage, hsame.sent]
    exact h.closed

/-- What is done to the receiver accepts nothing, and tells it nothing. -/
theorem sameReceiver (h : Flow side cut sender receiver arrived queue)
    (haccepted : receiver'.accepted = receiver.accepted)
    (hlisted : receiver'.listed = true → receiver.listed = true)
    (hclosing : receiver'.Closing → receiver.Closing) :
  Flow side cut sender receiver' arrived queue
  := by
  constructor
  · exact h.pipe
  · rw [haccepted]
    exact h.accepted
  · rw [haccepted]
    exact fun hl => h.whole (hlisted hl)
  · rw [haccepted]
    exact fun hc => h.closed (hclosing hc)

/-- The receiver's task takes a step. -/
theorem receive {gone down : Bool} {out : Output}
    (h : Flow side cut sender receiver arrived queue)
    (hstep : Chan.Step gone down receiver out receiver') :
  Flow side cut sender receiver' arrived queue
  := by
  obtain ⟨hlisted, haccepted, -⟩ := hstep.entry
  apply h.sameReceiver haccepted _ hstep.closing
  rw [hlisted]
  exact fun hl => hl

/-- The receiver's entry leaves the table. -/
theorem unlist (h : Flow side cut sender receiver arrived queue) :
  Flow side cut sender receiver.unlist arrived queue
  := h.sameReceiver rfl nofun Chan.closing_of_unlist

/-- The queue is dropped. -/
theorem drop (h : Flow side cut sender receiver arrived queue) (hqueue : queue' <+: queue) :
  Flow side true sender receiver arrived queue'
  := ⟨h.pipe.cutOff rfl hqueue, h.accepted, h.whole, h.closed⟩

theorem filterMap_dataOf_of_isLast (hm : isLast m = true) :
  [m].filterMap dataOf = []
  := by
  cases m with
  | data id data => cases hm
  | _ => rfl

/-- Everything has arrived when the last frame has. -/
theorem all_of_last (h : Flow side cut sender receiver arrived (m :: queue))
    (hcourse : sender.Course side) (hm : isLast m = true) :
  sender.stage = .ended ∧ sender.sent.filterMap dataOf = arrived.filterMap dataOf
  := by
  obtain ⟨rest, hrest⟩ := h.pipe.order
  have hgrammar := hcourse.grammar
  rw [← hrest, List.append_assoc, List.cons_append] at hgrammar
  have hnil := hgrammar.eq_nil_of_isLast hm
  have hemitted : sender.emitted side = arrived ++ [m] := by
    rw [← hrest, List.append_assoc, List.cons_append, hnil]
  constructor
  · apply hcourse.ended _ hm
    have hmem : m ∈ sender.emitted side := by
      rw [hemitted]
      simp
    rw [Chan.emitted] at hmem
    cases side with
    | controlled => exact hmem
    | controller => exact (List.mem_filter.mp hmem).1
  · rw [← Chan.dataOf_inOrder side, ← Chan.emitted, hemitted, List.filterMap_append,
      filterMap_dataOf_of_isLast hm, List.append_nil]

/-- The first frame on its way arrives. -/
theorem deliver (h : Flow side cut sender receiver arrived (m :: queue)) (s : Side)
    (hcourse : sender.Course side) (hreceived : receiver.Received) :
  Flow side cut sender (receiver.onFrame s m) (arrived ++ [m]) queue
  := by
  have harrived : receiver.accepted <+: (arrived ++ [m]).filterMap dataOf := by
    rw [List.filterMap_append]
    apply h.accepted.trans (List.prefix_append _ _)
  by_cases hlisted : receiver.listed = true
  · have hwhole := h.whole hlisted
    have hclosed : (receiver.onFrame s m).accepted = receiver.accepted ++ [m].filterMap dataOf
          ∨ (receiver.onFrame s m).accepted = receiver.accepted →
        (receiver.onFrame s m).Closing →
        sender.stage = .ended ∧ (receiver.onFrame s m).accepted = sender.sent.filterMap dataOf := by
      intro haccepted hclosing
      by_cases hm : isLast m = true
      · obtain ⟨hended, hall⟩ := h.all_of_last hcourse hm
        rw [filterMap_dataOf_of_isLast hm, List.append_nil, or_self] at haccepted
        rw [haccepted, hall]
        exact ⟨hended, hwhole⟩
      · have hbefore := Chan.closing_of_onFrame (by simpa using hm) hclosing
        cases hlisted.symm.trans (hreceived.unlisted hbefore)
    obtain ⟨haccepted, hunlisted⟩ | haccepted := Chan.onFrame_accepted s m receiver
    · refine ⟨h.pipe.deliver, ?_, ?_, hclosed (Or.inr haccepted)⟩
      · rw [haccepted]
        exact harrived
      · intro hl
        cases hunlisted.symm.trans hl
    · have hall : (receiver.onFrame s m).accepted = (arrived ++ [m]).filterMap dataOf := by
        rw [haccepted, hwhole, List.filterMap_append]
      refine ⟨h.pipe.deliver, ?_, fun _ => hall, hclosed (Or.inl haccepted)⟩
      rw [hall]
  · have hunlisted : receiver.listed = false := by simpa using hlisted
    rw [Chan.onFrame_of_unlisted s m hunlisted]
    exact ⟨h.pipe.deliver, harrived, fun hl => absurd hl hlisted, h.closed⟩

/-- A frame that does not come in order brings no data, and it is no last one. -/
theorem aside (h : Flow side cut sender receiver arrived queue) (s : Side) {id : ChannelId}
    {add : Nat} :
  Flow side cut sender (receiver.onFrame s (.windowUpdate id add)) arrived queue
  := by
  apply h.sameReceiver
  · obtain ⟨haccepted, -⟩ | haccepted := Chan.onFrame_accepted s (.windowUpdate id add) receiver
    · exact haccepted
    · rw [haccepted]
      apply List.append_nil
  · exact Chan.onFrame_listed
  · exact Chan.closing_of_onFrame rfl

/-! ### The bytes -/

/-- The receiver has written, in order, what the local side of the sender has produced. -/
theorem written_prefix (h : Flow side cut sender receiver arrived queue) (hsourced : sender.Sourced)
    (hreceived : receiver.Received) :
  receiver.written <+: sender.produced
  := by
  have harrived : arrived.filterMap dataOf <+: sender.sent.filterMap dataOf := by
    rw [← Chan.dataOf_inOrder side sender.sent]
    exact h.pipe.arrived_prefix.filterMap dataOf
  have hflatten : receiver.accepted.flatten <+: sender.framed :=
    List.IsPrefix.flatten (h.accepted.trans harrived)
  exact (hreceived.order.trans hflatten).trans hsourced.order

/-- A receiver whose relay has ended on the peer's `close` has written all that the peer has framed.
-/
theorem written_eq (h : Flow side cut sender receiver arrived queue)
    (hreceived : receiver.Received) (hdone : receiver.toSocket = .done .peerClosed) :
  receiver.written = sender.framed
  := by
  rw [(hreceived.closed hdone).2, (h.closed (Or.inr hdone)).2]
  rfl

end Flow

end VynxDesk.Mux
