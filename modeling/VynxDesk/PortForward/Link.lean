import VynxDesk.PortForward.Flow

/-!
# A channel on both ends

`Link` is one channel of a tunnel: its task on the controller, its task on the controlled side when
there is one, and the frames on their way between them.  The frames the controller sends in order
arrive in order, and its window updates may overtake them; the frames of the controlled side arrive
in order.  `Link.Sound` is what holds of a link at any time, however its steps are interleaved.
-/

namespace VynxDesk.Mux

/-- One channel, and the frames of it that are on their way: `ordered` and `control` to the
controlled side, `back` to the controller.  `gone` and `goneBack` tell that the queues of an end are
dropped. -/
@[ext]
structure Link where
  controller : Chan
  controlled : Option Chan
  ordered : List PortForwardChannel
  control : List PortForwardChannel
  back : List PortForwardChannel
  gone : Bool
  goneBack : Bool

namespace Link

/-- What may happen to a channel: one of its tasks takes a step; its entry leaves a table; the
queues of an end are dropped; or a frame arrives.  An `open` spawns the task of the controlled side,
or it is refused, with a reply as long as there is a writer. -/
inductive Step : Link → Link → Prop where
  | controller {l : Link} {down : Bool} {a : Chan} {out : Output}
      (hstep : Chan.Step l.gone down l.controller out a) :
      Step l { l with
        controller := a
        ordered := l.ordered ++ out.toData
        control := l.control ++ out.toControl }
  | controlled {l : Link} {down : Bool} {b b' : Chan} {out : Output} (hb : l.controlled = some b)
      (hstep : Chan.Step l.goneBack down b out b') :
      Step l { l with controlled := some b', back := l.back ++ out.frames }
  | leave {l : Link} (hended : l.controller.stage = .ended) :
      Step l { l with controller := l.controller.leave }
  | unlist {l : Link} : Step l { l with controller := l.controller.unlist }
  | unlistBack {l : Link} {b : Chan} (hb : l.controlled = some b) :
      Step l { l with controlled := some b.unlist }
  | drop {l : Link} {ordered control : List PortForwardChannel} (hordered : ordered <+: l.ordered)
      (hcontrol : control <+: l.control) :
      Step l { l with ordered := ordered, control := control, gone := true }
  | dropBack {l : Link} {back : List PortForwardChannel} (hback : back <+: l.back) :
      Step l { l with back := back, goneBack := true }
  | spawn {l : Link} {id : ChannelId} {host : Str} {port : BitVec 32} {window : Nat}
      {rest : List PortForwardChannel} (hb : l.controlled = none)
      (hordered : l.ordered = .openCh id host port window :: rest) (addr : String) (isRdp : Bool) :
      Step l { l with controlled := some (Chan.controlled id addr isRdp window), ordered := rest }
  | refuse {l : Link} {id : ChannelId} {host : Str} {port : BitVec 32} {window : Nat}
      {rest reply : List PortForwardChannel} (hb : l.controlled = none)
      (hordered : l.ordered = .openCh id host port window :: rest)
      (hreply : ∀ m ∈ reply, ∃ reason, m = .opened id false reason 0) :
      Step l { l with ordered := rest, back := l.back ++ reply }
  | lose {l : Link} {m : PortForwardChannel} {rest : List PortForwardChannel}
      (hb : l.controlled = none) (hordered : l.ordered = m :: rest) (hm : opens m = false) :
      Step l { l with ordered := rest }
  | loseControl {l : Link} {m : PortForwardChannel} {rest : List PortForwardChannel}
      (hb : l.controlled = none) (hcontrol : l.control = m :: rest) :
      Step l { l with control := rest }
  | deliver {l : Link} {b : Chan} {m : PortForwardChannel} {rest : List PortForwardChannel}
      (hb : l.controlled = some b) (hordered : l.ordered = m :: rest) :
      Step l { l with controlled := some (b.onFrame .controlled m), ordered := rest }
  | deliverControl {l : Link} {b : Chan} {m : PortForwardChannel} {rest : List PortForwardChannel}
      (hb : l.controlled = some b) (hcontrol : l.control = m :: rest) :
      Step l { l with controlled := some (b.onFrame .controlled m), control := rest }
  | deliverBack {l : Link} {m : PortForwardChannel} {rest : List PortForwardChannel}
      (hback : l.back = m :: rest) :
      Step l { l with controller := l.controller.onFrame .controller m, back := rest }

end Link

namespace Chan

/-- The controller grants the whole window from the start, and the controlled side once its target
is connected. -/
structure Widened (side : Side) (c : Chan) : Prop where
  controller : side = .controller → c.granted = channelWindow
  greeting : ∀ m, c.stage = .greeting m → c.granted = channelWindow
  relaying : c.stage = .relaying → c.granted = channelWindow

variable {side : Side} {c c' : Chan}

namespace Widened

theorem start (h : Start side c) :
  c.Widened side
  := by
  cases h with
  | controlled id addr isRdp window => exact ⟨nofun, nofun, nofun⟩
  | controller id host port prebuf => exact ⟨fun _ => rfl, fun _ _ => rfl, nofun⟩

/-- What is done grants nothing, and leaves the task where it was or ends it. -/
theorem of_same (h : c.Widened side) (hgranted : c'.granted = c.granted)
    (hgreeting : ∀ m, c'.stage = .greeting m → c.stage = .greeting m)
    (hrelaying : c'.stage = .relaying → c.stage = .relaying ∨ ∃ m, c.stage = .greeting m) :
  c'.Widened side
  := by
  constructor
  · rw [hgranted]
    exact h.controller
  · rw [hgranted]
    exact fun m hm => h.greeting m (hgreeting m hm)
  · rw [hgranted]
    intro hs
    obtain hs | ⟨m, hs⟩ := hrelaying hs
    · exact h.relaying hs
    · exact h.greeting m hs

/-- What grants nothing leaves the task, or ends it. -/
theorem of_left (h : c.Widened side) (hgranted : c'.granted = c.granted)
    (hgreeting : ∀ m, c'.stage ≠ .greeting m) (hrelaying : c'.stage ≠ .relaying) :
  c'.Widened side
  := h.of_same hgranted (fun m hm => absurd hm (hgreeting m)) fun hs => absurd hs hrelaying

theorem step {gone down : Bool} {out : Output} (h : c.Widened side) (hwindowed : c.Windowed)
    (hstep : Step gone down c out c') :
  c'.Widened side
  := by
  have hkept : c'.granted = c.granted → c'.stage = c.stage → c'.Widened side := by
    intro hgranted hstage
    apply h.of_same hgranted
    · rw [hstage]
      exact fun m hm => hm
    · rw [hstage]
      exact Or.inl
  cases hstep with
  | grant hs =>
      have hgranted : c.granted = initialWindow := by
        apply hwindowed.unconnected
        rw [connected]
        rw [hs]
      have hwhole : c.grant.granted = channelWindow := by
        rw [grant]
        rw [hgranted]
        rfl
      exact ⟨fun _ => hwhole, fun _ _ => hwhole, by rintro ⟨⟩⟩
  | greet hs hsink => exact h.of_same rfl (by rintro m ⟨⟩) fun _ => Or.inr ⟨_, hs⟩
  | @nextInbound cmd cmds hs ht hpending hinbound => cases cmd <;> exact hkept rfl rfl
  | join hs htunnel hsocket =>
      dsimp only at hkept ⊢
      split_ifs
      · exact h.of_left rfl (by rintro m ⟨⟩) (by rintro ⟨⟩)
      · exact h.of_left rfl (by rintro m ⟨⟩) (by rintro ⟨⟩)
  | @connecting addr isRdp charged cmd cmds hs hinbound =>
      unfold onConnecting
      cases cmd with
      | data b =>
          dsimp only
          split_ifs <;> exact h.of_left rfl (by rintro m ⟨⟩) (by rintro ⟨⟩)
      | close => exact h.of_left rfl (by rintro m ⟨⟩) (by rintro ⟨⟩)
      | violation => exact h.of_left rfl (by rintro m ⟨⟩) (by rintro ⟨⟩)
  | part hs hsink => exact h.of_left rfl (by rintro m ⟨⟩) (by rintro ⟨⟩)
  | partGone hs hsink => exact h.of_left rfl (by rintro m ⟨⟩) (by rintro ⟨⟩)
  | greetGone hs hsink => exact h.of_left rfl (by rintro m ⟨⟩) (by rintro ⟨⟩)
  | connectingGone hs hinbound hlisted => exact h.of_left rfl (by rintro m ⟨⟩) (by rintro ⟨⟩)
  | connected hs hinbound hlisted => exact h.of_left rfl (by rintro m ⟨⟩) (by rintro ⟨⟩)
  | connectFailed hs hinbound hlisted => exact h.of_left rfl (by rintro m ⟨⟩) (by rintro ⟨⟩)
  | _ => exact hkept rfl rfl

/-- What leaves the task where it was, and grants nothing. -/
theorem sameTask (h : c.Widened side) (hsame : SameTask c c') (hgranted : c'.granted = c.granted) :
  c'.Widened side
  := by
  apply h.of_same hgranted
  · rw [hsame.stage]
    exact fun m hm => hm
  · rw [hsame.stage]
    exact Or.inl

theorem granted_push (cmd : Inbound) (c : Chan) :
  (c.push cmd).granted = c.granted
  := by
  rw [push]
  split_ifs <;> rfl

theorem granted_onData (data : Bytes) (c : Chan) :
  (c.onData data).granted = c.granted
  := by
  rw [onData]
  cases c.window.accept data.length with
  | none => exact granted_push .violation c.unlist
  | some w =>
      dsimp only
      rw [push]
      split_ifs <;> rfl

/-- Whatever an end does to the channel grants no more than the whole window. -/
theorem move {t : Teardown} (h : c.Widened side) (hwindowed : c.Windowed)
    (hmove : Move side t c c') :
  c'.Widened side
  := by
  cases hmove with
  | stay => exact h
  | step hstep => exact h.step hwindowed hstep
  | data data hlisted => exact h.sameTask (sameTask_onData data c) (granted_onData data c)
  | close hlisted =>
      exact h.sameTask ((SameTask.refl c).unlist.push .close) (granted_push .close c.unlist)
  | opened window hlisted hside =>
      have hgranted : (c.onOpened window).granted = c.granted := by
        rw [onOpened]
        split_ifs <;> rfl
      exact h.sameTask (sameTask_onOpened window c) hgranted
  | _ => exact h.of_same rfl (fun m hm => hm) Or.inl

end Widened

/-- What is known of the two ends of a channel, whatever their peers do. -/
structure Kept (side : Side) (c : Chan) : Prop where
  course : c.Course side
  paying : c.Paying
  windowed : c.Windowed
  sourced : c.Sourced
  received : c.Received
  widened : c.Widened side

theorem Kept.start (h : Start side c) :
  c.Kept side
  := ⟨course_start h, paying_start h, windowed_start h, .start h, .start h, .start h⟩

theorem Kept.move {t : Teardown} (h : c.Kept side) (hmove : Move side t c c') :
  c'.Kept side
  := ⟨h.course.move hmove, h.paying.move h.course hmove, h.windowed.move hmove,
    h.sourced.move h.course hmove, h.received.move h.windowed hmove,
    h.widened.move h.windowed hmove⟩

theorem Step.opened {gone down : Bool} {out : Output} (hstep : Step gone down c out c') :
  c'.opened = c.opened
  := by
  cases hstep with
  | @nextInbound cmd cmds hs ht hpending hinbound => cases cmd <;> rfl
  | @connecting addr isRdp charged cmd cmds hs hinbound =>
      unfold onConnecting
      cases cmd with
      | data b =>
          dsimp only
          split_ifs <;> rfl
      | close => rfl
      | violation => rfl
  | grant hs =>
      unfold Chan.grant
      rfl
  | _ => rfl

theorem sameTask_unlist (c : Chan) : SameTask c c.unlist := (SameTask.refl c).unlist

theorem sameTask_leave (c : Chan) : SameTask c c.leave := by constructor <;> rfl

/-- Nothing has come from the peer, and the relay has nothing to write. -/
structure Untold (c : Chan) : Prop where
  accepted : c.accepted = []
  inbound : c.inbound = []
  opened : c.opened = false
  window : c.window.remaining = channelWindow
  toSocket : c.toSocket = .next ∨ ∃ r, c.toSocket = .done r ∧ r ≠ .peerClosed

theorem untold_controller (id : ChannelId) (host : Str) (port : BitVec 32) (prebuf : Bytes) :
  (Chan.controller id host port prebuf).Untold
  := ⟨rfl, rfl, rfl, rfl, Or.inl rfl⟩

namespace Untold

theorem owed (h : c.Untold) (hcourse : c.Course .controller) :
  c.owed = 0
  := by
  have hsocket : c.toSocket.owed = 0 := by
    obtain ht | ⟨r, ht, -⟩ := h.toSocket <;> rw [ht] <;> rfl
  have hstage : c.stage.owed = 0 := by
    rw [Course] at hcourse
    cases hs : c.stage with
    | greeting m =>
        rw [hs] at hcourse
        obtain ⟨host, port, rfl⟩ := hcourse.1
        rfl
    | _ => rfl
  rw [Chan.owed, hsocket, hstage]

/-- The relay writes nothing. -/
theorem ne_write (h : c.Untold) (chunk rest : Bytes) :
  c.toSocket ≠ .write chunk rest
  := by
  obtain ht | ⟨r, ht, -⟩ := h.toSocket <;> rw [ht] <;> nofun

/-- What is done takes nothing from the peer. -/
theorem of_same (h : c.Untold) (haccepted : c'.accepted = c.accepted)
    (hinbound : c'.inbound = c.inbound) (hopened : c'.opened = c.opened)
    (hwindow : c'.window = c.window)
    (htoSocket : c'.toSocket = c.toSocket ∨ ∃ r, c'.toSocket = .done r ∧ r ≠ .peerClosed) :
  c'.Untold
  := by
  constructor
  · rw [haccepted, h.accepted]
  · rw [hinbound, h.inbound]
  · rw [hopened, h.opened]
  · rw [hwindow, h.window]
  · obtain heq | hdone := htoSocket
    · rw [heq]
      exact h.toSocket
    · exact Or.inr hdone

/-- A task that nothing has come to takes nothing from its queues, and sends no update. -/
theorem step {gone down : Bool} {out : Output} (h : c.Untold) (hwindowed : c.Windowed)
    (hcourse : c.Course .controller) (hstep : Step gone down c out c') :
  c'.Untold ∧ out.toControl = []
  := by
  have hpending : c.pending = [] := by
    have hheld := hwindowed.held
    rw [undrained, h.accepted, List.drop_nil, List.sublist_nil, held] at hheld
    simp only [List.append_eq_nil_iff] at hheld
    exact hheld.2.1
  cases hstep with
  | nextPending hs ht hp => cases hpending.symm.trans hp
  | nextInbound hs ht hp hi => cases h.inbound.symm.trans hi
  | write hs ht => exact absurd ht (h.ne_write _ _)
  | writeFailed hs ht => exact absurd ht (h.ne_write _ _)
  | cancelWrite hs ht hcancel => exact absurd ht (h.ne_write _ _)
  | account hs ht => exact absurd ht (h.ne_write _ _)
  | update hs ht hsink =>
      obtain hnext | ⟨r, hdone, -⟩ := h.toSocket
      · cases hnext.symm.trans ht
      · cases hdone.symm.trans ht
  | connecting hs hi => cases h.inbound.symm.trans hi
  | grant hs =>
      rw [Course] at hcourse
      rw [hs] at hcourse
      cases hcourse.1
  | nextGone hs ht hp hi hlisted => exact ⟨h.of_same rfl rfl rfl rfl (Or.inr ⟨_, rfl, (by rintro ⟨⟩)⟩), rfl⟩
  | cancelNext hs ht hp hcancel => exact ⟨h.of_same rfl rfl rfl rfl (Or.inr ⟨_, rfl, (by rintro ⟨⟩)⟩), rfl⟩
  | updateGone hs ht hsink => exact ⟨h.of_same rfl rfl rfl rfl (Or.inr ⟨_, rfl, (by rintro ⟨⟩)⟩), rfl⟩
  | _ => exact ⟨h.of_same rfl rfl rfl rfl (Or.inl rfl), rfl⟩

end Untold

end Chan

namespace Link

/-- The channel has not ended: both tables have its entry, and both ends still send. -/
structure Up (l : Link) (b : Chan) : Prop where
  listed : l.controller.listed = true
  listedBack : b.listed = true
  gone : l.gone = false
  goneBack : l.goneBack = false

/-- The `open` of the channel has not been handled. -/
structure Opening (l : Link) : Prop where
  controlled : l.controlled = none
  pipe : Pipe (l.controller.emitted .controller) (l.gone = true) [] l.ordered
  untold : l.controller.Untold
  control : l.control = []
  back : l.back = []
  credit : l.gone = false → l.controller.unspent + cost l.ordered = initialWindow

/-- The `open` of the channel was refused. -/
structure Refused (l : Link) : Prop where
  controlled : l.controlled = none
  pipe : ∃ arrived, arrived ≠ []
    ∧ Pipe (l.controller.emitted .controller) (l.gone = true) arrived l.ordered
  back : ∀ m ∈ l.back, ∃ reason, m = .opened l.controller.id false reason 0
  accepted : l.controller.accepted = []

/-- The channel has been spawned on the controlled side. -/
structure Running (l : Link) (b : Chan) : Prop where
  controlled : l.controlled = some b
  id : b.id = l.controller.id
  up : ∃ arrived, arrived ≠ [] ∧ Flow .controller l.gone l.controller b arrived l.ordered
  down : ∃ arrived, (l.controller.opened = true → arrived ≠ [])
    ∧ Flow .controlled l.goneBack b l.controller arrived l.back
  control : ∀ m ∈ l.control, ∃ add, m = .windowUpdate l.controller.id add
  balanced : l.Up b → Balanced l.controller b (l.ordered ++ l.control) l.back
    ∧ Balanced b l.controller l.back (l.ordered ++ l.control)

/-- What holds of a channel at any time. -/
inductive Sound (l : Link) : Prop where
  | opening (h : l.Opening)
  | refused (h : l.Refused)
  | running {b : Chan} (h : l.Running b)

variable {l l' : Link} {rest : List PortForwardChannel} {m : PortForwardChannel} {a : Chan}

/-- Everything the controller has said starts with an `open`. -/
theorem opens_of_head {cut : Prop} (hcourse : a.Course .controller)
    (hpipe : Pipe (a.emitted .controller) cut [] (m :: rest)) :
  ∃ host port, m = .openCh a.id host port channelWindow
  := by
  obtain ⟨more, hmore⟩ := hpipe.order
  have hgrammar := hcourse.grammar
  rw [← hmore] at hgrammar
  generalize hl : [] ++ m :: rest ++ more = l at hgrammar
  cases hgrammar with
  | nothing => cases hl
  | refused hside reason => cases hside
  | closed hside => cases hside
  | running hg hbody =>
      obtain ⟨host, port, rfl⟩ := hg
      use host, port
      exact (List.cons.inj hl).1
  | parted hg hbody =>
      obtain ⟨host, port, rfl⟩ := hg
      use host, port
      exact (List.cons.inj hl).1

/-- The `open` arrives first. -/
theorem not_opens_of_arrived {side : Side} {c : Chan} {cut : Prop}
    {arrived : List PortForwardChannel} (hcourse : c.Course side)
    (hpipe : Pipe (c.emitted side) cut arrived (m :: rest)) (harrived : arrived ≠ []) :
  opens m = false
  := by
  by_contra hm
  obtain ⟨more, hmore⟩ := hpipe.order
  have hgrammar := hcourse.grammar
  rw [← hmore, List.append_assoc, List.cons_append] at hgrammar
  exact harrived (hgrammar.eq_nil_of_opens (by simpa using hm))

/-! ### Before the controlled side has handled the `open` -/

/-- What the controller's task sends joins the queue, as long as there is one. -/
theorem pipe_send {a' : Chan} {gone down : Bool} {out : Output}
    {arrived ordered : List PortForwardChannel} (hcourse : a.Course .controller)
    (hpipe : Pipe (a.emitted .controller) (gone = true) arrived ordered)
    (hstep : Chan.Step gone down a out a') :
  Pipe (a'.emitted .controller) (gone = true) arrived (ordered ++ out.toData)
  := by
  obtain ⟨hsent, hquiet⟩ := hstep.says
  have hemitted : a'.emitted .controller = a.emitted .controller ++ out.toData := by
    rw [Chan.emitted, hsent, Chan.inOrder_append, (hstep.queues hcourse).1]
    rfl
  rw [hemitted]
  cases gone with
  | false => exact hpipe.send (by rintro ⟨⟩) _
  | true =>
      rw [hquiet rfl]
      change Pipe (_ ++ []) _ _ (_ ++ [])
      rw [List.append_nil, List.append_nil]
      exact hpipe

theorem emitted_of_sameTask {side : Side} {a' : Chan} (hsame : Chan.SameTask a a') :
  a'.emitted side = a.emitted side
  := by
  rw [Chan.emitted, hsame.sent]
  rfl

theorem unspent_of_sameTask {a' : Chan} (hsame : Chan.SameTask a a')
    (hcredit : a'.credit = a.credit) :
  a'.unspent = a.unspent
  := by
  rw [Chan.unspent, hsame.toTunnel, hcredit]
  rfl

namespace Opening

/-- The entry of the controller leaves the table. -/
theorem untable (h : l.Opening) (hsame : Chan.SameTask l.controller a) (huntold : a.Untold)
    (hcredit : a.credit = l.controller.credit) :
  Opening { l with controller := a }
  := by
  refine ⟨h.controlled, ?_, huntold, h.control, h.back, ?_⟩
  · dsimp only
    rw [emitted_of_sameTask hsame]
    exact h.pipe
  · dsimp only
    rw [unspent_of_sameTask hsame hcredit]
    exact h.credit

theorem send {down : Bool} {out : Output} (h : l.Opening) (hkept : l.controller.Kept .controller)
    (hstep : Chan.Step l.gone down l.controller out a) :
  Opening { l with
    controller := a
    ordered := l.ordered ++ out.toData
    control := l.control ++ out.toControl }
  := by
  obtain ⟨huntold, hcontrol⟩ := h.untold.step hkept.windowed hkept.course hstep
  constructor
  · exact h.controlled
  · exact pipe_send hkept.course h.pipe hstep
  · exact huntold
  · change l.control ++ out.toControl = []
    rw [h.control, hcontrol, List.nil_append]
  · exact h.back
  · intro hgone
    have hle := h.credit hgone
    have hmax : l.controller.unspent ≤ maxSendCredit := by
      apply Nat.le_trans _ initialWindow_le
      omega
    have heq := (hstep.credit hkept.paying hkept.course).2 hmax hgone
    have hcost : cost out.frames = cost out.toData := by
      rw [cost, ← Chan.dataOf_inOrder .controller, (hstep.queues hkept.course).1]
      rfl
    change a.unspent + cost out.frames = _ at heq
    change a.unspent + cost (l.ordered ++ out.toData) = initialWindow
    rw [cost_append]
    omega

/-- The controlled side spawns the channel. -/
theorem spawn {id : ChannelId} {host : Str} {port : BitVec 32} {window : Nat} (h : l.Opening)
    (hkept : l.controller.Kept .controller)
    (hordered : l.ordered = .openCh id host port window :: rest) (addr : String) (isRdp : Bool) :
  Running { l with controlled := some (Chan.controlled id addr isRdp window), ordered := rest }
    (Chan.controlled id addr isRdp window)
  := by
  have hpipe := h.pipe
  rw [hordered] at hpipe
  obtain ⟨host', port', heq⟩ := opens_of_head hkept.course hpipe
  cases heq
  have hb : (Chan.controlled l.controller.id addr isRdp channelWindow).accepted = [] := rfl
  constructor
  · rfl
  · rfl
  · refine ⟨[.openCh l.controller.id host port channelWindow], by simp, ?_⟩
    refine ⟨hpipe.deliver, List.nil_prefix, fun _ => rfl, ?_⟩
    rintro (hmem | hdone)
    · cases hmem
    · cases hdone
  · refine ⟨[], ?_, ?_⟩
    · rw [h.untold.opened]
      nofun
    · dsimp only
      rw [h.back]
      refine ⟨Pipe.nil, ?_, ?_, ?_⟩
      · rw [h.untold.accepted]
        exact List.nil_prefix
      · intro _
        rw [h.untold.accepted]
        rfl
      · rintro (hmem | hdone)
        · rw [h.untold.inbound] at hmem
          cases hmem
        · obtain hnext | ⟨r, hend, hr⟩ := h.untold.toSocket
          · cases hnext.symm.trans hdone
          · cases hend.symm.trans hdone
            exact absurd rfl hr
  · dsimp only
    rw [h.control]
    nofun
  · intro hup
    have hcredit := h.credit hup.gone
    have hadds : adds rest = 0 := by
      apply adds_eq_zero
      intro m hm
      have hmem := hkept.course.mem_emitted (hpipe.mem_sent (List.mem_cons_of_mem _ hm))
      obtain ⟨host, port, rfl⟩ | ⟨data, rfl⟩ | rfl := hmem <;> rfl
    have howed := h.untold.owed hkept.course
    have hwindow := h.untold.window
    have hcost : cost l.ordered = cost rest := by
      rw [hordered]
      rfl
    constructor
    · change l.controller.unspent + cost (rest ++ l.control) + adds l.back + 0 = initialWindow
      rw [h.control, h.back, List.append_nil, adds_nil]
      omega
    · change channelWindow + 0 + cost l.back + adds (rest ++ l.control) + l.controller.owed
        = l.controller.window.remaining
      rw [h.control, h.back, List.append_nil, cost_nil]
      omega

end Opening

/-! ### Once the channel runs on both sides -/

namespace Running

variable {b b' : Chan}

/-- The controller's task takes a step. -/
theorem send {down : Bool} {out : Output} (h : l.Running b)
    (hkept : l.controller.Kept .controller) (hb : b.Windowed)
    (hstep : Chan.Step l.gone down l.controller out a) :
  Running { l with
    controller := a
    ordered := l.ordered ++ out.toData
    control := l.control ++ out.toControl } b
  := by
  obtain ⟨hdata, hcontrol⟩ := hstep.queues hkept.course
  obtain ⟨arrived, harrived, hup⟩ := h.up
  obtain ⟨arrivedBack, hopened, hdown⟩ := h.down
  have hid := hstep.id_left.1
  constructor
  · exact h.controlled
  · exact h.id.trans hid.symm
  · have hsend := hup.send hstep
    rw [hdata] at hsend
    exact ⟨arrived, harrived, hsend⟩
  · refine ⟨arrivedBack, ?_, hdown.receive hstep⟩
    dsimp only
    rw [hstep.opened]
    exact hopened
  · dsimp only
    rw [hid, List.forall_mem_append]
    exact ⟨h.control, hcontrol⟩
  · intro hup'
    have hgone : l.gone = false := hup'.gone
    have hlisted : l.controller.listed = true := by
      rw [← hstep.entry.1]
      exact hup'.listed
    obtain ⟨hto, hfrom⟩ := h.balanced ⟨hlisted, hup'.listedBack, hgone, hup'.goneBack⟩
    rw [hgone] at hstep
    refine Balanced.step hkept.course hkept.paying hkept.windowed hb hstep ?_ ?_ hto hfrom
    · change cost (l.ordered ++ out.toData ++ (l.control ++ out.toControl)) = _
      simp only [out.frames_eq, cost_append]
      omega
    · change adds (l.ordered ++ out.toData ++ (l.control ++ out.toControl)) = _
      simp only [out.frames_eq, adds_append]
      omega

/-- The task of the controlled side takes a step. -/
theorem sendBack {down : Bool} {out : Output} (h : l.Running b) (hkept : b.Kept .controlled)
    (ha : l.controller.Windowed) (hstep : Chan.Step l.goneBack down b out b') :
  Running { l with controlled := some b', back := l.back ++ out.frames } b'
  := by
  obtain ⟨arrived, harrived, hup⟩ := h.up
  obtain ⟨arrivedBack, hopened, hdown⟩ := h.down
  constructor
  · rfl
  · rw [hstep.id_left.1]
    exact h.id
  · exact ⟨arrived, harrived, hup.receive hstep⟩
  · exact ⟨arrivedBack, hopened, hdown.send hstep⟩
  · exact h.control
  · intro hup'
    have hgone : l.goneBack = false := hup'.goneBack
    have hlisted : b.listed = true := by
      rw [← hstep.entry.1]
      exact hup'.listedBack
    obtain ⟨hto, hfrom⟩ := h.balanced ⟨hup'.listed, hlisted, hup'.gone, hgone⟩
    rw [hgone] at hstep
    exact (Balanced.step hkept.course hkept.paying hkept.windowed ha hstep (cost_append _ _)
      (adds_append _ _) hfrom hto).symm

/-- The entry of the controller leaves the table. -/
theorem untable (h : l.Running b) (hsame : Chan.SameTask l.controller a)
    (hlisted : a.listed = false) (haccepted : a.accepted = l.controller.accepted)
    (hopened : a.opened = l.controller.opened) (hclosing : a.Closing → l.controller.Closing) :
  Running { l with controller := a } b
  := by
  obtain ⟨arrived, harrived, hup⟩ := h.up
  obtain ⟨arrivedBack, hopen, hdown⟩ := h.down
  have hnot : ¬ a.listed = true := by simp [hlisted]
  constructor
  · exact h.controlled
  · exact h.id.trans hsame.id.symm
  · exact ⟨arrived, harrived, hup.sameSender hsame⟩
  · refine ⟨arrivedBack, ?_, hdown.sameReceiver haccepted (fun hl => absurd hl hnot) hclosing⟩
    dsimp only
    rw [hopened]
    exact hopen
  · dsimp only
    rw [hsame.id]
    exact h.control
  · intro hup'
    exact absurd hup'.listed hnot

/-- The entry of the controlled side leaves the table. -/
theorem unlistBack (h : l.Running b) :
  Running { l with controlled := some b.unlist } b.unlist
  := by
  obtain ⟨arrived, harrived, hup⟩ := h.up
  obtain ⟨arrivedBack, hopen, hdown⟩ := h.down
  constructor
  · rfl
  · exact h.id
  · exact ⟨arrived, harrived, hup.unlist⟩
  · exact ⟨arrivedBack, hopen, hdown.sameSender (Chan.sameTask_unlist b)⟩
  · exact h.control
  · intro hup'
    cases hup'.listedBack

/-- The queues of the controller are dropped. -/
theorem drop {ordered control : List PortForwardChannel} (h : l.Running b)
    (hordered : ordered <+: l.ordered) (hcontrol : control <+: l.control) :
  Running { l with ordered := ordered, control := control, gone := true } b
  := by
  obtain ⟨arrived, harrived, hup⟩ := h.up
  refine ⟨h.controlled, h.id, ⟨arrived, harrived, hup.drop hordered⟩, h.down, ?_, ?_⟩
  · intro m hm
    exact h.control m (hcontrol.subset hm)
  · intro hup'
    cases hup'.gone

/-- The queue of the writer is dropped. -/
theorem dropBack {back : List PortForwardChannel} (h : l.Running b) (hback : back <+: l.back) :
  Running { l with back := back, goneBack := true } b
  := by
  obtain ⟨arrivedBack, hopen, hdown⟩ := h.down
  refine ⟨h.controlled, h.id, h.up, ⟨arrivedBack, hopen, hdown.drop hback⟩, h.control, ?_⟩
  intro hup'
  cases hup'.goneBack

/-- The controlled side handles a frame of the data queue. -/
theorem deliver (h : l.Running b) (hkept : l.controller.Kept .controller)
    (hb : b.Kept .controlled) (hordered : l.ordered = m :: rest) :
  Running { l with controlled := some (b.onFrame .controlled m), ordered := rest }
    (b.onFrame .controlled m)
  := by
  obtain ⟨arrived, harrived, hup⟩ := h.up
  obtain ⟨arrivedBack, hopen, hdown⟩ := h.down
  have hsame := Chan.sameTask_onFrame .controlled m b
  rw [hordered] at hup
  have hm := hkept.course.mem_emitted (hup.pipe.mem_sent List.mem_cons_self)
  have hnot : ∀ id message window, m ≠ .opened id true message window := by
    obtain ⟨host, port, rfl⟩ | ⟨data, rfl⟩ | rfl := hm <;> nofun
  constructor
  · rfl
  · rw [hsame.id]
    exact h.id
  · exact ⟨arrived ++ [m], by simp, hup.deliver .controlled hkept.course hb.received⟩
  · exact ⟨arrivedBack, hopen, hdown.sameSender hsame⟩
  · exact h.control
  · intro hup'
    obtain ⟨hto, hfrom⟩ := h.balanced
      ⟨hup'.listed, Chan.onFrame_listed hup'.listedBack, hup'.gone, hup'.goneBack⟩
    refine (Balanced.deliver hkept.windowed hup'.listedBack (fun _ => hnot) (fun _ => hnot) ?_ ?_
      hfrom hto).symm
    · rw [hordered, List.cons_append, cost_cons]
    · rw [hordered, List.cons_append, adds_cons]

/-- The controlled side handles a frame of the control queue. -/
theorem deliverControl (h : l.Running b) (ha : l.controller.Windowed)
    (hcontrol : l.control = m :: rest) :
  Running { l with controlled := some (b.onFrame .controlled m), control := rest }
    (b.onFrame .controlled m)
  := by
  obtain ⟨arrived, harrived, hup⟩ := h.up
  obtain ⟨arrivedBack, hopen, hdown⟩ := h.down
  have hupdates := h.control
  rw [hcontrol, List.forall_mem_cons] at hupdates
  obtain ⟨⟨add, rfl⟩, hrest⟩ := hupdates
  have hsame := Chan.sameTask_onFrame .controlled (.windowUpdate l.controller.id add) b
  constructor
  · rfl
  · rw [hsame.id]
    exact h.id
  · exact ⟨arrived, harrived, hup.aside .controlled⟩
  · exact ⟨arrivedBack, hopen, hdown.sameSender hsame⟩
  · exact hrest
  · intro hup'
    obtain ⟨hto, hfrom⟩ := h.balanced
      ⟨hup'.listed, Chan.onFrame_listed hup'.listedBack, hup'.gone, hup'.goneBack⟩
    refine (Balanced.deliver ha hup'.listedBack nofun nofun ?_ ?_ hfrom hto).symm
    · rw [hcontrol, cost_append, cost_append, cost_cons]
      dsimp only
      omega
    · rw [hcontrol, adds_append, adds_append, adds_cons]
      dsimp only
      omega

/-- The controller handles a frame. -/
theorem deliverBack (h : l.Running b) (ha : l.controller.Kept .controller)
    (hb : b.Kept .controlled) (hback : l.back = m :: rest) :
  Running { l with controller := l.controller.onFrame .controller m, back := rest } b
  := by
  obtain ⟨arrived, harrived, hup⟩ := h.up
  obtain ⟨arrivedBack, hopen, hdown⟩ := h.down
  have hsame := Chan.sameTask_onFrame .controller m l.controller
  rw [hback] at hdown
  constructor
  · exact h.controlled
  · exact h.id.trans hsame.id.symm
  · exact ⟨arrived, harrived, hup.sameSender hsame⟩
  · exact ⟨arrivedBack ++ [m], fun _ => by simp, hdown.deliver .controller hb.course ha.received⟩
  · dsimp only
    rw [hsame.id]
    exact h.control
  · intro hup'
    obtain ⟨hto, hfrom⟩ := h.balanced
      ⟨Chan.onFrame_listed hup'.listed, hup'.listedBack, hup'.gone, hup'.goneBack⟩
    have hopened : l.controller.opened = true →
        ∀ id message window, m ≠ .opened id true message window := by
      rintro ho id message window rfl
      cases not_opens_of_arrived hb.course hdown.pipe (hopen ho)
    refine Balanced.deliver hb.windowed hup'.listed hopened nofun ?_ ?_ hto hfrom
    · rw [hback, cost_cons]
    · rw [hback, adds_cons]

end Running

/-! ### However the steps are interleaved -/

/-- A step of a channel whose `open` has not been handled. -/
theorem Opening.step (h : l.Opening) (hkept : l.controller.Kept .controller)
    (hstep : Step l l') :
  l'.Sound
  := by
  cases hstep with
  | controller hstep => exact .opening (h.send hkept hstep)
  | controlled hb hstep => cases h.controlled.symm.trans hb
  | leave hended =>
      have huntold : l.controller.leave.Untold := h.untold.of_same rfl rfl rfl rfl (Or.inl rfl)
      exact .opening (h.untable (Chan.sameTask_leave l.controller) huntold rfl)
  | unlist =>
      have huntold : l.controller.unlist.Untold := h.untold.of_same rfl rfl rfl rfl (Or.inl rfl)
      exact .opening (h.untable (Chan.sameTask_unlist l.controller) huntold rfl)
  | unlistBack hb => cases h.controlled.symm.trans hb
  | drop hordered hcontrol =>
      have hpipe : Pipe _ (true = true) [] _ := h.pipe.cutOff rfl hordered
      rw [h.control, List.prefix_nil] at hcontrol
      exact .opening ⟨h.controlled, hpipe, h.untold, hcontrol, h.back, nofun⟩
  | dropBack hback =>
      rw [h.back, List.prefix_nil] at hback
      exact .opening ⟨h.controlled, h.pipe, h.untold, h.control, hback, h.credit⟩
  | spawn hb hordered addr isRdp => exact .running (h.spawn hkept hordered addr isRdp)
  | @refuse id host port window rest reply hb hordered hreply =>
      have hpipe := h.pipe
      rw [hordered] at hpipe
      obtain ⟨host', port', heq⟩ := opens_of_head hkept.course hpipe
      cases heq
      refine .refused ⟨hb, ⟨_, List.cons_ne_nil _ _, hpipe.deliver⟩, ?_, h.untold.accepted⟩
      dsimp only
      rw [h.back]
      exact hreply
  | lose hb hordered hm =>
      have hpipe := h.pipe
      rw [hordered] at hpipe
      obtain ⟨host, port, rfl⟩ := opens_of_head hkept.course hpipe
      cases hm
  | loseControl hb hcontrol => cases h.control.symm.trans hcontrol
  | deliver hb hordered => cases h.controlled.symm.trans hb
  | deliverControl hb hcontrol => cases h.controlled.symm.trans hb
  | deliverBack hback => cases h.back.symm.trans hback

/-- A step of a channel whose `open` was refused. -/
theorem Refused.step (h : l.Refused) (hkept : l.controller.Kept .controller)
    (hstep : Step l l') :
  l'.Sound
  := by
  obtain ⟨arrived, harrived, hpipe⟩ := h.pipe
  have huntable : ∀ {a : Chan}, Chan.SameTask l.controller a → a.accepted = l.controller.accepted →
      Sound { l with controller := a } := by
    intro a hsame haccepted
    refine .refused ⟨h.controlled, ⟨arrived, harrived, ?_⟩, ?_, haccepted.trans h.accepted⟩
    · dsimp only
      rw [emitted_of_sameTask hsame]
      exact hpipe
    · dsimp only
      rw [hsame.id]
      exact h.back
  cases hstep with
  | controller hstep =>
      refine .refused ⟨h.controlled, ⟨arrived, harrived, pipe_send hkept.course hpipe hstep⟩, ?_, ?_⟩
      · dsimp only
        rw [hstep.id_left.1]
        exact h.back
      · exact hstep.entry.2.1.trans h.accepted
  | controlled hb hstep => cases h.controlled.symm.trans hb
  | leave hended => exact huntable (Chan.sameTask_leave l.controller) rfl
  | unlist => exact huntable (Chan.sameTask_unlist l.controller) rfl
  | unlistBack hb => cases h.controlled.symm.trans hb
  | drop hordered hcontrol =>
      have hdrop : Pipe _ (true = true) arrived _ := hpipe.cutOff rfl hordered
      exact .refused ⟨h.controlled, ⟨arrived, harrived, hdrop⟩, h.back, h.accepted⟩
  | dropBack hback =>
      refine .refused ⟨h.controlled, h.pipe, ?_, h.accepted⟩
      exact fun m hm => h.back m (hback.subset hm)
  | spawn hb hordered addr isRdp =>
      rw [hordered] at hpipe
      cases not_opens_of_arrived hkept.course hpipe harrived
  | refuse hb hordered hreply =>
      rw [hordered] at hpipe
      cases not_opens_of_arrived hkept.course hpipe harrived
  | lose hb hordered hm =>
      rw [hordered] at hpipe
      exact .refused ⟨hb, ⟨_, by simp, hpipe.deliver⟩, h.back, h.accepted⟩
  | loseControl hb hcontrol => exact .refused ⟨hb, h.pipe, h.back, h.accepted⟩
  | deliver hb hordered => cases h.controlled.symm.trans hb
  | deliverControl hb hcontrol => cases h.controlled.symm.trans hb
  | @deliverBack m rest hback =>
      have hreplies := h.back
      rw [hback, List.forall_mem_cons] at hreplies
      obtain ⟨⟨reason, rfl⟩, hrest⟩ := hreplies
      have hsame := Chan.sameTask_onFrame .controller
        (.opened l.controller.id false reason 0) l.controller
      refine .refused ⟨h.controlled, ⟨arrived, harrived, ?_⟩, ?_, ?_⟩
      · dsimp only
        rw [emitted_of_sameTask hsame]
        exact hpipe
      · dsimp only
        rw [hsame.id]
        exact hrest
      · obtain ⟨haccepted, -⟩ | haccepted := Chan.onFrame_accepted .controller
          (.opened l.controller.id false reason 0) l.controller
        · exact haccepted.trans h.accepted
        · dsimp only
          rw [haccepted, h.accepted]
          rfl

/-- A step of a channel that runs. -/
theorem Running.step {b : Chan} (h : l.Running b) (ha : l.controller.Kept .controller)
    (hb : b.Kept .controlled) (hstep : Step l l') :
  l'.Sound
  := by
  have hsome : ∀ {c : Chan}, l.controlled = some c → c = b := by
    intro c hc
    cases hc.symm.trans h.controlled
    rfl
  have hnone : l.controlled ≠ none := by
    rw [h.controlled]
    nofun
  cases hstep with
  | controller hstep => exact .running (h.send ha hb.windowed hstep)
  | controlled hc hstep =>
      obtain rfl := hsome hc
      exact .running (h.sendBack hb ha.windowed hstep)
  | leave hended =>
      exact .running (h.untable (Chan.sameTask_leave l.controller) rfl rfl rfl fun hc => hc)
  | unlist =>
      exact .running (h.untable (Chan.sameTask_unlist l.controller) rfl rfl rfl fun hc => hc)
  | unlistBack hc =>
      obtain rfl := hsome hc
      exact .running h.unlistBack
  | drop hordered hcontrol => exact .running (h.drop hordered hcontrol)
  | dropBack hback => exact .running (h.dropBack hback)
  | spawn hc hordered addr isRdp => exact absurd hc hnone
  | refuse hc hordered hreply => exact absurd hc hnone
  | lose hc hordered hm => exact absurd hc hnone
  | loseControl hc hcontrol => exact absurd hc hnone
  | deliver hc hordered =>
      obtain rfl := hsome hc
      exact .running (h.deliver ha hb hordered)
  | deliverControl hc hcontrol =>
      obtain rfl := hsome hc
      exact .running (h.deliverControl ha.windowed hcontrol)
  | deliverBack hback => exact .running (h.deliverBack ha hb hback)

/-- What holds of a channel at any time is kept by every step. -/
theorem Sound.step (h : l.Sound) (ha : l.controller.Kept .controller)
    (hb : ∀ b, l.controlled = some b → b.Kept .controlled) (hstep : Step l l') :
  l'.Sound
  := by
  cases h with
  | opening h => exact h.step ha hstep
  | refused h => exact h.step ha hstep
  | running h => exact h.step ha (hb _ h.controlled) hstep

/-- What is on its way from the controller in order was sent by its task. -/
theorem Sound.mem_emitted (h : l.Sound) (hm : m ∈ l.ordered) :
  m ∈ l.controller.emitted .controller
  := by
  cases h with
  | opening h => exact h.pipe.mem_sent hm
  | refused h =>
      obtain ⟨arrived, -, hpipe⟩ := h.pipe
      exact hpipe.mem_sent hm
  | running h =>
      obtain ⟨arrived, -, hup⟩ := h.up
      exact hup.pipe.mem_sent hm

/-- An `open` arrives before the channel is spawned on the controlled side. -/
theorem Sound.controlled_eq_none (h : l.Sound) (hcourse : l.controller.Course .controller)
    (hordered : l.ordered = m :: rest) (hm : opens m = true) :
  l.controlled = none
  := by
  cases h with
  | opening h => exact h.controlled
  | refused h => exact h.controlled
  | running h =>
      obtain ⟨arrived, harrived, hup⟩ := h.up
      rw [hordered] at hup
      cases hm.symm.trans (not_opens_of_arrived hcourse hup.pipe harrived)

/-- What holds of a channel when it starts. -/
theorem sound_start (id : ChannelId) (host : Str) (port : BitVec 32) (prebuf : Bytes)
    (goneBack : Bool) (gone : Bool) :
  Sound ⟨Chan.controller id host port prebuf, none, [], [], [], gone, goneBack⟩
  := by
  apply Sound.opening
  exact ⟨rfl, Pipe.nil, Chan.untold_controller id host port prebuf, rfl, rfl, fun _ => rfl⟩

end Link

end VynxDesk.Mux
