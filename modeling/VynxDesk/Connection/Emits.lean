import VynxDesk.Connection.Frame

/-!
# The effects of a turn

`Emits P c c'` says that the turn from `c` to `c'` added effects that all satisfy `P`.  The
events that are no login do not tell the connection manager about a login, and only the delay
timer sends one of the messages a controller reacts to while it logs in.
-/

namespace VynxDesk

/-- The effect sends one of the messages that a controller reacts to while it logs in. -/
def Effect.handshake : Effect → Bool
  | .send .hash | .send .testDelay | .send (.peerInfo _) => true
  | _ => false

/-- The event sends a delay probe or answers one. -/
def Event.isProbe : Event → Bool
  | .testDelayTimer _ => true
  | .message (some (.testDelay _)) => true
  | _ => false

/-- The message an effect writes to the stream. -/
def Effect.framed : Effect → Option OutMsg
  | .send m => some m
  | .sendRaw bytes => some (.service bytes)
  | _ => none

namespace Conn

/-- The turn from `c` to `c'` emits effects that satisfy `P`, and leaves the delay probe. -/
def Emits (P : Effect → Prop) (c c' : Conn) : Prop :=
  (∃ l, c'.out = c.out ++ l ∧ ∀ x ∈ l, P x) ∧ c'.lastTestDelay = c.lastTestDelay

variable {P Q : Effect → Prop} {c c' c'' : Conn}

theorem Emits.of_out_eq (hout : c'.out = c.out)
    (hprobe : c'.lastTestDelay = c.lastTestDelay) :
  Emits P c c'
  := ⟨⟨[], by simp [hout], by simp⟩, hprobe⟩

theorem Emits.refl (c : Conn) : Emits P c c := .of_out_eq rfl rfl

theorem Emits.trans (h₁ : Emits P c c') (h₂ : Emits P c' c'') :
  Emits P c c''
  := by
  obtain ⟨⟨l₁, hl₁, hP₁⟩, hprobe₁⟩ := h₁
  obtain ⟨⟨l₂, hl₂, hP₂⟩, hprobe₂⟩ := h₂
  refine ⟨⟨l₁ ++ l₂, ?_, ?_⟩, hprobe₂.trans hprobe₁⟩
  · rw [hl₂, hl₁, List.append_assoc]
  · intro x hx
    rcases List.mem_append.mp hx with hx | hx
    · apply hP₁ x hx
    · apply hP₂ x hx

theorem Emits.mono (hPQ : ∀ x, P x → Q x) (hP : Emits P c c') :
  Emits Q c c'
  := by
  obtain ⟨⟨l, hl, hl'⟩, hprobe⟩ := hP
  apply And.intro _ hprobe
  use l, hl
  intro x hx
  apply hPQ
  apply hl' x hx

theorem Emits.emit {x : Effect} (hP : Emits P c c') (hx : P x) :
  Emits P c (c'.emit x)
  := hP.trans ⟨⟨[x], rfl, by simpa using hx⟩, rfl⟩

theorem Emits.withBook {g : Book → Book} (hP : Emits P c c') : Emits P c (c'.withBook g) := hP

theorem Emits.withPerm {g : Perm → Perm} (hP : Emits P c c') : Emits P c (c'.withPerm g) := hP

theorem Emits.withOpts {g : PeerOpts → PeerOpts} (hP : Emits P c c') :
  Emits P c (c'.withOpts g) := hP

theorem Emits.withAuth {g : Auth → Auth} (hP : Emits P c c') : Emits P c (c'.withAuth g) := hP

theorem Emits.subscribe {h : Host} {e : Env} {s : Service} {b : Bool} (hP : Emits P c c') :
  Emits P c (c'.subscribe h e s b)
  := by
  apply hP.trans
  rw [Conn.subscribe]
  split_ifs
  · exact .of_out_eq rfl rfl
  · exact .refl c'

theorem Emits.subscribeCallAudio {h : Host} {e : Env} {b : Bool} (hP : Emits P c c') :
  Emits P c (c'.subscribeCallAudio h e b)
  := by
  rw [Conn.subscribeCallAudio]
  split_ifs
  · exact hP.subscribe
  · exact hP

theorem Emits.ite {p : Prop} [Decidable p] {c₁ c₂ : Conn}
    (h₁ : p → Emits P c c₁) (h₂ : ¬ p → Emits P c c₂) :
  Emits P c (if p then c₁ else c₂)
  := by
  split_ifs with hp
  · exact h₁ hp
  · exact h₂ hp

theorem Emits.forall_mem (hP : Emits P c c') (hout : c.out = []) :
  ∀ x ∈ c'.out, P x
  := by
  obtain ⟨⟨l, hl, hl'⟩, -⟩ := hP
  rw [hl, hout]
  simpa using hl'

/-- Closing a connection has three kinds of effects. -/
theorem emits_onClose {h : Host} (lock : Bool) (hvoice : P .setVoiceCallInputDevice)
    (hlock : P .lockScreen) (hclose : P (.toCm .close)) (hdisconnected : P (.toCm .disconnected)) :
  Emits P c (c.onClose h lock)
  := by
  rw [onClose]
  split
  · apply Emits.refl
  · have hclosed : Emits P c ({ c with closed := true }.emit .setVoiceCallInputDevice) :=
      Emits.emit (.of_out_eq rfl rfl) hvoice
    dsimp only
    split_ifs
    · apply (hclosed.emit hlock).emit hdisconnected
    · apply (hclosed.emit hlock).emit hclose
    · apply hclosed.emit hdisconnected
    · apply hclosed.emit hclose

/-! ### The events that are no login -/

/-- The effect does not tell the connection manager about a login. -/
def NoLogin (x : Effect) : Prop := x.startsCm = false

/-- The effect sends none of the messages a controller reacts to while it logs in. -/
def NoHandshake (x : Effect) : Prop := x.handshake = false

/-- The effect writes nothing to the stream. -/
def Unframed (x : Effect) : Prop := x.framed = none

/-- The effect is no part of a login. -/
def Plain (x : Effect) : Prop := (x.startsCm || x.handshake) = false

theorem Plain.noLogin {x : Effect} (hx : Plain x) :
  NoLogin x
  := by
  rw [Plain] at hx
  simp only [Bool.or_eq_false_iff] at hx
  exact hx.1

theorem Plain.noHandshake {x : Effect} (hx : Plain x) :
  NoHandshake x
  := by
  rw [Plain] at hx
  simp only [Bool.or_eq_false_iff] at hx
  exact hx.2

theorem Unframed.noHandshake {x : Effect} (hx : Unframed x) :
  NoHandshake x
  := by
  unfold NoHandshake Effect.handshake
  split <;> first | rfl | cases hx

section Plain

variable (h : Host) (e : Env) (c)

theorem plain_onClose (lock : Bool) :
  Emits Plain c (c.onClose h lock)
  := emits_onClose lock rfl rfl rfl rfl

theorem plain_forward {m : OutMsg} (hm : Plain (.send m)) :
  Emits Plain c (c.forward h e m).1
  := by
  rw [forward]
  split
  · exact (Emits.refl c).emit hm
  · exact c.plain_onClose h false

theorem plain_resubscribeAudio :
  Emits Plain c (c.resubscribeAudio h e)
  := by
  rw [resubscribeAudio]
  split
  · split
    · exact (Emits.refl c).subscribe
    · exact .refl c
  · exact (Emits.refl c).subscribe

theorem plain_setPermission (g : Perm → Perm) (p : Permission) (enabled : Bool) :
  Emits Plain c ((c.withPerm g).sendPermission p enabled)
  := (Emits.refl c).withPerm.emit (by rfl)

theorem plain_switchKeyboard (enabled : Bool) :
  Emits Plain c (c.switchKeyboard h e enabled)
  := by
  unfold switchKeyboard
  dsimp only
  split_ifs
  · exact (c.plain_setPermission _ _ _).subscribe.subscribe.subscribe
  · exact (c.plain_setPermission _ _ _).subscribe.subscribe

theorem plain_switchAudio (enabled : Bool) :
  Emits Plain c (c.switchAudio h e enabled)
  := by
  unfold switchAudio
  dsimp only
  split_ifs
  · exact (c.plain_setPermission _ _ _).trans (plain_resubscribeAudio _ h e)
  · exact c.plain_setPermission _ _ _

theorem plain_switchFile (enabled : Bool) :
  Emits Plain c (c.switchFile h e enabled)
  := by
  unfold switchFile
  dsimp only
  split_ifs
  · exact (c.plain_setPermission _ _ _).subscribe
  · exact ((c.plain_setPermission _ _ _).emit (by rfl)).subscribe
  · exact c.plain_setPermission _ _ _

theorem plain_switchPrivacyMode (enabled : Bool) :
  Emits Plain c (c.switchPrivacyMode e enabled)
  := by
  rw [switchPrivacyMode]
  have hoff : Emits Plain c (c.emit (.turnOffPrivacy "")) := (Emits.refl c).emit (by rfl)
  dsimp only
  split_ifs
  · exact ((hoff.emit (by rfl)).withPerm).emit (by rfl)
  · refine (hoff.emit ?_).emit (by rfl)
    rw [turnOffPrivacyResultToMsg]
    split <;> rfl
  · exact c.plain_setPermission _ _ _

theorem plain_switchPermission (name : String) (enabled : Bool) :
  Emits Plain c (c.switchPermission h e name enabled)
  := by
  apply switchPermission_cases h e c (Emits Plain c) name enabled
  · intro _
    apply plain_switchKeyboard
  · intro _
    exact (c.plain_setPermission _ _ _).subscribe
  · apply plain_switchAudio
  · apply plain_switchFile
  · apply plain_setPermission
  · apply plain_setPermission
  · apply plain_setPermission
  · apply plain_switchPrivacyMode
  · apply Emits.refl

theorem plain_handleVoiceCall (accepted : Bool) :
  Emits Plain c (c.handleVoiceCall h e accepted)
  := by
  rw [handleVoiceCall]
  dsimp only
  split_ifs
  · exact ((((Emits.refl c).withBook.emit (by rfl)).emit (by rfl)).emit (by rfl)).withBook.subscribeCallAudio
  · exact (((Emits.refl c).withBook.emit (by rfl)).emit (by rfl)).withBook.subscribeCallAudio
  · exact .refl c

theorem plain_closeVoiceCall :
  Emits Plain c (c.closeVoiceCall h e)
  := by
  rw [closeVoiceCall]
  exact (((Emits.refl c).emit (by rfl)).emit (by rfl)).withBook.subscribeCallAudio

theorem plain_handleReadJobInitResult (id : Int) (result : Except String (Option String)) :
  Emits Plain c (c.handleReadJobInitResult id result)
  := by
  unfold handleReadJobInitResult
  split
  · exact .refl c
  · split
    · exact (Emits.refl c).withBook.emit (by rfl)
    · exact (Emits.refl c).withBook.emit (by rfl)
    · exact ((Emits.refl c).emit (by rfl)).withBook

theorem plain_ite {p : Prop} [Decidable p] (hc : Emits Plain c c') :
  Emits Plain c (if p then c' else c)
  := .ite (fun _ => hc) (fun _ => .refl c)

theorem plain_onCmEvent {d : CmEvent} (hd : d ≠ .authorize) :
  Emits Plain c (c.onCmEvent h e d).1
  := by
  have hone (x : Effect) (hx : Plain x) : Emits Plain c (c.emit x) := (Emits.refl c).emit hx
  cases d with
  | authorize => exact absurd rfl hd
  | close => exact ((Emits.refl c).withBook.emit (by rfl)).trans (plain_onClose _ h true)
  | cmWindowClosed =>
      simp only [onCmEvent]
      split
      · exact ((Emits.refl c).withBook).trans (plain_onClose _ h true)
      · exact .refl c
  | cmErr err =>
      simp only [onCmEvent]
      split
      · exact c.plain_onClose h false
      · exact .refl c
  | chatMessage text => exact ((Emits.refl c).emit (by rfl)).withBook
  | switchPermission name enabled => exact c.plain_switchPermission h e name enabled
  | rawMessage bytes => exact hone _ rfl
  | clipboardFile payload =>
      change Emits Plain c (c.cmClipboardFile h payload)
      unfold cmClipboardFile
      split
      · split
        · exact hone _ rfl
        · exact .refl c
      · exact .refl c
  | privacyModeState state implKey => exact hone _ rfl
  | requestStart => exact c.plain_ite (hone _ rfl)
  | switchSidesBack => exact c.plain_ite (hone _ rfl)
  | voiceCallResponse accepted => exact c.plain_handleVoiceCall h e accepted
  | closeVoiceCall => exact (c.plain_closeVoiceCall h e).emit (by rfl)
  | readJobInitResult connId id result =>
      exact c.plain_ite (c.plain_handleReadJobInitResult id result)
  | fileBlock connId id fileNum data compressed =>
      exact c.plain_ite (c.plain_ite (hone _ rfl))
  | fileReadDone connId id fileNum =>
      exact c.plain_ite (c.plain_ite ((Emits.refl c).withBook.emit (by rfl)))
  | fileReadError connId id fileNum err =>
      exact c.plain_ite (c.plain_ite ((Emits.refl c).withBook.emit (by rfl)))
  | fileDigest connId id fileNum => exact c.plain_ite (c.plain_ite (hone _ rfl))
  | allFilesResult connId id path result =>
      apply c.plain_ite
      unfold handleAllFilesResult
      split <;> exact hone _ rfl
  | other => exact .refl c

theorem plain_onServiceMsg (m : ServiceMsg) :
  Emits Plain c (c.onServiceMsg h e m).1
  := by
  cases m with
  | stopService => exact ((Emits.refl c).emit (by rfl)).trans (plain_onClose _ h false)
  | peerInfo => exact ((Emits.refl c).emit (by rfl)).trans (plain_forward _ h e rfl)
  | cursorPosition display =>
      refine Emits.trans ?_ (plain_forward _ h e rfl)
      apply c.plain_ite
      unfold handleCursorSwitchDisplay
      split
      · exact c.plain_ite ((Emits.refl c).emit (by rfl))
      · exact .refl c
  | lateAudioFrame => exact .refl c
  | other payload => exact c.plain_forward h e rfl

theorem plain_foldl_send (l : List JobMsg) (hc : Emits Plain c c') :
  Emits Plain c ((l.map JobMsg.out).foldl send c')
  := by
  induction l generalizing c' with
  | nil => exact hc
  | cons m l ih =>
      have hm : Plain (.send m.out) := by cases m <;> rfl
      exact ih (hc.emit hm)

/-- Before the connection is authorized, no event but a login and the delay probe has a part in
a login. -/
theorem plain_onEvent {ev : Event} (hun : c.auth.authorized = false)
    (hev : ev.isLogin = false) (hprobe : ev.isProbe = false) :
  Emits Plain c (c.onEvent h e ev).1
  := by
  cases ev with
  | cm d =>
      apply c.plain_onCmEvent h e
      rintro rfl
      cases hev
  | message msg =>
      suffices hm : Emits Plain c (c.onMessage h e msg).1 by
        simp only [onEvent, onStreamMessage]
        rcases andThen_cases (c.onMessage h e msg) _ with ⟨-, heq⟩ | ⟨-, heq⟩
        · rw [heq]
          exact hm
        · rw [heq]
          exact hm
      unfold onMessage
      split
      · exact c.plain_onClose h true
      · rw [hun]
        simp only [Bool.false_and, Bool.false_eq_true, if_false]
        unfold dispatch
        split
        · cases hev
        · cases hev
        · cases hprobe
        · cases hev
        · rw [hun]
          exact .refl c
  | unparsed => exact .refl c
  | streamClosed => exact c.plain_onClose h true
  | fileTimer r =>
      change Emits Plain c (c.onFileTimer h r).1
      unfold onFileTimer
      split
      · exact .refl c
      · have hlog : Emits Plain c (c.sendToCm (.fileTransferLog "transfer")) :=
          (Emits.refl c).emit (by rfl)
        cases r with
        | none => exact hlog.trans (plain_onClose _ h false)
        | some r => exact (plain_foldl_send c r.1 hlog).withBook
  | webConsole contained =>
      simp only [onEvent]
      split
      · exact ((Emits.refl c).emit (by rfl)).trans (plain_onClose _ h true)
      · exact .refl c
  | video => exact c.plain_forward h e rfl
  | service m => exact c.plain_onServiceMsg h e m
  | printerData path fresh =>
      change Emits Plain c (c.onPrinterData h e path fresh)
      unfold onPrinterData
      split
      · split
        · exact ((Emits.refl c).emit (by rfl)).withBook
        · exact (Emits.refl c).emit (by rfl)
      · exact .refl c
  | secondTimer idle =>
      simp only [onEvent]
      split
      · exact ((Emits.refl c).emit (by rfl)).trans (plain_onClose _ h true)
      · exact .refl c
  | testDelayTimer timeout => cases hprobe
  | clipFile payload stoppable beginning => exact c.plain_ite ((Emits.refl c).emit (by rfl))

/-- The delay timer ends the connection, or sends a probe, or does nothing. -/
theorem onTestDelayTimer_cases (timeout : Bool) :
  c.onTestDelayTimer h timeout = (c.onClose h true, false)
    ∨ (c.lastTestDelay = false ∧ (c.portForwardSocket && c.auth.authorized) = false
      ∧ c.onTestDelayTimer h timeout = ({ c with lastTestDelay := true }.send .testDelay, true))
    ∨ c.onTestDelayTimer h timeout = (c, true)
  := by
  rw [onTestDelayTimer]
  split
  · left
    rfl
  · split
    · rename_i hprobe
      right; left
      simp only [Bool.and_eq_true, Bool.not_eq_true'] at hprobe
      exact ⟨hprobe.1, hprobe.2, rfl⟩
    · right; right
      rfl

/-- Before the connection is authorized, no event but a login tells the connection manager
about a login. -/
theorem noLogin_onEvent {ev : Event} (hout : c.out = []) (hun : c.auth.authorized = false)
    (hev : ev.isLogin = false) :
  ∀ x ∈ (c.onEvent h e ev).1.out, NoLogin x
  := by
  cases hprobe : ev.isProbe with
  | false =>
      intro x hx
      apply Plain.noLogin
      apply (c.plain_onEvent h e hun hev hprobe).forall_mem hout x hx
  | true =>
      unfold Event.isProbe at hprobe
      split at hprobe
      · rename_i b
        change ∀ x ∈ (c.onTestDelayTimer h b).1.out, NoLogin x
        rcases c.onTestDelayTimer_cases h b with heq | ⟨-, -, heq⟩ | heq
        · rw [heq]
          intro x hx
          apply Plain.noLogin
          apply (c.plain_onClose h true).forall_mem hout x hx
        · rw [heq]
          simp [send, emit, hout, NoLogin, Effect.startsCm]
        · rw [heq, hout]
          simp
      · rename_i b
        have hfst : (c.onEvent h e (.message (some (.testDelay b)))).1 = (c.onTestDelay b).1 := by
          simp only [onEvent, onStreamMessage]
          have hmsg : c.onMessage h e (some (.testDelay b)) = c.onTestDelay b := by
            simp [onMessage, isCloseReason, hun, dispatch]
          rw [hmsg]
          rcases andThen_cases (c.onTestDelay b) _ with ⟨-, heq⟩ | ⟨-, heq⟩
          · rw [heq]
          · rw [heq]
        rw [hfst]
        unfold onTestDelay
        split_ifs
        · simp [emit, hout, NoLogin, Effect.startsCm]
        · simp [hout]
      · cases hprobe

end Plain

end Conn

end VynxDesk
