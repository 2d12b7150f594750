import VynxDesk.Connection.LoginEvent

/-!
# What changes the subscriptions

The ways in which a turn of the loop changes the permissions, the options and the
subscriptions of a connection: `ControlStep` for the events that are no login, and
`LoginControl` for the events that are.
-/

namespace VynxDesk

/-- `Server::subscribe`, on the control of a connection. -/
def Control.subscribe (h : Host) (e : Env) (s : Service) (sub : Bool) (k : Control) : Control :=
  if e.present h s then { k with subs := Function.update k.subs s sub } else k

namespace Conn

variable (h : Host) (e : Env) (c : Conn)

@[simp]
theorem control_subscribe (s : Service) (sub : Bool) :
  (c.subscribe h e s sub).control = c.control.subscribe h e s sub
  := by
  rw [subscribe, Control.subscribe]
  split_ifs <;> rfl

theorem isAuthedViewCameraConn_of_core {c c' : Conn} (hc : c'.core = c.core) :
  c'.isAuthedViewCameraConn = c.isAuthedViewCameraConn
  := by
  rw [isAuthedViewCameraConn, isAuthedViewCameraConn, authedConnType, authedConnType,
    auth_eq_of_core hc]

/-! ### Options that are no subscriptions -/

section Options

variable (o : OptionMessage)

@[simp]
theorem control_updateImageQuality :
  (c.updateImageQuality o).control = c.control
  := by
  rw [updateImageQuality]
  split
  · split_ifs <;> rfl
  · rfl

@[simp]
theorem control_updateCustomFps :
  (c.updateCustomFps o).control = c.control
  := by
  rw [updateCustomFps]
  split_ifs <;> rfl

@[simp]
theorem control_updateSupportedDecoding :
  (c.updateSupportedDecoding o).control = c.control
  := by
  rw [updateSupportedDecoding]
  split <;> rfl

@[simp]
theorem control_updatePrivacyMode :
  (c.updatePrivacyMode h e o).control = c.control
  := by
  rw [updatePrivacyMode]
  split
  · split
    · split_ifs
      · exact (c.quiet_turnOnPrivacy e "").2
      · exact (c.quiet_turnOffPrivacy e "").2
      · rfl
    · rfl
  · rfl

@[simp]
theorem control_updateBlockInput :
  (c.updateBlockInput o).control = c.control
  := by
  rw [updateBlockInput]
  split
  · split_ifs <;> rfl
  · rfl

@[simp]
theorem control_updateTerminalPersistence :
  (c.updateTerminalPersistence h o).control = c.control
  := by
  rw [updateTerminalPersistence]
  split
  · split <;> rfl
  · rfl

/-- An option that is no subscription leaves the permissions, the subscriptions, and the options
that the subscriptions depend on. -/
structure SameSubscriptions (k k' : Control) : Prop where
  perm : k'.perm = k.perm
  subs : k'.subs = k.subs
  servicesSubed : k'.servicesSubed = k.servicesSubed
  opts : ∃ lock follow cursor, k'.opts =
    { k.opts with
      lockAfterSessionEnd := lock, followRemoteCursor := follow, showMyCursor := cursor }

theorem sameSubscriptions_refl (k : Control) :
  SameSubscriptions k k
  := ⟨rfl, rfl, rfl, _, _, _, rfl⟩

theorem sameSubscriptions_updateLockAfterSessionEnd :
  SameSubscriptions c.control (c.updateLockAfterSessionEnd o).control
  := by
  rw [updateLockAfterSessionEnd]
  split
  · exact ⟨rfl, rfl, rfl, _, c.opts.followRemoteCursor, c.opts.showMyCursor, rfl⟩
  · apply sameSubscriptions_refl

theorem sameSubscriptions_updateFollowRemoteCursor :
  SameSubscriptions c.control (c.updateFollowRemoteCursor h o).control
  := by
  rw [updateFollowRemoteCursor]
  split
  · split
    · exact ⟨rfl, rfl, rfl, c.opts.lockAfterSessionEnd, _, c.opts.showMyCursor, rfl⟩
    · apply sameSubscriptions_refl
  · apply sameSubscriptions_refl

theorem sameSubscriptions_updateShowMyCursor :
  SameSubscriptions c.control (c.updateShowMyCursor h e o).control
  := by
  rw [updateShowMyCursor]
  split
  · split
    · rename_i v heq
      have hset : (if e.isMsgSupported then
          (c.withOpts fun o => { o with showMyCursor := v }).emit (.whiteboard v)
          else if v then (c.withOpts fun o => { o with showMyCursor := v }).send
            (.messageBox "Show my cursor")
          else c.withOpts fun o => { o with showMyCursor := v }).control
          = (c.withOpts fun o => { o with showMyCursor := v }).control := by
        split_ifs <;> rfl
      rw [hset]
      exact ⟨rfl, rfl, rfl, c.opts.lockAfterSessionEnd, c.opts.followRemoteCursor, v, rfl⟩
    · apply sameSubscriptions_refl
  · apply sameSubscriptions_refl

end Options

/-! ### The events that are no login -/

/-- The ways in which an event that is no login changes the control of a connection. -/
inductive ControlStep (ev : Event) : Control → Prop where
  | same : ControlStep ev c.control
  | windowFocus (b : Bool) (hfollow : c.opts.followRemoteWindow = true) :
      ControlStep ev (c.control.subscribe h e .windowFocus b)
  | cameraAudio (b : Bool) (hcam : c.isAuthedViewCameraConn = true) :
      ControlStep ev (c.control.subscribe h e .audio b)
  | monitor (hauth : c.auth.authorized = true) :
      ControlStep ev (c.trySubMonitorServices h e).control
  | remoteOptions (o : OptionMessage) (hauth : c.auth.authorized = true)
      (hremote : c.authedConnType = some .remote) :
      ControlStep ev (c.updateOptions h e o).control
  | scopedOptions (o o' : OptionMessage) (hscoped : c.scopedUpdateOptionMessage o = some o') :
      ControlStep ev (c.updateOptions h e o').control
  | switchPermission (name : String) (enabled : Bool)
      (hev : ev = .cm (.switchPermission name enabled)) :
      ControlStep ev (c.switchPermission h e name enabled).control

variable {h e c} {ev : Event}

theorem ControlStep.of_eq {k : Control} (hk : k = c.control) :
  ControlStep h e c ev k
  := by
  rw [hk]
  exact .same

theorem ControlStep.of_ite {p : Prop} [Decidable p] {c' : Conn}
    (hc : ControlStep h e c ev c'.control) :
  ControlStep h e c ev (if p then c' else c).control
  := by
  split_ifs
  · exact hc
  · exact .same

theorem controlStep_followFocusedWindow {c' : Conn} (hc : c'.control = c.control) :
  ControlStep h e c ev (c'.followFocusedWindow h e).control
  := by
  unfold followFocusedWindow
  dsimp only
  split
  · rename_i hfollow
    rw [control_subscribe, control_withBook, hc]
    apply ControlStep.windowFocus
    rw [← show c'.opts = c.opts from congrArg Control.opts hc]
    exact hfollow
  · exact .of_eq hc

/-- The display requests change at most the subscription to the focused window. -/
theorem controlStep_captureDisplays (add sub set : List Nat) :
  ControlStep h e c ev (c.captureDisplays h e add sub set).control
  := by
  rw [captureDisplays]
  dsimp only
  split
  · exact .same
  split
  · apply controlStep_followFocusedWindow
    split_ifs <;> rfl
  · exact .same

theorem controlStep_subscribeCallAudio {c' : Conn} (b : Bool) (hcore : c'.core = c.core)
    (hc : c'.control = c.control) :
  ControlStep h e c ev (c'.subscribeCallAudio h e b).control
  := by
  rw [subscribeCallAudio]
  split
  · rename_i hcam
    rw [control_subscribe, hc]
    apply ControlStep.cameraAudio
    rw [← isAuthedViewCameraConn_of_core hcore]
    exact hcam
  · exact .of_eq hc

theorem controlStep_closeVoiceCall :
  ControlStep h e c ev (c.closeVoiceCall h e).control
  := by
  apply controlStep_subscribeCallAudio
  · simp
  · simp

theorem controlStep_handleVoiceCall (accepted : Bool) :
  ControlStep h e c ev (c.handleVoiceCall h e accepted).control
  := by
  rw [handleVoiceCall]
  split
  · apply controlStep_subscribeCallAudio
    · split_ifs <;> simp
    · split_ifs <;> simp
  · exact .same

theorem controlStep_onOption (o : OptionMessage) (hauth : c.auth.authorized = true) :
  ControlStep h e c ev (c.onOption h e o).control
  := by
  rw [onOption]
  split
  · rename_i hremote
    exact .remoteOptions o hauth hremote
  · split
    · rename_i o' hscoped
      exact .scopedOptions o o' hscoped
    · exact .same

theorem controlStep_onSwitchSidesRequest (uuid : Bytes) :
  ControlStep h e c ev (c.onSwitchSidesRequest h e uuid).1.control
  := by
  rw [onSwitchSidesRequest]
  split
  · apply ControlStep.of_eq
    rw [control_onClose]
    split_ifs <;> rfl
  · exact .same

theorem controlStep_onSelectedSid (sid : Nat) (hauth : c.auth.authorized = true) :
  ControlStep h e c ev (c.onSelectedSid h e sid).1.control
  := by
  rw [onSelectedSid]
  split_ifs
  · exact .same
  · exact .same
  · split <;> exact .same
  · exact .of_eq (c.quiet_trySubCameraDisplays e).2
  · exact .monitor hauth
  · exact .same

theorem controlStep_onMisc (m : Misc) (hauth : c.auth.authorized = true) :
  ControlStep h e c ev (c.onMisc h e m).1.control
  := by
  cases m with
  | switchDisplay d w g => exact .of_eq (c.quiet_handleSwitchDisplay h e d w g).2
  | captureDisplays add sub set => exact controlStep_captureDisplays add sub set
  | toggleVirtualDisplay d on => exact .of_ite (.of_eq (c.quiet_toggleVirtualDisplay e d on).2)
  | togglePrivacyMode k on => exact .of_ite (.of_eq (c.quiet_togglePrivacyMode e k on).2)
  | option o => exact controlStep_onOption o hauth
  | refreshVideo r => exact .of_ite .same
  | refreshVideoDisplay d => exact .of_ite .same
  | restartRemoteDevice => exact .of_ite .same
  | elevationRequest r => exact .of_ite (.of_eq (c.quiet_onElevationRequest e r).2)
  | audioFormat => exact .of_ite .same
  | switchSidesRequest uuid => exact controlStep_onSwitchSidesRequest uuid
  | changeResolution w g => exact .of_ite (.of_eq (c.quiet_changeResolution e none w g).2)
  | changeDisplayResolution d w g =>
      exact .of_ite (.of_eq (c.quiet_changeResolution e (some d) w g).2)
  | selectedSid sid =>
      simp only [onMisc]
      split
      · exact controlStep_onSelectedSid sid hauth
      · exact .same
  | messageQuery d => exact .of_eq (c.quiet_sendDisplayChanged e d).2
  | _ => exact .same

theorem controlStep_onAuthorizedMessage (msg : Message) (hauth : c.auth.authorized = true) :
  ControlStep h e c ev (c.onAuthorizedMessage h e msg).1.control
  := by
  unfold onAuthorizedMessage
  split
  · exact .of_eq (c.quiet_onMouseEvent h _).2
  · exact .of_eq (c.quiet_onPointerDeviceEvent h _).2
  · exact .of_eq (c.quiet_onKeyEvent h e _).2
  · exact .of_eq (c.quiet_onClipboards _).2
  · dsimp only
    split_ifs
    · exact .same
    · exact .of_eq (c.quiet_onClipboards _).2
  · exact .of_ite (.of_eq (c.quiet_onCliprdr h e _).2)
  · exact .of_eq (c.quiet_onFileAction h e _).2
  · exact .of_eq (c.quiet_onFileResponse _).2
  · exact controlStep_onMisc _ hauth
  · exact .of_ite .same
  · unfold onVoiceCallRequest
    split_ifs
    · exact .same
    · exact controlStep_closeVoiceCall
  · exact .same
  · exact .of_eq (c.quiet_handlePortForwardChannel e _).2
  · exact .of_ite (.of_eq (c.quiet_handleTerminalAction e _).2)
  · exact .same

theorem controlStep_onMessage {msg : Message} (hmsg : isLoginMessage msg = false) :
  ControlStep h e c ev (c.onMessage h e msg).1.control
  := by
  have hdispatch : ControlStep h e c ev (c.dispatch h e msg).1.control := by
    unfold dispatch
    split
    · cases hmsg
    · cases hmsg
    · unfold onTestDelay
      split_ifs <;> apply ControlStep.same
    · cases hmsg
    · split
      · rename_i hauth
        simp only [Bool.and_eq_true] at hauth
        apply controlStep_onAuthorizedMessage _ hauth.1
      · apply ControlStep.same
  unfold onMessage
  split
  · apply ControlStep.of_eq
    simp
  split
  · apply ControlStep.same
  split
  · split
    · apply ControlStep.of_eq
      apply control_handleAuthorizedScopeViolation
    · apply hdispatch
  · apply hdispatch

theorem controlStep_ite_of_control {p : Prop} [Decidable p] {c' : Conn}
    (hc : c'.control = c.control) :
  ControlStep h e c ev (if p then c' else c).control
  := ControlStep.of_ite (.of_eq hc)

theorem control_forward (m : OutMsg) :
  (c.forward h e m).1.control = c.control
  := by
  rw [forward]
  split_ifs <;> simp

theorem control_foldl_send (l : List OutMsg) :
  (l.foldl send c).control = c.control
  := by
  induction l generalizing c with
  | nil => rfl
  | cons m l ih => apply ih (c := c.send m)

theorem controlStep_onCmEvent {d : CmEvent} (hd : d ≠ .authorize) :
  ControlStep h e c (.cm d) (c.onCmEvent h e d).1.control
  := by
  cases d with
  | authorize => exact absurd rfl hd
  | close =>
      apply ControlStep.of_eq
      simp [onCmEvent, sendCloseReasonNoRetry]
  | cmWindowClosed =>
      apply ControlStep.of_eq
      simp only [onCmEvent]
      split_ifs <;> simp
  | cmErr err =>
      apply ControlStep.of_eq
      simp only [onCmEvent]
      split_ifs <;> simp
  | switchPermission name enabled => apply ControlStep.switchPermission name enabled rfl
  | clipboardFile payload =>
      apply ControlStep.of_eq
      simp only [onCmEvent, cmClipboardFile]
      split
      · split <;> simp
      · rfl
  | requestStart => exact controlStep_ite_of_control rfl
  | switchSidesBack => exact controlStep_ite_of_control rfl
  | voiceCallResponse accepted => apply controlStep_handleVoiceCall
  | closeVoiceCall => apply controlStep_closeVoiceCall
  | readJobInitResult connId id result =>
      apply ControlStep.of_ite
      apply ControlStep.of_eq
      unfold handleReadJobInitResult
      split
      · rfl
      · split <;> simp
  | fileBlock connId id fileNum data compressed =>
      apply ControlStep.of_ite
      exact controlStep_ite_of_control rfl
  | fileReadDone connId id fileNum =>
      apply ControlStep.of_ite
      exact controlStep_ite_of_control rfl
  | fileReadError connId id fileNum err =>
      apply ControlStep.of_ite
      exact controlStep_ite_of_control rfl
  | fileDigest connId id fileNum =>
      apply ControlStep.of_ite
      exact controlStep_ite_of_control rfl
  | allFilesResult connId id path result =>
      apply ControlStep.of_ite
      apply ControlStep.of_eq
      unfold handleAllFilesResult
      split <;> rfl
  | _ => apply ControlStep.same

theorem controlStep_onServiceMsg (m : ServiceMsg) :
  ControlStep h e c ev (c.onServiceMsg h e m).1.control
  := by
  apply ControlStep.of_eq
  cases m with
  | stopService => simp [onServiceMsg, sendCloseReasonNoRetry]
  | peerInfo => apply control_forward
  | cursorPosition display =>
      simp only [onServiceMsg, control_forward]
      split
      · unfold handleCursorSwitchDisplay
        split
        · split_ifs <;> rfl
        · rfl
      · rfl
  | lateAudioFrame => rfl
  | other payload => apply control_forward

/-- How an event that is no login changes the control of a connection. -/
theorem controlStep_onEvent (hev : ev.isLogin = false) :
  ControlStep h e c ev (c.onEvent h e ev).1.control
  := by
  cases ev with
  | cm d =>
      apply controlStep_onCmEvent
      rintro rfl
      cases hev
  | message msg =>
      rw [(c.onEvent_message h e msg).1]
      apply controlStep_onMessage hev
  | unparsed => apply ControlStep.same
  | streamClosed =>
      apply ControlStep.of_eq
      apply control_onClose
  | fileTimer r =>
      apply ControlStep.of_eq
      simp only [onEvent, onFileTimer]
      split
      · rfl
      · cases r with
        | none => simp
        | some r => simp [control_foldl_send]
  | webConsole contained =>
      apply ControlStep.of_eq
      simp only [onEvent]
      split_ifs <;> simp [sendCloseReasonNoRetry]
  | video =>
      apply ControlStep.of_eq
      apply control_forward
  | service m => apply controlStep_onServiceMsg
  | printerData path fresh =>
      apply ControlStep.of_eq
      simp only [onEvent, onPrinterData]
      split
      · split_ifs <;> simp
      · rfl
  | secondTimer idle =>
      apply ControlStep.of_eq
      simp only [onEvent]
      split_ifs <;> simp [sendCloseReasonNoRetry]
  | testDelayTimer timeout =>
      apply ControlStep.of_eq
      change (c.onTestDelayTimer h timeout).1.control = c.control
      rcases c.onTestDelayTimer_cases h timeout with heq | ⟨-, -, heq⟩ | heq
      · rw [heq, control_onClose]
      · rw [heq]
        rfl
      · rw [heq]
  | clipFile payload stoppable beginning => exact controlStep_ite_of_control rfl

/-- Opening a connection changes nothing about it. -/
theorem control_onOpen {c' : Conn} (hopen : c.onOpen h e = some c') :
  c'.control = c.control
  := by
  have hdenied (c : Conn) (p : Permission) (b : Bool) : (c.sendDenied p b).control = c.control := by
    rw [sendDenied]
    split_ifs <;> rfl
  rw [onOpen] at hopen
  split at hopen
  · cases hopen
  · rw [← Option.some.inj hopen]
    simp only [hdenied]
    split_ifs
    · rfl
    · rw [hdenied]
      rfl

end Conn

end VynxDesk
