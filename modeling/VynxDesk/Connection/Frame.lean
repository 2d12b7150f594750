import VynxDesk.Connection.Loop

/-!
# What the handlers leave alone

The fields of a connection in two groups.  The `core` is what logging in decides together with
the tunnel; of all events only the login messages, an `Authorize` and the end of the connection
change it.  The `control` is what the subscriptions depend on; of the handlers of an authorized
peer only those that subscribe change it.  The lemmas here state this for each handler, and
`core_onEvent` for the loop.
-/

namespace VynxDesk

/-- What logging in decides, with the tunnel. -/
structure Core where
  id : Int
  salt : String
  challenge : String
  auth : Auth
  portForwardSocket : Bool
  portForwardMux : Option String
  closed : Bool

/-- The connection has a tunnel. -/
def Core.isPortForward (k : Core) : Bool := k.portForwardSocket || k.portForwardMux.isSome

/-- What the subscriptions depend on. -/
structure Control where
  perm : Perm
  opts : PeerOpts
  subs : Service → Bool
  servicesSubed : Bool

namespace Conn

def core (c : Conn) : Core :=
  ⟨c.id, c.salt, c.challenge, c.auth, c.portForwardSocket, c.portForwardMux, c.closed⟩

def control (c : Conn) : Control := ⟨c.perm, c.opts, c.subs, c.servicesSubed⟩

theorem auth_eq_of_core {c c' : Conn} (h : c'.core = c.core) :
  c'.auth = c.auth
  := congrArg Core.auth h

theorem isPortForward_eq_of_core {c c' : Conn} (h : c'.core = c.core) :
  c'.isPortForward = c.isPortForward
  := congrArg Core.isPortForward h

/-! ### Effects -/

section Effects

variable (c : Conn) (x : Effect) (m : OutMsg) (d : CmData) (f : FS)

@[simp] theorem core_emit : (c.emit x).core = c.core := rfl

@[simp] theorem core_send : (c.send m).core = c.core := rfl

@[simp] theorem core_sendToCm : (c.sendToCm d).core = c.core := rfl

@[simp] theorem core_sendFs : (c.sendFs f).core = c.core := rfl

@[simp] theorem core_withBook (g : Book → Book) : (c.withBook g).core = c.core := rfl

@[simp] theorem core_withPerm (g : Perm → Perm) : (c.withPerm g).core = c.core := rfl

@[simp] theorem core_withOpts (g : PeerOpts → PeerOpts) : (c.withOpts g).core = c.core := rfl

@[simp] theorem core_sendPermission (p : Permission) (b : Bool) :
  (c.sendPermission p b).core = c.core := rfl

@[simp] theorem control_emit : (c.emit x).control = c.control := rfl

@[simp] theorem control_send : (c.send m).control = c.control := rfl

@[simp] theorem control_sendToCm : (c.sendToCm d).control = c.control := rfl

@[simp] theorem control_sendFs : (c.sendFs f).control = c.control := rfl

@[simp] theorem control_withBook (g : Book → Book) : (c.withBook g).control = c.control := rfl

@[simp] theorem control_withAuth (g : Auth → Auth) : (c.withAuth g).control = c.control := rfl

end Effects

/-! ### Handlers that change neither -/

section Quiet

variable (h : Host) (e : Env) (c : Conn)

/-- The handler changes neither the core nor the control. -/
def Quiet (c c' : Conn) : Prop := c'.core = c.core ∧ c'.control = c.control

theorem quiet_refl : Quiet c c := ⟨rfl, rfl⟩

variable {c} in
theorem Quiet.trans {c' c'' : Conn} (h₁ : Quiet c c') (h₂ : Quiet c' c'') :
  Quiet c c''
  := ⟨h₂.1.trans h₁.1, h₂.2.trans h₁.2⟩

theorem quiet_emit (x : Effect) : Quiet c (c.emit x) := ⟨rfl, rfl⟩

variable {c} in
theorem Quiet.withBook {c' : Conn} {g : Book → Book} (hc : Quiet c c') :
  Quiet c (c'.withBook g)
  := hc.trans ⟨rfl, rfl⟩

variable {c} in
theorem Quiet.sendFs {c' : Conn} {f : FS} (hc : Quiet c c') :
  Quiet c (c'.sendFs f)
  := hc.trans ⟨rfl, rfl⟩

theorem quiet_onMouseEvent (me : MouseEvent) :
  Quiet c (c.onMouseEvent h me)
  := by
  rw [onMouseEvent]
  split_ifs <;> exact ⟨rfl, rfl⟩

theorem quiet_onPointerDeviceEvent (pde : PointerDeviceEvent) :
  Quiet c (c.onPointerDeviceEvent h pde)
  := by
  unfold onPointerDeviceEvent
  split_ifs
  · exact ⟨rfl, rfl⟩
  · cases pde <;> exact ⟨rfl, rfl⟩
  · exact ⟨rfl, rfl⟩
  · exact ⟨rfl, rfl⟩

theorem quiet_updatePressedModifiers (key : Option Nat) (isPress : Bool) :
  Quiet c (c.updatePressedModifiers key isPress)
  := by
  cases key <;> exact ⟨rfl, rfl⟩

theorem quiet_onKeyEvent (ke : KeyEvent) :
  Quiet c (c.onKeyEvent h e ke)
  := by
  rw [onKeyEvent]
  dsimp only
  split_ifs
  · exact ⟨rfl, rfl⟩
  all_goals first
    | exact ⟨rfl, rfl⟩
    | exact (c.quiet_updatePressedModifiers _ _).trans (quiet_emit _ _)

theorem quiet_onClipboards (cbs : List Clipboard) :
  Quiet c (c.onClipboards cbs)
  := by
  rw [onClipboards]
  split_ifs <;> exact ⟨rfl, rfl⟩

theorem quiet_onCliprdr (clip : Cliprdr) :
  Quiet c (c.onCliprdr h e clip)
  := by
  cases clip
  · exact ⟨rfl, rfl⟩
  · unfold onCliprdr
    dsimp only
    split_ifs <;> exact ⟨rfl, rfl⟩
  · exact ⟨rfl, rfl⟩

theorem quiet_createAndStartReadJob (id : Int) (path : String) :
  Quiet c (c.createAndStartReadJob e id path)
  := by
  rw [createAndStartReadJob]
  split <;> exact ⟨rfl, rfl⟩

theorem quiet_onFileSend
    (id : Int) (path : String) (fileNum : Int) (hidden : Bool) (t : EnumOrUnknown FileType) :
  Quiet c (c.onFileSend h e id path fileNum hidden t)
  := by
  rw [onFileSend]
  split
  · dsimp only
    split_ifs
    · exact c.quiet_refl.withBook.sendFs.withBook
    · exact (c.quiet_createAndStartReadJob e id path).withBook
  · split_ifs
    · exact (c.quiet_refl.withBook.trans (quiet_createAndStartReadJob e _ id path)).withBook
    · exact c.quiet_refl

theorem quiet_onAllFiles (id : Int) (path : String) (hidden : Bool) :
  Quiet c (c.onAllFiles e id path hidden)
  := by
  rw [onAllFiles]
  split_ifs
  · exact ⟨rfl, rfl⟩
  · split <;> exact ⟨rfl, rfl⟩

theorem quiet_removeJob (id : Int) :
  Quiet c (c.removeJob id)
  := by
  rw [removeJob]
  split_ifs <;> exact ⟨rfl, rfl⟩

theorem quiet_onFileCancel (id : Int) :
  Quiet c (c.onFileCancel id)
  := by
  rw [onFileCancel]
  exact Quiet.trans ⟨by simp, by simp⟩ (quiet_removeJob _ id)

theorem quiet_onSendConfirm (r : FileTransferSendConfirmRequest) :
  Quiet c (c.onSendConfirm r)
  := by
  rw [onSendConfirm]
  split_ifs <;> exact ⟨rfl, rfl⟩

theorem quiet_doFileAction (fa : FileAction) :
  Quiet c (c.doFileAction h e fa)
  := by
  cases fa with
  | allFiles id path hidden => exact c.quiet_onAllFiles e id path hidden
  | send id path fileNum hidden t => exact c.quiet_onFileSend h e id path fileNum hidden t
  | cancel id => exact c.quiet_onFileCancel id
  | sendConfirm r => exact c.quiet_onSendConfirm r
  | _ => exact ⟨rfl, rfl⟩

theorem quiet_refuseOutsideWorkspace (fa : FileAction) :
  Quiet c (c.refuseOutsideWorkspace h e fa).1
  := by
  unfold refuseOutsideWorkspace
  split_ifs
  · exact ⟨rfl, rfl⟩
  · split
    · split_ifs
      · exact ⟨rfl, rfl⟩
      · exact ⟨rfl, rfl⟩
      · cases fa <;> dsimp only
        all_goals first
          | exact ⟨rfl, rfl⟩
          | (split_ifs <;> exact ⟨rfl, rfl⟩)
    · exact ⟨rfl, rfl⟩

theorem quiet_onFileAction (fa : Option FileAction) :
  Quiet c (c.onFileAction h e fa)
  := by
  unfold onFileAction
  split
  · exact ⟨rfl, rfl⟩
  split
  · unfold delayReadDir
    split <;> exact ⟨rfl, rfl⟩
  · cases fa with
    | none => exact ⟨rfl, rfl⟩
    | some fa =>
        dsimp only
        split
        · exact ⟨rfl, rfl⟩
        · split
          · exact (c.quiet_refuseOutsideWorkspace h e fa).trans (quiet_doFileAction h e _ fa)
          · exact c.quiet_refuseOutsideWorkspace h e fa

theorem quiet_onFileResponse (fr : Option FileResponse) :
  Quiet c (c.onFileResponse fr)
  := by
  unfold onFileResponse
  split <;> exact ⟨rfl, rfl⟩

theorem quiet_changeResolution (d : Option Nat) (width height : Int) :
  Quiet c (c.changeResolution e d width height)
  := by
  rw [changeResolution]
  split_ifs <;> exact ⟨rfl, rfl⟩

theorem quiet_sendDisplayChanged (display : Nat) :
  Quiet c (c.sendDisplayChanged e display)
  := by
  rw [sendDisplayChanged]
  split_ifs <;> exact ⟨rfl, rfl⟩

theorem quiet_switchDisplayTo (d : Nat) :
  Quiet c (c.switchDisplayTo e d).1
  := by
  rw [switchDisplayTo]
  split_ifs <;> exact ⟨rfl, rfl⟩

theorem quiet_handleSwitchDisplay (d : Nat) (width height : Int) :
  Quiet c (c.handleSwitchDisplay h e d width height)
  := by
  rw [handleSwitchDisplay]
  split_ifs
  · exact ⟨rfl, rfl⟩
  · have hs := c.quiet_switchDisplayTo e d
    dsimp only
    split_ifs
    · exact hs
    · exact (hs.trans (quiet_changeResolution e _ _ _ _)).trans (quiet_sendDisplayChanged e _ _)
    · exact hs.trans (quiet_sendDisplayChanged e _ _)
  · exact c.quiet_sendDisplayChanged e _

theorem quiet_turnOnPrivacyResult (implKey : String) :
  Quiet c (c.turnOnPrivacyResult e implKey)
  := by
  rw [turnOnPrivacyResult]
  split
  · split_ifs <;> exact ⟨rfl, rfl⟩
  · exact ⟨rfl, rfl⟩
  · split_ifs <;> exact ⟨rfl, rfl⟩
  · exact ⟨rfl, rfl⟩

theorem quiet_turnOnPrivacy (implKey : String) :
  Quiet c (c.turnOnPrivacy e implKey)
  := by
  rw [turnOnPrivacy]
  dsimp only
  split_ifs
  · exact ⟨rfl, rfl⟩
  · exact ⟨rfl, rfl⟩
  · exact Quiet.trans ⟨rfl, rfl⟩ (quiet_turnOnPrivacyResult e _ implKey)
  · exact Quiet.trans ⟨rfl, rfl⟩ (quiet_turnOnPrivacyResult e _ implKey)

theorem quiet_turnOffPrivacy (implKey : String) :
  Quiet c (c.turnOffPrivacy e implKey)
  := by
  rw [turnOffPrivacy]
  split_ifs <;> exact ⟨rfl, rfl⟩

theorem quiet_togglePrivacyMode (implKey : String) (on : Bool) :
  Quiet c (c.togglePrivacyMode e implKey on)
  := by
  rw [togglePrivacyMode]
  split_ifs
  · exact c.quiet_turnOnPrivacy e implKey
  · exact c.quiet_turnOffPrivacy e implKey

theorem quiet_toggleVirtualDisplay (display : Int) (on : Bool) :
  Quiet c (c.toggleVirtualDisplay e display on)
  := by
  rw [toggleVirtualDisplay]
  dsimp only
  split_ifs <;> exact ⟨rfl, rfl⟩

theorem quiet_onElevationRequest (r : ElevationRequest) :
  Quiet c (c.onElevationRequest e r)
  := by
  have hr : Quiet c (c.handleElevationRequest e r) := by
    rw [handleElevationRequest]
    split_ifs <;> exact ⟨rfl, rfl⟩
  cases r
  · exact hr
  · exact hr
  · exact ⟨rfl, rfl⟩

theorem quiet_trySubCameraDisplays :
  Quiet c (c.trySubCameraDisplays e)
  := by
  rw [trySubCameraDisplays]
  split_ifs <;> exact ⟨rfl, rfl⟩

theorem quiet_handleTerminalAction (action : Bytes) :
  Quiet c (c.handleTerminalAction e action)
  := by
  rw [handleTerminalAction]
  split
  · exact ⟨rfl, rfl⟩
  · dsimp only
    split_ifs <;> exact ⟨rfl, rfl⟩

theorem quiet_handlePortForwardChannel (ch : PortForwardChannel) :
  Quiet c (c.handlePortForwardChannel e ch)
  := by
  rw [handlePortForwardChannel]
  split_ifs <;> exact ⟨rfl, rfl⟩

end Quiet

/-! ### Handlers that subscribe -/

section Subscribe

variable (h : Host) (e : Env) (o : OptionMessage) (c : Conn)

@[simp]
theorem core_subscribe (s : Service) (sub : Bool) :
  (c.subscribe h e s sub).core = c.core
  := by
  rw [subscribe]
  split_ifs <;> rfl

@[simp]
theorem core_trySubMonitorServices :
  (c.trySubMonitorServices h e).core = c.core
  := by
  rw [trySubMonitorServices]
  dsimp only
  split_ifs <;> rfl

@[simp]
theorem core_serverCaptureDisplays
    (source : VideoSource) (displays : List Nat) (inc exc : Bool) :
  (c.serverCaptureDisplays source displays inc exc).core = c.core
  := rfl

@[simp]
theorem core_followFocusedWindow :
  (c.followFocusedWindow h e).core = c.core
  := by
  unfold followFocusedWindow
  dsimp only
  split_ifs <;> simp

@[simp]
theorem core_captureDisplays (add sub set : List Nat) :
  (c.captureDisplays h e add sub set).core = c.core
  := by
  rw [captureDisplays]
  dsimp only
  split_ifs <;> simp

@[simp]
theorem core_subscribeCallAudio (sub : Bool) :
  (c.subscribeCallAudio h e sub).core = c.core
  := by
  rw [subscribeCallAudio]
  split_ifs
  · exact core_subscribe h e c .audio sub
  · rfl

@[simp]
theorem core_handleVoiceCall (accepted : Bool) :
  (c.handleVoiceCall h e accepted).core = c.core
  := by
  rw [handleVoiceCall]
  dsimp only
  split_ifs <;> simp

@[simp]
theorem core_closeVoiceCall :
  (c.closeVoiceCall h e).core = c.core
  := by
  simp [closeVoiceCall]

@[simp]
theorem core_resubscribeAudio :
  (c.resubscribeAudio h e).core = c.core
  := by
  rw [resubscribeAudio]
  split_ifs <;> simp only [core_subscribe]

/-! ### Options -/

@[simp]
theorem core_updateImageQuality :
  (c.updateImageQuality o).core = c.core
  := by
  rw [updateImageQuality]
  split
  · split_ifs <;> rfl
  · rfl

@[simp]
theorem core_updateCustomFps :
  (c.updateCustomFps o).core = c.core
  := by
  rw [updateCustomFps]
  split_ifs <;> rfl

@[simp]
theorem core_updateSupportedDecoding :
  (c.updateSupportedDecoding o).core = c.core
  := by
  rw [updateSupportedDecoding]
  split <;> rfl

@[simp]
theorem core_updateLockAfterSessionEnd :
  (c.updateLockAfterSessionEnd o).core = c.core
  := by
  rw [updateLockAfterSessionEnd]
  split <;> rfl

@[simp]
theorem core_updateShowRemoteCursor :
  (c.updateShowRemoteCursor h e o).core = c.core
  := by
  rw [updateShowRemoteCursor]
  split
  · split
    · rw [core_subscribe, core_subscribe]
      rfl
    · rfl
  · rfl

@[simp]
theorem core_updateFollowRemoteCursor :
  (c.updateFollowRemoteCursor h o).core = c.core
  := by
  rw [updateFollowRemoteCursor]
  split
  · split <;> rfl
  · rfl

@[simp]
theorem core_updateFollowRemoteWindow :
  (c.updateFollowRemoteWindow h e o).core = c.core
  := by
  rw [updateFollowRemoteWindow]
  split
  · exact core_subscribe h e _ _ _
  · rfl

@[simp]
theorem core_updateDisableAudio :
  (c.updateDisableAudio h e o).core = c.core
  := by
  rw [updateDisableAudio]
  split
  · exact core_resubscribeAudio h e _
  · rfl

@[simp]
theorem core_updateEnableFileTransfer :
  (c.updateEnableFileTransfer h e o).core = c.core
  := by
  rw [updateEnableFileTransfer]
  split
  · split
    · dsimp only
      split_ifs <;> simp
    · rfl
  · rfl

@[simp]
theorem core_updateDisableClipboard :
  (c.updateDisableClipboard h e o).core = c.core
  := by
  rw [updateDisableClipboard]
  split
  · exact core_subscribe h e _ _ _
  · rfl

@[simp]
theorem core_updateDisableKeyboard :
  (c.updateDisableKeyboard h e o).core = c.core
  := by
  rw [updateDisableKeyboard]
  split
  · dsimp only
    split_ifs <;> simp only [core_subscribe] <;> rfl
  · rfl

@[simp]
theorem core_updatePrivacyMode :
  (c.updatePrivacyMode h e o).core = c.core
  := by
  rw [updatePrivacyMode]
  split
  · split
    · split_ifs
      · exact (c.quiet_turnOnPrivacy e "").1
      · exact (c.quiet_turnOffPrivacy e "").1
      · rfl
    · rfl
  · rfl

@[simp]
theorem core_updateBlockInput :
  (c.updateBlockInput o).core = c.core
  := by
  rw [updateBlockInput]
  split
  · split_ifs <;> rfl
  · rfl

@[simp]
theorem core_updateTerminalPersistence :
  (c.updateTerminalPersistence h o).core = c.core
  := by
  rw [updateTerminalPersistence]
  split
  · split <;> rfl
  · rfl

@[simp]
theorem core_updateShowMyCursor :
  (c.updateShowMyCursor h e o).core = c.core
  := by
  rw [updateShowMyCursor]
  split
  · split
    · dsimp only
      split_ifs <;> rfl
    · rfl
  · rfl

@[simp]
theorem core_updateOptions :
  (c.updateOptions h e o).core = c.core
  := by
  simp [updateOptions]

@[simp]
theorem core_onOption :
  (c.onOption h e o).core = c.core
  := by
  rw [onOption]
  split_ifs
  · exact c.core_updateOptions h e o
  · split
    · exact core_updateOptions h e _ c
    · rfl

end Subscribe

/-! ### Turns that end the connection -/

/-- The turn keeps what the login decided, and the whole core unless it ends the loop; it opens no
tunnel. -/
structure Keeps (c : Conn) (r : Conn × Bool) : Prop where
  auth : r.1.auth = c.auth
  core : r.2 = true → r.1.core = c.core
  socket : c.portForwardSocket = false → r.1.portForwardSocket = false

section Keeps

variable (h : Host) (e : Env) (c : Conn)

variable {c} in
theorem keeps_of_core {c' : Conn} (b : Bool) (hc : c'.core = c.core) :
  Keeps c (c', b)
  := ⟨auth_eq_of_core hc, fun _ => hc, (congrArg Core.portForwardSocket hc).trans⟩

theorem keeps_refl (b : Bool) : Keeps c (c, b) := keeps_of_core b rfl

variable {c} in
theorem Keeps.of_core_eq {c' : Conn} {r : Conn × Bool} (hc : c'.core = c.core)
    (hr : Keeps c' r) :
  Keeps c r
  := ⟨hr.auth.trans (auth_eq_of_core hc), fun ht => (hr.core ht).trans hc,
    fun hs => hr.socket ((congrArg Core.portForwardSocket hc).trans hs)⟩

@[simp]
theorem auth_onClose (lock : Bool) :
  (c.onClose h lock).auth = c.auth
  := by
  rw [onClose]
  dsimp only
  split_ifs <;> rfl

@[simp]
theorem control_onClose (lock : Bool) :
  (c.onClose h lock).control = c.control
  := by
  rw [onClose]
  dsimp only
  split_ifs <;> rfl

theorem keeps_onClose (lock : Bool) :
  Keeps c (c.onClose h lock, false)
  := by
  constructor
  · exact c.auth_onClose h lock
  · intro hf
    cases hf
  · intro hs
    rw [onClose]
    dsimp only
    split_ifs <;> first | exact hs | rfl

theorem keeps_onSwitchSidesRequest (uuid : Bytes) :
  Keeps c (c.onSwitchSidesRequest h e uuid)
  := by
  rw [onSwitchSidesRequest]
  split
  · split_ifs
    · exact Keeps.of_core_eq (c.core_emit _) (keeps_onClose h _ false)
    · exact keeps_onClose h c false
  · exact keeps_refl c true

theorem keeps_onSelectedSid (sid : Nat) :
  Keeps c (c.onSelectedSid h e sid)
  := by
  rw [onSelectedSid]
  split_ifs
  · exact keeps_refl c true
  · exact keeps_of_core false (c.core_emit _)
  · split
    · exact keeps_of_core true rfl
    · exact keeps_refl c true
  · exact keeps_of_core true (c.quiet_trySubCameraDisplays e).1
  · exact keeps_of_core true (c.core_trySubMonitorServices h e)
  · exact keeps_refl c true

theorem keeps_ite {b : Bool} {c' : Conn} {p : Prop} [Decidable p] (hc : c'.core = c.core) :
  Keeps c (if p then c' else c, b)
  := by
  split_ifs
  · exact keeps_of_core b hc
  · exact keeps_refl c b

theorem keeps_onMisc (m : Misc) :
  Keeps c (c.onMisc h e m)
  := by
  cases m with
  | switchDisplay d w g => exact keeps_of_core true (c.quiet_handleSwitchDisplay h e d w g).1
  | captureDisplays add sub set => exact keeps_of_core true (c.core_captureDisplays h e add sub set)
  | toggleVirtualDisplay d on => exact keeps_ite c (c.quiet_toggleVirtualDisplay e d on).1
  | togglePrivacyMode k on => exact keeps_ite c (c.quiet_togglePrivacyMode e k on).1
  | chatMessage text => exact keeps_of_core true rfl
  | option o => exact keeps_of_core true (c.core_onOption h e o)
  | refreshVideo r => exact keeps_ite c rfl
  | refreshVideoDisplay d => exact keeps_ite c rfl
  | videoReceived => exact keeps_of_core true rfl
  | restartRemoteDevice => exact keeps_ite c rfl
  | elevationRequest r => exact keeps_ite c (c.quiet_onElevationRequest e r).1
  | audioFormat => exact keeps_ite c rfl
  | switchSidesRequest uuid => exact c.keeps_onSwitchSidesRequest h e uuid
  | changeResolution w g => exact keeps_ite c (c.quiet_changeResolution e none w g).1
  | changeDisplayResolution d w g => exact keeps_ite c (c.quiet_changeResolution e (some d) w g).1
  | autoAdjustFps fps => exact keeps_of_core true rfl
  | clientRecordStatus status => exact keeps_of_core true rfl
  | selectedSid sid =>
      simp only [onMisc]
      split
      · exact c.keeps_onSelectedSid h e sid
      · exact keeps_refl c true
  | messageQuery d => exact keeps_of_core true (c.quiet_sendDisplayChanged e d).1
  | closeReason _ => exact keeps_refl c true
  | followCurrentDisplay _ => exact keeps_refl c true
  | other => exact keeps_refl c true

theorem keeps_onAuthorizedMessage (msg : Message) :
  Keeps c (c.onAuthorizedMessage h e msg)
  := by
  unfold onAuthorizedMessage
  split
  · exact keeps_of_core true (c.quiet_onMouseEvent h _).1
  · exact keeps_of_core true (c.quiet_onPointerDeviceEvent h _).1
  · exact keeps_of_core true (c.quiet_onKeyEvent h e _).1
  · exact keeps_of_core true (c.quiet_onClipboards _).1
  · split_ifs
    · exact keeps_refl c true
    · exact keeps_of_core true (c.quiet_onClipboards _).1
  · exact keeps_ite c (c.quiet_onCliprdr h e _).1
  · exact keeps_of_core true (c.quiet_onFileAction h e _).1
  · exact keeps_of_core true (c.quiet_onFileResponse _).1
  · exact c.keeps_onMisc h e _
  · exact keeps_ite c rfl
  · unfold onVoiceCallRequest
    split_ifs
    · exact keeps_of_core true rfl
    · exact keeps_of_core true (c.core_closeVoiceCall h e)
  · exact keeps_of_core true rfl
  · exact keeps_of_core true (c.quiet_handlePortForwardChannel e _).1
  · exact keeps_ite c (c.quiet_handleTerminalAction e _).1
  · exact keeps_refl c true

theorem keeps_handleAuthorizedScopeViolation (message : String) :
  Keeps c (c.handleAuthorizedScopeViolation h e message)
  := by
  unfold handleAuthorizedScopeViolation
  dsimp only
  split_ifs
  · exact Keeps.of_core_eq (by simp [sendCloseReasonNoRetry]) (keeps_onClose h _ true)
  · exact keeps_of_core true rfl

/-! ### The events of the loop -/

/-- What holds after each of the switches holds after the switch of a permission by its name. -/
theorem switchPermission_cases (P : Conn → Prop) (name : String) (enabled : Bool)
    (hkeyboard : name = "keyboard" → P (c.switchKeyboard h e enabled))
    (hclipboard : name = "clipboard" → P (c.switchClipboard h e enabled))
    (haudio : P (c.switchAudio h e enabled)) (hfile : P (c.switchFile h e enabled))
    (hrestart :
      P ((c.withPerm fun p => { p with restart := enabled }).sendPermission .restart enabled))
    (hrecording :
      P ((c.withPerm fun p => { p with recording := enabled }).sendPermission .recording enabled))
    (hblockInput :
      P ((c.withPerm fun p => { p with blockInput := enabled }).sendPermission .blockInput enabled))
    (hprivacyMode : P (c.switchPrivacyMode e enabled)) (hother : P c) :
  P (c.switchPermission h e name enabled)
  := by
  rw [switchPermission]
  split
  case isTrue hname => exact hkeyboard hname
  split
  case isTrue hname => exact hclipboard hname
  split
  · exact haudio
  split
  · exact hfile
  split
  · exact hrestart
  split
  · exact hrecording
  split
  · exact hblockInput
  split
  · exact hprivacyMode
  · exact hother

theorem core_switchKeyboard (enabled : Bool) :
  (c.switchKeyboard h e enabled).core = c.core
  := by
  unfold switchKeyboard
  dsimp only
  split_ifs <;> simp

theorem core_switchAudio (enabled : Bool) :
  (c.switchAudio h e enabled).core = c.core
  := by
  unfold switchAudio
  dsimp only
  split_ifs <;> simp

theorem core_switchFile (enabled : Bool) :
  (c.switchFile h e enabled).core = c.core
  := by
  unfold switchFile
  dsimp only
  split_ifs <;> simp

theorem core_switchPrivacyMode (enabled : Bool) :
  (c.switchPrivacyMode e enabled).core = c.core
  := by
  rw [switchPrivacyMode]
  dsimp only
  split_ifs <;> simp

theorem core_switchPermission (name : String) (enabled : Bool) :
  (c.switchPermission h e name enabled).core = c.core
  := by
  apply switchPermission_cases h e c (fun c' => c'.core = c.core) name enabled
  · intro _
    apply core_switchKeyboard
  · intro _
    simp [switchClipboard]
  · apply core_switchAudio
  · apply core_switchFile
  · simp
  · simp
  · simp
  · apply core_switchPrivacyMode
  · rfl

theorem keeps_forward (m : OutMsg) :
  Keeps c (c.forward h e m)
  := by
  rw [forward]
  split_ifs
  · exact keeps_of_core true rfl
  · exact keeps_onClose h c false

theorem core_handleReadJobInitResult (id : Int) (result : Except String (Option String)) :
  (c.handleReadJobInitResult id result).core = c.core
  := by
  unfold handleReadJobInitResult
  split
  · rfl
  · split <;> rfl

theorem core_handleAllFilesResult (id : Int) (path : String) (result : Except String Bool) :
  (c.handleAllFilesResult id path result).core = c.core
  := by
  unfold handleAllFilesResult
  split <;> rfl

theorem keeps_onCmEvent {d : CmEvent} (hd : d ≠ .authorize) :
  Keeps c (c.onCmEvent h e d)
  := by
  cases d with
  | authorize => exact absurd rfl hd
  | close => exact Keeps.of_core_eq (by simp [sendCloseReasonNoRetry]) (keeps_onClose h _ true)
  | cmWindowClosed =>
      simp only [onCmEvent]
      split_ifs
      · exact Keeps.of_core_eq (c.core_withBook _) (keeps_onClose h _ true)
      · exact keeps_refl c true
  | cmErr err =>
      simp only [onCmEvent]
      split_ifs
      · exact keeps_onClose h c false
      · exact keeps_refl c true
  | chatMessage text => exact keeps_of_core true rfl
  | switchPermission name enabled => exact keeps_of_core true (c.core_switchPermission h e name enabled)
  | rawMessage bytes => exact keeps_of_core true rfl
  | clipboardFile payload =>
      apply keeps_of_core true
      unfold cmClipboardFile
      split
      · split <;> rfl
      · rfl
  | privacyModeState state implKey => exact keeps_of_core true rfl
  | requestStart => exact keeps_ite c rfl
  | switchSidesBack => exact keeps_ite c rfl
  | voiceCallResponse accepted => exact keeps_of_core true (c.core_handleVoiceCall h e accepted)
  | closeVoiceCall => exact keeps_of_core true (c.core_closeVoiceCall h e)
  | readJobInitResult connId id result =>
      exact keeps_ite c (c.core_handleReadJobInitResult id result)
  | fileBlock connId id fileNum data compressed =>
      apply keeps_ite c
      unfold handleFileBlockFromCm
      split_ifs <;> rfl
  | fileReadDone connId id fileNum =>
      apply keeps_ite c
      unfold handleFileReadDone
      split_ifs <;> rfl
  | fileReadError connId id fileNum err =>
      apply keeps_ite c
      unfold handleFileReadError
      split_ifs <;> rfl
  | fileDigest connId id fileNum =>
      apply keeps_ite c
      unfold handleFileDigestFromCm
      split_ifs <;> rfl
  | allFilesResult connId id path result =>
      exact keeps_ite c (c.core_handleAllFilesResult id path result)
  | other => exact keeps_refl c true

theorem keeps_onServiceMsg (m : ServiceMsg) :
  Keeps c (c.onServiceMsg h e m)
  := by
  cases m with
  | stopService => exact Keeps.of_core_eq (c.core_send _) (keeps_onClose h _ false)
  | peerInfo => exact Keeps.of_core_eq (c.core_emit _) (keeps_forward h e _ _)
  | cursorPosition display =>
      simp only [onServiceMsg]
      split
      · apply Keeps.of_core_eq _ (keeps_forward h e _ _)
        unfold handleCursorSwitchDisplay
        split
        · split_ifs <;> rfl
        · rfl
      · exact keeps_forward h e c _
  | lateAudioFrame => exact keeps_refl c true
  | other payload => exact keeps_forward h e c _

theorem core_foldl_send (l : List OutMsg) :
  (l.foldl send c).core = c.core
  := by
  induction l generalizing c with
  | nil => rfl
  | cons m l ih => exact ih (c.send m)

theorem keeps_onFileTimer (r : Option (List JobMsg × List Int)) :
  Keeps c (c.onFileTimer h r)
  := by
  rw [onFileTimer]
  split
  · exact keeps_refl c true
  · cases r with
    | none => exact Keeps.of_core_eq (c.core_sendToCm _) (keeps_onClose h _ false)
    | some r =>
        apply keeps_of_core true
        exact core_foldl_send _ _

theorem keeps_onTestDelayTimer (timeout : Bool) :
  Keeps c (c.onTestDelayTimer h timeout)
  := by
  rw [onTestDelayTimer]
  split_ifs
  · exact keeps_onClose h c true
  · exact keeps_of_core true rfl
  · exact keeps_refl c true

end Keeps

end Conn

/-- The messages that may change what the login decided. -/
def isLoginMessage : Message → Bool
  | some (.loginRequest _) | some (.auth2fa _) | some (.switchSidesResponse _) => true
  | _ => false

/-- The events that may change what the login decided. -/
def Event.isLogin : Event → Bool
  | .cm .authorize => true
  | .message msg => isLoginMessage msg
  | _ => false

namespace Conn

variable (h : Host) (e : Env) (c : Conn)

theorem keeps_dispatch {msg : Message} (hmsg : isLoginMessage msg = false) :
  Keeps c (c.dispatch h e msg)
  := by
  unfold dispatch
  split
  · cases hmsg
  · cases hmsg
  · unfold onTestDelay
    split_ifs <;> exact keeps_of_core true rfl
  · cases hmsg
  · split
    · exact c.keeps_onAuthorizedMessage h e _
    · exact keeps_refl c true

theorem keeps_onMessage {msg : Message} (hmsg : isLoginMessage msg = false) :
  Keeps c (c.onMessage h e msg)
  := by
  rw [onMessage]
  split
  · exact c.keeps_onClose h true
  · split
    · exact keeps_refl c true
    · split
      · split
        · exact c.keeps_handleAuthorizedScopeViolation h e _
        · exact c.keeps_dispatch h e hmsg
      · exact c.keeps_dispatch h e hmsg

/-- An event that is no login keeps what the login decided, and the whole core while the loop
goes on. -/
theorem keeps_onEvent {ev : Event} (hev : ev.isLogin = false) :
  Keeps c (c.onEvent h e ev)
  := by
  cases ev with
  | cm d =>
      apply c.keeps_onCmEvent h e
      rintro rfl
      cases hev
  | message msg =>
      obtain ⟨hauth, hcore, hsocket⟩ := c.keeps_onMessage h e hev
      simp only [onEvent, onStreamMessage, andThen]
      split
      · rename_i ht
        exact ⟨hauth, fun _ => hcore ht, hsocket⟩
      · exact ⟨hauth, hcore, hsocket⟩
  | unparsed => exact keeps_refl c true
  | streamClosed => exact c.keeps_onClose h true
  | fileTimer r => exact c.keeps_onFileTimer h r
  | webConsole contained =>
      simp only [onEvent]
      split
      · exact Keeps.of_core_eq (c.core_send _) (keeps_onClose h _ true)
      · exact keeps_refl c true
  | video => exact c.keeps_forward h e _
  | service m => exact c.keeps_onServiceMsg h e m
  | printerData path fresh =>
      apply keeps_of_core true
      rw [onPrinterData]
      split
      · split_ifs <;> rfl
      · rfl
  | secondTimer idle =>
      simp only [onEvent]
      split
      · exact Keeps.of_core_eq (c.core_send _) (keeps_onClose h _ true)
      · exact keeps_refl c true
  | testDelayTimer timeout => exact c.keeps_onTestDelayTimer h timeout
  | clipFile payload stoppable beginning =>
      apply keeps_of_core true
      rw [onClipFile]
      split_ifs <;> rfl

end Conn

end VynxDesk
