import VynxDesk.Connection.Subscription

/-!
# Sessions keep to their scope

`Effect.confined T` tells the effects a session of type `T` may have.  The filter of `on_message`
and the handlers together keep every file transfer, port forward, camera and terminal session to
its effects: what the filter lets through for compatibility, the handlers ignore.
-/

namespace VynxDesk

/-- The option sets nothing but `terminal_persistent`. -/
def OptionMessage.onlyTerminal (o : OptionMessage) : Bool :=
  o = { terminalPersistent := o.terminalPersistent }

/-- The option sets nothing but image quality, frames per second, decoding and
`disable_audio`. -/
def OptionMessage.onlyViewCamera (o : OptionMessage) : Bool :=
  o = { imageQuality := o.imageQuality, customImageQuality := o.customImageQuality,
        customFps := o.customFps, supportedDecoding := o.supportedDecoding,
        disableAudio := o.disableAudio }

/-- What a session of type `T` other than a remote one may tell the connection manager: nothing
for its clipboard, and of files only in a file transfer. -/
def CmData.confined (T : AuthConnType) : CmData → Bool
  | .clipboardFile _ | .clipboardFileEnabled _ => false
  | .fs _ | .fileTransferLog _ => T = .fileTransfer
  | _ => true

/-- The effects a message of a session of type `T` other than a remote one may have. -/
def Effect.confined (T : AuthConnType) : Effect → Bool
  | .input _ | .mainServicePointer _ | .mainServiceMouse _ | .mainServiceKey _ => false
  | .updateClipboard _ | .serveCliprdr _ | .emptyClipboardFiles => false
  | .turnOnPrivacy _ | .turnOffPrivacy _ => false
  | .changeResolution .. | .plugInMonitor _ | .plugOutMonitor _ => false
  | .reboot | .startPortableService _ | .switchSides _ => false
  | .toCm d => d.confined T
  | .readJob .. | .confirmJob _ | .removeJob _ => T = .fileTransfer
  | .handleTerminalAction .. | .newTerminalService .. | .setTerminalPersistent .. => T = .terminal
  | .handlePortForward .. => T = .portForward
  | .updateOptions o => T = .terminal && o.onlyTerminal || T = .viewCamera && o.onlyViewCamera
  | _ => true

namespace Conn

/-- The effect is one a session of type `T` may have. -/
def Confine (T : AuthConnType) (x : Effect) : Prop := x.confined T = true

variable (h : Host) (e : Env) (c : Conn)

/-! ### Files -/

section Files

theorem confine_createAndStartReadJob (id : Int) (path : String) :
  Emits (Confine .fileTransfer) c (c.createAndStartReadJob e id path)
  := by
  rw [createAndStartReadJob]
  split
  · apply (Emits.refl c).emit (by rfl)
  · apply (((Emits.refl c).emit (by rfl)).withBook).emit (by rfl)

theorem confine_onFileSend
    (id : Int) (path : String) (fileNum : Int) (hidden : Bool) (t : EnumOrUnknown FileType) :
  Emits (Confine .fileTransfer) c (c.onFileSend h e id path fileNum hidden t)
  := by
  rw [onFileSend]
  split
  · dsimp only
    split_ifs
    · apply (((Emits.refl c).withBook).emit (by rfl)).withBook
    · apply (c.confine_createAndStartReadJob e id path).withBook
  · split_ifs
    · apply (((Emits.refl c).withBook).trans (confine_createAndStartReadJob e _ id path)).withBook
    · apply Emits.refl

theorem confine_onAllFiles (id : Int) (path : String) (hidden : Bool) :
  Emits (Confine .fileTransfer) c (c.onAllFiles e id path hidden)
  := by
  rw [onAllFiles]
  split_ifs
  · apply (Emits.refl c).emit (by rfl)
  · split
    · apply (Emits.refl c).emit (by rfl)
    · apply (Emits.refl c).emit (by rfl)

theorem confine_onFileCancel (id : Int) :
  Emits (Confine .fileTransfer) c (c.onFileCancel id)
  := by
  have hcancel : Emits (Confine .fileTransfer) c (((c.sendFs (.cancelWrite id)).withBook fun b =>
      { b with cmReadJobIds := b.cmReadJobIds.erase id }).sendFs (.cancelRead id)) :=
    (((Emits.refl c).emit (by rfl)).withBook).emit (by rfl)
  rw [onFileCancel]
  apply hcancel.trans
  rw [removeJob]
  split_ifs
  · apply (((Emits.refl _).withBook).emit (by rfl)).emit (by rfl)
  · apply Emits.refl

theorem confine_onSendConfirm (r : FileTransferSendConfirmRequest) :
  Emits (Confine .fileTransfer) c (c.onSendConfirm r)
  := by
  rw [onSendConfirm]
  split_ifs
  · apply (Emits.refl c).emit (by rfl)
  · apply (Emits.refl c).emit (by rfl)
  · apply (Emits.refl c).emit (by rfl)

theorem confine_doFileAction (fa : FileAction) :
  Emits (Confine .fileTransfer) c (c.doFileAction h e fa)
  := by
  have hfs (d : FS) : Emits (Confine .fileTransfer) c (c.sendFs d) := (Emits.refl c).emit (by rfl)
  cases fa with
  | readEmptyDirs path hidden => apply hfs
  | readDir path hidden => apply hfs
  | allFiles id path hidden => apply confine_onAllFiles
  | send id path fileNum hidden t => apply confine_onFileSend
  | receive id path fileNum files size => apply (hfs _).withBook
  | removeDir id path recursive => apply hfs
  | removeFile id path fileNum => apply hfs
  | create id path => apply (hfs _).emit (by rfl)
  | cancel id => apply confine_onFileCancel
  | sendConfirm r => apply confine_onSendConfirm
  | rename id path newName => apply (hfs _).emit (by rfl)
  | other => apply Emits.refl

theorem confine_refuseOutsideWorkspace (fa : FileAction) :
  Emits (Confine .fileTransfer) c (c.refuseOutsideWorkspace h e fa).1
  := by
  unfold refuseOutsideWorkspace
  split
  · apply Emits.refl
  split
  · split
    · dsimp only
      split_ifs
      · apply (Emits.refl c).emit (by rfl)
      · apply Emits.refl
    · split
      · split
        · apply Emits.refl
        · apply (Emits.refl c).emit (by rfl)
      · apply Emits.refl
  · apply Emits.refl

theorem confine_onFileAction (fa : Option FileAction) :
  Emits (Confine .fileTransfer) c (c.onFileAction h e fa)
  := by
  unfold onFileAction
  split
  · apply Emits.refl
  split
  · unfold delayReadDir
    split
    · apply (Emits.refl c).withBook
    · apply Emits.refl
  · cases fa with
    | none => apply Emits.refl
    | some fa =>
        dsimp only
        split
        · apply (Emits.refl c).emit (by rfl)
        · split
          · apply (c.confine_refuseOutsideWorkspace h e fa).trans (confine_doFileAction h e _ fa)
          · apply c.confine_refuseOutsideWorkspace h e fa

theorem confine_onFileResponse (fr : Option FileResponse) :
  Emits (Confine .fileTransfer) c (c.onFileResponse fr)
  := by
  unfold onFileResponse
  split
  · apply (Emits.refl c).emit (by rfl)
  · apply (Emits.refl c).emit (by rfl)
  · apply (Emits.refl c).emit (by rfl)
  · apply (Emits.refl c).emit (by rfl)
  · apply Emits.refl
  · apply Emits.refl

end Files

/-! ### Options -/

section Options

variable {o : OptionMessage}

/-- What every session may set of its options has effects that every session may have. -/
theorem confine_updateQuality {T : AuthConnType} :
  Emits (Confine T) c (((c.updateImageQuality o).updateCustomFps o).updateSupportedDecoding o)
  := by
  have hquality : Emits (Confine T) c (c.updateImageQuality o) := by
    rw [updateImageQuality]
    split
    · split_ifs
      · apply (Emits.refl c).emit (by rfl)
      · apply Emits.refl
    · apply Emits.refl
  have hfps : Emits (Confine T) c ((c.updateImageQuality o).updateCustomFps o) := by
    rw [updateCustomFps]
    split_ifs
    · apply hquality.emit (by rfl)
    · apply hquality
  rw [updateSupportedDecoding]
  split
  · apply hfps.emit (by rfl)
  · apply hfps

theorem confine_updateDisableAudio {T : AuthConnType} :
  Emits (Confine T) c (c.updateDisableAudio h e o)
  := by
  rw [updateDisableAudio]
  split
  · rw [resubscribeAudio]
    split_ifs
    · apply (Emits.refl c).withOpts.subscribe
    · apply (Emits.refl c).withOpts
    · apply (Emits.refl c).withOpts.subscribe
  · apply Emits.refl

/-- An option that sets nothing of a remote session has only the effects of its own session. -/
theorem confine_updateOptions {T : AuthConnType} (ho : ScopedOption o)
    (hconf : (Effect.updateOptions o).confined T = true)
    (hterm : T ≠ .terminal → o.terminalPersistent.setting = none) :
  Emits (Confine T) c (c.updateOptions h e o)
  := by
  have hcursor (c : Conn) : c.updateShowRemoteCursor h e o = c := by
    simp [updateShowRemoteCursor, ho.showRemoteCursor]
  have hwindow (c : Conn) : c.updateFollowRemoteWindow h e o = c := by
    simp [updateFollowRemoteWindow, ho.followRemoteWindow]
  have hfile (c : Conn) : c.updateEnableFileTransfer h e o = c := by
    simp [updateEnableFileTransfer, ho.enableFileTransfer]
  have hclipboard (c : Conn) : c.updateDisableClipboard h e o = c := by
    simp [updateDisableClipboard, ho.disableClipboard]
  have hkeyboard (c : Conn) : c.updateDisableKeyboard h e o = c := by
    simp [updateDisableKeyboard, ho.disableKeyboard]
  have hprivacy (c : Conn) : c.updatePrivacyMode h e o = c := by
    simp [updatePrivacyMode, ho.privacyMode]
  have hblock (c : Conn) : c.updateBlockInput o = c := by
    simp [updateBlockInput, ho.blockInput]
  have hmine (c : Conn) : c.updateShowMyCursor h e o = c := by
    simp [updateShowMyCursor, ho.showMyCursor]
  have hlock (c : Conn) : Emits (Confine T) c (c.updateLockAfterSessionEnd o) := by
    rw [updateLockAfterSessionEnd]
    split
    · apply (Emits.refl c).withOpts
    · apply Emits.refl
  have hfollow (c : Conn) : Emits (Confine T) c (c.updateFollowRemoteCursor h o) := by
    rw [updateFollowRemoteCursor]
    split
    · split
      · apply (Emits.refl c).withOpts
      · apply Emits.refl
    · apply Emits.refl
  have hpersist (c : Conn) : Emits (Confine T) c (c.updateTerminalPersistence h o) := by
    by_cases hT : T = .terminal
    · subst hT
      rw [updateTerminalPersistence]
      split
      · split
        · apply (Emits.refl c).withBook.emit (by rfl)
        · apply Emits.refl
      · apply Emits.refl
    · simp only [updateTerminalPersistence, hterm hT]
      split <;> apply Emits.refl
  simp only [updateOptions, hcursor, hwindow, hfile, hclipboard, hkeyboard, hprivacy, hblock,
    hmine]
  have hstart : Emits (Confine T) c (c.emit (.updateOptions o)) := (Emits.refl c).emit hconf
  apply Emits.trans _ (hpersist _)
  apply Emits.trans _ (confine_updateDisableAudio h e _)
  apply Emits.trans _ (hfollow _)
  apply Emits.trans _ (hlock _)
  apply hstart.trans (confine_updateQuality _)

/-- The options a session may change are its own. -/
theorem confine_onOption {T : AuthConnType} {o : OptionMessage} (hT : T ≠ .remote)
    (htype : c.authedConnType = some T) :
  Emits (Confine T) c (c.onOption h e o)
  := by
  have hne : c.authedConnType ≠ some .remote := by
    rw [htype]
    simpa using hT
  rw [onOption]
  rw [if_neg hne]
  split
  · rename_i o' ho'
    have hscoped := scopedOption_scopedUpdateOptionMessage ho'
    rw [scopedUpdateOptionMessage] at ho'
    rw [htype] at ho'
    cases T with
    | remote => exact absurd rfl hT
    | fileTransfer => cases ho'
    | portForward => cases ho'
    | viewCamera =>
        simp only [OptionMessage.scopedViewCamera] at ho'
        split at ho'
        · cases ho'
          apply confine_updateOptions h e c hscoped
          · simp [Effect.confined, OptionMessage.onlyViewCamera, OptionMessage.viewCameraPart]
          · intro _
            rfl
        · cases ho'
    | terminal =>
        simp only [OptionMessage.scopedTerminalLogin] at ho'
        split at ho'
        · cases ho'
          apply confine_updateOptions h e c hscoped
          · rw [OptionMessage.terminalPart]
            split
            · simp [Effect.confined, OptionMessage.onlyTerminal]
            · simp [Effect.confined, OptionMessage.onlyTerminal]
          · intro hterm
            exact absurd rfl hterm
        · cases ho'
  · apply Emits.refl

end Options

/-! ### Messages -/

section Messages

variable {h e c}
variable {T : AuthConnType}

theorem confine_onClose (lock : Bool) :
  Emits (Confine T) c (c.onClose h lock)
  := emits_onClose lock rfl rfl rfl rfl

theorem confine_handleAuthorizedScopeViolation (message : String) :
  Emits (Confine T) c (c.handleAuthorizedScopeViolation h e message).1
  := by
  unfold handleAuthorizedScopeViolation
  dsimp only
  split_ifs
  · apply ((Emits.refl c).withBook.emit (by rfl)).trans (confine_onClose true)
  · apply (Emits.refl c).withBook

/-- A camera session is recorded as one, and has no files. -/
theorem Typed.viewCamera (htyped : c.Typed) (htype : c.authedConnType = some .viewCamera) :
  c.auth.viewCamera = true ∧ c.auth.fileTransfer.isSome = false
  := by
  rw [Typed, authConnTypeOnLogin] at htyped
  rw [htype] at htyped
  split_ifs at htyped with hfile hforward hcamera
  all_goals cases htyped
  constructor
  · apply hcamera
  · simpa using hfile

/-- A file transfer is recorded as one. -/
theorem Typed.fileTransfer (htyped : c.Typed) (htype : c.authedConnType = some .fileTransfer) :
  c.auth.fileTransfer.isSome = true
  := by
  rw [Typed, authConnTypeOnLogin] at htyped
  rw [htype] at htyped
  split_ifs at htyped with hfile
  all_goals cases htyped
  apply hfile

theorem switchDisplayTo_cases (d : Nat) :
  c.switchDisplayTo e d = (c, false) ∨ ∃ g, c.switchDisplayTo e d = (c.withBook g, true)
  := by
  rw [switchDisplayTo]
  split_ifs
  · left
    rfl
  · right
    exact ⟨_, rfl⟩
  · right
    exact ⟨_, rfl⟩

theorem confine_sendDisplayChanged {c' : Conn} (display : Nat) (hc : Emits (Confine T) c c') :
  Emits (Confine T) c (c'.sendDisplayChanged e display)
  := by
  rw [sendDisplayChanged]
  split_ifs
  · apply hc.emit (by rfl)
  · apply hc

/-- A camera session that switches its display leaves the resolution. -/
theorem confine_handleSwitchDisplay (d : Nat) (width height : Int)
    (hcamera : c.auth.viewCamera = true) :
  Emits (Confine T) c (c.handleSwitchDisplay h e d width height)
  := by
  rw [handleSwitchDisplay]
  split_ifs
  · apply Emits.refl
  · rcases c.switchDisplayTo_cases d with heq | ⟨g, heq⟩
    · rw [heq]
      apply Emits.refl
    · rw [heq]
      simp only [Bool.not_true, Bool.false_eq_true, if_false, withBook, hcamera, Bool.and_false,
        Bool.false_and]
      apply confine_sendDisplayChanged
      apply (Emits.refl c).withBook
  · apply confine_sendDisplayChanged
    apply Emits.refl

theorem confine_followFocusedWindow (hc : Emits (Confine T) c c') :
  Emits (Confine T) c (c'.followFocusedWindow h e)
  := by
  unfold followFocusedWindow
  dsimp only
  split_ifs
  · apply hc.withBook.subscribe
  · apply hc.withBook

theorem confine_captureDisplays (add sub set : List Nat) :
  Emits (Confine T) c (c.captureDisplays h e add sub set)
  := by
  have hserver (displays : List Nat) (inc exc : Bool) :
      Emits (Confine T) c (c.serverCaptureDisplays c.videoSource displays inc exc) :=
    (Emits.refl c).withBook
  rw [captureDisplays]
  dsimp only
  split
  · apply Emits.refl
  split
  · apply confine_followFocusedWindow
    split
    · apply hserver
    split
    · apply hserver
    · apply hserver
  · apply Emits.refl

theorem confine_onSelectedSid (sid : Nat) (hT : T = .fileTransfer ∨ T = .viewCamera)
    (htype : c.authedConnType = some T) (htyped : c.Typed) :
  Emits (Confine T) c (c.onSelectedSid h e sid).1
  := by
  rw [onSelectedSid]
  split_ifs
  · apply Emits.refl
  · apply (Emits.refl c).emit (by rfl)
  · split
    · rcases hT with rfl | rfl
      · apply (Emits.refl c).withBook.emit (by rfl)
      · rename_i hfile _ _ _ _
        exact absurd ((htyped.viewCamera htype).2.symm.trans hfile) Bool.noConfusion
    · apply Emits.refl
  · rw [trySubCameraDisplays]
    split_ifs
    · apply (Emits.refl c).withBook
    · apply Emits.refl
  · rcases hT with rfl | rfl
    · exact absurd (htyped.fileTransfer htype) (by assumption)
    · exact absurd (htyped.viewCamera htype).1 (by assumption)
  · apply Emits.refl

/-- The message passes the filter of a session of type `T` and is no housekeeping. -/
def Passes (h : Host) (T : AuthConnType) (msg : Message) : Prop :=
  noopCompat T msg = true ∨ isScopedMessage h T msg = true

theorem confine_ite {p : Prop} [Decidable p] {c' : Conn} (hc : p → Emits (Confine T) c c') :
  Emits (Confine T) c (if p then c' else c)
  := .ite hc fun _ => .refl c

/-- A message that passes the filter of no other session passes that of the camera session. -/
theorem Passes.viewCamera {msg : Message} (hpass : Passes h T msg) (hT : T ≠ .remote)
    (hfile : ¬ Passes h .fileTransfer msg := by rintro (hp | hp) <;> cases hp)
    (hforward : ¬ Passes h .portForward msg := by rintro (hp | hp) <;> cases hp)
    (hterminal : ¬ Passes h .terminal msg := by rintro (hp | hp) <;> cases hp) :
  T = .viewCamera
  := by
  cases T with
  | remote => exact absurd rfl hT
  | fileTransfer => exact absurd hpass hfile
  | portForward => exact absurd hpass hforward
  | viewCamera => rfl
  | terminal => exact absurd hpass hterminal

/-- The `Misc` messages that pass the filter of a session have its effects only. -/
theorem confine_onMisc {m : Misc} (hT : T ≠ .remote) (htype : c.authedConnType = some T)
    (htyped : c.Typed) (hpass : Passes h T (some (.misc (some m)))) :
  Emits (Confine T) c (c.onMisc h e m).1
  := by
  have hcamera (hview : T = .viewCamera) : c.auth.viewCamera = true := by
    subst hview
    apply (htyped.viewCamera htype).1
  cases m with
  | switchDisplay display width height =>
      apply confine_handleSwitchDisplay
      apply hcamera
      apply hpass.viewCamera hT
  | captureDisplays add sub set => apply confine_captureDisplays
  | toggleVirtualDisplay display on =>
      simp [onMisc, hcamera (hpass.viewCamera hT), Emits.refl]
  | togglePrivacyMode implKey on =>
      simp [onMisc, hcamera (hpass.viewCamera hT), Emits.refl]
  | chatMessage text => apply ((Emits.refl c).emit (by rfl)).withBook
  | option o => apply c.confine_onOption h e hT htype
  | refreshVideo r =>
      apply confine_ite
      intro _
      apply (Emits.refl c).emit (by rfl)
  | refreshVideoDisplay display =>
      apply confine_ite
      intro _
      apply (Emits.refl c).emit (by rfl)
  | videoReceived => apply (Emits.refl c).emit (by rfl)
  | restartRemoteDevice =>
      cases hpass.viewCamera hT
      rcases hpass with hp | hp <;> cases hp
  | elevationRequest r =>
      cases hpass.viewCamera hT
      rcases hpass with hp | hp <;> cases hp
  | audioFormat =>
      apply confine_ite
      intro _
      apply (Emits.refl c).withBook.emit (by rfl)
  | switchSidesRequest uuid =>
      cases hpass.viewCamera hT
      rcases hpass with hp | hp <;> cases hp
  | changeResolution width height =>
      simp [onMisc, hcamera (hpass.viewCamera hT), Emits.refl]
  | changeDisplayResolution display width height =>
      simp [onMisc, hcamera (hpass.viewCamera hT), Emits.refl]
  | autoAdjustFps fps => apply (Emits.refl c).emit (by rfl)
  | clientRecordStatus status => apply (Emits.refl c).emit (by rfl)
  | selectedSid sid =>
      simp only [onMisc]
      split_ifs
      · apply confine_onSelectedSid sid _ htype htyped
        cases T with
        | remote => exact absurd rfl hT
        | fileTransfer => exact Or.inl rfl
        | viewCamera => exact Or.inr rfl
        | portForward => rcases hpass with hp | hp <;> cases hp
        | terminal => rcases hpass with hp | hp <;> cases hp
      · apply Emits.refl
  | messageQuery display => apply confine_sendDisplayChanged _ (Emits.refl c)
  | closeReason _ => apply Emits.refl
  | followCurrentDisplay _ => apply Emits.refl
  | other => apply Emits.refl

/-- The messages that pass the filter of a session have its effects only. -/
theorem confine_onAuthorizedMessage {msg : Message} (hT : T ≠ .remote)
    (htype : c.authedConnType = some T) (htyped : c.Typed) (hpass : Passes h T msg) :
  Emits (Confine T) c (c.onAuthorizedMessage h e msg).1
  := by
  have hcamera (hview : T = .viewCamera) : c.isAuthedViewCameraConn = true := by
    simp [isAuthedViewCameraConn, htype, hview]
  have hclipboards (cbs : List Clipboard) : c.onClipboards cbs = c := by
    simp [onClipboards, shouldHandleTextClipboardMessage, htype, hT]
  unfold onAuthorizedMessage
  split
  · simp [onMouseEvent, hcamera (hpass.viewCamera hT), Emits.refl]
  · simp [onPointerDeviceEvent, hcamera (hpass.viewCamera hT), Emits.refl]
  · simp [onKeyEvent, hcamera (hpass.viewCamera hT), Emits.refl]
  · rw [hclipboards]
    apply Emits.refl
  · simp [hclipboards, Emits.refl]
  · cases hpass.viewCamera hT
    rcases hpass with hp | hp <;> cases hp
  · cases T with
    | remote => exact absurd rfl hT
    | fileTransfer => apply confine_onFileAction
    | portForward => rcases hpass with hp | hp <;> cases hp
    | viewCamera => rcases hpass with hp | hp <;> cases hp
    | terminal => rcases hpass with hp | hp <;> cases hp
  · cases T with
    | remote => exact absurd rfl hT
    | fileTransfer => apply confine_onFileResponse
    | portForward => rcases hpass with hp | hp <;> cases hp
    | viewCamera => rcases hpass with hp | hp <;> cases hp
    | terminal => rcases hpass with hp | hp <;> cases hp
  · apply confine_onMisc hT htype htyped hpass
  · apply confine_ite
    intro _
    apply (Emits.refl c).emit (by rfl)
  · unfold onVoiceCallRequest
    split_ifs
    · apply (Emits.refl c).withBook.emit (by rfl)
    · unfold closeVoiceCall
      apply (((Emits.refl c).emit (by rfl)).emit (by rfl)).withBook.subscribeCallAudio
  · apply ((Emits.refl c).emit (by rfl)).emit (by rfl)
  · unfold handlePortForwardChannel
    apply confine_ite
    intro _
    cases T with
    | remote => exact absurd rfl hT
    | portForward => apply (Emits.refl c).emit (by rfl)
    | fileTransfer => rcases hpass with hp | hp <;> cases hp
    | viewCamera => rcases hpass with hp | hp <;> cases hp
    | terminal => rcases hpass with hp | hp <;> cases hp
  · apply confine_ite
    intro _
    cases T with
    | remote => exact absurd rfl hT
    | terminal =>
        unfold handleTerminalAction
        split
        · apply Emits.refl
        · dsimp only
          split_ifs
          · apply ((Emits.refl c).emit (by rfl)).emit (by rfl)
          · apply (Emits.refl c).emit (by rfl)
    | fileTransfer => rcases hpass with hp | hp <;> cases hp
    | portForward => rcases hpass with hp | hp <;> cases hp
    | viewCamera => rcases hpass with hp | hp <;> cases hp
  · apply Emits.refl

/-- The messages that pass the filter of a session without being housekeeping are no login
messages. -/
theorem confine_dispatch {msg : Message} (hT : T ≠ .remote) (hout : c.out = [])
    (htype : c.authedConnType = some T) (htyped : c.Typed)
    (hclose : isCloseReason msg = false) (hlogin : isLoginRequest msg = false)
    (hscope : c.authorizedScopeViolation h msg = none) :
  ∀ x ∈ (c.dispatch h e msg).1.out, Confine T x
  := by
  have hpass (hkeep : isConnectionHousekeepingMessage msg = false) : Passes h T msg := by
    unfold authorizedScopeViolation at hscope
    rw [htype] at hscope
    rcases authorizedMessageScopeViolation_eq_none hscope with hk | hp
    · exact absurd (hkeep.symm.trans hk) Bool.noConfusion
    · exact hp
  unfold dispatch
  split
  · cases hlogin
  · have hpass := hpass rfl
    cases hpass.viewCamera hT
    rcases hpass with hp | hp <;> cases hp
  · unfold onTestDelay
    split_ifs
    · simp [emit, hout, Confine, Effect.confined]
    · simp [hout]
  · have hpass := hpass rfl
    cases hpass.viewCamera hT
    rcases hpass with hp | hp <;> cases hp
  · rename_i hprobe _
    split_ifs
    · have hkeep : isConnectionHousekeepingMessage msg = false := by
        unfold isConnectionHousekeepingMessage
        split
        · cases hlogin
        · exact absurd rfl (hprobe _)
        · cases hclose
        · rfl
      apply (confine_onAuthorizedMessage hT htype htyped (hpass hkeep)).forall_mem hout
    · simp [hout]

/-- A message handled by a session has the effects of the session only. -/
theorem confine_onMessage (msg : Message) (hT : T ≠ .remote) (hout : c.out = [])
    (hauth : c.auth.authorized = true) (htype : c.authedConnType = some T) (htyped : c.Typed) :
  ∀ x ∈ (c.onMessage h e msg).1.out, Confine T x
  := by
  rw [onMessage]
  split
  · apply (confine_onClose true).forall_mem hout
  · rename_i hclose
    rw [Bool.not_eq_true] at hclose
    rw [hauth, Bool.true_and]
    split
    · simp [hout]
    · rename_i hlogin
      rw [Bool.not_eq_true] at hlogin
      split
      · apply (confine_handleAuthorizedScopeViolation _).forall_mem hout
      · rename_i hscope
        apply confine_dispatch hT hout htype htyped hclose hlogin hscope

end Messages

end Conn

/-! ### Runs -/

section Confinement

variable {h : Host} {s s' s₀ : Loop} {e : Env}

/-- The type of a session is kept by every turn of the loop. -/
theorem authedConnType_of_step {i : Env × Event} (hauth : s.conn.auth.authorized = true)
    (hstep : Loop.Step h s i s') :
  s'.conn.authedConnType = s.conn.authedConnType
  := by
  obtain ⟨e, ev⟩ := i
  obtain ⟨-, -, rfl⟩ := hstep
  cases hev : ev.isLogin with
  | false => apply authedConnType_next hev
  | true =>
      apply (Conn.sessionKept_loginEvent (h := h) (e := e) (c := s.conn.clear) hauth hev).authedConnId

/-- A session that is no remote one handles a message of the peer with the effects of its type
only, and stays of its type. -/
theorem session_confined {hist : History} {T : AuthConnType} {msg : Message}
    (hstart : s₀.IsStart h) (hrun : Run (Loop.Step h) s₀ hist s)
    (hauth : s.conn.auth.authorized = true) (htype : s.conn.authedConnType = some T)
    (hT : T ≠ .remote) (hstep : Loop.Step h s (e, .message msg) s') :
  s'.conn.authedConnType = some T ∧ ∀ x ∈ s'.conn.out, x.confined T = true
  := by
  apply And.intro ((authedConnType_of_step hauth hstep).trans htype)
  obtain ⟨hrunning, -, rfl⟩ := hstep
  have htyped : s.conn.clear.Typed := (sound_of_run hstart hrun).typed hrunning hauth
  obtain ⟨hfst, -⟩ := s.conn.clear.onEvent_message h e msg
  change ∀ x ∈ (s.conn.clear.onEvent h e (.message msg)).1.out, x.confined T = true
  rw [hfst]
  apply Conn.confine_onMessage (c := s.conn.clear) msg hT rfl hauth htype htyped

end Confinement

/-! ### A run of a camera session -/

/-- A request for a camera session. -/
def cameraRequest : Event := .message (some (.loginRequest { union := some .viewCamera }))

/-- The peer asks for a camera session and waits for a click. -/
def cameraWaiting : Loop := (Loop.sample linuxHost {}).next linuxHost {} cameraRequest

/-- The click authorizes the camera session. -/
def cameraSession : Loop := cameraWaiting.next linuxHost {} (.cm .authorize)

/-- The history of `cameraSession`. -/
def cameraLogin : History :=
  [(Loop.sample linuxHost {}, ({} : Env), cameraRequest)]
    ++ [(cameraWaiting, ({} : Env), .cm .authorize)]

/-- A camera session that asks for the privacy mode stays in its scope. -/
theorem session_confined_cameraSession :
  (cameraSession.next linuxHost {}
      (.message (some (.misc (some (.togglePrivacyMode "" true)))))).conn.authedConnType
    = some .viewCamera
  ∧ ∀ x ∈ (cameraSession.next linuxHost {}
      (.message (some (.misc (some (.togglePrivacyMode "" true)))))).conn.out,
    x.confined .viewCamera = true
  := by
  have hrequest : Run (Loop.Step linuxHost) (Loop.sample linuxHost {})
      [(Loop.sample linuxHost {}, ({} : Env), cameraRequest)] cameraWaiting := by
    refine Run.snoc .nil ⟨rfl, ?_, rfl⟩
    intro d hd
    cases hd
  have hlogin : Run (Loop.Step linuxHost) (Loop.sample linuxHost {}) cameraLogin cameraSession :=
    hrequest.snoc ⟨by decide, fun _ _ _ => by decide, rfl⟩
  apply session_confined (Loop.isStart_sample rfl) hlogin (by decide) (by decide) (by decide)
  refine ⟨by decide, ?_, rfl⟩
  intro d hd
  cases hd

end VynxDesk
