import VynxDesk.Connection.Control

/-!
# The desktop services

The clipboard, the file clipboard, the cursor, its position and the focused window are services
of the desktop: `DesktopConfined` says that only an authorized remote session is subscribed to
them.  It holds all along a run exactly when no permission is switched on that subscribes to one
of them without asking whether the session is one (`SwitchSafe`).
-/

namespace VynxDesk

/-- The services of the desktop. -/
def Service.isDesktop : Service → Bool
  | .clipboard | .fileClipboard | .cursor | .cursorPos | .windowFocus => true
  | .audio | .display | .printer => false

/-- A control without a trace of a remote session: no desktop service is subscribed to, and no
option a remote session sets is set. -/
structure Control.Idle (k : Control) : Prop where
  subs : ∀ s, s.isDesktop = true → k.subs s = false
  followRemoteWindow : k.opts.followRemoteWindow = false
  showRemoteCursor : k.opts.showRemoteCursor = false
  disableKeyboard : k.opts.disableKeyboard = false
  disableClipboard : k.opts.disableClipboard = false
  enableFileTransfer : k.opts.enableFileTransfer = false

theorem Control.Idle.subscribe {h : Host} {e : Env} {k : Control} {s : Service} {b : Bool}
    (hk : k.Idle) (hb : s.isDesktop = true → (e.present h s && b) = false) :
  (k.subscribe h e s b).Idle
  := by
  rw [Control.subscribe]
  split
  · rename_i hpresent
    refine ⟨?_, hk.2, hk.3, hk.4, hk.5, hk.6⟩
    intro s' hs'
    by_cases heq : s' = s
    · subst heq
      have hfalse := hb hs'
      rw [hpresent, Bool.true_and] at hfalse
      simp [hfalse]
    · simp only [Function.update_of_ne heq]
      apply hk.subs s' hs'
  · exact hk

namespace Conn

variable {h : Host} {e : Env} {c : Conn}

@[simp]
theorem perm_subscribe (s : Service) (b : Bool) :
  (c.subscribe h e s b).perm = c.perm
  := by
  rw [subscribe]
  split_ifs <;> rfl

@[simp]
theorem opts_subscribe (s : Service) (b : Bool) :
  (c.subscribe h e s b).opts = c.opts
  := by
  rw [subscribe]
  split_ifs <;> rfl

/-! ### Options of the other sessions -/

/-- The option sets nothing of a remote session. -/
structure ScopedOption (o : OptionMessage) : Prop where
  showRemoteCursor : o.showRemoteCursor.setting = none
  followRemoteWindow : o.followRemoteWindow.setting = none
  enableFileTransfer : o.enableFileTransfer.setting = none
  disableClipboard : o.disableClipboard.setting = none
  disableKeyboard : o.disableKeyboard.setting = none
  privacyMode : o.privacyMode.setting = none
  blockInput : o.blockInput.setting = none
  showMyCursor : o.showMyCursor.setting = none

theorem scopedOption_viewCameraPart (o : OptionMessage) :
  ScopedOption o.viewCameraPart
  := ⟨rfl, rfl, rfl, rfl, rfl, rfl, rfl, rfl⟩

theorem scopedOption_terminalPart (o : OptionMessage) :
  ScopedOption o.terminalPart
  := by
  rw [OptionMessage.terminalPart]
  split <;> exact ⟨rfl, rfl, rfl, rfl, rfl, rfl, rfl, rfl⟩

theorem scopedOption_scopedViewCamera {o o' : OptionMessage}
    (ho : o.scopedViewCamera.1 = some o') :
  ScopedOption o'
  := by
  rw [OptionMessage.scopedViewCamera] at ho
  dsimp only at ho
  split at ho
  · cases ho
    apply scopedOption_viewCameraPart
  · cases ho

theorem scopedOption_scopedTerminalLogin {o o' : OptionMessage}
    (ho : o.scopedTerminalLogin.1 = some o') :
  ScopedOption o'
  := by
  rw [OptionMessage.scopedTerminalLogin] at ho
  dsimp only at ho
  split at ho
  · cases ho
    apply scopedOption_terminalPart
  · cases ho

theorem scopedOption_scopedUpdateOptionMessage {o o' : OptionMessage}
    (ho : c.scopedUpdateOptionMessage o = some o') :
  ScopedOption o'
  := by
  rw [scopedUpdateOptionMessage] at ho
  split at ho
  · apply scopedOption_scopedViewCamera ho
  · apply scopedOption_scopedTerminalLogin ho
  all_goals cases ho

theorem idle_resubscribeAudio (hk : c.control.Idle) :
  (c.resubscribeAudio h e).control.Idle
  := by
  have hsub (b : Bool) : (c.subscribe h e .audio b).control.Idle := by
    rw [control_subscribe]
    apply hk.subscribe
    intro hf
    cases hf
  rw [resubscribeAudio]
  split_ifs
  · apply hsub
  · exact hk
  · apply hsub

theorem Control.Idle.of_sameSubscriptions {k k' : Control} (hk : k.Idle)
    (hsame : SameSubscriptions k k') :
  k'.Idle
  := by
  obtain ⟨lock, follow, cursor, hopts⟩ := hsame.opts
  constructor
  · rw [hsame.subs]
    apply hk.subs
  · rw [hopts]
    apply hk.followRemoteWindow
  · rw [hopts]
    apply hk.showRemoteCursor
  · rw [hopts]
    apply hk.disableKeyboard
  · rw [hopts]
    apply hk.disableClipboard
  · rw [hopts]
    apply hk.enableFileTransfer

/-- A change of options of another session leaves a control without a trace of a remote one. -/
theorem idle_updateOptions {o : OptionMessage} (ho : ScopedOption o) (hk : c.control.Idle) :
  (c.updateOptions h e o).control.Idle
  := by
  have hcursor (c : Conn) : c.updateShowRemoteCursor h e o = c := by
    simp [updateShowRemoteCursor, ho.showRemoteCursor]
  have hwindow (c : Conn) : c.updateFollowRemoteWindow h e o = c := by
    simp [updateFollowRemoteWindow, ho.followRemoteWindow]
  have hfile (c : Conn) : c.updateEnableFileTransfer h e o = c := by
    simp [updateEnableFileTransfer, ho.enableFileTransfer]
  have hclipboard (c : Conn) : c.updateDisableClipboard h e o = c := by
    simp [updateDisableClipboard, ho.disableClipboard]
  have hkeyboard (c : Conn) : c.updateDisableKeyboard h e o = c := by
    simp [updateDisableKeyboard, ho.disableKeyboard]
  have haudio {c : Conn} (hk : c.control.Idle) : (c.updateDisableAudio h e o).control.Idle := by
    rw [updateDisableAudio]
    split
    · apply idle_resubscribeAudio
      exact ⟨hk.1, hk.2, hk.3, hk.4, hk.5, hk.6⟩
    · exact hk
  simp only [updateOptions, hcursor, hwindow, hfile, hclipboard, hkeyboard]
  apply Control.Idle.of_sameSubscriptions _ (sameSubscriptions_updateShowMyCursor _ _ _ o)
  simp only [control_updateTerminalPersistence, control_updateBlockInput,
    control_updatePrivacyMode]
  apply haudio
  apply Control.Idle.of_sameSubscriptions _ (sameSubscriptions_updateFollowRemoteCursor _ _ o)
  apply Control.Idle.of_sameSubscriptions _ (sameSubscriptions_updateLockAfterSessionEnd _ o)
  simpa using hk

/-! ### Switching permissions -/

/-- Switching the permission on subscribes to a desktop service, on a connection without a trace
of a remote session. -/
def grantsDesktop (h : Host) (e : Env) (c : Conn) (name : String) (enabled : Bool) : Bool :=
  enabled && (name = "keyboard" && (e.present h .cursor
      || e.present h .clipboard && c.perm.clipboard && !e.oneWayClipboard)
    || name = "clipboard" && e.present h .clipboard && c.perm.keyboard && !e.oneWayClipboard)

section Switch

/-- Subscribing to a service that is not there, or to none, leaves no trace. -/
theorem idle_subscribe {s : Service} {b : Bool} (hk : c.control.Idle)
    (hb : (e.present h s && b) = false) :
  (c.subscribe h e s b).control.Idle
  := by
  rw [control_subscribe]
  apply hk.subscribe
  intro _
  exact hb

theorem idle_withPerm {g : Perm → Perm} {p : Permission} {b : Bool} (hk : c.control.Idle) :
  ((c.withPerm g).sendPermission p b).control.Idle
  := ⟨hk.1, hk.2, hk.3, hk.4, hk.5, hk.6⟩

/-- Without file transfer there is no file clipboard. -/
theorem canSubFileClipboardService_of_idle (hk : c.control.Idle) :
  c.canSubFileClipboardService e = false
  := by
  simp [canSubFileClipboardService, fileTransferEnabled,
    show c.opts.enableFileTransfer = false from hk.enableFileTransfer]

/-- Without the options of a remote session the clipboard needs both permissions. -/
theorem canSubClipboardService_of_idle (hk : c.control.Idle) :
  c.canSubClipboardService e = (c.perm.clipboard && c.perm.keyboard && !e.oneWayClipboard)
  := by
  simp [canSubClipboardService, clipboardEnabled, peerKeyboardEnabled,
    show c.opts.disableClipboard = false from hk.disableClipboard,
    show c.opts.disableKeyboard = false from hk.disableKeyboard]

theorem idle_switchKeyboard {enabled : Bool} (hk : c.control.Idle)
    (hsafe : grantsDesktop h e c "keyboard" enabled = false) :
  (c.switchKeyboard h e enabled).control.Idle
  := by
  unfold switchKeyboard
  dsimp only
  generalize hc₁ : (c.withPerm fun p => { p with keyboard := enabled }).sendPermission .keyboard
    enabled = c₁
  have hk₁ : c₁.control.Idle := by
    rw [← hc₁]
    apply idle_withPerm hk
  have hclip : (e.present h .clipboard && c₁.canSubClipboardService e) = false := by
    rw [canSubClipboardService_of_idle hk₁, ← hc₁]
    revert hsafe
    simp only [grantsDesktop, withPerm, sendPermission, send, emit]
    cases enabled <;> cases e.present h .clipboard <;> simp
  have hk₂ := idle_subscribe hk₁ hclip
  generalize hc₂ : c₁.subscribe h e .clipboard (c₁.canSubClipboardService e) = c₂ at hk₂
  have hk₃ : (if h.unixFileCopyPaste then
      c₂.subscribe h e .fileClipboard (c₂.canSubFileClipboardService e) else c₂).control.Idle := by
    split_ifs
    · apply idle_subscribe hk₂
      rw [canSubFileClipboardService_of_idle hk₂, Bool.and_false]
    · exact hk₂
  generalize (if h.unixFileCopyPaste then
    c₂.subscribe h e .fileClipboard (c₂.canSubFileClipboardService e) else c₂) = c₃ at hk₃
  apply idle_subscribe hk₃
  rw [show c₃.opts.showRemoteCursor = false from hk₃.showRemoteCursor, Bool.or_false]
  revert hsafe
  simp only [grantsDesktop]
  cases enabled <;> cases e.present h .cursor <;> simp

theorem idle_switchClipboard {enabled : Bool} (hk : c.control.Idle)
    (hsafe : grantsDesktop h e c "clipboard" enabled = false) :
  (c.switchClipboard h e enabled).control.Idle
  := by
  unfold switchClipboard
  dsimp only
  have hk₁ : ((c.withPerm fun p => { p with clipboard := enabled }).sendPermission .clipboard
      enabled).control.Idle := idle_withPerm hk
  apply idle_subscribe hk₁
  rw [canSubClipboardService_of_idle hk₁]
  revert hsafe
  simp only [grantsDesktop, withPerm, sendPermission, send, emit]
  cases enabled <;> cases e.present h .clipboard <;> simp

theorem idle_switchFile {enabled : Bool} (hk : c.control.Idle) :
  (c.switchFile h e enabled).control.Idle
  := by
  have hset : ((c.withPerm fun p => { p with file := enabled }).sendPermission .file
      enabled).control.Idle := idle_withPerm hk
  unfold switchFile
  dsimp only
  split
  · have hemit : (if enabled then (c.withPerm fun p => { p with file := enabled }).sendPermission
        .file enabled else ((c.withPerm fun p => { p with file := enabled }).sendPermission
        .file enabled).emit .emptyClipboardFiles).control.Idle := by
      split_ifs
      · exact hset
      · exact hset
    apply idle_subscribe hemit
    rw [canSubFileClipboardService_of_idle hset, Bool.and_false]
  · exact hset

/-- A permission that grants no desktop service leaves no trace. -/
theorem idle_switchPermission {name : String} {enabled : Bool} (hk : c.control.Idle)
    (hsafe : grantsDesktop h e c name enabled = false) :
  (c.switchPermission h e name enabled).control.Idle
  := by
  apply switchPermission_cases h e c (fun c' => c'.control.Idle) name enabled
  · rintro rfl
    apply idle_switchKeyboard hk hsafe
  · rintro rfl
    apply idle_switchClipboard hk hsafe
  · unfold switchAudio
    dsimp only
    split_ifs
    · apply idle_resubscribeAudio
      apply idle_withPerm hk
    · apply idle_withPerm hk
  · apply idle_switchFile hk
  · apply idle_withPerm hk
  · apply idle_withPerm hk
  · apply idle_withPerm hk
  · unfold switchPrivacyMode
    dsimp only
    split_ifs
    · exact ⟨hk.1, hk.2, hk.3, hk.4, hk.5, hk.6⟩
    · exact ⟨hk.1, hk.2, hk.3, hk.4, hk.5, hk.6⟩
    · apply idle_withPerm hk
  · exact hk

theorem subs_subscribe_self {s : Service} {b : Bool} (hpresent : e.present h s = true) :
  (c.subscribe h e s b).subs s = b
  := by
  simp [subscribe, hpresent]

theorem subs_subscribe_of_ne {s s' : Service} {b : Bool} (hne : s ≠ s') :
  (c.subscribe h e s' b).subs s = c.subs s
  := by
  rw [subscribe]
  split_ifs
  · simp [Function.update_of_ne hne]
  · rfl

/-- Switching on a permission that grants a desktop service subscribes to it. -/
theorem subs_switchPermission {name : String} {enabled : Bool} (hk : c.control.Idle)
    (hgrants : grantsDesktop h e c name enabled = true) :
  (c.switchPermission h e name enabled).subs .cursor = true
    ∨ (c.switchPermission h e name enabled).subs .clipboard = true
  := by
  simp only [grantsDesktop, Bool.and_eq_true, Bool.or_eq_true, decide_eq_true_eq,
    Bool.not_eq_true'] at hgrants
  obtain ⟨rfl, ⟨rfl, hcursor | ⟨⟨hpresent, hclip⟩, hway⟩⟩ | ⟨⟨⟨rfl, hpresent⟩, hkey⟩, hway⟩⟩ := hgrants
  · left
    simp only [switchPermission, if_true, switchKeyboard, Bool.true_or]
    apply subs_subscribe_self hcursor
  · right
    simp only [switchPermission, if_true, switchKeyboard, Bool.true_or]
    rw [subs_subscribe_of_ne (by decide)]
    have hk₁ : ((c.withPerm fun p => { p with keyboard := true }).sendPermission .keyboard
        true).control.Idle := idle_withPerm hk
    split_ifs
    · rw [subs_subscribe_of_ne (by decide), subs_subscribe_self hpresent,
        canSubClipboardService_of_idle hk₁]
      simp [sendPermission, send, emit, withPerm, hclip, hway]
    · rw [subs_subscribe_self hpresent, canSubClipboardService_of_idle hk₁]
      simp [sendPermission, send, emit, withPerm, hclip, hway]
  · right
    have hk₁ : ((c.withPerm fun p => { p with clipboard := true }).sendPermission .clipboard
        true).control.Idle := idle_withPerm hk
    rw [switchPermission, if_neg (by decide), if_pos rfl, switchClipboard]
    rw [subs_subscribe_self hpresent, canSubClipboardService_of_idle hk₁]
    simp [sendPermission, send, emit, withPerm, hkey, hway]

end Switch

/-! ### Logging in -/

theorem Control.Idle.of_same {k k' : Control} (hk : k.Idle) (hsubs : k'.subs = k.subs)
    (hopts : k'.opts = k.opts) :
  k'.Idle
  := by
  constructor
  · rw [hsubs]
    apply hk.subs
  · rw [hopts]
    apply hk.followRemoteWindow
  · rw [hopts]
    apply hk.showRemoteCursor
  · rw [hopts]
    apply hk.disableKeyboard
  · rw [hopts]
    apply hk.disableClipboard
  · rw [hopts]
    apply hk.enableFileTransfer

/-- A session other than a remote one starts without a subscription. -/
theorem startSession_of_not_remote {b : Bool} (hpf : c.isPortForward = false)
    (hne : c.authConnTypeOnLogin ≠ .remote) :
  (c.startSession h e b).subs = c.subs ∧ (c.startSession h e b).opts = c.opts
  := by
  rw [startSession]
  split
  · dsimp only
    split_ifs <;> exact ⟨rfl, rfl⟩
  rename_i hft
  split
  · dsimp only
    split_ifs
    · rw [initTerminalService]
      split
      · exact ⟨rfl, rfl⟩
      · dsimp only
        split_ifs <;> exact ⟨rfl, rfl⟩
    · exact ⟨rfl, rfl⟩
  rename_i hterm
  split
  · have hcam := (c.quiet_trySubCameraDisplays e).2
    dsimp only
    split_ifs
    · exact ⟨rfl, rfl⟩
    · exact ⟨congrArg Control.subs hcam, congrArg Control.opts hcam⟩
  · rename_i hcam
    exfalso
    apply hne
    simp [authConnTypeOnLogin, hft, hpf, hcam, hterm]

/-- The options of the login of another session leave no trace of a remote one. -/
theorem idle_updateScopedLoginOptions {T : AuthConnType} (hk : c.control.Idle)
    (htype : c.authedConnType = some T) (hT : T ≠ .remote) :
  (c.updateScopedLoginOptions h e).control.Idle
  := by
  rw [updateScopedLoginOptions]
  split
  · exact hk
  · rename_i option _
    have htype' : (c.withBook fun b => { b with optionsInLogin := none }).authedConnType = some T :=
      htype
    dsimp only
    rw [htype']
    dsimp only
    split
    · rename_i o ho
      refine idle_updateOptions ?_ hk
      cases T with
      | remote => exact absurd rfl hT
      | viewCamera => apply scopedOption_scopedViewCamera ho
      | terminal => apply scopedOption_scopedTerminalLogin ho
      | fileTransfer => cases ho
      | portForward => cases ho
    · exact hk

/-- A login for another session than a remote one leaves no trace of a remote session. -/
theorem idle_sendLogonResponseAuthorized {T : AuthConnType} (hk : c.control.Idle)
    (htype : c.authedConnType = some T) (hscope : c.authConnTypeOnLogin = T) (hT : T ≠ .remote) :
  (c.sendLogonResponseAuthorized h e).control.Idle
  := by
  rw [sendLogonResponseAuthorized]
  split
  · exact hk
  rename_i hpf
  split
  · exact hk
  have hq := c.quiet_sendLogonResponse e
  dsimp only
  generalize (c.sendLogonResponse e).1 = c₁ at hq
  generalize (c.sendLogonResponse e).2 = subService
  have hk₁ : c₁.control.Idle := by
    rw [hq.2]
    exact hk
  have htype₁ : c₁.authedConnType = some T := by
    rw [← htype, authedConnType, authedConnType, auth_eq_of_core hq.1]
  have hk₂ := idle_updateScopedLoginOptions (h := h) (e := e) hk₁ htype₁ hT
  have hcore₂ : (c₁.updateScopedLoginOptions h e).core = c.core := by
    rw [core_updateScopedLoginOptions, hq.1]
  generalize c₁.updateScopedLoginOptions h e = c₂ at hk₂ hcore₂
  have hpf₂ : c₂.isPortForward = false := by
    rw [isPortForward_eq_of_core hcore₂]
    simpa using hpf
  have hne₂ : c₂.authConnTypeOnLogin ≠ .remote := by
    rw [authConnTypeOnLogin_of_core hcore₂, hscope]
    exact hT
  obtain ⟨hsubs, hopts⟩ := startSession_of_not_remote (h := h) (e := e) (b := subService) hpf₂ hne₂
  apply Control.Idle.of_same hk₂ hsubs hopts

end Conn

/-! ### Runs -/

/-- Only an authorized remote session is subscribed to the desktop services. -/
def DesktopConfined (s : Loop) : Prop :=
  ∀ service : Service, service.isDesktop = true → s.conn.subs service = true →
    s.conn.auth.authorized = true ∧ s.conn.authedConnType = some .remote

/-- No permission is switched on that grants a desktop service to a connection that is no
authorized remote session. -/
def SwitchSafe (h : Host) (s : Loop) (i : Env × Event) : Prop :=
  ∀ name enabled, i.2 = .cm (.switchPermission name enabled) →
    s.conn.authedConnType = some .remote
      ∨ Conn.grantsDesktop h i.1 s.conn name enabled = false

/-- What keeps the desktop services confined. -/
structure Confined (s : Loop) : Prop where
  sound : Sound s
  idle : s.conn.authedConnType ≠ some .remote → s.conn.control.Idle

section Confined

variable {h : Host} {s s₀ : Loop} {e : Env} {ev : Event}

theorem Confined.desktopConfined (hs : Confined s) :
  DesktopConfined s
  := by
  intro service hdesktop hsub
  have hremote : s.conn.authedConnType = some .remote := by
    by_contra hne
    have hidle := (hs.idle hne).subs service hdesktop
    exact absurd (hsub.symm.trans hidle) Bool.noConfusion
  apply And.intro _ hremote
  by_contra hun
  have hnone := hs.sound.idle (Bool.not_eq_true _ ▸ hun)
  exact absurd (hnone.symm.trans hremote) (by simp)

/-- A remote session that is not authorized for one has nothing to subscribe to. -/
theorem trySubMonitorServices_of_not_remote {c : Conn} (htyped : c.Typed)
    (hne : c.authedConnType ≠ some .remote) :
  c.trySubMonitorServices h e = c
  := by
  have hremote : c.isRemote = false := by
    by_contra hremote
    simp only [Conn.isRemote, Bool.not_eq_false, Bool.and_eq_true, Bool.not_eq_true',
      Option.isNone_iff_eq_none] at hremote
    apply hne
    rw [htyped]
    simp [Conn.authConnTypeOnLogin, hremote]
  simp [Conn.trySubMonitorServices, hremote]

/-- An event that is no login leaves no trace of a remote session on another one. -/
theorem Confined.idle_other (hs : Confined s) (hrunning : s.running = true)
    (hev : ev.isLogin = false) (hsafe : SwitchSafe h s (e, ev))
    (hne : s.conn.authedConnType ≠ some .remote) :
  (s.next h e ev).conn.control.Idle
  := by
  have hidle : s.conn.clear.control.Idle := hs.idle hne
  have hstep := s.conn.clear.controlStep_onEvent (h := h) (e := e) hev
  change Conn.ControlStep h e s.conn.clear ev (s.next h e ev).conn.control at hstep
  generalize (s.next h e ev).conn.control = k at hstep
  cases hstep with
  | same => exact hidle
  | windowFocus b hfollow =>
      exact absurd (hfollow.symm.trans hidle.followRemoteWindow) Bool.noConfusion
  | cameraAudio b _ =>
      apply hidle.subscribe
      intro hdesktop
      cases hdesktop
  | monitor hauth =>
      rw [trySubMonitorServices_of_not_remote (c := s.conn.clear)
        (hs.sound.typed hrunning hauth) hne]
      exact hidle
  | remoteOptions o _ hremote => exact absurd hremote hne
  | scopedOptions o o' hscoped =>
      apply Conn.idle_updateOptions _ hidle
      apply Conn.scopedOption_scopedUpdateOptionMessage hscoped
  | switchPermission name enabled hev =>
      apply Conn.idle_switchPermission hidle
      rcases hsafe name enabled hev with hremote | hgrants
      · exact absurd hremote hne
      · exact hgrants

/-- A login for another session than a remote one leaves no trace of a remote session. -/
theorem Confined.idle_login (hs : Confined s) (hev : ev.isLogin = true)
    (hne : (s.next h e ev).conn.authedConnType ≠ some .remote) :
  (s.next h e ev).conn.control.Idle
  := by
  cases hauth : s.conn.auth.authorized with
  | true =>
      have hkept := Conn.sessionKept_loginEvent (h := h) (e := e) (c := s.conn.clear) hauth hev
      have hctl : (s.next h e ev).conn.control = s.conn.control := hkept.control
      rw [hctl]
      apply hs.idle
      intro hremote
      apply hne
      exact hkept.authedConnId.trans hremote
  | false =>
      have hidle : s.conn.control.Idle := by
        apply hs.idle
        rw [Conn.authedConnType, hs.sound.idle hauth]
        simp
      rcases Conn.loginOutcome_onEvent (h := h) (e := e) (c := s.conn.clear) hauth hev with
        ⟨hq, -, -⟩ | ⟨-, -, -, hctl, -⟩ | ⟨lr, -, hwait⟩ | ⟨c₀, c₁, happ⟩
      · have hctl : (s.next h e ev).conn.control = s.conn.control := hq.2
        rw [hctl]
        exact hidle
      · have hctl : (s.next h e ev).conn.control = s.conn.control := hctl
        rw [hctl]
        exact hidle
      · have hctl : (s.next h e ev).conn.control = s.conn.control := hwait.control
        rw [hctl]
        exact hidle
      · have hctl : (s.next h e ev).conn.control
            = (c₁.setAuthorized.sendLogonResponseAuthorized h e).control := happ.quiet.2
        obtain ⟨sid, -, hcore⟩ := c₁.core_setAuthorized_sendLogonResponseAuthorized h e
        rw [hctl]
        have hidle₁ : c₁.setAuthorized.control.Idle := by
          change c₁.control.Idle
          rw [happ.admitted.control, happ.control]
          exact hidle
        apply Conn.idle_sendLogonResponseAuthorized hidle₁ rfl rfl
        intro hremote
        apply hne
        have hauth' : (s.next h e ev).conn.auth = _ :=
          (Conn.auth_eq_of_core happ.quiet.1).trans (congrArg Core.auth hcore)
        rw [Conn.authedConnType, hauth']
        exact congrArg some hremote

/-- The type of a session does not change by an event that is no login. -/
theorem authedConnType_next (hev : ev.isLogin = false) :
  (s.next h e ev).conn.authedConnType = s.conn.authedConnType
  := by
  have hauth : (s.next h e ev).conn.auth = s.conn.auth :=
    (s.conn.clear.keeps_onEvent h e hev).1
  rw [Conn.authedConnType, hauth]
  rfl

/-- A turn that grants no desktop service to another session keeps them confined. -/
theorem Confined.next (hs : Confined s) (hrunning : s.running = true)
    (hsafe : SwitchSafe h s (e, ev)) :
  Confined (s.next h e ev)
  := by
  apply Confined.mk (hs.sound.next hrunning)
  intro hne
  cases hev : ev.isLogin with
  | false =>
      rw [authedConnType_next hev] at hne
      apply hs.idle_other hrunning hev hsafe hne
  | true => apply hs.idle_login hev hne

/-- A turn after which the desktop services are confined has granted none to another
session. -/
theorem Confined.switchSafe (hs : Confined s) (hafter : DesktopConfined (s.next h e ev)) :
  SwitchSafe h s (e, ev)
  := by
  intro name enabled hev
  obtain rfl : ev = .cm (.switchPermission name enabled) := hev
  by_cases hremote : s.conn.authedConnType = some .remote
  · left
    exact hremote
  · right
    by_contra hgrants
    have hidle : s.conn.clear.control.Idle := hs.idle hremote
    apply hremote
    rw [← authedConnType_next (h := h) (e := e) (s := s)
      (show (Event.cm (.switchPermission name enabled)).isLogin = false from rfl)]
    rcases Conn.subs_switchPermission (h := h) (e := e) hidle (Bool.not_eq_false _ ▸ hgrants) with
      hsub | hsub
    · apply (hafter .cursor rfl hsub).2
    · apply (hafter .clipboard rfl hsub).2

theorem confined_of_isStart (hstart : s₀.IsStart h) :
  Confined s₀
  := by
  apply Confined.mk (sound_of_isStart hstart)
  intro _
  obtain ⟨e, id, salt, challenge, c, hopen, rfl⟩ := hstart
  change c.control.Idle
  rw [Conn.control_onOpen hopen]
  exact ⟨fun _ _ => rfl, rfl, rfl, rfl, rfl, rfl⟩

/-- The desktop services are confined to authorized remote sessions all along a run exactly when
no turn of the run switches on a permission that grants one to another session. -/
theorem desktopConfined_iff {hist : History} (hstart : s₀.IsStart h)
    (hrun : Run (Loop.Step h) s₀ hist s) :
  ((∀ x ∈ hist, DesktopConfined x.1) ∧ DesktopConfined s) ↔ ∀ x ∈ hist, SwitchSafe h x.1 x.2
  := by
  apply Run.forall_iff (SwitchSafe h) Confined DesktopConfined (confined_of_isStart hstart) _ _ _ hrun
  · intro s hs
    apply hs.desktopConfined
  · rintro s ⟨e, ev⟩ s' hs hsafe ⟨hrunning, -, rfl⟩
    apply hs.next hrunning hsafe
  · rintro s ⟨e, ev⟩ s' hs ⟨-, -, rfl⟩ hafter
    apply hs.switchSafe hafter

end Confined

/-! ### Runs of a peer that waits for a click -/

/-- The services stay confined while a peer waits for a click. -/
theorem desktopConfined_clickWaiting :
  (∀ x ∈ clickLogin, DesktopConfined x.1) ∧ DesktopConfined clickWaiting
  := by
  apply (desktopConfined_iff (Loop.isStart_sample rfl) run_clickLogin).mpr
  intro x hx name enabled hev
  rw [List.mem_singleton.mp hx] at hev
  cases hev

/-- The peer waits for a click, and the connection manager switches its keyboard on. -/
def keyboardSwitched : Loop :=
  clickWaiting.next linuxHost {} (.cm (.switchPermission "keyboard" true))

/-- The history of `keyboardSwitched`. -/
def keyboardSwitch : History :=
  clickLogin ++ [(clickWaiting, ({} : Env), .cm (.switchPermission "keyboard" true))]

/-- A peer that was never accepted gets the clipboard and the cursor. -/
theorem clipboard_of_keyboardSwitched :
  (Loop.sample linuxHost {}).IsStart linuxHost
    ∧ Run (Loop.Step linuxHost) (Loop.sample linuxHost {}) keyboardSwitch keyboardSwitched
    ∧ keyboardSwitched.conn.auth.authorized = false
    ∧ keyboardSwitched.conn.subs .clipboard = true ∧ keyboardSwitched.conn.subs .cursor = true
    ∧ ¬ DesktopConfined keyboardSwitched
  := by
  have hclip : keyboardSwitched.conn.subs .clipboard = true := by decide
  have hun : keyboardSwitched.conn.auth.authorized = false := by decide
  refine ⟨Loop.isStart_sample rfl, ?_, hun, hclip, by decide, ?_⟩
  · apply run_clickLogin.snoc
    refine ⟨by decide, ?_, rfl⟩
    intro d hd hauth
    cases hd
    cases hauth
  · intro hconfined
    exact absurd ((hconfined .clipboard rfl hclip).1.symm.trans hun) Bool.noConfusion

end VynxDesk
