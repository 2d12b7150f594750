import VynxDesk.Connection.Subscription

/-!
# Subscriptions follow permissions

Each of the clipboard, file clipboard, audio, cursor and cursor position services has a predicate
of the permissions and options (`wants`).  `Follows` says that a connection is subscribed to
those services exactly whose predicate holds.  It holds after every event of a remote session
exactly when it holds at first and no event changes a predicate without looking at its service
again (`StepFollows`).
-/

namespace VynxDesk

/-- The services whose subscription follows the permissions. -/
def Service.followsPermissions : Service → Bool
  | .clipboard | .fileClipboard | .audio | .cursor | .cursorPos => true
  | .windowFocus | .display | .printer => false

namespace Conn

/-- The predicate of a service. -/
def wants (e : Env) (c : Conn) : Service → Bool
  | .clipboard => c.canSubClipboardService e
  | .fileClipboard => c.canSubFileClipboardService e
  | .audio => c.audioEnabled
  | .cursor => c.peerKeyboardEnabled || c.opts.showRemoteCursor
  | .cursorPos => c.opts.showRemoteCursor
  | .windowFocus | .display | .printer => false

/-- The connection is subscribed to a service exactly if its predicate holds, but for the
services in `stale`, whose predicate has changed since they were looked at. -/
def FollowsBut (h : Host) (e : Env) (stale : List Service) (c : Conn) : Prop :=
  ∀ s : Service, s.followsPermissions = true → h.hasService s = true → s ∉ stale →
    c.subs s = c.wants e s

/-- The connection is subscribed to a service exactly if its predicate holds. -/
def Follows (h : Host) (e : Env) (c : Conn) : Prop := FollowsBut h e [] c

/-- The connection is subscribed to no service whose predicate does not hold. -/
def SubsWithin (h : Host) (e : Env) (c : Conn) : Prop :=
  ∀ s : Service, s.followsPermissions = true → h.hasService s = true → c.subs s = true →
    c.wants e s = true

end Conn

/-- All services of the build are present. -/
def AllPresent (h : Host) (e : Env) : Prop :=
  ∀ s : Service, s.followsPermissions = true → h.hasService s = true → e.present h s = true

/-- An authorized remote connection. -/
structure RemoteSession (c : Conn) : Prop where
  authorized : c.auth.authorized = true
  type : c.authedConnType = some .remote
  remote : c.isRemote = true

namespace Conn

variable {h : Host} {e : Env} {c : Conn}

theorem wants_of_control {c' : Conn} (hctl : c'.control = c.control) (s : Service) :
  c'.wants e s = c.wants e s
  := by
  have hperm : c'.perm = c.perm := congrArg Control.perm hctl
  have hopts : c'.opts = c.opts := congrArg Control.opts hctl
  cases s <;> simp [wants, canSubClipboardService, canSubFileClipboardService, clipboardEnabled,
    fileTransferEnabled, audioEnabled, peerKeyboardEnabled, hperm, hopts]

theorem follows_of_control {c' : Conn} (hctl : c'.control = c.control) :
  Follows h e c' ↔ Follows h e c
  := by
  have hsubs : c'.subs = c.subs := congrArg Control.subs hctl
  simp only [Follows, FollowsBut, hsubs, wants_of_control hctl]

/-- The services `try_sub_monitor_services` leaves out are those whose predicate does not
hold. -/
theorem noperms_eq {s : Service} (hs : s.followsPermissions = true)
    (hserv : h.hasService s = true) :
  c.noperms h e s = !c.wants e s
  := by
  cases s with
  | fileClipboard =>
      have hfile : h.unixFileCopyPaste = true := hserv
      simp [noperms, wants, hfile]
  | cursor => simp [noperms, wants]
  | audio | clipboard | cursorPos => rfl
  | windowFocus | display | printer => cases hs

/-- The subscriptions of a remote session follow its permissions once it has subscribed to the
monitor services, unless it was subscribed to more before. -/
theorem follows_trySubMonitorServices (hp : AllPresent h e) (hremote : c.isRemote = true)
    (hsubed : c.servicesSubed = false) :
  Follows h e (c.trySubMonitorServices h e) ↔ SubsWithin h e c
  := by
  have halive : e.serverAlive = true := by
    have haudio := hp .audio rfl rfl
    simp only [Env.present, Bool.and_eq_true] at haudio
    exact haudio.1.1
  have hwants (s : Service) : (c.trySubMonitorServices h e).wants e s = c.wants e s := by
    simp only [trySubMonitorServices, hremote, hsubed, halive]
    cases s <;> rfl
  have hsubs (s : Service) (hs : s.followsPermissions = true) (hserv : h.hasService s = true) :
      (c.trySubMonitorServices h e).subs s = if c.wants e s then true else c.subs s := by
    have hno := noperms_eq (c := { c with servicesSubed := true }) (e := e) hs hserv
    have hw : { c with servicesSubed := true }.wants e s = c.wants e s := by
      cases s <;> rfl
    rw [hw] at hno
    have heq : c.trySubMonitorServices h e
        = ({ c with servicesSubed := true }.withBook fun b =>
            { b with autoDisconnect := e.allowAutoDisconnect }).addMonitorConnection h e
          ({ c with servicesSubed := true }.noperms h e) := by
      simp [trySubMonitorServices, hremote, hsubed, halive]
    rw [heq]
    change (if e.present h s && !{ c with servicesSubed := true }.noperms h e s then true
      else c.subs s) = _
    rw [hno, hp s hs hserv, Bool.not_not, Bool.true_and]
  constructor
  · intro hfollows s hs hserv hsub
    have heq := hfollows s hs hserv List.not_mem_nil
    rw [hsubs s hs hserv, hwants, hsub] at heq
    simpa using heq.symm
  · intro hwithin s hs hserv _
    rw [hsubs s hs hserv, hwants]
    cases hw : c.wants e s with
    | true => rfl
    | false =>
        cases hsub : c.subs s with
        | false => rfl
        | true => exact absurd ((hwithin s hs hserv hsub).symm.trans hw) Bool.noConfusion

/-! ### Stale services -/

section Stale

variable {stale : List Service}

theorem FollowsBut.mono {stale' : List Service} (hf : FollowsBut h e stale c)
    (hsub : ∀ s ∈ stale, s ∈ stale') :
  FollowsBut h e stale' c
  := by
  intro s hs hserv hstale
  apply hf s hs hserv
  intro hmem
  apply hstale (hsub s hmem)

/-- A connection whose stale service follows all the same follows. -/
theorem FollowsBut.follows_only {s : Service} (hf : FollowsBut h e [s] c)
    (hs : s.followsPermissions = true) :
  Follows h e c ↔ (h.hasService s = true → c.subs s = c.wants e s)
  := by
  constructor
  · intro hall hserv
    apply hall s hs hserv List.not_mem_nil
  · intro hone s' hs' hserv _
    by_cases heq : s' = s
    · rw [heq]
      apply hone
      rw [← heq]
      exact hserv
    · apply hf s' hs' hserv
      simpa using heq

/-- A change of options makes those services stale whose predicate it changes. -/
theorem Follows.withOpts {g : PeerOpts → PeerOpts} (hf : Follows h e c)
    (hwants : ∀ s, s ∉ stale → (c.withOpts g).wants e s = c.wants e s) :
  FollowsBut h e stale (c.withOpts g)
  := by
  intro s hs hserv hstale
  rw [hwants s hstale]
  apply hf s hs hserv List.not_mem_nil

/-- A change of permissions makes those services stale whose predicate it changes. -/
theorem Follows.withPerm {g : Perm → Perm} {p : Permission} {b : Bool} (hf : Follows h e c)
    (hwants : ∀ s, s ∉ stale → (c.withPerm g).wants e s = c.wants e s) :
  FollowsBut h e stale ((c.withPerm g).sendPermission p b)
  := by
  intro s hs hserv hstale
  have hsend : ((c.withPerm g).sendPermission p b).wants e s = (c.withPerm g).wants e s := by
    cases s <;> rfl
  rw [hsend, hwants s hstale]
  apply hf s hs hserv List.not_mem_nil

theorem wants_subscribe (s s' : Service) (b : Bool) :
  (c.subscribe h e s' b).wants e s = c.wants e s
  := by
  cases s <;> simp [wants, canSubClipboardService, canSubFileClipboardService, clipboardEnabled,
    fileTransferEnabled, audioEnabled, peerKeyboardEnabled]

/-- Looking at a stale service makes it follow. -/
theorem FollowsBut.subscribe {s : Service} {b : Bool} (hf : FollowsBut h e (s :: stale) c)
    (hp : AllPresent h e) (hb : b = c.wants e s) :
  FollowsBut h e stale (c.subscribe h e s b)
  := by
  intro s' hs hserv hstale
  rw [wants_subscribe]
  by_cases heq : s' = s
  · subst heq
    rw [subs_subscribe_self (hp s' hs hserv), hb]
  · rw [subs_subscribe_of_ne heq]
    apply hf s' hs hserv
    simp [heq, hstale]

/-- Subscribing to a stale service leaves the others. -/
theorem FollowsBut.subscribe_stale {s : Service} {b : Bool} (hf : FollowsBut h e [s] c) :
  FollowsBut h e [s] (c.subscribe h e s b)
  := by
  intro s' hs hserv hstale
  rw [wants_subscribe, subs_subscribe_of_ne (by simpa using hstale)]
  apply hf s' hs hserv hstale

/-- A service that the build does not have is never stale. -/
theorem FollowsBut.of_not_hasService {s : Service} (hf : FollowsBut h e (s :: stale) c)
    (hno : h.hasService s = false) :
  FollowsBut h e stale c
  := by
  intro s' hs hserv hstale
  apply hf s' hs hserv
  intro hmem
  rcases List.mem_cons.mp hmem with rfl | hmem
  · exact absurd (hno.symm.trans hserv) Bool.noConfusion
  · exact hstale hmem

/-- Looking at the stale file clipboard, on the builds that have it. -/
theorem FollowsBut.subscribeFileClipboard {c' : Conn} {b : Bool}
    (hf : FollowsBut h e (.fileClipboard :: stale) c') (hp : AllPresent h e)
    (hb : b = c'.canSubFileClipboardService e) :
  FollowsBut h e stale (if h.unixFileCopyPaste then c'.subscribe h e .fileClipboard b else c')
  := by
  split_ifs with hfile
  · apply hf.subscribe hp hb
  · apply hf.of_not_hasService
    change h.unixFileCopyPaste = false
    simpa using hfile

end Stale

/-! ### Options -/

section Options

variable {o : OptionMessage}

theorem follows_of_sameSubscriptions {c' : Conn}
    (hsame : SameSubscriptions c.control c'.control) :
  Follows h e c' ↔ Follows h e c
  := by
  have hsubs : c'.subs = c.subs := hsame.subs
  have hperm : c'.perm = c.perm := hsame.perm
  obtain ⟨lock, follow, cursor, hopts⟩ := hsame.opts
  have hopts : c'.opts = { c.opts with
    lockAfterSessionEnd := lock, followRemoteCursor := follow, showMyCursor := cursor } := hopts
  have hwants (s : Service) : c'.wants e s = c.wants e s := by
    cases s <;> simp [wants, canSubClipboardService, canSubFileClipboardService, clipboardEnabled,
      fileTransferEnabled, audioEnabled, peerKeyboardEnabled, hperm, hopts]
  simp only [Follows, FollowsBut, hsubs, hwants]

theorem follows_updateShowRemoteCursor (hp : AllPresent h e) (hf : Follows h e c) :
  Follows h e (c.updateShowRemoteCursor h e o)
  := by
  rw [updateShowRemoteCursor]
  split
  · split
    · rename_i v _
      have hstale : FollowsBut h e [.cursor, .cursorPos]
          (c.withOpts fun o => { o with showRemoteCursor := v }) := by
        apply hf.withOpts
        intro s hs
        cases s <;> first | rfl | simp at hs
      have hcursor := hstale.subscribe hp rfl
      apply hcursor.subscribe hp
      rw [wants_subscribe]
      rfl
    · exact hf
  · exact hf

theorem follows_updateFollowRemoteWindow (hf : Follows h e c) :
  Follows h e (c.updateFollowRemoteWindow h e o)
  := by
  rw [updateFollowRemoteWindow]
  split
  · rename_i v _
    intro s hs hserv hstale
    have hbefore := hf s hs hserv hstale
    rw [wants_subscribe, subs_subscribe_of_ne]
    · rw [show (c.withOpts fun o => { o with followRemoteWindow := v }).subs s = c.subs s from rfl,
        hbefore]
      cases s <;> rfl
    · rintro rfl
      cases hs
  · exact hf

theorem follows_updateDisableAudio (hp : AllPresent h e)
    (hremote : c.authedConnType = some .remote) (hf : Follows h e c) :
  Follows h e (c.updateDisableAudio h e o)
  := by
  rw [updateDisableAudio]
  split
  · rename_i v _
    have hstale : FollowsBut h e [.audio] (c.withOpts fun o => { o with disableAudio := v }) := by
      apply hf.withOpts
      intro s hs
      cases s <;> first | rfl | simp at hs
    have hcam : (c.withOpts fun o => { o with disableAudio := v }).isAuthedViewCameraConn
        = false := by
      change decide (c.authedConnType = some .viewCamera) = false
      rw [hremote]
      rfl
    rw [resubscribeAudio]
    rw [hcam, if_neg (by decide)]
    apply hstale.subscribe hp rfl
  · exact hf

theorem follows_updateEnableFileTransfer (hp : AllPresent h e) (hf : Follows h e c) :
  Follows h e (c.updateEnableFileTransfer h e o)
  := by
  rw [updateEnableFileTransfer]
  split
  · split
    · rename_i v _
      have hstale : FollowsBut h e [.fileClipboard]
          (c.withOpts fun o => { o with enableFileTransfer := v }) := by
        apply hf.withOpts
        intro s hs
        cases s <;> first | rfl | simp at hs
      dsimp only
      generalize (c.withOpts fun o => { o with enableFileTransfer := v }) = c₁ at hstale
      have hsend : FollowsBut h e [.fileClipboard] (if h.os = .windows then
          c₁.sendToCm (.clipboardFileEnabled c₁.fileTransferEnabled) else c₁) := by
        split_ifs
        · exact hstale
        · exact hstale
      generalize (if h.os = .windows then
        c₁.sendToCm (.clipboardFileEnabled c₁.fileTransferEnabled) else c₁) = c₂ at hsend
      have hempty : FollowsBut h e [.fileClipboard]
          (if v then c₂ else c₂.emit .emptyClipboardFiles) := by
        split_ifs
        · exact hsend
        · exact hsend
      split
      · apply hempty.subscribe hp
        cases v <;> rfl
      · rename_i hfile
        apply hsend.of_not_hasService
        change h.unixFileCopyPaste = false
        simpa using hfile
    · exact hf
  · exact hf

theorem followsBut_updateDisableClipboard (hp : AllPresent h e) (hf : Follows h e c) :
  FollowsBut h e [.fileClipboard] (c.updateDisableClipboard h e o)
  := by
  rw [updateDisableClipboard]
  split
  · rename_i v _
    have hstale : FollowsBut h e [.clipboard, .fileClipboard]
        (c.withOpts fun o => { o with disableClipboard := v }) := by
      apply hf.withOpts
      intro s hs
      cases s <;> first | rfl | simp at hs
    apply hstale.subscribe hp rfl
  · apply FollowsBut.mono hf
    simp

/-- Setting `disable_keyboard` looks at the file clipboard as well. -/
theorem follows_updateDisableKeyboard {v : Bool} (hp : AllPresent h e)
    (hf : FollowsBut h e [.fileClipboard] c) (hv : o.disableKeyboard.setting = some v) :
  Follows h e (c.updateDisableKeyboard h e o)
  := by
  have hstale : FollowsBut h e [.clipboard, .fileClipboard, .cursor]
      (c.withOpts fun o => { o with disableKeyboard := v }) := by
    intro s hs hserv hstale
    have hbefore := hf s hs hserv
    have hwants : (c.withOpts fun o => { o with disableKeyboard := v }).wants e s
        = c.wants e s := by
      cases s <;> first | rfl | simp at hstale
    rw [hwants]
    apply hbefore
    intro hmem
    apply hstale
    rw [List.mem_singleton.mp hmem]
    simp
  rw [updateDisableKeyboard]
  rw [hv]
  dsimp only
  have hclip := hstale.subscribe hp rfl
  generalize hc₂ : Conn.subscribe h e .clipboard _ _ = c₂ at hclip
  rw [show (c.withOpts fun o => { o with disableKeyboard := v }).subscribe h e .clipboard
    ((c.withOpts fun o => { o with disableKeyboard := v }).canSubClipboardService e) = c₂ from hc₂]
  have hfile := hclip.subscribeFileClipboard hp rfl
  apply hfile.subscribe hp rfl

/-- Changing `disable_clipboard` changes the predicate of the file clipboard, which is looked at
only if `disable_keyboard` is set as well. -/
def clipboardStale (h : Host) (e : Env) (o : OptionMessage) (c : Conn) : Bool :=
  h.unixFileCopyPaste && o.disableKeyboard.setting.isNone
    && o.disableClipboard.setting = some (!c.opts.disableClipboard)
    && c.perm.clipboard && c.fileTransferEnabled && !e.oneWayFileTransfer

theorem follows_updateDisableClipboardAndKeyboard (hp : AllPresent h e) (hf : Follows h e c) :
  Follows h e ((c.updateDisableClipboard h e o).updateDisableKeyboard h e o)
    ↔ clipboardStale h e o c = false
  := by
  have hbut := followsBut_updateDisableClipboard (o := o) hp hf
  cases hkey : o.disableKeyboard.setting with
  | some v =>
      have hfollows := follows_updateDisableKeyboard hp hbut hkey
      simp [hfollows, clipboardStale, hkey]
  | none =>
      have hsame : (c.updateDisableClipboard h e o).updateDisableKeyboard h e o
          = c.updateDisableClipboard h e o := by
        simp [updateDisableKeyboard, hkey]
      rw [hsame, hbut.follows_only rfl]
      cases hfile : h.unixFileCopyPaste with
      | false => simp [clipboardStale, hfile, Host.hasService]
      | true =>
          have hbefore := hf .fileClipboard rfl hfile List.not_mem_nil
          cases hclip : o.disableClipboard.setting with
          | none => simp [updateDisableClipboard, hclip, clipboardStale, hbefore]
          | some v =>
              simp only [updateDisableClipboard, hclip]
              rw [wants_subscribe, subs_subscribe_of_ne (by decide)]
              change (_ → c.subs .fileClipboard = _) ↔ _
              rw [hbefore]
              simp only [wants, canSubFileClipboardService, clipboardEnabled, fileTransferEnabled,
                withOpts, clipboardStale, hfile, hkey, hclip, Host.hasService]
              cases c.perm.clipboard <;> cases c.perm.file <;> cases c.opts.enableFileTransfer
                <;> cases e.oneWayFileTransfer <;> cases v <;> cases c.opts.disableClipboard
                <;> simp

/-- What the predicate of the file clipboard depends on is the same. -/
structure ClipboardKept (c c' : Conn) : Prop where
  perm : c'.perm = c.perm
  disableClipboard : c'.opts.disableClipboard = c.opts.disableClipboard
  enableFileTransfer : c'.opts.enableFileTransfer = c.opts.enableFileTransfer

theorem ClipboardKept.trans {c' c'' : Conn} (h₁ : ClipboardKept c c') (h₂ : ClipboardKept c' c'') :
  ClipboardKept c c''
  := ⟨h₂.1.trans h₁.1, h₂.2.trans h₁.2, h₂.3.trans h₁.3⟩

theorem ClipboardKept.of_control {c' : Conn} (hctl : c'.control = c.control) :
  ClipboardKept c c'
  := by
  have hopts : c'.opts = c.opts := congrArg Control.opts hctl
  constructor
  · apply congrArg Control.perm hctl
  · rw [hopts]
  · rw [hopts]

theorem ClipboardKept.of_sameSubscriptions {c' : Conn}
    (hsame : SameSubscriptions c.control c'.control) :
  ClipboardKept c c'
  := by
  obtain ⟨lock, follow, cursor, hopts⟩ := hsame.opts
  have hopts : c'.opts = { c.opts with
    lockAfterSessionEnd := lock, followRemoteCursor := follow, showMyCursor := cursor } := hopts
  constructor
  · apply hsame.perm
  · rw [hopts]
  · rw [hopts]

theorem clipboardKept_updateShowRemoteCursor :
  ClipboardKept c (c.updateShowRemoteCursor h e o)
  := by
  rw [updateShowRemoteCursor]
  split
  · split
    · constructor <;> simp [withOpts]
    · exact ⟨rfl, rfl, rfl⟩
  · exact ⟨rfl, rfl, rfl⟩

theorem clipboardKept_updateFollowRemoteWindow :
  ClipboardKept c (c.updateFollowRemoteWindow h e o)
  := by
  rw [updateFollowRemoteWindow]
  split
  · constructor <;> simp [withOpts]
  · exact ⟨rfl, rfl, rfl⟩

theorem clipboardKept_updateDisableAudio :
  ClipboardKept c (c.updateDisableAudio h e o)
  := by
  rw [updateDisableAudio]
  split
  · rw [resubscribeAudio]
    split_ifs
    · constructor <;> simp [withOpts]
    · exact ⟨rfl, rfl, rfl⟩
    · constructor <;> simp [withOpts]
  · exact ⟨rfl, rfl, rfl⟩

/-- The builds with a file clipboard apply `enable_file_transfer`. -/
theorem opts_updateEnableFileTransfer (hfile : h.unixFileCopyPaste = true) :
  (c.updateEnableFileTransfer h e o).perm = c.perm
    ∧ (c.updateEnableFileTransfer h e o).opts.disableClipboard = c.opts.disableClipboard
    ∧ (c.updateEnableFileTransfer h e o).opts.enableFileTransfer
      = o.enableFileTransfer.setting.getD c.opts.enableFileTransfer
  := by
  rw [updateEnableFileTransfer]
  rw [hfile, Bool.or_true, if_pos rfl]
  cases hset : o.enableFileTransfer.setting with
  | none => exact ⟨rfl, rfl, rfl⟩
  | some v =>
      dsimp only
      simp only [if_true, perm_subscribe, opts_subscribe]
      split_ifs <;> exact ⟨rfl, rfl, rfl⟩

/-- Whether an option changes the predicate of the file clipboard without looking at the service
again: it changes `disable_clipboard`, does not set `disable_keyboard`, and the rest of the
predicate holds. -/
def optionStale (h : Host) (e : Env) (o : OptionMessage) (c : Conn) : Bool :=
  h.unixFileCopyPaste && o.disableKeyboard.setting.isNone
    && o.disableClipboard.setting = some (!c.opts.disableClipboard)
    && c.perm.clipboard
    && (c.perm.file && o.enableFileTransfer.setting.getD c.opts.enableFileTransfer)
    && !e.oneWayFileTransfer

theorem clipboardStale_updateEnableFileTransfer {c₁ : Conn} (hkept : ClipboardKept c c₁) :
  clipboardStale h e o (c₁.updateEnableFileTransfer h e o) = optionStale h e o c
  := by
  cases hfile : h.unixFileCopyPaste with
  | false => simp [clipboardStale, optionStale, hfile]
  | true =>
      obtain ⟨hperm, hclip, henable⟩ := c₁.opts_updateEnableFileTransfer (e := e) (o := o) hfile
      simp only [clipboardStale, optionStale, fileTransferEnabled, hperm, hclip, henable, hkept.perm,
        hkept.disableClipboard, hkept.enableFileTransfer]

/-- An option keeps the subscriptions of a remote session in step exactly if it leaves no stale
file clipboard. -/
theorem follows_updateOptions (hp : AllPresent h e) (hremote : c.authedConnType = some .remote)
    (hf : Follows h e c) :
  Follows h e (c.updateOptions h e o) ↔ optionStale h e o c = false
  := by
  unfold updateOptions
  dsimp only
  rw [follows_of_sameSubscriptions (sameSubscriptions_updateShowMyCursor _ _ _ o)]
  rw [follows_of_control (control_updateTerminalPersistence _ _ o)]
  rw [follows_of_control (control_updateBlockInput _ o)]
  rw [follows_of_control (control_updatePrivacyMode _ _ _ o)]
  generalize hc₁ : ((((c.emit (.updateOptions o)).updateImageQuality o).updateCustomFps o
    ).updateSupportedDecoding o) = c₁
  have hctl₁ : c₁.control = c.control := by
    rw [← hc₁]
    simp
  have hcore₁ : c₁.core = c.core := by
    rw [← hc₁]
    simp
  have hf₁ : Follows h e c₁ := (follows_of_control hctl₁).mpr hf
  have hf₂ := (follows_of_sameSubscriptions (c₁.sameSubscriptions_updateLockAfterSessionEnd o)).mpr hf₁
  have hf₃ := follows_updateShowRemoteCursor (o := o) hp hf₂
  have hf₄ := (follows_of_sameSubscriptions
    (sameSubscriptions_updateFollowRemoteCursor h _ o)).mpr hf₃
  have hf₅ := follows_updateFollowRemoteWindow (o := o) hf₄
  have hkept₅ := ((((ClipboardKept.of_control hctl₁).trans
    (.of_sameSubscriptions (c₁.sameSubscriptions_updateLockAfterSessionEnd o))).trans
    (clipboardKept_updateShowRemoteCursor (h := h) (e := e) (o := o))).trans
    (.of_sameSubscriptions (sameSubscriptions_updateFollowRemoteCursor h _ o))).trans
    (clipboardKept_updateFollowRemoteWindow (h := h) (e := e) (o := o))
  generalize hc₅ : updateFollowRemoteWindow h e o _ = c₅ at hf₅ hkept₅
  have hremote₅ : c₅.authedConnType = some .remote := by
    have hcore₅ : c₅.core = c.core := by
      rw [← hc₅]
      simpa using hcore₁
    rw [authedConnType, auth_eq_of_core hcore₅]
    exact hremote
  have hf₆ := follows_updateDisableAudio (o := o) hp hremote₅ hf₅
  have hkept₆ := hkept₅.trans (clipboardKept_updateDisableAudio (h := h) (e := e) (o := o))
  have hf₇ := follows_updateEnableFileTransfer (o := o) hp hf₆
  rw [← clipboardStale_updateEnableFileTransfer hkept₆]
  apply follows_updateDisableClipboardAndKeyboard hp hf₇

end Options

/-! ### Permissions -/

/-- Whether switching a permission leaves a subscription out of step: the keyboard subscribes to
the cursor without regard to `disable_keyboard`, and the clipboard does not look at the file
clipboard. -/
def switchStale (h : Host) (e : Env) (c : Conn) (name : String) (enabled : Bool) : Bool :=
  name = "keyboard" && enabled && h.hasService .cursor && c.opts.disableKeyboard
      && !c.opts.showRemoteCursor
    || name = "clipboard" && h.unixFileCopyPaste && enabled != c.perm.clipboard
      && !c.opts.disableClipboard && c.fileTransferEnabled && !e.oneWayFileTransfer

theorem follows_switchKeyboard {enabled : Bool} (hp : AllPresent h e) (hf : Follows h e c) :
  Follows h e (c.switchKeyboard h e enabled) ↔ switchStale h e c "keyboard" enabled = false
  := by
  have hstale : FollowsBut h e [.clipboard, .fileClipboard, .cursor]
      ((c.withPerm fun p => { p with keyboard := enabled }).sendPermission .keyboard enabled) := by
    apply hf.withPerm
    intro s hs
    cases s <;> first | rfl | simp at hs
  unfold switchKeyboard
  dsimp only
  generalize hc₁ : (c.withPerm fun p => { p with keyboard := enabled }).sendPermission .keyboard
    enabled = c₁ at hstale
  have hclip := hstale.subscribe hp rfl
  have hfile := hclip.subscribeFileClipboard hp rfl
  generalize hc₂ : Conn.subscribe h e .clipboard _ c₁ = c₂ at hclip hfile
  rw [show c₁.subscribe h e .clipboard (c₁.canSubClipboardService e) = c₂ from hc₂]
  have hsame : (if h.unixFileCopyPaste then
      c₂.subscribe h e .fileClipboard (c₂.canSubFileClipboardService e) else c₂).perm = c₂.perm
      ∧ (if h.unixFileCopyPaste then
      c₂.subscribe h e .fileClipboard (c₂.canSubFileClipboardService e) else c₂).opts = c₂.opts := by
    split_ifs
    · simp
    · exact ⟨rfl, rfl⟩
  generalize (if h.unixFileCopyPaste then
    c₂.subscribe h e .fileClipboard (c₂.canSubFileClipboardService e) else c₂) = c₃ at hfile hsame
  rw [(hfile.subscribe_stale).follows_only rfl]
  have hperm : c₃.perm.keyboard = enabled := by
    rw [hsame.1, ← hc₂, perm_subscribe, ← hc₁]
    rfl
  have hopts : c₃.opts = c.opts := by
    rw [hsame.2, ← hc₂, opts_subscribe, ← hc₁]
    rfl
  cases hserv : h.hasService .cursor with
  | false => simp [switchStale, hserv]
  | true =>
      rw [wants_subscribe, subs_subscribe_self (hp .cursor rfl hserv)]
      simp only [wants, peerKeyboardEnabled, hperm, hopts, switchStale, hserv]
      cases enabled <;> cases c.opts.disableKeyboard <;> cases c.opts.showRemoteCursor <;> simp

theorem follows_switchClipboard {enabled : Bool} (hp : AllPresent h e) (hf : Follows h e c) :
  Follows h e (c.switchClipboard h e enabled) ↔ switchStale h e c "clipboard" enabled = false
  := by
  have hstale : FollowsBut h e [.clipboard, .fileClipboard]
      ((c.withPerm fun p => { p with clipboard := enabled }).sendPermission .clipboard
        enabled) := by
    apply hf.withPerm
    intro s hs
    cases s <;> first | rfl | simp at hs
  unfold switchClipboard
  dsimp only
  have hclip := hstale.subscribe (b := canSubClipboardService e _) hp rfl
  rw [hclip.follows_only rfl, wants_subscribe, subs_subscribe_of_ne (by decide)]
  change (_ → c.subs .fileClipboard = _) ↔ _
  cases hfile : h.unixFileCopyPaste with
  | false => simp [switchStale, hfile, Host.hasService]
  | true =>
      rw [hf .fileClipboard rfl hfile List.not_mem_nil]
      simp only [wants, canSubFileClipboardService, clipboardEnabled, fileTransferEnabled,
        sendPermission, send, emit, withPerm, switchStale, hfile, Host.hasService]
      cases enabled <;> cases c.perm.clipboard <;> cases c.opts.disableClipboard
        <;> cases c.perm.file <;> cases c.opts.enableFileTransfer <;> cases e.oneWayFileTransfer
        <;> simp

theorem follows_switchAudio {enabled : Bool} (hp : AllPresent h e)
    (hremote : c.authedConnType = some .remote) (hauth : c.auth.authorized = true)
    (hf : Follows h e c) :
  Follows h e (c.switchAudio h e enabled)
  := by
  have hstale : FollowsBut h e [.audio]
      ((c.withPerm fun p => { p with audio := enabled }).sendPermission .audio enabled) := by
    apply hf.withPerm
    intro s hs
    cases s <;> first | rfl | simp at hs
  have hcam : ((c.withPerm fun p => { p with audio := enabled }).sendPermission .audio
      enabled).isAuthedViewCameraConn = false := by
    change decide (c.authedConnType = some .viewCamera) = false
    rw [hremote]
    rfl
  unfold switchAudio
  dsimp only
  rw [if_pos (by exact hauth), resubscribeAudio, hcam, if_neg (by decide)]
  apply hstale.subscribe hp rfl

theorem follows_switchFile {enabled : Bool} (hp : AllPresent h e) (hf : Follows h e c) :
  Follows h e (c.switchFile h e enabled)
  := by
  have hstale : FollowsBut h e [.fileClipboard]
      ((c.withPerm fun p => { p with file := enabled }).sendPermission .file enabled) := by
    apply hf.withPerm
    intro s hs
    cases s <;> first | rfl | simp at hs
  unfold switchFile
  dsimp only
  generalize (c.withPerm fun p => { p with file := enabled }).sendPermission .file enabled = c₁
    at hstale
  have hempty : FollowsBut h e [.fileClipboard]
      (if enabled then c₁ else c₁.emit .emptyClipboardFiles) := by
    split_ifs
    · exact hstale
    · exact hstale
  split
  · apply hempty.subscribe hp
    cases enabled <;> rfl
  · rename_i hfile
    apply hstale.of_not_hasService
    change h.unixFileCopyPaste = false
    simpa using hfile

/-- A permission keeps the subscriptions of a remote session in step exactly if it leaves none of
them stale. -/
theorem follows_switchPermission {name : String} {enabled : Bool} (hp : AllPresent h e)
    (hremote : c.authedConnType = some .remote) (hauth : c.auth.authorized = true)
    (hf : Follows h e c) :
  Follows h e (c.switchPermission h e name enabled) ↔ switchStale h e c name enabled = false
  := by
  have hset {g : Perm → Perm} {p : Permission} {b : Bool}
      (hg : ∀ s, (c.withPerm g).wants e s = c.wants e s) :
      Follows h e ((c.withPerm g).sendPermission p b) := hf.withPerm fun s _ => hg s
  by_cases hkey : name = "keyboard"
  · subst hkey
    apply follows_switchKeyboard hp hf
  by_cases hclip : name = "clipboard"
  · subst hclip
    rw [switchPermission, if_neg (by decide), if_pos rfl]
    apply follows_switchClipboard hp hf
  have hstale : switchStale h e c name enabled = false := by simp [switchStale, hkey, hclip]
  simp only [hstale, iff_true]
  rw [switchPermission]
  rw [if_neg hkey, if_neg hclip]
  split
  · apply follows_switchAudio hp hremote hauth hf
  split
  · apply follows_switchFile hp hf
  split
  · apply hset
    intro s
    cases s <;> rfl
  split
  · apply hset
    intro s
    cases s <;> rfl
  split
  · apply hset
    intro s
    cases s <;> rfl
  split
  · have hprivacy : ∀ s, (c.withPerm fun p => { p with privacyMode := enabled }).wants e s
        = c.wants e s := by
      intro s
      cases s <;> rfl
    rw [switchPrivacyMode]
    dsimp only
    split_ifs
    · intro s hs hserv hmem
      exact hset hprivacy (p := .privacyMode) (b := enabled) s hs hserv hmem
    · exact hf
    · apply hset hprivacy
  · exact hf

end Conn

/-! ### Runs of a remote session -/

/-- A turn of a remote session in which a permission is switched or an option is set, with all
services present and the one-way options as in `e₀`. -/
structure SubsStep (h : Host) (e₀ : Env) (c : Conn) (i : Env × Event) (c' : Conn) : Prop where
  kind : (∃ name enabled, i.2 = .cm (.switchPermission name enabled))
    ∨ ∃ o, i.2 = .message (some (.misc (some (.option o))))
  present : AllPresent h i.1
  oneWayClipboard : i.1.oneWayClipboard = e₀.oneWayClipboard
  oneWayFileTransfer : i.1.oneWayFileTransfer = e₀.oneWayFileTransfer
  next : c' = (c.onEvent h i.1 i.2).1

/-- The turn leaves no subscription stale. -/
def StepFollows (h : Host) (c : Conn) (i : Env × Event) : Prop :=
  (∀ name enabled, i.2 = .cm (.switchPermission name enabled) →
      Conn.switchStale h i.1 c name enabled = false)
    ∧ ∀ o, i.2 = .message (some (.misc (some (.option o)))) →
      Conn.optionStale h i.1 o c = false

section Following

variable {h : Host} {e₀ e : Env} {c c' : Conn} {ev : Event}

theorem wants_congr (hclip : e.oneWayClipboard = e₀.oneWayClipboard)
    (hfile : e.oneWayFileTransfer = e₀.oneWayFileTransfer) (s : Service) :
  c.wants e s = c.wants e₀ s
  := by
  cases s <;> simp [Conn.wants, Conn.canSubClipboardService, Conn.canSubFileClipboardService, hclip,
    hfile]

theorem follows_congr (hclip : e.oneWayClipboard = e₀.oneWayClipboard)
    (hfile : e.oneWayFileTransfer = e₀.oneWayFileTransfer) :
  Conn.Follows h e c ↔ Conn.Follows h e₀ c
  := by
  simp only [Conn.Follows, Conn.FollowsBut, wants_congr hclip hfile]

/-- An option message of a remote session is applied. -/
theorem onEvent_option (hc : RemoteSession c) (o : OptionMessage) :
  (c.onEvent h e (.message (some (.misc (some (.option o)))))).1 = c.updateOptions h e o
  := by
  have hsocket : c.portForwardSocket = false := by
    have hremote := hc.remote
    simp only [Conn.isRemote, Conn.isPortForward, Bool.and_eq_true, Bool.not_eq_true',
      Bool.or_eq_false_iff] at hremote
    exact hremote.1.1.2.1
  rw [(c.onEvent_message h e _).1]
  have hscope : c.authorizedScopeViolation h (some (.misc (some (.option o)))) = none := by
    rw [Conn.authorizedScopeViolation, hc.type]
    simp [authorizedMessageScopeViolation, isConnectionHousekeepingMessage, noopCompat,
      isScopedMessage]
  simp [Conn.onMessage, Conn.isCloseReason, Conn.isLoginRequest, hc.authorized, hscope, Conn.dispatch, hsocket,
    Conn.onAuthorizedMessage, Conn.onMisc, Conn.onOption, hc.type]

theorem RemoteSession.of_core (hc : RemoteSession c) (hcore : c'.core = c.core) :
  RemoteSession c'
  := by
  constructor
  · rw [Conn.auth_eq_of_core hcore]
    apply hc.authorized
  · rw [Conn.authedConnType, Conn.auth_eq_of_core hcore]
    apply hc.type
  · rw [Conn.isRemote, Conn.auth_eq_of_core hcore, Conn.isPortForward_eq_of_core hcore]
    apply hc.remote

/-- The turns keep the session. -/
theorem RemoteSession.step (hc : RemoteSession c) (hstep : SubsStep h e₀ c (e, ev) c') :
  RemoteSession c'
  := by
  apply hc.of_core
  rw [hstep.next]
  rcases hstep.kind with ⟨name, enabled, hev⟩ | ⟨o, hev⟩
  · obtain rfl : ev = _ := hev
    apply c.core_switchPermission
  · obtain rfl : ev = _ := hev
    rw [onEvent_option hc o]
    apply c.core_updateOptions

/-- One turn keeps the subscriptions in step exactly if it leaves none of them stale. -/
theorem follows_step (hc : RemoteSession c) (hf : Conn.Follows h e₀ c)
    (hstep : SubsStep h e₀ c (e, ev) c') :
  Conn.Follows h e₀ c' ↔ StepFollows h c (e, ev)
  := by
  rw [← follows_congr hstep.oneWayClipboard hstep.oneWayFileTransfer] at hf ⊢
  rw [hstep.next]
  rcases hstep.kind with ⟨name, enabled, hev⟩ | ⟨o, hev⟩
  · obtain rfl : ev = _ := hev
    change Conn.Follows h e (c.switchPermission h e name enabled) ↔ _
    rw [Conn.follows_switchPermission hstep.present hc.type hc.authorized hf]
    simp [StepFollows]
  · obtain rfl : ev = _ := hev
    change Conn.Follows h e (c.onEvent h e _).1 ↔ _
    rw [onEvent_option hc o, Conn.follows_updateOptions hstep.present hc.type hf]
    simp [StepFollows]

/-- The subscriptions of a remote session follow its permissions all along a run exactly when the
session was subscribed to nothing it may not have when it subscribed to the monitor services,
and no turn of the run leaves a subscription stale. -/
theorem follows_iff {hist : List (Conn × Env × Event)} (hc : RemoteSession c)
    (hsubed : c.servicesSubed = false) (hpresent : AllPresent h e₀)
    (hrun : Run (SubsStep h e₀) (c.trySubMonitorServices h e₀) hist c') :
  ((∀ x ∈ hist, Conn.Follows h e₀ x.1) ∧ Conn.Follows h e₀ c')
    ↔ Conn.SubsWithin h e₀ c ∧ ∀ x ∈ hist, StepFollows h x.1 x.2
  := by
  have hstart := Conn.follows_trySubMonitorServices hpresent hc.remote hsubed
  have hc₀ : RemoteSession (c.trySubMonitorServices h e₀) :=
    hc.of_core (c.core_trySubMonitorServices h e₀)
  by_cases hwithin : Conn.SubsWithin h e₀ c
  · simp only [hwithin, true_and]
    apply Run.forall_iff (StepFollows h) (fun c => RemoteSession c ∧ Conn.Follows h e₀ c)
      (Conn.Follows h e₀) ⟨hc₀, hstart.mpr hwithin⟩ (fun _ hc => hc.2) _ _ hrun
    · rintro c ⟨e, ev⟩ c' ⟨hc, hf⟩ hsafe hstep
      exact ⟨hc.step hstep, (follows_step hc hf hstep).mpr hsafe⟩
    · rintro c ⟨e, ev⟩ c' ⟨hc, hf⟩ hstep hf'
      exact (follows_step hc hf hstep).mp hf'
  · simp only [hwithin, false_and, iff_false]
    intro hall
    apply hwithin
    apply hstart.mp
    apply hrun.start_of_forall (Conn.Follows h e₀) hall

end Following

/-! ### Runs with a file clipboard -/

/-- A Linux build with a file clipboard. -/
def fileClipboardHost : Host :=
  { linuxHost with unixFileCopyPaste := true, unix_os := fun _ => Or.inl rfl }

/-- A connection that has just been authorized for a remote session. -/
def remoteConn : Conn :=
  (Conn.new {} 1 "salt" "challenge").withAuth fun a =>
    { a with authorized := true, authedConnId := some .remote }

theorem remoteSession_remoteConn : RemoteSession remoteConn := ⟨rfl, rfl, rfl⟩

theorem allPresent_fileClipboardHost :
  AllPresent fileClipboardHost {}
  := by
  intro s hs _
  cases s with
  | clipboard | fileClipboard | audio | cursor | cursorPos => rfl
  | windowFocus | display | printer => cases hs

/-- The option that enables file transfer. -/
def enableFileTransferOption : Event :=
  .message (some (.misc (some (.option { enableFileTransfer := .known .yes }))))

/-- The session, subscribed to the monitor services. -/
def subscribedConn : Conn := remoteConn.trySubMonitorServices fileClipboardHost {}

/-- The session with file transfer enabled. -/
def fileTransferConn : Conn := (subscribedConn.onEvent fileClipboardHost {} enableFileTransferOption).1

/-- The history of `fileTransferConn`. -/
def fileTransferHistory : List (Conn × Env × Event) :=
  [(subscribedConn, {}, enableFileTransferOption)]

theorem run_fileTransfer :
  Run (SubsStep fileClipboardHost {}) subscribedConn fileTransferHistory fileTransferConn
  := by
  refine Run.snoc .nil ⟨?_, allPresent_fileClipboardHost, rfl, rfl, rfl⟩
  right
  exact ⟨_, rfl⟩

/-- Enabling file transfer keeps the subscriptions in step. -/
theorem follows_fileTransferConn :
  (∀ x ∈ fileTransferHistory, Conn.Follows fileClipboardHost {} x.1)
    ∧ Conn.Follows fileClipboardHost {} fileTransferConn
  := by
  apply (follows_iff remoteSession_remoteConn rfl allPresent_fileClipboardHost run_fileTransfer).mpr
  constructor
  · intro s _ _ hsub
    cases hsub
  · intro x hx
    rw [List.mem_singleton.mp hx]
    constructor
    · intro name enabled hev
      cases hev
    · intro o hev
      cases hev
      rfl

/-- The session after the clipboard permission was revoked. -/
def revokedConn : Conn :=
  (fileTransferConn.onEvent fileClipboardHost {} (.cm (.switchPermission "clipboard" false))).1

/-- Revoking the clipboard permission leaves the session subscribed to the file clipboard, whose
predicate no longer holds. -/
theorem fileClipboard_of_revokedConn :
  RemoteSession remoteConn ∧ AllPresent fileClipboardHost {}
    ∧ Conn.SubsWithin fileClipboardHost {} remoteConn
    ∧ Run (SubsStep fileClipboardHost {}) subscribedConn
      (fileTransferHistory ++ [(fileTransferConn, ({} : Env),
        .cm (.switchPermission "clipboard" false))]) revokedConn
    ∧ revokedConn.perm.clipboard = false ∧ revokedConn.canSubFileClipboardService {} = false
    ∧ revokedConn.subs .fileClipboard = true
    ∧ ¬ Conn.Follows fileClipboardHost {} revokedConn
  := by
  have hsub : revokedConn.subs .fileClipboard = true := by decide
  have hcan : revokedConn.canSubFileClipboardService {} = false := by decide
  refine ⟨remoteSession_remoteConn, allPresent_fileClipboardHost, ?_, ?_, by decide, hcan, hsub, ?_⟩
  · intro s _ _ hs
    cases hs
  · apply run_fileTransfer.snoc
    refine ⟨?_, allPresent_fileClipboardHost, rfl, rfl, rfl⟩
    left
    exact ⟨_, _, rfl⟩
  · intro hfollows
    have heq := hfollows .fileClipboard rfl rfl List.not_mem_nil
    rw [hsub] at heq
    exact absurd (heq.trans hcan) Bool.noConfusion

end VynxDesk
