import VynxDesk.Connection.Handover

/-!
# Runs of a legacy tunnel

`Ready` is what holds of the controlled side's loop while an honest controller logs in to a legacy
tunnel, and `Turned` tells what one safe turn of such a loop does.  `Links` is what holds of the
byte channels.  Together they are kept by every safe step of both ends, and they imply that the
hand-over is clean.
-/

namespace VynxDesk

/-! ### The loop of the controlled side -/

/-- What holds of the loop while an honest controller logs in: a login that waits is for a legacy
tunnel, and an authorized connection is one that waits for the answer to its delay probe. -/
structure Ready (l : Loop) : Prop where
  sound : Sound l
  opened : l.running = true → l.conn.closed = false
  legacy : l.running = true → l.conn.auth.authorized = false →
    l.cmStarted = true ∨ l.conn.auth.awaiting2fa = true →
      l.conn.auth.lr.legacy = true ∧ l.conn.auth.fileTransfer = none
  tunnel : l.running = true → l.conn.auth.authorized = true →
    l.conn.Tunnel ∧ l.conn.lastTestDelay = true

/-- What a safe turn of the loop does: it leaves the connection unauthorized, or it approves the
login, or it reads the answer to the delay probe of a tunnel, or it is silent. -/
inductive Turned (e : Env) (l : Loop) (ev : Event) (l' : Loop) : Prop where
  | waits (hun : l.conn.auth.authorized = false) (hstill : l'.conn.auth.authorized = false)
      (hnot : l'.handedOver = false) (hturn : Conn.Unopened l.conn ev (l'.conn, l'.running))
  | approves (hun : l.conn.auth.authorized = false) (ht : l'.conn.Tunnel)
      (hframed : l'.framed = [.peerInfo false])
      (hprobe : l'.conn.lastTestDelay = l.conn.lastTestDelay) (hlogin : ev.isLogin = true)
      (hends : ev = .cm .authorize → l.conn.AuthorizeEnds e)
      (hstop : l'.running = false → l.conn.lastTestDelay = false)
  | replies (ht : l.conn.Tunnel) (hev : ev = .message (some (.testDelay false)))
      (hprobe : l'.conn.lastTestDelay = false) (hauth : l'.conn.auth.authorized = true)
      (hframed : l'.framed = [])
  | silent (ht : l.conn.Tunnel) (hev : ev ≠ .message (some (.testDelay false)))
      (hprobe : l'.conn.lastTestDelay = true) (hauth : l'.conn.auth.authorized = true)
      (hnot : l'.handedOver = false) (hframed : l'.framed = [])

section Ready

variable {h : Host} {e : Env} {ev : Event} {l : Loop}

/-- A request for a legacy tunnel leaves no directory of a file transfer. -/
theorem requestedAuth_of_legacy {lr : LoginRequest} (hlr : lr.legacy = true) (a : Auth) :
  (Conn.requestedAuth h e lr a).lr = lr ∧ (Conn.requestedAuth h e lr a).fileTransfer = none
  := by
  rw [LoginRequest.legacy] at hlr
  split at hlr
  · rename_i pf hunion
    simp [Conn.requestedAuth, Conn.scopedAuth, hunion]
  · cases hlr

/-- The code of an `Auth2fa` that authorizes a connection was asked for, and accepted. -/
theorem auth2fa_accepted {c : Conn} {tfa : Auth2fa} (hun : c.auth.authorized = false)
    (hauth : (c.onEvent h e (.message (some (.auth2fa tfa)))).1.auth.authorized = true) :
  c.auth.awaiting2fa = true ∧ e.totpCheck tfa.code = some true
  := by
  obtain ⟨hconn, -⟩ := c.onEvent_loginMessage h e hun
    (show isLoginMessage (some (.auth2fa tfa)) = true from rfl)
  rcases c.onAuth2fa_cases h e tfa with ⟨hq, -⟩ | ⟨hawait, htotp, -⟩
  · have hkept : (c.dispatch h e (some (.auth2fa tfa))).1.auth = c.auth :=
      Conn.auth_eq_of_core hq.1
    rw [hconn, hkept, hun] at hauth
    cases hauth
  · apply And.intro hawait htotp

/-- Of a loop that has ended, only its soundness is left. -/
theorem Ready.of_stopped (hsound : Sound l) (hstop : l.running = false) :
  Ready l
  := by
  refine ⟨hsound, ?_, ?_, ?_⟩ <;>
  · intro hkeep
    exact absurd (hstop.symm.trans hkeep) Bool.noConfusion

/-- Closing a tunnel decides nothing. -/
theorem Ready.endTunnel (hr : Ready l) (hraw : l.handedOver = true) :
  Ready { l with conn := l.conn.clear.onClose h false }
  := by
  have hstop : l.running = false := by
    simp only [Loop.handedOver, Bool.and_eq_true, Bool.not_eq_true'] at hraw
    apply hraw.1
  refine Ready.of_stopped ⟨?_, ?_, ?_⟩ hstop
  · change (l.conn.clear.onClose h false).auth.authorized = false →
      (l.conn.clear.onClose h false).auth.authedConnId = none
    rw [Conn.auth_onClose]
    apply hr.sound.idle
  · intro hkeep
    exact absurd (hstop.symm.trans hkeep) Bool.noConfusion
  · intro hkeep
    exact absurd (hstop.symm.trans hkeep) Bool.noConfusion

/-- A login that waits after a turn is for a legacy tunnel. -/
theorem Ready.legacy_next (hr : Ready l) (hrunning : l.running = true)
    (hun : l.conn.auth.authorized = false)
    (hhonest : ∀ lr, ev = .message (some (.loginRequest lr)) → lr.legacy = true)
    (hkeep : (l.next h e ev).running = true)
    (hstill : (l.next h e ev).conn.auth.authorized = false)
    (hwait : (l.next h e ev).cmStarted = true ∨ (l.next h e ev).conn.auth.awaiting2fa = true) :
  (l.next h e ev).conn.auth.lr.legacy = true ∧ (l.next h e ev).conn.auth.fileTransfer = none
  := by
  have hsame (hauth : (l.next h e ev).conn.auth = l.conn.auth)
      (hcm : ∀ x ∈ (l.next h e ev).conn.out, Conn.NoLogin x) :
      (l.next h e ev).conn.auth.lr.legacy = true
        ∧ (l.next h e ev).conn.auth.fileTransfer = none := by
    have hstarted : (l.next h e ev).cmStarted = l.cmStarted := cmStarted_next_of_noLogin hcm
    rw [hstarted, hauth] at hwait
    rw [hauth]
    apply hr.legacy hrunning hun hwait
  cases hev : ev.isLogin with
  | false =>
      apply hsame
      · apply (l.conn.clear.keeps_onEvent h e hev).auth
      · apply l.conn.clear.noLogin_onEvent h e rfl hun hev
  | true =>
      rcases Conn.loginOutcome_onEvent (h := h) (e := e) (c := l.conn.clear) hun hev with
        ⟨hq, hplain, -⟩ | ⟨hend, -⟩ | ⟨lr, rfl, hw⟩ | ⟨c₀, c₁, happ⟩
      · apply hsame (Conn.auth_eq_of_core hq.1)
        intro x hx
        apply (hplain.forall_mem rfl x hx).noLogin
      · exact absurd (hend.symm.trans hkeep) Bool.noConfusion
      · obtain ⟨b, t, -, hcore⟩ := hw.core
        have hauth : (l.next h e (.message (some (.loginRequest lr)))).conn.auth = _ :=
          congrArg Core.auth hcore
        have hlr := hhonest lr rfl
        have hrequested := requestedAuth_of_legacy (h := h) (e := e) hlr l.conn.auth
        rw [hauth]
        constructor
        · apply (congrArg LoginRequest.legacy hrequested.1).trans hlr
        · apply hrequested.2
      · exact absurd (hstill.symm.trans happ.typed.1) Bool.noConfusion

/-! ### The turns of an authorized tunnel -/

/-- A tunnel leaves the loop when it reads the answer to its delay probe. -/
theorem Ready.turned_reply (hr : Ready l) (hrunning : l.running = true)
    (hauth : l.conn.auth.authorized = true) :
  Ready (l.next h e (.message (some (.testDelay false))))
    ∧ Turned e l (.message (some (.testDelay false)))
        (l.next h e (.message (some (.testDelay false))))
  := by
  obtain ⟨ht, -⟩ := hr.tunnel hrunning hauth
  have hclear : l.conn.clear.Tunnel := ht.of_core rfl
  have heq := hclear.onEvent_reply (h := h) (e := e)
  have hstop : (l.next h e (.message (some (.testDelay false)))).running = false :=
    congrArg Prod.snd heq
  have hconn : (l.next h e (.message (some (.testDelay false)))).conn
      = { l.conn.clear with lastTestDelay := false } := congrArg Prod.fst heq
  constructor
  · apply Ready.of_stopped (hr.sound.next hrunning) hstop
  · apply Turned.replies ht rfl
    · rw [hconn]
    · rw [hconn]
      apply hauth
    · rw [Loop.framed, hconn]
      rfl

/-- A tunnel that waits for the answer to its delay probe stays silent until it reads it. -/
theorem Ready.turned_silent (hr : Ready l) (hrunning : l.running = true)
    (hauth : l.conn.auth.authorized = true) (hread : ev.isRead = false)
    (hsilent : l.conn.portForwardSocket = true → ev.writes h e l.conn = false)
    (hauthorize : ev = .cm .authorize → l.conn.lastTestDelay = false) :
  Ready (l.next h e ev) ∧ Turned e l ev (l.next h e ev)
  := by
  obtain ⟨ht, hdelay⟩ := hr.tunnel hrunning hauth
  have hclear : l.conn.clear.Tunnel := ht.of_core rfl
  have hreply : ev ≠ .message (some (.testDelay false)) := by
    rintro rfl
    cases hread
  have hsilent : Conn.Silent l.conn.clear (l.conn.clear.onEvent h e ev) := by
    apply hclear.silent_onEvent hdelay (hsilent ht.socket) _ hreply
    intro hev
    exact absurd (hdelay.symm.trans (hauthorize hev)) Bool.noConfusion
  have hdelay' : (l.next h e ev).conn.lastTestDelay = true := hsilent.emits.2.trans hdelay
  constructor
  · refine ⟨hr.sound.next hrunning, ?_, ?_, ?_⟩
    · intro hkeep
      apply (hsilent.stays hkeep).opened
    · intro hkeep hun
      exact absurd (hun.symm.trans (hsilent.stays hkeep).authorized) Bool.noConfusion
    · intro hkeep _
      apply And.intro (hsilent.stays hkeep) hdelay'
  · apply Turned.silent ht hreply hdelay'
    · apply l.conn.clear.authorized_onEvent h e hauth
    · rw [Loop.handedOver]
      cases hkeep : (l.next h e ev).running with
      | true => rfl
      | false => apply hsilent.closes hkeep
    · apply hsilent.emits.framed

/-! ### The turns before the approval -/

/-- The login that an event of a waiting connection concludes is for a legacy tunnel. -/
theorem Ready.entered (hr : Ready l) (hrunning : l.running = true)
    (hun : l.conn.auth.authorized = false) (hlogin : ev.isLogin = true)
    (hauthorize : ev = .cm .authorize → l.cmStarted = true)
    (hhonest : ∀ msg, ev = .message msg → isHonest msg = true)
    (hauth : (l.next h e ev).conn.auth.authorized = true) :
  (Conn.enteredAuth h e ev l.conn.auth).lr.legacy = true
    ∧ (Conn.enteredAuth h e ev l.conn.auth).fileTransfer = none
  := by
  rcases Event.isLogin_cases hlogin with rfl | ⟨lr, rfl⟩ | ⟨tfa, rfl⟩ | ⟨sr, rfl⟩
  · apply hr.legacy hrunning hun
    left
    apply hauthorize rfl
  · have hlr : lr.legacy = true := hhonest _ rfl
    have hrequested := requestedAuth_of_legacy (h := h) (e := e) hlr l.conn.auth
    apply And.intro _ hrequested.2
    apply (congrArg LoginRequest.legacy hrequested.1).trans hlr
  · apply hr.legacy hrunning hun
    right
    apply (auth2fa_accepted (c := l.conn.clear) hun hauth).1
  · exact absurd (hhonest _ rfl) Bool.noConfusion

/-- A turn that approves the login opens the tunnel, and ends the loop only when no delay probe is
outstanding. -/
theorem Ready.turned_approved (hr : Ready l) (hrunning : l.running = true)
    (hun : l.conn.auth.authorized = false)
    (hauthorize : ev = .cm .authorize → l.cmStarted = true)
    (hhonest : ∀ msg, ev = .message msg → isHonest msg = true)
    (hsafe : ev = .cm .authorize → l.conn.AuthorizeEnds e → l.conn.lastTestDelay = false)
    (hauth : (l.next h e ev).conn.auth.authorized = true) :
  Ready (l.next h e ev) ∧ Turned e l ev (l.next h e ev)
  := by
  obtain ⟨hlogin, c₀, c₁, happ⟩ := Conn.approved_of_authorized (c := l.conn.clear) hun hauth
  obtain ⟨hlegacy, hfile⟩ := hr.entered hrunning hun hlogin hauthorize hhonest hauth
  obtain ⟨ht, hframed, hprobe, hreached⟩ := happ.tunnel hlegacy hfile (hr.sound.closed hrunning hun)
    (hr.opened hrunning) rfl
  have ht : (l.next h e ev).conn.Tunnel := ht
  have hprobe : (l.next h e ev).conn.lastTestDelay = l.conn.lastTestDelay := hprobe
  have hends (hev : ev = .cm .authorize) : l.conn.AuthorizeEnds e := by
    subst hev
    right
    apply hreached
  -- a message leaves the loop when no probe is outstanding, an `Authorize` in any case
  have hstop : (l.next h e ev).running = l.conn.lastTestDelay := by
    cases hev : ev with
    | message msg =>
        subst hev
        rw [← hprobe]
        apply ht.running_of_message (c := l.conn.clear) hun hlogin
    | cm d =>
        obtain rfl : d = .authorize := by
          rw [hev] at hlogin
          cases d with
          | authorize => rfl
          | _ => cases hlogin
        subst hev
        rw [hsafe rfl (hends rfl)]
        apply ht.running_of_authorize (c := l.conn.clear)
    | _ =>
        rw [hev] at hlogin
        cases hlogin
  constructor
  · refine ⟨hr.sound.next hrunning, ?_, ?_, ?_⟩
    · intro _
      apply ht.opened
    · intro _ hno
      exact absurd (hno.symm.trans hauth) Bool.noConfusion
    · intro hkeep _
      apply And.intro ht
      rw [hprobe, ← hstop, hkeep]
  · apply Turned.approves hun ht hframed hprobe hlogin hends
    intro hend
    rw [← hstop, hend]

/-- A turn that leaves the connection unauthorized. -/
theorem Ready.turned_waiting (hr : Ready l) (hrunning : l.running = true)
    (hun : l.conn.auth.authorized = false)
    (hhonest : ∀ msg, ev = .message msg → isHonest msg = true)
    (hstill : (l.next h e ev).conn.auth.authorized = false) :
  Ready (l.next h e ev) ∧ Turned e l ev (l.next h e ev)
  := by
  have hclosed := hr.sound.closed hrunning hun
  rw [Conn.isPortForward, Bool.or_eq_false_iff] at hclosed
  have hturn := Conn.unopened_onEvent (c := l.conn.clear) hun hclosed.1 rfl hstill
  constructor
  · refine ⟨hr.sound.next hrunning, ?_, ?_, ?_⟩
    · intro hkeep
      apply (hturn.opened hkeep).trans (hr.opened hrunning)
    · intro hkeep _ hwait
      apply hr.legacy_next hrunning hun _ hkeep hstill hwait
      intro lr hev
      apply hhonest _ hev
    · intro _ hauth
      exact absurd (hstill.symm.trans hauth) Bool.noConfusion
  · apply Turned.waits hun hstill
    · have hsocket : (l.next h e ev).conn.portForwardSocket = false := hturn.closes
      rw [Loop.handedOver, hsocket, Bool.and_false]
    · exact ⟨hturn.response, hturn.closes, hturn.opened, hturn.reply, hturn.probe⟩

/-- What a turn of a loop that waits for the login does. -/
theorem Ready.turned_login (hr : Ready l) (hrunning : l.running = true)
    (hun : l.conn.auth.authorized = false)
    (hauthorize : ev = .cm .authorize → l.cmStarted = true)
    (hhonest : ∀ msg, ev = .message msg → isHonest msg = true)
    (hsafe : ev = .cm .authorize → l.conn.AuthorizeEnds e → l.conn.lastTestDelay = false) :
  Ready (l.next h e ev) ∧ Turned e l ev (l.next h e ev)
  := by
  cases hauth : (l.next h e ev).conn.auth.authorized with
  | true => apply hr.turned_approved hrunning hun hauthorize hhonest hsafe hauth
  | false => apply hr.turned_waiting hrunning hun hhonest hauth

end Ready

/-! ### The byte channels -/

/-- The answer to a delay probe. -/
abbrev probeReply : Message := some (.testDelay false)

/-- The message `m'` may stand behind `m` on the channel to the controlled side. -/
def Behind (m m' : Message) : Prop := isLoginMessage m = true → m' = probeReply

/-- The login response has been sent. -/
def Pair.Responded (s : Pair) : Prop := ∃ m ∈ s.sent, m.isPeerInfo = true

/-- What holds of the byte channels.  The controller has `gs` and `qs` to read, and the controlled
side `fs` and `rs`, first the messages and then the raw bytes. -/
structure Links (gs : List OutMsg) (qs : List Bytes) (fs : List Message) (rs : List Bytes)
    (s : Pair) : Prop where
  toController : Packet.Holds s.toController gs qs
  toControlled : Packet.Holds s.toControlled fs rs
  app : s.appGot ++ qs.flatten = s.targetData
  target : s.targetGot ++ rs.flatten ++ s.controller.buffer = s.appData
  honest : ∀ m ∈ fs, isHonest m = true
  pending : ∀ lr ∈ s.controller.pendingLogin, lr.legacy = true
  last : ∀ before m after, s.sent = before ++ m :: after → m.isPeerInfo = true → after = []
  /-- The controller that logs in has not read the login response. -/
  unread : s.controller.phase = .login →
    ∃ before, s.sent = before ++ gs ∧ ∀ m ∈ before, m.isPeerInfo = false
  raw : s.controller.phase = .raw → s.controller.buffer = []
  /-- The controller in the raw mode has read every message, and none follows. -/
  done : s.controller.phase = .raw ∨ rs ≠ [] → gs = [] ∧ s.Responded
  back : qs ≠ [] → s.Responded
  /-- A delay probe is outstanding until its answer is read. -/
  probe : gs.count .testDelay + fs.count probeReply = s.controlled.conn.lastTestDelay.toNat
  responded : s.Responded ↔ s.controlled.conn.auth.authorized = true
  /-- The controller has written nothing but answers to delay probes behind its login. -/
  behind : s.controlled.running = true → fs.Pairwise Behind
  /-- An authorized tunnel still in the loop has only answers to read. -/
  alone : s.controlled.running = true → s.controlled.conn.auth.authorized = true →
    ∀ m ∈ fs, m = probeReply
  handed : s.controlled.handedOver = true →
    fs = [] ∧ s.controlled.conn.lastTestDelay = false ∧ s.Responded

section Links

variable {h : Host} {w : Framing} {e : Env} {ev : Event} {s : Pair} {l : Loop}
  {gs : List OutMsg} {qs rs : List Bytes} {fs fs' : List Message}
  {unread : List (Packet Message UInt8)}

/-- A login on its way to the controlled side. -/
theorem Links.loginUnread (hk : Links gs qs fs rs s) {m : Message} (hm : m ∈ fs)
    (hlogin : isLoginMessage m = true) :
  s.LoginUnread
  := by
  use m
  apply And.intro _ hlogin
  rw [hk.toControlled]
  apply List.mem_append_left
  apply List.mem_map_of_mem hm

/-- No login response was sent to a connection that waits. -/
theorem Links.not_responded (hk : Links gs qs fs rs s)
    (hun : s.controlled.conn.auth.authorized = false) :
  ¬ s.Responded
  := by
  intro hr
  exact absurd (hun.symm.trans (hk.responded.mp hr)) Bool.noConfusion

/-- A connection that waits has passed no raw bytes, and the controller sends none. -/
theorem Links.waiting (hk : Links gs qs fs rs s)
    (hun : s.controlled.conn.auth.authorized = false) :
  qs = [] ∧ rs = [] ∧ s.controller.phase ≠ .raw
  := by
  have hno := hk.not_responded hun
  refine ⟨?_, ?_, ?_⟩
  · by_contra hqs
    apply hno (hk.back hqs)
  · by_contra hrs
    apply hno (hk.done (Or.inr hrs)).2
  · intro hraw
    apply hno (hk.done (Or.inl hraw)).2

/-- A controller that logs in with nothing to read has got no login response. -/
theorem Links.login (hk : Links gs qs fs rs s) (hphase : s.controller.phase = .login) :
  rs = [] ∧ (gs = [] → qs = [])
  := by
  have hno (hgs : gs = []) : ¬ s.Responded := by
    rintro ⟨m, hm, hresponse⟩
    obtain ⟨before, hsent, hbefore⟩ := hk.unread hphase
    rw [hgs, List.append_nil] at hsent
    rw [hsent] at hm
    exact absurd ((hbefore m hm).symm.trans hresponse) Bool.noConfusion
  constructor
  · by_contra hrs
    obtain ⟨hgs, hr⟩ := hk.done (Or.inr hrs)
    apply hno hgs hr
  · intro hgs
    by_contra hqs
    apply hno hgs (hk.back hqs)

/-! ### Turns of the controlled side -/

/-- The controlled side makes a turn on `ev` and leaves `fs'` of the messages `fs`. -/
inductive Rest (ev : Event) : List Message → List Message → Prop where
  | all {fs : List Message} (hev : ev.isRead = false) : Rest ev fs fs
  | tail {m : Message} {fs : List Message} (hev : ev = .message m) : Rest ev (m :: fs) fs

theorem Rest.sublist (hrest : Rest ev fs fs') :
  fs'.Sublist fs
  := by
  cases hrest with
  | all => apply List.Sublist.refl
  | tail => apply List.sublist_cons_self

/-- The answer to a delay probe is gone when it is read. -/
theorem Rest.reply (hrest : Rest ev fs fs') (hev : ev = .message probeReply) :
  fs.count probeReply = fs'.count probeReply + 1
  := by
  cases hrest with
  | all hread =>
      rw [hev] at hread
      cases hread
  | tail hmsg =>
      rw [hev] at hmsg
      cases hmsg
      apply List.count_cons_self

/-- Nothing else takes the answer to a delay probe. -/
theorem Rest.other (hrest : Rest ev fs fs') (hev : ev ≠ .message probeReply) :
  fs.count probeReply = fs'.count probeReply
  := by
  cases hrest with
  | all => rfl
  | tail hmsg =>
      rw [List.count_cons_of_ne]
      rintro rfl
      exact hev hmsg

/-- Of answers to delay probes there is none when no probe is outstanding. -/
theorem eq_nil_of_replies (hreplies : ∀ m ∈ fs, m = probeReply)
    (hcount : fs.count probeReply = 0) :
  fs = []
  := by
  cases fs with
  | nil => rfl
  | cons m fs =>
      rw [hreplies m List.mem_cons_self, List.count_cons_self] at hcount
      cases hcount

/-- A turn that approves the login leaves only answers to delay probes. -/
theorem Links.replies (hk : Links gs qs fs rs s) (hrunning : s.controlled.running = true)
    (hrest : Rest ev fs fs') (hlogin : ev.isLogin = true)
    (hauthorize : ev = .cm .authorize → s.OnlyReplies) :
  ∀ m ∈ fs', m = probeReply
  := by
  intro m hm
  cases hrest with
  | all hread =>
      apply hauthorize
      · cases ev with
        | cm d =>
            cases d with
            | authorize => rfl
            | _ => cases hlogin
        | message => cases hread
        | _ => cases hlogin
      · rw [hk.toControlled]
        apply List.mem_append_left
        apply List.mem_map_of_mem hm
  | tail hmsg =>
      subst hmsg
      obtain ⟨hhead, -⟩ := List.pairwise_cons.mp (hk.behind hrunning)
      apply hhead m hm hlogin

/-- A turn keeps the channels that sends nothing behind a login response, and nothing but probes that
it counts. -/
theorem Links.turned_of (hk : Links gs qs fs rs s) (hunread : Packet.Holds unread fs' rs)
    (hrest : Rest ev fs fs') (hrunning : s.controlled.running = true)
    (hquiet : s.Responded → l.framed = [])
    (hlast : ∀ before m after, s.sent ++ l.framed = before ++ m :: after → m.isPeerInfo = true →
      after = [])
    (hprobe : (gs ++ l.framed).count .testDelay + fs'.count probeReply
      = l.conn.lastTestDelay.toNat)
    (hresponded : ({ s with toControlled := unread }.turned l).Responded
      ↔ l.conn.auth.authorized = true)
    (halone : l.conn.auth.authorized = true → ∀ m ∈ fs', m = probeReply)
    (hhanded : l.handedOver = true →
      l.conn.lastTestDelay = false ∧ l.conn.auth.authorized = true) :
  Links (gs ++ l.framed) qs fs' rs ({ s with toControlled := unread }.turned l)
  := by
  have hkept (hr : s.Responded) : ({ s with toControlled := unread }.turned l).Responded := by
    obtain ⟨m, hm, hyes⟩ := hr
    use m, List.mem_append_left _ hm, hyes
  constructor
  · change Packet.Holds (s.toController ++ l.framed.map .framed) _ qs
    by_cases hqs : qs = []
    · subst hqs
      apply hk.toController.send
    · rw [hquiet (hk.back hqs), List.map_nil, List.append_nil, List.append_nil]
      apply hk.toController
  · apply hunread
  · apply hk.app
  · apply hk.target
  · intro m hm
    apply hk.honest m (hrest.sublist.mem hm)
  · apply hk.pending
  · apply hlast
  · intro hlogin
    obtain ⟨before, heq, hbefore⟩ := hk.unread hlogin
    use before
    apply And.intro _ hbefore
    change s.sent ++ l.framed = _
    rw [heq, List.append_assoc]
  · apply hk.raw
  · intro hraw
    obtain ⟨hgs, hr⟩ := hk.done hraw
    apply And.intro _ (hkept hr)
    rw [hgs, hquiet hr, List.append_nil]
  · intro hqs
    apply hkept (hk.back hqs)
  · apply hprobe
  · apply hresponded
  · intro _
    apply (hk.behind hrunning).sublist hrest.sublist
  · intro _
    apply halone
  · intro hyes
    obtain ⟨hno, hauth⟩ := hhanded hyes
    have hnil : fs' = [] := by
      apply eq_nil_of_replies (halone hauth)
      rw [hno, Bool.toNat_false] at hprobe
      omega
    exact ⟨hnil, hno, hresponded.mpr hauth⟩

theorem Links.turned_waits (hk : Links gs qs fs rs s) (hunread : Packet.Holds unread fs' rs)
    (hrest : Rest ev fs fs') (hrunning : s.controlled.running = true)
    (hun : s.controlled.conn.auth.authorized = false)
    (hstill : l.conn.auth.authorized = false) (hnot : l.handedOver = false)
    (hturn : Conn.Unopened s.controlled.conn ev (l.conn, l.running)) :
  Links (gs ++ l.framed) qs fs' rs ({ s with toControlled := unread }.turned l)
  := by
  have hno (hauth : l.conn.auth.authorized = true) : False :=
    absurd (hstill.symm.trans hauth) Bool.noConfusion
  have hsent : ∀ m ∈ s.sent ++ l.framed, m.isPeerInfo = false := by
    intro m hm
    rcases List.mem_append.mp hm with hm | hm
    · by_contra hyes
      rw [Bool.not_eq_false] at hyes
      apply hk.not_responded hun
      use m, hm, hyes
    · apply hturn.response m hm
  apply hk.turned_of hunread hrest hrunning
  · intro hr
    exact absurd hr (hk.not_responded hun)
  · intro before m after heq hyes
    have hm : m ∈ s.sent ++ l.framed := by
      rw [heq]
      simp
    exact absurd ((hsent m hm).symm.trans hyes) Bool.noConfusion
  · have hprobe := hk.probe
    rw [List.count_append]
    by_cases hev : ev = .message probeReply
    · obtain ⟨hdelay, hcount⟩ := hturn.reply hev
      have hdelay : l.conn.lastTestDelay = false := hdelay
      have hcount : l.framed.count .testDelay = 0 := hcount
      have hle := Bool.toNat_le s.controlled.conn.lastTestDelay
      have hread := hrest.reply hev
      rw [hdelay, Bool.toNat_false]
      omega
    · have hdelay : l.conn.lastTestDelay.toNat
          = s.controlled.conn.lastTestDelay.toNat + l.framed.count .testDelay := hturn.probe hev
      have hread := hrest.other hev
      omega
  · constructor
    · rintro ⟨m, hm, hyes⟩
      exact absurd ((hsent m hm).symm.trans hyes) Bool.noConfusion
    · intro hauth
      exact (hno hauth).elim
  · intro hauth
    exact (hno hauth).elim
  · intro hyes
    exact absurd (hnot.symm.trans hyes) Bool.noConfusion

theorem Links.turned_approves (hk : Links gs qs fs rs s) (hunread : Packet.Holds unread fs' rs)
    (hrest : Rest ev fs fs') (hrunning : s.controlled.running = true)
    (hun : s.controlled.conn.auth.authorized = false)
    (ht : l.conn.Tunnel) (hframed : l.framed = [.peerInfo false])
    (hprobe : l.conn.lastTestDelay = s.controlled.conn.lastTestDelay)
    (hlogin : ev.isLogin = true) (hreplies : ev = .cm .authorize → s.OnlyReplies)
    (hstop : l.running = false → s.controlled.conn.lastTestDelay = false) :
  Links (gs ++ l.framed) qs fs' rs ({ s with toControlled := unread }.turned l)
  := by
  have hev : ev ≠ .message probeReply := by
    rintro rfl
    cases hlogin
  apply hk.turned_of hunread hrest hrunning
  · intro hr
    exact absurd hr (hk.not_responded hun)
  · intro before m after heq hyes
    rw [hframed] at heq
    rcases List.eq_nil_or_concat after with hnil | ⟨after', m', hafter⟩
    · apply hnil
    · rw [hafter, List.concat_eq_append, ← List.cons_append, ← List.append_assoc] at heq
      obtain ⟨hsent, -⟩ := List.append_inj' heq rfl
      exfalso
      apply hk.not_responded hun
      use m
      apply And.intro _ hyes
      rw [hsent]
      simp
  · rw [hprobe, ← hk.probe, hrest.other hev, hframed, List.count_append]
    rfl
  · constructor
    · intro _
      apply ht.authorized
    · intro _
      use .peerInfo false
      apply And.intro _ rfl
      change _ ∈ s.sent ++ l.framed
      rw [hframed]
      simp
  · intro _
    apply hk.replies hrunning hrest hlogin hreplies
  · intro hyes
    rw [Loop.handedOver, Bool.and_eq_true, Bool.not_eq_true'] at hyes
    apply And.intro _ ht.authorized
    rw [hprobe, hstop hyes.1]

/-- A turn of an authorized tunnel that writes nothing. -/
theorem Links.turned_silent (hk : Links gs qs fs rs s) (hunread : Packet.Holds unread fs' rs)
    (hrest : Rest ev fs fs') (hrunning : s.controlled.running = true)
    (hauth : s.controlled.conn.auth.authorized = true)
    (hauth' : l.conn.auth.authorized = true) (hframed : l.framed = [])
    (hprobe : gs.count .testDelay + fs'.count probeReply = l.conn.lastTestDelay.toNat)
    (hhanded : l.handedOver = true → l.conn.lastTestDelay = false) :
  Links (gs ++ l.framed) qs fs' rs ({ s with toControlled := unread }.turned l)
  := by
  apply hk.turned_of hunread hrest hrunning (fun _ => hframed)
  · rw [hframed, List.append_nil]
    apply hk.last
  · rw [hframed, List.append_nil]
    apply hprobe
  · constructor
    · intro _
      apply hauth'
    · intro _
      obtain ⟨m, hm, hyes⟩ := hk.responded.mpr hauth
      use m, List.mem_append_left _ hm, hyes
  · intro _ m hm
    apply hk.alone hrunning hauth m (hrest.sublist.mem hm)
  · intro hyes
    apply And.intro (hhanded hyes) hauth'

/-- A safe turn of the controlled side. -/
theorem Links.turned (hk : Links gs qs fs rs s) (hunread : Packet.Holds unread fs' rs)
    (hrest : Rest ev fs fs') (hrunning : s.controlled.running = true)
    (hturn : Turned e s.controlled ev l)
    (hreplies : ev = .cm .authorize → s.controlled.conn.AuthorizeEnds e → s.OnlyReplies)
    (hdelay : s.controlled.conn.auth.authorized = true →
      s.controlled.conn.lastTestDelay = true) :
  Links (gs ++ l.framed) qs fs' rs ({ s with toControlled := unread }.turned l)
  := by
  have hprobe := hk.probe
  cases hturn with
  | waits hun hstill hnot hturn =>
      apply hk.turned_waits hunread hrest hrunning hun hstill hnot hturn
  | approves hun ht hframed hprobe hlogin hends hstop =>
      apply hk.turned_approves hunread hrest hrunning hun ht hframed hprobe hlogin _ hstop
      intro hev
      apply hreplies hev (hends hev)
  | replies ht hev hreplied hauth hframed =>
      have hread := hrest.reply hev
      have hle := Bool.toNat_le s.controlled.conn.lastTestDelay
      apply hk.turned_silent hunread hrest hrunning ht.authorized hauth hframed
      · rw [hreplied, Bool.toNat_false]
        omega
      · intro _
        apply hreplied
  | silent ht hev hstill hauth hnot hframed =>
      have hread := hrest.other hev
      apply hk.turned_silent hunread hrest hrunning ht.authorized hauth hframed
      · rw [hstill, ← hread, hprobe, hdelay ht.authorized]
      · intro hyes
        exact absurd (hnot.symm.trans hyes) Bool.noConfusion

/-- While the loop runs, the controlled side finds a message of the controller, never raw bytes. -/
theorem Links.receives (hk : Links gs qs fs rs s) (hr : Ready s.controlled)
    (hrunning : s.controlled.running = true) {p : Packet Message UInt8}
    (hps : s.toControlled = p :: unread) (hp : ev.Delivers p) :
  ∃ msg fs', ev = .message msg ∧ fs = msg :: fs' ∧ Packet.Holds unread fs' rs
  := by
  have hholds := hk.toControlled
  rw [hps] at hholds
  rcases hholds.head with ⟨m, fs', rfl, rfl, hunread⟩ | ⟨d, rs', rfl, rfl, rfl, hunread⟩
  · cases ev with
    | message msg =>
        obtain rfl : m = msg := hp
        use m, fs', rfl, rfl, hunread
    | unparsed => exact hp.elim
    | _ => exact hp.elim
  · exfalso
    obtain ⟨hgs, hresponded⟩ := hk.done (Or.inr (List.cons_ne_nil _ _))
    obtain ⟨-, hdelay⟩ := hr.tunnel hrunning (hk.responded.mp hresponded)
    have hprobe := hk.probe
    rw [hgs, hdelay] at hprobe
    simp at hprobe

/-! ### Steps of the controller -/

/-- The controller has left without a stream. -/
theorem Links.leave (hk : Links gs qs fs rs s) :
  Links gs qs fs rs { s with controller.phase := .gone }
  := by
  refine { hk with unread := ?_, raw := ?_, done := ?_ }
  · intro hphase
    cases hphase
  · intro hphase
    cases hphase
  · rintro (hphase | hrs)
    · cases hphase
    · apply hk.done (Or.inr hrs)

/-- A controller that writes nothing and stays as it is leaves both ends as they are. -/
theorem Pair.reacted_nil :
  s.reacted (s.controller, [], []) = s
  := by
  simp [Pair.reacted]

/-- The controller writes messages that are no answers to delay probes. -/
theorem Links.write (hk : Links gs qs fs rs s) (hphase : s.controller.phase = .login)
    {k : Controller} {msgs : List Message} (hmay : ∀ m ∈ msgs, s.MayWrite)
    (hbehind : msgs.Pairwise Behind) (hk' : k.phase = .login) (hbuffer : k.buffer = s.controller.buffer)
    (hpending : ∀ lr ∈ k.pendingLogin, lr.legacy = true)
    (hmsgs : ∀ m ∈ msgs, isHonest m = true ∧ m ≠ probeReply) :
  Links gs qs (fs ++ msgs) rs (s.reacted (k, msgs, []))
  := by
  obtain ⟨rfl, -⟩ := hk.login hphase
  have hcount : msgs.count probeReply = 0 := by
    rw [List.count_eq_zero]
    intro hm
    apply (hmsgs _ hm).2 rfl
  refine { hk with
    toControlled := ?_, target := ?_, honest := ?_, pending := hpending, unread := ?_,
    raw := ?_, done := ?_, probe := ?_, behind := ?_, alone := ?_, handed := ?_ }
  · change Packet.Holds (s.toControlled ++ msgs.map .framed ++ []) _ _
    rw [List.append_nil]
    apply hk.toControlled.send
  · change s.targetGot ++ [] ++ k.buffer = s.appData
    rw [hbuffer]
    apply hk.target
  · intro m hm
    rcases List.mem_append.mp hm with hm | hm
    · apply hk.honest m hm
    · apply (hmsgs m hm).1
  · intro _
    apply hk.unread hphase
  · intro hraw
    exact absurd (hk'.symm.trans hraw) Phase.noConfusion
  · rintro (hraw | hrs)
    · exact absurd (hk'.symm.trans hraw) Phase.noConfusion
    · exact absurd rfl hrs
  · rw [List.count_append, hcount]
    apply hk.probe
  · intro hrunning
    apply List.pairwise_append.mpr
    refine ⟨hk.behind hrunning, hbehind, ?_⟩
    intro a ha b hb hlogin
    exact absurd (hk.loginUnread ha hlogin) ((hmay b hb).waiting hrunning).2
  · intro hrunning hauth m hm
    rcases List.mem_append.mp hm with hm | hm
    · apply hk.alone hrunning hauth m hm
    · exact absurd (((hmay m hm).waiting hrunning).1.symm.trans hauth) Bool.noConfusion
  · intro hyes
    have hnil : msgs = [] := by
      cases msgs with
      | nil => rfl
      | cons m msgs =>
          exact absurd ((hmay m List.mem_cons_self).framed.symm.trans hyes) Bool.noConfusion
    rw [hnil, List.append_nil]
    apply hk.handed hyes

/-- The controller takes the next message off its channel. -/
theorem Links.take {m : OutMsg} {ps : List (Packet OutMsg UInt8)}
    (hk : Links (m :: gs) qs fs rs s) (hps : Packet.Holds ps gs qs) (hm : m.isPeerInfo = false)
    (hprobe : m ≠ .testDelay) :
  Links gs qs fs rs { s with toController := ps }
  := by
  refine { hk with toController := hps, unread := ?_, done := ?_, probe := ?_ }
  · intro hphase
    obtain ⟨before, hsent, hbefore⟩ := hk.unread hphase
    use before ++ [m]
    constructor
    · rw [List.append_assoc]
      apply hsent
    · simp only [List.forall_mem_append, List.forall_mem_singleton]
      apply And.intro hbefore hm
  · intro hraw
    cases (hk.done hraw).1
  · rw [← hk.probe, List.count_cons_of_ne]
    apply hprobe

/-- The controller answers a delay probe. -/
theorem Links.reply {ps : List (Packet OutMsg UInt8)} (hk : Links (.testDelay :: gs) qs fs rs s)
    (hps : Packet.Holds ps gs qs) (hphase : s.controller.phase = .login) :
  Links gs qs (fs ++ [probeReply]) rs
    ({ s with toController := ps }.reacted (s.controller, [probeReply], []))
  := by
  obtain ⟨rfl, -⟩ := hk.login hphase
  refine { hk with
    toController := hps, toControlled := ?_, honest := ?_, unread := ?_, done := ?_, probe := ?_,
    behind := ?_, alone := ?_, handed := ?_ }
  · change Packet.Holds (s.toControlled ++ [probeReply].map .framed ++ []) _ _
    rw [List.append_nil]
    apply hk.toControlled.send
  · simp only [List.forall_mem_append, List.forall_mem_singleton]
    apply And.intro hk.honest rfl
  · intro _
    obtain ⟨before, hsent, hbefore⟩ := hk.unread hphase
    use before ++ [.testDelay]
    constructor
    · rw [List.append_assoc]
      apply hsent
    · simp only [List.forall_mem_append, List.forall_mem_singleton]
      apply And.intro hbefore rfl
  · intro hraw
    cases (hk.done hraw).1
  · have hprobe := hk.probe
    rw [List.count_cons_self] at hprobe
    rw [List.count_append, List.count_singleton_self]
    change _ = s.controlled.conn.lastTestDelay.toNat
    omega
  · intro hrunning
    apply List.pairwise_append.mpr
    refine ⟨hk.behind hrunning, List.pairwise_singleton _ _, ?_⟩
    intro a _ b hb _
    apply List.mem_singleton.mp hb
  · intro hrunning hauth m hm
    rcases List.mem_append.mp hm with hm | hm
    · apply hk.alone hrunning hauth m hm
    · apply List.mem_singleton.mp hm
  · intro hyes
    have hprobe := hk.probe
    rw [(hk.handed hyes).2.1, List.count_cons_self, Bool.toNat_false] at hprobe
    omega

/-- The controller leaves for the raw mode on the login response. -/
theorem Links.start {ps : List (Packet OutMsg UInt8)} {b : Bool}
    (hk : Links (.peerInfo b :: gs) qs fs rs s) (hps : Packet.Holds ps gs qs)
    (hphase : s.controller.phase = .login) :
  ∃ rs', Links gs qs fs rs' ({ s with toController := ps }.reacted
    ({ s.controller with phase := .raw, buffer := [] }, [],
      if s.controller.buffer.isEmpty then [] else [s.controller.buffer]))
  := by
  obtain ⟨rfl, -⟩ := hk.login hphase
  obtain ⟨before, hsent, hbefore⟩ := hk.unread hphase
  have hgs : gs = [] := hk.last before (.peerInfo b) gs hsent rfl
  have hresponded : s.Responded := by
    use .peerInfo b
    apply And.intro _ rfl
    rw [hsent]
    simp
  have hflat : (if s.controller.buffer.isEmpty then [] else [s.controller.buffer]).flatten
      = s.controller.buffer := by
    cases hempty : s.controller.buffer.isEmpty with
    | true => rw [List.isEmpty_iff.mp hempty, if_pos rfl, List.flatten_nil]
    | false => simp
  use if s.controller.buffer.isEmpty then [] else [s.controller.buffer]
  refine { hk with
    toController := hps, toControlled := ?_, target := ?_, unread := ?_, raw := ?_, done := ?_,
    probe := ?_ }
  · change Packet.Holds (s.toControlled ++ [] ++ _) _ _
    rw [List.append_nil, hk.toControlled]
    rw [Packet.Holds]
    simp
  · change s.targetGot ++ _ ++ [] = s.appData
    rw [hflat, List.append_nil, ← hk.target, List.flatten_nil, List.append_nil]
  · intro hlogin
    cases hlogin
  · intro _
    rfl
  · intro _
    apply And.intro hgs hresponded
  · change _ = s.controlled.conn.lastTestDelay.toNat
    rw [← hk.probe, List.count_cons_of_ne]
    rintro hf
    cases hf

/-- The controller answers the hash, with a login if there is one. -/
theorem Links.challenge (hk : Links gs qs fs rs s) (hphase : s.controller.phase = .login)
    {login : Option LoginRequest} (hlegacy : ∀ lr ∈ login, lr.legacy = true)
    (hmay : login.isSome = true → s.MayWrite) :
  Links gs qs (fs ++ login.toList.map fun lr => some (.loginRequest lr)) rs
    (s.reacted ({ s.controller with challenge := true, pendingLogin := none },
      login.toList.map fun lr => some (.loginRequest lr), []))
  := by
  apply hk.write hphase (k := { s.controller with challenge := true, pendingLogin := none })
    _ _ hphase rfl
  · intro lr hlr
    cases hlr
  · intro msg hmsg
    obtain ⟨lr, hlr, rfl⟩ := List.mem_map.mp hmsg
    constructor
    · apply hlegacy lr (Option.mem_toList.mp hlr)
    · intro hf
      cases hf
  · intro msg hmsg
    obtain ⟨lr, hlr, -⟩ := List.mem_map.mp hmsg
    apply hmay
    rw [Option.mem_toList.mp hlr]
    rfl
  · cases login with
    | none => apply List.Pairwise.nil
    | some lr => apply List.pairwise_singleton

/-- The controller reads a message while it logs in. -/
theorem Links.read {p : Packet OutMsg UInt8} {ps : List (Packet OutMsg UInt8)} {m : OutMsg}
    {answer : Option LoginRequest} (hk : Links gs qs fs rs s) (hphase : s.controller.phase = .login)
    (hps : s.toController = p :: ps) (hp : p.Reads m)
    (hanswer : ∀ lr ∈ answer, lr.legacy = true)
    (hsafe : s.HandoverSafe h (.read answer m)) :
  ∃ gs' fs' rs', Links gs' qs fs' rs'
    ({ s with toController := ps }.reacted (s.controller.onMessage answer m))
  := by
  have hholds := hk.toController
  rw [hps] at hholds
  rcases hholds.head with ⟨m', gs', rfl, rfl, hrest⟩ | ⟨d, qs', rfl, rfl, rfl, -⟩
  · obtain rfl : m' = m := hp
    have hsame (hquiet : s.controller.onMessage answer m' = (s.controller, [], []))
        (hno : m'.isPeerInfo = false) (hne : m' ≠ .testDelay) :
        ∃ gs' fs' rs', Links gs' qs fs' rs'
          ({ s with toController := ps }.reacted (s.controller.onMessage answer m')) := by
      use gs', fs, rs
      rw [hquiet]
      rw [Pair.reacted_nil (s := { s with toController := ps })]
      apply hk.take hrest hno hne
    cases m' with
    | hash =>
        let login := if s.controller.pendingLogin.isSome then s.controller.pendingLogin else answer
        use gs', fs ++ login.toList.map fun lr => some (.loginRequest lr), rs
        apply (hk.take hrest rfl OutMsg.noConfusion).challenge hphase
        · intro lr hlr
          simp only [login] at hlr
          split at hlr
          · apply hk.pending lr hlr
          · apply hanswer lr hlr
        · intro hsome
          have hmay : s.MayWrite := by
            apply hsafe
            simp only [login] at hsome
            split at hsome
            · apply Or.inl hsome
            · apply Or.inr hsome
          exact ⟨hmay.framed, hmay.waiting⟩
    | testDelay =>
        use gs', fs ++ [probeReply], rs
        apply hk.reply hrest hphase
    | peerInfo b =>
        obtain ⟨rs', hk'⟩ := hk.start hrest hphase
        use gs', fs, rs'
        apply hk'
    | _ => exact hsame rfl rfl OutMsg.noConfusion
  · obtain ⟨-, hnil⟩ := hk.login hphase
    cases hnil rfl

/-! ### Raw bytes -/

/-- The controller reads the local application. -/
theorem Links.appRead (hk : Links gs qs fs rs s) (data : Bytes)
    (hphase : s.controller.phase ≠ .gone) :
  ∃ rs', Links gs qs fs rs'
    ({ s with appData := s.appData ++ data }.reacted (s.controller.onForward data))
  := by
  rw [Controller.onForward]
  cases hwhere : s.controller.phase with
  | login =>
      use rs
      refine { hk with toControlled := ?_, target := ?_, unread := ?_, raw := ?_, done := ?_ }
      · change Packet.Holds (s.toControlled ++ [] ++ []) fs rs
        rw [List.append_nil, List.append_nil]
        apply hk.toControlled
      · change s.targetGot ++ rs.flatten ++ (s.controller.buffer ++ data) = s.appData ++ data
        rw [← hk.target, List.append_assoc, List.append_assoc, List.append_assoc]
      · intro _
        apply hk.unread hwhere
      · intro hraw
        cases hraw
      · rintro (hraw | hrs)
        · cases hraw
        · apply hk.done (Or.inr hrs)
  | raw =>
      use rs ++ [data]
      refine { hk with toControlled := ?_, target := ?_, done := ?_ }
      · change Packet.Holds (s.toControlled ++ [] ++ [.raw data]) fs (rs ++ [data])
        rw [List.append_nil]
        apply hk.toControlled.write
      · change s.targetGot ++ (rs ++ [data]).flatten ++ s.controller.buffer = s.appData ++ data
        rw [← hk.target, hk.raw hwhere]
        simp
      · intro _
        apply hk.done (Or.inl hwhere)
  | gone => exact absurd hwhere hphase

/-- The controller in the raw mode finds raw bytes, never a message. -/
theorem Links.appWrite {p : Packet OutMsg UInt8} {ps : List (Packet OutMsg UInt8)}
    (hk : Links gs qs fs rs s) (hphase : s.controller.phase = .raw)
    (hps : s.toController = p :: ps) :
  ∃ qs', Links gs qs' fs rs
    { s with toController := ps, appGot := s.appGot ++ p.bytes w.outMsg }
  := by
  obtain ⟨rfl, hresponded⟩ := hk.done (Or.inl hphase)
  have hholds := hk.toController
  rw [hps] at hholds
  rcases hholds.head with ⟨m, gs', -, hnil, -⟩ | ⟨d, qs', rfl, -, rfl, hrest⟩
  · cases hnil
  · use qs'
    refine { hk with toController := hrest, app := ?_, back := ?_ }
    · change s.appGot ++ d ++ qs'.flatten = s.targetData
      rw [← hk.app, List.flatten_cons, List.append_assoc]
    · intro _
      apply hresponded

/-- The controlled side in the raw loop reads the target. -/
theorem Links.targetRead (hk : Links gs qs fs rs s) (data : Bytes)
    (hraw : s.controlled.handedOver = true) :
  Links gs (qs ++ [data]) fs rs
    { s with
      targetData := s.targetData ++ data, toController := s.toController ++ [.raw data] }
  := by
  refine { hk with toController := hk.toController.write data, app := ?_, back := ?_ }
  · change s.appGot ++ (qs ++ [data]).flatten = s.targetData ++ data
    rw [← hk.app]
    simp
  · intro _
    apply (hk.handed hraw).2.2

/-- The controlled side in the raw loop finds raw bytes, never a message. -/
theorem Links.targetWrite {p : Packet Message UInt8} {ps : List (Packet Message UInt8)}
    (hk : Links gs qs fs rs s) (hraw : s.controlled.handedOver = true)
    (hps : s.toControlled = p :: ps) :
  ∃ rs', Links gs qs fs rs'
    { s with toControlled := ps, targetGot := s.targetGot ++ p.bytes w.message }
  := by
  obtain ⟨rfl, -⟩ := hk.handed hraw
  have hholds := hk.toControlled
  rw [hps] at hholds
  rcases hholds.head with ⟨m, fs', -, hnil, -⟩ | ⟨d, rs', rfl, -, rfl, hrest⟩
  · cases hnil
  · use rs'
    refine { hk with toControlled := hrest, target := ?_, done := ?_ }
    · change s.targetGot ++ d ++ rs'.flatten ++ s.controller.buffer = s.appData
      rw [← hk.target, List.flatten_cons, List.append_assoc s.targetGot d]
    · intro _
      apply hk.done
      right
      apply List.cons_ne_nil

/-- The raw loop ends, and closes the connection. -/
theorem Links.endTunnel (hk : Links gs qs fs rs s) (hraw : s.controlled.handedOver = true) :
  Links gs qs fs rs { s with controlled.conn := s.controlled.conn.clear.onClose h false }
  := by
  have hdelay : (s.controlled.conn.clear.onClose h false).lastTestDelay
      = s.controlled.conn.lastTestDelay :=
    (Conn.emits_onClose (P := fun _ => True) false trivial trivial trivial trivial).2
  refine { hk with probe := ?_, responded := ?_, alone := ?_, handed := ?_ }
  · change _ = (s.controlled.conn.clear.onClose h false).lastTestDelay.toNat
    rw [hdelay]
    apply hk.probe
  · change _ ↔ (s.controlled.conn.clear.onClose h false).auth.authorized = true
    rw [Conn.auth_onClose]
    apply hk.responded
  · intro _ _ m hm
    rw [(hk.handed hraw).1] at hm
    cases hm
  · intro _
    obtain ⟨hfs, hno, hresponded⟩ := hk.handed hraw
    exact ⟨hfs, hdelay.trans hno, hresponded⟩

end Links

/-! ### Runs of both ends -/

/-- What every safe step of both ends keeps. -/
def Kept (s : Pair) : Prop := Ready s.controlled ∧ ∃ gs qs fs rs, Links gs qs fs rs s

section Kept

variable {h : Host} {w : Framing} {s s' s₀ : Pair} {a : Pair.Act}

/-- A turn of a loop that waits for the login, and leaves `unread` on its channel. -/
theorem Kept.turned_login {gs : List OutMsg} {qs rs : List Bytes} {fs fs' : List Message} {e : Env}
    {ev : Event} {l : Loop} {unread : List (Packet Message UInt8)} (hr : Ready s.controlled)
    (hk : Links gs qs fs rs s) (hl : Loop.Step h s.controlled (e, ev) l)
    (hun : s.controlled.conn.auth.authorized = false)
    (hunread : Packet.Holds unread fs' rs) (hrest : Rest ev fs fs')
    (hhonest : ∀ msg, ev = .message msg → isHonest msg = true)
    (hprobe : ev = .cm .authorize → s.controlled.conn.AuthorizeEnds e →
      s.controlled.conn.lastTestDelay = false)
    (hreplies : ev = .cm .authorize → s.controlled.conn.AuthorizeEnds e → s.OnlyReplies) :
  Kept ({ s with toControlled := unread }.turned l)
  := by
  obtain ⟨hrunning, hauthorize, rfl⟩ := hl
  obtain ⟨hr', hturn⟩ := hr.turned_login hrunning hun (fun hev => hauthorize _ hev rfl) hhonest
    hprobe
  apply And.intro hr'
  refine ⟨_, qs, fs', rs, hk.turned hunread hrest hrunning hturn hreplies ?_⟩
  intro hauth
  apply (hr.tunnel hrunning hauth).2

/-- A safe turn of the loop that reads nothing. -/
theorem Kept.turn {gs : List OutMsg} {qs rs : List Bytes} {fs : List Message} {e : Env}
    {ev : Event} {l : Loop} (hr : Ready s.controlled) (hk : Links gs qs fs rs s)
    (hev : ev.isRead = false) (hl : Loop.Step h s.controlled (e, ev) l) (hsafe : s.TurnSafe h e ev) :
  Kept (s.turned l)
  := by
  cases hauth : s.controlled.conn.auth.authorized with
  | false =>
      apply Kept.turned_login hr hk hl hauth hk.toControlled (.all hev) _ hsafe.probe hsafe.replies
      rintro msg rfl
      cases hev
  | true =>
      obtain ⟨hrunning, -, rfl⟩ := hl
      obtain ⟨hr', hturn⟩ := hr.turned_silent hrunning hauth hev (hsafe.silent hauth)
        fun hevent => hsafe.probe hevent (Or.inl hauth)
      apply And.intro hr'
      refine ⟨_, qs, fs, rs,
        hk.turned hk.toControlled (.all hev) hrunning hturn hsafe.replies ?_⟩
      intro hauth
      apply (hr.tunnel hrunning hauth).2

/-- The loop reads the stream: a tunnel in the loop finds the answer to its delay probe there. -/
theorem Kept.receive {gs : List OutMsg} {qs rs : List Bytes} {fs : List Message} {e : Env}
    {ev : Event} {l : Loop} {p : Packet Message UInt8} {ps : List (Packet Message UInt8)}
    (hr : Ready s.controlled) (hk : Links gs qs fs rs s) (hps : s.toControlled = p :: ps)
    (hp : ev.Delivers p) (hl : Loop.Step h s.controlled (e, ev) l) :
  Kept ({ s with toControlled := ps }.turned l)
  := by
  have hrunning := hl.1
  obtain ⟨msg, fs', rfl, rfl, hunread⟩ := hk.receives hr hrunning hps hp
  cases hauth : s.controlled.conn.auth.authorized with
  | false =>
      apply Kept.turned_login hr hk hl hauth hunread (.tail rfl)
      · intro msg' hev
        cases hev
        apply hk.honest msg List.mem_cons_self
      · intro hev
        cases hev
      · intro hev
        cases hev
  | true =>
      obtain rfl := hk.alone hrunning hauth msg List.mem_cons_self
      obtain ⟨-, -, rfl⟩ := hl
      obtain ⟨hr', hturn⟩ := hr.turned_reply (h := h) (e := e) hrunning hauth
      apply And.intro hr'
      refine ⟨_, qs, fs', rs, hk.turned hunread (.tail rfl) hrunning hturn nofun ?_⟩
      intro hauth
      apply (hr.tunnel hrunning hauth).2

/-- Every safe step of both ends. -/
theorem Kept.next (hkept : Kept s) (hsafe : s.HandoverSafe h a) (hstep : Pair.Step h w s a s') :
  Kept s'
  := by
  obtain ⟨hr, gs, qs, fs, rs, hk⟩ := hkept
  cases hstep with
  | turn hev hl => apply Kept.turn hr hk hev hl hsafe
  | receive hps hp hl => apply Kept.receive hr hk hps hp hl
  | @read p ps m answer hphase hps hp hanswer =>
      apply And.intro hr
      obtain ⟨gs', fs', rs', hk'⟩ := hk.read hphase hps hp hanswer hsafe
      use gs', qs, fs', rs'
  | @uiLogin lr hphase hlr =>
      apply And.intro hr
      rw [Controller.onUiLogin]
      split
      · rename_i hchallenge
        use gs, qs, fs ++ [some (.loginRequest lr)], rs
        apply hk.write hphase (fun _ _ => hsafe hchallenge) (List.pairwise_singleton _ _) hphase rfl
          hk.pending
        intro m hm
        rw [List.mem_singleton.mp hm]
        apply And.intro hlr
        intro hf
        cases hf
      · use gs, qs, fs ++ [], rs
        apply hk.write hphase (k := { s.controller with pendingLogin := some lr }) _
          List.Pairwise.nil hphase rfl
        · intro lr' hlr'
          cases hlr'
          apply hlr
        · intro m hm
          cases hm
        · intro m hm
          cases hm
  | @uiMessage msg hphase hmsg =>
      apply And.intro hr
      use gs, qs, fs ++ [msg], rs
      apply hk.write hphase (fun _ _ => hsafe) (List.pairwise_singleton _ _) hphase rfl hk.pending
      intro m hm
      rw [List.mem_singleton.mp hm]
      apply And.intro (isHonest_of_isUiMessage hmsg)
      rintro rfl
      cases hmsg
  | leave =>
      apply And.intro hr
      use gs, qs, fs, rs
      apply hk.leave
  | appRead hphase =>
      apply And.intro hr
      obtain ⟨rs', hk'⟩ := hk.appRead _ hphase
      use gs, qs, fs, rs'
  | appWrite hphase hps =>
      apply And.intro hr
      obtain ⟨qs', hk'⟩ := hk.appWrite (w := w) hphase hps
      use gs, qs', fs, rs
  | @targetRead data hraw =>
      apply And.intro hr
      use gs, qs ++ [data], fs, rs
      apply hk.targetRead data hraw
  | targetWrite hraw hps =>
      apply And.intro hr
      obtain ⟨rs', hk'⟩ := hk.targetWrite (w := w) hraw hps
      use gs, qs, fs, rs'
  | endTunnel hraw =>
      apply And.intro (hr.endTunnel hraw)
      use gs, qs, fs, rs
      apply hk.endTunnel hraw

/-- What safe steps keep is a clean hand-over. -/
theorem Kept.clean (hkept : Kept s) :
  s.Clean w
  := by
  obtain ⟨-, gs, qs, fs, rs, hk⟩ := hkept
  have hcontrolled := hk.toControlled
  have hcontroller := hk.toController
  constructor
  · intro hraw
    rw [(hk.handed hraw).1] at hcontrolled
    apply hcontrolled.isRaw
  · apply hk.last
  · use rs.flatten ++ s.controller.buffer
    rw [← hk.target, List.append_assoc]
  · use qs.flatten
    apply hk.app
  · intro hraw
    rw [(hk.handed hraw).1] at hcontrolled
    rw [hcontrolled.flatMap_bytes, hk.target]
  · intro hraw
    rw [(hk.done (Or.inl hraw)).1] at hcontroller
    rw [hcontroller.flatMap_bytes, hk.app]

/-- The effect writes neither a login response nor a delay probe. -/
def Opening (x : Effect) : Prop := ∀ m, x.framed = some m → m.isPeerInfo = false ∧ m ≠ .testDelay

/-- Opening a connection sends no login response and no delay probe. -/
theorem opening_onOpen {e : Env} {c c' : Conn} (hout : c.out = [])
    (hopen : c.onOpen h e = some c') :
  (∀ m ∈ c'.out.filterMap Effect.framed, m.isPeerInfo = false ∧ m ≠ .testDelay)
    ∧ c'.lastTestDelay = c.lastTestDelay
  := by
  have hsend {c c' : Conn} (hc : Conn.Emits Opening c c') {p : Permission} {b : Bool} :
      Conn.Emits Opening c (c'.sendPermission p b) := by
    refine hc.emit ?_
    rintro m ⟨⟩
    exact ⟨rfl, OutMsg.noConfusion⟩
  have hdenied {c c' : Conn} (hc : Conn.Emits Opening c c') {p : Permission} {b : Bool} :
      Conn.Emits Opening c (c'.sendDenied p b) := by
    rw [Conn.sendDenied]
    split_ifs
    · apply hc
    · apply hsend hc
  have hhash : Conn.Emits Opening c (c.send .hash) := by
    refine (Conn.Emits.refl c).emit ?_
    rintro m ⟨⟩
    exact ⟨rfl, OutMsg.noConfusion⟩
  have hemit : Conn.Emits Opening c c' := by
    rw [Conn.onOpen] at hopen
    split at hopen
    · cases hopen
    · rw [← Option.some.inj hopen]
      iterate 7 apply hdenied
      split
      · apply hsend hhash
      · apply hdenied hhash
  apply And.intro _ hemit.2
  intro m hm
  obtain ⟨x, hx, hm⟩ := List.mem_filterMap.mp hm
  apply hemit.forall_mem hout x hx m hm

theorem kept_of_isStart (hstart : s₀.IsStart h) :
  Kept s₀
  := by
  obtain ⟨l, hl, rfl⟩ := hstart
  have hsound := sound_of_isStart hl
  obtain ⟨hcm, b, hauth⟩ := hl.auth
  obtain ⟨e, id, salt, challenge, c, hopen, rfl⟩ := hl
  obtain ⟨hframed, hdelay⟩ := opening_onOpen rfl hopen
  have hcore := Conn.core_onOpen h e _ hopen
  have hauth : c.auth = { require2fa := b } := hauth
  have hresponse (m : OutMsg) (hm : m ∈ Loop.framed { conn := c }) : m.isPeerInfo = false :=
    (hframed m hm).1
  constructor
  · refine ⟨hsound, ?_, ?_, ?_⟩
    · intro _
      apply congrArg Core.closed hcore
    · rintro _ _ (hf | hf)
      · cases hf
      · rw [hauth] at hf
        cases hf
    · intro _ hf
      rw [hauth] at hf
      cases hf
  · use Loop.framed { conn := c }, [], [], []
    have hno : ¬ Pair.Responded { controlled := { conn := c }, toController :=
        (Loop.framed { conn := c }).map .framed, sent := Loop.framed { conn := c } } := by
      rintro ⟨m, hm, hyes⟩
      exact absurd ((hresponse m hm).symm.trans hyes) Bool.noConfusion
    constructor
    · simp [Packet.Holds]
    · rfl
    · rfl
    · rfl
    · intro m hm
      cases hm
    · intro lr hlr
      cases hlr
    · intro before m after heq hyes
      have hm : m ∈ Loop.framed { conn := c } := by
        have heq : Loop.framed { conn := c } = before ++ m :: after := heq
        rw [heq]
        simp
      exact absurd ((hresponse m hm).symm.trans hyes) Bool.noConfusion
    · intro _
      use []
      simp
    · intro hraw
      cases hraw
    · rintro (hraw | hrs)
      · cases hraw
      · exact absurd rfl hrs
    · intro hqs
      exact absurd rfl hqs
    · have hcount : (Loop.framed { conn := c }).count .testDelay = 0 := by
        rw [List.count_eq_zero]
        intro hm
        apply (hframed _ hm).2 rfl
      rw [hcount]
      change _ = c.lastTestDelay.toNat
      rw [hdelay]
      rfl
    · constructor
      · intro hyes
        exact absurd hyes hno
      · intro hf
        have hf : c.auth.authorized = true := hf
        rw [hauth] at hf
        cases hf
    · intro _
      apply List.Pairwise.nil
    · intro _ _ m hm
      cases hm
    · intro hf
      cases hf

/-- In every run whose steps all meet `HandoverSafe`, the hand-over is clean in every state. -/
theorem clean_of_run {hist : List (Pair × Pair.Act)} (hstart : s₀.IsStart h)
    (hrun : Run (Pair.Step h w) s₀ hist s) (hsafe : ∀ x ∈ hist, x.1.HandoverSafe h x.2) :
  (∀ x ∈ hist, x.1.Clean w) ∧ s.Clean w
  := by
  apply hrun.forall_of (Pair.HandoverSafe h) Kept (Pair.Clean w) (kept_of_isStart hstart) _ _ hsafe
  · intro s hkept
    apply hkept.clean
  · intro s a s' hkept hsafe hstep
    apply hkept.next hsafe hstep

end Kept

/-! ### A login for a tunnel that waits for a click -/

/-- A request for a tunnel without multiplexing. -/
def tunnelRequest : LoginRequest where
  union := some (.portForward { host := Str.empty, port := 22, multiplex := false })

/-- The connection has been opened. -/
def tunnelStart : Pair where
  controlled := Loop.sample linuxHost {}
  toController := (Loop.sample linuxHost {}).framed.map .framed
  sent := (Loop.sample linuxHost {}).framed

theorem isStart_tunnelStart :
  tunnelStart.IsStart linuxHost
  := ⟨_, Loop.isStart_sample rfl, rfl⟩

/-- The controller has answered the hash with its login. -/
def tunnelAsked : Pair :=
  { tunnelStart with toController := [] }.reacted
    (tunnelStart.controller.onMessage (some tunnelRequest) .hash)

/-- The controlled side waits for a click. -/
def tunnelWaiting : Pair :=
  { tunnelAsked with toControlled := [] }.turned
    (tunnelAsked.controlled.next linuxHost {} (.message (some (.loginRequest tunnelRequest))))

/-- The steps up to `tunnelWaiting`. -/
def tunnelLogin : List (Pair × Pair.Act) :=
  [(tunnelStart, .read (some tunnelRequest) .hash),
    (tunnelAsked, .receive {} (.message (some (.loginRequest tunnelRequest))))]

/-- The delay timer has sent a probe while the login waits. -/
def tunnelProbed : Pair :=
  tunnelWaiting.turned (tunnelWaiting.controlled.next linuxHost {} (.testDelayTimer false))

/-- The controller has answered the probe. -/
def tunnelAnswered : Pair :=
  { tunnelProbed with toController := [] }.reacted
    (tunnelProbed.controller.onMessage none .testDelay)

/-- The controlled side has read the answer. -/
def tunnelReplied : Pair :=
  { tunnelAnswered with toControlled := [] }.turned
    (tunnelAnswered.controlled.next linuxHost {} (.message (some (.testDelay false))))

/-- The controlled side gets the click. -/
def tunnelClicked : Pair :=
  tunnelReplied.turned (tunnelReplied.controlled.next linuxHost {} (.cm .authorize))

/-- The steps up to `tunnelClicked`. -/
def tunnelClick : List (Pair × Pair.Act) :=
  tunnelLogin ++ [(tunnelWaiting, .turn {} (.testDelayTimer false))]
    ++ [(tunnelProbed, .read none .testDelay)]
    ++ [(tunnelAnswered, .receive {} (.message (some (.testDelay false))))]
    ++ [(tunnelReplied, .turn {} (.cm .authorize))]

theorem run_tunnelLogin (w : Framing) :
  Run (Pair.Step linuxHost w) tunnelStart tunnelLogin tunnelWaiting
  := by
  have hhash : (Loop.sample linuxHost {}).framed = [.hash] := by decide
  apply Run.snoc (h := [_])
  · apply Run.snoc .nil
    apply Pair.Step.read (p := .framed .hash) rfl _ rfl
    · rintro lr ⟨⟩
      rfl
    · rw [tunnelStart, hhash]
      rfl
  · refine Pair.Step.receive (p := .framed (some (.loginRequest tunnelRequest))) rfl ?_ ?_
    · change some (Union.loginRequest tunnelRequest) = _
      rfl
    · refine ⟨rfl, ?_, rfl⟩
      intro d hd
      cases hd

theorem step_tunnelProbed (w : Framing) :
  Pair.Step linuxHost w tunnelWaiting (.turn {} (.testDelayTimer false)) tunnelProbed
  := by
  apply Pair.Step.turn rfl
  refine ⟨by decide, ?_, rfl⟩
  intro d hd
  cases hd

theorem toController_tunnelProbed :
  tunnelProbed.toController = [.framed .testDelay]
  := by
  have hwaiting : tunnelWaiting.controlled.framed = [] := by decide
  have hprobed : tunnelProbed.controlled.framed = [.testDelay] := by decide
  change [] ++ tunnelWaiting.controlled.framed.map Packet.framed
    ++ tunnelProbed.controlled.framed.map Packet.framed = _
  rw [hwaiting, hprobed]
  rfl

theorem run_tunnelClick (w : Framing) :
  Run (Pair.Step linuxHost w) tunnelStart tunnelClick tunnelClicked
  := by
  apply Run.snoc
  · apply Run.snoc
    · apply Run.snoc
      · apply (run_tunnelLogin w).snoc (step_tunnelProbed w)
      · apply Pair.Step.read (p := .framed .testDelay) rfl toController_tunnelProbed rfl
        rintro lr ⟨⟩
    · refine Pair.Step.receive (p := .framed (some (.testDelay false))) rfl ?_ ?_
      · change some (Union.testDelay false) = _
        rfl
      · refine ⟨by decide, ?_, rfl⟩
        intro d hd
        cases hd
  · apply Pair.Step.turn rfl
    refine ⟨by decide, ?_, rfl⟩
    intro _ _ _
    decide

/-- A click that comes when the answer to the delay probe has been read hands the tunnel over. -/
theorem clean_tunnelClicked :
  tunnelStart.IsStart linuxHost
    ∧ tunnelClicked.controlled.handedOver = true
    ∧ ∀ w, (∀ x ∈ tunnelClick, x.1.Clean w) ∧ tunnelClicked.Clean w
  := by
  refine ⟨isStart_tunnelStart, by decide, ?_⟩
  intro w
  apply clean_of_run isStart_tunnelStart (run_tunnelClick w)
  intro x hx
  simp only [tunnelClick, tunnelLogin, List.cons_append, List.nil_append, List.mem_cons,
    List.not_mem_nil, or_false] at hx
  rcases hx with rfl | rfl | rfl | rfl | rfl | rfl
  · intro _
    have hnil : tunnelStart.toControlled = [] := rfl
    constructor
    · decide
    · intro _
      apply And.intro (by decide)
      rintro ⟨msg, hmsg, -⟩
      rw [hnil] at hmsg
      cases hmsg
  · trivial
  · constructor
    · intro hauth
      exact absurd hauth (by decide)
    · intro hf
      cases hf
    · intro hf
      cases hf
  · trivial
  · trivial
  · have hnil : tunnelReplied.toControlled = [] := rfl
    constructor
    · intro hauth
      exact absurd hauth (by decide)
    · intro _ _
      decide
    · intro _ _ msg hmsg
      rw [hnil] at hmsg
      cases hmsg

/-- The click comes while the probe is outstanding. -/
def tunnelRaced : Pair :=
  tunnelProbed.turned (tunnelProbed.controlled.next linuxHost {} (.cm .authorize))

/-- The controller answers the probe. -/
def tunnelInjected : Pair :=
  { tunnelRaced with toController := [.framed (.peerInfo false)] }.reacted
    (tunnelRaced.controller.onMessage none .testDelay)

/-- The steps up to `tunnelInjected`. -/
def tunnelRace : List (Pair × Pair.Act) :=
  tunnelLogin ++ [(tunnelWaiting, .turn {} (.testDelayTimer false))]
    ++ [(tunnelProbed, .turn {} (.cm .authorize))] ++ [(tunnelRaced, .read none .testDelay)]

/-- A click that finds a delay probe outstanding hands the tunnel over, and the answer to the probe
goes to the target. -/
theorem not_clean_tunnelInjected :
  tunnelStart.IsStart linuxHost
    ∧ (∀ w, Run (Pair.Step linuxHost w) tunnelStart tunnelRace tunnelInjected)
    ∧ tunnelInjected.controlled.handedOver = true
    ∧ tunnelInjected.toControlled = [.framed (some (.testDelay false))]
    ∧ ∀ w, ¬ tunnelInjected.Clean w
  := by
  have hhanded : tunnelInjected.controlled.handedOver = true := by decide
  have hunread : tunnelInjected.toControlled = [.framed (some (.testDelay false))] := rfl
  refine ⟨isStart_tunnelStart, ?_, hhanded, hunread, ?_⟩
  · intro w
    apply Run.snoc
    · apply Run.snoc
      · apply (run_tunnelLogin w).snoc (step_tunnelProbed w)
      · apply Pair.Step.turn rfl
        refine ⟨by decide, ?_, rfl⟩
        intro _ _ _
        decide
    · apply Pair.Step.read (p := .framed .testDelay) rfl _ rfl
      · rintro lr ⟨⟩
      · have hraced : tunnelRaced.controlled.framed = [.peerInfo false] := by decide
        change tunnelProbed.toController ++ tunnelRaced.controlled.framed.map Packet.framed = _
        rw [toController_tunnelProbed, hraced]
        rfl
  · intro w hclean
    have hraw := hclean.unread hhanded
    rw [hunread] at hraw
    apply hraw _ (List.mem_singleton_self _)

end VynxDesk
