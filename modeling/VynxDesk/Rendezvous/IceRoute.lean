import Mathlib.Logic.Function.Basic
import VynxDesk.Lib.Run
import VynxDesk.Lib.Window

/-!
# Remote ICE candidates

The answerer of a WebRTC session gets the candidates of its peer through a channel of bounded
capacity, and `WEBRTC_ICE_TXS` of `src/rendezvous_mediator.rs` holds the route to the channel of
each session.  `IceRoute::queue` skips a candidate whose digest is among the last it has queued.
Answerers for one session come and go while candidates arrive.  On each channel no candidate is
queued again within the window, and a peer with few candidates has each queued once
(`queued_of_run`); a route stays the one of its answerer until that one is evicted or replaced
(`route_of_spawn`).
-/

namespace VynxDesk.IceRoutes

open Window

/-- `MAX_PENDING_REMOTE_ICE`. -/
def maxPendingRemoteIce : ℕ := 64

/-- `ICE_DEDUP_WINDOW`. -/
def iceDedupWindow : ℕ := 256

/-- A channel: all that was sent on it, how much of that was received, and whether its receiver is
gone. -/
structure Channel where
  sent : List String := []
  received : ℕ := 0
  closed : Bool := false
  deriving DecidableEq

/-- What waits in a channel. -/
def Channel.pending (c : Channel) : List String :=
  c.sent.drop c.received

/-- `try_send`: it fails when the channel is closed or full. -/
def Channel.trySend (c : Channel) (candidate : String) : Option Channel :=
  if c.closed ∨ maxPendingRemoteIce ≤ c.pending.length then none
  else some { c with sent := c.sent ++ [candidate] }

/-- `recv` of the receiver. -/
def Channel.recv (c : Channel) : Channel :=
  if c.received < c.sent.length then { c with received := c.received + 1 } else c

/-- `IceRoute`, with the number of its channel. -/
structure IceRoute where
  tx : ℕ
  recent : List ℕ := []
  deriving DecidableEq

/-- `queue`, with the channel of the route: the answer, and what the two become. -/
def IceRoute.queue (digest : String → ℕ) (route : IceRoute) (channel : Channel)
    (candidate : String) : Bool × IceRoute × Channel :=
  if digest candidate ∈ route.recent then (!channel.closed, route, channel)
  else
    match channel.trySend candidate with
    | none => (false, route, channel)
    | some channel =>
        let full : Bool := iceDedupWindow ≤ route.recent.length
        (true, { route with recent := pushBack full route.recent (digest candidate) }, channel)

/-- The state: `WEBRTC_ICE_TXS`, the channels, how many there are, and the answerers whose end is
still to come, each with the key of its session. -/
structure State where
  routes : String → Option IceRoute := fun _ => none
  channels : ℕ → Channel := fun _ => {}
  next : ℕ := 0
  answerers : ℕ → Option String := fun _ => none

/-- The events: `spawn_webrtc_answerer` makes a channel; a candidate arrives from the rendezvous
server; a receiver takes a candidate or is gone; `wait_connected` of an answerer is over. -/
inductive Event where
  | spawn (sessionKey : String)
  | candidate (sessionKey candidate : String)
  | recv (tx : ℕ)
  | close (tx : ℕ)
  | cleanup (tx : ℕ)
  deriving DecidableEq

namespace State

variable (digest : String → ℕ) (s : State)

def spawn (sessionKey : String) : State where
  routes := Function.update s.routes sessionKey (some { tx := s.next })
  channels := s.channels
  next := s.next + 1
  answerers := Function.update s.answerers s.next (some sessionKey)

/-- The handling of a candidate: the answer of `queue`, when there is a route, and the state. -/
def candidate (sessionKey candidate : String) : Option Bool × State :=
  match s.routes sessionKey with
  | none => (none, s)
  | some route =>
      let r := route.queue digest (s.channels route.tx) candidate
      (some r.1,
        { s with
          routes := Function.update s.routes sessionKey (some r.2.1)
          channels := Function.update s.channels route.tx r.2.2 })

/-- The end of an answerer: it evicts its own route only. -/
def cleanup (tx : ℕ) : State :=
  match s.answerers tx with
  | none => s
  | some sessionKey =>
      let answerers := Function.update s.answerers tx none
      match s.routes sessionKey with
      | some route =>
          if route.tx = tx then
            { s with answerers, routes := Function.update s.routes sessionKey none }
          else { s with answerers }
      | none => { s with answerers }

/-- The receiver of a channel changes it. -/
def receive (tx : ℕ) (c : Channel) : State :=
  if tx < s.next then { s with channels := Function.update s.channels tx c } else s

def step : Event → State
  | .spawn sessionKey => s.spawn sessionKey
  | .candidate sessionKey candidate => (s.candidate digest sessionKey candidate).2
  | .recv tx => s.receive tx (s.channels tx).recv
  | .close tx => s.receive tx { s.channels tx with closed := true }
  | .cleanup tx => s.cleanup tx

end State

/-- A step of the process. -/
def Step (digest : String → ℕ) (s : State) (e : Event) (s' : State) : Prop :=
  s' = s.step digest e

/-! ### What holds along a run -/

variable {digest : String → ℕ} {s s' : State} {h : List (State × Event)}

/-- A channel: the digests are apart, and no more candidates wait than there is room for. -/
structure Channel.Valid (digest : String → ℕ) (c : Channel) : Prop where
  apart : Apart iceDedupWindow (c.sent.map digest)
  received : c.received ≤ c.sent.length
  pending : c.pending.length ≤ maxPendingRemoteIce

/-- The invariant: each route leads to the channel of an answerer of its session, and remembers the
last digests of what was sent on it. -/
structure Inv (digest : String → ℕ) (s : State) : Prop where
  valid : ∀ tx, (s.channels tx).Valid digest
  fresh : ∀ tx, s.next ≤ tx → s.channels tx = {} ∧ s.answerers tx = none
  answerer : ∀ key route, s.routes key = some route → s.answerers route.tx = some key
  recent : ∀ key route, s.routes key = some route →
    route.recent = ((s.channels route.tx).sent.map digest).rtake iceDedupWindow

theorem Channel.valid_default :
  Channel.Valid digest {} where
  apart := Apart.nil
  received := le_refl 0
  pending := by decide

theorem Channel.Valid.recv {c : Channel} (hc : c.Valid digest) :
  c.recv.Valid digest
  := by
  rw [Channel.recv]
  split_ifs with hmore
  · refine ⟨hc.apart, hmore, ?_⟩
    have hpending := hc.pending
    rw [Channel.pending, List.length_drop] at hpending ⊢
    dsimp only
    omega
  · exact hc

/-- What `trySend` accepts waits at the end of the channel. -/
theorem Channel.Valid.trySend {c c' : Channel} {candidate : String} (hc : c.Valid digest)
    (hapart : digest candidate ∉ (c.sent.map digest).rtake iceDedupWindow)
    (hsend : c.trySend candidate = some c') :
  c'.Valid digest ∧ c'.sent = c.sent ++ [candidate]
  := by
  rw [Channel.trySend] at hsend
  split_ifs at hsend with hfull
  obtain rfl := Option.some.inj hsend
  have hreceived := hc.received
  have hroom : c.pending.length < maxPendingRemoteIce := by
    rw [not_or, Nat.not_le] at hfull
    exact hfull.2
  refine ⟨⟨?_, ?_, ?_⟩, rfl⟩
  · rw [List.map_append]
    exact hc.apart.snoc hapart
  · simp only [List.length_append, List.length_singleton]
    omega
  · rw [Channel.pending, List.length_drop] at hroom ⊢
    simp only [List.length_append, List.length_singleton]
    omega

/-- `queue` keeps a valid channel and its window.  When it answers that it has the candidate, one of
its digest was sent; when it answers that it dropped it, nothing has changed. -/
theorem queue_spec {route : IceRoute} {c : Channel} (hc : c.Valid digest)
    (hrecent : route.recent = (c.sent.map digest).rtake iceDedupWindow) (candidate : String) :
  (route.queue digest c candidate).2.1.tx = route.tx ∧
    (route.queue digest c candidate).2.2.Valid digest ∧
    (route.queue digest c candidate).2.1.recent =
      ((route.queue digest c candidate).2.2.sent.map digest).rtake iceDedupWindow ∧
    ((route.queue digest c candidate).2.2.sent = c.sent ∨
      (route.queue digest c candidate).2.2.sent = c.sent ++ [candidate]) ∧
    ((route.queue digest c candidate).1 = true →
      digest candidate ∈ (route.queue digest c candidate).2.2.sent.map digest) ∧
    ((route.queue digest c candidate).1 = false → (route.queue digest c candidate).2 = (route, c))
  := by
  rw [IceRoute.queue]
  split_ifs with hknown
  · refine ⟨rfl, hc, hrecent, .inl rfl, ?_, fun _ => rfl⟩
    intro _
    rw [hrecent] at hknown
    exact List.mem_of_mem_drop hknown
  · cases hsend : c.trySend candidate with
    | none =>
        refine ⟨rfl, hc, hrecent, .inl rfl, ?_, fun _ => rfl⟩
        intro htrue
        cases htrue
    | some c' =>
        have hapart : digest candidate ∉ (c.sent.map digest).rtake iceDedupWindow := by
          rwa [← hrecent]
        obtain ⟨hvalid, hsent⟩ := hc.trySend hapart hsend
        refine ⟨rfl, hvalid, ?_, .inr hsent, ?_, ?_⟩
        · dsimp only
          rw [hsent, List.map_append, List.map_singleton, hrecent]
          exact pushBack_rtake (by decide) _ _
        · intro _
          dsimp only
          rw [hsent]
          simp
        · intro hfalse
          cases hfalse

theorem inv_start :
  Inv digest {} where
  valid _ := Channel.valid_default
  fresh _ _ := ⟨rfl, rfl⟩
  answerer := by simp
  recent := by simp

/-- Routes of different sessions lead to different channels. -/
theorem Inv.key_eq (hinv : Inv digest s) {key key' : String} {route route' : IceRoute}
    (hroute : s.routes key = some route) (hroute' : s.routes key' = some route')
    (htx : route.tx = route'.tx) :
  key = key'
  := by
  have h := hinv.answerer key route hroute
  rw [htx, hinv.answerer key' route' hroute'] at h
  exact (Option.some.inj h).symm

/-- A route behind an update of one session is that one or another one. -/
theorem update_eq_some {routes : String → Option IceRoute} {key key' : String}
    {r : Option IceRoute} {route : IceRoute}
    (h : Function.update routes key r key' = some route) :
  (key' = key ∧ r = some route) ∨ (key' ≠ key ∧ routes key' = some route)
  := by
  by_cases hkey : key' = key
  · subst hkey
    rw [Function.update_self] at h
    exact .inl ⟨rfl, h⟩
  · rw [Function.update_of_ne hkey] at h
    exact .inr ⟨hkey, h⟩

theorem Inv.spawn (hinv : Inv digest s) (sessionKey : String) :
  Inv digest (s.spawn sessionKey)
  := by
  have hnew := (hinv.fresh s.next (le_refl _)).1
  constructor
  · exact hinv.valid
  · intro tx htx
    have hlt : s.next < tx := htx
    refine ⟨(hinv.fresh tx hlt.le).1, ?_⟩
    exact (Function.update_of_ne hlt.ne' ..).trans (hinv.fresh tx hlt.le).2
  · intro key route hroute
    rcases update_eq_some hroute with ⟨rfl, heq⟩ | ⟨-, hroute'⟩
    · obtain rfl := Option.some.inj heq
      exact Function.update_self ..
    · have hanswerer := hinv.answerer key route hroute'
      have hne : route.tx ≠ s.next := by
        intro heq
        rw [heq, (hinv.fresh s.next (le_refl _)).2] at hanswerer
        cases hanswerer
      exact (Function.update_of_ne hne ..).trans hanswerer
  · intro key route hroute
    rcases update_eq_some hroute with ⟨rfl, heq⟩ | ⟨-, hroute'⟩
    · obtain rfl := Option.some.inj heq
      change [] = ((s.channels s.next).sent.map digest).rtake iceDedupWindow
      simp [hnew]
    · exact hinv.recent key route hroute'

theorem Inv.cleanup (hinv : Inv digest s) (tx : ℕ) :
  Inv digest (s.cleanup tx)
  := by
  rw [State.cleanup]
  cases hanswerer : s.answerers tx with
  | none => exact hinv
  | some sessionKey =>
      have hfresh : ∀ tx', s.next ≤ tx' →
          s.channels tx' = {} ∧ Function.update s.answerers tx none tx' = none := by
        intro tx' htx'
        refine ⟨(hinv.fresh tx' htx').1, ?_⟩
        by_cases heq : tx' = tx
        · rw [heq, Function.update_self]
        · rw [Function.update_of_ne heq]
          exact (hinv.fresh tx' htx').2
      -- a route that does not lead to `tx` keeps its answerer
      have hothers : ∀ key route, s.routes key = some route → route.tx ≠ tx →
          Function.update s.answerers tx none route.tx = some key := by
        intro key route hroute hne
        exact (Function.update_of_ne hne ..).trans (hinv.answerer key route hroute)
      have hkey : ∀ key route, s.routes key = some route → route.tx = tx → key = sessionKey := by
        intro key route hroute htx
        have h := hinv.answerer key route hroute
        rw [htx, hanswerer] at h
        exact (Option.some.inj h).symm
      dsimp only
      cases hroute : s.routes sessionKey with
      | none =>
          refine ⟨hinv.valid, hfresh, ?_, hinv.recent⟩
          intro key route hroute'
          apply hothers key route hroute'
          intro htx
          obtain rfl := hkey key route hroute' htx
          rw [hroute] at hroute'
          cases hroute'
      | some route =>
          dsimp only
          split_ifs with htx
          · refine ⟨hinv.valid, hfresh, ?_, ?_⟩
            · intro key route' hroute'
              rcases update_eq_some hroute' with ⟨-, heq⟩ | ⟨hne, hroute''⟩
              · cases heq
              · apply hothers key route' hroute''
                intro htx'
                exact hne (hkey key route' hroute'' htx')
            · intro key route' hroute'
              rcases update_eq_some hroute' with ⟨-, heq⟩ | ⟨-, hroute''⟩
              · cases heq
              · exact hinv.recent key route' hroute''
          · refine ⟨hinv.valid, hfresh, ?_, hinv.recent⟩
            intro key route' hroute'
            apply hothers key route' hroute'
            intro htx'
            obtain rfl := hkey key route' hroute' htx'
            rw [hroute] at hroute'
            obtain rfl := Option.some.inj hroute'
            exact htx htx'

/-- A channel behind an update of one of them. -/
theorem valid_update {channels : ℕ → Channel} (hvalid : ∀ tx, (channels tx).Valid digest) {tx : ℕ}
    {c : Channel} (hc : c.Valid digest) (tx' : ℕ) :
  (Function.update channels tx c tx').Valid digest
  := by
  by_cases heq : tx' = tx
  · rw [heq, Function.update_self]
    exact hc
  · rw [Function.update_of_ne heq]
    exact hvalid tx'

/-- A change of a channel by its receiver keeps what was sent. -/
theorem Inv.receive (hinv : Inv digest s) {tx : ℕ} {c : Channel} (hc : c.Valid digest)
    (hsent : c.sent = (s.channels tx).sent) :
  Inv digest (s.receive tx c)
  := by
  rw [State.receive]
  split_ifs with htx
  · have hsame : ∀ tx', (Function.update s.channels tx c tx').sent = (s.channels tx').sent := by
      intro tx'
      by_cases heq : tx' = tx
      · rw [heq, Function.update_self, hsent]
      · rw [Function.update_of_ne heq]
    refine ⟨valid_update hinv.valid hc, ?_, hinv.answerer, ?_⟩
    · intro tx' htx'
      refine ⟨?_, (hinv.fresh tx' htx').2⟩
      have hne : tx' ≠ tx := (htx.trans_le htx').ne'
      exact (Function.update_of_ne hne ..).trans (hinv.fresh tx' htx').1
    · intro key route hroute
      rw [hinv.recent key route hroute]
      dsimp only
      rw [hsame]
  · exact hinv

/-- A route leads to a channel that there is. -/
theorem Inv.tx_lt (hinv : Inv digest s) {key : String} {route : IceRoute}
    (hroute : s.routes key = some route) :
  route.tx < s.next
  := by
  by_contra hge
  have hanswerer := hinv.answerer key route hroute
  rw [(hinv.fresh route.tx (Nat.le_of_not_lt hge)).2] at hanswerer
  cases hanswerer

theorem Inv.candidate (hinv : Inv digest s) (sessionKey candidate : String) :
  Inv digest (s.candidate digest sessionKey candidate).2
  := by
  rw [State.candidate]
  cases hroute : s.routes sessionKey with
  | none => exact hinv
  | some route =>
      obtain ⟨htx, hvalid, hrecent, -⟩ :=
        queue_spec (hinv.valid route.tx) (hinv.recent sessionKey route hroute) candidate
      have hlt := hinv.tx_lt hroute
      refine ⟨valid_update hinv.valid hvalid, ?_, ?_, ?_⟩
      · intro tx' htx'
        refine ⟨?_, (hinv.fresh tx' htx').2⟩
        exact (Function.update_of_ne (hlt.trans_le htx').ne' ..).trans (hinv.fresh tx' htx').1
      · intro key route' hroute'
        rcases update_eq_some hroute' with ⟨rfl, heq⟩ | ⟨-, hroute''⟩
        · obtain rfl := Option.some.inj heq
          rw [htx]
          exact hinv.answerer key route hroute
        · exact hinv.answerer key route' hroute''
      · intro key route' hroute'
        rcases update_eq_some hroute' with ⟨rfl, heq⟩ | ⟨hne, hroute''⟩
        · obtain rfl := Option.some.inj heq
          dsimp only
          rw [htx, Function.update_self]
          exact hrecent
        · have hother : route'.tx ≠ route.tx := by
            intro heq
            exact hne (hinv.key_eq hroute'' hroute heq)
          dsimp only
          rw [Function.update_of_ne hother]
          exact hinv.recent key route' hroute''

theorem Inv.step (hinv : Inv digest s) (e : Event) :
  Inv digest (s.step digest e)
  := by
  cases e with
  | spawn sessionKey => exact hinv.spawn sessionKey
  | candidate sessionKey candidate => exact hinv.candidate sessionKey candidate
  | recv tx =>
      apply hinv.receive (hinv.valid tx).recv
      rw [Channel.recv]
      split_ifs <;> rfl
  | close tx =>
      have hvalid := hinv.valid tx
      exact hinv.receive ⟨hvalid.apart, hvalid.received, hvalid.pending⟩ rfl
  | cleanup tx => exact hinv.cleanup tx

theorem inv_of_run (hrun : Run (Step digest) {} h s) :
  Inv digest s
  := by
  apply hrun.invariant (Inv digest) inv_start
  rintro s e s' hinv rfl
  exact hinv.step e

/-! ### What was sent -/

/-- The candidate `c` arrived when its route led to the channel `tx`. -/
def Arrived (tx : ℕ) (c : String) (x : State × Event) : Prop :=
  ∃ key route, x.2 = .candidate key c ∧ x.1.routes key = some route ∧ route.tx = tx

/-- What a step sends on a channel is a candidate that has arrived for it. -/
theorem sent_step (hinv : Inv digest s) (e : Event) (tx : ℕ) :
  ((s.step digest e).channels tx).sent = (s.channels tx).sent ∨
    ∃ c, Arrived tx c (s, e) ∧
      ((s.step digest e).channels tx).sent = (s.channels tx).sent ++ [c]
  := by
  have hreceive : ∀ {tx'} {c : Channel}, c.sent = (s.channels tx').sent →
      ((s.receive tx' c).channels tx).sent = (s.channels tx).sent := by
    intro tx' c hsent
    rw [State.receive]
    split_ifs
    · dsimp only
      by_cases heq : tx = tx'
      · rw [heq, Function.update_self, hsent]
      · rw [Function.update_of_ne heq]
    · rfl
  cases e with
  | spawn sessionKey => exact .inl rfl
  | candidate sessionKey candidate =>
      change ((s.candidate digest sessionKey candidate).2.channels tx).sent = _ ∨ ∃ c, _ ∧
        ((s.candidate digest sessionKey candidate).2.channels tx).sent = _
      rw [State.candidate]
      cases hroute : s.routes sessionKey with
      | none => exact .inl rfl
      | some route =>
          obtain ⟨-, -, -, hsent, -⟩ :=
            queue_spec (hinv.valid route.tx) (hinv.recent sessionKey route hroute) candidate
          dsimp only
          by_cases heq : tx = route.tx
          · subst heq
            rw [Function.update_self]
            exact hsent.imp_right fun hsent =>
              ⟨candidate, ⟨sessionKey, route, rfl, hroute, rfl⟩, hsent⟩
          · rw [Function.update_of_ne heq]
            exact .inl rfl
  | recv tx' =>
      apply Or.inl
      apply hreceive
      rw [Channel.recv]
      split_ifs <;> rfl
  | close tx' => exact .inl (hreceive rfl)
  | cleanup tx' =>
      apply Or.inl
      change ((s.cleanup tx').channels tx).sent = _
      rw [State.cleanup]
      split
      · rfl
      · dsimp only
        split
        · split_ifs <;> rfl
        · rfl

/-- The candidate `c` arrived for the channel `tx`, and the answer was that it is queued. -/
def Taken (digest : String → ℕ) (tx : ℕ) (c : String) (x : State × Event) : Prop :=
  ∃ key route, x.2 = .candidate key c ∧ x.1.routes key = some route ∧ route.tx = tx ∧
    (x.1.candidate digest key c).1 = some true

/-- A candidate that is taken was sent, then or before. -/
theorem sent_of_taken (hinv : Inv digest s) {e : Event} {tx : ℕ} {c : String}
    (htaken : Taken digest tx c (s, e)) :
  digest c ∈ ((s.step digest e).channels tx).sent.map digest
  := by
  obtain ⟨key, route, rfl, hroute, rfl, hanswer⟩ := htaken
  obtain ⟨-, -, -, -, htrue, -⟩ :=
    queue_spec (hinv.valid route.tx) (hinv.recent key route hroute) c
  change digest c ∈ ((s.candidate digest key c).2.channels route.tx).sent.map digest
  rw [State.candidate, hroute] at hanswer ⊢
  dsimp only at hanswer ⊢
  rw [Function.update_self]
  exact htrue (Option.some.inj hanswer)

/-- What was sent on a channel has arrived for it, and what was taken for it was sent. -/
theorem sent_of_run (hrun : Run (Step digest) {} h s) (tx : ℕ) :
  (∀ c ∈ (s.channels tx).sent, ∃ x ∈ h, Arrived tx c x) ∧
    ∀ x ∈ h, ∀ c, Taken digest tx c x → digest c ∈ (s.channels tx).sent.map digest
  := by
  apply hrun.history_invariant fun h s =>
    (∀ c ∈ (s.channels tx).sent, ∃ x ∈ h, Arrived tx c x) ∧
      ∀ x ∈ h, ∀ c, Taken digest tx c x → digest c ∈ (s.channels tx).sent.map digest
  · simp
  · rintro h s e s' hrun ⟨harrived, htaken⟩ rfl
    have hinv := inv_of_run hrun
    have hsent := sent_step hinv e tx
    constructor
    · intro c hc
      have hold : ∀ c ∈ (s.channels tx).sent, ∃ x ∈ h ++ [(s, e)], Arrived tx c x := by
        intro c hc
        obtain ⟨x, hx, harr⟩ := harrived c hc
        exact ⟨x, List.mem_append_left _ hx, harr⟩
      rcases hsent with heq | ⟨c', harr, heq⟩
      · rw [heq] at hc
        exact hold c hc
      · rw [heq, List.mem_append, List.mem_singleton] at hc
        rcases hc with hc | rfl
        · exact hold c hc
        · exact ⟨(s, e), List.mem_append_right _ (List.mem_singleton_self _), harr⟩
    · intro x hx c hx'
      rw [List.mem_append, List.mem_singleton] at hx
      rcases hx with hx | rfl
      · have hmem := htaken x hx c hx'
        rcases hsent with heq | ⟨c', -, heq⟩
        · rwa [heq]
        · rw [heq, List.map_append]
          exact List.mem_append_left _ hmem
      · exact sent_of_taken hinv hx'

/-- On each channel no candidate is sent while its digest is among the last 256, at most 64 wait,
and what was taken was sent, up to its digest.  When at most 256 digests arrive for it, each is sent
once. -/
theorem queued_of_run (hrun : Run (Step digest) {} h s) (tx : ℕ) :
  Apart 256 ((s.channels tx).sent.map digest) ∧ (s.channels tx).pending.length ≤ 64 ∧
    (∀ x ∈ h, ∀ c, Taken digest tx c x → digest c ∈ (s.channels tx).sent.map digest) ∧
    ∀ digests : Finset ℕ, digests.card ≤ 256 →
      (∀ x ∈ h, ∀ c, Arrived tx c x → digest c ∈ digests) →
      ((s.channels tx).sent.map digest).Nodup
  := by
  have hvalid := (inv_of_run hrun).valid tx
  obtain ⟨harrived, htaken⟩ := sent_of_run hrun tx
  refine ⟨hvalid.apart, hvalid.pending, htaken, ?_⟩
  intro digests hcard hdigests
  apply hvalid.apart.nodup _ hcard
  intro d hd
  obtain ⟨c, hc, rfl⟩ := List.mem_map.mp hd
  obtain ⟨x, hx, harr⟩ := harrived c hc
  exact hdigests x hx c harr

/-- A candidate, the same again, and another one. -/
def sampleEvents : List Event :=
  [.spawn "k", .candidate "k" "host", .candidate "k" "host", .candidate "k" "relay"]

theorem queued_of_run_sample :
  (((sampleEvents.foldl (State.step String.length) {}).channels 0).sent.map String.length).Nodup
  := by
  have hrun : Run (Step String.length) {} (Run.trace (State.step String.length) {} sampleEvents)
      (sampleEvents.foldl (State.step String.length) {}) :=
        Run.of_next (R := Step String.length) (fun _ _ => rfl) _ _
  apply (queued_of_run hrun 0).2.2.2 {4, 5} (by decide)
  rintro x hx c ⟨key, route, hevent, -⟩
  have hmem : x.2 ∈ sampleEvents := by
    simp only [sampleEvents, Run.trace, List.mem_cons, List.not_mem_nil, or_false] at hx ⊢
    rcases hx with rfl | rfl | rfl | rfl <;> simp
  rw [hevent] at hmem
  simp only [sampleEvents, List.mem_cons, List.not_mem_nil, or_false, Event.candidate.injEq,
    reduceCtorEq, false_or] at hmem
  rcases hmem with ⟨-, rfl⟩ | ⟨-, rfl⟩ | ⟨-, rfl⟩ <;> decide

/-- The route of an answerer stays its own until another answerer of the session is spawned or this
one is done: the end of an earlier one does not evict it. -/
theorem route_of_spawn {before after : List (State × Event)} {s₀ : State} {key : String}
    (hrun : Run (Step digest) {} (before ++ (s₀, .spawn key) :: after) s)
    (hspawn : ∀ y ∈ after, y.2 ≠ .spawn key) (hcleanup : ∀ y ∈ after, y.2 ≠ .cleanup s₀.next) :
  ∃ route, s.routes key = some route ∧ route.tx = s₀.next
  := by
  apply (hrun.after (fun s => ∃ route, s.routes key = some route ∧ route.tx = s₀.next) _ _).2
  · rintro s' rfl
    exact ⟨{ tx := s₀.next }, Function.update_self .., rfl⟩
  · rintro ⟨s₁, e⟩ hy s₂ ⟨route, hroute, htx⟩ rfl
    cases e with
    | spawn key' =>
        have hne : key ≠ key' := by
          rintro rfl
          exact hspawn _ hy rfl
        exact ⟨route, (Function.update_of_ne hne ..).trans hroute, htx⟩
    | candidate key' c =>
        change ∃ route, (s₁.candidate digest key' c).2.routes key = some route ∧ _
        rw [State.candidate]
        cases hroute' : s₁.routes key' with
        | none => exact ⟨route, hroute, htx⟩
        | some route' =>
            by_cases hkey : key = key'
            · subst hkey
              rw [hroute] at hroute'
              obtain rfl := Option.some.inj hroute'
              refine ⟨_, Function.update_self .., ?_⟩
              rw [IceRoute.queue]
              split_ifs
              · exact htx
              · split <;> exact htx
            · exact ⟨route, (Function.update_of_ne hkey ..).trans hroute, htx⟩
    | recv tx =>
        change ∃ route, (s₁.receive tx _).routes key = some route ∧ _
        rw [State.receive]
        split_ifs <;> exact ⟨route, hroute, htx⟩
    | close tx =>
        change ∃ route, (s₁.receive tx _).routes key = some route ∧ _
        rw [State.receive]
        split_ifs <;> exact ⟨route, hroute, htx⟩
    | cleanup tx =>
        have hne : s₀.next ≠ tx := by
          rintro rfl
          exact hcleanup _ hy rfl
        change ∃ route, (s₁.cleanup tx).routes key = some route ∧ _
        rw [State.cleanup]
        cases hanswerer : s₁.answerers tx with
        | none => exact ⟨route, hroute, htx⟩
        | some key' =>
            dsimp only
            cases hroute' : s₁.routes key' with
            | none => exact ⟨route, hroute, htx⟩
            | some route' =>
                dsimp only
                split_ifs with hsame
                · have hkey : key ≠ key' := by
                    rintro rfl
                    rw [hroute] at hroute'
                    obtain rfl := Option.some.inj hroute'
                    exact hne (htx.symm.trans hsame)
                  exact ⟨route, (Function.update_of_ne hkey ..).trans hroute, htx⟩
                · exact ⟨route, hroute, htx⟩

/-- Two answerers of a session, and the end of the first. -/
def sampleRespawn : List Event :=
  [.spawn "k", .spawn "k", .cleanup 0]

theorem route_of_spawn_sample :
  ∃ route, (sampleRespawn.foldl (State.step String.length) {}).routes "k" = some route ∧
    route.tx = 1
  := by
  have hrun : Run (Step String.length) {} (Run.trace (State.step String.length) {} sampleRespawn)
      (sampleRespawn.foldl (State.step String.length) {}) :=
        Run.of_next (R := Step String.length) (fun _ _ => rfl) _ _
  let first : State := State.step String.length {} (.spawn "k")
  apply @route_of_spawn _ _ [({}, .spawn "k")]
    [(first.step String.length (.spawn "k"), .cleanup 0)] first "k" hrun
  · intro y hy
    obtain rfl := List.mem_singleton.mp hy
    simp
  · intro y hy
    obtain rfl := List.mem_singleton.mp hy
    intro heq
    cases heq

end VynxDesk.IceRoutes
