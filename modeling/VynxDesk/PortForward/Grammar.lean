import VynxDesk.PortForward.Inbound

/-!
# What a channel puts on the wire

The frames of one channel follow a grammar (`Chan.Grammar`), on both ends and whatever the peer
sends.  The invariant is `Chan.Course`: what the task has sent so far, and how its relays stand,
by the stage it has reached.
-/

namespace VynxDesk.Mux

/-- The frame goes to the ordered queue of the controller: every frame but `window_update`. -/
def isOrdered : PortForwardChannel → Bool
  | .windowUpdate _ _ => false
  | _ => true

/-- The frame is a `data` frame. -/
def isData : PortForwardChannel → Bool
  | .data _ _ => true
  | _ => false

/-- The first frame of a channel that runs. -/
def Greets (side : Side) (id : ChannelId) (m : PortForwardChannel) : Prop :=
  match side with
  | .controller => ∃ host port, m = .openCh id host port channelWindow
  | .controlled => m = .opened id true "" channelWindow

/-- A frame of a relay. -/
def IsBody (id : ChannelId) (m : PortForwardChannel) : Prop :=
  (∃ data, m = .data id data) ∨ ∃ add, m = .windowUpdate id add

namespace Chan

/-- What a channel may have sent so far. -/
inductive Grammar (side : Side) (id : ChannelId) : List PortForwardChannel → Prop where
  | nothing : Grammar side id []
  | refused (hside : side = .controlled) (reason : String) :
      Grammar side id [.opened id false reason 0]
  | closed (hside : side = .controlled) : Grammar side id [.close id]
  | running {g : PortForwardChannel} {body : List PortForwardChannel} (hg : Greets side id g)
      (hbody : ∀ m ∈ body, IsBody id m) : Grammar side id (g :: body)
  | parted {g : PortForwardChannel} {body : List PortForwardChannel} (hg : Greets side id g)
      (hbody : ∀ m ∈ body, IsBody id m) : Grammar side id (g :: body ++ [.close id])

/-- The first frame has been sent, and then frames of the relays. -/
def Running (side : Side) (c : Chan) (l : List PortForwardChannel) : Prop :=
  ∃ g body, Greets side c.id g ∧ (∀ m ∈ body, IsBody c.id m) ∧ l = g :: body

/-- Both relays have ended, and `closed` tells whether the peer is told. -/
def Joined (closed : Bool) (c : Chan) : Prop :=
  ∃ first second, c.toTunnel = .done first ∧ c.toSocket = .done second
    ∧ closes first second = closed

/-- The relays have not been started. -/
structure Unrelayed (c : Chan) : Prop where
  sent : c.sent = []
  toTunnel : c.toTunnel = .take
  toSocket : c.toSocket = .next

/-- How a task may have ended. -/
inductive Over (side : Side) (c : Chan) : Prop where
  | silent (hrelay : c.Unrelayed) (hwhy : c.refused = true ∨ c.broke = some .peerClosed
      ∨ c.broke = some .tunnelGone)
  | unreachable (hside : side = .controlled) (htunnel : c.toTunnel = .take)
      (hsocket : c.toSocket = .next) (hbroke : c.broke = none)
      (hsent : ∃ reason, c.sent = [.opened c.id false reason 0])
  | overran (hside : side = .controlled) (htunnel : c.toTunnel = .take)
      (hsocket : c.toSocket = .next) (hbroke : c.broke = some .violation)
      (hsent : c.sent = [.close c.id])
  | left (hrun : c.Running side c.sent) (hjoined : c.Joined false ∨ c.refused = true)
      (hbroke : c.broke = none)
  | parted {l : List PortForwardChannel} (hrun : c.Running side l) (hjoined : c.Joined true)
      (hbroke : c.broke = none) (hsent : c.sent = l ++ [.close c.id])

/-- What has been sent, by the stage the task has reached. -/
def Course (side : Side) (c : Chan) : Prop :=
  match c.stage with
  | .connecting _ _ _ | .granting => side = .controlled ∧ c.Unrelayed ∧ c.broke = none
  | .greeting m => Greets side c.id m ∧ c.Unrelayed ∧ c.broke = none
  | .relaying => c.Running side c.sent ∧ c.broke = none
  | .parting m =>
      (m = .close c.id ∧ c.Running side c.sent ∧ c.Joined true ∧ c.broke = none)
        ∨ (side = .controlled ∧ c.Unrelayed ∧ m = .close c.id ∧ c.broke = some .violation)
        ∨ (side = .controlled ∧ c.Unrelayed ∧ c.broke = none
            ∧ ∃ reason, m = .opened c.id false reason 0)
  | .ended => c.Over side

variable {side : Side} {c c' : Chan} {t : Teardown} {out : Output} {l : List PortForwardChannel}
  {down gone : Bool} {m : PortForwardChannel}

theorem course_start (h : Start side c) :
  c.Course side
  := by
  cases h with
  | controlled id addr isRdp window => exact ⟨rfl, ⟨rfl, rfl, rfl⟩, rfl⟩
  | controller id host port prebuf => exact ⟨⟨host, port, rfl⟩, ⟨rfl, rfl, rfl⟩, rfl⟩

theorem Running.snoc (h : c.Running side l) (hm : IsBody c.id m) :
  c.Running side (l ++ [m])
  := by
  obtain ⟨g, body, hg, hbody, rfl⟩ := h
  use g, body ++ [m], hg
  apply And.intro _ rfl
  rw [List.forall_mem_append, List.forall_mem_singleton]
  exact ⟨hbody, hm⟩

/-- What is done to a channel that is running leaves it running. -/
theorem Course.relaying (hs : c'.stage = .relaying) (hrun : c'.Running side c'.sent)
    (hbroke : c'.broke = none) :
  c'.Course side
  := by
  rw [Course]
  rw [hs]
  exact ⟨hrun, hbroke⟩

theorem Course.of_relaying (h : c.Course side) (hs : c.stage = .relaying) :
  c.Running side c.sent ∧ c.broke = none
  := by
  rw [Course] at h
  rw [hs] at h
  exact h

/-- The task keeps its course. -/
theorem Course.step (h : c.Course side) (hstep : Step gone down c out c') :
  c'.Course side
  := by
  cases hstep with
  | take hs ht hcredit | cancelTake hs ht hcancel | readPrebuf hs ht hbuf
  | readSocket hs ht hbuf hlen | cancelRead hs ht hcancel | refund hs ht
  | sendGone hs ht hsink | cancel hs hend | nextPending hs ht hpending
  | nextGone hs ht hpending hinbound hlisted
  | cancelNext hs ht hpending hcancel | write hs ht | writeFailed hs ht | cancelWrite hs ht hcancel
  | updateGone hs ht hsink | account hs ht =>
      obtain ⟨hrun, hbroke⟩ := h.of_relaying hs
      exact .relaying hs hrun hbroke
  | nextInbound hs ht hpending hinbound =>
      obtain ⟨hrun, hbroke⟩ := h.of_relaying hs
      rename_i cmd cmds
      cases cmd <;> exact .relaying hs hrun hbroke
  | @send allow chunk hs ht hsink =>
      obtain ⟨hrun, hbroke⟩ := h.of_relaying hs
      exact .relaying hs (hrun.snoc (Or.inl ⟨chunk, rfl⟩)) hbroke
  | @update add hs ht hsink =>
      obtain ⟨hrun, hbroke⟩ := h.of_relaying hs
      exact .relaying hs (hrun.snoc (Or.inr ⟨add, rfl⟩)) hbroke
  | @join first second hs htunnel hsocket =>
      obtain ⟨hrun, hbroke⟩ := h.of_relaying hs
      unfold Course
      dsimp only
      split_ifs with hcloses
      · exact Or.inl ⟨rfl, hrun, ⟨first, second, htunnel, hsocket, hcloses⟩, hbroke⟩
      · refine Over.left hrun ?_ hbroke
        left
        use first, second, htunnel, hsocket
        simpa using hcloses
  | @part m hs hsink =>
      unfold Course at h
      rw [hs] at h
      obtain ⟨rfl, hrun, hjoined, hbroke⟩ | ⟨hside, hrelay, rfl, hbroke⟩
        | ⟨hside, hrelay, hbroke, reason, rfl⟩ := h
      · exact Over.parted hrun hjoined hbroke rfl
      · refine Over.overran hside hrelay.toTunnel hrelay.toSocket hbroke ?_
        change c.sent ++ _ = _
        rw [hrelay.sent]
        rfl
      · refine Over.unreachable hside hrelay.toTunnel hrelay.toSocket hbroke ?_
        use reason
        change c.sent ++ _ = _
        rw [hrelay.sent]
        rfl
  | @partGone m hs hsink =>
      unfold Course at h
      rw [hs] at h
      obtain ⟨rfl, hrun, hjoined, hbroke⟩ | ⟨hside, hrelay, -⟩ | ⟨hside, hrelay, -⟩ := h
      · exact Over.left hrun (Or.inr rfl) hbroke
      · exact Over.silent ⟨hrelay.sent, hrelay.toTunnel, hrelay.toSocket⟩ (Or.inl rfl)
      · exact Over.silent ⟨hrelay.sent, hrelay.toTunnel, hrelay.toSocket⟩ (Or.inl rfl)
  | @greet m hs hsink =>
      unfold Course at h
      rw [hs] at h
      obtain ⟨hgreets, hrelay, hbroke⟩ := h
      refine Course.relaying rfl ?_ hbroke
      use m, [], hgreets
      simp [put, hrelay.sent]
  | greetGone hs hsink =>
      unfold Course at h
      rw [hs] at h
      obtain ⟨hgreets, hrelay, hbroke⟩ := h
      exact Over.silent ⟨hrelay.sent, hrelay.toTunnel, hrelay.toSocket⟩ (Or.inl rfl)
  | @connecting addr isRdp charged cmd cmds hs hinbound =>
      unfold Course at h
      rw [hs] at h
      obtain ⟨hside, hrelay, hbroke⟩ := h
      unfold onConnecting
      cases cmd with
      | data b =>
          dsimp only
          split_ifs with hfits
          · exact ⟨hside, ⟨hrelay.sent, hrelay.toTunnel, hrelay.toSocket⟩, hbroke⟩
          · exact Or.inr (Or.inl
              ⟨hside, ⟨hrelay.sent, hrelay.toTunnel, hrelay.toSocket⟩, rfl, rfl⟩)
      | close =>
          exact Over.silent ⟨hrelay.sent, hrelay.toTunnel, hrelay.toSocket⟩ (Or.inr (Or.inl rfl))
      | violation =>
          exact Or.inr (Or.inl ⟨hside, ⟨hrelay.sent, hrelay.toTunnel, hrelay.toSocket⟩, rfl, rfl⟩)
  | connectingGone hs hinbound hlisted =>
      unfold Course at h
      rw [hs] at h
      obtain ⟨hside, hrelay, hbroke⟩ := h
      exact Over.silent ⟨hrelay.sent, hrelay.toTunnel, hrelay.toSocket⟩ (Or.inr (Or.inr rfl))
  | connected hs hinbound hlisted =>
      unfold Course at h
      rw [hs] at h
      obtain ⟨hside, hrelay, hbroke⟩ := h
      exact ⟨hside, ⟨hrelay.sent, hrelay.toTunnel, hrelay.toSocket⟩, hbroke⟩
  | connectFailed hs hinbound hlisted =>
      unfold Course at h
      rw [hs] at h
      obtain ⟨hside, hrelay, hbroke⟩ := h
      exact Or.inr (Or.inr
        ⟨hside, ⟨hrelay.sent, hrelay.toTunnel, hrelay.toSocket⟩, hbroke, _, rfl⟩)
  | grant hs =>
      unfold Course at h
      rw [hs] at h
      obtain ⟨rfl, hrelay, hbroke⟩ := h
      unfold Chan.grant
      exact ⟨rfl, ⟨hrelay.sent, hrelay.toTunnel, hrelay.toSocket⟩, hbroke⟩

/-- The course is the task's alone. -/
theorem Course.sameTask (h : c.Course side) (hsame : SameTask c c') :
  c'.Course side
  := by
  have hunrelayed : c.Unrelayed → c'.Unrelayed := by
    rintro ⟨hsent, htunnel, hsocket⟩
    rw [← hsame.sent] at hsent
    rw [← hsame.toTunnel] at htunnel
    rw [← hsame.toSocket] at hsocket
    exact ⟨hsent, htunnel, hsocket⟩
  have hrunning : ∀ l, c.Running side l → c'.Running side l := by
    unfold Running
    rw [hsame.id]
    exact fun l hl => hl
  have hjoined : ∀ b, c.Joined b → c'.Joined b := by
    unfold Joined
    rw [hsame.toTunnel, hsame.toSocket]
    exact fun b hb => hb
  unfold Course at h ⊢
  rw [hsame.stage]
  cases hs : c.stage with
  | connecting addr isRdp charged =>
      rw [hs] at h
      rw [hsame.broke]
      exact ⟨h.1, hunrelayed h.2.1, h.2.2⟩
  | granting =>
      rw [hs] at h
      rw [hsame.broke]
      exact ⟨h.1, hunrelayed h.2.1, h.2.2⟩
  | greeting m =>
      rw [hs] at h
      rw [hsame.broke, hsame.id]
      exact ⟨h.1, hunrelayed h.2.1, h.2.2⟩
  | relaying =>
      rw [hs] at h
      rw [hsame.broke, hsame.sent]
      exact ⟨hrunning _ h.1, h.2⟩
  | parting m =>
      rw [hs] at h
      rw [hsame.broke, hsame.id, hsame.sent]
      obtain ⟨hm, hrun, hj, hbroke⟩ | ⟨hside, hrelay, hm⟩ | ⟨hside, hrelay, hm⟩ := h
      · exact Or.inl ⟨hm, hrunning _ hrun, hjoined _ hj, hbroke⟩
      · exact Or.inr (Or.inl ⟨hside, hunrelayed hrelay, hm⟩)
      · exact Or.inr (Or.inr ⟨hside, hunrelayed hrelay, hm⟩)
  | ended =>
      rw [hs] at h
      cases h with
      | silent hrelay hwhy =>
          rw [← hsame.refused, ← hsame.broke] at hwhy
          exact Over.silent (hunrelayed hrelay) hwhy
      | unreachable hside htunnel hsocket hbroke hsent =>
          rw [← hsame.toTunnel] at htunnel
          rw [← hsame.toSocket] at hsocket
          rw [← hsame.broke] at hbroke
          rw [← hsame.sent, ← hsame.id] at hsent
          exact Over.unreachable hside htunnel hsocket hbroke hsent
      | overran hside htunnel hsocket hbroke hsent =>
          rw [← hsame.toTunnel] at htunnel
          rw [← hsame.toSocket] at hsocket
          rw [← hsame.broke] at hbroke
          rw [← hsame.sent, ← hsame.id] at hsent
          exact Over.overran hside htunnel hsocket hbroke hsent
      | left hrun hj hbroke =>
          rw [← hsame.broke] at hbroke
          rw [← hsame.sent] at hrun
          rw [← hsame.refused] at hj
          exact Over.left (hrunning _ hrun) (hj.imp_left (hjoined _)) hbroke
      | parted hrun hj hbroke hsent =>
          rw [← hsame.broke] at hbroke
          rw [← hsame.sent, ← hsame.id] at hsent
          exact Over.parted (hrunning _ hrun) (hjoined _ hj) hbroke hsent

/-- Whatever an end does to the channel keeps its course. -/
theorem Course.move (h : c.Course side) (hmove : Move side t c c') :
  c'.Course side
  := by
  obtain ⟨out, hstep⟩ | hsame := hmove.task
  · apply h.step hstep
  · apply h.sameTask hsame

/-! ### The data frames -/

/-- The credit taken for a frame: a minimum charge at least, and no more than a frame may cost. -/
def Allows (allow : Nat) : Prop := minFrameCharge ≤ allow ∧ allow ≤ maxFrame

/-- The frame is paid from the credit taken for it. -/
def Pays (x : Nat × Bytes) : Prop :=
  1 ≤ x.2.length ∧ x.2.length ≤ maxFrame ∧ charge x.2.length ≤ x.1

/-- What the relay that reads the socket has in hand. -/
def InHand : ToTunnel → Prop
  | .read allow => Allows allow
  | .refund allow chunk => Allows allow ∧ chunk.length ≤ allow
  | .send allow chunk => Allows allow ∧ chunk.length ≤ allow ∧ chunk ≠ []
  | .done r => r ≠ .peerClosed ∧ r ≠ .violation
  | .take => True

/-- Every data frame sent was paid. -/
structure Paying (c : Chan) : Prop where
  inHand : InHand c.toTunnel
  paid : ∀ x ∈ c.paid, Pays x
  data : c.sent.filter isData = c.paid.map fun x => .data c.id x.2

theorem paying_start (h : Start side c) :
  c.Paying
  := by
  cases h with
  | controlled id addr isRdp window =>
      refine ⟨trivial, ?_, rfl⟩
      intro x hx
      cases hx
  | controller id host port prebuf =>
      refine ⟨trivial, ?_, rfl⟩
      intro x hx
      cases hx

theorem pays_of_inHand {allow : Nat} {chunk : Bytes} (h : InHand (.send allow chunk)) :
  Pays (allow, chunk)
  := by
  obtain ⟨⟨hmin, hmax⟩, hlen, hchunk⟩ := h
  refine ⟨?_, ?_, ?_⟩
  · apply List.length_pos_iff.mpr hchunk
  · apply Nat.le_trans hlen hmax
  · apply charge_le hlen hmin

/-- The frame a task sends first, or last, carries no data. -/
theorem Course.not_isData (h : c.Course side) (hs : c.stage = .greeting m ∨ c.stage = .parting m) :
  isData m = false
  := by
  rw [Course] at h
  obtain hs | hs := hs
  · rw [hs] at h
    have hgreets := h.1
    cases side with
    | controller =>
        obtain ⟨host, port, rfl⟩ := hgreets
        rfl
    | controlled =>
        cases hgreets
        rfl
  · rw [hs] at h
    obtain ⟨rfl, -⟩ | ⟨-, -, rfl, -⟩ | ⟨-, -, -, reason, rfl⟩ := h
    · rfl
    · rfl
    · rfl

/-- A frame that carries no data is sent. -/
theorem Paying.put (h : c.Paying) (hm : isData m = false) (hid : c'.id = c.id)
    (htunnel : c'.toTunnel = c.toTunnel) (hpaid : c'.paid = c.paid)
    (hsent : c'.sent = c.sent ++ [m]) :
  c'.Paying
  := by
  constructor
  · rw [htunnel]
    apply h.inHand
  · rw [hpaid]
    apply h.paid
  · have hnone : [m].filter isData = [] := by
      simpa using hm
    rw [hsent, List.filter_append, hnone, List.append_nil, hpaid, hid]
    apply h.data

/-- The relay that reads the socket takes a step that sends nothing. -/
theorem Paying.relay (h : c.Paying) (hid : c'.id = c.id) (htunnel : InHand c'.toTunnel)
    (hpaid : c'.paid = c.paid) (hsent : c'.sent = c.sent) :
  c'.Paying
  := by
  constructor
  · exact htunnel
  · rw [hpaid]
    apply h.paid
  · rw [hpaid, hsent, hid]
    apply h.data

/-- The task pays for the data frames it sends. -/
theorem Paying.step (h : c.Paying) (hcourse : c.Course side) (hstep : Step gone down c out c') :
  c'.Paying
  := by
  have hhand := h.inHand
  cases hstep with
  | take hs ht hcredit =>
      refine h.relay rfl ?_ rfl rfl
      constructor
      · apply Nat.le_min.mpr
        exact ⟨hcredit, by decide⟩
      · apply Nat.min_le_right
  | cancelTake hs ht hcancel => exact h.relay rfl ⟨nofun, nofun⟩ rfl rfl
  | cancelRead hs ht hcancel => exact h.relay rfl ⟨nofun, nofun⟩ rfl rfl
  | sendGone hs ht hsink => exact h.relay rfl ⟨nofun, nofun⟩ rfl rfl
  | readPrebuf hs ht hbuf =>
      rw [ht] at hhand
      refine h.relay rfl ?_ rfl rfl
      apply And.intro hhand
      rw [List.length_take]
      apply Nat.min_le_left
  | readSocket hs ht hbuf hlen =>
      rw [ht] at hhand
      refine h.relay rfl ?_ rfl rfl
      exact ⟨hhand, hlen⟩
  | @refund allow chunk hs ht =>
      rw [ht] at hhand
      refine h.relay rfl ?_ rfl rfl
      unfold Chan.refund
      dsimp only
      split_ifs with hchunk
      · exact ⟨nofun, nofun⟩
      · exact ⟨hhand.1, hhand.2, hchunk⟩
  | @send allow chunk hs ht hsink =>
      rw [ht] at hhand
      constructor
      · trivial
      · change ∀ x ∈ c.paid ++ [(allow, chunk)], Pays x
        rw [List.forall_mem_append, List.forall_mem_singleton]
        apply And.intro h.paid
        apply pays_of_inHand hhand
      · change (c.sent ++ [PortForwardChannel.data c.id chunk]).filter isData
          = (c.paid ++ [(allow, chunk)]).map fun x => PortForwardChannel.data c.id x.2
        rw [List.filter_append, h.data, List.map_append]
        rfl
  | update hs ht hsink => exact h.put (m := .windowUpdate _ _) rfl rfl rfl rfl rfl
  | part hs hsink => exact h.put (hcourse.not_isData (Or.inr hs)) rfl rfl rfl rfl
  | greet hs hsink => exact h.put (hcourse.not_isData (Or.inl hs)) rfl rfl rfl rfl
  | @nextInbound cmd cmds hs ht hpending hinbound =>
      cases cmd <;> exact h.relay rfl hhand rfl rfl
  | @connecting addr isRdp charged cmd cmds hs hinbound =>
      unfold onConnecting
      cases cmd with
      | data b =>
          dsimp only
          split_ifs <;> exact h.relay rfl hhand rfl rfl
      | close => exact h.relay rfl hhand rfl rfl
      | violation => exact h.relay rfl hhand rfl rfl
  | grant hs =>
      unfold Chan.grant
      exact h.relay rfl hhand rfl rfl
  | _ => exact h.relay rfl hhand rfl rfl

theorem Paying.move (h : c.Paying) (hcourse : c.Course side) (hmove : Move side t c c') :
  c'.Paying
  := by
  obtain ⟨out, hstep⟩ | hsame := hmove.task
  · apply h.step hcourse hstep
  · apply h.relay hsame.id _ hsame.paid hsame.sent
    rw [hsame.toTunnel]
    apply h.inHand

/-! ### A tunnel that is gone -/

/-- The task has found the tunnel gone. -/
def TunnelGone (c : Chan) : Prop :=
  c.toTunnel = .done .tunnelGone ∨ c.toSocket = .done .tunnelGone ∨ c.refused = true
    ∨ c.broke = some .tunnelGone

/-- The tunnel is being torn down, or the entry was removed by a task that had the same id. -/
def Lost (t : Teardown) (c : Chan) : Prop := t.cleared = true ∨ t.gone = true ∨ c.evicted = true

/-- A task whose entry was removed is told so, unless the tunnel is lost to it. -/
structure Told (t : Teardown) (c : Chan) : Prop where
  told : c.listed = false → c.live = true → ¬ Lost t c → ∃ cmd ∈ c.inbound, cmd.bytes = none
  gone : c.TunnelGone → Lost t c

theorem told_start (h : Start side c) (t : Teardown) :
  Told t c
  := by
  cases h with
  | controlled id addr isRdp window =>
      constructor
      · intro hlisted
        cases hlisted
      · intro h
        obtain h | h | h | h := h <;> cases h
  | controller id host port prebuf =>
      constructor
      · intro hlisted
        cases hlisted
      · intro h
        obtain h | h | h | h := h <;> cases h

/-- A task that still takes what it is told has not taken that its entry was removed. -/
theorem Step.live (hstep : Step gone down c out c') (hlive : c'.live = true) :
  c.live = true ∧ ∀ cmd ∈ c.inbound, cmd.bytes = none → cmd ∈ c'.inbound
  := by
  have hrelaying : ∀ {ts : ToSocket}, c.stage = .relaying → c.toSocket = ts → ts.result = none →
      c.live = true := by
    intro ts hs ht hresult
    unfold Chan.live
    rw [hs, ht, hresult]
    rfl
  have hlast : (!c'.stage.isLast) = true ∧ c'.toSocket.result.isNone = true :=
    Bool.and_eq_true_iff.mp hlive
  cases hstep with
  | nextPending hs ht hpending => exact ⟨hrelaying hs ht rfl, fun cmd hcmd _ => hcmd⟩
  | @nextInbound cmd cmds hs ht hpending hinbound =>
      apply And.intro (hrelaying hs ht rfl)
      intro cmd' hcmd' hbytes
      rw [hinbound, List.mem_cons] at hcmd'
      cases cmd with
      | data b =>
          obtain rfl | hcmd' := hcmd'
          · cases hbytes
          · exact hcmd'
      | close => cases hlast.2
      | violation => cases hlast.2
  | write hs ht => exact ⟨hrelaying hs ht rfl, fun cmd hcmd _ => hcmd⟩
  | account hs ht => exact ⟨hrelaying hs ht rfl, fun cmd hcmd _ => hcmd⟩
  | update hs ht hsink => exact ⟨hrelaying hs ht rfl, fun cmd hcmd _ => hcmd⟩
  | nextGone hs ht hpending hinbound hlisted => cases hlast.2
  | cancelNext hs ht hpending hcancel => cases hlast.2
  | writeFailed hs ht => cases hlast.2
  | cancelWrite hs ht hcancel => cases hlast.2
  | updateGone hs ht hsink => cases hlast.2
  | join hs htunnel hsocket =>
      rw [hsocket] at hlast
      cases hlast.2
  | part hs hsink => cases hlast.1
  | partGone hs hsink => cases hlast.1
  | greetGone hs hsink => cases hlast.1
  | greet hs hsink =>
      refine ⟨?_, fun cmd hcmd _ => hcmd⟩
      unfold Chan.live
      rw [hs]
      exact hlast.2
  | @connecting addr isRdp charged cmd cmds hs hinbound =>
      unfold onConnecting at hlast ⊢
      cases cmd with
      | data b =>
          dsimp only at hlast ⊢
          split_ifs at hlast ⊢
          · constructor
            · unfold Chan.live
              rw [hs]
              exact hlast.2
            · intro cmd' hcmd' hbytes
              rw [hinbound, List.mem_cons] at hcmd'
              obtain rfl | hcmd' := hcmd'
              · cases hbytes
              · exact hcmd'
          · cases hlast.1
      | close => cases hlast.1
      | violation => cases hlast.1
  | connectingGone hs hinbound hlisted => cases hlast.1
  | connected hs hinbound hlisted =>
      refine ⟨?_, fun cmd hcmd _ => hcmd⟩
      unfold Chan.live
      rw [hs]
      exact hlast.2
  | connectFailed hs hinbound hlisted => cases hlast.1
  | grant hs =>
      unfold Chan.grant at hlast ⊢
      refine ⟨?_, fun cmd hcmd _ => hcmd⟩
      unfold Chan.live
      rw [hs]
      exact hlast.2
  | _ => exact ⟨hlive, fun cmd hcmd _ => hcmd⟩

/-- How a task finds the tunnel gone: its sink is closed, or its entry was removed without a word. -/
theorem Step.tunnelGone (hcourse : c.Course side) (hstep : Step gone down c out c')
    (hgone : c'.TunnelGone) :
  c.TunnelGone ∨ gone = true ∨ (c.live = true ∧ c.listed = false ∧ c.inbound = [])
  := by
  have hkept : c'.toTunnel ≠ .done .tunnelGone ∨ c'.toTunnel = c.toTunnel →
      c'.toSocket ≠ .done .tunnelGone ∨ c'.toSocket = c.toSocket → c'.refused = c.refused →
      c'.broke ≠ some .tunnelGone ∨ c'.broke = c.broke → c.TunnelGone := by
    intro htunnel hsocket hrefused hbroke
    unfold TunnelGone at hgone ⊢
    rw [hrefused] at hgone
    obtain h | h | h | h := hgone
    · exact Or.inl (htunnel.resolve_left (fun hne => hne h) ▸ h)
    · exact Or.inr (Or.inl (hsocket.resolve_left (fun hne => hne h) ▸ h))
    · exact Or.inr (Or.inr (Or.inl h))
    · exact Or.inr (Or.inr (Or.inr (hbroke.resolve_left (fun hne => hne h) ▸ h)))
  cases hstep with
  | sendGone hs ht hsink => exact Or.inr (Or.inl hsink)
  | updateGone hs ht hsink => exact Or.inr (Or.inl hsink)
  | partGone hs hsink => exact Or.inr (Or.inl hsink)
  | greetGone hs hsink => exact Or.inr (Or.inl hsink)
  | nextGone hs ht hpending hinbound hlisted =>
      refine Or.inr (Or.inr ⟨?_, hlisted, hinbound⟩)
      unfold Chan.live
      rw [hs, ht]
      rfl
  | connectingGone hs hinbound hlisted =>
      refine Or.inr (Or.inr ⟨?_, hlisted, hinbound⟩)
      unfold Course at hcourse
      rw [hs] at hcourse
      unfold Chan.live
      rw [hs, hcourse.2.1.toSocket]
      rfl
  | take hs ht hcredit => exact Or.inl (hkept (Or.inl nofun) (Or.inr rfl) rfl (Or.inr rfl))
  | cancelTake hs ht hcancel => exact Or.inl (hkept (Or.inl nofun) (Or.inr rfl) rfl (Or.inr rfl))
  | readPrebuf hs ht hbuf => exact Or.inl (hkept (Or.inl nofun) (Or.inr rfl) rfl (Or.inr rfl))
  | readSocket hs ht hbuf hlen =>
      exact Or.inl (hkept (Or.inl nofun) (Or.inr rfl) rfl (Or.inr rfl))
  | cancelRead hs ht hcancel => exact Or.inl (hkept (Or.inl nofun) (Or.inr rfl) rfl (Or.inr rfl))
  | refund hs ht =>
      left
      apply hkept (Or.inl _) (Or.inr rfl) rfl (Or.inr rfl)
      unfold Chan.refund
      dsimp only
      split_ifs <;> nofun
  | send hs ht hsink => exact Or.inl (hkept (Or.inl nofun) (Or.inr rfl) rfl (Or.inr rfl))
  | @nextInbound cmd cmds hs ht hpending hinbound =>
      cases cmd <;> exact Or.inl (hkept (Or.inr rfl) (Or.inl nofun) rfl (Or.inr rfl))
  | nextPending hs ht hpending =>
      exact Or.inl (hkept (Or.inr rfl) (Or.inl nofun) rfl (Or.inr rfl))
  | cancelNext hs ht hpending hcancel =>
      exact Or.inl (hkept (Or.inr rfl) (Or.inl nofun) rfl (Or.inr rfl))
  | write hs ht => exact Or.inl (hkept (Or.inr rfl) (Or.inl nofun) rfl (Or.inr rfl))
  | writeFailed hs ht => exact Or.inl (hkept (Or.inr rfl) (Or.inl nofun) rfl (Or.inr rfl))
  | cancelWrite hs ht hcancel => exact Or.inl (hkept (Or.inr rfl) (Or.inl nofun) rfl (Or.inr rfl))
  | account hs ht =>
      left
      apply hkept (Or.inr rfl) (Or.inl _) rfl (Or.inr rfl)
      unfold Chan.account
      dsimp only
      split <;> nofun
  | update hs ht hsink => exact Or.inl (hkept (Or.inr rfl) (Or.inl nofun) rfl (Or.inr rfl))
  | @connecting addr isRdp charged cmd cmds hs hinbound =>
      left
      unfold onConnecting at hkept
      cases cmd with
      | data b =>
          dsimp only at hkept
          split_ifs at hkept
          · exact hkept (Or.inr rfl) (Or.inr rfl) rfl (Or.inr rfl)
          · exact hkept (Or.inr rfl) (Or.inr rfl) rfl (Or.inl nofun)
      | close => exact hkept (Or.inr rfl) (Or.inr rfl) rfl (Or.inl nofun)
      | violation => exact hkept (Or.inr rfl) (Or.inr rfl) rfl (Or.inl nofun)
  | grant hs =>
      unfold Chan.grant at hkept
      exact Or.inl (hkept (Or.inr rfl) (Or.inr rfl) rfl (Or.inr rfl))
  | _ => exact Or.inl (hkept (Or.inr rfl) (Or.inr rfl) rfl (Or.inr rfl))

theorem Step.evicted (hstep : Step gone down c out c') :
  c'.evicted = c.evicted
  := by
  cases hstep with
  | @nextInbound cmd cmds hs ht hpending hinbound => cases cmd <;> rfl
  | @connecting addr isRdp charged cmd cmds hs hinbound =>
      unfold onConnecting
      cases cmd with
      | data b =>
          dsimp only
          split_ifs <;> rfl
      | close => rfl
      | violation => rfl
  | grant hs =>
      unfold Chan.grant
      rfl
  | _ => rfl

/-- The task takes a step, and it is told what it was. -/
theorem Told.step (h : Told t c) (hcourse : c.Course side) (hstep : Step t.gone t.down c out c') :
  Told t c'
  := by
  have hlost : ¬ Lost t c' → ¬ Lost t c := by
    rw [Lost]
    rw [hstep.evicted]
    exact fun hn => hn
  constructor
  · intro hlisted hlive hnot
    rw [hstep.entry.1] at hlisted
    obtain ⟨hlive, hkept⟩ := hstep.live hlive
    obtain ⟨cmd, hcmd, hbytes⟩ := h.told hlisted hlive (hlost hnot)
    exact ⟨cmd, hkept cmd hcmd hbytes, hbytes⟩
  · intro hgone
    by_contra hnot
    obtain hbefore | hsink | ⟨hlive, hlisted, hinbound⟩ := hstep.tunnelGone hcourse hgone
    · exact hlost hnot (h.gone hbefore)
    · exact hlost hnot (Or.inr (Or.inl hsink))
    · obtain ⟨cmd, hcmd, -⟩ := h.told hlisted hlive (hlost hnot)
      rw [hinbound] at hcmd
      cases hcmd

/-- The demultiplexer leaves the task where it was, and it tells it when it removes its entry. -/
theorem Told.sameTask (h : Told t c) (hsame : SameTask c c')
    (hevicted : c.evicted = true → c'.evicted = true)
    (htold : c'.listed = false → c.live = true → ¬ Lost t c' →
      (c.listed = false ∧ ∀ cmd ∈ c.inbound, cmd ∈ c'.inbound)
        ∨ ∃ cmd ∈ c'.inbound, cmd.bytes = none) :
  Told t c'
  := by
  have hlost : Lost t c → Lost t c' := by
    rintro (hc | hg | he)
    · exact Or.inl hc
    · exact Or.inr (Or.inl hg)
    · exact Or.inr (Or.inr (hevicted he))
  constructor
  · intro hlisted hlive hnot
    have hlive : c.live = true := by
      rw [live] at hlive ⊢
      rw [← hsame.stage, ← hsame.toSocket]
      exact hlive
    obtain ⟨hunlisted, hkept⟩ | hnew := htold hlisted hlive hnot
    · obtain ⟨cmd, hcmd, hbytes⟩ := h.told hunlisted hlive fun hl => hnot (hlost hl)
      exact ⟨cmd, hkept cmd hcmd, hbytes⟩
    · exact hnew
  · intro hgone
    apply hlost
    apply h.gone
    rw [TunnelGone] at hgone ⊢
    rw [← hsame.toTunnel, ← hsame.toSocket, ← hsame.refused, ← hsame.broke]
    exact hgone

theorem told_push {cmd : Inbound} (hbytes : cmd.bytes = none) (hlive : c.live = true) :
  ∃ cmd' ∈ (c.unlist.push cmd).inbound, cmd'.bytes = none
  := by
  have hreceiving : c.unlist.receiving = true := receiving_of_live hlive
  rw [push]
  rw [if_pos hreceiving]
  refine ⟨cmd, ?_, hbytes⟩
  apply List.mem_append_right
  apply List.mem_singleton_self

/-- Whatever an end does to the channel, the task is told when its entry is removed. -/
theorem Told.move (h : Told t c) (hcourse : c.Course side) (hmove : Move side t c c') :
  Told t c'
  := by
  cases hmove with
  | stay => exact h
  | step hstep => exact h.step hcourse hstep
  | data data hlisted =>
      apply h.sameTask (sameTask_onData data c)
      · rw [onData_evicted]
        exact fun he => he
      · intro hunlisted hlive _
        right
        cases haccept : c.window.accept data.length with
        | none =>
            rw [onData]
            rw [haccept]
            exact told_push rfl hlive
        | some w =>
            rw [onData_of_receiving haccept (receiving_of_live hlive)] at hunlisted
            cases hlisted.symm.trans hunlisted
  | close hlisted =>
      apply h.sameTask ((SameTask.refl c).unlist.push .close)
      · rw [push_evicted]
        exact fun he => he
      · intro _ hlive _
        right
        exact told_push rfl hlive
  | windowUpdate add hlisted =>
      refine h.sameTask ?_ (fun he => he) ?_
      · constructor <;> rfl
      · intro hunlisted
        cases hlisted.symm.trans hunlisted
  | opened window hlisted hside =>
      apply h.sameTask (sameTask_onOpened window c)
      · rw [onOpened]
        split_ifs <;> exact fun he => he
      · intro hunlisted
        rw [onOpened] at hunlisted
        split_ifs at hunlisted <;> cases hlisted.symm.trans hunlisted
  | retain hreceiving =>
      refine h.sameTask (SameTask.refl c).unlist (fun he => he) ?_
      intro _ hlive
      cases hreceiving.symm.trans (receiving_of_live hlive)
  | clear hcleared =>
      refine h.sameTask (SameTask.refl c).unlist (fun he => he) ?_
      intro _ _ hnot
      cases hnot (Or.inl hcleared)
  | leave hended hside =>
      refine h.sameTask ?_ (fun he => he) ?_
      · constructor <;> rfl
      · intro _ hlive
        rw [live] at hlive
        rw [hended] at hlive
        cases hlive
  | evict hlisted hside =>
      refine h.sameTask ?_ (fun _ => rfl) ?_
      · constructor <;> rfl
      · intro _ _ hnot
        cases hnot (Or.inr (Or.inr rfl))

/-! ### What a channel says -/

/-- The task has ended on the peer's `close`, or on its refusal to open the channel. -/
def PeerClosed (c : Chan) : Prop := c.toSocket = .done .peerClosed ∨ c.broke = some .peerClosed

/-- The task has ended for a local reason: the end of the local side, or a peer that overran the
window. -/
def EndedLocally (c : Chan) : Prop :=
  c.toTunnel = .done .localEof ∨ c.toSocket = .done .localEof ∨ c.toSocket = .done .violation
    ∨ c.broke = some .violation

/-- The frames on the queue of the sink that keeps their order. -/
def inOrder (side : Side) (l : List PortForwardChannel) : List PortForwardChannel :=
  match side with
  | .controller => l.filter isOrdered
  | .controlled => l

/-- The frames the channel has put on the queue that keeps their order. -/
def emitted (side : Side) (c : Chan) : List PortForwardChannel := inOrder side c.sent

/-- What one channel puts on the wire. -/
structure Speaks (side : Side) (t : Teardown) (c : Chan) : Prop where
  grammar : Grammar side c.id (c.emitted side)
  noUpdate : side = .controller → ∀ m ∈ c.emitted side, isOrdered m = true
  data : c.sent.filter isData = c.paid.map fun x => .data c.id x.2
  paid : ∀ x ∈ c.paid, Pays x
  silent : c.PeerClosed → PortForwardChannel.close c.id ∉ c.sent
  close : c.stage = .ended → c.EndedLocally → ¬ c.PeerClosed → ¬ c.TunnelGone →
    c.sent.count (.close c.id) = 1
  gone : c.TunnelGone → Lost t c

/-- The frames of the relays are no `close`. -/
theorem Running.not_mem_close (h : c.Running side l) :
  PortForwardChannel.close c.id ∉ l
  := by
  obtain ⟨g, body, hg, hbody, rfl⟩ := h
  intro hmem
  rw [List.mem_cons] at hmem
  obtain rfl | hmem := hmem
  · cases side with
    | controller =>
        obtain ⟨host, port, hm⟩ := hg
        cases hm
    | controlled => cases hg
  · obtain ⟨data, hm⟩ | ⟨add, hm⟩ := hbody _ hmem
    · cases hm
    · cases hm

/-- The ordered queue takes a part of the frames of a channel that runs. -/
theorem filter_running {g : PortForwardChannel} {body : List PortForwardChannel}
    (hg : Greets side c.id g) :
  (g :: body).filter isOrdered = g :: body.filter isOrdered
  := by
  apply List.filter_cons_of_pos
  cases side with
  | controller =>
      obtain ⟨host, port, rfl⟩ := hg
      rfl
  | controlled =>
      cases hg
      rfl

/-- What a channel that runs has emitted follows the grammar. -/
theorem Running.grammar (h : c.Running side l) :
  Grammar side c.id (inOrder side l) ∧ Grammar side c.id (inOrder side (l ++ [.close c.id]))
  := by
  obtain ⟨g, body, hg, hbody, rfl⟩ := h
  cases side with
  | controlled => exact ⟨.running hg hbody, .parted hg hbody⟩
  | controller =>
      have hfilter : ∀ m ∈ body.filter isOrdered, IsBody c.id m := by
        intro m hm
        apply hbody
        apply (List.mem_filter.mp hm).1
      unfold inOrder
      dsimp only
      rw [List.filter_append, filter_running hg]
      exact ⟨.running hg hfilter, .parted hg hfilter⟩

/-- A channel on its course follows the grammar. -/
theorem Course.grammar (h : c.Course side) :
  Grammar side c.id (c.emitted side)
  := by
  have hnothing : c.sent = [] → Grammar side c.id (c.emitted side) := by
    intro hsent
    rw [emitted]
    rw [hsent]
    cases side <;> exact .nothing
  rw [Course] at h
  split at h
  · exact hnothing h.2.1.sent
  · exact hnothing h.2.1.sent
  · exact hnothing h.2.1.sent
  · exact h.1.grammar.1
  · obtain ⟨-, hrun, -⟩ | ⟨-, hrelay, -⟩ | ⟨-, hrelay, -⟩ := h
    · exact hrun.grammar.1
    · exact hnothing hrelay.sent
    · exact hnothing hrelay.sent
  · cases h with
    | silent hrelay hwhy => exact hnothing hrelay.sent
    | unreachable hside htunnel hsocket hbroke hsent =>
        obtain ⟨reason, hsent⟩ := hsent
        subst hside
        rw [emitted]
        rw [hsent]
        exact .refused rfl reason
    | overran hside htunnel hsocket hbroke hsent =>
        subst hside
        rw [emitted]
        rw [hsent]
        exact .closed rfl
    | left hrun hjoined hbroke => exact hrun.grammar.1
    | parted hrun hjoined hbroke hsent =>
        rw [emitted]
        rw [hsent]
        apply hrun.grammar.2

theorem closes_peerClosed (first : RelayEnd) : closes first .peerClosed = false := by
  cases first <;> rfl

/-- Relays of which one has ended for a local reason, and none on the peer's `close` or on a tunnel
that is gone, end in a `close`. -/
theorem closes_of_local {first second : RelayEnd} (hfirst : first ≠ .peerClosed)
    (hsecond : second ≠ .peerClosed) (hgone : first ≠ .tunnelGone) (hgone' : second ≠ .tunnelGone)
    (hlocal : first = .localEof ∨ second = .localEof ∨ second = .violation) :
  closes first second = true
  := by
  rw [closes]
  simp [hfirst, hsecond, hgone, hgone']
  tauto

/-- The peer's `close` is never echoed. -/
theorem Course.silent (h : c.Course side) (hclosed : c.PeerClosed) :
  PortForwardChannel.close c.id ∉ c.sent
  := by
  have hnothing : c.sent = [] → PortForwardChannel.close c.id ∉ c.sent := by
    intro hsent
    rw [hsent]
    exact List.not_mem_nil
  rw [Course] at h
  split at h
  · exact hnothing h.2.1.sent
  · exact hnothing h.2.1.sent
  · exact hnothing h.2.1.sent
  · exact h.1.not_mem_close
  · obtain ⟨-, hrun, -⟩ | ⟨-, hrelay, -⟩ | ⟨-, hrelay, -⟩ := h
    · exact hrun.not_mem_close
    · exact hnothing hrelay.sent
    · exact hnothing hrelay.sent
  · cases h with
    | silent hrelay hwhy => exact hnothing hrelay.sent
    | unreachable hside htunnel hsocket hbroke hsent =>
        obtain ⟨reason, hsent⟩ := hsent
        rw [hsent, List.mem_singleton]
        nofun
    | overran hside htunnel hsocket hbroke hsent =>
        obtain hclosed | hclosed := hclosed
        · cases hsocket.symm.trans hclosed
        · cases hbroke.symm.trans hclosed
    | left hrun hjoined hbroke => exact hrun.not_mem_close
    | parted hrun hjoined hbroke hsent =>
        obtain ⟨first, second, htunnel, hsocket, hcloses⟩ := hjoined
        obtain hclosed | hclosed := hclosed
        · cases hsocket.symm.trans hclosed
          rw [closes_peerClosed] at hcloses
          cases hcloses
        · cases hbroke.symm.trans hclosed

/-- A channel that ended for a local reason, while the tunnel is up, has told the peer once. -/
theorem Course.close (h : c.Course side) (hhand : InHand c.toTunnel) (hs : c.stage = .ended)
    (hlocal : c.EndedLocally) (hpeer : ¬ c.PeerClosed) (hgone : ¬ c.TunnelGone) :
  c.sent.count (.close c.id) = 1
  := by
  rw [Course] at h
  rw [hs] at h
  cases h with
  | silent hrelay hwhy =>
      obtain hrefused | hbroke | hbroke := hwhy
      · exact (hgone (Or.inr (Or.inr (Or.inl hrefused)))).elim
      · exact (hpeer (Or.inr hbroke)).elim
      · exact (hgone (Or.inr (Or.inr (Or.inr hbroke)))).elim
  | unreachable hside htunnel hsocket hbroke hsent =>
      obtain hend | hend | hend | hend := hlocal
      · cases htunnel.symm.trans hend
      · cases hsocket.symm.trans hend
      · cases hsocket.symm.trans hend
      · cases hbroke.symm.trans hend
  | overran hside htunnel hsocket hbroke hsent =>
      rw [hsent]
      simp
  | left hrun hjoined hbroke =>
      obtain ⟨first, second, htunnel, hsocket, hcloses⟩ | hrefused := hjoined
      · rw [htunnel] at hhand
        have hends : closes first second = true := closes_of_local hhand.1
          (fun he => hpeer (Or.inl (he ▸ hsocket)))
          (fun he => hgone (Or.inl (he ▸ htunnel)))
          (fun he => hgone (Or.inr (Or.inl (he ▸ hsocket))))
          (by
            rw [EndedLocally] at hlocal
            rw [htunnel, hsocket, hbroke] at hlocal
            simpa using hlocal)
        rw [hends] at hcloses
        cases hcloses
      · exact (hgone (Or.inr (Or.inr (Or.inl hrefused)))).elim
  | parted hrun hjoined hbroke hsent =>
      rw [hsent, List.count_append, List.count_eq_zero_of_not_mem hrun.not_mem_close]
      simp

/-- What is known of a channel of an end. -/
structure Known (side : Side) (t : Teardown) (c : Chan) : Prop where
  course : c.Course side
  paying : c.Paying
  told : Told t c

theorem known_start (h : Start side c) (t : Teardown) :
  Known side t c
  := ⟨course_start h, paying_start h, told_start h t⟩

theorem Known.move (h : Known side t c) (hmove : Move side t c c') :
  Known side t c'
  := ⟨h.course.move hmove, h.paying.move h.course hmove, h.told.move h.course hmove⟩

/-- A teardown only goes on. -/
theorem Known.mono {t' : Teardown} (h : Known side t c)
    (hcleared : t.cleared = true → t'.cleared = true) (hgone : t.gone = true → t'.gone = true) :
  Known side t' c
  := by
  have hlost : Lost t c → Lost t' c := by
    rintro (hc | hg | he)
    · exact Or.inl (hcleared hc)
    · exact Or.inr (Or.inl (hgone hg))
    · exact Or.inr (Or.inr he)
  refine ⟨h.course, h.paying, ?_, ?_⟩
  · intro hlisted hlive hnot
    apply h.told.told hlisted hlive fun hl => hnot (hlost hl)
  · intro hg
    apply hlost (h.told.gone hg)

theorem Known.speaks (h : Known side t c) :
  Speaks side t c
  := by
  constructor
  · apply h.course.grammar
  · rintro rfl m hm
    apply (List.mem_filter.mp hm).2
  · apply h.paying.data
  · apply h.paying.paid
  · apply h.course.silent
  · apply h.course.close h.paying.inHand
  · apply h.told.gone

end Chan

/-- A step of an end keeps what is known of its channels. -/
theorem Advance.known {side : Side} {t t' : Teardown} {cs cs' : Channels}
    (h : Advance side t' cs cs') (hcleared : t.cleared = true → t'.cleared = true)
    (hgone : t.gone = true → t'.gone = true) (hknown : ∀ c ∈ cs, Chan.Known side t c) :
  ∀ c ∈ cs', Chan.Known side t' c
  := by
  apply h.forall_mem (fun c hc => Chan.known_start hc t') _ hknown
  intro c c' hc hmove
  apply (hc.mono hcleared hgone).move hmove

theorem PortForwardMux.known {loginTarget : String} {hist : List (PortForwardMux × Act)}
    {m : PortForwardMux} (hrun : Run Step (new loginTarget) hist m) :
  ∀ c ∈ m.channels, Chan.Known .controlled m.teardown c
  := by
  apply hrun.invariant fun m => ∀ c ∈ m.channels, Chan.Known .controlled m.teardown c
  · intro c hc
    cases hc
  · intro m act m' hm hstep
    apply hstep.advance.known hstep.teardown_mono.1 hstep.teardown_mono.2 hm

theorem TunnelHandle.known {hist : List (TunnelHandle × Act)} {h : TunnelHandle}
    (hrun : Run Step new hist h) :
  ∀ c ∈ h.channels, Chan.Known .controller h.teardown c
  := by
  apply hrun.invariant fun h => ∀ c ∈ h.channels, Chan.Known .controller h.teardown c
  · intro c hc
    cases hc
  · intro h act h' hh hstep
    apply hstep.advance.known hstep.teardown_mono.1 hstep.teardown_mono.2 hh

/-! ### Entries removed by another task -/

theorem Chan.onOpened_evicted (window : Nat) (c : Chan) :
  (c.onOpened window).evicted = c.evicted
  := by
  rw [onOpened]
  split_ifs <;> rfl

/-- What is done to the entry under `id` evicts no channel. -/
theorem Channels.evicted_update {cs : Channels} {id : ChannelId} {f : Chan → Chan} {i : Nat}
    {c' : Chan} (hf : ∀ c, (f c).evicted = c.evicted) (hc' : (cs.update id f)[i]? = some c')
    (hevicted : c'.evicted = true) :
  ∃ c, cs[i]? = some c ∧ c.evicted = true
  := by
  rw [update] at hc'
  rw [List.getElem?_map, Option.map_eq_some_iff] at hc'
  obtain ⟨c, hc, rfl⟩ := hc'
  use c, hc
  split_ifs at hevicted
  · rw [← hf]
    exact hevicted
  · exact hevicted

namespace TunnelHandle

variable {h h' : TunnelHandle}

/-- An entry is removed by another task only when a task with the same identifier leaves. -/
theorem Step.evicted {act : Act} (hstep : Step h act h') {i : Nat} {c' : Chan}
    (hc' : h'.channels[i]? = some c') (hevicted : c'.evicted = true) :
  (∃ c, h.channels[i]? = some c ∧ c.evicted = true)
    ∨ ∃ j d, j ≠ i ∧ h'.channels[j]? = some d ∧ d.id = c'.id ∧ d.left = true
  := by
  cases hstep with
  | insert host port prebuf =>
      left
      obtain heq | ⟨id, heq, -, -⟩ := insert_cases host port prebuf h
      · rw [heq] at hc'
        exact ⟨c', hc', hevicted⟩
      · rw [heq] at hc'
        dsimp only at hc'
        rw [List.getElem?_append] at hc'
        split_ifs at hc' with hlt
        · exact ⟨c', hc', hevicted⟩
        · rw [List.mem_singleton.mp (List.mem_of_getElem? hc')] at hevicted
          cases hevicted
  | frame ch =>
      left
      cases ch with
      | opened id success message window =>
          cases success with
          | true => exact Channels.evicted_update (Chan.onOpened_evicted window) hc' hevicted
          | false =>
              exact Channels.evicted_update (fun c => Chan.push_evicted _ c.unlist) hc' hevicted
      | data id data => exact Channels.evicted_update (Chan.onData_evicted data) hc' hevicted
      | close id =>
          exact Channels.evicted_update (fun c => Chan.push_evicted _ c.unlist) hc' hevicted
      | windowUpdate id add => 
          exact Channels.evicted_update (f := Chan.onWindowUpdate add) (fun _ => rfl) hc' hevicted
      | openCh id host port window => exact ⟨c', hc', hevicted⟩
      | other => exact ⟨c', hc', hevicted⟩
  | @task k c d out hc hstep hroom =>
      left
      rw [emit_channels] at hc'
      dsimp only at hc'
      rw [List.getElem?_set] at hc'
      split_ifs at hc' with hki hlt
      · subst hki
        cases hc'
        use c, hc
        rw [← hstep.evicted]
        exact hevicted
      · exact ⟨c', hc', hevicted⟩
  | @leave k c hc hended hleft =>
      dsimp only at hc' ⊢
      rw [Channels.leave] at hc' ⊢
      rw [List.getElem?_mapIdx, Option.map_eq_some_iff] at hc'
      obtain ⟨d, hd, rfl⟩ := hc'
      split_ifs at hevicted ⊢ with hik hentry
      · left
        exact ⟨d, hd, hevicted⟩
      · right
        use k, c.leave, Ne.symm hik
        rw [List.getElem?_mapIdx, hc, Option.map_some, if_pos rfl]
        rw [Chan.isEntry] at hentry
        rw [Bool.and_eq_true, beq_iff_eq] at hentry
        exact ⟨rfl, hentry.2.symm, rfl⟩
      · left
        exact ⟨d, hd, hevicted⟩
  | takeData hdata => exact Or.inl ⟨c', hc', hevicted⟩
  | takeControl hcontrol => exact Or.inl ⟨c', hc', hevicted⟩
  | clear =>
      left
      dsimp only at hc'
      rw [Channels.clear] at hc'
      rw [List.getElem?_map, Option.map_eq_some_iff] at hc'
      obtain ⟨d, hd, rfl⟩ := hc'
      exact ⟨d, hd, hevicted⟩
  | raise hcleared => exact Or.inl ⟨c', hc', hevicted⟩
  | drop hdown => exact Or.inl ⟨c', hc', hevicted⟩

/-- A channel whose entry was removed by another task has the identifier of one that has left. -/
def Evictions (h : TunnelHandle) : Prop :=
  ∀ (i : Nat) (c : Chan), h.channels[i]? = some c → c.evicted = true →
    ∃ j d, j ≠ i ∧ h.channels[j]? = some d ∧ d.id = c.id ∧ d.left = true

theorem evictions {hist : List (TunnelHandle × Act)} (hrun : Run Step new hist h) :
  h.Evictions
  := by
  apply hrun.invariant Evictions
  · intro i c hc
    cases hc
  · intro h act h' ih hstep i c' hc' hevicted
    obtain ⟨c, hc, hbefore⟩ | hnew := hstep.evicted hc' hevicted
    · obtain ⟨j, d, hne, hd, hid, hleft⟩ := ih i c hc hbefore
      obtain ⟨d', hd', hmove⟩ := hstep.advance.move j d hd
      obtain ⟨c'', hc'', hmove'⟩ := hstep.advance.move i c hc
      rw [hc', Option.some.injEq] at hc''
      subst hc''
      use j, d', hne, hd'
      rw [hmove.id, hmove'.id]
      exact ⟨hid, hmove.left hleft⟩
    · exact hnew

end TunnelHandle

/-- No task removes the entry of another on the controlled side. -/
theorem PortForwardMux.not_evicted {loginTarget : String} {hist : List (PortForwardMux × Act)}
    {m : PortForwardMux} (hrun : Run Step (new loginTarget) hist m) :
  ∀ c ∈ m.channels, c.evicted = false
  := by
  apply hrun.invariant fun m => ∀ c ∈ m.channels, c.evicted = false
  · intro c hc
    cases hc
  · intro m act m' hm hstep
    apply hstep.advance.forall_mem (Q := fun c => c.evicted = false) _ _ hm
    · intro c hc
      cases hc
      rfl
    · intro c c' hc hmove
      cases hmove with
      | stay => exact hc
      | step hstep => rw [hstep.evicted, hc]
      | data data hlisted => rw [Chan.onData_evicted, hc]
      | close hlisted => rw [Chan.onClose, Chan.push_evicted, Chan.unlist, hc]
      | windowUpdate add hlisted => exact hc
      | opened window hlisted hside => cases hside
      | retain hreceiving => exact hc
      | clear hcleared => exact hc
      | leave hended hside => cases hside
      | evict hlisted hside => cases hside

/-- Whatever the peer sends, and in whatever order the tasks of an end run, what each channel puts on
the wire follows the grammar.  On the controller, the identifiers may come round: a channel whose
entry was removed by a task that had its identifier finds the tunnel gone. -/
theorem wire_grammar :
  (∀ (loginTarget : String) (hist : List (PortForwardMux × PortForwardMux.Act))
      (m : PortForwardMux), Run PortForwardMux.Step (.new loginTarget) hist m →
    ∀ c ∈ m.channels, c.Speaks .controlled m.teardown ∧ c.evicted = false)
  ∧ (∀ (hist : List (TunnelHandle × TunnelHandle.Act)) (h : TunnelHandle),
        Run TunnelHandle.Step .new hist h →
    ∀ (i : Nat) (c : Chan), h.channels[i]? = some c →
      c.Speaks .controller h.teardown
        ∧ (c.evicted = true →
            ∃ j d, j ≠ i ∧ h.channels[j]? = some d ∧ d.id = c.id ∧ d.left = true))
  := by
  constructor
  · intro loginTarget hist m hrun c hc
    exact ⟨(PortForwardMux.known hrun c hc).speaks, PortForwardMux.not_evicted hrun c hc⟩
  · intro hist h hrun i c hc
    constructor
    · apply (TunnelHandle.known hrun c _).speaks
      apply List.mem_of_getElem? hc
    · apply TunnelHandle.evictions hrun i c hc

/-- The target of a channel sends a byte and hangs up; and a channel is opened on the controller. -/
theorem wire_grammar_served :
  (∃ hist m c, Run PortForwardMux.Step (.new PortForwardMux.sampleTarget) hist m
      ∧ m.channels = [c] ∧ c.sent = [.opened 1 true "" channelWindow, .data 1 [7], .close 1]
      ∧ c.Speaks .controlled m.teardown ∧ c.evicted = false)
    ∧ ∃ hist h c, Run TunnelHandle.Step .new hist h ∧ h.channels = [c]
      ∧ c.sent = [.openCh 1 Str.empty 80 channelWindow] ∧ c.Speaks .controller h.teardown
  := by
  constructor
  · have hopen := Run.nil.snoc PortForwardMux.step_sampleChan
    have hconnected := hopen.snoc (.task (i := 0) rfl (.connected rfl rfl rfl))
    have hgrant := hconnected.snoc (.task (i := 0) rfl (.grant rfl))
    have hgreet := hgrant.snoc (.task (i := 0) rfl (.greet rfl rfl))
    have htake := hgreet.snoc (.task (i := 0) rfl (.take rfl rfl (by decide)))
    have hread := htake.snoc
      (.task (i := 0) rfl (@Chan.Step.readSocket _ _ _ _ [7] rfl rfl rfl (by decide)))
    have hrefund := hread.snoc (.task (i := 0) rfl (.refund rfl rfl))
    have hsend := hrefund.snoc (.task (i := 0) rfl (.send rfl rfl rfl))
    have htake' := hsend.snoc (.task (i := 0) rfl (.take rfl rfl (by decide)))
    have hend := htake'.snoc
      (.task (i := 0) rfl (@Chan.Step.readSocket _ _ _ _ [] rfl rfl rfl (Nat.zero_le _)))
    have hrefund' := hend.snoc (.task (i := 0) rfl (.refund rfl rfl))
    have hcancel := hrefund'.snoc (.task (i := 0) rfl (.cancel rfl (.inl rfl)))
    have hnext := hcancel.snoc (.task (i := 0) rfl (.cancelNext rfl rfl rfl rfl))
    have hjoin := hnext.snoc (.task (i := 0) rfl (.join rfl rfl rfl))
    have hpart := hjoin.snoc (.task (i := 0) rfl (.part rfl rfl))
    exact ⟨_, _, _, hpart, rfl, rfl, wire_grammar.1 _ _ _ hpart _ List.mem_cons_self⟩
  · have hstart : Run TunnelHandle.Step .new [] _ := .nil
    have hinsert := hstart.snoc (.insert Str.empty 80 [])
    have hgreet := hinsert.snoc (.task (i := 0) rfl (.greet rfl rfl) rfl)
    exact ⟨_, _, _, hgreet, rfl, rfl, (wire_grammar.2 _ _ hgreet 0 _ rfl).1⟩

end VynxDesk.Mux
