import VynxDesk.PortForward.Mux
import VynxDesk.PortForward.Handle

/-!
# What an arbitrary peer can make an end hold

The window of a channel accounts for every frame accepted and not drained yet (`Chan.Windowed`), so
that what is queued for a channel is bounded by the window granted, no sum saturates, and a channel
that has refused a frame queues nothing more.
-/

namespace VynxDesk.Mux

namespace Chan

/-- The chunk being written to the socket. -/
def current (c : Chan) : List Bytes :=
  match c.toSocket with
  | .write chunk _ => [chunk]
  | _ => []

/-- The frames in the inbound queue. -/
def queued (c : Chan) : List Bytes := c.inbound.filterMap Inbound.bytes

/-- The frames held for the socket: being written, buffered, or in the inbound queue. -/
def held (c : Chan) : List Bytes := c.current ++ (c.pending ++ c.queued)

/-- The frames accepted and not drained yet. -/
def undrained (c : Chan) : List Bytes := c.accepted.drop c.drained

/-- The channel has its whole window: its target, if it had one to connect, is connected. -/
def connected (c : Chan) : Bool :=
  match c.stage with
  | .connecting _ _ _ | .granting => false
  | _ => true

/-- The window of the channel accounts for what was accepted. -/
structure Windowed (c : Chan) : Prop where
  total : c.window.total + charges c.undrained = c.granted
  granted : c.granted ≤ channelWindow
  unconnected : c.connected = false → c.granted = initialWindow
  short : ∀ b ∈ c.accepted, charge b.length ≤ channelWindow
  drained : c.drained ≤ c.accepted.length
  held : c.held.Sublist c.undrained
  live : c.live = true → c.held = c.undrained

/-- What is done to the channel leaves the account of its window as it is. -/
structure SameAccount (c c' : Chan) : Prop where
  window : c'.window = c.window
  granted : c'.granted = c.granted
  accepted : c'.accepted = c.accepted
  drained : c'.drained = c.drained
  connected : c'.connected = false → c.connected = false
  held : c'.held.Sublist c.held
  live : c'.live = true → c.live = true ∧ c'.held = c.held

variable {c c' : Chan}

/-- What is done touches nothing that the account counts. -/
theorem SameAccount.of_eq (hwindow : c'.window = c.window) (hgranted : c'.granted = c.granted)
    (haccepted : c'.accepted = c.accepted) (hdrained : c'.drained = c.drained)
    (hstage : c'.stage = c.stage) (htoSocket : c'.toSocket = c.toSocket)
    (hpending : c'.pending = c.pending) (hinbound : c'.inbound = c.inbound) :
  SameAccount c c'
  := by
  have hheld : c'.held = c.held := by
    unfold Chan.held current queued
    rw [htoSocket, hpending, hinbound]
  refine ⟨hwindow, hgranted, haccepted, hdrained, ?_, ?_, ?_⟩
  · unfold Chan.connected
    rw [hstage]
    intro hc
    exact hc
  · rw [hheld]
  · unfold Chan.live
    rw [hstage, htoSocket]
    intro hlive
    apply And.intro hlive hheld

/-- What is done moves what is held. -/
theorem SameAccount.of_held (hwindow : c'.window = c.window) (hgranted : c'.granted = c.granted)
    (haccepted : c'.accepted = c.accepted) (hdrained : c'.drained = c.drained)
    (hconnected : c'.connected = false → c.connected = false)
    (hlive : c'.live = true → c.live = true) (hheld : c'.held = c.held) :
  SameAccount c c'
  := by
  refine ⟨hwindow, hgranted, haccepted, hdrained, hconnected, ?_, fun hl => ⟨hlive hl, hheld⟩⟩
  rw [hheld]

/-- What is done ends what is written to the socket. -/
theorem SameAccount.of_last (hwindow : c'.window = c.window) (hgranted : c'.granted = c.granted)
    (haccepted : c'.accepted = c.accepted) (hdrained : c'.drained = c.drained)
    (hconnected : c'.connected = true) (hlive : c'.live = false)
    (hheld : c'.held.Sublist c.held) :
  SameAccount c c'
  := by
  refine ⟨hwindow, hgranted, haccepted, hdrained, ?_, hheld, ?_⟩
  · rw [hconnected]
    nofun
  · rw [hlive]
    nofun

theorem connected_of_relaying (hs : c.stage = .relaying) :
  c.connected = true
  := by
  rw [connected]
  rw [hs]

theorem live_eq_of_done {r : RelayEnd} (ht : c.toSocket = .done r) :
  c.live = false
  := by
  rw [live]
  rw [ht]
  apply Bool.and_false

theorem live_of_relaying (hs : c.stage = .relaying) (ht : c.toSocket.result = none) :
  c.live = true
  := by
  rw [live]
  rw [hs, ht]
  rfl

/-- A step of the task leaves the account as it is, or it drains a chunk, or it widens the window. -/
theorem Step.inward {gone down : Bool} {out : Output} (hstep : Step gone down c out c') :
  SameAccount c c'
    ∨ (∃ chunk, c.stage = .relaying ∧ c.toSocket = .write chunk [] ∧ c' = c.account chunk.length)
    ∨ (c.stage = .granting ∧ c' = c.grant)
  := by
  have hrest : (c.pending ++ c.queued).Sublist c.held := List.sublist_append_right _ _
  cases hstep with
  | account hs ht => exact Or.inr (Or.inl ⟨_, hs, ht, rfl⟩)
  | grant hs => exact Or.inr (Or.inr ⟨hs, rfl⟩)
  | @nextPending b bs hs ht hpending =>
      left
      refine .of_held rfl rfl rfl rfl (fun hc => hc) (fun _ => live_of_relaying hs ?_) ?_
      · rw [ht]
        rfl
      · unfold held current queued
        rw [ht, hpending]
        rfl
  | @nextInbound cmd cmds hs ht hpending hinbound =>
      left
      have hlive : c.live = true := by
        apply live_of_relaying hs
        rw [ht]
        rfl
      cases cmd with
      | data b =>
          refine .of_held rfl rfl rfl rfl (fun hc => hc) (fun _ => hlive) ?_
          unfold held current queued
          rw [ht, hinbound, List.filterMap_cons_some (Inbound.bytes_data b)]
          change [b] ++ (c.pending ++ _) = [] ++ (c.pending ++ _)
          rw [hpending]
          rfl
      | close =>
          refine .of_last rfl rfl rfl rfl (connected_of_relaying hs) (live_eq_of_done rfl) ?_
          unfold queued at hrest
          rw [hinbound, List.filterMap_cons_none rfl] at hrest
          exact hrest
      | violation =>
          refine .of_last rfl rfl rfl rfl (connected_of_relaying hs) (live_eq_of_done rfl) ?_
          unfold queued at hrest
          rw [hinbound, List.filterMap_cons_none rfl] at hrest
          exact hrest
  | nextGone hs ht hpending hinbound hlisted =>
      exact Or.inl
        (.of_last rfl rfl rfl rfl (connected_of_relaying hs) (live_eq_of_done rfl) hrest)
  | cancelNext hs ht hpending hcancel =>
      exact Or.inl
        (.of_last rfl rfl rfl rfl (connected_of_relaying hs) (live_eq_of_done rfl) hrest)
  | writeFailed hs ht =>
      exact Or.inl
        (.of_last rfl rfl rfl rfl (connected_of_relaying hs) (live_eq_of_done rfl) hrest)
  | cancelWrite hs ht hcancel =>
      exact Or.inl
        (.of_last rfl rfl rfl rfl (connected_of_relaying hs) (live_eq_of_done rfl) hrest)
  | updateGone hs ht hsink =>
      exact Or.inl
        (.of_last rfl rfl rfl rfl (connected_of_relaying hs) (live_eq_of_done rfl) hrest)
  | write hs ht =>
      left
      refine .of_held rfl rfl rfl rfl (fun hc => hc) (fun _ => live_of_relaying hs ?_) ?_
      · rw [ht]
        rfl
      · unfold held current
        rw [ht]
        rfl
  | update hs ht hsink =>
      left
      refine .of_held rfl rfl rfl rfl (fun hc => hc) (fun _ => live_of_relaying hs ?_) ?_
      · rw [ht]
        rfl
      · unfold held current
        rw [ht]
        rfl
  | @join first second hs htunnel hsocket =>
      left
      refine .of_last rfl rfl rfl rfl ?_ (live_eq_of_done hsocket) (.refl _)
      unfold Chan.connected
      dsimp only
      split_ifs <;> rfl
  | part hs hsink => exact Or.inl (.of_last rfl rfl rfl rfl rfl rfl (.refl _))
  | partGone hs hsink => exact Or.inl (.of_last rfl rfl rfl rfl rfl rfl (.refl _))
  | greetGone hs hsink => exact Or.inl (.of_last rfl rfl rfl rfl rfl rfl (.refl _))
  | connectingGone hs hinbound hlisted =>
      exact Or.inl (.of_last rfl rfl rfl rfl rfl rfl (.refl _))
  | connectFailed hs hinbound hlisted =>
      exact Or.inl (.of_last rfl rfl rfl rfl rfl rfl (.refl _))
  | greet hs hsink =>
      left
      refine .of_held rfl rfl rfl rfl nofun ?_ rfl
      unfold Chan.live
      rw [hs]
      exact fun hl => hl
  | connected hs hinbound hlisted =>
      left
      refine .of_held rfl rfl rfl rfl ?_ ?_ rfl
      · unfold Chan.connected
        rw [hs]
        exact fun hc => hc
      · unfold Chan.live
        rw [hs]
        exact fun hl => hl
  | @connecting addr isRdp charged cmd cmds hs hinbound =>
      left
      have hheld : (c.current ++ (c.pending ++ cmds.filterMap Inbound.bytes)).Sublist c.held := by
        unfold held queued
        rw [hinbound]
        apply List.Sublist.append_left
        apply List.Sublist.append_left
        apply (List.suffix_cons cmd cmds).sublist.filterMap
      unfold onConnecting
      cases cmd with
      | data b =>
          dsimp only
          split_ifs with hfits
          · refine .of_held rfl rfl rfl rfl ?_ ?_ ?_
            · unfold Chan.connected
              rw [hs]
              exact fun hc => hc
            · unfold Chan.live
              rw [hs]
              exact fun hl => hl
            · unfold held queued
              rw [hinbound, List.filterMap_cons_some (Inbound.bytes_data b)]
              dsimp only
              rw [List.append_assoc]
              rfl
          · exact .of_last rfl rfl rfl rfl rfl rfl hheld
      | close => exact .of_last rfl rfl rfl rfl rfl rfl hheld
      | violation => exact .of_last rfl rfl rfl rfl rfl rfl hheld
  | _ => exact Or.inl (.of_eq rfl rfl rfl rfl rfl rfl rfl rfl)

theorem windowed_start {side : Side} (h : Start side c) :
  c.Windowed
  := by
  cases h with
  | controlled id addr isRdp window =>
      constructor
      · rfl
      · exact Nat.le_trans (m := initialWindow) (Nat.le_refl _) initialWindow_le
      · intro _
        rfl
      · simp [controlled]
      · exact Nat.le_refl _
      · exact List.Sublist.refl _
      · intro _
        rfl
  | controller id host port prebuf =>
      constructor
      · rfl
      · exact Nat.le_refl channelWindow
      · intro h
        cases h
      · simp [controller]
      · exact Nat.le_refl _
      · exact List.Sublist.refl _
      · intro _
        rfl

namespace Windowed

/-- What leaves the account as it is keeps it. -/
theorem of_same (h : c.Windowed) (hsame : SameAccount c c') :
  c'.Windowed
  := by
  have hundrained : c'.undrained = c.undrained := by
    unfold undrained
    rw [hsame.accepted, hsame.drained]
  constructor
  · rw [hsame.window, hundrained, hsame.granted]
    apply h.total
  · rw [hsame.granted]
    apply h.granted
  · intro hc'
    rw [hsame.granted]
    apply h.unconnected (hsame.connected hc')
  · rw [hsame.accepted]
    apply h.short
  · rw [hsame.drained, hsame.accepted]
    apply h.drained
  · rw [hundrained]
    apply hsame.held.trans h.held
  · intro hc'
    obtain ⟨hc, heq⟩ := hsame.live hc'
    rw [heq, hundrained]
    apply h.live hc

/-- What is drained was accounted for. -/
theorem undrained_of_write {chunk rest : Bytes} (h : c.Windowed) (hs : c.stage = .relaying)
    (ht : c.toSocket = .write chunk rest) :
  c.undrained = chunk :: (c.pending ++ c.queued)
  := by
  have hlive : c.live = true := by
    rw [Chan.live]
    rw [hs, ht]
    rfl
  rw [← h.live hlive]
  rw [Chan.held, current]
  rw [ht]
  rfl

/-- What the account adds up to bounds what is drained next. -/
theorem total_add_charge {chunk rest : Bytes} (h : c.Windowed) (hs : c.stage = .relaying)
    (ht : c.toSocket = .write chunk rest) :
  c.window.total + charge chunk.length ≤ channelWindow
  := by
  have htotal := h.total
  have hgranted := h.granted
  rw [h.undrained_of_write hs ht, charges_cons] at htotal
  omega

/-- A chunk is drained. -/
theorem account {chunk : Bytes} (h : c.Windowed) (hs : c.stage = .relaying)
    (ht : c.toSocket = .write chunk []) :
  (c.account chunk.length).Windowed
  := by
  have hundrained := h.undrained_of_write hs ht
  have hlt : c.drained < c.accepted.length := by
    rw [← Nat.sub_pos_iff_lt, ← List.length_drop]
    rw [undrained] at hundrained
    rw [hundrained]
    apply Nat.succ_pos
  have hafter : (c.account chunk.length).undrained = c.pending ++ c.queued := by
    change c.accepted.drop (c.drained + 1) = _
    rw [← List.tail_drop]
    rw [undrained] at hundrained
    rw [hundrained]
    rfl
  have hheld : (c.account chunk.length).held = c.pending ++ c.queued := by
    rw [Chan.held, current, Chan.account]
    dsimp only
    cases (c.window.drained chunk.length).2 <;> rfl
  have hadd := (RecvWindow.drained_total (w := c.window) (n := chunk.length)
    (Nat.le_trans (h.total_add_charge hs ht) channelWindow_le)).1
  constructor
  · rw [hafter]
    change (c.window.drained chunk.length).1.total + _ = c.granted
    have htotal := h.total
    rw [hundrained, charges_cons] at htotal
    omega
  · exact h.granted
  · intro hconnected
    rw [connected, Chan.account] at hconnected
    dsimp only at hconnected
    rw [hs] at hconnected
    cases hconnected
  · exact h.short
  · exact hlt
  · rw [hafter, hheld]
  · intro _
    rw [hafter, hheld]

/-- The window is widened to the whole one. -/
theorem widen (h : c.Windowed) (hs : c.stage = .granting) {w : RecvWindow} {granted : Nat}
    {m : PortForwardChannel} (htotal : w.total + charges c.undrained = granted)
    (hgranted : granted ≤ channelWindow) :
  ({ c with window := w, granted := granted, stage := .greeting m } : Chan).Windowed
  := by
  refine ⟨htotal, hgranted, nofun, h.short, h.drained, h.held, ?_⟩
  intro hlive
  apply h.live
  rw [Chan.live] at hlive ⊢
  rw [hs]
  exact hlive

theorem grant (h : c.Windowed) (hs : c.stage = .granting) :
  c.grant.Windowed
  := by
  have hgranted : c.granted = initialWindow := by
    apply h.unconnected
    rw [connected]
    rw [hs]
  have htotal := h.total
  rw [hgranted] at htotal
  have hremaining : c.window.remaining ≤ c.window.total := Nat.le_add_right _ _
  have hinitial := initialWindow_le
  have hle : c.window.remaining + (channelWindow - initialWindow) ≤ channelWindow := by omega
  have hadd := RecvWindow.grant_total (Nat.le_trans hle channelWindow_le)
  apply h.widen hs
  · rw [hadd.2.1]
    omega
  · omega

/-- The task keeps the account. -/
theorem step {gone down : Bool} {out : Output} (h : c.Windowed) (hstep : Step gone down c out c') :
  c'.Windowed
  := by
  obtain hsame | ⟨chunk, hs, ht, rfl⟩ | ⟨hs, rfl⟩ := hstep.inward
  · apply h.of_same hsame
  · apply h.account hs ht
  · apply h.grant hs

/-- The demultiplexer pushes a command that brings no data. -/
theorem push {cmd : Inbound} (h : c.Windowed) (hcmd : cmd.bytes = none) :
  (c.push cmd).Windowed
  := by
  unfold Chan.push
  split_ifs with hreceiving
  · have hheld : Chan.held { c with inbound := c.inbound ++ [cmd] } = c.held := by
      unfold Chan.held current queued
      rw [List.filterMap_append, List.filterMap_cons_none hcmd, List.filterMap_nil, List.append_nil]
    apply h.of_same
    refine ⟨rfl, rfl, rfl, rfl, fun hc => hc, ?_, fun hc => ⟨hc, hheld⟩⟩
    rw [hheld]
  · exact h

theorem unlist (h : c.Windowed) : c.unlist.Windowed
  := h.of_same (.of_eq rfl rfl rfl rfl rfl rfl rfl rfl)

/-- The demultiplexer takes a `data` frame. -/
theorem onData (data : Bytes) (h : c.Windowed) :
  (c.onData data).Windowed
  := by
  unfold Chan.onData
  cases haccept : c.window.accept data.length with
  | none =>
      apply push _ rfl
      apply h.unlist
  | some w =>
      obtain ⟨hremaining, hdrained⟩ := RecvWindow.accept_eq_some.mp haccept
      have htotal := h.total
      have hgranted := h.granted
      have hundrained : (c.accepted ++ [data]).drop c.drained = c.undrained ++ [data] :=
        List.drop_append_of_le_length h.drained
      have hw : w.total + charges ((c.accepted ++ [data]).drop c.drained) = c.granted := by
        rw [hundrained, charges_append, charges_cons, charges_nil]
        unfold RecvWindow.total at htotal ⊢
        omega
      have hshort : ∀ b ∈ c.accepted ++ [data], charge b.length ≤ channelWindow := by
        rw [List.forall_mem_append]
        apply And.intro h.short
        intro b hb
        rw [List.mem_singleton.mp hb]
        unfold RecvWindow.total at htotal
        omega
      have hle : c.drained ≤ (c.accepted ++ [data]).length := by
        rw [List.length_append]
        apply Nat.le_trans h.drained (Nat.le_add_right _ _)
      dsimp only
      split_ifs with hreceiving
      · have hpush : Chan.push (.data data)
            { c with window := w, accepted := c.accepted ++ [data] }
              = { c with
                  window := w
                  accepted := c.accepted ++ [data]
                  inbound := c.inbound ++ [.data data] } := by
          unfold Chan.push
          rw [if_pos hreceiving]
        have hheld : Chan.held
            { c with
              window := w
              accepted := c.accepted ++ [data]
              inbound := c.inbound ++ [.data data] } = c.held ++ [data] := by
          simp [Chan.held, current, queued]
        rw [hpush]
        constructor
        · exact hw
        · exact hgranted
        · exact h.unconnected
        · exact hshort
        · exact hle
        · rw [hheld]
          unfold undrained
          dsimp only
          rw [hundrained]
          apply List.Sublist.append h.held (.refl _)
        · intro hlive
          rw [hheld, h.live hlive]
          unfold undrained
          dsimp only
          rw [hundrained]
          rfl
      · constructor
        · exact hw
        · exact hgranted
        · exact h.unconnected
        · exact hshort
        · exact hle
        · unfold undrained Chan.unlist
          dsimp only
          rw [hundrained]
          apply h.held.trans (List.sublist_append_left _ _)
        · intro hlive
          cases hreceiving (receiving_of_live hlive)

/-- Whatever an end does to the channel keeps the account. -/
theorem move {side : Side} {t : Teardown} (h : c.Windowed) (hmove : Move side t c c') :
  c'.Windowed
  := by
  cases hmove with
  | stay => exact h
  | step hstep => exact h.step hstep
  | data data hlisted => exact h.onData data
  | close hlisted => exact h.unlist.push rfl
  | windowUpdate add hlisted =>
      exact h.of_same (.of_eq rfl rfl rfl rfl rfl rfl rfl rfl)
  | opened window hlisted hside =>
      rw [onOpened]
      split_ifs
      · exact h
      · exact h.of_same (.of_eq rfl rfl rfl rfl rfl rfl rfl rfl)
  | retain hreceiving => exact h.unlist
  | clear hcleared => exact h.unlist
  | leave hended hside =>
      exact h.of_same (.of_eq rfl rfl rfl rfl rfl rfl rfl rfl)
  | evict hlisted hside =>
      exact h.of_same (.of_eq rfl rfl rfl rfl rfl rfl rfl rfl)

end Windowed

/-! ### A channel that has refused a frame -/

/-- The channel is out of the table, and since it was `c₀` nothing was queued for it. -/
structure Shut (c₀ c : Chan) : Prop where
  unlisted : c.listed = false
  accepted : c.accepted = c₀.accepted
  queued : c.queued <:+ c₀.queued

/-- The task only takes what was queued. -/
theorem Step.entry {gone down : Bool} {out : Output} (hstep : Step gone down c out c') :
  c'.listed = c.listed ∧ c'.accepted = c.accepted ∧ c'.inbound <:+ c.inbound
  := by
  cases hstep with
  | refund hs ht => exact ⟨rfl, rfl, List.suffix_refl _⟩
  | @nextInbound cmd cmds hs ht hpending hinbound =>
      rw [hinbound]
      cases cmd <;> exact ⟨rfl, rfl, List.suffix_cons _ _⟩
  | @connecting addr isRdp charged cmd cmds hs hinbound =>
      rw [hinbound]
      unfold onConnecting
      cases cmd with
      | data b =>
          dsimp only
          split_ifs <;> exact ⟨rfl, rfl, List.suffix_cons _ _⟩
      | close => exact ⟨rfl, rfl, List.suffix_cons _ _⟩
      | violation => exact ⟨rfl, rfl, List.suffix_cons _ _⟩
  | account hs ht => exact ⟨rfl, rfl, List.suffix_refl _⟩
  | grant hs =>
      unfold Chan.grant
      exact ⟨rfl, rfl, List.suffix_refl _⟩
  | _ => exact ⟨rfl, rfl, List.suffix_refl _⟩

theorem queued_suffix (h : c'.inbound <:+ c.inbound) :
  c'.queued <:+ c.queued
  := h.filterMap _

/-- Whatever an end does to a channel out of the table queues nothing for it. -/
theorem Shut.move {c₀ : Chan} {side : Side} {t : Teardown} (h : Shut c₀ c)
    (hmove : Move side t c c') :
  Shut c₀ c'
  := by
  have hnot : c.listed ≠ true := by
    rw [h.unlisted]
    decide
  cases hmove with
  | stay => exact h
  | step hstep =>
      obtain ⟨hlisted, haccepted, hinbound⟩ := hstep.entry
      constructor
      · rw [hlisted, h.unlisted]
      · rw [haccepted, h.accepted]
      · apply (queued_suffix hinbound).trans h.queued
  | data data hlisted => exact (hnot hlisted).elim
  | close hlisted => exact (hnot hlisted).elim
  | windowUpdate add hlisted => exact (hnot hlisted).elim
  | opened window hlisted hside => exact (hnot hlisted).elim
  | retain hreceiving => exact ⟨rfl, h.accepted, h.queued⟩
  | clear hcleared => exact ⟨rfl, h.accepted, h.queued⟩
  | leave hended hside => exact ⟨rfl, h.accepted, h.queued⟩
  | evict hlisted hside => exact (hnot hlisted).elim

/-- A frame that overruns the window shuts the channel. -/
theorem shut_onData {data : Bytes} (h : c.window.accept data.length = none) :
  Shut c (c.onData data)
  := by
  unfold onData
  rw [h]
  dsimp only
  unfold push
  split_ifs with hreceiving
  · constructor
    · rfl
    · rfl
    · use []
      unfold queued unlist
      simp
  · exact ⟨rfl, rfl, List.suffix_refl _⟩

/-! ### The bounds -/

/-- What the window of a channel bounds: what is queued, and the sums the code makes. -/
structure Bounded (c : Chan) : Prop where
  account :
    c.window.remaining + charges c.undrained + c.window.drainedSinceUpdate = c.granted
  granted : c.granted ≤ channelWindow
  unconnected : c.connected = false → c.granted = initialWindow
  bytes : c.held.flatten.length ≤ channelWindow
  frames : c.held.length ≤ channelWindow / minFrameCharge
  charge_eq : ∀ b ∈ c.accepted, charge b.length = max b.length minFrameCharge
  grant_le : c.stage = .granting →
    c.window.remaining + (channelWindow - initialWindow) ≤ u32Max
  drained_le : ∀ chunk, c.stage = .relaying → c.toSocket = .write chunk [] →
    c.window.remaining + (c.window.drainedSinceUpdate + charge chunk.length) ≤ u32Max

/-- An account that is kept bounds what it counts. -/
theorem Windowed.bounded (h : c.Windowed) :
  c.Bounded
  := by
  have htotal := h.total
  have hgranted := h.granted
  have hheld := charges_le_of_sublist h.held
  have hcharges : charges c.held ≤ channelWindow := by omega
  constructor
  · rw [RecvWindow.total] at htotal
    omega
  · exact hgranted
  · exact h.unconnected
  · apply Nat.le_trans _ hcharges
    apply flatten_length_le_charges _ hcharges
  · rw [Nat.le_div_iff_mul_le (by decide), Nat.mul_comm]
    apply Nat.le_trans _ hcharges
    apply length_le_charges
  · intro b hb
    have hlen := le_charge (h.short b hb)
    have hle := Nat.le_trans hlen (Nat.le_trans (h.short b hb) channelWindow_le)
    rw [charge]
    rw [Nat.min_eq_left hle]
  · intro hs
    have hinitial := h.unconnected (by unfold connected; rw [hs])
    have hle := initialWindow_le
    have hmax := channelWindow_le
    rw [RecvWindow.total] at htotal
    omega
  · intro chunk hs ht
    have hle := h.total_add_charge hs ht
    have hmax := channelWindow_le
    rw [RecvWindow.total] at hle
    omega

end Chan

/-- Every channel of the controlled side keeps its account, whatever the controller sends. -/
theorem PortForwardMux.windowed {loginTarget : String} {hist : List (PortForwardMux × Act)}
    {m : PortForwardMux} (hrun : Run Step (new loginTarget) hist m) :
  ∀ c ∈ m.channels, c.Windowed
  := by
  apply hrun.invariant fun m => ∀ c ∈ m.channels, c.Windowed
  · intro c hc
    cases hc
  · intro m act m' hm hstep
    apply hstep.advance.forall_mem (fun c => Chan.windowed_start) _ hm
    intro c c' hc hmove
    apply hc.move hmove

/-- Every channel of the controller keeps its account, whatever the peer sends. -/
theorem TunnelHandle.windowed {hist : List (TunnelHandle × Act)} {h : TunnelHandle}
    (hrun : Run Step new hist h) :
  ∀ c ∈ h.channels, c.Windowed
  := by
  apply hrun.invariant fun h => ∀ c ∈ h.channels, c.Windowed
  · intro c hc
    cases hc
  · intro h act h' hh hstep
    apply hstep.advance.forall_mem (fun c => Chan.windowed_start) _ hh
    intro c c' hc hmove
    apply hc.move hmove

/-- A channel the controlled side has shut stays shut. -/
theorem PortForwardMux.shut {m m' : PortForwardMux} {hist : List (PortForwardMux × Act)} {i : Nat}
    {c₀ : Chan} (hrun : Run Step m hist m') (hshut : ∃ c, m.channels[i]? = some c ∧ c₀.Shut c) :
  ∃ c, m'.channels[i]? = some c ∧ c₀.Shut c
  := by
  apply hrun.invariant fun m => ∃ c, m.channels[i]? = some c ∧ c₀.Shut c
  · exact hshut
  · intro m act m' hm hstep
    apply hstep.advance.follow _ hm
    intro c c' hc hmove
    apply hc.move hmove

/-- A channel the controller has shut stays shut. -/
theorem TunnelHandle.shut {h h' : TunnelHandle} {hist : List (TunnelHandle × Act)} {i : Nat}
    {c₀ : Chan} (hrun : Run Step h hist h') (hshut : ∃ c, h.channels[i]? = some c ∧ c₀.Shut c) :
  ∃ c, h'.channels[i]? = some c ∧ c₀.Shut c
  := by
  apply hrun.invariant fun h => ∃ c, h.channels[i]? = some c ∧ c₀.Shut c
  · exact hshut
  · intro h act h' hh hstep
    apply hstep.advance.follow _ hh
    intro c c' hc hmove
    apply hc.move hmove

theorem shut_update {cs : Channels} {i : Nat} {id : ChannelId} {c : Chan} {data : Bytes}
    (hc : cs[i]? = some c) (hentry : c.isEntry id = true)
    (hrefused : c.window.accept data.length = none) :
  ∃ c', (cs.update id (Chan.onData data))[i]? = some c' ∧ c.Shut c'
  := by
  use c.onData data
  constructor
  · rw [Channels.update]
    rw [List.getElem?_map, hc, Option.map_some, if_pos hentry]
  · apply Chan.shut_onData hrefused

/-- Whatever the peer sends, and in whatever order the tasks of an end run, every channel keeps the
account of its window, which bounds what is queued for it; a frame that overruns the window shuts
the channel for good. -/
theorem inbound_bounded :
  (∀ (loginTarget : String) (hist : List (PortForwardMux × PortForwardMux.Act))
      (m : PortForwardMux), Run PortForwardMux.Step (.new loginTarget) hist m →
    (∀ c ∈ m.channels, c.Bounded)
    ∧ ∀ (i : Nat) (c : Chan) (id : ChannelId) (data : Bytes) (permitted : Bool),
        m.channels[i]? = some c → c.isEntry id = true → c.window.accept data.length = none →
      ∀ (hist' : List (PortForwardMux × PortForwardMux.Act)) (m' : PortForwardMux),
        Run PortForwardMux.Step (m.handle (.data id data) permitted) hist' m' →
      ∃ c', m'.channels[i]? = some c' ∧ c.Shut c')
  ∧ (∀ (hist : List (TunnelHandle × TunnelHandle.Act)) (h : TunnelHandle),
        Run TunnelHandle.Step .new hist h →
    (∀ c ∈ h.channels, c.Bounded)
    ∧ ∀ (i : Nat) (c : Chan) (id : ChannelId) (data : Bytes),
        h.channels[i]? = some c → c.isEntry id = true → c.window.accept data.length = none →
      ∀ (hist' : List (TunnelHandle × TunnelHandle.Act)) (h' : TunnelHandle),
        Run TunnelHandle.Step (h.onFrame (.data id data)) hist' h' →
      ∃ c', h'.channels[i]? = some c' ∧ c.Shut c')
  := by
  constructor
  · intro loginTarget hist m hrun
    constructor
    · intro c hc
      apply (PortForwardMux.windowed hrun c hc).bounded
    · intro i c id data permitted hc hentry hrefused hist' m' hrun'
      apply PortForwardMux.shut hrun'
      apply shut_update hc hentry hrefused
  · intro hist h hrun
    constructor
    · intro c hc
      apply (TunnelHandle.windowed hrun c hc).bounded
    · intro i c id data hc hentry hrefused hist' h' hrun'
      apply TunnelHandle.shut hrun'
      apply shut_update hc hentry hrefused

/-- A frame that is longer than the first window shuts the channel, which tells the peer, and takes
nothing that comes later. -/
theorem inbound_bounded_overrun :
  ∃ (opened m : PortForwardMux) (hist : List (PortForwardMux × PortForwardMux.Act)) (c : Chan),
    opened.channels = [PortForwardMux.sampleChan]
    ∧ Run PortForwardMux.Step
        (opened.handle (.data 1 (List.replicate (initialWindow + 1) 0)) true) hist m
    ∧ m.channels[0]? = some c ∧ PortForwardMux.sampleChan.Shut c ∧ c.sent = [.close 1]
    ∧ PortForwardMux.sampleChan.Bounded
  := by
  let opened : PortForwardMux :=
    { PortForwardMux.new PortForwardMux.sampleTarget with
      channels := [PortForwardMux.sampleChan] }
  let violated : Chan :=
    { PortForwardMux.sampleChan with listed := false, inbound := [.violation] }
  have hrefused : PortForwardMux.sampleChan.window.accept
      (List.replicate (initialWindow + 1) (0 : UInt8)).length = none := by
    rw [List.length_replicate]
    decide
  have hoverrun : opened.handle (.data 1 (List.replicate (initialWindow + 1) 0)) true
      = { opened with channels := [violated] } := by
    have hviolated : PortForwardMux.sampleChan.onData (List.replicate (initialWindow + 1) 0)
        = violated := by
      rw [Chan.onData, hrefused]
      rfl
    have hentry : PortForwardMux.sampleChan.isEntry 1 = true := rfl
    rw [PortForwardMux.handle, Channels.update]
    simp only [opened, List.map_cons, List.map_nil, hentry, if_true, hviolated]
  obtain ⟨hbounded, hshut⟩ := inbound_bounded.1 _ _ opened (.snoc .nil PortForwardMux.step_sampleChan)
  have hlater : Run PortForwardMux.Step { opened with channels := [violated] } _ _ :=
    Run.nil.snoc (.frame (.data 1 [7]) true)
  have htask := hlater.snoc (.task (i := 0) rfl (.connecting rfl rfl))
  have hpart := htask.snoc (.task (i := 0) rfl (.part rfl rfl))
  rw [← hoverrun] at hpart
  obtain ⟨c, hc, hshut'⟩ := hshut 0 _ 1 _ true rfl rfl hrefused _ _ hpart
  refine ⟨opened, _, _, c, rfl, hpart, hc, hshut', ?_, hbounded _ List.mem_cons_self⟩
  obtain rfl := Option.some.inj hc
  rfl

end VynxDesk.Mux
