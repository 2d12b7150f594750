import VynxDesk.PortForward.Credit

/-!
# What a channel may leave unwritten

The queue of the connection's writer is unbounded: credit is the only bound on what a channel puts
there.  The cap of the credit counter bounds it as long as the peer grants what was written
(`GrantsWritten`); a peer that grants more, while the writer does not drain, makes the queue grow.
-/

namespace VynxDesk.Mux

namespace PortForwardMux

/-- The data frames of task `i` in the queue of the writer. -/
def sentBy (i : Nat) (out : List (Option Nat × PortForwardChannel)) : List Bytes :=
  out.filterMap fun x => if x.1 = some i then dataOf x.2 else none

/-- What the data frames of task `i` cost that have not been written. -/
def unwritten (i : Nat) (m : PortForwardMux) : Nat := charges (sentBy i m.out)

/-- No channel has more than `MAX_SEND_CREDIT` unwritten. -/
def OutboundBounded (m : PortForwardMux) : Prop := ∀ i, m.unwritten i ≤ maxSendCredit

/-- A `window_update` grants no more than what the channel has written: with it, the credit, what
the relay has taken and what is unwritten stay within `MAX_SEND_CREDIT`. -/
def GrantsWritten (m : PortForwardMux) : Act → Prop
  | .frame (.windowUpdate id add) _ =>
      ∀ i c, m.channels[i]? = some c → c.isEntry id = true →
        SendCredit.add add c.credit + c.toTunnel.taken + m.unwritten i ≤ maxSendCredit
  | _ => True

/-- The credit of every channel and what it has unwritten stay within `MAX_SEND_CREDIT`, and
what is in the queue was put there by the tasks. -/
structure Within (m : PortForwardMux) : Prop where
  tags : ∀ x ∈ m.out, ∀ i, x.1 = some i → i < m.channels.length
  bound : ∀ i c, m.channels[i]? = some c → c.unspent + m.unwritten i ≤ maxSendCredit

variable {m m' : PortForwardMux}

@[simp]
theorem sentBy_append (i : Nat) (l l' : List (Option Nat × PortForwardChannel)) :
  sentBy i (l ++ l') = sentBy i l ++ sentBy i l'
  := List.filterMap_append

/-- What the demultiplexer replies is no task's. -/
theorem sentBy_eq_nil {i : Nat} {l : List (Option Nat × PortForwardChannel)}
    (h : ∀ x ∈ l, x.1 ≠ some i) :
  sentBy i l = []
  := by
  apply List.filterMap_eq_nil_iff.mpr
  intro x hx
  rw [if_neg (h x hx)]

/-- What a task puts on the queue of the writer. -/
theorem emit_out (i : Nat) (out : Output) (m : PortForwardMux) :
  ∃ l, m.emit i out = { m with out := m.out ++ l } ∧ (∀ x ∈ l, x.1 = some i)
    ∧ charges (sentBy i l) ≤ out.cost
  := by
  have hpush : ∀ ch, ∃ l, m.push (some i) ch = { m with out := m.out ++ l }
      ∧ (∀ x ∈ l, x.1 = some i) ∧ charges (sentBy i l) ≤ charges ([ch].filterMap dataOf) := by
    intro ch
    rw [push]
    split_ifs
    · use []
      simp [sentBy]
    · use [(some i, ch)]
      simp [sentBy, List.filterMap_cons]
  cases out with
  | quiet =>
      use []
      simp [emit, sentBy]
  | ordered ch => exact hpush ch
  | control ch => exact hpush ch

/-- A queue that holds nothing of a task that was not started. -/
theorem Within.unwritten_eq_zero (h : m.Within) {i : Nat} (hi : m.channels.length ≤ i) :
  m.unwritten i = 0
  := by
  rw [unwritten]
  rw [sentBy_eq_nil, charges_nil]
  intro x hx htag
  have hlt := h.tags x hx i htag
  omega

theorem Within.outboundBounded (h : m.Within) :
  m.OutboundBounded
  := by
  intro i
  cases hc : m.channels[i]? with
  | none =>
      rw [h.unwritten_eq_zero (List.getElem?_eq_none_iff.mp hc)]
      apply Nat.zero_le
  | some c =>
      have hbound := h.bound i c hc
      omega

/-- Something is done to the channels, in place. -/
theorem Within.map (h : m.Within) {f : Chan → Chan}
    (hf : ∀ i c, m.channels[i]? = some c → (f c).unspent + m.unwritten i ≤ maxSendCredit) :
  ({ m with channels := m.channels.map f } : PortForwardMux).Within
  := by
  constructor
  · intro x hx i htag
    change i < (m.channels.map f).length
    rw [List.length_map]
    apply h.tags x hx i htag
  · intro i c hc
    change (m.channels.map f)[i]? = some c at hc
    rw [List.getElem?_map, Option.map_eq_some_iff] at hc
    obtain ⟨d, hd, rfl⟩ := hc
    apply hf i d hd

/-- Something is done to the entry under `id`. -/
theorem Within.update (h : m.Within) {id : ChannelId} {f : Chan → Chan}
    (hf : ∀ i c, m.channels[i]? = some c → c.isEntry id = true →
      (f c).unspent + m.unwritten i ≤ maxSendCredit) :
  ({ m with channels := m.channels.update id f } : PortForwardMux).Within
  := by
  apply h.map
  intro i c hc
  split_ifs with hentry
  · apply hf i c hc hentry
  · apply h.bound i c hc

theorem Within.retain (h : m.Within) :
  ({ m with channels := m.channels.retain } : PortForwardMux).Within
  := by
  apply h.map
  intro i c hc
  split_ifs
  · apply h.bound i c hc
  · apply h.bound i c hc

/-- Frames of no task are put on the queue. -/
theorem Within.reply (h : m.Within) {out : List (Option Nat × PortForwardChannel)}
    (hout : ∀ x ∈ out, x.1 = none) :
  ({ m with out := m.out ++ out } : PortForwardMux).Within
  := by
  constructor
  · intro x hx i htag
    obtain hx | hx := List.mem_append.mp hx
    · apply h.tags x hx i htag
    · cases (hout x hx).symm.trans htag
  · intro i c hc
    have hnil : sentBy i out = [] := by
      apply sentBy_eq_nil
      intro x hx
      rw [hout x hx]
      nofun
    change c.unspent + charges (sentBy i (m.out ++ out)) ≤ maxSendCredit
    rw [sentBy_append, hnil, List.append_nil]
    apply h.bound i c hc

/-- A channel is started. -/
theorem Within.spawn (h : m.Within) (id : ChannelId) (addr : String) (isRdp : Bool) (window : Nat) :
  ({ m with
      channels := m.channels ++ [Chan.controlled id addr isRdp window] } : PortForwardMux).Within
  := by
  constructor
  · intro x hx i htag
    change i < (m.channels ++ [_]).length
    rw [List.length_append]
    apply Nat.lt_add_right
    apply h.tags x hx i htag
  · intro i c hc
    change (m.channels ++ [_])[i]? = some c at hc
    rw [List.getElem?_append] at hc
    split_ifs at hc with hlt
    · apply h.bound i c hc
    · rw [List.mem_singleton.mp (List.mem_of_getElem? hc)]
      change _ + m.unwritten i ≤ _
      rw [h.unwritten_eq_zero (Nat.le_of_not_lt hlt)]
      apply Nat.min_le_right

/-- A task takes a step that makes no credit. -/
theorem Within.task (h : m.Within) {i : Nat} {c c' : Chan} {out : Output}
    (hc : m.channels[i]? = some c) (hcost : c'.unspent + out.cost ≤ c.unspent) :
  (emit i out { m with channels := m.channels.set i c' }).Within
  := by
  obtain ⟨hlt, -⟩ := List.getElem?_eq_some_iff.mp hc
  obtain ⟨l, heq, hl, hcharges⟩ := emit_out i out { m with channels := m.channels.set i c' }
  rw [heq]
  constructor
  · intro x hx j htag
    change j < (m.channels.set i c').length
    rw [List.length_set]
    obtain hx | hx := List.mem_append.mp hx
    · apply h.tags x hx j htag
    · have hij := (hl x hx).symm.trans htag
      rw [Option.some.injEq] at hij
      rw [← hij]
      apply hlt
  · intro j d hd
    change (m.channels.set i c')[j]? = some d at hd
    change d.unspent + charges (sentBy j (m.out ++ l)) ≤ maxSendCredit
    rw [sentBy_append, charges_append]
    rw [List.getElem?_set] at hd
    split_ifs at hd with hij
    · subst hij
      cases hd
      have hbound := h.bound i c hc
      rw [unwritten] at hbound
      omega
    · have hnil : sentBy j l = [] := by
        apply sentBy_eq_nil
        intro x hx
        rw [hl x hx, ne_eq, Option.some.injEq]
        apply hij
      rw [hnil, charges_nil]
      apply h.bound j d hd

end PortForwardMux

namespace Chan

theorem push_credit (cmd : Inbound) (c : Chan) :
  (c.push cmd).credit = c.credit
  := by
  rw [push]
  split_ifs <;> rfl

theorem push_unspent (cmd : Inbound) (c : Chan) :
  (c.push cmd).unspent = c.unspent
  := by
  unfold unspent
  rw [push_credit, ((SameTask.refl c).push cmd).toTunnel]

theorem onData_unspent (data : Bytes) (c : Chan) :
  (c.onData data).unspent = c.unspent
  := by
  rw [onData]
  cases c.window.accept data.length with
  | none => exact push_unspent .violation c.unlist
  | some w =>
      dsimp only
      split_ifs
      · apply push_unspent
      · rfl

theorem onClose_unspent (c : Chan) : c.onClose.unspent = c.unspent := push_unspent .close c.unlist

end Chan

namespace PortForwardMux

variable {m m' : PortForwardMux}

/-- A step that grants no more than what was written keeps every channel within its bound. -/
theorem Within.step {act : Act} (h : m.Within)
    (hknown : ∀ c ∈ m.channels, Chan.Known .controlled m.teardown c)
    (hgrants : m.GrantsWritten act) (hstep : Step m act m') :
  m'.Within
  := by
  cases hstep with
  | frame ch permitted =>
      cases ch with
      | data id data =>
          apply h.update
          intro i c hc _
          rw [Chan.onData_unspent]
          apply h.bound i c hc
      | close id =>
          apply h.update
          intro i c hc _
          rw [Chan.onClose_unspent]
          apply h.bound i c hc
      | windowUpdate id add =>
          apply h.update
          intro i c hc hentry
          apply hgrants i c hc hentry
      | opened id success message window => exact h
      | other => exact h
      | openCh id host port window =>
          obtain ⟨out, heq, hout⟩ | ⟨addr, isRdp, heq, -, -⟩ :=
            onOpen_cases id host port window permitted m
          · unfold handle
            dsimp only
            rw [heq]
            apply h.retain.reply
            intro x hx
            apply (hout x hx).1
          · unfold handle
            dsimp only
            rw [heq]
            apply h.retain.spawn
  | task hc hstep =>
      have hck := hknown _ (List.mem_of_getElem? hc)
      apply h.task hc (hstep.credit hck.paying hck.course).1
  | @write x rest hout =>
      have hrest : ∀ i, charges (sentBy i rest) ≤ m.unwritten i := by
        intro i
        unfold unwritten sentBy
        rw [hout]
        apply charges_le_of_sublist
        apply (List.sublist_cons_self x rest).filterMap
      constructor
      · intro y hy i htag
        apply h.tags y _ i htag
        rw [hout]
        apply List.mem_cons_of_mem x hy
      · intro i c hc
        apply Nat.le_trans _ (h.bound i c hc)
        apply Nat.add_le_add_left (hrest i)
  | clear =>
      have hmap := h.map (f := Chan.unlist) h.bound
      exact ⟨hmap.tags, hmap.bound⟩
  | raise hcleared => exact ⟨h.tags, h.bound⟩
  | drop =>
      refine ⟨nofun, ?_⟩
      intro i c hc
      apply Nat.le_trans _ (h.bound i c hc)
      apply Nat.add_le_add_left
      apply Nat.zero_le

/-- In every run in which the controller grants no more than what was written, no channel ever has
more than `MAX_SEND_CREDIT` unwritten. -/
theorem outboundBounded_of_run {loginTarget : String} {hist : List (PortForwardMux × Act)}
    (hrun : Run Step (new loginTarget) hist m) (hgrants : ∀ x ∈ hist, x.1.GrantsWritten x.2) :
  (∀ x ∈ hist, x.1.OutboundBounded) ∧ m.OutboundBounded
  := by
  apply hrun.forall_of GrantsWritten
    (fun m => m.Within ∧ ∀ c ∈ m.channels, Chan.Known .controlled m.teardown c)
    OutboundBounded _ _ _ hgrants
  · refine ⟨⟨?_, ?_⟩, ?_⟩
    · intro x hx
      cases hx
    · intro i c hc
      cases hc
    · intro c hc
      cases hc
  · intro m hm
    apply hm.1.outboundBounded
  · intro m act m' hm hact hstep
    constructor
    · apply hm.1.step hm.2 hact hstep
    · apply hstep.advance.known hstep.teardown_mono.1 hstep.teardown_mono.2 hm.2

/-! ### A writer that does not drain -/

/-- A frame of `MAX_FRAME` bytes. -/
def sampleFrame : Bytes := List.replicate maxFrame 0

/-- The first channel relays, with `credit` to send, and its relay waits for credit. -/
structure Idle (m : PortForwardMux) (c : Chan) (credit : Nat) : Prop where
  channels : m.channels = [c]
  gone : m.teardown.gone = false
  stage : c.stage = .relaying
  toTunnel : c.toTunnel = .take
  prebuf : c.prebuf = []
  entry : c.isEntry 1 = true
  credit : c.credit = credit

/-- `Idle`, after a run that granted no more than what was written. -/
def Reaches (m₀ : PortForwardMux) (credit : Nat) (out : List (Option Nat × PortForwardChannel)) :
    Prop :=
  ∃ hist m c, Run Step m₀ hist m ∧ (∀ x ∈ hist, x.1.GrantsWritten x.2) ∧ m.Idle c credit
    ∧ m.out = out

theorem charge_sampleFrame : charge sampleFrame.length = maxFrame := by
  rw [sampleFrame]
  rw [List.length_replicate]
  decide

/-- The task of the only channel takes a step. -/
theorem Step.first {c c' : Chan} {out : Output} (hm : m.channels = [c])
    (hstep : Chan.Step m.teardown.gone m.teardown.down c out c') :
  Step m (.task 0) (emit 0 out { m with channels := [c'] })
  := by
  have hc : m.channels[0]? = some c := by
    rw [hm]
    rfl
  have hset : m.channels.set 0 c' = [c'] := by
    rw [hm]
    rfl
  rw [← hset]
  exact .task hc hstep

/-- The relay reads as much of its socket as it has taken credit for, and sends it. -/
theorem Reaches.send {m₀ m : PortForwardMux} {hist : List (PortForwardMux × Act)} {c : Chan}
    {credit k allow : Nat} {b : Bytes} (hrun : Run Step m₀ hist m)
    (hgrants : ∀ x ∈ hist, x.1.GrantsWritten x.2) (hidle : m.Idle c credit)
    (hmin : minFrameCharge ≤ c.credit) (htaken : SendCredit.taken maxFrame c.credit = allow)
    (hk : c.credit - allow = k) (hb : charge b.length = allow) (hlen : b.length ≤ allow)
    (hne : b ≠ []) :
  Reaches m₀ k (m.out ++ [(some 0, .data c.id b)])
  := by
  obtain ⟨hchannels, hgone, hs, ht, hbuf, hentry, -⟩ := hidle
  let sending (t : ToTunnel) : Chan :=
    { c with credit := k, produced := c.produced ++ b, toTunnel := t }
  have htake : Chan.Step m.teardown.gone m.teardown.down c .quiet
      { c with credit := k, toTunnel := .read allow } := by
    rw [← hk, ← htaken]
    exact .take hs ht hmin
  have hread : Chan.Step m.teardown.gone m.teardown.down
      { c with credit := k, toTunnel := .read allow } .quiet (sending (.refund allow b)) :=
    .readSocket hs rfl hbuf hlen
  have hrefund : Chan.Step m.teardown.gone m.teardown.down (sending (.refund allow b)) .quiet
      (sending (.send allow b)) := by
    have heq : (sending (.refund allow b)).refund allow b = sending (.send allow b) := by
      unfold Chan.refund
      rw [if_neg hne, if_neg hne, hb]
      dsimp only
      rw [if_neg (Nat.lt_irrefl allow)]
    rw [← heq]
    exact .refund hs rfl
  let sent : Chan :=
    { sending .take with sent := c.sent ++ [.data c.id b], paid := c.paid ++ [(allow, b)] }
  have hsend : Chan.Step m.teardown.gone m.teardown.down (sending (.send allow b))
      (.ordered (.data c.id b)) sent :=
    .send hs rfl hgone
  have hrun' := (((hrun.snoc (.first hchannels htake)).snoc (.first rfl hread)).snoc
    (.first rfl hrefund)).snoc (.first rfl hsend)
  refine ⟨_, _, sent, hrun', ?_, ⟨?_, ?_, hs, rfl, hbuf, hentry, rfl⟩, ?_⟩
  · simp only [List.forall_mem_append, List.forall_mem_singleton]
    exact ⟨⟨⟨⟨hgrants, trivial⟩, trivial⟩, trivial⟩, trivial⟩
  · rw [emit_channels]
  · rw [emit_teardown]
    exact hgone
  · unfold emit push
    dsimp only
    rw [hgone]
    rfl

/-- The relay reads a whole frame of its socket, and sends it. -/
theorem Reaches.round {m₀ : PortForwardMux} {credit : Nat}
    {out : List (Option Nat × PortForwardChannel)} (h : Reaches m₀ credit out)
    (hcredit : maxFrame ≤ credit) :
  Reaches m₀ (credit - maxFrame) (out ++ [(some 0, .data 1 sampleFrame)])
  := by
  obtain ⟨hist, m, c, hrun, hgrants, hidle, rfl⟩ := h
  have heq := hidle.credit
  have hlen : sampleFrame.length = maxFrame := List.length_replicate
  have hid : c.id = 1 := by
    have hentry := hidle.entry
    rw [Chan.isEntry] at hentry
    rw [Bool.and_eq_true, beq_iff_eq] at hentry
    exact hentry.2
  have hsend := Reaches.send (b := sampleFrame) hrun hgrants hidle
    (by rw [heq]; exact Nat.le_trans (by decide) hcredit)
    (by rw [heq]; exact Nat.min_eq_right hcredit) (by rw [heq]) charge_sampleFrame
    (Nat.le_of_eq hlen)
    (by intro hnil; rw [hnil] at hlen; cases hlen)
  rw [hid] at hsend
  exact hsend

/-- The peer grants credit. -/
theorem Idle.grant {m : PortForwardMux} {c : Chan} {credit : Nat} (h : m.Idle c credit)
    (add : Nat) :
  (m.handle (.windowUpdate 1 add) true).Idle (c.onWindowUpdate add) (SendCredit.add add credit)
  := by
  obtain ⟨hchannels, hgone, hs, ht, hbuf, hentry, rfl⟩ := h
  refine ⟨?_, hgone, hs, ht, hbuf, hentry, rfl⟩
  change m.channels.update 1 (Chan.onWindowUpdate add) = _
  rw [Channels.update]
  rw [hchannels, List.map_cons, List.map_nil, if_pos hentry]

/-- The peer grants no more than what the channel has written. -/
theorem Reaches.grant {m₀ : PortForwardMux} {credit : Nat}
    {out : List (Option Nat × PortForwardChannel)} (h : Reaches m₀ credit out) (add : Nat)
    (hout : credit + add + charges (sentBy 0 out) ≤ maxSendCredit) :
  Reaches m₀ (credit + add) out
  := by
  obtain ⟨hist, m, c, hrun, hgrants, hidle, rfl⟩ := h
  have hadd : SendCredit.add add credit = credit + add := SendCredit.add_of_le (by omega)
  have hafter := hidle.grant add
  rw [hadd] at hafter
  refine ⟨_, _, _, hrun.snoc (.frame (.windowUpdate 1 add) true), ?_, hafter, rfl⟩
  rw [List.forall_mem_append, List.forall_mem_singleton]
  apply And.intro hgrants
  intro i d hd _
  dsimp only at hd ⊢
  rw [hidle.channels] at hd
  cases i with
  | zero =>
      cases hd
      rw [hidle.credit, hadd, hidle.toTunnel]
      exact hout
  | succ i => cases hd

/-- The writer writes a frame. -/
theorem Reaches.write {m₀ : PortForwardMux} {credit : Nat} {x : Option Nat × PortForwardChannel}
    {out : List (Option Nat × PortForwardChannel)} (h : Reaches m₀ credit (x :: out)) :
  Reaches m₀ credit out
  := by
  obtain ⟨hist, m, c, hrun, hgrants, ⟨hchannels, hgone, hs, ht, hbuf, hentry, hcredit⟩, hout⟩ := h
  refine ⟨_, _, c, hrun.snoc (.write hout), ?_,
    ⟨hchannels, hgone, hs, ht, hbuf, hentry, hcredit⟩, rfl⟩
  rw [List.forall_mem_append, List.forall_mem_singleton]
  exact ⟨hgrants, trivial⟩

/-- The controller opens a channel, and the target accepts the connection. -/
theorem reaches_open :
  Reaches (new sampleTarget) maxSendCredit [(some 0, .opened 1 true "" channelWindow)]
  := by
  let granted : Chan := { sampleChan with stage := .granting }
  let opened : Chan :=
    { granted.grant with stage := .relaying, sent := [.opened 1 true "" channelWindow] }
  have hconnect : Chan.Step false false sampleChan .quiet granted := .connected rfl rfl rfl
  have hgrant : Chan.Step false false granted .quiet granted.grant := .grant rfl
  have hgreet : Chan.Step false false granted.grant (.ordered (.opened 1 true "" channelWindow))
      opened := .greet rfl rfl
  have hrun := (((Run.nil.snoc step_sampleChan).snoc (.first rfl hconnect)).snoc
    (.first rfl hgrant)).snoc (.first rfl hgreet)
  refine ⟨_, _, opened, hrun, ?_, ⟨rfl, rfl, rfl, rfl, rfl, rfl, rfl⟩, rfl⟩
  simp only [List.forall_mem_append, List.forall_mem_singleton]
  exact ⟨⟨⟨⟨by rintro x ⟨⟩, trivial⟩, trivial⟩, trivial⟩, trivial⟩

/-- A frame more in the queue of the writer. -/
theorem charges_sentBy_sample (out : List (Option Nat × PortForwardChannel)) :
  charges (sentBy 0 (out ++ [(some 0, .data 1 sampleFrame)])) = charges (sentBy 0 out) + maxFrame
  := by
  have hone : sentBy 0 [(some 0, .data 1 sampleFrame)] = [sampleFrame] := rfl
  rw [sentBy_append, charges_append, hone, charges_cons, charges_nil, charge_sampleFrame,
    Nat.add_zero]

/-- A channel sends a frame, the writer writes it, the controller grants its cost, and the channel
sends all it may. -/
theorem outboundBounded_granted :
  ∃ hist m, Run Step (new sampleTarget) hist m ∧ m.unwritten 0 = maxSendCredit
    ∧ (∀ x ∈ hist, x.1.OutboundBounded) ∧ m.OutboundBounded
  := by
  have hsent := (reaches_open.round (by decide)).write.write
  have hgranted := hsent.grant maxFrame (by decide)
  obtain ⟨hist, m, c, hrun, hgrants, -, hout⟩ :=
    (((hgranted.round (by decide)).round (by decide)).round (by decide)).round (by decide)
  refine ⟨hist, m, hrun, ?_, outboundBounded_of_run hrun hgrants⟩
  rw [unwritten]
  rw [hout]
  simp only [charges_sentBy_sample]
  rfl

/-- The controller grants a frame ahead of the writer: the channel has five frames unwritten, which
cost more than `MAX_SEND_CREDIT`. -/
theorem not_outboundBounded_ahead :
  ∃ hist m, Run Step (new sampleTarget) hist m ∧ ¬ m.OutboundBounded
  := by
  obtain ⟨hist, m, c, hrun, hgrants, hidle, hout⟩ :=
    (((reaches_open.round (by decide)).round (by decide)).round (by decide)).round (by decide)
  have hahead : Reaches (m.handle (.windowUpdate 1 maxFrame) true) maxFrame m.out := by
    refine ⟨[], _, _, .nil, ?_, hidle.grant maxFrame, rfl⟩
    nofun
  obtain ⟨hist', m', c', hrun', -, -, hout'⟩ := hahead.round (Nat.le_refl _)
  refine ⟨_, m', (hrun.snoc (.frame (.windowUpdate 1 maxFrame) true)).append hrun', ?_⟩
  intro hbounded
  have hle := hbounded 0
  rw [unwritten] at hle
  rw [hout', hout] at hle
  simp only [charges_sentBy_sample] at hle
  revert hle
  decide

end PortForwardMux

end VynxDesk.Mux
