import Mathlib.Data.List.Infix
import VynxDesk.PortForward.Credit

/-!
# The bytes of a channel

What the local side of a channel produces is framed in order (`Chan.Sourced`), and what the channel
accepts is written in order (`Chan.Received`).  Both are kept by whatever an end does to the
channel, and they hold whatever the peer does: between the two ends, the frames are all there is.
-/

namespace VynxDesk.Mux

/-- The bytes in the frames. -/
def dataBytes (l : List PortForwardChannel) : Bytes := (l.filterMap dataOf).flatten

@[simp]
theorem dataBytes_append (l l' : List PortForwardChannel) :
  dataBytes (l ++ l') = dataBytes l ++ dataBytes l'
  := by
  simp [dataBytes]

/-- The bytes the relay that reads the socket has read, and has not framed. -/
def ToTunnel.hand : ToTunnel → Bytes
  | .refund _ chunk => chunk
  | .send _ chunk => chunk
  | _ => []

/-- The bytes of its chunk the relay that writes to the socket has not written. -/
def ToSocket.rest : ToSocket → Bytes
  | .write _ rest => rest
  | _ => []

namespace Chan

/-- The bytes the channel has framed for its peer. -/
def framed (c : Chan) : Bytes := dataBytes c.sent

/-- What the local side has produced is framed in order, and what is not framed yet is in the hand
of the relay or in the head of the byte stream, until the relay ends. -/
structure Sourced (c : Chan) : Prop where
  order : c.framed <+: c.produced
  whole : c.toTunnel.result = none → c.framed ++ c.toTunnel.hand ++ c.prebuf = c.produced

variable {c c' : Chan}

/-! ### What is framed -/

theorem framed_put (m : PortForwardChannel) (c : Chan) :
  (c.put m).framed = c.framed ++ dataBytes [m]
  := dataBytes_append c.sent [m]

/-- The frame brings no bytes. -/
theorem dataBytes_of_not_isData {m : PortForwardChannel} (hm : isData m = false) :
  dataBytes [m] = []
  := by
  cases m with
  | data id data => cases hm
  | _ => rfl

theorem framed_put_of_not_isData {m : PortForwardChannel} (hm : isData m = false) :
  (c.put m).framed = c.framed
  := by
  rw [framed_put, dataBytes_of_not_isData hm, List.append_nil]

namespace Sourced

theorem start {side : Side} (h : Start side c) :
  c.Sourced
  := by
  cases h with
  | controlled id addr isRdp window => exact ⟨List.nil_prefix, fun _ => rfl⟩
  | controller id host port prebuf => exact ⟨List.nil_prefix, fun _ => rfl⟩

/-- What the relay moves is neither lost nor made up. -/
theorem of_whole
    (hwhole : c'.framed ++ c'.toTunnel.hand ++ c'.prebuf = c'.produced) :
  c'.Sourced
  := by
  refine ⟨?_, fun _ => hwhole⟩
  rw [← hwhole, List.append_assoc]
  apply List.prefix_append

/-- What is done touches nothing of what was produced. -/
theorem of_same (h : c.Sourced) (hframed : c'.framed = c.framed)
    (htoTunnel : c'.toTunnel = c.toTunnel) (hprebuf : c'.prebuf = c.prebuf)
    (hproduced : c'.produced = c.produced) :
  c'.Sourced
  := by
  constructor
  · rw [hframed, hproduced]
    apply h.order
  · rw [hframed, htoTunnel, hprebuf, hproduced]
    apply h.whole

/-- What is done ends the relay. -/
theorem of_done (h : c.Sourced) (hframed : c'.framed = c.framed)
    (hproduced : c'.produced = c.produced) {r : RelayEnd} (htoTunnel : c'.toTunnel = .done r) :
  c'.Sourced
  := by
  constructor
  · rw [hframed, hproduced]
    apply h.order
  · rw [htoTunnel]
    nofun

/-- What is not framed, by where the relay stands. -/
theorem whole_of (h : c.Sourced) {t : ToTunnel} (ht : c.toTunnel = t) (hresult : t.result = none) :
  c.framed ++ t.hand ++ c.prebuf = c.produced
  := by
  rw [← ht]
  apply h.whole
  rw [ht]
  exact hresult

/-- The task frames what its local side has produced, in order. -/
theorem step {side : Side} {gone down : Bool} {out : Output} (h : c.Sourced)
    (hcourse : c.Course side) (hstep : Step gone down c out c') :
  c'.Sourced
  := by
  cases hstep with
  | take hs ht hcredit =>
      apply of_whole
      apply h.whole_of ht rfl
  | @readPrebuf allow hs ht hbuf =>
      apply of_whole
      change c.framed ++ c.prebuf.take allow ++ c.prebuf.drop allow = c.produced
      rw [List.append_assoc, List.take_append_drop, ← h.whole_of ht rfl]
      simp [ToTunnel.hand]
  | @readSocket allow chunk hs ht hbuf hlen =>
      apply of_whole
      change c.framed ++ chunk ++ c.prebuf = c.produced ++ chunk
      rw [← h.whole_of ht rfl, hbuf]
      simp [ToTunnel.hand]
  | @refund allow chunk hs ht =>
      by_cases hchunk : chunk = []
      · refine h.of_done rfl rfl (r := .localEof) ?_
        rw [Chan.refund]
        exact if_pos hchunk
      · apply of_whole
        have hhand : (c.refund allow chunk).toTunnel = .send allow chunk := if_neg hchunk
        rw [hhand]
        apply h.whole_of ht rfl
  | @send allow chunk hs ht hsink =>
      apply of_whole
      change (c.put (.data c.id chunk)).framed ++ [] ++ c.prebuf = c.produced
      rw [framed_put, ← h.whole_of ht rfl]
      simp [dataBytes, dataOf, ToTunnel.hand]
  | cancelTake hs ht hcancel => exact h.of_done rfl rfl rfl
  | cancelRead hs ht hcancel => exact h.of_done rfl rfl rfl
  | sendGone hs ht hsink => exact h.of_done rfl rfl rfl
  | @update add hs ht hsink =>
      refine h.of_same ?_ rfl rfl rfl
      exact framed_put_of_not_isData (m := .windowUpdate c.id add) rfl
  | @part m hs hsink =>
      refine h.of_same ?_ rfl rfl rfl
      exact framed_put_of_not_isData (hcourse.not_isData (Or.inr hs))
  | @greet m hs hsink =>
      refine h.of_same ?_ rfl rfl rfl
      exact framed_put_of_not_isData (hcourse.not_isData (Or.inl hs))
  | @nextInbound cmd cmds hs ht hpending hinbound =>
      cases cmd <;> exact h.of_same rfl rfl rfl rfl
  | @connecting addr isRdp charged cmd cmds hs hinbound =>
      unfold onConnecting
      cases cmd with
      | data b =>
          dsimp only
          split_ifs <;> exact h.of_same rfl rfl rfl rfl
      | close => exact h.of_same rfl rfl rfl rfl
      | violation => exact h.of_same rfl rfl rfl rfl
  | grant hs =>
      unfold Chan.grant
      refine h.of_same ?_ rfl rfl rfl
      unfold framed
      rfl
  | _ => exact h.of_same rfl rfl rfl rfl

/-- Whatever an end does to the channel, what was produced is framed in order. -/
theorem move {side : Side} {t : Teardown} (h : c.Sourced) (hcourse : c.Course side)
    (hmove : Move side t c c') :
  c'.Sourced
  := by
  obtain ⟨out, hstep⟩ | hsame := hmove.task
  · apply h.step hcourse hstep
  · apply h.of_same _ hsame.toTunnel hsame.prebuf hsame.produced
    unfold framed
    rw [hsame.sent]

end Sourced

/-! ### What is written -/

/-- What was accepted is written in order.  While the relay writes, `drained` tells how far it is;
once the inbound queue holds something else than data, nothing follows it, and the entry has left
the table; and a relay that ends on the peer's `close` has written all there is. -/
structure Received (c : Chan) : Prop where
  order : c.written <+: c.accepted.flatten
  whole : c.toSocket.result = none →
    c.written ++ c.toSocket.rest = (c.accepted.take (c.drained + c.current.length)).flatten
  entry : c.listed = true → ∀ cmd ∈ c.inbound, cmd.bytes ≠ none
  last : ∀ cmd ∈ c.inbound.dropLast, cmd.bytes ≠ none
  closed : c.toSocket = .done .peerClosed → c.listed = false ∧ c.written = c.accepted.flatten

namespace Received

theorem start {side : Side} (h : Start side c) :
  c.Received
  := by
  cases h with
  | controlled id addr isRdp window =>
      exact ⟨List.nil_prefix, fun _ => rfl, fun _ => nofun, nofun, nofun⟩
  | controller id host port prebuf =>
      exact ⟨List.nil_prefix, fun _ => rfl, fun _ => nofun, nofun, nofun⟩

/-- The commands but the last, of what is left of a queue. -/
theorem mem_dropLast_of_suffix {α : Type*} {l l' : List α} {x : α} (h : l' <:+ l)
    (hx : x ∈ l'.dropLast) :
  x ∈ l.dropLast
  := by
  obtain ⟨t, rfl⟩ := h
  have hne : l' ≠ [] := by
    rintro rfl
    cases hx
  rw [List.dropLast_append_of_ne_nil hne]
  apply List.mem_append_right t hx

/-- What is done takes commands, and touches nothing the relay writes. -/
theorem of_same (h : c.Received) (hwritten : c'.written = c.written)
    (haccepted : c'.accepted = c.accepted) (hdrained : c'.drained = c.drained)
    (htoSocket : c'.toSocket = c.toSocket) (hinbound : c'.inbound <:+ c.inbound)
    (hlisted : c'.listed = true → c.listed = true) :
  c'.Received
  := by
  have hcurrent : c'.current = c.current := by
    unfold current
    rw [htoSocket]
  constructor
  · rw [hwritten, haccepted]
    apply h.order
  · rw [htoSocket, hwritten, haccepted, hdrained, hcurrent]
    apply h.whole
  · intro hl cmd hcmd
    apply h.entry (hlisted hl)
    apply hinbound.subset hcmd
  · intro cmd hcmd
    apply h.last
    apply mem_dropLast_of_suffix hinbound hcmd
  · rw [htoSocket, hwritten, haccepted]
    intro hdone
    obtain ⟨hunlisted, hall⟩ := h.closed hdone
    apply And.intro _ hall
    rw [Bool.eq_false_iff] at hunlisted ⊢
    exact fun hl => hunlisted (hlisted hl)

/-- What is done ends the relay, and not on the peer's `close`. -/
theorem of_done {r : RelayEnd} (h : c.Received) (hwritten : c'.written = c.written)
    (haccepted : c'.accepted = c.accepted) (htoSocket : c'.toSocket = .done r)
    (hr : r ≠ .peerClosed) (hinbound : c'.inbound <:+ c.inbound)
    (hlisted : c'.listed = c.listed) :
  c'.Received
  := by
  constructor
  · rw [hwritten, haccepted]
    apply h.order
  · rw [htoSocket]
    nofun
  · intro hl cmd hcmd
    rw [hlisted] at hl
    apply h.entry hl
    apply hinbound.subset hcmd
  · intro cmd hcmd
    apply h.last
    apply mem_dropLast_of_suffix hinbound hcmd
  · rw [htoSocket]
    rintro ⟨⟩
    exact absurd rfl hr

/-- What is done moves on in what is written. -/
theorem of_whole (h : c.Received) (hresult : c'.toSocket.result = none)
    (hwhole : c'.written ++ c'.toSocket.rest
      = (c'.accepted.take (c'.drained + c'.current.length)).flatten)
    (hinbound : c'.inbound <:+ c.inbound) (hlisted : c'.listed = c.listed) :
  c'.Received
  := by
  constructor
  · apply (List.prefix_append _ c'.toSocket.rest).trans
    rw [hwhole]
    exact List.IsPrefix.flatten (List.take_prefix _ _)
  · intro _
    exact hwhole
  · intro hl cmd hcmd
    rw [hlisted] at hl
    apply h.entry hl
    apply hinbound.subset hcmd
  · intro cmd hcmd
    apply h.last
    apply mem_dropLast_of_suffix hinbound hcmd
  · intro hdone
    rw [hdone] at hresult
    cases hresult

/-- While the relay takes its next chunk, all that was drained is written. -/
theorem written_of_next (h : c.Received) (ht : c.toSocket = .next) :
  c.written = (c.accepted.take c.drained).flatten
  := by
  have hwhole := h.whole (by rw [ht]; rfl)
  unfold current at hwhole
  rw [ht] at hwhole
  rw [← List.append_nil c.written]
  exact hwhole

/-- While the relay takes its next chunk, what is held is what was accepted and not drained. -/
theorem undrained_of_next (hwindowed : c.Windowed) (hs : c.stage = .relaying)
    (ht : c.toSocket = .next) :
  c.accepted.drop c.drained = c.pending ++ c.queued
  := by
  have hlive := hwindowed.live (live_of_relaying hs (by rw [ht]; rfl))
  rw [held, current] at hlive
  rw [ht] at hlive
  exact hlive.symm

/-- The relay takes its next chunk, the first that was accepted and not drained. -/
theorem whole_of_next {b : Bytes} {bs : List Bytes} (h : c.Received) (ht : c.toSocket = .next)
    (hdrop : c.accepted.drop c.drained = b :: bs) :
  c.written ++ b = (c.accepted.take (c.drained + 1)).flatten
  := by
  have htake : c.accepted.take (c.drained + 1) = c.accepted.take c.drained ++ [b] := by
    rw [List.take_add, hdrop]
    rfl
  rw [h.written_of_next ht, htake, List.flatten_append, List.flatten_singleton]

/-- The relay finds the peer's `close`, behind all that was accepted. -/
theorem onClosed {cmds : List Inbound} (h : c.Received) (hwindowed : c.Windowed)
    (hs : c.stage = .relaying) (ht : c.toSocket = .next) (hpending : c.pending = [])
    (hinbound : c.inbound = .close :: cmds) :
  c.listed = false ∧ cmds = [] ∧ c.written = c.accepted.flatten
  := by
  have hunlisted : c.listed = false := by
    rw [Bool.eq_false_iff]
    intro hl
    apply h.entry hl .close _ rfl
    rw [hinbound]
    apply List.mem_cons_self
  have hcmds : cmds = [] := by
    by_contra hne
    apply h.last .close _ rfl
    rw [hinbound, List.dropLast_cons_of_ne_nil hne]
    apply List.mem_cons_self
  have hdrop : c.accepted.drop c.drained = [] := by
    rw [undrained_of_next hwindowed hs ht, hpending, queued]
    rw [hinbound, hcmds]
    rfl
  refine ⟨hunlisted, hcmds, ?_⟩
  have hall := List.take_append_drop c.drained c.accepted
  rw [hdrop, List.append_nil] at hall
  rw [h.written_of_next ht, hall]

/-- The task writes what was accepted, in order. -/
theorem step {gone down : Bool} {out : Output} (h : c.Received) (hwindowed : c.Windowed)
    (hstep : Step gone down c out c') :
  c'.Received
  := by
  have hkept : c.inbound <:+ c.inbound := List.suffix_refl _
  cases hstep with
  | @nextPending b bs hs ht hpending =>
      refine h.of_whole rfl ?_ hkept rfl
      apply h.whole_of_next ht
      rw [undrained_of_next hwindowed hs ht, hpending]
      rfl
  | @nextInbound cmd cmds hs ht hpending hinbound =>
      have hcmds : cmds <:+ c.inbound := by
        rw [hinbound]
        apply List.suffix_cons
      cases cmd with
      | data b =>
          refine h.of_whole rfl ?_ hcmds rfl
          have hdrop : c.accepted.drop c.drained = b :: cmds.filterMap Inbound.bytes := by
            rw [undrained_of_next hwindowed hs ht, hpending, queued]
            rw [hinbound]
            rfl
          exact h.whole_of_next ht hdrop
      | close =>
          obtain ⟨hunlisted, rfl, hall⟩ := h.onClosed hwindowed hs ht hpending hinbound
          refine ⟨h.order, by rintro ⟨⟩, ?_, by rintro cmd ⟨⟩, fun _ => ⟨hunlisted, hall⟩⟩
          intro hl
          cases hunlisted.symm.trans hl
      | violation => exact h.of_done rfl rfl rfl (by rintro ⟨⟩) hcmds rfl
  | nextGone hs ht hpending hinbound hlisted => exact h.of_done rfl rfl rfl (by rintro ⟨⟩) hkept rfl
  | cancelNext hs ht hpending hcancel => exact h.of_done rfl rfl rfl (by rintro ⟨⟩) hkept rfl
  | @write chunk rest n hs ht =>
      refine h.of_whole rfl ?_ hkept rfl
      have hwhole := h.whole (by rw [ht]; rfl)
      rw [current] at hwhole
      rw [ht] at hwhole
      change c.written ++ rest.take n ++ rest.drop n = _
      rw [List.append_assoc, List.take_append_drop]
      exact hwhole
  | writeFailed hs ht => exact h.of_done rfl rfl rfl (by rintro ⟨⟩) hkept rfl
  | cancelWrite hs ht hcancel => exact h.of_done rfl rfl rfl (by rintro ⟨⟩) hkept rfl
  | @account chunk hs ht =>
      have hwhole := h.whole (by rw [ht]; rfl)
      rw [current] at hwhole
      rw [ht] at hwhole
      rw [ToSocket.rest] at hwhole
      rw [Chan.account]
      cases (c.window.drained chunk.length).2 with
      | none => exact h.of_whole rfl hwhole hkept rfl
      | some add => exact h.of_whole rfl hwhole hkept rfl
  | @update add hs ht hsink =>
      refine h.of_whole rfl ?_ hkept rfl
      have hwhole := h.whole (by rw [ht]; rfl)
      rw [current] at hwhole
      rw [ht] at hwhole
      exact hwhole
  | updateGone hs ht hsink => exact h.of_done rfl rfl rfl (by rintro ⟨⟩) hkept rfl
  | @connecting addr isRdp charged cmd cmds hs hinbound =>
      have hcmds : cmds <:+ c.inbound := by
        rw [hinbound]
        apply List.suffix_cons
      unfold onConnecting
      cases cmd with
      | data b =>
          dsimp only
          split_ifs <;> exact h.of_same rfl rfl rfl rfl hcmds fun hl => hl
      | close => exact h.of_same rfl rfl rfl rfl hcmds fun hl => hl
      | violation => exact h.of_same rfl rfl rfl rfl hcmds fun hl => hl
  | grant hs =>
      rw [Chan.grant]
      exact h.of_same rfl rfl rfl rfl hkept fun hl => hl
  | _ => exact h.of_same rfl rfl rfl rfl hkept fun hl => hl

/-- The entry leaves the table. -/
theorem unlist (h : c.Received) :
  c.unlist.Received
  := h.of_same rfl rfl rfl rfl (List.suffix_refl _) nofun

/-- The demultiplexer tells the task that its entry has left the table. -/
theorem push {cmd : Inbound} (h : c.Received) (hlisted : c.listed = true) :
  (c.unlist.push cmd).Received
  := by
  rw [Chan.push]
  split_ifs with hreceiving
  · refine ⟨h.order, h.whole, (by rintro ⟨⟩), ?_, ?_⟩
    · change ∀ x ∈ (c.inbound ++ [cmd]).dropLast, x.bytes ≠ none
      rw [List.dropLast_concat]
      apply h.entry hlisted
    · intro hdone
      exact ⟨rfl, (h.closed hdone).2⟩
  · exact h.unlist

/-- The relay writes none of the frames behind those it holds. -/
theorem take_append (hwindowed : c.Windowed) (data : Bytes) :
  (c.accepted ++ [data]).take (c.drained + c.current.length)
    = c.accepted.take (c.drained + c.current.length)
  := by
  apply List.take_append_of_le_length
  have hlen := hwindowed.held.length_le
  rw [held, undrained] at hlen
  rw [List.length_append, List.length_drop] at hlen
  have hdrained := hwindowed.drained
  omega

/-- The demultiplexer takes a `data` frame. -/
theorem onData (data : Bytes) (h : c.Received) (hwindowed : c.Windowed)
    (hlisted : c.listed = true) :
  (c.onData data).Received
  := by
  have horder : c.written <+: (c.accepted ++ [data]).flatten := by
    rw [List.flatten_append]
    apply h.order.trans (List.prefix_append _ _)
  have hwhole : c.toSocket.result = none → c.written ++ c.toSocket.rest
      = ((c.accepted ++ [data]).take (c.drained + c.current.length)).flatten := by
    rw [take_append hwindowed data]
    apply h.whole
  have hopen : c.toSocket ≠ .done .peerClosed := by
    intro hdone
    cases hlisted.symm.trans (h.closed hdone).1
  cases haccept : c.window.accept data.length with
  | none =>
      rw [Chan.onData]
      rw [haccept]
      exact h.push hlisted
  | some w =>
      by_cases hreceiving : c.receiving = true
      · rw [onData_of_receiving haccept hreceiving]
        have hentry : ∀ cmd ∈ c.inbound ++ [.data data], cmd.bytes ≠ none := by
          rw [List.forall_mem_append, List.forall_mem_singleton]
          exact ⟨h.entry hlisted, (by rintro ⟨⟩)⟩
        refine ⟨horder, hwhole, fun _ => hentry, ?_, fun hdone => absurd hdone hopen⟩
        intro cmd hcmd
        apply hentry
        apply List.mem_of_mem_dropLast hcmd
      · have hnot : ¬ Chan.receiving { c with window := w, accepted := c.accepted ++ [data] } = true :=
          hreceiving
        rw [Chan.onData]
        rw [haccept]
        dsimp only
        rw [if_neg hnot]
        exact ⟨horder, hwhole, (by rintro ⟨⟩), h.last, fun hdone => absurd hdone hopen⟩

/-- Whatever an end does to the channel, what was accepted is written in order. -/
theorem move {side : Side} {t : Teardown} (h : c.Received) (hwindowed : c.Windowed)
    (hmove : Move side t c c') :
  c'.Received
  := by
  have hkept : c.inbound <:+ c.inbound := List.suffix_refl _
  cases hmove with
  | stay => exact h
  | step hstep => exact h.step hwindowed hstep
  | data data hlisted => exact h.onData data hwindowed hlisted
  | close hlisted => exact h.push hlisted
  | windowUpdate add hlisted => exact h.of_same rfl rfl rfl rfl hkept fun hl => hl
  | opened window hlisted hside =>
      rw [onOpened]
      split_ifs
      · exact h
      · exact h.of_same rfl rfl rfl rfl hkept fun hl => hl
  | retain hreceiving => exact h.unlist
  | clear hcleared => exact h.unlist
  | leave hended hside => exact h.of_same rfl rfl rfl rfl hkept (by rintro ⟨⟩)
  | evict hlisted hside => exact h.of_same rfl rfl rfl rfl hkept (by rintro ⟨⟩)

end Received

end Chan

end VynxDesk.Mux
