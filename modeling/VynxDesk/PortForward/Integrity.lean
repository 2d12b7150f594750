import VynxDesk.PortForward.Tunnel

/-!
# The credit and the bytes of a tunnel

In every run of a tunnel in which no identifier is used twice, whatever the order of its steps: the
credit of a channel that has not ended makes up its windows, in both directions
(`Ends.conserved_of_run`), and what an end writes is what the other end's local side has produced
(`Ends.relayed_of_run`).
-/

namespace VynxDesk.Mux

/-- What the receiver has written to its socket is the start of what the local side of the sender
has produced; and it is all the sender has framed, when its relay has ended on the peer's `close`.
-/
structure Relayed (sender receiver : Chan) : Prop where
  order : receiver.written <+: sender.produced
  closed : receiver.toSocket = .done .peerClosed → receiver.written = sender.framed

/-- The window of a channel, the frames it has accepted and not drained, and what it has drained
since the last update make up what it has granted. -/
def Chan.Accounted (c : Chan) : Prop :=
  c.window.remaining + c.window.drainedSinceUpdate + charges c.undrained = c.granted

namespace Link

variable {l : Link} {b : Chan}

/-- The controlled side of a channel that is spawned. -/
theorem Sound.running_of (h : l.Sound) (hb : l.controlled = some b) :
  l.Running b
  := by
  cases h with
  | opening h => cases h.controlled.symm.trans hb
  | refused h => cases h.controlled.symm.trans hb
  | running h =>
      cases h.controlled.symm.trans hb
      exact h

/-- A channel the controlled side has not spawned writes nothing. -/
theorem Sound.accepted_eq_nil (h : l.Sound) (hb : l.controlled = none) :
  l.controller.accepted = []
  := by
  cases h with
  | opening h => exact h.untold.accepted
  | refused h => exact h.accepted
  | running h => cases h.controlled.symm.trans hb

/-- Both ends of a channel that is spawned write what the other one has produced. -/
theorem Running.relayed (h : l.Running b) (hcontroller : l.controller.Kept .controller)
    (hcontrolled : b.Kept .controlled) :
  Relayed l.controller b ∧ Relayed b l.controller
  := by
  obtain ⟨_, _, hup⟩ := h.up
  obtain ⟨_, _, hdown⟩ := h.down
  constructor
  · exact ⟨hup.written_prefix hcontroller.sourced hcontrolled.received,
      hup.written_eq hcontrolled.received⟩
  · exact ⟨hdown.written_prefix hcontrolled.sourced hcontroller.received,
      hdown.written_eq hcontroller.received⟩

end Link

theorem Chan.Windowed.accounted {c : Chan} (h : c.Windowed) :
  c.Accounted
  := h.total

namespace Ends

variable {e : Ends} {a b : Chan}

/-- The channel of the controlled side is the one the link of the controller's channel runs with. -/
theorem Inv.running (h : e.Inv) (ha : a ∈ e.controller.channels)
    (hb : b ∈ e.controlled.channels) (hid : b.id = a.id) :
  (e.link a).Running b
  := by
  apply (h.sound a ha).running_of
  change e.controlled.channels.withId a.id = some b
  rw [← hid]
  exact Channels.withId_of_mem h.once hb

/-- A channel is opened with one byte at hand, and the byte is relayed. -/
theorem exists_run_byte :
  ∃ hist e a b, Run Step (start PortForwardMux.sampleTarget) hist e
    ∧ e.controller.channels = [a] ∧ e.controlled.channels = [b] ∧ b.id = a.id
    ∧ (a.listed = true ∧ b.listed = true)
    ∧ (e.controller.teardown.gone = false ∧ e.controlled.teardown.gone = false)
    ∧ a.produced = [1] ∧ b.written = [1]
  := by
  have hstart : Run Step (start PortForwardMux.sampleTarget) [] _ := .nil
  have hinsert := hstart.snoc (.controller rfl (.insert Str.empty 80 [1]))
  have hgreet := hinsert.snoc (.controller rfl (.task (i := 0) rfl (.greet rfl rfl) rfl))
  have hopen := hgreet.snoc (.takeData rfl)
  have hspawn := hopen.snoc (.arriveUp rfl true)
  have hconnected := hspawn.snoc (.controlled rfl (.task (i := 0) rfl (.connected rfl rfl rfl)))
  have hgrant := hconnected.snoc (.controlled rfl (.task (i := 0) rfl (.grant rfl)))
  have hopened := hgrant.snoc (.controlled rfl (.task (i := 0) rfl (.greet rfl rfl)))
  have hcredit : minFrameCharge ≤ initialWindow := by decide
  have htake := hopened.snoc (.controller rfl (.task (i := 0) rfl (.take rfl rfl hcredit) rfl))
  have hread := htake.snoc (.controller rfl (.task (i := 0) rfl (.readPrebuf rfl rfl nofun) rfl))
  have hrefund := hread.snoc (.controller rfl (.task (i := 0) rfl (.refund rfl rfl) rfl))
  have hsend := hrefund.snoc (.controller rfl (.task (i := 0) rfl (.send rfl rfl rfl) rfl))
  have hdata := hsend.snoc (.takeData rfl)
  have harrive := hdata.snoc (.arriveUp rfl true)
  have hnext := harrive.snoc (.controlled rfl (.task (i := 0) rfl (.nextInbound rfl rfl rfl rfl)))
  have hwrite := hnext.snoc (.controlled rfl (.task (i := 0) rfl (.write (n := 1) rfl rfl)))
  exact ⟨_, _, _, _, hwrite, rfl, rfl, rfl, ⟨rfl, rfl⟩, ⟨rfl, rfl⟩, rfl, rfl⟩

/-- The identifiers of the only channel are distinct. -/
theorem nodup_ids_of_eq (h : e.controller.channels = [a]) :
  e.ids.Nodup
  := by
  rw [ids, h]
  apply List.nodup_singleton

/-- The credit of a channel is conserved.  While both tables have the channel and both ends have
their queues, in either direction the credit the sender has, in its counter or taken by its relay,
what its frames on their way cost, what the updates and the `opened` on their way add, and what the
receiver is just putting on its sink (`Chan.owed`) make up the window of the receiver.  The window
and what was accepted and is not told back make up what is granted: the whole window on the
controller, and on the controlled side the initial one until the target is connected. -/
theorem conserved_of_run {loginTarget : String} {hist : List (Ends × Act)}
    (hrun : Run Step (start loginTarget) hist e) (hids : e.ids.Nodup)
    (ha : a ∈ e.controller.channels) (hb : b ∈ e.controlled.channels) (hid : b.id = a.id) :
  (a.listed = true → b.listed = true → e.controller.teardown.gone = false →
      e.controlled.teardown.gone = false →
      Balanced a b (e.ordered a.id ++ e.control a.id) (e.back a.id)
        ∧ Balanced b a (e.back a.id) (e.ordered a.id ++ e.control a.id))
    ∧ (a.Accounted ∧ a.granted = channelWindow)
    ∧ (b.Accounted ∧ (b.connected = false → b.granted = initialWindow)
      ∧ (b.stage = .relaying → b.granted = channelWindow))
  := by
  have hinv := inv_of_run hrun hids
  have hkept := hinv.kept a ha
  have hback := hinv.keptBack b hb
  refine ⟨?_, ⟨hkept.windowed.accounted, hkept.widened.controller rfl⟩,
    ⟨hback.windowed.accounted, hback.windowed.unconnected, hback.widened.relaying⟩⟩
  intro hlisted hlistedBack hgone hgoneBack
  exact (hinv.running ha hb hid).balanced ⟨hlisted, hlistedBack, hgone, hgoneBack⟩

/-- While a byte is relayed, the credit is conserved. -/
theorem conserved_byte :
  ∃ hist e a b, Run Step (start PortForwardMux.sampleTarget) hist e ∧ b.written = [1]
    ∧ Balanced a b (e.ordered a.id ++ e.control a.id) (e.back a.id)
    ∧ Balanced b a (e.back a.id) (e.ordered a.id ++ e.control a.id)
    ∧ a.Accounted ∧ b.Accounted
  := by
  obtain ⟨hist, e, a, b, hrun, ha, hb, hid, hlisted, hgone, -, hwritten⟩ := exists_run_byte
  have hmem : a ∈ e.controller.channels := by simp [ha]
  have hmem' : b ∈ e.controlled.channels := by simp [hb]
  have hall := conserved_of_run hrun (nodup_ids_of_eq ha) hmem hmem' hid
  obtain ⟨hto, hfrom⟩ := hall.1 hlisted.1 hlisted.2 hgone.1 hgone.2
  exact ⟨hist, e, a, b, hrun, hwritten, hto, hfrom, hall.2.1.1, hall.2.2.1⟩

/-- The bytes of a channel are relayed in order, to the channel of the other end that has its
identifier, and to no other: the identifiers of the controlled side are distinct, each is the one of
a channel of the controller, and a channel of the controller that has no peer writes nothing. -/
theorem relayed_of_run {loginTarget : String} {hist : List (Ends × Act)}
    (hrun : Run Step (start loginTarget) hist e) (hids : e.ids.Nodup) :
  (e.controlled.channels.map Chan.id).Nodup
    ∧ (∀ b ∈ e.controlled.channels, b.id ∈ e.ids)
    ∧ (∀ a ∈ e.controller.channels, ∀ b ∈ e.controlled.channels, b.id = a.id →
      Relayed a b ∧ Relayed b a)
    ∧ (∀ a ∈ e.controller.channels, a.id ∉ e.controlled.channels.map Chan.id → a.written = [])
  := by
  have hinv := inv_of_run hrun hids
  refine ⟨hinv.once, hinv.known, ?_, ?_⟩
  · intro a ha b hb hid
    exact (hinv.running ha hb hid).relayed (hinv.kept a ha) (hinv.keptBack b hb)
  · intro a ha hnone
    have haccepted : a.accepted = [] :=
      (hinv.sound a ha).accepted_eq_nil (Channels.withId_eq_none.mpr hnone)
    have horder := (hinv.kept a ha).received.order
    rw [haccepted] at horder
    exact List.prefix_nil.mp horder

/-- The byte that is relayed is the one the local side has produced. -/
theorem relayed_byte :
  ∃ hist e a b, Run Step (start PortForwardMux.sampleTarget) hist e
    ∧ a.produced = [1] ∧ b.written = [1] ∧ Relayed a b ∧ Relayed b a
  := by
  obtain ⟨hist, e, a, b, hrun, ha, hb, hid, -, -, hproduced, hwritten⟩ := exists_run_byte
  have hmem : a ∈ e.controller.channels := by simp [ha]
  have hmem' : b ∈ e.controlled.channels := by simp [hb]
  have hall := relayed_of_run hrun (nodup_ids_of_eq ha)
  obtain ⟨hto, hfrom⟩ := hall.2.2.1 a hmem b hmem' hid
  exact ⟨hist, e, a, b, hrun, hproduced, hwritten, hto, hfrom⟩

end Ends

end VynxDesk.Mux
