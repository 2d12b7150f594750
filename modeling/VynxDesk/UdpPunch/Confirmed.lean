import VynxDesk.UdpPunch.Reading

/-!
# A finished punch is a fact

A punch returns only when the other end is known to have taken part: the connector on the answer to
one of its probes, and the listener on the first datagram that the KCP endpoint of the connector has
sent it, which it hands to its own endpoint (`confirmed_of_run`).  This rests on what the two ends
read: no datagram of a KCP endpoint is taken for a punch packet, and nothing else is taken for a
datagram of a KCP endpoint.  What a listener has not read when its time is up is lost
(`lost_at_deadline`).
-/

namespace VynxDesk.UdpPunch

namespace End

variable {e : End} {headerSize : ℕ} {side : Side} {tid tidPeer : UInt64} {peer : End}

/-! ## The events -/

/-- The events keep the invariant of an end, where its KCP endpoint emits what it may. -/
theorem Inv.step (hheader : punchPacketLen < headerSize) (h : Inv headerSize side tid peer e)
    (hpeer : Inv headerSize side.peer tidPeer e peer) {i : Event}
    (hi : ∀ data, i = .emit data → KcpSized headerSize data) {e' : End}
    (hstep : e.step headerSize side tid peer.sent i = some e') :
  Inv headerSize side tid peer e'
  := by
  have hfits := h.fits
  rw [Fits] at hfits
  cases effect_of_step hstep with
  | leftover data hphase =>
      apply h.arrive
      · intro hne
        cases hne hphase
      · intro hkcp
        cases hkcp
  | stray _ hstray =>
      apply h.arrive
      · intro _
        exact Or.inr ⟨rfl, hstray⟩
      · intro hkcp
        cases hkcp
  | deliver hsent =>
      apply h.arrive
      · intro _
        exact Or.inl hsent
      · intro _
        exact hsent
  | begin hphase hdrained =>
      rw [hphase] at hfits
      apply h.probe hfits.2 _ hdrained (.start side tid) rfl rfl
      rw [hphase]
      rfl
  | @probe p hphase =>
      rw [hphase] at hfits
      have hqueued := h.queued (by simp [hphase])
      have hheld : e.phase.held = [] := by
        rw [hphase]
        rfl
      apply h.probe hfits.2.2 hheld hqueued { p with probesSent := p.probesSent + 1 } hfits.1
        hfits.2.1
  | receive hqueue hreceive => apply h.receive hheader hpeer hqueue hreceive
  | error hphase =>
      rw [hphase] at hfits
      have hqueued := h.queued (by simp [hphase])
      have hhanded := h.handed
      rw [hphase] at hhanded
      exact ⟨h.sentPunch, h.sentKcp, fun _ => hqueued, h.arrived, hhanded, hfits, h.fact⟩
  | timeOut hphase =>
      rw [hphase] at hfits
      have hqueued := h.queued (by simp [hphase])
      have hhanded := h.handed
      rw [hphase] at hhanded
      refine ⟨h.sentPunch, ?_, fun _ => hqueued, h.arrived, hhanded, trivial,
        by rintro packet ⟨⟩⟩
      intro d hd hkcp
      obtain ⟨_, packet, hresult⟩ := h.sentKcp d hd hkcp
      rw [hfits.2.2.1] at hresult
      cases hresult
  | start hphase => apply h.startIo hpeer hphase
  | emit data hphase => apply h.send hphase (hi data rfl)
  | stop hphase =>
      have hqueued := h.queued (by simp [hphase])
      have hhanded := h.handed
      rw [hphase] at hhanded
      exact ⟨h.sentPunch, h.sentKcp, fun _ => hqueued, h.arrived, hhanded, trivial, h.fact⟩

/-- A datagram that is sent leaves everything else. -/
theorem Grows.send (e : End) (kcp : Bool) (data : Bytes) (phase : Phase) :
  Grows e { e.send kcp data with phase }
  := ⟨fun _ hd => List.mem_append_left _ hd, fun _ ht => ht, fun _ hresult => hresult⟩

/-- A result that an end gets while it punches is its first. -/
theorem Inv.grows_of_punching (h : Inv headerSize side tid peer e) {p : Punch}
    (hphase : e.phase = .punching p) {e' : End} (hsent : ∀ d ∈ e.sent, d ∈ e'.sent)
    (hanswered : ∀ t ∈ e.answered, t ∈ e'.answered) :
  Grows e e'
  := by
  refine ⟨hsent, hanswered, ?_⟩
  intro packet hresult
  have hfits := h.fits
  rw [Fits, hphase] at hfits
  rw [hfits.2.2.1] at hresult
  cases hresult

theorem Inv.grows_receive (h : Inv headerSize side tid peer e) {rest : List Datagram}
    {data : Bytes} {e' : End}
    (he' : ({ e with queue := rest } : End).receive headerSize data = some e') :
  Grows e e'
  := by
  rw [End.receive.eq_def] at he'
  dsimp only at he'
  split at he'
  next =>
      obtain rfl := Option.some.inj he'
      exact ⟨fun _ hd => hd, fun _ ht => ht, fun _ hresult => hresult⟩
  next p hphase =>
      split at he'
      next =>
          obtain rfl := Option.some.inj he'
          apply h.grows_of_punching hphase
          · exact fun _ hd => List.mem_append_left _ hd
          · exact fun _ ht => List.mem_append_left _ ht
      next =>
          obtain rfl := Option.some.inj he'
          apply h.grows_of_punching hphase
          · exact fun _ hd => hd
          · exact fun _ ht => ht
  next =>
      obtain rfl := Option.some.inj he'
      rw [End.hand]
      split
      next => exact ⟨fun _ hd => hd, fun _ ht => ht, fun _ hresult => hresult⟩
      next => exact ⟨fun _ hd => hd, fun _ ht => ht, fun _ hresult => hresult⟩
  next => cases he'
  next => cases he'

theorem Inv.grows_step (h : Inv headerSize side tid peer e) {i : Event} {e' : End}
    (hstep : e.step headerSize side tid peer.sent i = some e') :
  Grows e e'
  := by
  cases effect_of_step hstep with
  | begin _ _ => apply Grows.send
  | probe _ => apply Grows.send
  | receive _ hreceive => apply h.grows_receive hreceive
  | timeOut hphase => exact h.grows_of_punching hphase (fun _ hd => hd) (fun _ ht => ht)
  | start _ =>
      rw [End.startIo.eq_def]
      split
      next =>
          rw [End.hand]
          split
          next => exact ⟨fun _ hd => hd, fun _ ht => ht, fun _ hresult => hresult⟩
          next => exact ⟨fun _ hd => hd, fun _ ht => ht, fun _ hresult => hresult⟩
      next => exact ⟨fun _ hd => hd, fun _ ht => ht, fun _ hresult => hresult⟩
  | emit _ _ => apply Grows.send
  | _ => exact ⟨fun _ hd => hd, fun _ ht => ht, fun _ hresult => hresult⟩

end End

/-! ## Every run -/

namespace System

variable {headerSize : ℕ} {tid : Side → UInt64}

/-- The KCP endpoints emit datagrams of the sizes that they may have. -/
def EmitsKcp (headerSize : ℕ) (i : Side × Event) : Prop :=
  match i.2 with
  | .emit data => KcpSized headerSize data
  | _ => True

instance (headerSize : ℕ) : DecidablePred (EmitsKcp headerSize)
  | (_, .emit data) => inferInstanceAs (Decidable (KcpSized headerSize data))
  | (_, .leftover _) | (_, .stray _) | (_, .deliver _) | (_, .begin) | (_, .probe)
  | (_, .receive) | (_, .error) | (_, .timeOut) | (_, .start) | (_, .stop) => isTrue trivial

theorem peer_peer (side : Side) :
  side.peer.peer = side
  := by
  cases side <;> rfl

theorem eq_peer_of_ne {side side' : Side} (h : side' ≠ side) :
  side' = side.peer
  := by
  cases side <;> cases side' <;> first | rfl | cases h rfl

/-- Both ends keep their invariants. -/
theorem inv_of_run (hheader : punchPacketLen < headerSize) {h : List (System × (Side × Event))}
    {s : System} (hrun : Run (Step headerSize tid) System.start h s)
    (hkcp : ∀ x ∈ h, EmitsKcp headerSize x.2) (side : Side) :
  End.Inv headerSize side (tid side) (s side.peer) (s side)
  := by
  revert side
  refine hrun.invariant_of (fun _ i => EmitsKcp headerSize i)
    (fun s => ∀ side, End.Inv headerSize side (tid side) (s side.peer) (s side))
    (fun _ => End.Inv.start) ?_ hkcp
  intro s i s' hs hi hstep side
  obtain ⟨e', he', rfl⟩ := Option.map_eq_some_iff.mp hstep
  have hpeer := hs i.1.peer
  rw [peer_peer] at hpeer
  have hne : i.1.peer ≠ i.1 := by
    cases i.1 <;> nofun
  rcases eq_or_ne side i.1 with rfl | hother
  · rw [Function.update_self, Function.update_of_ne hne]
    apply (hs i.1).step hheader hpeer _ he'
    intro data hdata
    rwa [EmitsKcp, hdata] at hi
  · obtain rfl := eq_peer_of_ne hother
    rw [peer_peer, Function.update_self, Function.update_of_ne hne]
    apply hpeer.grows ((hs i.1).grows_step he')

/-- Where no datagram of a KCP endpoint is shorter than its header or longer than 1500 bytes, and
the header is longer than a punch packet: the connector finishes only without a packet, and after
the listener has answered one of its probes; the listener finishes only with the first datagram that
has arrived from the KCP endpoint of the connector, which has finished; and all datagrams that have
arrived from it are handed to the KCP endpoint of the listener in their order, but for those that
the listener has not read. -/
theorem confirmed_of_run (hheader : punchPacketLen < headerSize)
    {h : List (System × (Side × Event))} {s : System}
    (hrun : Run (Step headerSize tid) System.start h s)
    (hkcp : ∀ x ∈ h, EmitsKcp headerSize x.2) :
  (∀ packet, (s .connector).result = some (.ok packet) →
      packet = none ∧ tid .connector ∈ (s .listener).answered)
    ∧ (∀ packet, (s .listener).result = some (.ok packet) →
        (∃ data, packet = some data ∧ (s .listener).kcpArrived.head? = some data)
          ∧ (s .connector).result = some (.ok none))
    ∧ (s .listener).kcpArrived
        = (s .listener).handed ++ (s .listener).phase.held ++ (s .listener).kcpQueued
  := by
  have hconnector := inv_of_run hheader hrun hkcp .connector
  have hlistener := inv_of_run hheader hrun hkcp .listener
  refine ⟨hconnector.fact, ?_, hlistener.handed⟩
  intro packet hresult
  obtain ⟨data, rest, rfl, harrived⟩ := hlistener.fact packet hresult
  constructor
  · use data, rfl
    rw [harrived]
    rfl
  · have hdata : data ∈ (s .listener).kcpArrived := by
      simp [harrived]
    obtain ⟨d, hd, hkcp', _⟩ := End.mem_kcpArrived hdata
    obtain ⟨_, packet', hfinished⟩ := hconnector.sentKcp d (hlistener.arrived d hd hkcp') hkcp'
    obtain ⟨rfl, _⟩ := hconnector.fact packet' hfinished
    exact hfinished

/-- Both ends probe, the connector finishes on the answer, and two datagrams of its KCP endpoint
reach the listener, the first of them twice. -/
theorem confirmed_sample :
  ∃ h s, Run (Step 16 fun side => if side = .connector then 1 else 2) System.start h s
    ∧ ((s .connector).result = some (.ok none)
      ∧ (s .listener).handed
        = [List.replicate 16 7, List.replicate 20 8, List.replicate 16 7])
    ∧ (∀ packet, (s .connector).result = some (.ok packet) →
        packet = none ∧ 1 ∈ (s .listener).answered)
    ∧ (∀ packet, (s .listener).result = some (.ok packet) →
        (∃ data, packet = some data ∧ (s .listener).kcpArrived.head? = some data)
          ∧ (s .connector).result = some (.ok none))
    ∧ (s .listener).kcpArrived
        = (s .listener).handed ++ (s .listener).phase.held ++ (s .listener).kcpQueued
  := by
  obtain ⟨h, s, hrun, htest⟩ := Run.exists_of_traceM
    (System.step 16 fun side => if side = .connector then 1 else 2) System.start
    [(.connector, .leftover [1, 2, 3]), (.connector, .receive), (.connector, .begin),
      (.listener, .begin), (.connector, .stray []), (.connector, .receive),
      (.listener, .deliver 0), (.listener, .receive), (.connector, .deliver 1),
      (.connector, .receive), (.connector, .start), (.connector, .emit (List.replicate 16 7)),
      (.connector, .emit (List.replicate 20 8)), (.listener, .deliver 1), (.listener, .deliver 2),
      (.listener, .receive), (.listener, .deliver 1), (.listener, .start), (.listener, .receive),
      (.listener, .receive)]
    (fun h s => decide ((∀ x ∈ h, EmitsKcp 16 x.2)
      ∧ (s .connector).result = some (.ok none)
      ∧ (s .listener).handed
        = [List.replicate 16 7, List.replicate 20 8, List.replicate 16 7]))
    (by decide +kernel)
  obtain ⟨hkcp, hend⟩ := of_decide_eq_true htest
  use h, s, hrun, hend
  apply confirmed_of_run (by decide) hrun hkcp

/-- A datagram of the KCP endpoint of the connector reaches the socket of the listener just before
the deadline, and the listener gives up without reading it. -/
theorem lost_at_deadline :
  ¬ ∀ h s, Run (Step 16 fun side => if side = .connector then 1 else 2) System.start h s →
    (∀ x ∈ h, EmitsKcp 16 x.2) → (s .listener).phase = .gaveUp →
      ∀ data ∈ (s .listener).kcpArrived, 16 ≤ data.length → data ∈ (s .listener).handed
  := by
  intro hall
  obtain ⟨h, s, hrun, htest⟩ := Run.exists_of_traceM
    (System.step 16 fun side => if side = .connector then 1 else 2) System.start
    [(.connector, .begin), (.listener, .begin), (.listener, .deliver 0), (.listener, .receive),
      (.connector, .deliver 1), (.connector, .receive), (.connector, .start),
      (.connector, .emit (List.replicate 16 7)), (.listener, .deliver 1), (.listener, .timeOut)]
    (fun h s => decide ((∀ x ∈ h, EmitsKcp 16 x.2) ∧ (s .listener).phase = .gaveUp
      ∧ (s .listener).kcpArrived = [List.replicate 16 7] ∧ (s .listener).handed = []))
    (by decide +kernel)
  obtain ⟨hkcp, hphase, harrived, hhanded⟩ := of_decide_eq_true htest
  have hmem := hall h s hrun hkcp hphase (List.replicate 16 7) (by simp [harrived]) (by simp)
  rw [hhanded] at hmem
  cases hmem

end System

end VynxDesk.UdpPunch
