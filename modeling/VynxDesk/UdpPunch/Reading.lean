import VynxDesk.UdpPunch.Ends

/-!
# What the ends of a punch read

No datagram of a KCP endpoint is taken for a punch packet: it is longer.  Nothing else is taken for
a datagram of a KCP endpoint: after the initial drain it is a probe or an acknowledgement of the
peer, or a stray datagram.  So reading keeps the invariant of an end (`End.Inv.receive`).
-/

namespace VynxDesk.UdpPunch

/-! ## What a datagram is taken for -/

/-- A datagram of a KCP endpoint: a header at least, and no longer than the buffers. -/
def KcpSized (headerSize : ℕ) (data : Bytes) : Prop :=
  headerSize ≤ data.length ∧ data.length ≤ 1500

instance (headerSize : ℕ) (data : Bytes) : Decidable (KcpSized headerSize data) :=
  inferInstanceAs (Decidable (headerSize ≤ data.length ∧ data.length ≤ 1500))

theorem length_of_punchTid {data tag : Bytes} {tid : UInt64} (h : punchTid data tag = some tid) :
  data.length = punchPacketLen
  := by
  by_contra hne
  rw [punchTid_of_length_ne hne] at h
  cases h

/-- What the loop of `punch_udp` does with a datagram: the acknowledgement of its own probe ends it
unless it listens, anything that is neither empty nor a punch packet ends it, and it goes on
otherwise. -/
theorem Punch.receive_cases (p : Punch) (data : Bytes) :
  punchTid data punchAck = some p.tid ∧ p.listen = false ∧ p.receive data = .done none
    ∨ data.length ≤ punchPacketLen
      ∧ (∃ p' answer, p.receive data = .goOn p' answer ∧ p'.tid = p.tid ∧ p'.listen = p.listen)
    ∨ punchTid data punchAck = none ∧ punchTid data punchProbe = none ∧ data ≠ []
      ∧ p.receive data = .done (some data)
  := by
  rw [Punch.receive.eq_def]
  dsimp only
  by_cases hown : punchTid data punchAck = some p.tid
  · rw [if_pos hown]
    cases hlisten : p.listen with
    | false => exact Or.inl ⟨hown, rfl, rfl⟩
    | true => exact Or.inr (Or.inl ⟨(length_of_punchTid hown).le, _, _, rfl, rfl, rfl⟩)
  · rw [if_neg hown]
    cases hprobe : punchTid data punchProbe with
    | some peerTid =>
        exact Or.inr (Or.inl ⟨(length_of_punchTid hprobe).le, _, _, rfl, rfl, rfl⟩)
    | none =>
        cases hack : punchTid data punchAck with
        | some other =>
            exact Or.inr (Or.inl ⟨(length_of_punchTid hack).le, _, _, rfl, rfl, rfl⟩)
        | none =>
            rcases eq_or_ne data [] with rfl | hne
            · exact Or.inr (Or.inl ⟨Nat.zero_le _, _, _, rfl, rfl, rfl⟩)
            · have hdata : ((none : Option UInt64).isNone && decide (0 < data.length)) = true := by
                simpa using List.length_pos_iff.mpr hne
              exact Or.inr (Or.inr ⟨rfl, rfl, hne, if_pos hdata⟩)

theorem isStray_cases {tid : UInt64} {data : Bytes} (h : isStray tid data = true) :
  data = [] ∨ ∃ other, other ≠ tid ∧ punchTid data punchAck = some other
  := by
  rw [isStray, Bool.or_eq_true, List.isEmpty_iff, Option.any_eq_true] at h
  rcases h with rfl | ⟨other, hother, hne⟩
  · exact Or.inl rfl
  · exact Or.inr ⟨other, of_decide_eq_true hne, hother⟩

namespace End

variable {e : End} {d : Datagram}

theorem kcpArrived_arrive :
  (e.arrive d).kcpArrived = e.kcpArrived ++ if d.kcp then [d.bytes] else []
  := by
  rw [kcpArrived, arrive, List.filter_append, List.map_append]
  cases hkcp : d.kcp <;> simp [hkcp, kcpArrived]

theorem kcpQueued_arrive :
  (e.arrive d).kcpQueued = e.kcpQueued ++ if d.kcp then [d.bytes] else []
  := by
  rw [kcpQueued, arrive, List.filter_append, List.map_append]
  cases hkcp : d.kcp <;> simp [hkcp, kcpQueued]

/-- The head of the queue is read. -/
theorem kcpQueued_cons {rest : List Datagram} (hqueue : e.queue = d :: rest) :
  e.kcpQueued
    = (if d.kcp then [d.bytes] else []) ++ ({ e with queue := rest } : End).kcpQueued
  := by
  rw [kcpQueued, hqueue]
  cases hkcp : d.kcp <;> simp [hkcp, kcpQueued]

theorem mem_kcpArrived {data : Bytes} (h : data ∈ e.kcpArrived) :
  ∃ d ∈ e.arrived, d.kcp = true ∧ d.bytes = data
  := by
  obtain ⟨d, hd, hbytes⟩ := List.mem_map.mp h
  obtain ⟨hd, hkcp⟩ := List.mem_filter.mp hd
  exact ⟨d, hd, hkcp, hbytes⟩

/-! ## The invariant -/

/-- `punch_udp` has returned a packet, or none. -/
def Finished (e : End) : Prop := ∃ packet, e.result = some (.ok packet)

/-- What a phase says about the result and the history. -/
def Fits (side : Side) (tid : UInt64) (e : End) : Prop :=
  match e.phase with
  | .draining => e.answered = [] ∧ e.result = none ∧ e.handed = []
  | .punching p =>
      p.tid = tid ∧ p.listen = decide (side = .listener) ∧ e.result = none ∧ e.handed = []
  | .punched packet => e.result = some (.ok packet)
  | .io => e.Finished
  | .gaveUp => True

/-- What a finished punch says: a probe of the connector was answered, and the listener has got the
first datagram of the KCP endpoint of the connector. -/
def Fact (side : Side) (tid : UInt64) (peer e : End) : Prop :=
  ∀ packet, e.result = some (.ok packet) →
    match side with
    | .connector => packet = none ∧ tid ∈ peer.answered
    | .listener => ∃ data rest, packet = some data ∧ e.kcpArrived = data :: rest

/-- The invariant of an end, whose peer is `peer`. -/
structure Inv (headerSize : ℕ) (side : Side) (tid : UInt64) (peer e : End) : Prop where
  sentPunch : ∀ d ∈ e.sent, d.kcp = false →
    d.bytes = punchPacket punchProbe tid ∨ ∃ t ∈ e.answered, d.bytes = punchPacket punchAck t
  sentKcp : ∀ d ∈ e.sent, d.kcp = true → KcpSized headerSize d.bytes ∧ e.Finished
  queued : e.phase ≠ .draining → e.Drained tid peer.sent
  arrived : ∀ d ∈ e.arrived, d.kcp = true → d ∈ peer.sent
  handed : e.kcpArrived = e.handed ++ e.phase.held ++ e.kcpQueued
  fits : e.Fits side tid
  fact : Fact side tid peer e

/-- An end goes on: what it has sent, answered and returned stays. -/
structure Grows (e e' : End) : Prop where
  sent : ∀ d ∈ e.sent, d ∈ e'.sent
  answered : ∀ t ∈ e.answered, t ∈ e'.answered
  result : ∀ packet, e.result = some (.ok packet) → e'.result = some (.ok packet)

variable {headerSize : ℕ} {side : Side} {tid tidPeer : UInt64} {peer : End}

theorem Inv.start :
  Inv headerSize side tid peer .start
  := ⟨nofun, nofun, nofun, nofun, rfl, ⟨rfl, rfl, rfl⟩, nofun⟩

/-- The invariant of an end is kept while its peer goes on. -/
theorem Inv.grows (h : Inv headerSize side tid peer e) {peer' : End} (hgrows : Grows peer peer') :
  Inv headerSize side tid peer' e
  := by
  refine ⟨h.sentPunch, h.sentKcp, ?_, ?_, h.handed, h.fits, ?_⟩
  · intro hphase d hd
    rcases h.queued hphase d hd with hsent | hstray
    · exact Or.inl (hgrows.sent d hsent)
    · exact Or.inr hstray
  · intro d hd hkcp
    apply hgrows.sent d (h.arrived d hd hkcp)
  · intro packet hresult
    have hfact := h.fact packet hresult
    cases side with
    | connector => exact ⟨hfact.1, hgrows.answered tid hfact.2⟩
    | listener => exact hfact

/-! ## What an end reads -/

/-- A datagram of no KCP endpoint is empty or a punch packet; an acknowledgement of the end's own
probe is the answer of its peer. -/
theorem Inv.punch_cases (hpeer : Inv headerSize side.peer tidPeer e peer)
    (hd : d ∈ peer.sent ∨ d.kcp = false ∧ isStray tid d.bytes = true) (hkcp : d.kcp = false) :
  d.bytes.length ≤ punchPacketLen
    ∧ (punchTid d.bytes punchAck = none → punchTid d.bytes punchProbe = none → d.bytes = [])
    ∧ (punchTid d.bytes punchAck = some tid → tid ∈ peer.answered)
  := by
  rcases hd with hsent | ⟨_, hstray⟩
  · rcases hpeer.sentPunch d hsent hkcp with hbytes | ⟨t, ht, hbytes⟩
    · rw [hbytes]
      refine ⟨(length_punchPacket rfl _).le, ?_, ?_⟩
      · intro _ hprobe
        simp at hprobe
      · intro hack
        simp at hack
    · rw [hbytes]
      refine ⟨(length_punchPacket rfl _).le, ?_, ?_⟩
      · intro hack
        simp at hack
      · intro hack
        rw [ack_of_ack] at hack
        obtain rfl := Option.some.inj hack
        exact ht
  · rcases isStray_cases hstray with hbytes | ⟨other, hne, hack⟩
    · rw [hbytes]
      refine ⟨Nat.zero_le _, fun _ _ => rfl, nofun⟩
    · refine ⟨(length_of_punchTid hack).le, ?_, ?_⟩
      · intro hnone
        rw [hack] at hnone
        cases hnone
      · intro hown
        rw [hack] at hown
        cases hne (Option.some.inj hown)

/-- The KCP endpoint of the peer emits datagrams only after the end has answered a probe, or has
itself finished. -/
theorem Inv.of_kcp (h : Inv headerSize side tid peer e)
    (hpeer : Inv headerSize side.peer tidPeer e peer) (hd : d ∈ peer.sent) (hkcp : d.kcp = true) :
  e.phase ≠ .draining ∧ (side = .connector → e.Finished)
  := by
  obtain ⟨_, packet, hresult⟩ := hpeer.sentKcp d hd hkcp
  have hfits := h.fits
  rw [Fits] at hfits
  cases side with
  | connector =>
      obtain ⟨data, rest, _, harrived⟩ := hpeer.fact packet hresult
      have hdata : data ∈ peer.kcpArrived := by
        simp [harrived]
      obtain ⟨d', hd', hkcp', _⟩ := mem_kcpArrived hdata
      have hfinished := (h.sentKcp d' (hpeer.arrived d' hd' hkcp') hkcp').2
      apply And.intro _ fun _ => hfinished
      intro hphase
      rw [hphase] at hfits
      obtain ⟨packet', hresult'⟩ := hfinished
      rw [hfits.2.1] at hresult'
      cases hresult'
  | listener =>
      apply And.intro _ nofun
      intro hphase
      rw [hphase] at hfits
      have hanswered := (hpeer.fact packet hresult).2
      rw [hfits.1] at hanswered
      cases hanswered

/-- A datagram reaches the socket of an end. -/
theorem Inv.arrive (h : Inv headerSize side tid peer e)
    (hd : e.phase ≠ .draining → d ∈ peer.sent ∨ d.kcp = false ∧ isStray tid d.bytes = true)
    (hkcp : d.kcp = true → d ∈ peer.sent) :
  Inv headerSize side tid peer (e.arrive d)
  := by
  refine ⟨h.sentPunch, h.sentKcp, ?_, ?_, ?_, h.fits, ?_⟩
  · intro hphase d' hd'
    rcases List.mem_append.mp hd' with hd' | hd'
    · apply h.queued hphase d' hd'
    · obtain rfl := List.mem_singleton.mp hd'
      apply hd hphase
  · intro d' hd'
    rcases List.mem_append.mp hd' with hd' | hd'
    · apply h.arrived d' hd'
    · obtain rfl := List.mem_singleton.mp hd'
      exact hkcp
  · rw [kcpArrived_arrive, kcpQueued_arrive, h.handed, List.append_assoc]
    rfl
  · intro packet hresult
    have hfact := h.fact packet hresult
    cases side with
    | connector => exact hfact
    | listener =>
        obtain ⟨data, rest, hpacket, harrived⟩ := hfact
        refine ⟨data, rest ++ if d.kcp then [d.bytes] else [], hpacket, ?_⟩
        rw [kcpArrived_arrive, harrived]
        rfl

/-- An end reads a datagram that no KCP endpoint emitted, and stays in its phase or goes on
punching. -/
theorem Inv.read (h : Inv headerSize side tid peer e) {rest : List Datagram}
    (hqueue : e.queue = d :: rest) (hkcp : d.kcp = false) :
  Inv headerSize side tid peer { e with queue := rest }
  := by
  have hkept := kcpQueued_cons hqueue
  rw [hkcp] at hkept
  refine ⟨h.sentPunch, h.sentKcp, ?_, h.arrived, ?_, h.fits, h.fact⟩
  · intro hphase d' hd'
    apply h.queued hphase d'
    rw [hqueue]
    apply List.mem_cons_of_mem _ hd'
  · apply h.handed.trans
    rw [hkept]
    rfl

/-- An end goes on punching, and perhaps answers a probe. -/
theorem Inv.goOn (h : Inv headerSize side tid peer e) {p p' : Punch}
    (hphase : e.phase = .punching p) (htid : p'.tid = p.tid) (hlisten : p'.listen = p.listen)
    (answer : Option UInt64) :
  Inv headerSize side tid peer (e.goOn p' answer)
  := by
  have hfits := h.fits
  rw [Fits, hphase] at hfits
  refine ⟨?_, ?_, ?_, h.arrived, ?_, ?_, h.fact⟩
  · intro d hd hkcp
    rcases List.mem_append.mp hd with hd | hd
    · rcases h.sentPunch d hd hkcp with hprobe | ⟨t, ht, hack⟩
      · exact Or.inl hprobe
      · exact Or.inr ⟨t, List.mem_append_left _ ht, hack⟩
    · obtain ⟨t, ht, rfl⟩ := Option.map_eq_some_iff.mp (Option.mem_toList.mp hd)
      exact Or.inr ⟨t, List.mem_append_right _ (Option.mem_toList.mpr ht), rfl⟩
  · intro d hd hkcp
    rcases List.mem_append.mp hd with hd | hd
    · apply h.sentKcp d hd hkcp
    · obtain ⟨t, _, rfl⟩ := Option.map_eq_some_iff.mp (Option.mem_toList.mp hd)
      cases hkcp
  · intro _
    apply h.queued
    rw [hphase]
    exact nofun
  · apply h.handed.trans
    rw [hphase]
    rfl
  · exact ⟨htid.trans hfits.1, hlisten.trans hfits.2.1, hfits.2.2⟩

/-- Only the history and what is sent matter for what is sent later. -/
theorem Inv.send (h : Inv headerSize side tid peer e) (hphase : e.phase = .io) {data : Bytes}
    (hdata : KcpSized headerSize data) :
  Inv headerSize side tid peer (e.send true data)
  := by
  have hfits := h.fits
  rw [Fits, hphase] at hfits
  refine ⟨?_, ?_, h.queued, h.arrived, h.handed, h.fits, h.fact⟩
  · intro d hd hkcp
    rcases List.mem_append.mp hd with hd | hd
    · apply h.sentPunch d hd hkcp
    · obtain rfl := List.mem_singleton.mp hd
      cases hkcp
  · intro d hd hkcp
    rcases List.mem_append.mp hd with hd | hd
    · apply h.sentKcp d hd hkcp
    · obtain rfl := List.mem_singleton.mp hd
      exact ⟨hdata, hfits⟩

/-- A probe is sent by an end that drains or punches. -/
theorem Inv.probe (h : Inv headerSize side tid peer e)
    (hnone : e.result = none ∧ e.handed = []) (hheld : e.phase.held = [])
    (hqueued : e.Drained tid peer.sent) (p : Punch) (htid : p.tid = tid)
    (hlisten : p.listen = decide (side = .listener)) :
  Inv headerSize side tid peer
    { e.send false (punchPacket punchProbe tid) with phase := .punching p }
  := by
  refine ⟨?_, ?_, fun _ => hqueued, h.arrived, ?_, ⟨htid, hlisten, hnone⟩, h.fact⟩
  · intro d hd hkcp
    rcases List.mem_append.mp hd with hd | hd
    · apply h.sentPunch d hd hkcp
    · obtain rfl := List.mem_singleton.mp hd
      exact Or.inl rfl
  · intro d hd hkcp
    rcases List.mem_append.mp hd with hd | hd
    · apply h.sentKcp d hd hkcp
    · obtain rfl := List.mem_singleton.mp hd
      cases hkcp
  · have hhanded := h.handed
    rw [hheld] at hhanded
    exact hhanded

/-- The connector finishes on the answer to one of its probes. -/
theorem Inv.finish_none (h : Inv headerSize .connector tid peer e) {p : Punch}
    (hphase : e.phase = .punching p) (hanswered : tid ∈ peer.answered) :
  Inv headerSize .connector tid peer (e.finish none)
  := by
  refine ⟨h.sentPunch, ?_, ?_, h.arrived, ?_, rfl, ?_⟩
  · intro d hd hkcp
    exact ⟨(h.sentKcp d hd hkcp).1, none, rfl⟩
  · intro _
    apply h.queued
    rw [hphase]
    exact nofun
  · apply h.handed.trans
    rw [hphase]
    rfl
  · intro packet hpacket
    obtain rfl := Except.ok.inj (Option.some.inj hpacket)
    exact ⟨rfl, hanswered⟩

/-- The listener finishes on the first datagram of the KCP endpoint of its peer. -/
theorem Inv.finish_some (h : Inv headerSize .listener tid peer e) {p : Punch}
    (hphase : e.phase = .punching p) {rest : List Datagram} (hqueue : e.queue = d :: rest)
    (hkcp : d.kcp = true) :
  Inv headerSize .listener tid peer (({ e with queue := rest } : End).finish (some d.bytes))
  := by
  have hfits := h.fits
  rw [Fits, hphase] at hfits
  have harrived : e.kcpArrived
      = d.bytes :: ({ e with queue := rest } : End).kcpQueued := by
    rw [h.handed, hfits.2.2.2, hphase, kcpQueued_cons hqueue, if_pos hkcp]
    rfl
  refine ⟨h.sentPunch, ?_, ?_, h.arrived, ?_, rfl, ?_⟩
  · intro d' hd' hkcp'
    exact ⟨(h.sentKcp d' hd' hkcp').1, some d.bytes, rfl⟩
  · intro _ d' hd'
    have hqueued := h.queued (by simp [hphase])
    apply hqueued d'
    rw [hqueue]
    apply List.mem_cons_of_mem _ hd'
  · change e.kcpArrived = e.handed ++ [d.bytes] ++ ({ e with queue := rest } : End).kcpQueued
    rw [harrived, hfits.2.2.2]
    rfl
  · intro packet hpacket
    obtain rfl := Except.ok.inj (Option.some.inj hpacket)
    exact ⟨d.bytes, _, rfl, harrived⟩

/-- The io loop hands a datagram of the KCP endpoint of the peer to its own. -/
theorem Inv.hand (h : Inv headerSize side tid peer e) (hphase : e.phase = .io)
    {rest : List Datagram} (hqueue : e.queue = d :: rest) (hkcp : d.kcp = true)
    (hsized : KcpSized headerSize d.bytes) :
  Inv headerSize side tid peer (({ e with queue := rest } : End).hand headerSize d.bytes)
  := by
  have hlong : ¬ d.bytes.length < headerSize := not_lt.mpr hsized.1
  rw [End.hand, if_neg hlong]
  refine ⟨h.sentPunch, h.sentKcp, ?_, h.arrived, ?_, ?_, h.fact⟩
  · intro hne d' hd'
    apply h.queued hne d'
    rw [hqueue]
    apply List.mem_cons_of_mem _ hd'
  · have hheld : e.phase.held = [] := by
      rw [hphase]
      rfl
    change e.kcpArrived = e.handed ++ [d.bytes] ++ e.phase.held
      ++ ({ e with queue := rest } : End).kcpQueued
    rw [h.handed, kcpQueued_cons hqueue, if_pos hkcp, hheld]
    simp
  · have hfits := h.fits
    rw [Fits, hphase] at hfits ⊢
    exact hfits

/-- An end takes a datagram from its socket. -/
theorem Inv.receive (hheader : punchPacketLen < headerSize) (h : Inv headerSize side tid peer e)
    (hpeer : Inv headerSize side.peer tidPeer e peer) {rest : List Datagram}
    (hqueue : e.queue = d :: rest) {e' : End}
    (he' : ({ e with queue := rest } : End).receive headerSize d.bytes = some e') :
  Inv headerSize side tid peer e'
  := by
  have hhead : d ∈ e.queue := by
    simp [hqueue]
  have hmem : d.kcp = true → d.bytes ∈ e.kcpArrived := by
    intro hkcp
    rw [h.handed, kcpQueued_cons hqueue, if_pos hkcp]
    simp
  have hsized : d.kcp = true → KcpSized headerSize d.bytes := by
    intro hkcp
    obtain ⟨d', hd', hkcp', hbytes⟩ := mem_kcpArrived (hmem hkcp)
    rw [← hbytes]
    apply (hpeer.sentKcp d' (h.arrived d' hd' hkcp') hkcp').1
  have hof : d.kcp = true → e.phase ≠ .draining ∧ (side = .connector → e.Finished) := by
    intro hkcp
    obtain ⟨d', hd', hkcp', _⟩ := mem_kcpArrived (hmem hkcp)
    apply h.of_kcp hpeer (h.arrived d' hd' hkcp') hkcp'
  have hfits := h.fits
  rw [Fits] at hfits
  rw [End.receive.eq_def] at he'
  dsimp only at he'
  split at he'
  next hphase =>
      obtain rfl := Option.some.inj he'
      cases hkcp : d.kcp with
      | true => cases (hof hkcp).1 hphase
      | false => apply h.read hqueue hkcp
  next p hphase =>
      rw [hphase] at hfits
      have hqueued := h.queued (by simp [hphase]) d hhead
      cases hkcp : d.kcp with
      | true =>
          have htake : d.bytes.take 1500 = d.bytes := List.take_of_length_le (hsized hkcp).2
          have hlong : punchPacketLen < d.bytes.length := hheader.trans_le (hsized hkcp).1
          rw [htake] at he'
          rcases p.receive_cases d.bytes with ⟨hack, _⟩ | ⟨hshort, _⟩ | ⟨_, _, _, hreceive⟩
          · cases hlong.ne' (length_of_punchTid hack)
          · cases hlong.not_ge hshort
          · rw [hreceive] at he'
            obtain rfl := Option.some.inj he'
            cases side with
            | connector =>
                obtain ⟨packet, hresult⟩ := (hof hkcp).2 rfl
                rw [hfits.2.2.1] at hresult
                cases hresult
            | listener => apply h.finish_some hphase hqueue hkcp
      | false =>
          obtain ⟨hshort, hpunch, hown⟩ := hpeer.punch_cases hqueued hkcp
          have htake : d.bytes.take 1500 = d.bytes := by
            apply List.take_of_length_le (hshort.trans _)
            decide
          rw [htake] at he'
          rcases p.receive_cases d.bytes with
            ⟨hack, hlisten, hreceive⟩ | ⟨_, p', answer, hreceive, htid, hlisten⟩
              | ⟨hack, hprobe, hne, _⟩
          · rw [hreceive] at he'
            obtain rfl := Option.some.inj he'
            rw [hfits.1] at hack
            cases side with
            | connector => apply (h.read hqueue hkcp).finish_none hphase (hown hack)
            | listener =>
                rw [hfits.2.1] at hlisten
                cases hlisten
          · rw [hreceive] at he'
            obtain rfl := Option.some.inj he'
            apply (h.read hqueue hkcp).goOn hphase htid hlisten
          · cases hne (hpunch hack hprobe)
  next hphase =>
      obtain rfl := Option.some.inj he'
      have hqueued := h.queued (by simp [hphase]) d hhead
      cases hkcp : d.kcp with
      | true =>
          rw [List.take_of_length_le (hsized hkcp).2]
          apply h.hand hphase hqueue hkcp (hsized hkcp)
      | false =>
          have hshort : (d.bytes.take 1500).length < headerSize := by
            apply (List.length_take_le' _ _).trans_lt
            apply (hpeer.punch_cases hqueued hkcp).1.trans_lt hheader
          rw [End.hand, if_pos hshort]
          apply h.read hqueue hkcp
  next => cases he'
  next => cases he'

/-- The packet of `punch_udp` is handed over before the io loop starts. -/
theorem Inv.startIo (h : Inv headerSize side tid peer e)
    (hpeer : Inv headerSize side.peer tidPeer e peer) {packet : Option Bytes}
    (hphase : e.phase = .punched packet) :
  Inv headerSize side tid peer (e.startIo headerSize side packet)
  := by
  have hfits := h.fits
  rw [Fits, hphase] at hfits
  have hqueued := h.queued (by simp [hphase])
  have hhanded := h.handed
  rw [hphase] at hhanded
  have hfact := h.fact packet hfits
  cases side with
  | connector =>
      obtain ⟨rfl, _⟩ := hfact
      exact ⟨h.sentPunch, h.sentKcp, fun _ => hqueued, h.arrived, hhanded, ⟨none, hfits⟩, h.fact⟩
  | listener =>
      obtain ⟨data, rest, rfl, harrived⟩ := hfact
      have hdata : data ∈ e.kcpArrived := by
        simp [harrived]
      obtain ⟨d, hd, hkcp, rfl⟩ := mem_kcpArrived hdata
      have hlong : ¬ d.bytes.length < headerSize :=
        not_lt.mpr (hpeer.sentKcp d (h.arrived d hd hkcp) hkcp).1.1
      rw [End.startIo, End.hand, if_neg hlong]
      refine ⟨h.sentPunch, h.sentKcp, fun _ => hqueued, h.arrived, ?_, ⟨_, hfits⟩, h.fact⟩
      change e.kcpArrived = e.handed ++ [d.bytes] ++ [] ++ e.kcpQueued
      rw [List.append_nil]
      exact hhanded

end End

end VynxDesk.UdpPunch
