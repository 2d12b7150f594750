import VynxDesk.Lib.LittleEndian

/-!
# Punch packets

A punch packet is a tag of four bytes and a transaction id.  Probes and acknowledgements differ in
the tag.
-/

namespace VynxDesk.UdpPunch

/-- The payload of a datagram. -/
abbrev Bytes := List UInt8

/-- `PUNCH_PROBE`, that is `RDP?`. -/
def punchProbe : Bytes := [0x52, 0x44, 0x50, 0x3F]

/-- `PUNCH_ACK`, that is `RDP!`. -/
def punchAck : Bytes := [0x52, 0x44, 0x50, 0x21]

/-- `PUNCH_PACKET_LEN`. -/
def punchPacketLen : ℕ := 12

/-- `punch_packet`. -/
def punchPacket (tag : Bytes) (tid : UInt64) : Bytes := tag ++ leBytes 8 tid.toNat

/-- `punch_tid`. -/
def punchTid (packet tag : Bytes) : Option UInt64 :=
  if packet.length ≠ punchPacketLen ∨ packet.take 4 ≠ tag then none
  else some (UInt64.ofNat (leNat (packet.drop 4)))

variable {packet tag : Bytes} {tid : UInt64}

theorem length_punchPacket (htag : tag.length = 4) (tid : UInt64) :
  (punchPacket tag tid).length = punchPacketLen
  := by
  rw [punchPacket, List.length_append, htag, length_leBytes]
  rfl

theorem take_punchPacket (htag : tag.length = 4) (tid : UInt64) :
  (punchPacket tag tid).take 4 = tag
  := List.take_left' htag

/-- The transaction id of a punch packet is read with the tag that it was written with. -/
theorem punchTid_punchPacket (htag : tag.length = 4) (tid : UInt64) :
  punchTid (punchPacket tag tid) tag = some tid
  := by
  have hlt : tid.toNat < 256 ^ 8 := tid.toNat_lt
  rw [punchTid, if_neg]
  · rw [punchPacket, List.drop_left' htag, leNat_leBytes_of_lt hlt, UInt64.ofNat_toNat]
  · rw [length_punchPacket htag, take_punchPacket htag]
    simp

/-- With another tag it is not read. -/
theorem punchTid_of_tag_ne {tag' : Bytes} (htag : tag.length = 4) (hne : tag ≠ tag')
    (tid : UInt64) :
  punchTid (punchPacket tag tid) tag' = none
  := by
  rw [punchTid, if_pos]
  rw [take_punchPacket htag]
  exact Or.inr hne

/-- A datagram of another length is no punch packet. -/
theorem punchTid_of_length_ne (hlength : packet.length ≠ punchPacketLen) (tag : Bytes) :
  punchTid packet tag = none
  := if_pos (Or.inl hlength)

@[simp]
theorem ack_of_ack (tid : UInt64) :
  punchTid (punchPacket punchAck tid) punchAck = some tid
  := punchTid_punchPacket rfl tid

@[simp]
theorem probe_of_probe (tid : UInt64) :
  punchTid (punchPacket punchProbe tid) punchProbe = some tid
  := punchTid_punchPacket rfl tid

@[simp]
theorem ack_of_probe (tid : UInt64) :
  punchTid (punchPacket punchProbe tid) punchAck = none
  := punchTid_of_tag_ne rfl (by decide) tid

end VynxDesk.UdpPunch
