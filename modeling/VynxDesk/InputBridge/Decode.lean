import VynxDesk.InputBridge.Firmware
import VynxDesk.InputBridge.Agreement
import VynxDesk.Lib.Crc

/-!
# The firmware reads what the host writes

Every report that the host writes is the frame of a `HostCommand` (`Call.written_of_run`).  The
firmware finds the frame valid, whether or not the report id is stripped, and reads the values of
the command off it; and it rejects a frame in which at most 16 consecutive bits of the protected
bytes are flipped (`HostCommand.read_of_report`).
-/

namespace VynxDesk.InputBridge

/-- What a call of the host puts into a frame. -/
inductive HostCommand where
  | keyboardState (keyboard : KeyboardState)
  | relativeMouse (buttons : UInt8) (dx dy : UInt16) (wheel pan : UInt8)
  | absoluteMouse (buttons : UInt8) (x y : UInt16)
  | releaseAll
  | heartbeat
  deriving DecidableEq

namespace HostCommand

/-- The command of a frame. -/
def code : HostCommand → UInt8
  | keyboardState _ => commandKeyboardState
  | relativeMouse .. => commandRelativeMouse
  | absoluteMouse .. => commandAbsoluteMouse
  | releaseAll => commandReleaseAll
  | heartbeat => commandHeartbeat

/-- The payload of a frame. -/
def payload : HostCommand → List UInt8
  | keyboardState keyboard => BridgeState.keyboardPayload keyboard
  | relativeMouse buttons dx dy wheel pan =>
      [buttons] ++ bytesOfWord dx ++ bytesOfWord dy ++ [wheel, pan]
  | absoluteMouse buttons x y => [buttons] ++ bytesOfWord x ++ bytesOfWord y ++ [0, 0]
  | releaseAll => []
  | heartbeat => []

/-- The report that is written. -/
def report (sequence : UInt16) (c : HostCommand) : List UInt8 :=
  encodeFrame c.code sequence c.payload

/-- The values that the firmware reads off a frame are those of the command. -/
def ReadFrom (frame : Frame) : HostCommand → Prop
  | keyboardState keyboard =>
      KeyboardReport.ofPayload frame.payload = ⟨keyboard.modifiers, List.ofFn keyboard.usages⟩
  | relativeMouse buttons dx dy wheel pan =>
      MouseReport.ofPayload frame.payload = ⟨buttons, dx, dy, wheel, pan⟩
  | absoluteMouse buttons x y => MouseReport.ofPayload frame.payload = ⟨buttons, x, y, 0, 0⟩
  | releaseAll | heartbeat => True

end HostCommand

/-- A bit of a frame, counted from the most significant one of the first byte. -/
def Frame.bit (frame : Frame) (n : ℕ) : Bool := (frame.byte (n / 8)).toBitVec.getMsbD (n % 8)

/-! ### The bytes of a frame -/

theorem wordOfBytes_bytesOfWord (word : UInt16) :
  wordOfBytes word.toUInt8 (word >>> 8).toUInt8 = word
  := by
  apply UInt16.toBitVec_inj.mp
  apply BitVec.eq_of_getLsbD_eq
  intro i hi
  change ((word.toBitVec.setWidth 8).setWidth 16
    ||| ((word.toBitVec >>> 8).setWidth 8).setWidth 16 <<< 8).getLsbD i = _
  simp only [BitVec.getLsbD_or, BitVec.getLsbD_setWidth, BitVec.getLsbD_shiftLeft,
    BitVec.getLsbD_ushiftRight]
  by_cases hlow : i < 8
  · simp [hlow, hi]
  · have hplace : i - 8 < 8 := by omega
    have hindex : 8 + (i - 8) = i := by omega
    simp [hlow, hi, hplace, hindex]
    intro
    omega

/-- The bytes that the CRC protects. -/
def protectedBytes (command : UInt8) (sequence : UInt16) (payload : List UInt8) : List UInt8 :=
  [0x56, 0x58, protocolVersion, command] ++ bytesOfWord sequence ++
    [UInt8.ofNat payload.length, 0] ++ payload ++ List.replicate (payloadSize - payload.length) 0

/-- The frame of a report. -/
def frameOf (command : UInt8) (sequence : UInt16) (payload : List UInt8) : Frame :=
  ⟨protectedBytes command sequence payload
    ++ bytesOfWord (crc16Ccitt (protectedBytes command sequence payload)) ++ [0, 0]⟩

theorem encodeFrame_eq (command : UInt8) (sequence : UInt16) (payload : List UInt8) :
  encodeFrame command sequence payload
    = reportIdVendor :: (frameOf command sequence payload).bytes
  := rfl

variable {command : UInt8} {sequence : UInt16} {payload : List UInt8}

theorem length_protectedBytes (hlen : payload.length ≤ payloadSize) :
  (protectedBytes command sequence payload).length = 28
  := by
  rw [payloadSize] at hlen
  simp [protectedBytes, bytesOfWord, payloadSize]
  omega

theorem length_frameOf (hlen : payload.length ≤ payloadSize) :
  (frameOf command sequence payload).bytes.length = frameSize
  := by
  simp [frameOf, bytesOfWord, length_protectedBytes hlen, frameSize]

theorem crc_frameOf (hlen : payload.length ≤ payloadSize) :
  (frameOf command sequence payload).crc = crc16Ccitt (protectedBytes command sequence payload)
  := by
  have hbyte (i : ℕ) (bytes : List UInt8) :
      (protectedBytes command sequence payload ++ bytes).getD (28 + i) 0 = bytes.getD i 0 := by
    rw [List.getD_append_right _ _ _ _ (by rw [length_protectedBytes hlen]; omega),
      length_protectedBytes hlen, Nat.add_sub_cancel_left]
  unfold Frame.crc Frame.word Frame.byte frameOf
  rw [List.append_assoc, hbyte 0, hbyte 1]
  apply wordOfBytes_bytesOfWord

theorem payload_frameOf (hlen : payload.length ≤ payloadSize) :
  (frameOf command sequence payload).payload
    = payload ++ List.replicate (payloadSize - payload.length) 0
  := by
  have hlength : (payload ++ List.replicate (payloadSize - payload.length) 0).length
      = payloadSize := by
    simp [hlen]
  rw [Frame.payload, frameOf, protectedBytes]
  rw [List.append_assoc, List.append_assoc, List.append_assoc]
  change List.take payloadSize (payload ++ (List.replicate (payloadSize - payload.length) 0 ++ _)) = _
  rw [← List.append_assoc, List.take_left' hlength]

/-- A report is read as its frame, with or without its report id. -/
theorem vendorFrame_report (hlen : payload.length ≤ payloadSize) {reportType : HidReportType}
    (htype : reportType = .output ∨ reportType = .feature) :
  vendorFrame reportIdVendor reportType (encodeFrame command sequence payload).tail
      = some (frameOf command sequence payload)
    ∧ vendorFrame 0 reportType (encodeFrame command sequence payload)
      = some (frameOf command sequence payload)
  := by
  have hlength : (frameOf command sequence payload).bytes.length = frameSize :=
    length_frameOf hlen
  have htype' : ¬ (reportType ≠ .output ∧ reportType ≠ .feature) := by
    rintro ⟨houtput, hfeature⟩
    exact htype.elim houtput hfeature
  rw [encodeFrame_eq]
  constructor
  · rw [vendorFrame]
    simp [hlength, htype']
  · rw [vendorFrame]
    simp [hlength, htype']

/-- The frame of a report is valid. -/
theorem frameIsValid_frameOf (hlen : payload.length ≤ payloadSize) :
  frameIsValid (frameOf command sequence payload) = true
  := by
  have hpayload : (frameOf command sequence payload).payloadLength.toNat ≤ payloadSize := by
    change (UInt8.ofNat payload.length).toNat ≤ payloadSize
    rw [payloadSize] at hlen ⊢
    rw [UInt8.toNat_ofNat']
    omega
  have htake : (frameOf command sequence payload).bytes.take 28
      = protectedBytes command sequence payload := by
    rw [frameOf]
    rw [List.append_assoc, List.take_left' (length_protectedBytes hlen)]
  rw [frameIsValid]
  rw [decide_eq_true_eq]
  refine ⟨rfl, rfl, hpayload, ?_⟩
  rw [crc_frameOf hlen, htake]

/-- The commands of the host have payloads that fit, of the sizes that the firmware expects. -/
theorem HostCommand.length_payload (c : HostCommand) :
  c.payload.length ≤ payloadSize
  := by
  cases c with
  | keyboardState keyboard =>
      change (BridgeState.keyboardPayload keyboard).length ≤ payloadSize
      rw [length_keyboardPayload]
      decide
  | _ => simp [payload, bytesOfWord, payloadSize]

theorem commandPayloadIsValid_report (sequence : UInt16) (c : HostCommand) :
  commandPayloadIsValid (frameOf c.code sequence c.payload) = true
  := by
  have hcode : (frameOf c.code sequence c.payload).command = c.code := rfl
  have hlength : (frameOf c.code sequence c.payload).payloadLength
      = UInt8.ofNat c.payload.length := rfl
  rw [commandPayloadIsValid]
  rw [hcode, hlength]
  cases c with
  | keyboardState keyboard =>
      change decide (UInt8.ofNat (BridgeState.keyboardPayload keyboard).length
        = keyboardReportSize) = true
      rw [length_keyboardPayload]
      decide
  | _ => rfl

/-- The firmware reads the values of a command off its frame. -/
theorem readFrom_report (sequence : UInt16) (c : HostCommand) :
  c.ReadFrom (frameOf c.code sequence c.payload)
  := by
  have hpayload : (frameOf c.code sequence c.payload).payload
      = c.payload ++ List.replicate (payloadSize - c.payload.length) 0 :=
    payload_frameOf c.length_payload
  cases c with
  | keyboardState keyboard =>
      have husages (bytes : List UInt8) : (List.ofFn keyboard.usages ++ bytes).take 16
          = List.ofFn keyboard.usages := List.take_left' List.length_ofFn
      change KeyboardReport.ofPayload _ = _
      rw [hpayload]
      change KeyboardReport.mk keyboard.modifiers ((List.ofFn keyboard.usages ++ _).take 16) = _
      rw [husages]
  | relativeMouse buttons dx dy wheel pan =>
      change MouseReport.ofPayload _ = _
      rw [hpayload]
      change MouseReport.mk buttons (wordOfBytes dx.toUInt8 (dx >>> 8).toUInt8)
        (wordOfBytes dy.toUInt8 (dy >>> 8).toUInt8) wheel pan = _
      rw [wordOfBytes_bytesOfWord, wordOfBytes_bytesOfWord]
  | absoluteMouse buttons x y =>
      change MouseReport.ofPayload _ = _
      rw [hpayload]
      change MouseReport.mk buttons (wordOfBytes x.toUInt8 (x >>> 8).toUInt8)
        (wordOfBytes y.toUInt8 (y >>> 8).toUInt8) 0 0 = _
      rw [wordOfBytes_bytesOfWord, wordOfBytes_bytesOfWord]
  | releaseAll => trivial
  | heartbeat => trivial

/-! ### Flipped bits -/

/-- The polynomial of the CRC. -/
def crcPolynomial : BitVec 16 := 0x1021

theorem toBitVec_crc16Bit (crc : UInt16) :
  (crc16Bit crc).toBitVec = Crc.shift crcPolynomial crc.toBitVec
  := by
  have hand : (crc &&& 0x8000).toBitVec
      = if crc.toBitVec.getLsbD 15 then BitVec.twoPow 16 15 else 0#16 := by
    rw [← BitVec.and_twoPow]
    rfl
  have htop : crc &&& 0x8000 ≠ 0 ↔ crc.toBitVec.msb = true := by
    rw [ne_eq, ← UInt16.toBitVec_inj, hand, BitVec.msb_eq_getLsbD_last]
    cases crc.toBitVec.getLsbD 15 <;> decide
  rw [crc16Bit, Crc.shift]
  by_cases h : crc.toBitVec.msb = true
  · rw [if_pos h, if_pos (htop.mpr h)]
    rfl
  · rw [if_neg h, if_neg fun hbit => h (htop.mp hbit)]
    rfl

/-- The CRC after a byte is the remainder after its bits. -/
theorem toBitVec_crc16Byte (crc : UInt16) (byte : UInt8) :
  (crc16Byte crc byte).toBitVec
    = Crc.remainder crcPolynomial crc.toBitVec (Crc.bits byte.toBitVec)
  := by
  have hshift : Function.Semiconj UInt16.toBitVec crc16Bit (Crc.shift crcPolynomial) :=
    toBitVec_crc16Bit
  have hlength : (Crc.bits byte.toBitVec).length = 8 := by
    simp [Crc.bits]
  rw [crc16Byte]
  rw [Crc.remainder_eq _ (by omega), hlength, Crc.word_bits _ (by omega)]
  apply hshift.iterate_right 8

/-- The CRC of bytes is the remainder after their bits. -/
theorem toBitVec_crc16Ccitt (data : List UInt8) :
  (crc16Ccitt data).toBitVec
    = Crc.remainder crcPolynomial 0xFFFF (data.flatMap fun byte => Crc.bits byte.toBitVec)
  := by
  have hfold (crc : UInt16) : (data.foldl crc16Byte crc).toBitVec
      = Crc.remainder crcPolynomial crc.toBitVec
        (data.flatMap fun byte => Crc.bits byte.toBitVec) := by
    induction data generalizing crc with
    | nil => rfl
    | cons byte data ih =>
        rw [List.foldl_cons, ih, toBitVec_crc16Byte, List.flatMap_cons, Crc.remainder_append]
  apply hfold

/-- The bits of bytes, by their places. -/
theorem flatMap_bits (data : List UInt8) :
  (data.flatMap fun byte => Crc.bits byte.toBitVec)
    = (List.range (8 * data.length)).map fun n =>
        (data.getD (n / 8) 0).toBitVec.getMsbD (n % 8)
  := by
  induction data with
  | nil => rfl
  | cons byte data ih =>
      rw [List.flatMap_cons, ih, List.length_cons, Nat.mul_succ, Nat.add_comm, List.range_add,
        List.map_append, List.map_map]
      have hrest : ((fun n => ((byte :: data).getD (n / 8) 0).toBitVec.getMsbD (n % 8)) ∘ (8 + ·))
          = fun n => (data.getD (n / 8) 0).toBitVec.getMsbD (n % 8) := by
        funext n
        have hdiv : (8 + n) / 8 = n / 8 + 1 := by omega
        have hmod : (8 + n) % 8 = n % 8 := by omega
        simp only [Function.comp_apply, hdiv, hmod, List.getD_cons_succ]
      rw [hrest]
      rfl

/-- The CRC of the protected bytes of a frame is the remainder after its bits. -/
theorem toBitVec_crc_take {frame : Frame} (hlength : frame.bytes.length = frameSize) :
  (crc16Ccitt (frame.bytes.take 28)).toBitVec
    = Crc.remainder crcPolynomial 0xFFFF ((List.range 224).map frame.bit)
  := by
  have htake : (frame.bytes.take 28).length = 28 := by
    rw [List.length_take, hlength]
    decide
  rw [toBitVec_crc16Ccitt, flatMap_bits, htake]
  congr 1
  apply List.map_congr_left
  intro n hn
  rw [List.mem_range] at hn
  have hbyte : (frame.bytes.take 28).getD (n / 8) 0 = frame.byte (n / 8) := by
    rw [Frame.byte]
    rw [List.getD_eq_getElem?_getD, List.getElem?_take_of_lt (by omega),
      List.getD_eq_getElem?_getD]
  rw [hbyte]
  rfl

/-- A valid frame in which bits are flipped, but in 16 consecutive ones of the protected bits only,
is not valid. -/
theorem frameIsValid_of_burst {frame garbled : Frame} {first : ℕ}
    (hlength : frame.bytes.length = frameSize) (hvalid : frameIsValid frame = true)
    (hlength' : garbled.bytes.length = frameSize)
    (hrest : garbled.bytes.drop 28 = frame.bytes.drop 28)
    (hflipped : ∃ n < 224, garbled.bit n ≠ frame.bit n)
    (hburst : ∀ n < 224, garbled.bit n ≠ frame.bit n → first ≤ n ∧ n < first + 16) :
  frameIsValid garbled = false
  := by
  have hbyte (i : ℕ) : garbled.byte (28 + i) = frame.byte (28 + i) := by
    unfold Frame.byte
    rw [List.getD_eq_getElem?_getD, List.getD_eq_getElem?_getD, ← List.getElem?_drop,
      ← List.getElem?_drop, hrest]
  have hcrc : garbled.crc = frame.crc := by
    unfold Frame.crc Frame.word
    rw [hbyte 0, hbyte 1]
  have hconstant : crcPolynomial.getLsbD 0 = true := by decide
  have hne := Crc.remainder_ne hconstant 0xFFFF hflipped hburst
  rw [← toBitVec_crc_take hlength', ← toBitVec_crc_take hlength] at hne
  unfold frameIsValid at hvalid ⊢
  rw [decide_eq_true_eq] at hvalid
  rw [decide_eq_false_iff_not]
  rintro ⟨-, -, -, hgarbled⟩
  rw [hgarbled, hcrc, hvalid.2.2.2] at hne
  exact hne rfl

/-- The firmware reads a report of the host, delivered with its report id stripped or with it, as one
frame, which is valid and has the command, the sequence number and the values that were sent; and it
rejects the frame once bits are flipped in 16 consecutive ones of the protected bits. -/
theorem HostCommand.read_of_report (c : HostCommand) (sequence : UInt16) :
  ∃ frame,
    (∀ reportType ∈ [HidReportType.output, .feature],
      vendorFrame reportIdVendor reportType (c.report sequence).tail = some frame
        ∧ vendorFrame 0 reportType (c.report sequence) = some frame)
    ∧ frameIsValid frame = true ∧ commandPayloadIsValid frame = true
    ∧ frame.command = c.code ∧ frame.sequence = sequence ∧ c.ReadFrom frame
    ∧ ∀ (garbled : Frame) (first : ℕ), garbled.bytes.length = frameSize →
      garbled.bytes.drop 28 = frame.bytes.drop 28 →
      (∃ n < 224, garbled.bit n ≠ frame.bit n) →
      (∀ n < 224, garbled.bit n ≠ frame.bit n → first ≤ n ∧ n < first + 16) →
      frameIsValid garbled = false
  := by
  use frameOf c.code sequence c.payload
  have hlen := c.length_payload
  refine ⟨?_, frameIsValid_frameOf hlen, commandPayloadIsValid_report sequence c, rfl,
    wordOfBytes_bytesOfWord sequence, readFrom_report sequence c, ?_⟩
  · intro reportType htype
    apply vendorFrame_report hlen
    simpa using htype
  · intro garbled first hlength hrest hflipped hburst
    apply frameIsValid_of_burst (length_frameOf hlen) (frameIsValid_frameOf hlen) hlength hrest
      hflipped hburst

/-- A heartbeat whose payload length is garbled. -/
def sampleGarbled : Frame := ⟨((HostCommand.report 7 .heartbeat).tail).set 6 0xFF⟩

theorem garbled_heartbeat :
  frameIsValid sampleGarbled = false
  := by
  obtain ⟨frame, hread, -, -, -, -, -, hburst⟩ := HostCommand.read_of_report .heartbeat 7
  have hframe : some ⟨(HostCommand.report 7 .heartbeat).tail⟩ = some frame :=
    (hread .output (by decide)).1
  cases hframe
  apply hburst sampleGarbled 48 <;> decide +kernel

/-! ### What the host writes -/

/-- The reports that were written to the device. -/
def BridgeState.written (s : BridgeState) : List (List UInt8) :=
  (s.device.map Device.written).getD []

/-- Every report that was written is the frame of a command. -/
def BridgeState.Framed (s : BridgeState) : Prop :=
  ∀ report ∈ s.written, ∃ (c : HostCommand) (sequence : UInt16), report = c.report sequence

variable {s : BridgeState} {usb : Usb}

/-- A call that sends the frame of a command writes nothing else. -/
theorem BridgeState.Framed.send (h : s.Framed) (c : HostCommand) (hcode : c.code = command)
    (hpayload : c.payload = payload) :
  (s.send usb command payload).1.Framed
  := by
  have hlen := c.length_payload
  rw [hpayload] at hlen
  have hsent := BridgeState.send_sent s usb command payload hlen
  revert hsent
  generalize s.send usb command payload = outcome
  intro hsent
  have hreport : encodeFrame command (s.sequence + 1) payload = c.report (s.sequence + 1) := by
    rw [← hcode, ← hpayload]
    rfl
  cases hsent with
  | @written device hdevice =>
      intro report hmem
      rcases List.mem_append.mp hmem with hmem | hmem
      · apply h
        rw [BridgeState.written]
        rw [hdevice]
        exact hmem
      · rw [List.mem_singleton] at hmem
        use c, s.sequence + 1
        rw [hmem, hreport]
  | reopened hreopens =>
      intro report hmem
      have hmem : report ∈ [encodeFrame command (s.sequence + 1) payload] := hmem
      rw [List.mem_singleton] at hmem
      use c, s.sequence + 1
      rw [hmem, hreport]
  | failed hreopens hdevice =>
      intro report hmem
      rw [BridgeState.written] at hmem
      rw [hdevice] at hmem
      cases hmem

/-- What was written is what the device says. -/
theorem BridgeState.Framed.of_device {s' : BridgeState} (h : s.Framed)
    (hdevice : s'.device = s.device) :
  s'.Framed
  := by
  rw [BridgeState.Framed, BridgeState.written] at h ⊢
  rw [hdevice]
  exact h

/-- `release_all` writes the frame of a release. -/
theorem BridgeState.Framed.releaseAll (h : s.Framed) :
  (s.releaseAll usb).1.Framed
  := by
  have hsend : (s.send usb commandReleaseAll []).1.Framed := h.send .releaseAll rfl rfl
  rw [BridgeState.releaseAll]
  generalize s.send usb commandReleaseAll [] = outcome at hsend ⊢
  obtain ⟨s', _ | _⟩ := outcome
  · exact hsend
  · exact hsend.of_device rfl

/-- Every call writes frames of commands only. -/
theorem BridgeState.Framed.exec (h : s.Framed) (call : Call) :
  (call.exec s usb).1.Framed
  := by
  cases call with
  | key usage down =>
      change (s.sendKeyboardUsage usb usage down).1.Framed
      rw [BridgeState.sendKeyboardUsage]
      by_cases hsoftware : (!down && keyboardContains s.softwareKeyboard usage) = true
      · rw [if_pos hsoftware]
        exact h.of_device rfl
      · rw [if_neg hsoftware]
        cases setKeyboardUsage s.keyboard usage down with
        | none => exact h
        | some keyboard =>
            have hset : ({ s with keyboard := keyboard } : BridgeState).Framed := h.of_device rfl
            have hsend : (BridgeState.send { s with keyboard := keyboard } usb commandKeyboardState
                (BridgeState.keyboardPayload keyboard)).1.Framed :=
              hset.send (.keyboardState keyboard) rfl rfl
            dsimp only
            generalize BridgeState.send { s with keyboard := keyboard } usb commandKeyboardState
              (BridgeState.keyboardPayload keyboard) = outcome at hsend ⊢
            obtain ⟨s', _ | _⟩ := outcome
            · exact hsend.of_device rfl
            · exact hsend
  | mouse flags data dx dy =>
      change (s.sendMouse usb flags data dx dy).1.Framed
      rw [BridgeState.sendMouse]
      by_cases habsolute : hasAny flags absoluteFlag = true
      · rw [if_pos habsolute]
        exact h
      · rw [if_neg habsolute]
        dsimp only
        by_cases hsoftware : (hasAny flags (leftUp ||| rightUp ||| middleUp ||| xUp) &&
            s.softwareMouseButtons &&& mouseButtonMask flags data ≠ 0) = true
        · rw [if_pos hsoftware]
          exact h.of_device rfl
        · rw [if_neg hsoftware]
          by_cases hsupported : (!hasAny flags supportedFlags) = true
          · rw [if_pos hsupported]
            exact h
          · rw [if_neg hsupported]
            let buttons := updateMouseButtons flags data s.mouseButtons
            let wheel := if hasAny flags wheelFlag then wheelDelta data else 0
            let pan := if hasAny flags hwheelFlag then wheelDelta data else 0
            let payload := [buttons] ++ bytesOfWord (clampWord dx) ++ bytesOfWord (clampWord dy) ++
              [wheel, pan]
            have hset : ({ s with mouseButtons := buttons } : BridgeState).Framed :=
              h.of_device rfl
            have hsend : (BridgeState.send { s with mouseButtons := buttons } usb
                commandRelativeMouse payload).1.Framed :=
              hset.send (.relativeMouse buttons (clampWord dx) (clampWord dy) wheel pan) rfl rfl
            split
            next s' hsent =>
                obtain rfl : _ = s' := congrArg Prod.fst hsent
                exact hsend
            next s' hsent =>
                obtain rfl : _ = s' := congrArg Prod.fst hsent
                exact hsend.of_device rfl
  | absoluteMouse x y => exact h.send (.absoluteMouse s.mouseButtons x y) rfl rfl
  | heartbeat =>
      change (s.heartbeat usb).1.Framed
      rw [BridgeState.heartbeat]
      split_ifs
      · exact h.send .heartbeat rfl rfl
      · exact h
  | releaseAll => exact h.releaseAll
  | sessionStarted => exact h.of_device rfl
  | sessionEnded =>
      have hended : ({ s with activeSessions := s.activeSessions - 1 } : BridgeState).Framed :=
        h.of_device rfl
      change (s.sessionEnded usb).1.Framed
      rw [BridgeState.sessionEnded]
      dsimp only
      split_ifs
      · exact hended.releaseAll
      · exact hended

/-- In every run every report that was written is the frame of a command. -/
theorem Call.written_of_run {ids : Option (UInt16 × UInt16)} {now : Int}
    {h : List (BridgeState × Call × Usb)} (hrun : Run Call.Step (.new ids now) h s) :
  ∀ report ∈ s.written, ∃ (c : HostCommand) (sequence : UInt16), report = c.report sequence
  := by
  apply hrun.invariant BridgeState.Framed
  · nofun
  · rintro s ⟨call, usb⟩ _ hframed rfl
    exact hframed.exec call

end VynxDesk.InputBridge
