import Mathlib.Algebra.Group.Nat.Defs
import VynxDesk.Clipboard.Message

/-!
# The range of a file on the wire

A reader asks for a range of a file (`FuseServer::read_node`), and the end that has the file makes a
request of what it is sent (`read_file_contents`).  The 64-bit offset and the 32-bit length cross
the wire in three `i32` fields.
-/

namespace VynxDesk.Clipboard

/-- What is asked of a file's node: the connection it comes from and its place in the peer's list. -/
structure FileNode where
  connId : BitVec 32
  index : BitVec 64
  deriving DecidableEq, Repr

/-- The request of `FuseServer::read_node`, under the stream identifier it draws. -/
def FileNode.readNode (streamId : BitVec 32) (offset : BitVec 64) (size : BitVec 32)
    (node : FileNode) : ClipboardFile :=
  let cbRequested := size
  let nPositionHigh := (offset.sshiftRight 32).setWidth 32
  let nPositionLow := (offset &&& 0xFFFFFFFF#64).setWidth 32
  .fileContentsRequest streamId (node.index.setWidth 32) 2 nPositionLow nPositionHigh cbRequested
    false 0

/-- `FileContentsRequest`. -/
inductive FileContentsRequest where
  | size (streamId : BitVec 32) (fileIdx : BitVec 64)
  | range (streamId : BitVec 32) (fileIdx offset length : BitVec 64)
  deriving DecidableEq, Repr

/-- What `read_file_contents` makes of the fields it is sent. -/
def FileContentsRequest.ofFields (streamId listIndex dwFlags nPositionLow nPositionHigh
    cbRequested : BitVec 32) : Except CliprdrError FileContentsRequest :=
  if dwFlags = 0x1 then .ok (.size streamId (listIndex.signExtend 64))
  else if dwFlags = 0x2 then
    let offset := nPositionHigh.signExtend 64 <<< 32 ||| nPositionLow.signExtend 64
    let length := cbRequested.signExtend 64
    .ok (.range streamId (listIndex.signExtend 64) offset length)
  else
    .error (.InvalidRequest
      ("got invalid FileContentsRequest, dw_flats: " ++ toString dwFlags.toInt))

/-- The request that a message is read as, when it is one. -/
def ClipboardFile.request : ClipboardFile → Option (Except CliprdrError FileContentsRequest)
  | .fileContentsRequest streamId listIndex dwFlags nPositionLow nPositionHigh cbRequested _ _ =>
      some (FileContentsRequest.ofFields streamId listIndex dwFlags nPositionLow nPositionHigh
        cbRequested)
  | _ => none

/-- The offset that is read, of the halves of an offset. -/
def readOffset (offset : BitVec 64) : BitVec 64 :=
  ((offset.sshiftRight 32).setWidth 32).signExtend 64 <<< 32
    ||| ((offset &&& 0xFFFFFFFF#64).setWidth 32).signExtend 64

theorem readNode_request (streamId : BitVec 32) (offset : BitVec 64) (size : BitVec 32)
    (node : FileNode) :
  (node.readNode streamId offset size).request
    = some (.ok (.range streamId ((node.index.setWidth 32).signExtend 64) (readOffset offset)
        (size.signExtend 64)))
  := rfl

/-- The bits of the offset that is read: the sign of the low half spills into the high one. -/
theorem getLsbD_readOffset (offset : BitVec 64) {i : ℕ} (hi : i < 64) :
  (readOffset offset).getLsbD i
    = if i < 32 then offset.getLsbD i else offset.getLsbD i || offset.getLsbD 31
  := by
  rw [readOffset]
  simp only [BitVec.getLsbD_or, BitVec.getLsbD_shiftLeft, BitVec.getLsbD_signExtend,
    BitVec.msb_eq_getLsbD_last, BitVec.getLsbD_setWidth, BitVec.getLsbD_sshiftRight,
    BitVec.getLsbD_and]
  have hmask : ∀ j < 32, (0xFFFFFFFF#64).getLsbD j = true := by
    decide
  by_cases hlow : i < 32
  · simp [hi, hlow, hmask i hlow]
  · have hhigh : i - 32 < 32 := by omega
    have hback : 32 + (i - 32) = i := by omega
    have hless : i - 32 < 64 := by omega
    have hmore : ¬ 64 ≤ i - 32 := by omega
    simp [hi, hlow, hhigh, hback, hless, hmore]

/-- An offset that is not negative is read as it is when its low half is not negative. -/
theorem readOffset_eq_iff {offset : BitVec 64} (hoffset : offset.msb = false) :
  readOffset offset = offset ↔ offset.getLsbD 31 = false
  := by
  constructor
  · intro h
    have hlast := getLsbD_readOffset offset (i := 63) (by decide)
    rw [h, if_neg (by decide)] at hlast
    rw [BitVec.msb_eq_getLsbD_last] at hoffset
    rw [hoffset, Bool.false_or] at hlast
    exact hlast.symm
  · intro h
    apply BitVec.eq_of_getLsbD_eq
    intro i hi
    rw [getLsbD_readOffset offset hi, h, Bool.or_false, ite_self]

/-- A length is read as it is when it is not negative. -/
theorem signExtend_eq_setWidth_iff (size : BitVec 32) :
  size.signExtend 64 = size.setWidth 64 ↔ size.msb = false
  := by
  constructor
  · intro h
    have hlast := congrArg (fun x : BitVec 64 => x.getLsbD 63) h
    simpa only [BitVec.getLsbD_signExtend, BitVec.getLsbD_setWidth, Nat.reduceLT, decide_true,
      if_false, Bool.true_and, BitVec.getLsbD_of_ge size 63 (by decide)] using hlast
  · intro h
    rw [BitVec.signExtend_eq_setWidth_of_msb_false h]

/-- The range that `read_node` asks for is the range it is read as. -/
def FileNode.RangeSurvives (node : FileNode) (streamId : BitVec 32) (offset : BitVec 64)
    (size : BitVec 32) : Prop :=
  ∃ fileIdx, (node.readNode streamId offset size).request
    = some (.ok (.range streamId fileIdx offset (size.setWidth 64)))

/-- A range survives the wire exactly when bit 31 of the offset and bit 31 of the length are
clear. -/
theorem FileNode.rangeSurvives_iff (node : FileNode) (streamId : BitVec 32) {offset : BitVec 64}
    (hoffset : offset.toNat < 2 ^ 63) (size : BitVec 32) :
  node.RangeSurvives streamId offset size ↔
    offset.getLsbD 31 = false ∧ size.getLsbD 31 = false
  := by
  have hmsb : offset.msb = false := by
    rw [BitVec.msb_eq_decide, decide_eq_false_iff_not]
    omega
  rw [RangeSurvives]
  rw [readNode_request]
  simp only [Option.some.injEq, Except.ok.injEq, FileContentsRequest.range.injEq, true_and,
    readOffset_eq_iff hmsb, signExtend_eq_setWidth_iff]
  rw [exists_eq_left', BitVec.msb_eq_getLsbD_last]

theorem FileNode.rangeSurvives_small :
  (⟨1, 0⟩ : FileNode).RangeSurvives 7 0x7FFFFFFF 0x20000
  := by
  apply (FileNode.rangeSurvives_iff _ _ _ _).mpr
  · decide
  · decide

/-- A read at two gibibytes is asked for at almost the end of what an offset can name. -/
theorem FileNode.not_rangeSurvives_large :
  ¬ (⟨1, 0⟩ : FileNode).RangeSurvives 7 0x80000000 0x20000
  := by
  rintro ⟨fileIdx, h⟩
  have hread : (⟨1, 0⟩ : FileNode).readNode 7 0x80000000 0x20000
      = .fileContentsRequest 7 0 2 0x80000000 0 0x20000 false 0 := by decide
  rw [hread] at h
  have hoffset : FileContentsRequest.ofFields 7 0 2 0x80000000 0 0x20000
      = .ok (.range 7 0 0xFFFFFFFF80000000 0x20000) := by rfl
  rw [ClipboardFile.request, hoffset] at h
  simp at h

end VynxDesk.Clipboard
