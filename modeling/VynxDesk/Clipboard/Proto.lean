import VynxDesk.Connection.Message
import VynxDesk.Lib.Utf8

/-!
# Clipboard contents on the wire

`proto` of `clipboard.rs` turns the contents of the clipboard into messages, each content compressed
where that makes it shorter, and turns messages back into contents.  What is sent is what is
received, except the kinds of content that have no message (`survives`).

The two functions of `compress` are parameters, and `usize` has `w` bits.
-/

namespace VynxDesk.Contents

/-- `ClipboardFormat`. -/
inductive ClipboardFormat where
  | text | rtf | html | imageRgba | imagePng | imageSvg | special
  deriving DecidableEq, Repr

/-- `Clipboard`. -/
structure Clipboard where
  compress : Bool := false
  content : Bytes
  width : Int32 := 0
  height : Int32 := 0
  format : EnumOrUnknown ClipboardFormat
  specialName : String := ""
  deriving DecidableEq

/-- `arboard::ImageData`. -/
inductive ImageData where
  | rgba (width height : ℕ) (bytes : Bytes)
  | png (bytes : Bytes)
  | svg (text : String)
  deriving DecidableEq, Repr

/-- `arboard::ClipboardData`; what the other kinds hold is not looked at. -/
inductive ClipboardData (Other : Type) where
  | text (s : String)
  | rtf (s : String)
  | html (s : String)
  | image (a : ImageData)
  | special (name : String) (data : Bytes)
  | other (data : Other)
  deriving DecidableEq, Repr

variable {Other : Type} (compress decompress : Bytes → Bytes) (w : ℕ)

/-! ## Sending -/

/-- Bytes are compressed where that makes them shorter. -/
def packed (bytes : Bytes) : Bool × Bytes :=
  let compressed := compress bytes
  if compressed.length < bytes.length then (true, compressed) else (false, bytes)

/-- `plain_to_proto`. -/
def plainToProto (s : String) (format : ClipboardFormat) : Clipboard where
  compress := (packed compress (Utf8.bytes s)).1
  content := (packed compress (Utf8.bytes s)).2
  format := .known format

/-- `image_to_proto`. -/
def imageToProto : ImageData → Clipboard
  | .rgba width height bytes =>
      { compress := (packed compress bytes).1
        content := (packed compress bytes).2
        width := Int32.ofNat width
        height := Int32.ofNat height
        format := .known .imageRgba }
  | .png bytes => { compress := false, content := bytes, format := .known .imagePng }
  | .svg text =>
      { compress := (packed compress (Utf8.bytes text)).1
        content := (packed compress (Utf8.bytes text)).2
        format := .known .imageSvg }

/-- `special_to_proto`. -/
def specialToProto (d : Bytes) (s : String) : Clipboard where
  compress := (packed compress d).1
  content := (packed compress d).2
  format := .known .special
  specialName := s

/-- `clipboard_data_to_proto`. -/
def clipboardDataToProto : ClipboardData Other → Option Clipboard
  | .text s => some (plainToProto compress s .text)
  | .rtf s => some (plainToProto compress s .rtf)
  | .html s => some (plainToProto compress s .html)
  | .image a => some (imageToProto compress a)
  | .special s d => some (specialToProto compress d s)
  | .other _ => none

/-- `create_multi_clipboards`. -/
def createMultiClipboards (vecData : List (ClipboardData Other)) : List Clipboard :=
  vecData.filterMap (clipboardDataToProto compress)

/-! ## Receiving -/

/-- `usize::try_from` of a number of 32 bits. -/
def usizeTryFrom (n : Int32) : Option ℕ := if 0 ≤ n then some n.toInt.toNat else none

/-- `checked_mul`. -/
def checkedMul (a b : ℕ) : Option ℕ := if a * b < 2 ^ w then some (a * b) else none

/-- `valid_rgba_dimensions`. -/
def validRgbaDimensions (width height : Int32) (dataLen : ℕ) : Option (ℕ × ℕ) :=
  (usizeTryFrom width).bind fun width =>
    (usizeTryFrom height).bind fun height =>
      if width = 0 ∨ height = 0 then none
      else
        (checkedMul w width height).bind fun area =>
          (checkedMul w area 4).bind fun expectedLen =>
            if dataLen = expectedLen then some (width, height) else none

/-- The content of a message. -/
def contentOf (clipboard : Clipboard) : Bytes :=
  if clipboard.compress then decompress clipboard.content else clipboard.content

/-- `from_clipboard`. -/
def fromClipboard (clipboard : Clipboard) : Option (ClipboardData Other) :=
  let data := contentOf decompress clipboard
  match clipboard.format with
  | .known .text => (Utf8.string? data).map .text
  | .known .rtf => (Utf8.string? data).map .rtf
  | .known .html => (Utf8.string? data).map .html
  | .known .imageRgba =>
      (validRgbaDimensions w clipboard.width clipboard.height data.length).map fun size =>
        .image (.rgba size.1 size.2 data)
  | .known .imagePng => some (.image (.png data))
  | .known .imageSvg => some (.image (.svg ((Utf8.string? data).getD "")))
  | .known .special => some (.special clipboard.specialName data)
  | .unknown _ => none

/-- `from_multi_clipboards`. -/
def fromMultiClipboards (multiClipboards : List Clipboard) : List (ClipboardData Other) :=
  multiClipboards.filterMap (fromClipboard decompress w)

/-! ## What survives -/

/-- A pixel image has its bytes, and they are in memory. -/
def ClipboardData.Valid : ClipboardData Other → Prop
  | .image (.rgba width height bytes) =>
      (1 ≤ width ∧ width < 2 ^ 31) ∧ (1 ≤ height ∧ height < 2 ^ 31)
        ∧ bytes.length = 4 * width * height ∧ bytes.length < 2 ^ w
  | _ => True

/-- Whether there is a message for a kind of content. -/
def ClipboardData.sent : ClipboardData Other → Bool
  | .other _ => false
  | _ => true

section

variable {compress decompress : Bytes → Bytes} {w : ℕ}

theorem contentOf_packed (hcodec : ∀ bytes, decompress (compress bytes) = bytes)
    {clipboard : Clipboard} {bytes : Bytes}
    (h : (clipboard.compress, clipboard.content) = packed compress bytes) :
  contentOf decompress clipboard = bytes
  := by
  rw [packed] at h
  by_cases hshorter : (compress bytes).length < bytes.length
  · rw [if_pos hshorter] at h
    rw [contentOf, (Prod.mk.inj h).1, (Prod.mk.inj h).2, if_pos rfl, hcodec]
  · rw [if_neg hshorter] at h
    rw [contentOf, (Prod.mk.inj h).1, (Prod.mk.inj h).2, if_neg Bool.false_ne_true]

theorem usizeTryFrom_ofNat {n : ℕ} (h : n < 2 ^ 31) : usizeTryFrom (Int32.ofNat n) = some n
  := by
  have htoInt : (Int32.ofNat n).toInt = n := Int32.toInt_ofNat_of_lt h
  rw [usizeTryFrom, if_pos, htoInt, Int.toNat_natCast]
  rw [Int32.le_iff_toInt_le, htoInt]
  exact Int.natCast_nonneg n

theorem checkedMul_eq_some_iff {a b n : ℕ} : checkedMul w a b = some n ↔ n = a * b ∧ n < 2 ^ w
  := by
  rw [checkedMul]
  split
  next hlt =>
      rw [Option.some_inj]
      constructor
      · rintro rfl
        exact ⟨rfl, hlt⟩
      · rintro ⟨rfl, -⟩
        rfl
  next hnot =>
      constructor
      · rintro ⟨⟩
      · rintro ⟨rfl, hlt⟩
        cases hnot hlt

/-- The dimensions are taken where they fit the bytes, and no product overflows. -/
theorem validRgbaDimensions_eq_some_iff {width height : Int32} {len width' height' : ℕ} :
  validRgbaDimensions w width height len = some (width', height') ↔
    usizeTryFrom width = some width' ∧ usizeTryFrom height = some height'
      ∧ width' ≠ 0 ∧ height' ≠ 0 ∧ len = 4 * width' * height' ∧ 4 * width' * height' < 2 ^ w
  := by
  have hproduct (a b : ℕ) : a * b * 4 = 4 * a * b := by
    rw [Nat.mul_comm, Nat.mul_assoc]
  simp only [validRgbaDimensions, Option.bind_eq_some_iff]
  constructor
  · rintro ⟨a, ha, b, hb, h⟩
    split at h
    next => cases h
    next hpos =>
        rw [not_or] at hpos
        obtain ⟨area, harea, h⟩ := Option.bind_eq_some_iff.mp h
        obtain ⟨expected, hexpected, h⟩ := Option.bind_eq_some_iff.mp h
        split at h
        next hlen =>
            cases h
            obtain ⟨rfl, -⟩ := checkedMul_eq_some_iff.mp harea
            obtain ⟨rfl, hlt⟩ := checkedMul_eq_some_iff.mp hexpected
            rw [hproduct] at hlen hlt
            exact ⟨ha, hb, hpos.1, hpos.2, hlen, hlt⟩
        next => cases h
  · rintro ⟨hwidth, hheight, hne, hne', hlen, hlt⟩
    have harea : checkedMul w width' height' = some (width' * height') := by
      rw [checkedMul_eq_some_iff]
      refine ⟨rfl, Nat.lt_of_le_of_lt ?_ hlt⟩
      rw [Nat.mul_assoc]
      omega
    have hexpected : checkedMul w (width' * height') 4 = some (4 * width' * height') := by
      rw [checkedMul_eq_some_iff]
      exact ⟨(hproduct _ _).symm, hlt⟩
    refine ⟨width', hwidth, height', hheight, ?_⟩
    rw [if_neg (not_or.mpr ⟨hne, hne'⟩), harea, Option.bind_some, hexpected, Option.bind_some,
      if_pos hlen]

theorem fromClipboard_imageToProto (hcodec : ∀ bytes, decompress (compress bytes) = bytes)
    {a : ImageData} (ha : (.image a : ClipboardData Other).Valid w) :
  fromClipboard decompress w (imageToProto compress a) = some (.image a : ClipboardData Other)
  := by
  cases a with
  | rgba width height bytes =>
      obtain ⟨⟨hwidth, hwidth'⟩, ⟨hheight, hheight'⟩, hlen, hlt⟩ := ha
      have hcontent : contentOf decompress (imageToProto compress (.rgba width height bytes))
          = bytes := contentOf_packed hcodec rfl
      have hsize : validRgbaDimensions w (Int32.ofNat width) (Int32.ofNat height) bytes.length
          = some (width, height) := by
        rw [validRgbaDimensions_eq_some_iff]
        exact ⟨usizeTryFrom_ofNat hwidth', usizeTryFrom_ofNat hheight', Nat.ne_of_gt hwidth,
          Nat.ne_of_gt hheight, hlen, hlen ▸ hlt⟩
      rw [fromClipboard, hcontent]
      change (validRgbaDimensions w (.ofNat width) (.ofNat height) bytes.length).map _ = _
      rw [hsize]
      rfl
  | png bytes => rfl
  | svg text =>
      have hcontent : contentOf decompress (imageToProto compress (.svg text)) = Utf8.bytes text :=
        contentOf_packed hcodec rfl
      rw [fromClipboard, hcontent, Utf8.string?_bytes]
      rfl

/-- What is received of one content. -/
theorem fromClipboard_clipboardDataToProto (hcodec : ∀ bytes, decompress (compress bytes) = bytes)
    {data : ClipboardData Other} (hdata : data.Valid w) :
  (clipboardDataToProto compress data).bind (fromClipboard decompress w)
    = if data.sent then some data else none
  := by
  cases data with
  | text s =>
      have hcontent : contentOf decompress (plainToProto compress s .text) = Utf8.bytes s :=
        contentOf_packed hcodec rfl
      rw [clipboardDataToProto, Option.bind_some, fromClipboard, hcontent, Utf8.string?_bytes]
      rfl
  | rtf s =>
      have hcontent : contentOf decompress (plainToProto compress s .rtf) = Utf8.bytes s :=
        contentOf_packed hcodec rfl
      rw [clipboardDataToProto, Option.bind_some, fromClipboard, hcontent, Utf8.string?_bytes]
      rfl
  | html s =>
      have hcontent : contentOf decompress (plainToProto compress s .html) = Utf8.bytes s :=
        contentOf_packed hcodec rfl
      rw [clipboardDataToProto, Option.bind_some, fromClipboard, hcontent, Utf8.string?_bytes]
      rfl
  | image a =>
      rw [clipboardDataToProto, Option.bind_some]
      exact fromClipboard_imageToProto hcodec hdata
  | special name d =>
      have hcontent : contentOf decompress (specialToProto compress d name) = d :=
        contentOf_packed hcodec rfl
      rw [clipboardDataToProto, Option.bind_some, fromClipboard, hcontent]
      rfl
  | other o => rfl

/-- An image of pixels that is received has the dimensions its message tells of, and all its
bytes. -/
theorem rgba_of_fromClipboard {clipboard : Clipboard} {width height : ℕ} {bytes : Bytes}
    (h : fromClipboard decompress w clipboard
      = some (.image (.rgba width height bytes) : ClipboardData Other)) :
  bytes.length = 4 * width * height ∧ 4 * width * height < 2 ^ w
  := by
  rw [fromClipboard.eq_def] at h
  dsimp only at h
  split at h
  case h_4 =>
    obtain ⟨size, hsize, hdata⟩ := Option.map_eq_some_iff.mp h
    cases hdata
    obtain ⟨-, -, -, -, hlen, hlt⟩ := validRgbaDimensions_eq_some_iff.mp hsize
    exact ⟨hlen, hlt⟩
  case h_1 | h_2 | h_3 =>
    obtain ⟨s, -, hdata⟩ := Option.map_eq_some_iff.mp h
    cases hdata
  all_goals cases h

end

/-- Contents survive the wire, and images of pixels are received only whole. -/
theorem survives (w : ℕ) {compress decompress : Bytes → Bytes}
    (hcodec : ∀ bytes, decompress (compress bytes) = bytes) :
  (∀ items : List (ClipboardData Other), (∀ item ∈ items, item.Valid w) →
    fromMultiClipboards decompress w (createMultiClipboards compress items)
      = items.filter ClipboardData.sent)
  ∧ ∀ (clipboard : Clipboard) (width height : ℕ) (bytes : Bytes),
    fromClipboard decompress w clipboard
      = some (.image (.rgba width height bytes) : ClipboardData Other) →
    bytes.length = 4 * width * height ∧ 4 * width * height < 2 ^ w
  := by
  constructor
  · intro items hitems
    rw [fromMultiClipboards, createMultiClipboards, List.filterMap_filterMap,
      ← List.filterMap_eq_filter]
    apply List.filterMap_congr
    intro item hitem
    rw [fromClipboard_clipboardDataToProto hcodec (hitems item hitem)]
    rfl
  · intro clipboard width height bytes h
    exact rgba_of_fromClipboard h


/-- A compression that adds a byte to what it is given. -/
theorem survives_small :
  fromMultiClipboards List.tail 64 (createMultiClipboards (0 :: ·)
    [.text "a", .other (), .image (.rgba 1 2 [1, 2, 3, 4, 5, 6, 7, 8])])
    = ([.text "a", .image (.rgba 1 2 [1, 2, 3, 4, 5, 6, 7, 8])] : List (ClipboardData Unit))
  := by
  have hitems : ∀ item ∈ ([.text "a", .other (), .image (.rgba 1 2 [1, 2, 3, 4, 5, 6, 7, 8])]
      : List (ClipboardData Unit)), item.Valid 64 := by
    rw [List.forall_mem_cons, List.forall_mem_cons, List.forall_mem_cons]
    refine ⟨trivial, trivial, ?_, List.forall_mem_nil _⟩
    rw [ClipboardData.Valid]
    decide
  exact (survives 64 (fun _ => rfl)).1 _ hitems

end VynxDesk.Contents
