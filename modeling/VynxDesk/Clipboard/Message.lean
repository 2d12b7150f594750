import Mathlib.Data.List.Basic

/-!
# Clipboard messages

The messages and errors of `libs/clipboard` that the file clipboard of the Unix platforms uses.  An
`i32`, `u32`, `u64` or `usize` is the bit vector of its width: a cast between them keeps the low
bits, and one that widens a signed value extends its sign.
-/

namespace VynxDesk.Clipboard

abbrev Bytes : Type := List UInt8

/-- `std::io::Error`, by what it reports. -/
inductive IoError where
  | notFound (text : String)
  | unexpectedEof
  | invalidData (text : String)
  | os (code : Int)
  deriving DecidableEq, Repr

/-- `CliprdrError`, as far as the file clipboard raises it. -/
inductive CliprdrError where
  | InvalidRequest (description : String)
  | FileError (path : String) (err : IoError)
  | ConversionFailure
  deriving DecidableEq, Repr

/-- `ClipboardFile`: what is asked of the peer, what it answers, and what it reports to have
served. -/
inductive ClipboardFile where
  | fileContentsRequest (streamId listIndex dwFlags nPositionLow nPositionHigh
      cbRequested : BitVec 32) (haveClipDataId : Bool) (clipDataId : BitVec 32)
  | fileContentsResponse (msgFlags streamId : BitVec 32) (requestedData : Bytes)
  | files (files : List (String × BitVec 64))
  deriving DecidableEq, Repr

end VynxDesk.Clipboard
