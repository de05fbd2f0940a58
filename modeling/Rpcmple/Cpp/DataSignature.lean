import Rpcmple.Cpp.Bytes
import Rpcmple.Data.Exec
import Rpcmple.Data.Outcome
import Rpcmple.Wire.Value

namespace Rpcmple.Cpp

open Data

/-- The alternatives of `variant`; the eight without wide characters are the
values Go has as well. -/
inductive Variant where
  | value (content : Value)
  | wstring (text : WString)
  | wstrings (texts : List WString)
  deriving DecidableEq, Repr

def Variant.default : Variant := .value (.int 0)

abbrev VariantVector := List Variant

def resize {α : Type} (fill : α) (items : List α) (size : Nat) : List α :=
  items.take size ++ List.replicate (size - items.length) fill

/-- The buffer `toBinary` writes into.  `defined` stays set while every write
lies inside `message` and the 32-bit offset has not overflowed. -/
structure OutBuffer where
  message : Bytes
  replyOffset : Nat
  defined : Bool
  deriving DecidableEq, Repr

namespace OutBuffer

def start (message : Bytes) : OutBuffer :=
  { message, replyOffset := 0, defined := true }

/-- Grow the vector by `count` when the next `count` bytes do not fit. -/
def reserve (buffer : OutBuffer) (count : Nat) : OutBuffer where
  message :=
    if buffer.message.length < buffer.replyOffset + count then
      resize 0 buffer.message (buffer.message.length + count)
    else buffer.message
  replyOffset := buffer.replyOffset
  defined := buffer.defined && decide (buffer.replyOffset + count < 2 ^ 31)

def store (buffer : OutBuffer) (bytes : Bytes) : OutBuffer :=
  if buffer.replyOffset + bytes.length ≤ buffer.message.length then
    { buffer with
      message := buffer.message.take buffer.replyOffset ++ bytes ++
        buffer.message.drop (buffer.replyOffset + bytes.length) }
  else { buffer with defined := false }

def advance (buffer : OutBuffer) (count : Nat) : OutBuffer :=
  { buffer with
    replyOffset := buffer.replyOffset + count
    defined := buffer.defined && decide (buffer.replyOffset + count < 2 ^ 31) }

end OutBuffer

namespace DataSignature

variable (host : Platform)

def writeScalar (bytes : Bytes) (buffer : OutBuffer) : OutBuffer :=
  ((buffer.reserve 8).store bytes).advance 8

/-- The 16-bit count of an array or string, reserved before the length check. -/
def writeCount (length : Nat) (buffer : OutBuffer) : Outcome OutBuffer :=
  let buffer := buffer.reserve 2
  if length > 65536 then .fail buffer
  else .next
    ((buffer.store (uint16ToBytes host (UInt16.ofNat length) true)).advance 2)

/-- An array of scalars; the loop runs up to the truncated count. -/
def writeScalars {α : Type} (toBytes : α → Bytes) (items : List α)
    (buffer : OutBuffer) : Outcome OutBuffer :=
  (writeCount host items.length buffer).andThen
    (Outcome.forEach (fun item buffer => .next (writeScalar (toBytes item) buffer))
      (items.take (UInt16.ofNat items.length).toNat))

/-- A string: room is made for the truncated size, the whole text is copied. -/
def writeString (strVal : Bytes) (buffer : OutBuffer) : Outcome OutBuffer :=
  let strSize := (UInt16.ofNat strVal.length).toNat
  (writeCount host strVal.length buffer).andThen fun buffer =>
    .next (((buffer.reserve strSize).store strVal).advance strSize)

def writeStrings (strArrVal : List Bytes) (buffer : OutBuffer) : Outcome OutBuffer :=
  (writeCount host strArrVal.length buffer).andThen
    (Outcome.forEach (writeString host)
      (strArrVal.take (UInt16.ofNat strArrVal.length).toNat))

def writeWideString (wstrVal : WString) (buffer : OutBuffer) : Outcome OutBuffer :=
  match host.toBytes wstrVal with
  | none => .crash
  | some strVal => writeString host strVal buffer

def writeWideStrings (wstrArrVal : List WString) (buffer : OutBuffer) :
    Outcome OutBuffer :=
  (writeCount host wstrArrVal.length buffer).andThen
    (Outcome.forEach (writeWideString host)
      (wstrArrVal.take (UInt16.ofNat wstrArrVal.length).toNat))

/-- The second switch of `toBinary`; a mismatch fails `getVariantValue`. -/
def writeValue (dataType : DataType) (ret : Variant) (buffer : OutBuffer) :
    Outcome OutBuffer :=
  match dataType, ret with
  | .d, .value (.double dblVal) =>
      .next (writeScalar (doubleToBytes host dblVal true) buffer)
  | .D, .value (.doubles dblArr) =>
      writeScalars host (doubleToBytes host · true) dblArr buffer
  | .i, .value (.int intVal) =>
      .next (writeScalar (int64ToBytes host intVal true) buffer)
  | .I, .value (.ints intArr) =>
      writeScalars host (int64ToBytes host · true) intArr buffer
  | .u, .value (.uint uintVal) =>
      .next (writeScalar (uint64ToBytes host uintVal true) buffer)
  | .U, .value (.uints uintArr) =>
      writeScalars host (uint64ToBytes host · true) uintArr buffer
  | .w, .wstring wstrVal => writeWideString host wstrVal buffer
  | .W, .wstrings wstrArrVal => writeWideStrings host wstrArrVal buffer
  | .s, .value (.string strVal) => writeString host strVal buffer
  | .S, .value (.strings strArrVal) => writeStrings host strArrVal buffer
  | _, _ => .fail buffer

/-- The type the variant switch puts in place of `v`. -/
def variantType : Variant → DataType
  | .value content => content.dataType
  | .wstring _ => .w
  | .wstrings _ => .W

def writeReturn (char : UInt8) (ret : Variant) (buffer : OutBuffer) :
    Outcome OutBuffer :=
  match DataType.ofChar? char with
  | none => .fail buffer
  | some .v =>
      let dataType := variantType ret
      let buffer := ((buffer.reserve 1).store [dataType.narrow.char]).advance 1
      writeValue host dataType ret buffer
  | some dataType => writeValue host dataType ret buffer

def writeReturns : DataSignature → VariantVector → OutBuffer → Outcome OutBuffer
  | [], _, buffer => .next buffer
  | _ :: _, [], buffer => .fail { buffer with defined := false }
  | char :: signature, ret :: rets, buffer =>
      (writeReturn host char ret buffer).andThen (writeReturns signature rets)

/-- `next` is the return value true, `fail` false and `crash` an exception. -/
def toBinary (signature : DataSignature) (rets : VariantVector) (message : Bytes) :
    Outcome OutBuffer :=
  (writeReturns host signature rets (.start message)).andThen fun buffer =>
    .next { buffer with message := resize 0 buffer.message buffer.replyOffset }

abbrev Reader := StateT Nat Exec

def Reader.rejects {α : Type} : Reader α := fun _ => .rejects

def Reader.throws {α : Type} : Reader α := fun _ => .throws

/-- `message.size() - messageOffset`, in `size_t`. -/
def bytesLeft (message : Bytes) (messageOffset : Nat) : Nat :=
  (message.length + 2 ^ 64 - messageOffset) % 2 ^ 64

def readBytes (message : Bytes) (count : Nat) : Reader Bytes := fun messageOffset =>
  if bytesLeft message messageOffset < count then .rejects
  else if message.length < messageOffset + count then .undefined
  else if 2 ^ 31 ≤ messageOffset + count then .undefined
  else .returns ((message.drop messageOffset).take count, messageOffset + count)

def readScalar {α : Type} (convert : Bytes → α) (message : Bytes) : Reader α := do
  let bytes ← readBytes message 8
  return convert bytes

def readUint16 (message : Bytes) : Reader Nat := do
  let bytes ← readBytes message 2
  return (bytesToUint16 host bytes true).toNat

def readTimes {α : Type} (read : Reader α) : Nat → Reader (List α)
  | 0 => return []
  | count + 1 => do
      let item ← read
      let items ← readTimes read count
      return item :: items

def readArray {α : Type} (read : Reader α) (message : Bytes) : Reader (List α) := do
  let arrSize ← readUint16 host message
  readTimes read arrSize

def readString (message : Bytes) : Reader Bytes := do
  let strSize ← readUint16 host message
  readBytes message strSize

/-- `converter.from_bytes(byteVal.c_str())`: a C string ends at its first zero. -/
def readWideString (message : Bytes) : Reader WString := do
  let byteVal ← readString host message
  match host.fromBytes (byteVal.takeWhile (· ≠ 0)) with
  | none => Reader.throws
  | some strVal => return strVal

def readValue (dataType : DataType) (message : Bytes) : Reader Variant :=
  match dataType with
  | .d => do
      let dblVal ← readScalar (bytesToDouble host · true) message
      return .value (.double dblVal)
  | .D => do
      let dblArrVal ← readArray host (readScalar (bytesToDouble host · true) message) message
      return .value (.doubles dblArrVal)
  | .i => do
      let intVal ← readScalar (bytesToInt64 host · true) message
      return .value (.int intVal)
  | .I => do
      let intArrVal ← readArray host (readScalar (bytesToInt64 host · true) message) message
      return .value (.ints intArrVal)
  | .u => do
      let uintVal ← readScalar (bytesToUint64 host · true) message
      return .value (.uint uintVal)
  | .U => do
      let uintArrVal ←
        readArray host (readScalar (bytesToUint64 host · true) message) message
      return .value (.uints uintArrVal)
  | .w => do
      let strVal ← readWideString host message
      return .wstring strVal
  | .W => do
      let strArr ← readArray host (readWideString host message) message
      return .wstrings strArr
  | .s => do
      let byteVal ← readString host message
      return .value (.string byteVal)
  | .S => do
      let strArr ← readArray host (readString host message) message
      return .value (.strings strArr)
  | .v => Reader.rejects

def readArgument (char : UInt8) (message : Bytes) : Reader Variant :=
  match DataType.ofChar? char with
  | none => Reader.rejects
  | some .v => do
      let tag ← readBytes message 1
      match tag.head?.bind DataType.ofChar? with
      | none | some .v => Reader.rejects
      | some dataType => readValue host dataType message
  | some dataType => readValue host dataType message

/-- What `fromBinary` leaves behind: its return value, the offset it stopped at
and the argument vector, whose later entries a rejected body leaves as they were. -/
structure Decoded where
  success : Bool
  messageOffset : Nat
  args : VariantVector
  deriving DecidableEq, Repr

def readArguments : DataSignature → Nat → Bytes → Nat → VariantVector → Exec Decoded
  | [], _, _, messageOffset, args => .returns ⟨true, messageOffset, args⟩
  | char :: signature, index, message, messageOffset, args =>
      match readArgument host char message messageOffset with
      | .returns (arg, offset) =>
          readArguments signature (index + 1) message offset (args.set index arg)
      | .rejects => .returns ⟨false, messageOffset, args⟩
      | .throws => .throws
      | .undefined => .undefined

def fromBinary (signature : DataSignature) (message : Bytes) (args : VariantVector) :
    Exec Decoded :=
  readArguments host signature 0 message 0 (resize .default args signature.length)

end DataSignature

end Rpcmple.Cpp
