import Rpcmple.Data.Format

namespace Rpcmple

open Data

/-! The values both languages put on the wire, and the body format a data
signature stands for. -/

inductive DataType
  | d | D | i | I | u | U | s | S | w | W | v
  deriving DecidableEq, Repr

namespace DataType

def all : List DataType := [d, D, i, I, u, U, s, S, w, W, v]

def char : DataType → UInt8
  | d => 'd'.toUInt8
  | D => 'D'.toUInt8
  | i => 'i'.toUInt8
  | I => 'I'.toUInt8
  | u => 'u'.toUInt8
  | U => 'U'.toUInt8
  | s => 's'.toUInt8
  | S => 'S'.toUInt8
  | w => 'w'.toUInt8
  | W => 'W'.toUInt8
  | v => 'v'.toUInt8

def ofChar? (char : UInt8) : Option DataType :=
  all.find? fun dataType => dataType.char == char

@[simp] theorem ofChar?_char (dataType : DataType) :
    ofChar? dataType.char = some dataType := by
  cases dataType <;> decide

theorem char_of_ofChar? {char : UInt8} {dataType : DataType}
    (hchar : ofChar? char = some dataType) : dataType.char = char := by
  simpa using List.find?_some hchar

/-- The type that carries the same bytes without wide characters. -/
def narrow : DataType → DataType
  | w => s
  | W => S
  | dataType => dataType

end DataType

/-- A decoded value.  A double is its 64-bit pattern, a string its bytes. -/
inductive Value
  | double (bits : UInt64)
  | doubles (bits : List UInt64)
  | int (number : Int64)
  | ints (numbers : List Int64)
  | uint (number : UInt64)
  | uints (numbers : List UInt64)
  | string (text : Bytes)
  | strings (texts : List Bytes)
  deriving DecidableEq, Repr

abbrev DataSignature := List UInt8

namespace Value

def dataType : Value → DataType
  | double _ => .d
  | doubles _ => .D
  | int _ => .i
  | ints _ => .I
  | uint _ => .u
  | uints _ => .U
  | string _ => .s
  | strings _ => .S

/-- Every element count fits its 16-bit field. -/
def Fits : Value → Prop
  | doubles bits => bits.length < 65536
  | ints numbers => numbers.length < 65536
  | uints numbers => numbers.length < 65536
  | string text => text.length < 65536
  | strings texts => texts.length < 65536 ∧ ∀ text ∈ texts, text.length < 65536
  | _ => True

instance : DecidablePred Fits := fun value => by
  cases value <;> unfold Fits <;> infer_instance

def intBytes (number : Int64) : Bytes := leBytes 8 number.toUInt64.toNat

def uintBytes (number : UInt64) : Bytes := leBytes 8 number.toNat

def textBytes (text : Bytes) : Bytes := leBytes 2 text.length ++ text

def payload : Value → Bytes
  | double bits => uintBytes bits
  | doubles bits => leBytes 2 bits.length ++ bits.flatMap uintBytes
  | int number => intBytes number
  | ints numbers => leBytes 2 numbers.length ++ numbers.flatMap intBytes
  | uint number => uintBytes number
  | uints numbers => leBytes 2 numbers.length ++ numbers.flatMap uintBytes
  | string text => textBytes text
  | strings texts => leBytes 2 texts.length ++ texts.flatMap textBytes

end Value

namespace DataType

def Admits (dataType : DataType) (value : Value) : Prop :=
  dataType = v ∨ dataType.narrow = value.dataType

instance (dataType : DataType) (value : Value) :
    Decidable (dataType.Admits value) := by
  unfold Admits
  infer_instance

/-- The bytes of a field: a variant puts the tag of its value first. -/
def fieldBytes (dataType : DataType) (value : Value) : Bytes :=
  if dataType = v then value.dataType.char :: value.payload else value.payload

end DataType

def uint64Format : Format UInt64 :=
  .scalar 8 UInt64.toNat UInt64.ofNat
    (fun number => number.toNat_lt)
    (fun _ => UInt64.ofNat_toNat)
    (fun _ hbound => UInt64.toNat_ofNat_of_lt' hbound)

def int64Format : Format Int64 :=
  .scalar 8 (fun number => number.toUInt64.toNat)
    (fun number => (UInt64.ofNat number).toInt64)
    (fun number => number.toUInt64.toNat_lt)
    (fun number => by simp)
    (fun _ hbound => by simpa using UInt64.toNat_ofNat_of_lt' hbound)

def textFormat : Format Bytes := .blob 2

private theorem project_iff {α : Type} {inject : α → Value}
    {project : Value → Option α}
    (hinject : ∀ value, project (inject value) = some value)
    (hproject : ∀ target value, project target = some value → inject value = target)
    (target : Value) (value : α) :
    project target = some value ↔ inject value = target := by
  constructor
  · exact hproject target value
  · rintro rfl
    exact hinject value

def DataType.format : DataType → Format Value
  | .d => uint64Format.embed .double
      (fun | .double bits => some bits | _ => none)
      (project_iff (fun _ => rfl) (by intro target; cases target <;> simp))
  | .D => (Format.counted 2 uint64Format).embed .doubles
      (fun | .doubles bits => some bits | _ => none)
      (project_iff (fun _ => rfl) (by intro target; cases target <;> simp))
  | .i => int64Format.embed .int
      (fun | .int number => some number | _ => none)
      (project_iff (fun _ => rfl) (by intro target; cases target <;> simp))
  | .I => (Format.counted 2 int64Format).embed .ints
      (fun | .ints numbers => some numbers | _ => none)
      (project_iff (fun _ => rfl) (by intro target; cases target <;> simp))
  | .u => uint64Format.embed .uint
      (fun | .uint number => some number | _ => none)
      (project_iff (fun _ => rfl) (by intro target; cases target <;> simp))
  | .U => (Format.counted 2 uint64Format).embed .uints
      (fun | .uints numbers => some numbers | _ => none)
      (project_iff (fun _ => rfl) (by intro target; cases target <;> simp))
  | .s | .w => textFormat.embed .string
      (fun | .string text => some text | _ => none)
      (project_iff (fun _ => rfl) (by intro target; cases target <;> simp))
  | .S | .W => (Format.counted 2 textFormat).embed .strings
      (fun | .strings texts => some texts | _ => none)
      (project_iff (fun _ => rfl) (by intro target; cases target <;> simp))
  | .v => .empty

theorem DataType.format_valid_iff (dataType : DataType) (value : Value) :
    dataType.format.Valid value ↔
      dataType.narrow = value.dataType ∧ value.Fits := by
  cases dataType <;> cases value <;>
    simp [format, narrow, Value.dataType, Value.Fits, Format.embed,
      Format.counted, Format.scalar, Format.blob, Format.empty, uint64Format,
      int64Format, textFormat]

theorem DataType.format_emit {dataType : DataType} {value : Value}
    (htype : dataType.narrow = value.dataType) :
    dataType.format.emit value = value.payload := by
  cases dataType <;> cases value <;> first | contradiction | rfl

/-- The format a variant tag selects.  Wide tags are never emitted. -/
def variantFormat (tag : UInt8) : Format Value :=
  match DataType.ofChar? tag with
  | some .w | some .W | none => .empty
  | some dataType => dataType.format

theorem variantFormat_valid {tag : UInt8} {value : Value} :
    (variantFormat tag).Valid value ↔
      value.dataType.char = tag ∧ value.Fits := by
  unfold variantFormat
  constructor
  · intro hvalid
    cases hchar : DataType.ofChar? tag with
    | none => simp [hchar] at hvalid
    | some dataType =>
        rw [← DataType.char_of_ofChar? hchar]
        cases dataType <;> simp only [hchar] at hvalid <;>
          first
          | exact hvalid.elim
          | (rw [DataType.format_valid_iff] at hvalid
             rw [← hvalid.1]
             exact ⟨rfl, hvalid.2⟩)
  · rintro ⟨rfl, hfits⟩
    rw [DataType.ofChar?_char]
    cases value <;> exact (DataType.format_valid_iff _ _).mpr ⟨rfl, hfits⟩

def fieldFormat (char : UInt8) : Format Value :=
  match DataType.ofChar? char with
  | none => .empty
  | some .v =>
      .tagged (fun value => value.dataType.char) variantFormat
        fun _ _ hvalid => (variantFormat_valid.mp hvalid).1
  | some dataType => dataType.format

/-- The format of a body under a signature: one field for each character. -/
def bodyFormat (signature : DataSignature) : Format (List Value) :=
  .sequence (signature.map fieldFormat)

theorem fieldFormat_valid_iff (char : UInt8) (value : Value) :
    (fieldFormat char).Valid value ↔
      ∃ dataType, DataType.ofChar? char = some dataType ∧
        dataType.Admits value ∧ value.Fits := by
  unfold fieldFormat DataType.Admits
  cases hchar : DataType.ofChar? char with
  | none => simp
  | some dataType =>
      by_cases hvariant : dataType = .v
      · subst hvariant
        simp [Format.tagged, variantFormat_valid]
      · have hformat : (match some dataType with
            | none => Format.empty
            | some .v => .tagged (fun value : Value => value.dataType.char)
                variantFormat fun _ _ hvalid => (variantFormat_valid.mp hvalid).1
            | some dataType => dataType.format) = dataType.format := by
          cases dataType <;> first | contradiction | rfl
        rw [hformat, DataType.format_valid_iff]
        simp [hvariant]

theorem fieldFormat_emit {char : UInt8} {dataType : DataType} {value : Value}
    (hchar : DataType.ofChar? char = some dataType)
    (hadmits : dataType.Admits value) :
    (fieldFormat char).emit value = dataType.fieldBytes value := by
  unfold fieldFormat DataType.fieldBytes
  rw [hchar]
  by_cases hvariant : dataType = .v
  · subst hvariant
    simp only [Format.tagged, variantFormat, DataType.ofChar?_char, if_true]
    cases value <;> rfl
  · have hformat := DataType.format_emit (hadmits.resolve_left hvariant)
    rw [if_neg hvariant]
    cases dataType <;> first | contradiction | exact hformat

def Typed (signature : DataSignature) (values : List Value) : Prop :=
  List.Forall₂ (fun char value => ∃ dataType,
    DataType.ofChar? char = some dataType ∧ dataType.Admits value)
    signature values

@[simp] theorem bodyFormat_nil_parse (bytes : Bytes) :
    (bodyFormat []).parse bytes = some ([], bytes) := rfl

theorem bodyFormat_cons_parse (char : UInt8) (signature : DataSignature)
    (bytes : Bytes) :
    (bodyFormat (char :: signature)).parse bytes =
      ((fieldFormat char).parse bytes).bind fun parsed =>
        ((bodyFormat signature).parse parsed.2).map fun following =>
          (parsed.1 :: following.1, following.2) := rfl

@[simp] theorem bodyFormat_nil_emit (values : List Value) :
    (bodyFormat []).emit values = [] := rfl

theorem bodyFormat_cons_emit (char : UInt8) (signature : DataSignature)
    (value : Value) (values : List Value) :
    (bodyFormat (char :: signature)).emit (value :: values) =
      (fieldFormat char).emit value ++ (bodyFormat signature).emit values := rfl

theorem bodyFormat_valid_iff {signature : DataSignature} {values : List Value} :
    (bodyFormat signature).Valid values ↔
      Typed signature values ∧ ∀ value ∈ values, value.Fits := by
  unfold bodyFormat Typed
  rw [Format.sequence_valid_iff]
  induction signature generalizing values with
  | nil =>
      cases values <;> simp
  | cons char signature ih =>
      cases values with
      | nil => simp
      | cons value values =>
          simp only [List.map_cons, List.forall₂_cons, ih, fieldFormat_valid_iff,
            List.forall_mem_cons]
          constructor
          · rintro ⟨⟨dataType, hchar, hadmits, hfits⟩, htyped, hall⟩
            exact ⟨⟨⟨dataType, hchar, hadmits⟩, htyped⟩, hfits, hall⟩
          · rintro ⟨⟨⟨dataType, hchar, hadmits⟩, htyped⟩, hfits, hall⟩
            exact ⟨⟨dataType, hchar, hadmits, hfits⟩, htyped, hall⟩

/-! Variant tags a peer may send but no encoder emits. -/

def DataType.isWide : DataType → Bool
  | .w | .W => true
  | _ => false

def Narrow (signature : DataSignature) : Prop :=
  ∀ char ∈ signature, ∀ dataType,
    DataType.ofChar? char = some dataType → dataType.isWide = false

/-- Reading a field of this type from these bytes meets a wide variant tag. -/
def wideTagAhead (char : UInt8) (bytes : Bytes) : Bool :=
  DataType.ofChar? char == some .v &&
    (bytes.head?.bind DataType.ofChar?).any DataType.isWide

def readsWideTag : DataSignature → Bytes → Bool
  | [], _ => false
  | char :: signature, bytes =>
      wideTagAhead char bytes ||
        match (fieldFormat char).parse bytes with
        | none => false
        | some (_, rest) => readsWideTag signature rest

theorem readsWideTag_emit {signature : DataSignature} {values : List Value}
    (hvalid : (bodyFormat signature).Valid values) (rest : Bytes) :
    readsWideTag signature ((bodyFormat signature).emit values ++ rest) = false := by
  rw [bodyFormat_valid_iff] at hvalid
  obtain ⟨htyped, hfits⟩ := hvalid
  induction htyped with
  | nil => rfl
  | @cons char value signature values hhead _ ih =>
      obtain ⟨dataType, hchar, hadmits⟩ := hhead
      have hfield : (fieldFormat char).Valid value :=
        (fieldFormat_valid_iff char value).mpr
          ⟨dataType, hchar, hadmits, hfits value List.mem_cons_self⟩
      rw [bodyFormat_cons_emit, List.append_assoc, readsWideTag,
        (fieldFormat char).parse_emit _ hfield, Bool.or_eq_false_iff]
      refine ⟨?_, ih fun other hmem => hfits other (List.mem_cons_of_mem _ hmem)⟩
      unfold wideTagAhead
      rw [hchar, fieldFormat_emit hchar hadmits]
      by_cases hvariant : dataType = .v
      · subst hvariant
        cases value <;> simp [DataType.fieldBytes, Value.dataType, DataType.isWide]
      · simp [hvariant]

def Value.size : Value → Nat
  | double _ | int _ | uint _ => 8
  | doubles bits => 2 + 8 * bits.length
  | ints numbers => 2 + 8 * numbers.length
  | uints numbers => 2 + 8 * numbers.length
  | string text => 2 + text.length
  | strings texts => 2 + (texts.map fun text => 2 + text.length).sum

theorem Value.length_payload (value : Value) : value.payload.length = value.size := by
  cases value <;>
    simp [payload, size, uintBytes, intBytes, textBytes, List.length_flatMap,
      Nat.mul_comm]

def bodySize : DataSignature → List Value → Nat
  | char :: signature, value :: values =>
      (if DataType.ofChar? char = some .v then 1 else 0) + value.size +
        bodySize signature values
  | _, _ => 0

theorem length_bodyFormat_emit {signature : DataSignature} {values : List Value}
    (htyped : Typed signature values) :
    ((bodyFormat signature).emit values).length = bodySize signature values := by
  induction htyped with
  | nil => rfl
  | cons hhead _ ih =>
      obtain ⟨dataType, hchar, hadmits⟩ := hhead
      rw [bodyFormat_cons_emit, List.length_append, ih, fieldFormat_emit hchar hadmits,
        bodySize, hchar]
      by_cases hvariant : dataType = .v
      · simp [DataType.fieldBytes, hvariant, Value.length_payload, Nat.add_comm]
      · simp [DataType.fieldBytes, hvariant, Value.length_payload]

theorem bodySize_pos {signature : DataSignature} {values : List Value}
    (htyped : Typed signature values) (hsignature : signature ≠ []) :
    0 < bodySize signature values := by
  cases htyped with
  | nil => exact absurd rfl hsignature
  | @cons char value signature values hhead htail =>
      have hvalue : 0 < value.size := by cases value <;> simp [Value.size]
      rw [bodySize]
      omega

end Rpcmple
