import Rpcmple.Data.Outcome
import Rpcmple.Wire.Value

namespace Rpcmple.Go

open Data

/-! `DataSignature.ToBinary` and `DataSignature.FromBinary`.  The writer is the
`bytes.Buffer` every caller passes, which accepts all writes. -/

/-- A Go `any`, as far as `reflect` lets the encoder tell values apart.  A nil
pointer has no target; `other` is any further dynamic type. -/
inductive Any where
  | nil
  | value (content : Value)
  | pointer (target : Option Any)
  | other
  deriving Repr

/-- `reflect.Indirect(reflect.ValueOf(argument))`; `none` is the zero
`reflect.Value`, whose `Type` method panics. -/
def Any.indirect : Any → Option Any
  | .nil => none
  | .pointer target => target
  | argument => some argument

def uint16 (length : Nat) : Nat := length % 65536

namespace DataSignature

/-- A length check, the 16-bit count and the elements of an array or string. -/
def writeCounted (length : Nat) (elements body : Bytes) : Outcome Bytes :=
  if length > 65536 then .fail body
  else .next (body ++ leBytes 2 (uint16 length) ++ elements)

/-- The second switch of `ToBinary`, on the type of the dereferenced argument. -/
def writeValue (arg : DataType) (v : Any) (body : Bytes) : Outcome Bytes :=
  match arg, v with
  | .d, .value (.double dblVal) => .next (body ++ Value.uintBytes dblVal)
  | .D, .value (.doubles dblArrVal) =>
      writeCounted dblArrVal.length (dblArrVal.flatMap Value.uintBytes) body
  | .i, .value (.int intVal) => .next (body ++ Value.intBytes intVal)
  | .I, .value (.ints intArrVal) =>
      writeCounted intArrVal.length (intArrVal.flatMap Value.intBytes) body
  | .u, .value (.uint uintVal) => .next (body ++ Value.uintBytes uintVal)
  | .U, .value (.uints uintArrVal) =>
      writeCounted uintArrVal.length (uintArrVal.flatMap Value.uintBytes) body
  | .w, .value (.string strVal) | .s, .value (.string strVal) =>
      writeCounted strVal.length strVal body
  | .W, .value (.strings strArrVal) | .S, .value (.strings strArrVal) =>
      (writeCounted strArrVal.length [] body).andThen
        (Outcome.forEach (fun strVal => writeCounted strVal.length strVal) strArrVal)
  | _, _ => .fail body

/-- The type the variant switch puts in place of `v`. -/
def variantType : Any → Option DataType
  | .value content => some content.dataType
  | _ => none

def writeArgument (arg : UInt8) (argument : Any) (body : Bytes) : Outcome Bytes :=
  match argument.indirect with
  | none => .crash
  | some v =>
      match DataType.ofChar? arg with
      | none => .fail body
      | some .v =>
          match variantType v with
          | none => .fail body
          | some dataType => writeValue dataType v (body ++ [dataType.char])
      | some dataType => writeValue dataType v body

/-- `next` is the return value true, `fail` false and `crash` a panic. -/
def ToBinary (ds : DataSignature) (body : Bytes) (arguments : List Any) :
    Outcome Bytes :=
  if ds.length ≠ arguments.length then .fail body
  else Outcome.forEach (fun field => writeArgument field.1 field.2)
    (ds.zip arguments) body

def readUint16 (mr : Bytes) : Option (Nat × Bytes) :=
  (splitBytes? 2 mr).map fun split => (leValue split.1, split.2)

/-- `binary.Read` into a byte slice of the length read before it. -/
def readString (mr : Bytes) : Option (Bytes × Bytes) :=
  (readUint16 mr).bind fun strLen => splitBytes? strLen.1 strLen.2

def readStrings : Nat → Bytes → Option (List Bytes × Bytes)
  | 0, mr => some ([], mr)
  | count + 1, mr =>
      (readString mr).bind fun str =>
        (readStrings count str.2).map fun tail => (str.1 :: tail.1, tail.2)

def toUint64 (number : Nat) : UInt64 := UInt64.ofNat number

def toInt64 (number : Nat) : Int64 := (UInt64.ofNat number).toInt64

def readScalar {α : Type} (convert : Nat → α) (mr : Bytes) : Option (α × Bytes) :=
  (splitBytes? 8 mr).map fun split => (convert (leValue split.1), split.2)

/-- `binary.Read` of a count and, in one read, of that many 64-bit scalars. -/
def readScalars {α : Type} (convert : Nat → α) (mr : Bytes) :
    Option (List α × Bytes) :=
  (readUint16 mr).bind fun arrLen =>
    (splitBytes? (8 * arrLen.1) arrLen.2).map fun split =>
      (Format.scalarsOf 8 convert arrLen.1 split.1, split.2)

def readValue : DataType → Bytes → Option (Value × Bytes)
  | .d, mr => (readScalar toUint64 mr).map fun read => (.double read.1, read.2)
  | .D, mr => (readScalars toUint64 mr).map fun read => (.doubles read.1, read.2)
  | .i, mr => (readScalar toInt64 mr).map fun read => (.int read.1, read.2)
  | .I, mr => (readScalars toInt64 mr).map fun read => (.ints read.1, read.2)
  | .u, mr => (readScalar toUint64 mr).map fun read => (.uint read.1, read.2)
  | .U, mr => (readScalars toUint64 mr).map fun read => (.uints read.1, read.2)
  | .w, mr | .s, mr => (readString mr).map fun read => (.string read.1, read.2)
  | .W, mr | .S, mr =>
      (readUint16 mr).bind fun strArrLen =>
        (readStrings strArrLen.1 strArrLen.2).map fun read =>
          (.strings read.1, read.2)
  | .v, _ => none

def readReturn (ret : UInt8) (mr : Bytes) : Option (Value × Bytes) :=
  match DataType.ofChar? ret with
  | none => none
  | some .v =>
      match mr with
      | [] => none
      | byteVal :: rest =>
          match DataType.ofChar? byteVal with
          | none | some .v => none
          | some dataType => readValue dataType rest
  | some dataType => readValue dataType mr

/-- A slice of `any`: its backing array up to the capacity, and its length. -/
structure AnySlice where
  backing : List Any
  len : Nat
  deriving Repr

namespace AnySlice

def values (slice : AnySlice) : List Any := slice.backing.take slice.len

/-- The growth and reslicing at the head of `FromBinary`. -/
def resize (slice : AnySlice) (len : Nat) : AnySlice where
  backing := slice.backing ++ List.replicate (len - slice.backing.length) .nil
  len := len

def set (slice : AnySlice) (index : Nat) (content : Value) : AnySlice :=
  { slice with backing := slice.backing.set index (.value content) }

end AnySlice

def readReturns : DataSignature → Nat → Bytes → AnySlice → Option Bytes × AnySlice
  | [], _, mr, callbackValues => (some mr, callbackValues)
  | ret :: ds, index, mr, callbackValues =>
      match readReturn ret mr with
      | none => (none, callbackValues)
      | some (content, rest) =>
          readReturns ds (index + 1) rest (callbackValues.set index content)

/-- True is `some` with what the reader still holds, false is `none`. -/
def FromBinary (ds : DataSignature) (mr : Bytes) (callbackValues : AnySlice) :
    Option Bytes × AnySlice :=
  readReturns ds 0 mr (callbackValues.resize ds.length)

private theorem readScalar_uint64 (mr : Bytes) :
    readScalar toUint64 mr = uint64Format.parse mr := rfl

private theorem readScalar_int64 (mr : Bytes) :
    readScalar toInt64 mr = int64Format.parse mr := rfl

private theorem readString_eq (mr : Bytes) :
    readString mr = textFormat.parse mr := by
  rw [readString, readUint16, textFormat, Format.blob_parse, Option.bind_map]
  rfl

private theorem readStrings_eq (count : Nat) (mr : Bytes) :
    readStrings count mr = textFormat.parseTimes count mr := by
  induction count generalizing mr with
  | zero => rfl
  | succ count ih =>
      rw [readStrings, Format.parseTimes, readString_eq]
      simp only [ih]

private theorem readScalars_uint64 (mr : Bytes) :
    readScalars toUint64 mr = (Format.counted 2 uint64Format).parse mr := by
  rw [readScalars, readUint16, Format.counted_parse, Option.bind_map]
  apply congrArg (Option.bind (splitBytes? 2 mr))
  funext split
  exact (Format.parseTimes_scalar 8 _ _ _ _ _ _ _).symm

private theorem readScalars_int64 (mr : Bytes) :
    readScalars toInt64 mr = (Format.counted 2 int64Format).parse mr := by
  rw [readScalars, readUint16, Format.counted_parse, Option.bind_map]
  apply congrArg (Option.bind (splitBytes? 2 mr))
  funext split
  exact (Format.parseTimes_scalar 8 _ _ _ _ _ _ _).symm

private theorem readStrings_counted (mr : Bytes) :
    ((readUint16 mr).bind fun strArrLen =>
        (readStrings strArrLen.1 strArrLen.2).map fun read =>
          (Value.strings read.1, read.2)) =
      ((Format.counted 2 textFormat).parse mr).map fun read =>
        (Value.strings read.1, read.2) := by
  rw [readUint16, Format.counted_parse, Option.bind_map, Option.map_bind]
  apply congrArg (Option.bind (splitBytes? 2 mr))
  funext split
  exact congrArg (Option.map _) (readStrings_eq _ _)

theorem readValue_eq (dataType : DataType) (mr : Bytes) :
    readValue dataType mr = dataType.format.parse mr := by
  cases dataType with
  | d => exact congrArg (Option.map _) (readScalar_uint64 mr)
  | D => exact congrArg (Option.map _) (readScalars_uint64 mr)
  | i => exact congrArg (Option.map _) (readScalar_int64 mr)
  | I => exact congrArg (Option.map _) (readScalars_int64 mr)
  | u => exact congrArg (Option.map _) (readScalar_uint64 mr)
  | U => exact congrArg (Option.map _) (readScalars_uint64 mr)
  | s | w => exact congrArg (Option.map _) (readString_eq mr)
  | S | W => exact readStrings_counted mr
  | v => rfl

theorem readReturn_eq {ret : UInt8} {mr : Bytes}
    (hwide : wideTagAhead ret mr = false) :
    readReturn ret mr = (fieldFormat ret).parse mr := by
  unfold readReturn fieldFormat
  cases hret : DataType.ofChar? ret with
  | none => rfl
  | some dataType =>
      by_cases hvariant : dataType = .v
      · subst hvariant
        cases mr with
        | nil => rfl
        | cons byteVal rest =>
            cases htag : DataType.ofChar? byteVal with
            | none => simp [Format.tagged, variantFormat, htag]
            | some tag =>
                have htagWide : tag.isWide = false := by
                  simpa [wideTagAhead, hret, htag] using hwide
                cases tag <;>
                  simp_all [Format.tagged, variantFormat, DataType.isWide,
                    readValue_eq]
                rfl
      · cases dataType <;> first | contradiction | exact readValue_eq _ mr

def readBody : DataSignature → Bytes → Option (List Value × Bytes)
  | [], mr => some ([], mr)
  | ret :: ds, mr =>
      (readReturn ret mr).bind fun read =>
        (readBody ds read.2).map fun tail => (read.1 :: tail.1, tail.2)

theorem readBody_eq {ds : DataSignature} {mr : Bytes}
    (hwide : readsWideTag ds mr = false) :
    readBody ds mr = (bodyFormat ds).parse mr := by
  induction ds generalizing mr with
  | nil => rfl
  | cons ret ds ih =>
      rw [readsWideTag, Bool.or_eq_false_iff] at hwide
      rw [readBody, bodyFormat_cons_parse, readReturn_eq hwide.1]
      cases hcontent : (fieldFormat ret).parse mr with
      | none => rfl
      | some parsed =>
          simp only [Option.bind_some]
          rw [ih (by simpa [hcontent] using hwide.2)]

theorem readValue_fits {dataType : DataType} {mr rest : Bytes} {content : Value}
    (hread : readValue dataType mr = some (content, rest)) : content.Fits := by
  rw [readValue_eq] at hread
  exact ((dataType.format_valid_iff content).mp (dataType.format.parse_sound hread).1).2

theorem readReturn_fits {ret : UInt8} {mr rest : Bytes} {content : Value}
    (hread : readReturn ret mr = some (content, rest)) : content.Fits := by
  unfold readReturn at hread
  split at hread
  · cases hread
  · split at hread
    · cases hread
    · split at hread
      · cases hread
      · cases hread
      · exact readValue_fits hread
  · exact readValue_fits hread

theorem readBody_fits {ds : DataSignature} {mr rest : Bytes} {values : List Value}
    (hread : readBody ds mr = some (values, rest)) :
    values.length = ds.length ∧ ∀ value ∈ values, value.Fits := by
  induction ds generalizing mr values with
  | nil =>
      cases hread
      simp
  | cons ret ds ih =>
      obtain ⟨⟨content, middle⟩, hcontent, hmap⟩ := Option.bind_eq_some_iff.mp hread
      obtain ⟨⟨following, tail⟩, hfollowing, heq⟩ := Option.map_eq_some_iff.mp hmap
      obtain ⟨rfl, rfl⟩ := Prod.mk.inj heq
      obtain ⟨hlength, hfits⟩ := ih hfollowing
      refine ⟨by simp [hlength], ?_⟩
      intro value hmem
      rcases List.mem_cons.mp hmem with rfl | hmem
      · exact readReturn_fits hcontent
      · exact hfits value hmem

theorem readReturns_of_readBody {ds : DataSignature} {index : Nat}
    {mr rest : Bytes} {values : List Value} {callbackValues : AnySlice}
    (hread : readBody ds mr = some (values, rest))
    (hroom : index + ds.length ≤ callbackValues.backing.length) :
    readReturns ds index mr callbackValues =
      (some rest,
        { backing := callbackValues.backing.take index ++ values.map .value ++
            callbackValues.backing.drop (index + ds.length)
          len := callbackValues.len }) := by
  induction ds generalizing index mr values callbackValues with
  | nil =>
      cases hread
      simp [readReturns]
  | cons ret ds ih =>
      obtain ⟨⟨content, middle⟩, hcontent, hmap⟩ := Option.bind_eq_some_iff.mp hread
      obtain ⟨⟨following, tail⟩, hfollowing, heq⟩ := Option.map_eq_some_iff.mp hmap
      obtain ⟨rfl, rfl⟩ := Prod.mk.inj heq
      simp only [List.length_cons] at hroom
      have hset : (callbackValues.set index content).backing.take (index + 1) =
          callbackValues.backing.take index ++ [.value content] := by
        rw [AnySlice.set, List.take_succ_eq_append_getElem (by
          rw [List.length_set]; omega)]
        simp [List.take_set_of_le (Nat.le_refl index)]
      have hdrop : (callbackValues.set index content).backing.drop
            (index + 1 + ds.length) =
          callbackValues.backing.drop (index + (ds.length + 1)) := by
        rw [AnySlice.set, List.drop_set_of_lt (by omega)]
        congr 1
        omega
      rw [readReturns, hcontent]
      simp only
      rw [ih hfollowing (by simp only [AnySlice.set, List.length_set]; omega),
        hset, hdrop]
      simp [AnySlice.set]

theorem readReturns_of_not_readBody {ds : DataSignature} {index : Nat}
    {mr : Bytes} {callbackValues : AnySlice} (hread : readBody ds mr = none) :
    (readReturns ds index mr callbackValues).1 = none := by
  induction ds generalizing index mr callbackValues with
  | nil => cases hread
  | cons ret ds ih =>
      rw [readReturns]
      cases hcontent : readReturn ret mr with
      | none => rfl
      | some read =>
          simp only [readBody, hcontent, Option.bind_some, Option.map_eq_none_iff] at hread
          exact ih hread

/-- `FromBinary` returns true exactly when every field can be read, and then
the slice holds what was read. -/
theorem FromBinary_of_readBody {ds : DataSignature} {mr rest : Bytes}
    {values : List Value} (callbackValues : AnySlice)
    (hread : readBody ds mr = some (values, rest)) :
    (FromBinary ds mr callbackValues).1 = some rest ∧
      (FromBinary ds mr callbackValues).2.values = values.map .value := by
  have hlength := (readBody_fits hread).1
  have hroom : 0 + ds.length ≤ (callbackValues.resize ds.length).backing.length := by
    simp only [AnySlice.resize, List.length_append, List.length_replicate]
    omega
  rw [FromBinary, readReturns_of_readBody hread hroom]
  refine ⟨rfl, ?_⟩
  simp [AnySlice.values, AnySlice.resize, ← hlength]

theorem FromBinary_emit {ds : DataSignature} {values : List Value}
    (hvalid : (bodyFormat ds).Valid values) (callbackValues : AnySlice) :
    (FromBinary ds ((bodyFormat ds).emit values) callbackValues).1 = some [] ∧
      (FromBinary ds ((bodyFormat ds).emit values) callbackValues).2.values =
        values.map .value := by
  have hwide := readsWideTag_emit hvalid []
  rw [List.append_nil] at hwide
  apply FromBinary_of_readBody
  rw [readBody_eq hwide]
  exact (bodyFormat ds).parse_emit_nil hvalid

theorem FromBinary_of_not_readBody {ds : DataSignature} {mr : Bytes}
    (callbackValues : AnySlice) (hread : readBody ds mr = none) :
    (FromBinary ds mr callbackValues).1 = none :=
  readReturns_of_not_readBody hread

theorem readBody_of_FromBinary {ds : DataSignature} {mr rest : Bytes}
    {values : List Value} {callbackValues : AnySlice}
    (hresult : (FromBinary ds mr callbackValues).1 = some rest)
    (hvalues : (FromBinary ds mr callbackValues).2.values = values.map .value) :
    readBody ds mr = some (values, rest) := by
  cases hread : readBody ds mr with
  | none => simp [FromBinary_of_not_readBody callbackValues hread] at hresult
  | some read =>
      obtain ⟨contents, left⟩ := read
      obtain ⟨hrest, hcontents⟩ := FromBinary_of_readBody callbackValues hread
      rw [hvalues] at hcontents
      have hinjective : Function.Injective Any.value := fun _ _ => Any.value.inj
      rw [hinjective.list_map hcontents]
      simp [Option.some.inj (hrest.symm.trans hresult)]

/-- The arguments are these values, directly or behind one pointer. -/
def Denotes (arguments : List Any) (values : List Value) : Prop :=
  List.Forall₂ (fun argument value => argument.indirect = some (.value value))
    arguments values

theorem denotes_values (values : List Value) : Denotes (values.map .value) values := by
  induction values with
  | nil => exact .nil
  | cons value values ih => exact .cons rfl ih

theorem Denotes.unique {arguments : List Any} {first second : List Value}
    (hfirst : Denotes arguments first) (hsecond : Denotes arguments second) :
    first = second := by
  induction hfirst generalizing second with
  | nil =>
      cases hsecond
      rfl
  | cons hindirect _ ih =>
      cases hsecond with
      | cons hother hrest =>
          rw [hindirect] at hother
          rw [ih hrest, Any.value.inj (Option.some.inj hother)]

private theorem writeCounted_of_fits {length : Nat} {elements : Bytes}
    (body : Bytes) (hfits : length < 65536) :
    writeCounted length elements body =
      .next (body ++ (leBytes 2 length ++ elements)) := by
  rw [writeCounted, if_neg (by omega), uint16, Nat.mod_eq_of_lt hfits,
    List.append_assoc]

theorem writeValue_of_fits {arg : DataType} {value : Value} (body : Bytes)
    (htype : arg.narrow = value.dataType) (hfits : value.Fits) :
    writeValue arg (.value value) body = .next (body ++ value.payload) := by
  cases arg <;> cases value <;> first
    | contradiction
    | rfl
    | exact writeCounted_of_fits body hfits
    | skip
  all_goals
    rename_i texts
    have hcount := @writeCounted_of_fits _ [] body hfits.1
    obtain ⟨final, hfinal, hdone⟩ := @Outcome.forEach_extends _ _
      (fun strVal => writeCounted strVal.length strVal) Value.textBytes
      (fun state output => state = output) texts
      (by
        rintro strVal hmem state output rfl
        exact ⟨_, writeCounted_of_fits state (hfits.2 strVal hmem), rfl⟩)
      (body ++ (leBytes 2 texts.length ++ [])) _ rfl
    rw [writeValue, hcount, Outcome.next_andThen, hfinal, hdone]
    simp [Value.payload]

theorem writeArgument_of_fits {arg : UInt8} {dataType : DataType}
    {argument : Any} {value : Value} (body : Bytes)
    (harg : DataType.ofChar? arg = some dataType)
    (hindirect : argument.indirect = some (.value value))
    (hadmits : dataType.Admits value) (hfits : value.Fits) :
    writeArgument arg argument body =
      .next (body ++ dataType.fieldBytes value) := by
  rw [writeArgument, hindirect]
  simp only [harg]
  by_cases hvariant : dataType = .v
  · subst hvariant
    have hnarrow : value.dataType.narrow = value.dataType := by
      cases value <;> rfl
    simp only [variantType]
    rw [writeValue_of_fits _ hnarrow hfits]
    simp [DataType.fieldBytes]
  · have hwrite := writeValue_of_fits body (hadmits.resolve_left hvariant) hfits
    rw [DataType.fieldBytes, if_neg hvariant]
    cases dataType <;> first | contradiction | exact hwrite

theorem ToBinary_of_fits {ds : DataSignature} {arguments : List Any}
    {values : List Value} (body : Bytes) (hdenotes : Denotes arguments values)
    (htyped : Typed ds values) (hfits : ∀ value ∈ values, value.Fits) :
    ToBinary ds body arguments = .next (body ++ (bodyFormat ds).emit values) := by
  have hlength : ds.length = arguments.length :=
    htyped.length_eq.trans hdenotes.length_eq.symm
  rw [ToBinary, if_neg (by simpa using hlength)]
  clear hlength
  induction ds generalizing body arguments values with
  | nil =>
      cases htyped
      cases hdenotes
      simp
  | cons arg ds ih =>
      cases htyped with
      | cons hhead htail =>
          cases hdenotes with
          | cons hindirect hrest =>
              obtain ⟨dataType, harg, hadmits⟩ := hhead
              have hwrite := writeArgument_of_fits body harg hindirect hadmits
                (hfits _ List.mem_cons_self)
              rw [List.zip_cons_cons, Outcome.forEach_cons, hwrite,
                Outcome.next_andThen,
                ih _ hrest htail fun value hmem =>
                  hfits value (List.mem_cons_of_mem _ hmem),
                bodyFormat_cons_emit, fieldFormat_emit harg hadmits,
                List.append_assoc]

theorem writeValue_accepts {arg : DataType} {v : Any} {body final : Bytes}
    (haccept : writeValue arg v body = .next final) :
    ∃ value, v = .value value ∧ arg.narrow = value.dataType := by
  cases v with
  | value content =>
      refine ⟨content, rfl, ?_⟩
      cases arg <;> cases content <;> first | rfl | cases haccept
  | nil | pointer | other => cases arg <;> cases haccept

theorem writeArgument_accepts {arg : UInt8} {argument : Any} {body final : Bytes}
    (haccept : writeArgument arg argument body = .next final) :
    ∃ dataType value, DataType.ofChar? arg = some dataType ∧
      argument.indirect = some (.value value) ∧ dataType.Admits value := by
  unfold writeArgument at haccept
  cases hindirect : argument.indirect with
  | none => simp [hindirect] at haccept
  | some v =>
      cases harg : DataType.ofChar? arg with
      | none => simp [hindirect, harg] at haccept
      | some dataType =>
          simp only [hindirect, harg] at haccept
          by_cases hvariant : dataType = .v
          · subst hvariant
            cases v with
            | value content => exact ⟨.v, content, rfl, rfl, Or.inl rfl⟩
            | nil | pointer | other => simp [variantType] at haccept
          · have hwrite : writeValue dataType v body = .next final := by
              cases dataType <;> first | contradiction | exact haccept
            obtain ⟨content, rfl, htype⟩ := writeValue_accepts hwrite
            exact ⟨dataType, content, rfl, rfl, Or.inr htype⟩

theorem ToBinary_accepts {ds : DataSignature} {arguments : List Any}
    {body final : Bytes} (haccept : ToBinary ds body arguments = .next final) :
    ∃ values, Denotes arguments values ∧ Typed ds values := by
  unfold ToBinary at haccept
  split at haccept
  · cases haccept
  · rename_i hlength
    rw [not_not] at hlength
    induction ds generalizing body arguments with
    | nil =>
        cases arguments with
        | nil => exact ⟨[], .nil, .nil⟩
        | cons argument arguments => cases hlength
    | cons arg ds ih =>
        cases arguments with
        | nil => cases hlength
        | cons argument arguments =>
            rw [List.zip_cons_cons, Outcome.forEach_cons,
              Outcome.andThen_eq_next] at haccept
            obtain ⟨middle, hhead, htail⟩ := haccept
            obtain ⟨dataType, value, harg, hindirect, hadmits⟩ :=
              writeArgument_accepts hhead
            obtain ⟨values, hdenotes, htyped⟩ := ih (Nat.succ.inj hlength) htail
            exact ⟨value :: values, .cons hindirect hdenotes,
              .cons ⟨dataType, harg, hadmits⟩ htyped⟩

end DataSignature

end Rpcmple.Go
