import Rpcmple.Cpp.DataSignature

namespace Rpcmple.Cpp

open Data

namespace DataSignature

variable (host : Platform)

/-- The bytes written so far, and whether the 32-bit offset still counts them. -/
structure Tracks (buffer : OutBuffer) (output : Bytes) : Prop where
  offset : buffer.replyOffset = output.length
  written : buffer.message.take output.length = output
  defined : buffer.defined = decide (output.length < 2 ^ 31)

theorem Tracks.start (message : Bytes) : Tracks (.start message) [] :=
  ⟨rfl, rfl, rfl⟩

theorem Tracks.room {buffer : OutBuffer} {output : Bytes}
    (htracks : Tracks buffer output) : output.length ≤ buffer.message.length := by
  have hlength := congrArg List.length htracks.written
  rw [List.length_take] at hlength
  omega

theorem Tracks.reserve {buffer : OutBuffer} {output : Bytes}
    (htracks : Tracks buffer output) (count : Nat) :
    (buffer.reserve count).replyOffset = output.length ∧
      (buffer.reserve count).message.take output.length = output ∧
      output.length + count ≤ (buffer.reserve count).message.length := by
  have hroom := htracks.room
  refine ⟨htracks.offset, ?_, ?_⟩
  · simp only [OutBuffer.reserve, resize]
    split
    · rw [List.take_append_of_le_length (by rw [List.length_take]; omega),
        List.take_take, Nat.min_eq_left (by omega), htracks.written]
    · exact htracks.written
  · simp only [OutBuffer.reserve, resize, htracks.offset]
    split
    · simp only [List.length_append, List.length_take, List.length_replicate]
      omega
    · omega

theorem Tracks.write {buffer : OutBuffer} {output bytes : Bytes} {count : Nat}
    (htracks : Tracks buffer output) (hcount : bytes.length = count) :
    Tracks (((buffer.reserve count).store bytes).advance count) (output ++ bytes) := by
  subst hcount
  obtain ⟨hoffset, hwritten, hroom⟩ := htracks.reserve bytes.length
  have hdefined : (buffer.reserve bytes.length).defined =
      (decide (output.length < 2 ^ 31) &&
        decide (output.length + bytes.length < 2 ^ 31)) := by
    rw [OutBuffer.reserve, htracks.defined, htracks.offset]
  unfold OutBuffer.store
  rw [if_pos (by omega)]
  refine ⟨?_, ?_, ?_⟩
  · simp [OutBuffer.advance, hoffset]
  · simp only [OutBuffer.advance, hoffset, hwritten, List.length_append]
    rw [← List.length_append, List.take_left]
  · simp only [OutBuffer.advance, hdefined, hoffset, List.length_append]
    rw [Bool.eq_iff_iff]
    simp only [Bool.and_eq_true, decide_eq_true_eq]
    omega

def Appends (write : OutBuffer → Outcome OutBuffer) (bytes : Bytes) : Prop :=
  ∀ buffer output, Tracks buffer output →
    ∃ buffer', write buffer = .next buffer' ∧ Tracks buffer' (output ++ bytes)

theorem Appends.andThen {first second : OutBuffer → Outcome OutBuffer}
    {front back : Bytes} (hfirst : Appends first front) (hsecond : Appends second back) :
    Appends (fun buffer => (first buffer).andThen second) (front ++ back) := by
  intro buffer output htracks
  obtain ⟨middle, hmiddle, htracks⟩ := hfirst buffer output htracks
  obtain ⟨final, hfinal, htracks⟩ := hsecond middle _ htracks
  refine ⟨final, ?_, ?_⟩
  · simp only [hmiddle, Outcome.next_andThen, hfinal]
  · rw [← List.append_assoc]
    exact htracks

theorem Appends.forEach {α : Type} {body : α → OutBuffer → Outcome OutBuffer}
    {emit : α → Bytes} {items : List α}
    (hbody : ∀ item ∈ items, Appends (body item) (emit item)) :
    Appends (Outcome.forEach body items) (items.flatMap emit) := fun _ _ htracks =>
  Outcome.forEach_extends (fun item hmem state output => hbody item hmem state output)
    htracks

section Encoding

variable {host}

private theorem writeScalar_appends {written bytes : Bytes} (hbytes : written = bytes)
    (hlength : bytes.length = 8) :
    Appends (fun buffer => .next (writeScalar written buffer)) bytes := by
  subst hbytes
  exact fun _ _ htracks => ⟨_, rfl, htracks.write hlength⟩

private theorem writeCount_appends {length : Nat} (hfits : length < 65536) :
    Appends (writeCount host length) (leBytes 2 length) := by
  intro buffer output htracks
  have hcount : (UInt16.ofNat length).toNat = length := UInt16.toNat_ofNat_of_lt' hfits
  refine ⟨_, ?_, htracks.write (length_leBytes 2 length)⟩
  simp only [writeCount, uint16ToBytes_true, hcount]
  rw [if_neg (by omega)]

private theorem writeScalars_appends {α : Type} {toBytes : α → Bytes}
    {emit : α → Bytes} {items : List α}
    (hbytes : ∀ item, toBytes item = emit item) (hlength : ∀ item, (emit item).length = 8)
    (hfits : items.length < 65536) :
    Appends (writeScalars host toBytes items)
      (leBytes 2 items.length ++ items.flatMap emit) := by
  have hcount : (UInt16.ofNat items.length).toNat = items.length :=
    UInt16.toNat_ofNat_of_lt' hfits
  unfold writeScalars
  rw [hcount, List.take_length]
  apply (writeCount_appends hfits).andThen
  apply Appends.forEach
  intro item _
  exact writeScalar_appends (hbytes item) (hlength item)

private theorem writeString_appends {strVal : Bytes} (hfits : strVal.length < 65536) :
    Appends (writeString host strVal) (Value.textBytes strVal) := by
  have hcount : (UInt16.ofNat strVal.length).toNat = strVal.length :=
    UInt16.toNat_ofNat_of_lt' hfits
  unfold writeString
  rw [hcount]
  apply (writeCount_appends hfits).andThen
  exact fun _ _ htracks => ⟨_, rfl, htracks.write rfl⟩

private theorem writeStrings_appends {strArrVal : List Bytes}
    (hfits : (Value.strings strArrVal).Fits) :
    Appends (writeStrings host strArrVal) (Value.strings strArrVal).payload := by
  have hcount : (UInt16.ofNat strArrVal.length).toNat = strArrVal.length :=
    UInt16.toNat_ofNat_of_lt' hfits.1
  unfold writeStrings
  rw [hcount, List.take_length]
  apply (writeCount_appends hfits.1).andThen
  exact Appends.forEach fun strVal hmem => writeString_appends (hfits.2 strVal hmem)

end Encoding

/-- The value that arrives where this variant is written: wide text goes
through the converter. -/
inductive Lowers (host : Platform) : Variant → Value → Prop where
  | value (content : Value) : Lowers host (.value content) content
  | wstring {text : WString} {bytes : Bytes} :
      host.toBytes text = some bytes → Lowers host (.wstring text) (.string bytes)
  | wstrings {texts : List WString} {strings : List Bytes} :
      List.Forall₂ (fun text bytes => host.toBytes text = some bytes) texts strings →
        Lowers host (.wstrings texts) (.strings strings)

theorem Lowers.dataType {ret : Variant} {value : Value} (hlowers : Lowers host ret value) :
    (variantType ret).narrow = value.dataType := by
  cases hlowers with
  | value => cases value <;> rfl
  | wstring _ | wstrings _ => rfl

def FieldMatches (char : UInt8) (ret : Variant) : Prop :=
  ∃ dataType, DataType.ofChar? char = some dataType ∧
    (dataType = .v ∨ dataType = variantType ret)

/-- The values have the types the signature asks for and stand for these; what
exceeds the signature is not looked at. -/
inductive Represents (host : Platform) :
    DataSignature → VariantVector → List Value → Prop where
  | nil (surplus : VariantVector) : Represents host [] surplus []
  | cons {char : UInt8} {ret : Variant} {value : Value}
      {signature : DataSignature} {rets : VariantVector} {values : List Value} :
      FieldMatches char ret →
      Lowers host ret value → Represents host signature rets values →
      Represents host (char :: signature) (ret :: rets) (value :: values)

theorem Represents.typed {signature : DataSignature} {rets : VariantVector}
    {values : List Value} (hrepresents : Represents host signature rets values) :
    Typed signature values := by
  induction hrepresents with
  | nil => exact .nil
  | cons hmatches hlowers _ ih =>
      obtain ⟨dataType, hchar, htype⟩ := hmatches
      refine .cons ⟨_, hchar, ?_⟩ ih
      rcases htype with rfl | rfl
      · exact Or.inl rfl
      · exact Or.inr (hlowers.dataType host)

theorem represents_of_typed {signature : DataSignature} {values : List Value}
    (hnarrow : Narrow signature) (htyped : Typed signature values)
    (surplus : VariantVector) :
    Represents host signature (values.map .value ++ surplus) values := by
  induction htyped with
  | nil => exact .nil surplus
  | cons hhead _ ih =>
      obtain ⟨dataType, hchar, hadmits⟩ := hhead
      have hwide := hnarrow _ List.mem_cons_self dataType hchar
      refine .cons ⟨dataType, hchar, ?_⟩ (.value _)
        (ih fun other hmem => hnarrow other (List.mem_cons_of_mem _ hmem))
      rcases hadmits with hvariant | hadmits
      · exact Or.inl hvariant
      · refine Or.inr (Eq.trans ?_ hadmits)
        cases dataType <;> first | rfl | cases hwide

section Encoding

variable {host}

private theorem writeWideString_eq {text : WString} {bytes : Bytes}
    (hbytes : host.toBytes text = some bytes) :
    writeWideString host text = writeString host bytes := by
  funext buffer
  rw [writeWideString, hbytes]

private theorem writeWideStrings_appends {texts : List WString} {strings : List Bytes}
    (hstrings : List.Forall₂ (fun text bytes => host.toBytes text = some bytes)
      texts strings)
    (hfits : (Value.strings strings).Fits) :
    Appends (writeWideStrings host texts) (Value.strings strings).payload := by
  obtain ⟨hlength, heach⟩ := hfits
  rw [← hstrings.length_eq] at hlength
  have hcount : (UInt16.ofNat texts.length).toNat = texts.length :=
    UInt16.toNat_ofNat_of_lt' hlength
  unfold writeWideStrings
  rw [hcount, List.take_length, Value.payload, ← hstrings.length_eq]
  apply (writeCount_appends hlength).andThen
  clear hlength hcount
  induction hstrings with
  | nil => exact fun buffer output htracks => ⟨buffer, rfl, by simpa using htracks⟩
  | cons hbytes _ ih =>
      have hhead := @writeString_appends host _ (heach _ List.mem_cons_self)
      rw [← writeWideString_eq hbytes] at hhead
      exact hhead.andThen (ih fun text hmem => heach text (List.mem_cons_of_mem _ hmem))

theorem writeValue_appends {ret : Variant} {value : Value}
    (hlowers : Lowers host ret value) (hfits : value.Fits) :
    Appends (writeValue host (variantType ret) ret) value.payload := by
  cases hlowers with
  | value =>
      cases value with
      | double bits =>
          exact writeScalar_appends (doubleToBytes_true host bits) (length_leBytes 8 _)
      | int number =>
          exact writeScalar_appends (int64ToBytes_true host number) (length_leBytes 8 _)
      | uint number =>
          exact writeScalar_appends (uint64ToBytes_true host number) (length_leBytes 8 _)
      | doubles bits =>
          exact writeScalars_appends (doubleToBytes_true host)
            (fun _ => length_leBytes 8 _) hfits
      | ints numbers =>
          exact writeScalars_appends (int64ToBytes_true host)
            (fun _ => length_leBytes 8 _) hfits
      | uints numbers =>
          exact writeScalars_appends (uint64ToBytes_true host)
            (fun _ => length_leBytes 8 _) hfits
      | string text => exact writeString_appends hfits
      | strings texts => exact writeStrings_appends hfits
  | wstring hbytes =>
      change Appends (writeWideString host _) _
      rw [writeWideString_eq hbytes]
      exact writeString_appends hfits
  | wstrings hstrings => exact writeWideStrings_appends hstrings hfits

theorem writeReturn_appends {char : UInt8} {ret : Variant} {value : Value}
    (hmatches : FieldMatches char ret) (hlowers : Lowers host ret value)
    (hfits : value.Fits) :
    Appends (writeReturn host char ret) ((fieldFormat char).emit value) := by
  obtain ⟨dataType, hchar, htype⟩ := hmatches
  have hvalue := writeValue_appends hlowers hfits
  by_cases hvariant : dataType = .v
  · subst hvariant
    have hbytes : (fieldFormat char).emit value =
        [(variantType ret).narrow.char] ++ value.payload := by
      rw [fieldFormat_emit hchar (Or.inl rfl), hlowers.dataType]
      rfl
    intro buffer output htracks
    obtain ⟨final, hfinal, htracks⟩ := hvalue _ _
      (@Tracks.write _ _ [(variantType ret).narrow.char] 1 htracks rfl)
    refine ⟨final, ?_, ?_⟩
    · simp only [writeReturn, hchar, hfinal]
    · rw [hbytes, ← List.append_assoc]
      exact htracks
  · have htype := htype.resolve_left hvariant
    have hbytes : (fieldFormat char).emit value = value.payload := by
      have hadmits : dataType.narrow = value.dataType := htype ▸ hlowers.dataType
      rw [fieldFormat_emit hchar (Or.inr hadmits), DataType.fieldBytes, if_neg hvariant]
    have hwrite : writeReturn host char ret = writeValue host (variantType ret) ret := by
      funext buffer
      rw [writeReturn, hchar, ← htype]
      cases dataType <;> first | contradiction | rfl
    rw [hbytes, hwrite]
    exact hvalue

theorem writeReturns_appends {signature : DataSignature} {rets : VariantVector}
    {values : List Value} (hrepresents : Represents host signature rets values)
    (hfits : ∀ value ∈ values, value.Fits) :
    Appends (writeReturns host signature rets) ((bodyFormat signature).emit values) := by
  induction hrepresents with
  | nil surplus => exact fun buffer output htracks => ⟨buffer, rfl, by simpa using htracks⟩
  | cons hmatches hlowers _ ih =>
      rw [bodyFormat_cons_emit]
      exact (writeReturn_appends hmatches hlowers (hfits _ List.mem_cons_self)).andThen
        (ih fun value hmem => hfits value (List.mem_cons_of_mem _ hmem))

theorem toBinary_of_represents {signature : DataSignature} {rets : VariantVector}
    {values : List Value} (hrepresents : Represents host signature rets values)
    (hfits : ∀ value ∈ values, value.Fits) (message : Bytes) :
    toBinary host signature rets message =
      .next ⟨(bodyFormat signature).emit values,
        ((bodyFormat signature).emit values).length,
        decide (((bodyFormat signature).emit values).length < 2 ^ 31)⟩ := by
  obtain ⟨buffer, hbuffer, htracks⟩ :=
    writeReturns_appends hrepresents hfits _ _ (Tracks.start message)
  rw [List.nil_append] at htracks
  rw [toBinary, hbuffer, Outcome.next_andThen]
  have hroom := htracks.room
  simp [resize, htracks.offset, htracks.written, htracks.defined, Nat.sub_eq_zero_of_le hroom]

end Encoding

def Matches : DataSignature → VariantVector → Prop
  | [], _ => True
  | _ :: _, [] => False
  | char :: signature, ret :: rets => FieldMatches char ret ∧ Matches signature rets

theorem writeValue_accepts {dataType : DataType} {ret : Variant}
    {buffer final : OutBuffer}
    (haccept : writeValue host dataType ret buffer = .next final) :
    dataType = variantType ret := by
  cases ret with
  | value content =>
      cases dataType <;> cases content <;> first | rfl | cases haccept
  | wstring _ | wstrings _ => cases dataType <;> first | rfl | cases haccept

theorem writeReturn_accepts {char : UInt8} {ret : Variant} {buffer final : OutBuffer}
    (haccept : writeReturn host char ret buffer = .next final) :
    FieldMatches char ret := by
  unfold writeReturn at haccept
  cases hchar : DataType.ofChar? char with
  | none => simp [hchar] at haccept
  | some dataType =>
      refine ⟨dataType, hchar, ?_⟩
      by_cases hvariant : dataType = .v
      · exact Or.inl hvariant
      · have hwrite : writeValue host dataType ret buffer = .next final := by
          rw [hchar] at haccept
          cases dataType <;> first | contradiction | exact haccept
        exact Or.inr (writeValue_accepts host hwrite)

theorem toBinary_accepts {signature : DataSignature} {rets : VariantVector}
    {message : Bytes} {final : OutBuffer}
    (haccept : toBinary host signature rets message = .next final) :
    Matches signature rets := by
  obtain ⟨buffer, hbuffer, -⟩ := Outcome.andThen_eq_next.mp haccept
  clear haccept
  generalize OutBuffer.start message = initial at hbuffer
  induction signature generalizing rets initial with
  | nil => trivial
  | cons char signature ih =>
      cases rets with
      | nil => cases hbuffer
      | cons ret rets =>
          obtain ⟨middle, hhead, htail⟩ := Outcome.andThen_eq_next.mp hbuffer
          exact ⟨writeReturn_accepts host hhead, ih _ htail⟩

def NarrowVariants (signature : DataSignature) (rets : VariantVector) : Prop :=
  ∀ field ∈ signature.zip rets, DataType.ofChar? field.1 = some .v →
    (variantType field.2).isWide = false

theorem represents_of_matches {signature : DataSignature} {rets : VariantVector}
    (hnarrow : Narrow signature) (hvariants : NarrowVariants signature rets)
    (hmatches : Matches signature rets) :
    ∃ values surplus, rets = values.map .value ++ surplus ∧ Typed signature values := by
  induction signature generalizing rets with
  | nil => exact ⟨[], rets, rfl, .nil⟩
  | cons char signature ih =>
      cases rets with
      | nil => exact hmatches.elim
      | cons ret rets =>
          obtain ⟨⟨dataType, hchar, htype⟩, hmatches⟩ := hmatches
          obtain ⟨values, surplus, rfl, htyped⟩ :=
            ih (fun other hmem => hnarrow other (List.mem_cons_of_mem _ hmem))
              (fun field hmem => hvariants field (List.mem_cons_of_mem _ hmem)) hmatches
          have hwide : (variantType ret).isWide = false := by
            rcases htype with rfl | rfl
            · exact hvariants (char, ret) List.mem_cons_self hchar
            · exact hnarrow char List.mem_cons_self _ hchar
          cases ret with
          | wstring _ | wstrings _ => cases hwide
          | value content =>
              refine ⟨content :: values, surplus, rfl, .cons ⟨dataType, hchar, ?_⟩ htyped⟩
              rcases htype with rfl | rfl
              · exact Or.inl rfl
              · exact Or.inr (by cases content <;> rfl)

end DataSignature

end Rpcmple.Cpp
