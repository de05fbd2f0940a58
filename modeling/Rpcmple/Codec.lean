import Rpcmple.Cpp.FromBinary
import Rpcmple.Cpp.ToBinary
import Rpcmple.Go.DataSignature

namespace Rpcmple.Codec

open Data

def GoDecodes (signature : DataSignature) (bytes : Bytes) (values : List Value) : Prop :=
  ∀ callbackValues,
    (Go.DataSignature.FromBinary signature bytes callbackValues).1 = some [] ∧
      (Go.DataSignature.FromBinary signature bytes callbackValues).2.values =
        values.map .value

def CppDecodes (host : Cpp.Platform) (signature : DataSignature) (bytes : Bytes)
    (values : List Value) : Prop :=
  ∀ args, Cpp.DataSignature.fromBinary host signature bytes args =
    .returns ⟨true, bytes.length, values.map .value⟩

theorem goDecodes_emit {signature : DataSignature} {values : List Value}
    (hvalid : (bodyFormat signature).Valid values) :
    GoDecodes signature ((bodyFormat signature).emit values) values :=
  Go.DataSignature.FromBinary_emit hvalid

theorem fits_of_goDecodes {signature : DataSignature} {bytes : Bytes}
    {values : List Value} (hdecodes : GoDecodes signature bytes values) :
    values.length = signature.length ∧ ∀ value ∈ values, value.Fits := by
  obtain ⟨hresult, hvalues⟩ := hdecodes ⟨[], 0⟩
  exact Go.DataSignature.readBody_fits
    (Go.DataSignature.readBody_of_FromBinary hresult hvalues)

theorem cppDecodes_emit (host : Cpp.Platform) {signature : DataSignature}
    {values : List Value} (hnarrow : Narrow signature)
    (hvalid : (bodyFormat signature).Valid values)
    (hsize : ((bodyFormat signature).emit values).length < 2 ^ 31) :
    CppDecodes host signature ((bodyFormat signature).emit values) values := by
  intro args
  have hwide := readsWideTag_emit hvalid []
  rw [List.append_nil] at hwide
  exact Cpp.DataSignature.fromBinary_of_parse hsize args hnarrow hwide
    ((bodyFormat signature).parse_emit_nil hvalid)

theorem fits_of_cppDecodes {host : Cpp.Platform} {signature : DataSignature}
    {bytes : Bytes} {values : List Value}
    (hdecodes : CppDecodes host signature bytes values) :
    values.length = signature.length ∧ (∀ value ∈ values, value.Fits) ∧
      bytes.length < 2 ^ 31 := by
  obtain ⟨hoffset, hlength, hfits⟩ :=
    Cpp.DataSignature.fromBinary_ensures (hdecodes []) rfl
  refine ⟨by simpa using hlength, ?_, hoffset⟩
  intro value hmem
  exact hfits (.value value) (List.mem_map_of_mem hmem)

/-- The body Go appended comes back in Go and, below 2 GiB, in C++, exactly when
every count fits its field. -/
theorem go_roundTrip_iff (host : Cpp.Platform) {signature : DataSignature}
    {arguments : List Go.Any} {values : List Value} {body final : Bytes}
    (hnarrow : Narrow signature) (hdenotes : Go.DataSignature.Denotes arguments values)
    (haccept : Go.DataSignature.ToBinary signature body arguments = .next final) :
    ((∃ emitted, final = body ++ emitted ∧ GoDecodes signature emitted values) ↔
        ∀ value ∈ values, value.Fits) ∧
      ((∃ emitted, final = body ++ emitted ∧
          CppDecodes host signature emitted values) ↔
        (∀ value ∈ values, value.Fits) ∧ bodySize signature values < 2 ^ 31) := by
  obtain ⟨accepted, haccepted, htyped⟩ := Go.DataSignature.ToBinary_accepts haccept
  have hsame : accepted = values := (hdenotes.unique haccepted).symm
  subst hsame
  have hemit : (∀ value ∈ accepted, value.Fits) →
      final = body ++ (bodyFormat signature).emit accepted := by
    intro hfits
    have hbody := Go.DataSignature.ToBinary_of_fits body hdenotes htyped hfits
    exact Outcome.next.inj (haccept.symm.trans hbody)
  have hsize := length_bodyFormat_emit htyped
  refine ⟨⟨?_, ?_⟩, ⟨?_, ?_⟩⟩
  · rintro ⟨emitted, -, hdecodes⟩
    exact (fits_of_goDecodes hdecodes).2
  · intro hfits
    exact ⟨_, hemit hfits, goDecodes_emit (bodyFormat_valid_iff.mpr ⟨htyped, hfits⟩)⟩
  · rintro ⟨emitted, hfinal, hdecodes⟩
    obtain ⟨-, hfits, hlength⟩ := fits_of_cppDecodes hdecodes
    have hemitted := List.append_cancel_left (hfinal.symm.trans (hemit hfits))
    exact ⟨hfits, by rwa [← hsize, ← hemitted]⟩
  · rintro ⟨hfits, hlength⟩
    exact ⟨_, hemit hfits, cppDecodes_emit host hnarrow
      (bodyFormat_valid_iff.mpr ⟨htyped, hfits⟩) (hsize ▸ hlength)⟩

/-- What C++ can send back unchanged: one value for each character, counts that
fit, and fewer than 2 GiB. -/
def CppEncodable (signature : DataSignature) (values : List Value) : Prop :=
  values.length = signature.length ∧ (∀ value ∈ values, value.Fits) ∧
    bodySize signature values < 2 ^ 31

theorem cpp_roundTrip_iff (sender receiver : Cpp.Platform) {signature : DataSignature}
    {values : List Value} {message : Bytes} {buffer : Cpp.OutBuffer}
    (hnarrow : Narrow signature)
    (haccept : Cpp.DataSignature.toBinary sender signature (values.map .value) message =
      .next buffer) :
    ((buffer.defined = true ∧ GoDecodes signature buffer.message values) ↔
        CppEncodable signature values) ∧
      ((buffer.defined = true ∧ CppDecodes receiver signature buffer.message values) ↔
        CppEncodable signature values) := by
  have hvariants : Cpp.DataSignature.NarrowVariants signature (values.map .value) := by
    rintro ⟨char, ret⟩ hmem _
    obtain ⟨value, -, rfl⟩ := List.mem_map.mp (List.of_mem_zip hmem).2
    cases value <;> rfl
  obtain ⟨matched, surplus, hsplit, htyped⟩ :=
    Cpp.DataSignature.represents_of_matches hnarrow hvariants
      (Cpp.DataSignature.toBinary_accepts sender haccept)
  have hemit : values.length = signature.length → (∀ value ∈ values, value.Fits) →
      Typed signature values ∧ buffer = ⟨(bodyFormat signature).emit values,
        ((bodyFormat signature).emit values).length,
        decide (((bodyFormat signature).emit values).length < 2 ^ 31)⟩ := by
    intro hlength hfits
    have hmatched : matched = values := by
      have hcount := congrArg List.length hsplit
      rw [List.length_append, List.length_map, List.length_map, hlength,
        htyped.length_eq] at hcount
      have hnone : surplus = [] := List.length_eq_zero_iff.mp (by omega)
      rw [hnone, List.append_nil] at hsplit
      have hinjective : Function.Injective Cpp.Variant.value :=
        fun _ _ => Cpp.Variant.value.inj
      exact (hinjective.list_map hsplit).symm
    subst hmatched
    have hrepresents := Cpp.DataSignature.represents_of_typed sender hnarrow htyped []
    rw [List.append_nil] at hrepresents
    have hencoded := Cpp.DataSignature.toBinary_of_represents hrepresents hfits message
    exact ⟨htyped, Outcome.next.inj (haccept.symm.trans hencoded)⟩
  have hencodable : CppEncodable signature values → buffer.defined = true ∧
      GoDecodes signature buffer.message values ∧
      CppDecodes receiver signature buffer.message values := by
    rintro ⟨hlength, hfits, hsize⟩
    obtain ⟨htyped, rfl⟩ := hemit hlength hfits
    rw [← length_bodyFormat_emit htyped] at hsize
    have hvalid := bodyFormat_valid_iff.mpr ⟨htyped, hfits⟩
    exact ⟨decide_eq_true hsize, goDecodes_emit hvalid,
      cppDecodes_emit receiver hnarrow hvalid hsize⟩
  have hdecoded : buffer.defined = true → values.length = signature.length →
      (∀ value ∈ values, value.Fits) → CppEncodable signature values := by
    intro hdefined hlength hfits
    obtain ⟨htyped, rfl⟩ := hemit hlength hfits
    exact ⟨hlength, hfits, length_bodyFormat_emit htyped ▸ of_decide_eq_true hdefined⟩
  refine ⟨⟨?_, ?_⟩, ⟨?_, ?_⟩⟩
  · rintro ⟨hdefined, hdecodes⟩
    obtain ⟨hlength, hfits⟩ := fits_of_goDecodes hdecodes
    exact hdecoded hdefined hlength hfits
  · intro henc
    exact ⟨(hencodable henc).1, (hencodable henc).2.1⟩
  · rintro ⟨hdefined, hdecodes⟩
    obtain ⟨hlength, hfits, -⟩ := fits_of_cppDecodes hdecodes
    exact hdecoded hdefined hlength hfits
  · intro henc
    exact ⟨(hencodable henc).1, (hencodable henc).2.2⟩

/-- Decoding undoes encoding on exactly the values whose counts fit their 16-bit
fields, although the encoders admit one element more.  C++ besides ignores
surplus values and counts bytes in 32 bits. -/
theorem decode_undoes_encode_iff (sender receiver : Cpp.Platform)
    {signature : DataSignature} (hnarrow : Narrow signature) :
    (∀ arguments values body final, Go.DataSignature.Denotes arguments values →
      Go.DataSignature.ToBinary signature body arguments = .next final →
      ((∃ emitted, final = body ++ emitted ∧ GoDecodes signature emitted values) ↔
          ∀ value ∈ values, value.Fits) ∧
        ((∃ emitted, final = body ++ emitted ∧
            CppDecodes receiver signature emitted values) ↔
          (∀ value ∈ values, value.Fits) ∧ bodySize signature values < 2 ^ 31)) ∧
    (∀ values message buffer,
      Cpp.DataSignature.toBinary sender signature (values.map .value) message =
        .next buffer →
      ((buffer.defined = true ∧ GoDecodes signature buffer.message values) ↔
          CppEncodable signature values) ∧
        ((buffer.defined = true ∧ CppDecodes receiver signature buffer.message values) ↔
          CppEncodable signature values)) :=
  ⟨fun _ _ _ _ hdenotes haccept => go_roundTrip_iff receiver hnarrow hdenotes haccept,
    fun _ _ _ haccept => cpp_roundTrip_iff sender receiver hnarrow haccept⟩

private def littleEndianHost : Cpp.Platform where
  isMachineLittleEndian := true
  toBytes _ := none
  fromBytes _ := none

private theorem narrow_string : Narrow [DataType.s.char] := by
  intro char hmem dataType hchar
  rw [List.mem_singleton.mp hmem, DataType.ofChar?_char] at hchar
  cases hchar
  rfl

theorem decode_undoes_encode_iff_string :
    (∃ emitted, ([1, 0, 97] : Bytes) = [] ++ emitted ∧
      GoDecodes [DataType.s.char] emitted [.string [97]]) ↔
      ∀ value ∈ [Value.string [97]], value.Fits :=
  ((decode_undoes_encode_iff littleEndianHost littleEndianHost narrow_string).1
    [.value (.string [97])] [.string [97]] [] [1, 0, 97] (.cons rfl .nil) (by decide)).1

private theorem encoders_accept_65536_bytes {text : Bytes} (hlength : text.length = 65536) :
    (∃ final, Go.DataSignature.ToBinary [DataType.s.char] [] [.value (.string text)] =
      .next final) ∧
    ∃ buffer, Cpp.DataSignature.toBinary littleEndianHost [DataType.s.char]
      [.value (.string text)] [] = .next buffer := by
  have hchar : DataType.ofChar? DataType.s.char = some .s := DataType.ofChar?_char .s
  constructor
  · simp [Go.DataSignature.ToBinary, Go.DataSignature.writeArgument, Go.Any.indirect,
      hchar, Go.DataSignature.writeValue, Go.DataSignature.writeCounted, hlength]
  · simp [Cpp.DataSignature.toBinary, Cpp.DataSignature.writeReturns,
      Cpp.DataSignature.writeReturn, hchar, Cpp.DataSignature.writeValue,
      Cpp.DataSignature.writeString, Cpp.DataSignature.writeCount, hlength]

/-- A string of 65536 bytes is accepted by both encoders and comes back from
neither. -/
theorem decode_loses_65536_bytes :
    (∃ emitted,
      Go.DataSignature.ToBinary [DataType.s.char] []
          [.value (.string (List.replicate 65536 0))] = .next emitted ∧
        ¬ GoDecodes [DataType.s.char] emitted [.string (List.replicate 65536 0)] ∧
        ¬ CppDecodes littleEndianHost [DataType.s.char] emitted
          [.string (List.replicate 65536 0)]) ∧
    (∃ buffer,
      Cpp.DataSignature.toBinary littleEndianHost [DataType.s.char]
          [.value (.string (List.replicate 65536 0))] [] = .next buffer ∧
        ¬ GoDecodes [DataType.s.char] buffer.message
          [.string (List.replicate 65536 0)] ∧
        ¬ CppDecodes littleEndianHost [DataType.s.char] buffer.message
          [.string (List.replicate 65536 0)]) := by
  have hlength : (List.replicate 65536 (0 : UInt8)).length = 65536 := List.length_replicate
  generalize List.replicate 65536 (0 : UInt8) = text at hlength ⊢
  have hlong : ¬ ∀ value ∈ [Value.string text], value.Fits := by
    simp [Value.Fits, hlength]
  have hgo : ∀ bytes, ¬ GoDecodes [DataType.s.char] bytes [.string text] :=
    fun bytes hdecodes => hlong (fits_of_goDecodes hdecodes).2
  have hcpp : ∀ bytes, ¬ CppDecodes littleEndianHost [DataType.s.char] bytes
      [.string text] :=
    fun bytes hdecodes => hlong (fits_of_cppDecodes hdecodes).2.1
  obtain ⟨⟨emitted, hemitted⟩, buffer, hbuffer⟩ := encoders_accept_65536_bytes hlength
  exact ⟨⟨emitted, hemitted, hgo _, hcpp _⟩, ⟨buffer, hbuffer, hgo _, hcpp _⟩⟩

/-- Without wide variant tags both decoders accept the same messages, decode the
same values from the same bytes, and both encoders give those bytes back. -/
theorem codecs_agree (host : Cpp.Platform) {signature : DataSignature} {message : Bytes}
    (hnarrow : Narrow signature) (hmessage : message.length < 2 ^ 31)
    (hwide : readsWideTag signature message = false)
    (callbackValues : Go.DataSignature.AnySlice) (args : Cpp.VariantVector) :
    ((Go.DataSignature.FromBinary signature message callbackValues).1 = none ∧
      ∃ decoded, Cpp.DataSignature.fromBinary host signature message args =
        .returns decoded ∧ decoded.success = false) ∨
    ∃ (values : List Value) (rest encoded : Bytes),
      (Go.DataSignature.FromBinary signature message callbackValues).1 = some rest ∧
      (Go.DataSignature.FromBinary signature message callbackValues).2.values =
        values.map .value ∧
      Cpp.DataSignature.fromBinary host signature message args =
        .returns ⟨true, message.length - rest.length, values.map .value⟩ ∧
      encoded ++ rest = message ∧
      (∀ body, Go.DataSignature.ToBinary signature body (values.map .value) =
        .next (body ++ encoded)) ∧
      ∀ buffer, Cpp.DataSignature.toBinary host signature (values.map .value) buffer =
        .next ⟨encoded, encoded.length, true⟩ := by
  have hread := Go.DataSignature.readBody_eq hwide
  cases hparse : (bodyFormat signature).parse message with
  | none =>
      left
      rw [hparse] at hread
      exact ⟨Go.DataSignature.FromBinary_of_not_readBody callbackValues hread,
        Cpp.DataSignature.fromBinary_of_not_parse hmessage args hnarrow hwide hparse⟩
  | some parsed =>
      obtain ⟨values, rest⟩ := parsed
      rw [hparse] at hread
      obtain ⟨hvalid, hbytes⟩ := (bodyFormat signature).parse_sound hparse
      obtain ⟨htyped, hfits⟩ := bodyFormat_valid_iff.mp hvalid
      obtain ⟨hrest, hvalues⟩ :=
        Go.DataSignature.FromBinary_of_readBody callbackValues hread
      right
      refine ⟨values, rest, (bodyFormat signature).emit values, hrest, hvalues,
        Cpp.DataSignature.fromBinary_of_parse hmessage args hnarrow hwide hparse,
        hbytes, ?_, ?_⟩
      · intro body
        exact Go.DataSignature.ToBinary_of_fits body
          (Go.DataSignature.denotes_values values) htyped hfits
      · intro buffer
        have hrepresents := Cpp.DataSignature.represents_of_typed host hnarrow htyped []
        rw [List.append_nil] at hrepresents
        have hlength : ((bodyFormat signature).emit values).length < 2 ^ 31 := by
          rw [← hbytes, List.length_append] at hmessage
          omega
        rw [Cpp.DataSignature.toBinary_of_represents hrepresents hfits buffer,
          decide_eq_true hlength]

theorem codecs_agree_variant :
    ((Go.DataSignature.FromBinary [DataType.v.char] [DataType.s.char, 1, 0, 97]
        ⟨[], 0⟩).1 = none ∧
      ∃ decoded, Cpp.DataSignature.fromBinary littleEndianHost [DataType.v.char]
        [DataType.s.char, 1, 0, 97] [] = .returns decoded ∧ decoded.success = false) ∨
    ∃ (values : List Value) (rest encoded : Bytes),
      (Go.DataSignature.FromBinary [DataType.v.char] [DataType.s.char, 1, 0, 97]
        ⟨[], 0⟩).1 = some rest ∧
      (Go.DataSignature.FromBinary [DataType.v.char] [DataType.s.char, 1, 0, 97]
        ⟨[], 0⟩).2.values = values.map .value ∧
      Cpp.DataSignature.fromBinary littleEndianHost [DataType.v.char]
        [DataType.s.char, 1, 0, 97] [] =
        .returns ⟨true, 4 - rest.length, values.map .value⟩ ∧
      encoded ++ rest = [DataType.s.char, 1, 0, 97] ∧
      (∀ body, Go.DataSignature.ToBinary [DataType.v.char] body (values.map .value) =
        .next (body ++ encoded)) ∧
      ∀ buffer, Cpp.DataSignature.toBinary littleEndianHost [DataType.v.char]
        (values.map .value) buffer = .next ⟨encoded, encoded.length, true⟩ :=
  codecs_agree littleEndianHost
    (by
      intro char hmem dataType hchar
      rw [List.mem_singleton.mp hmem, DataType.ofChar?_char] at hchar
      cases hchar
      rfl)
    (by decide) (by decide) ⟨[], 0⟩ []

end Rpcmple.Codec
