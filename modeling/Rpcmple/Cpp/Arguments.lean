import Rpcmple.Cpp.FromBinary
import Rpcmple.Cpp.ToBinary

namespace Rpcmple.Cpp

open Data

namespace DataSignature

instance (char : UInt8) (ret : Variant) : Decidable (FieldMatches char ret) :=
  decidable_of_iff (∃ dataType ∈ DataType.all, DataType.ofChar? char = some dataType ∧
      (dataType = .v ∨ dataType = variantType ret))
    ⟨fun ⟨dataType, _, hmatches⟩ => ⟨dataType, hmatches⟩,
      fun ⟨dataType, hmatches⟩ => ⟨dataType, by cases dataType <;> decide, hmatches⟩⟩

instance Matches.decidable : ∀ (signature : DataSignature) (rets : VariantVector),
    Decidable (Matches signature rets)
  | [], _ => isTrue trivial
  | _ :: _, [] => isFalse id
  | char :: signature, ret :: rets =>
      have := Matches.decidable signature rets
      inferInstanceAs (Decidable (FieldMatches char ret ∧ Matches signature rets))

def plain? : Variant → Option Value
  | .value content => some content
  | .wstring _ | .wstrings _ => none

def plain (rets : VariantVector) : List Value := rets.filterMap plain?

theorem plain_map (values : List Value) : plain (values.map .value) = values := by
  rw [plain, List.filterMap_map]
  exact List.filterMap_some

def body (signature : DataSignature) (rets : VariantVector) : Bytes :=
  (bodyFormat signature).emit (plain rets)

/-- The size of what is encoded: the values in front of the first that does not match. -/
def encodedLength : DataSignature → VariantVector → Nat
  | char :: signature, .value content :: rets =>
      if FieldMatches char (.value content) then
        (if DataType.ofChar? char = some .v then 1 else 0) + content.size +
          encodedLength signature rets
      else 0
  | _, _ => 0

/-- No wide string in a variant field, no count above 65535, and less than 2^24 bytes. -/
structure Small (signature : DataSignature) (rets : VariantVector) : Prop where
  narrow : NarrowVariants signature rets
  fits : ∀ content, Variant.value content ∈ rets → content.Fits
  short : encodedLength signature rets < 16777216

variable {host : Platform} {signature : DataSignature} {rets : VariantVector}

theorem encodedLength_map {values : List Value} (hnarrow : Narrow signature)
    (htyped : Typed signature values) :
    encodedLength signature (values.map .value) = bodySize signature values := by
  induction htyped with
  | nil => rfl
  | @cons char content signature values hhead _ ih =>
      obtain ⟨dataType, hchar, hadmits⟩ := hhead
      have hwide := hnarrow _ List.mem_cons_self dataType hchar
      have hmatches : FieldMatches char (.value content) := by
        refine ⟨dataType, hchar, hadmits.imp_right fun htype => ?_⟩
        refine Eq.trans ?_ htype
        cases dataType <;> first | rfl | cases hwide
      rw [List.map_cons, encodedLength, if_pos hmatches, bodySize,
        ih fun other hmem => hnarrow other (List.mem_cons_of_mem _ hmem)]

theorem Small.values (hsmall : Small signature rets) (hnarrow : Narrow signature)
    (hlength : rets.length = signature.length) (hmatches : Matches signature rets) :
    rets = (plain rets).map .value ∧ Typed signature (plain rets) ∧
      (∀ content ∈ plain rets, content.Fits) ∧ (body signature rets).length < 16777216 := by
  obtain ⟨values, surplus, hsplit, htyped⟩ :=
    represents_of_matches hnarrow hsmall.narrow hmatches
  have hcount := congrArg List.length hsplit
  rw [List.length_append, List.length_map, hlength, htyped.length_eq] at hcount
  obtain rfl := List.length_eq_zero_iff.mp (by omega : surplus.length = 0)
  rw [List.append_nil] at hsplit
  subst hsplit
  rw [body, plain_map, length_bodyFormat_emit htyped, ← encodedLength_map hnarrow htyped]
  exact ⟨rfl, htyped, fun content hmem => hsmall.fits content (List.mem_map_of_mem hmem),
    hsmall.short⟩

theorem Small.represents (hsmall : Small signature rets) (hnarrow : Narrow signature)
    (hlength : rets.length = signature.length) (hmatches : Matches signature rets) :
    Represents host signature rets (plain rets) := by
  obtain ⟨hrets, htyped, -, -⟩ := hsmall.values hnarrow hlength hmatches
  rw [hrets, plain_map]
  simpa using represents_of_typed host hnarrow htyped []

theorem toBinary_body (hsmall : Small signature rets) (hnarrow : Narrow signature)
    (hlength : rets.length = signature.length) (hmatches : Matches signature rets)
    (message : Bytes) :
    toBinary host signature rets message =
      .next ⟨body signature rets, (body signature rets).length, true⟩ := by
  obtain ⟨-, -, hfits, hshort⟩ := hsmall.values hnarrow hlength hmatches
  have hencoded := toBinary_of_represents
    (@Small.represents host _ _ hsmall hnarrow hlength hmatches) hfits message
  have hdefined : decide ((body signature rets).length < 2 ^ 31) = true :=
    decide_eq_true (by omega)
  rw [← hdefined]
  exact hencoded

theorem fromBinary_body (hsmall : Small signature rets) (hnarrow : Narrow signature)
    (hlength : rets.length = signature.length) (hmatches : Matches signature rets)
    (args : VariantVector) :
    fromBinary host signature (body signature rets) args =
      .returns ⟨true, (body signature rets).length, rets⟩ := by
  obtain ⟨hrets, htyped, hfits, hshort⟩ := hsmall.values hnarrow hlength hmatches
  have hvalid := bodyFormat_valid_iff.mpr ⟨htyped, hfits⟩
  have hwide := readsWideTag_emit hvalid []
  rw [List.append_nil] at hwide
  have hdecoded := @fromBinary_of_parse host (body signature rets) (by omega) signature []
    (plain rets) args hnarrow hwide ((bodyFormat signature).parse_emit_nil hvalid)
  rw [← hrets] at hdecoded
  exact hdecoded

theorem writeValue_of_ne {dataType : DataType} {ret : Variant}
    (htype : dataType ≠ variantType ret) (buffer : OutBuffer) :
    writeValue host dataType ret buffer = .fail buffer := by
  cases ret with
  | value content => cases dataType <;> cases content <;> first | rfl | exact absurd rfl htype
  | wstring | wstrings => cases dataType <;> first | rfl | exact absurd rfl htype

theorem writeReturn_of_not_matches {char : UInt8} {ret : Variant}
    (hmatches : ¬ FieldMatches char ret) (buffer : OutBuffer) :
    writeReturn host char ret buffer = .fail buffer := by
  cases hchar : DataType.ofChar? char with
  | none => simp only [writeReturn, hchar]
  | some dataType =>
      have hvariant : dataType ≠ .v := fun hvariant => hmatches ⟨dataType, hchar, .inl hvariant⟩
      have htype : dataType ≠ variantType ret := fun htype => hmatches ⟨dataType, hchar, .inr htype⟩
      have hwrite : writeReturn host char ret buffer = writeValue host dataType ret buffer := by
        rw [writeReturn, hchar]
        cases dataType <;> first | rfl | exact absurd rfl hvariant
      rw [hwrite, writeValue_of_ne htype]

theorem length_field {char : UInt8} {content : Value}
    (hmatches : FieldMatches char (.value content)) :
    ((fieldFormat char).emit content).length =
      (if DataType.ofChar? char = some .v then 1 else 0) + content.size := by
  obtain ⟨dataType, hchar, htype⟩ := hmatches
  have hadmits : dataType.Admits content :=
    htype.imp_right fun htype => by rw [htype]; cases content <;> rfl
  rw [fieldFormat_emit hchar hadmits, hchar, DataType.fieldBytes]
  by_cases hvariant : dataType = .v
  · simp [hvariant, Value.length_payload, Nat.add_comm]
  · simp [hvariant, Value.length_payload]

theorem writeReturns_fails (hnarrow : Narrow signature) (hvariants : NarrowVariants signature rets)
    (hfits : ∀ content, Variant.value content ∈ rets → content.Fits)
    (hlength : rets.length = signature.length) (hmatches : ¬ Matches signature rets)
    {buffer : OutBuffer} {output : Bytes} (htracks : Tracks buffer output)
    (hshort : output.length + encodedLength signature rets < 2 ^ 31) :
    ∃ final, writeReturns host signature rets buffer = .fail final ∧ final.defined = true := by
  induction signature generalizing rets buffer output with
  | nil => exact absurd trivial hmatches
  | cons char signature ih =>
      cases rets with
      | nil => cases hlength
      | cons ret rets =>
          by_cases hhead : FieldMatches char ret
          · obtain ⟨dataType, hchar, htype⟩ := id hhead
            have hwide : (variantType ret).isWide = false := by
              rcases htype with rfl | rfl
              · exact hvariants (char, ret) List.mem_cons_self hchar
              · exact hnarrow char List.mem_cons_self _ hchar
            cases ret with
            | wstring | wstrings => cases hwide
            | value content =>
                rw [encodedLength, if_pos hhead] at hshort
                obtain ⟨middle, hmiddle, hmore⟩ := @writeReturn_appends host _ _ _ hhead
                  (.value content) (hfits content List.mem_cons_self) _ _ htracks
                have hsize := length_field hhead
                obtain ⟨final, hfinal, hdefined⟩ := ih
                  (fun other hmem => hnarrow other (List.mem_cons_of_mem _ hmem))
                  (fun field hmem => hvariants field (List.mem_cons_of_mem _ hmem))
                  (fun other hmem => hfits other (List.mem_cons_of_mem _ hmem))
                  (Nat.succ.inj hlength) (fun htail => hmatches ⟨hhead, htail⟩) hmore
                  (by rw [List.length_append]; omega)
                refine ⟨final, ?_, hdefined⟩
                rw [writeReturns, hmiddle, Outcome.next_andThen, hfinal]
          · refine ⟨buffer, ?_, ?_⟩
            · rw [writeReturns, writeReturn_of_not_matches hhead]
              rfl
            · rw [htracks.defined]
              exact decide_eq_true (by omega)

theorem toBinary_fails (hsmall : Small signature rets) (hnarrow : Narrow signature)
    (hlength : rets.length = signature.length) (hmatches : ¬ Matches signature rets)
    (message : Bytes) :
    ∃ buffer, toBinary host signature rets message = .fail buffer ∧ buffer.defined = true := by
  have hshort := hsmall.short
  obtain ⟨final, hfinal, hdefined⟩ := @writeReturns_fails host _ _ hnarrow hsmall.narrow
    hsmall.fits hlength hmatches _ _ (Tracks.start message) (by simp only [List.length_nil]; omega)
  refine ⟨final, ?_, hdefined⟩
  rw [toBinary, hfinal]
  rfl

end DataSignature

end Rpcmple.Cpp
