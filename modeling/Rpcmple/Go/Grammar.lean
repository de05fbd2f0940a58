import Rpcmple.Go.DataSignature

namespace Rpcmple.Go.DataSignature

open Data

/-! The bodies of a signature as a grammar, read off the wire format and not off
the decoder. -/

/-- The field of a signature character: its value, the bytes that carry it and
the bytes `ToBinary` shows for it.  They differ in a wide variant tag. -/
inductive Field : UInt8 → Value → Bytes → Bytes → Prop where
  | plain {dataType : DataType} {value : Value} :
      dataType ≠ .v → dataType.narrow = value.dataType → value.Fits →
      Field dataType.char value value.payload value.payload
  | variant {tag : DataType} {value : Value} :
      tag ≠ .v → tag.narrow = value.dataType → value.Fits →
      Field DataType.v.char value (tag.char :: value.payload)
        (tag.narrow.char :: value.payload)

inductive Body : DataSignature → List Value → Bytes → Bytes → Prop where
  | nil : Body [] [] [] []
  | cons {ret : UInt8} {ds : DataSignature} {value : Value} {values : List Value}
      {bytes shown rest tail : Bytes} :
      Field ret value bytes shown → Body ds values rest tail →
      Body (ret :: ds) (value :: values) (bytes ++ rest) (shown ++ tail)

def WellFormedBody (ds : DataSignature) (bytes : Bytes) : Prop :=
  ∃ values shown, Body ds values bytes shown

theorem readValue_payload {dataType : DataType} {value : Value} (rest : Bytes)
    (htype : dataType.narrow = value.dataType) (hfits : value.Fits) :
    readValue dataType (value.payload ++ rest) = some (value, rest) := by
  rw [readValue_eq, ← DataType.format_emit htype]
  exact dataType.format.parse_emit rest
    ((dataType.format_valid_iff value).mpr ⟨htype, hfits⟩)

theorem payload_of_readValue {dataType : DataType} {mr rest : Bytes} {value : Value}
    (hread : readValue dataType mr = some (value, rest)) :
    dataType.narrow = value.dataType ∧ value.Fits ∧ value.payload ++ rest = mr := by
  rw [readValue_eq] at hread
  obtain ⟨hvalid, hbytes⟩ := dataType.format.parse_sound hread
  obtain ⟨htype, hfits⟩ := (dataType.format_valid_iff value).mp hvalid
  rw [DataType.format_emit htype] at hbytes
  exact ⟨htype, hfits, hbytes⟩

private theorem readReturn_plain {dataType : DataType} (hplain : dataType ≠ .v)
    (mr : Bytes) : readReturn dataType.char mr = readValue dataType mr := by
  unfold readReturn
  rw [DataType.ofChar?_char]
  cases dataType <;> first | rfl | contradiction

private theorem readReturn_variant (tag : DataType) (rest : Bytes) :
    readReturn DataType.v.char (tag.char :: rest) = readValue tag rest := by
  cases tag <;> rfl

theorem Field.read {ret : UInt8} {value : Value} {bytes shown : Bytes}
    (hfield : Field ret value bytes shown) (rest : Bytes) :
    readReturn ret (bytes ++ rest) = some (value, rest) := by
  cases hfield with
  | plain hplain htype hfits =>
      rw [readReturn_plain hplain]
      exact readValue_payload rest htype hfits
  | variant hplain htype hfits =>
      rw [List.cons_append, readReturn_variant]
      exact readValue_payload rest htype hfits

theorem field_of_readReturn {ret : UInt8} {mr rest : Bytes} {value : Value}
    (hread : readReturn ret mr = some (value, rest)) :
    ∃ bytes shown, mr = bytes ++ rest ∧ Field ret value bytes shown := by
  cases hret : DataType.ofChar? ret with
  | none => simp [readReturn, hret] at hread
  | some dataType =>
      have hchar := DataType.char_of_ofChar? hret
      subst hchar
      by_cases hvariant : dataType = .v
      · subst hvariant
        cases mr with
        | nil => simp [readReturn] at hread
        | cons byteVal content =>
            cases htag : DataType.ofChar? byteVal with
            | none => simp [readReturn, htag] at hread
            | some tag =>
                have hbyte := DataType.char_of_ofChar? htag
                subst hbyte
                by_cases hplain : tag = .v
                · subst hplain
                  simp [readReturn] at hread
                · rw [readReturn_variant] at hread
                  obtain ⟨htype, hfits, rfl⟩ := payload_of_readValue hread
                  exact ⟨_, _, rfl, .variant hplain htype hfits⟩
      · rw [readReturn_plain hvariant] at hread
        obtain ⟨htype, hfits, rfl⟩ := payload_of_readValue hread
        exact ⟨_, _, rfl, .plain hvariant htype hfits⟩

theorem Body.read {ds : DataSignature} {values : List Value} {bytes shown : Bytes}
    (hbody : Body ds values bytes shown) (rest : Bytes) :
    readBody ds (bytes ++ rest) = some (values, rest) := by
  induction hbody with
  | nil => rfl
  | cons hfield _ ih =>
      rw [List.append_assoc, readBody, hfield.read, Option.bind_some, ih]
      rfl

theorem body_of_readBody {ds : DataSignature} {mr rest : Bytes} {values : List Value}
    (hread : readBody ds mr = some (values, rest)) :
    ∃ bytes shown, mr = bytes ++ rest ∧ Body ds values bytes shown := by
  induction ds generalizing mr values with
  | nil =>
      cases hread
      exact ⟨[], [], rfl, .nil⟩
  | cons ret ds ih =>
      obtain ⟨⟨value, middle⟩, hvalue, hmap⟩ := Option.bind_eq_some_iff.mp hread
      obtain ⟨⟨following, tail⟩, hfollowing, heq⟩ := Option.map_eq_some_iff.mp hmap
      obtain ⟨rfl, rfl⟩ := Prod.mk.inj heq
      obtain ⟨bytes, shown, rfl, hfield⟩ := field_of_readReturn hvalue
      obtain ⟨others, last, rfl, hbody⟩ := ih hfollowing
      exact ⟨bytes ++ others, shown ++ last, (List.append_assoc _ _ _).symm,
        .cons hfield hbody⟩

theorem Body.length_eq {ds : DataSignature} {values : List Value} {bytes shown : Bytes}
    (hbody : Body ds values bytes shown) : values.length = ds.length := by
  induction hbody with
  | nil => rfl
  | cons _ _ ih => simp [ih]

theorem WellFormedBody.prefix_unique {ds : DataSignature} {first second : Bytes}
    {left right : Bytes} (hfirst : WellFormedBody ds first)
    (hsecond : WellFormedBody ds second) (hsame : first ++ left = second ++ right) :
    first = second := by
  obtain ⟨values, shown, hvalues⟩ := hfirst
  obtain ⟨others, displayed, hothers⟩ := hsecond
  have hread := hvalues.read left
  rw [hsame, hothers.read right] at hread
  obtain ⟨-, rfl⟩ := Prod.mk.inj (Option.some.inj hread)
  exact List.append_cancel_right hsame

theorem WellFormedBody.strict_prefix {ds : DataSignature} {front more : Bytes}
    (hwhole : WellFormedBody ds (front ++ more)) (hmore : more ≠ []) :
    readBody ds front = none := by
  cases hread : readBody ds front with
  | none => rfl
  | some read =>
      obtain ⟨bytes, shown, rfl, hbody⟩ := body_of_readBody hread
      have hsame := prefix_unique ⟨_, shown, hbody⟩ hwhole
        (show bytes ++ (read.2 ++ more) = bytes ++ read.2 ++ more ++ [] by simp)
      have hlength := congrArg List.length hsame
      simp only [List.length_append] at hlength
      have hnone : more.length = 0 := by omega
      exact absurd (List.eq_nil_of_length_eq_zero hnone) hmore

private theorem writeArgument_field {ret : UInt8} {value : Value} {bytes shown : Bytes}
    (hfield : Field ret value bytes shown) (body : Bytes) :
    writeArgument ret (.value value) body = .next (body ++ shown) := by
  cases hfield with
  | plain hplain htype hfits =>
      rw [writeArgument_of_fits body (DataType.ofChar?_char _) rfl (.inr htype) hfits,
        DataType.fieldBytes, if_neg hplain]
  | variant hplain htype hfits =>
      rw [writeArgument_of_fits body (DataType.ofChar?_char _) rfl (.inl rfl) hfits,
        DataType.fieldBytes, if_pos rfl, htype]

theorem Body.written {ds : DataSignature} {values : List Value} {bytes shown : Bytes}
    (hbody : Body ds values bytes shown) (output : Bytes) :
    ToBinary ds output (values.map .value) = .next (output ++ shown) := by
  have hlength := hbody.length_eq
  rw [ToBinary, if_neg (by simp [hlength])]
  clear hlength
  induction hbody generalizing output with
  | nil => simp
  | cons hfield _ ih =>
      rw [List.map_cons, List.zip_cons_cons, Outcome.forEach_cons,
        writeArgument_field hfield, Outcome.next_andThen, ih, List.append_assoc]

/-- `FromBinary` accepts exactly the inputs that begin with a body, reads that
body and nothing else, and `ToBinary` gives it back with narrow variant tags. -/
theorem FromBinary_grammar (ds : DataSignature) (mr : Bytes) (callbackValues : AnySlice) :
    ((FromBinary ds mr callbackValues).1.isSome ↔
      ∃ bytes rest, mr = bytes ++ rest ∧ WellFormedBody ds bytes) ∧
    ∀ bytes rest, mr = bytes ++ rest → WellFormedBody ds bytes →
      (∀ other left, mr = other ++ left → WellFormedBody ds other → other = bytes) ∧
      (FromBinary ds mr callbackValues).1 = some rest ∧
      (∀ front more, bytes = front ++ more → more ≠ [] → ∀ reused,
        (FromBinary ds front reused).1 = none) ∧
      ∃ values shown, Body ds values bytes shown ∧ values.length = ds.length ∧
        (FromBinary ds mr callbackValues).2.values = values.map .value ∧
        (∀ following reused,
          (FromBinary ds (bytes ++ following) reused).1 = some following ∧
          (FromBinary ds (bytes ++ following) reused).2.values = values.map .value) ∧
        ∀ output, ToBinary ds output (values.map .value) = .next (output ++ shown) := by
  refine ⟨⟨?_, ?_⟩, ?_⟩
  · intro haccept
    cases hread : readBody ds mr with
    | none =>
        rw [FromBinary_of_not_readBody callbackValues hread] at haccept
        cases haccept
    | some read =>
        obtain ⟨bytes, shown, hsplit, hbody⟩ := body_of_readBody hread
        exact ⟨bytes, read.2, hsplit, read.1, shown, hbody⟩
  · intro hprefix
    obtain ⟨bytes, rest, rfl, values, shown, hbody⟩ := hprefix
    rw [(FromBinary_of_readBody callbackValues (hbody.read rest)).1]
    rfl
  · intro bytes rest hsplit hformed
    subst hsplit
    obtain ⟨values, shown, hbody⟩ := hformed
    have hreads := fun following reused =>
      FromBinary_of_readBody reused (hbody.read following)
    refine ⟨?_, (hreads rest callbackValues).1, ?_, values, shown, hbody,
      hbody.length_eq, (hreads rest callbackValues).2, hreads, hbody.written⟩
    · intro other left hsame hother
      exact hother.prefix_unique ⟨values, shown, hbody⟩ hsame.symm
    · intro front more hfront hmore reused
      subst hfront
      exact FromBinary_of_not_readBody reused
        (WellFormedBody.strict_prefix ⟨values, shown, hbody⟩ hmore)

example : (FromBinary [DataType.v.char, DataType.I.char]
    [DataType.w.char, 1, 0, 97, 0, 0] ⟨[], 0⟩).1 = some [] := by decide

end Rpcmple.Go.DataSignature
