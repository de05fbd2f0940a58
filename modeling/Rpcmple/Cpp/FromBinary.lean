import Rpcmple.Cpp.DataSignature

namespace Rpcmple.Cpp

open Data

namespace DataSignature

variable (host : Platform)

section Agreement

variable {α β : Type} {message : Bytes}

theorem bind_apply (read : Reader α) (next : α → Reader β) (offset : Nat) :
    (read >>= next) offset = read offset >>= fun result => next result.1 result.2 := rfl

/-- Reading at the end of `front` does what parsing the bytes behind it did. -/
def AgreesAt (read : Reader α) (parsed : Option (α × Bytes)) (front bytes : Bytes) :
    Prop :=
  match parsed with
  | none => read front.length = .rejects
  | some (item, rest) => ∃ used, used ++ rest = bytes ∧
      read front.length = .returns (item, (front ++ used).length)

def Agrees (message : Bytes) (read : Reader α)
    (parse : Bytes → Option (α × Bytes)) : Prop :=
  ∀ front bytes, front ++ bytes = message → AgreesAt read (parse bytes) front bytes

theorem AgreesAt.bind {read : Reader α} {next : α → Reader β}
    {parsed : Option (α × Bytes)} {front bytes : Bytes}
    (hread : AgreesAt read parsed front bytes)
    (parseNext : α → Bytes → Option (β × Bytes))
    (hnext : ∀ item used rest, used ++ rest = bytes → parsed = some (item, rest) →
      AgreesAt (next item) (parseNext item rest) (front ++ used) rest) :
    AgreesAt (read >>= next)
      (parsed.bind fun result => parseNext result.1 result.2) front bytes := by
  cases parsed with
  | none =>
      unfold AgreesAt at hread
      simp only [AgreesAt, Option.bind_none, bind_apply, hread, Exec.rejects_bind]
  | some result =>
      obtain ⟨item, rest⟩ := result
      obtain ⟨used, hused, hreturns⟩ := hread
      have hagree := hnext item used rest hused rfl
      cases hparsed : parseNext item rest with
      | none =>
          rw [hparsed] at hagree
          simpa only [AgreesAt, Option.bind_some, hparsed, bind_apply, hreturns,
            Exec.returns_bind] using hagree
      | some result =>
          obtain ⟨final, tail⟩ := result
          rw [hparsed] at hagree
          obtain ⟨more, hmore, hfinal⟩ := hagree
          simp only [AgreesAt, Option.bind_some, hparsed, bind_apply, hreturns,
            Exec.returns_bind]
          refine ⟨used ++ more, ?_, ?_⟩
          · rw [List.append_assoc, hmore, hused]
          · rw [hfinal, List.append_assoc]

theorem AgreesAt.map {read : Reader α} {parsed : Option (α × Bytes)}
    {front bytes : Bytes} (hread : AgreesAt read parsed front bytes) (f : α → β) :
    AgreesAt (read >>= fun item => pure (f item))
      (parsed.map fun result => (f result.1, result.2)) front bytes := by
  rw [Option.map_eq_bind]
  refine hread.bind (fun item rest => some (f item, rest)) ?_
  intro item used rest _ _
  exact ⟨[], rfl, by rw [List.append_nil]; rfl⟩

theorem Agrees.bind {read : Reader α} {next : α → Reader β}
    {parse : Bytes → Option (α × Bytes)} {parseNext : α → Bytes → Option (β × Bytes)}
    (hread : Agrees message read parse)
    (hnext : ∀ item, Agrees message (next item) (parseNext item)) :
    Agrees message (read >>= next)
      (fun bytes => (parse bytes).bind fun result => parseNext result.1 result.2) := by
  intro front bytes hmessage
  apply (hread front bytes hmessage).bind parseNext
  intro item used rest hused _
  exact hnext item _ _ (by rw [List.append_assoc, hused, hmessage])

theorem Agrees.map {read : Reader α} {parse : Bytes → Option (α × Bytes)}
    (hread : Agrees message read parse) (f : α → β) :
    Agrees message (read >>= fun item => pure (f item))
      (fun bytes => (parse bytes).map fun result => (f result.1, result.2)) :=
  fun front bytes hmessage => (hread front bytes hmessage).map f

theorem readBytes_agrees (hmessage : message.length < 2 ^ 31) (count : Nat) :
    Agrees message (readBytes message count) (splitBytes? count) := by
  rintro front bytes rfl
  rw [List.length_append] at hmessage
  have hleft : bytesLeft (front ++ bytes) front.length = bytes.length := by
    unfold bytesLeft
    rw [List.length_append]
    omega
  unfold AgreesAt
  cases hsplit : splitBytes? count bytes with
  | none =>
      have hshort := splitBytes?_eq_none.mp hsplit
      simp only [readBytes, hleft, hshort, if_true]
  | some split =>
      obtain ⟨used, rest⟩ := split
      obtain ⟨hused, rfl⟩ := splitBytes?_eq_some.mp hsplit
      refine ⟨used, rfl, ?_⟩
      simp only [List.length_append] at hmessage hleft ⊢
      simp only [readBytes, hleft, List.length_append]
      rw [if_neg (by omega), if_neg (by omega), if_neg (by omega),
        List.drop_left, ← hused, List.take_left]

theorem readTimes_agrees {read : Reader α} {format : Format α}
    (hread : Agrees message read format.parse) (count : Nat) :
    Agrees message (readTimes read count) (format.parseTimes count) := by
  induction count with
  | zero =>
      intro front bytes _
      exact ⟨[], rfl, by rw [List.append_nil]; rfl⟩
  | succ count ih =>
      exact hread.bind fun item => ih.map fun items => item :: items

end Agreement

section Decoding

variable {host} {message : Bytes} (hmessage : message.length < 2 ^ 31)

include hmessage

private theorem readScalar_agrees {α : Type} {convert : Bytes → α} (ofNat : Nat → α)
    (hconvert : ∀ bytes : Bytes, bytes.length = 8 → convert bytes = ofNat (leValue bytes)) :
    Agrees message (readScalar convert message) fun bytes =>
      (splitBytes? 8 bytes).map fun split => (ofNat (leValue split.1), split.2) := by
  intro front bytes hfront
  have hmap := (readBytes_agrees hmessage 8 front bytes hfront).map convert
  have hparsed : ((splitBytes? 8 bytes).map fun split => (convert split.1, split.2)) =
      (splitBytes? 8 bytes).map fun split => (ofNat (leValue split.1), split.2) := by
    apply Option.map_congr
    intro split hsplit
    rw [hconvert split.1 (splitBytes?_eq_some.mp hsplit).1]
  rw [hparsed] at hmap
  exact hmap

theorem readUint16_agrees :
    Agrees message (readUint16 host message) fun bytes =>
      (splitBytes? 2 bytes).map fun split => (leValue split.1, split.2) := by
  intro front bytes hfront
  have hmap := (readBytes_agrees hmessage 2 front bytes hfront).map
    fun bytes => (bytesToUint16 host bytes true).toNat
  have hparsed : ((splitBytes? 2 bytes).map fun split =>
        ((bytesToUint16 host split.1 true).toNat, split.2)) =
      (splitBytes? 2 bytes).map fun split => (leValue split.1, split.2) := by
    apply Option.map_congr
    intro split hsplit
    have hlength := (splitBytes?_eq_some.mp hsplit).1
    rw [bytesToUint16_true host hlength,
      UInt16.toNat_ofNat_of_lt' (leValue_lt_of_length hlength)]
  rw [hparsed] at hmap
  exact hmap

private theorem readArray_agrees {α : Type} {read : Reader α} {format : Format α}
    (hread : Agrees message read format.parse) :
    Agrees message (readArray host read message) (Format.counted 2 format).parse := by
  intro front bytes hfront
  have hbind := (@readUint16_agrees host _ hmessage).bind
    (fun count => readTimes_agrees hread count) front bytes hfront
  simp only [Option.bind_map] at hbind
  exact hbind

theorem readString_agrees :
    Agrees message (readString host message) textFormat.parse := by
  intro front bytes hfront
  have hbind := (@readUint16_agrees host _ hmessage).bind
    (fun count => readBytes_agrees hmessage count) front bytes hfront
  simp only [Option.bind_map] at hbind
  exact hbind

omit hmessage in
private theorem embed_agrees {α : Type} {read : Reader α}
    {format : Format α} {target : Format Value} {inject : α → Value}
    (hread : Agrees message read format.parse)
    (htarget : ∀ bytes, target.parse bytes =
      (format.parse bytes).map fun parsed => (inject parsed.1, parsed.2)) :
    Agrees message (read >>= fun item => pure (Variant.value (inject item)))
      (fun bytes => (target.parse bytes).map
        fun result => (Variant.value result.1, result.2)) := by
  intro front bytes hfront
  have hmap := (hread front bytes hfront).map fun item => Variant.value (inject item)
  simpa [htarget, Function.comp_def] using hmap

theorem readValue_agrees {dataType : DataType} (hwide : dataType.isWide = false) :
    Agrees message (readValue host dataType message) fun bytes =>
      (dataType.format.parse bytes).map fun result => (.value result.1, result.2) := by
  have hdouble : Agrees message (readScalar (bytesToDouble host · true) message)
      uint64Format.parse :=
    readScalar_agrees hmessage UInt64.ofNat fun _ => bytesToDouble_true host
  have hint : Agrees message (readScalar (bytesToInt64 host · true) message)
      int64Format.parse :=
    readScalar_agrees hmessage (fun number => (UInt64.ofNat number).toInt64)
      fun _ => bytesToInt64_true host
  have huint : Agrees message (readScalar (bytesToUint64 host · true) message)
      uint64Format.parse :=
    readScalar_agrees hmessage UInt64.ofNat fun _ => bytesToUint64_true host
  have hstring := @readString_agrees host _ hmessage
  cases dataType with
  | d => exact embed_agrees hdouble fun _ => rfl
  | D => exact embed_agrees (readArray_agrees hmessage hdouble) fun _ => rfl
  | i => exact embed_agrees hint fun _ => rfl
  | I => exact embed_agrees (readArray_agrees hmessage hint) fun _ => rfl
  | u => exact embed_agrees huint fun _ => rfl
  | U => exact embed_agrees (readArray_agrees hmessage huint) fun _ => rfl
  | s => exact embed_agrees hstring fun _ => rfl
  | S => exact embed_agrees (readArray_agrees hmessage hstring) fun _ => rfl
  | w | W => cases hwide
  | v => exact fun _ _ _ => rfl

theorem readArgument_agrees {char : UInt8} {front bytes : Bytes}
    (hfront : front ++ bytes = message)
    (hnarrow : ∀ dataType, DataType.ofChar? char = some dataType → dataType.isWide = false)
    (hwide : wideTagAhead char bytes = false) :
    AgreesAt (readArgument host char message)
      (((fieldFormat char).parse bytes).map fun result => (.value result.1, result.2))
      front bytes := by
  unfold readArgument fieldFormat
  cases hchar : DataType.ofChar? char with
  | none => rfl
  | some dataType =>
      by_cases hvariant : dataType = .v
      · subst hvariant
        have hread := readBytes_agrees hmessage 1 front bytes hfront
        cases bytes with
        | nil =>
            have hrejects : readBytes message 1 front.length = .rejects := hread
            simp only [AgreesAt, Format.tagged, Option.map_none]
            rw [bind_apply, hrejects, Exec.rejects_bind]
        | cons tag rest =>
            have hsplit : splitBytes? 1 (tag :: rest) = some ([tag], rest) :=
              @splitBytes?_append [tag] 1 rest rfl
            rw [hsplit] at hread
            refine hread.bind (fun _ bytes =>
              ((variantFormat tag).parse bytes).map
                fun result => (Variant.value result.1, result.2)) ?_
            intro item used tail hused heq
            obtain ⟨rfl, rfl⟩ := Prod.mk.inj (Option.some.inj heq)
            have hbehind : (front ++ used) ++ rest = message := by
              rw [List.append_assoc, hused, hfront]
            simp only [List.head?_cons, Option.bind_some, variantFormat]
            cases htag : DataType.ofChar? tag with
            | none => rfl
            | some selected =>
                have hselected : selected.isWide = false := by
                  simpa [wideTagAhead, hchar, htag] using hwide
                have hvalue := @readValue_agrees host _ hmessage _ hselected
                  (front ++ used) rest hbehind
                cases selected <;> first | contradiction | exact hvalue
      · have hvalue := @readValue_agrees host _ hmessage _ (hnarrow dataType hchar)
          front bytes hfront
        cases dataType <;> first | contradiction | exact hvalue

private theorem readArguments_of_parse {signature : DataSignature} {index : Nat}
    {front bytes rest : Bytes} {values : List Value} {args : VariantVector}
    (hfront : front ++ bytes = message) (hnarrow : Narrow signature)
    (hwide : readsWideTag signature bytes = false)
    (hparse : (bodyFormat signature).parse bytes = some (values, rest))
    (hroom : args.length = index + signature.length) :
    readArguments host signature index message front.length args =
      .returns ⟨true, message.length - rest.length,
        args.take index ++ values.map .value⟩ := by
  induction signature generalizing index front bytes values args with
  | nil =>
      cases hparse
      have hlength : args.length = index := hroom
      simp [readArguments, ← hfront, hlength]
  | cons char signature ih =>
      rw [readsWideTag, Bool.or_eq_false_iff] at hwide
      rw [bodyFormat_cons_parse] at hparse
      obtain ⟨⟨value, middle⟩, hvalue, hmap⟩ := Option.bind_eq_some_iff.mp hparse
      obtain ⟨⟨following, tail⟩, hfollowing, heq⟩ := Option.map_eq_some_iff.mp hmap
      obtain ⟨rfl, rfl⟩ := Prod.mk.inj heq
      have htailWide : readsWideTag signature middle = false := by
        simpa [hvalue] using hwide.2
      have hread := @readArgument_agrees host _ hmessage _ _ _ hfront
        (hnarrow char List.mem_cons_self) hwide.1
      rw [hvalue] at hread
      obtain ⟨used, hused, hreturns⟩ := hread
      simp only [List.length_cons] at hroom
      have hset : (args.set index (.value value)).take (index + 1) =
          args.take index ++ [.value value] := by
        rw [List.take_succ_eq_append_getElem (by rw [List.length_set]; omega)]
        simp [List.take_set_of_le (Nat.le_refl index)]
      rw [readArguments, hreturns]
      simp only
      rw [ih (by rw [List.append_assoc, hused, hfront])
        (fun other hmem => hnarrow other (List.mem_cons_of_mem _ hmem)) htailWide
        hfollowing (by rw [List.length_set]; omega), hset]
      simp

private theorem readArguments_of_not_parse {signature : DataSignature} {index : Nat}
    {front bytes : Bytes} {args : VariantVector}
    (hfront : front ++ bytes = message) (hnarrow : Narrow signature)
    (hwide : readsWideTag signature bytes = false)
    (hparse : (bodyFormat signature).parse bytes = none) :
    ∃ decoded, readArguments host signature index message front.length args =
      .returns decoded ∧ decoded.success = false := by
  induction signature generalizing index front bytes args with
  | nil => cases hparse
  | cons char signature ih =>
      rw [readsWideTag, Bool.or_eq_false_iff] at hwide
      rw [bodyFormat_cons_parse] at hparse
      have hread := @readArgument_agrees host _ hmessage _ _ _ hfront
        (hnarrow char List.mem_cons_self) hwide.1
      rw [readArguments]
      cases hvalue : (fieldFormat char).parse bytes with
      | none =>
          rw [hvalue] at hread
          have hrejects : readArgument host char message front.length = .rejects := hread
          rw [hrejects]
          exact ⟨_, rfl, rfl⟩
      | some parsed =>
          obtain ⟨value, middle⟩ := parsed
          rw [hvalue] at hread
          obtain ⟨used, hused, hreturns⟩ := hread
          rw [hreturns]
          simp only [hvalue, Option.bind_some, Option.map_eq_none_iff] at hparse
          exact ih (by rw [List.append_assoc, hused, hfront])
            (fun other hmem => hnarrow other (List.mem_cons_of_mem _ hmem))
            (by simpa [hvalue] using hwide.2) hparse

/-- On a body without wide variant tags `fromBinary` returns true exactly when
the body format parses it, stops where the format stops, and leaves the parsed
values as arguments. -/
theorem fromBinary_of_parse {signature : DataSignature} {rest : Bytes}
    {values : List Value} (args : VariantVector) (hnarrow : Narrow signature)
    (hwide : readsWideTag signature message = false)
    (hparse : (bodyFormat signature).parse message = some (values, rest)) :
    fromBinary host signature message args =
      .returns ⟨true, message.length - rest.length, values.map .value⟩ := by
  have hroom : (resize Variant.default args signature.length).length =
      0 + signature.length := by
    simp only [resize, List.length_append, List.length_take, List.length_replicate]
    omega
  have hread := @readArguments_of_parse host _ hmessage _ _ [] _ _ _ _ rfl hnarrow hwide
    hparse hroom
  simpa [fromBinary] using hread

theorem fromBinary_of_not_parse {signature : DataSignature} (args : VariantVector)
    (hnarrow : Narrow signature) (hwide : readsWideTag signature message = false)
    (hparse : (bodyFormat signature).parse message = none) :
    ∃ decoded, fromBinary host signature message args = .returns decoded ∧
      decoded.success = false :=
  @readArguments_of_not_parse host _ hmessage _ _ [] _ _ rfl hnarrow hwide hparse

end Decoding

def Ensures {α : Type} (read : Reader α) (P : α → Prop) : Prop :=
  ∀ offset, offset < 2 ^ 31 → ∀ item next,
    read offset = .returns (item, next) → P item ∧ next < 2 ^ 31

section Results

variable {host} {α β : Type} {message : Bytes}

theorem Ensures.bind {read : Reader α} {next : α → Reader β} {P : α → Prop}
    {Q : β → Prop} (hread : Ensures read P)
    (hnext : ∀ item, P item → Ensures (next item) Q) : Ensures (read >>= next) Q := by
  intro offset hoffset item final hresult
  rw [bind_apply] at hresult
  cases hfirst : read offset with
  | returns result =>
      obtain ⟨middle, position⟩ := result
      obtain ⟨hmiddle, hposition⟩ := hread offset hoffset middle position hfirst
      simp only [hfirst, Exec.returns_bind] at hresult
      exact hnext middle hmiddle position hposition item final hresult
  | rejects | throws | undefined => simp [hfirst] at hresult

theorem Ensures.pure {item : α} {P : α → Prop} (hitem : P item) :
    Ensures (pure item) P := by
  intro offset hoffset other next hresult
  cases hresult
  exact ⟨hitem, hoffset⟩

theorem Ensures.rejects {P : α → Prop} : Ensures Reader.rejects P := by
  intro offset _ item next hresult
  cases hresult

theorem Ensures.throws {P : α → Prop} : Ensures Reader.throws P := by
  intro offset _ item next hresult
  cases hresult

theorem Ensures.mono {read : Reader α} {P Q : α → Prop} (hread : Ensures read P)
    (himplies : ∀ item, P item → Q item) : Ensures read Q :=
  fun offset hoffset item next hresult =>
    (hread offset hoffset item next hresult).imp_left (himplies item)

theorem readBytes_ensures (count : Nat) :
    Ensures (readBytes message count) fun bytes => bytes.length = count := by
  intro offset _ bytes next hresult
  unfold readBytes at hresult
  split at hresult
  · cases hresult
  · split at hresult
    · cases hresult
    · split at hresult
      · cases hresult
      · cases hresult
        refine ⟨?_, by omega⟩
        simp only [List.length_take, List.length_drop]
        omega

theorem readScalar_ensures (convert : Bytes → α) :
    Ensures (readScalar convert message) fun _ => True :=
  (readBytes_ensures 8).bind fun _ _ => .pure trivial

theorem readUint16_ensures :
    Ensures (readUint16 host message) fun count => count < 65536 :=
  (readBytes_ensures 2).bind fun bytes _ => .pure (bytesToUint16 host bytes true).toNat_lt

theorem readTimes_ensures {read : Reader α} {P : α → Prop} (hread : Ensures read P)
    (count : Nat) :
    Ensures (readTimes read count) fun items =>
      items.length = count ∧ ∀ item ∈ items, P item := by
  induction count with
  | zero => exact .pure (by simp)
  | succ count ih =>
      refine hread.bind fun item hitem => ih.bind fun items hitems => .pure ?_
      rw [List.length_cons, hitems.1, List.forall_mem_cons]
      exact ⟨rfl, hitem, hitems.2⟩

theorem readArray_ensures {read : Reader α} {P : α → Prop} (hread : Ensures read P) :
    Ensures (readArray host read message) fun items =>
      items.length < 65536 ∧ ∀ item ∈ items, P item :=
  readUint16_ensures.bind fun count hcount =>
    (readTimes_ensures hread count).mono fun _ hitems => ⟨hitems.1 ▸ hcount, hitems.2⟩

theorem readString_ensures :
    Ensures (readString host message) fun text => text.length < 65536 :=
  readUint16_ensures.bind fun count hcount =>
    (readBytes_ensures count).mono fun _ hlength => hlength ▸ hcount

theorem readWideString_ensures : Ensures (readWideString host message) fun _ => True := by
  refine readString_ensures.bind fun text _ => ?_
  split
  · exact .throws
  · exact .pure trivial

def VariantFits : Variant → Prop
  | .value content => content.Fits
  | _ => True

theorem readValue_ensures (dataType : DataType) :
    Ensures (readValue host dataType message) VariantFits := by
  cases dataType with
  | d | i | u => exact (readScalar_ensures _).bind fun _ _ => .pure trivial
  | D | I | U =>
      exact (readArray_ensures (readScalar_ensures _)).bind
        fun _ hitems => .pure hitems.1
  | s => exact readString_ensures.bind fun _ htext => .pure htext
  | S => exact (readArray_ensures readString_ensures).bind fun _ htexts => .pure htexts
  | w => exact readWideString_ensures.bind fun _ _ => .pure trivial
  | W => exact (readArray_ensures readWideString_ensures).bind fun _ _ => .pure trivial
  | v => exact .rejects

theorem readArgument_ensures (char : UInt8) :
    Ensures (readArgument host char message) VariantFits := by
  unfold readArgument
  split
  · exact .rejects
  · refine (readBytes_ensures 1).bind fun tag _ => ?_
    split
    · exact .rejects
    · exact .rejects
    · exact readValue_ensures _
  · exact readValue_ensures _

private theorem readArguments_ensures {signature : DataSignature} {index offset : Nat}
    {args : VariantVector} {decoded : Decoded} (hoffset : offset < 2 ^ 31)
    (hroom : args.length = index + signature.length)
    (hargs : ∀ arg ∈ args.take index, VariantFits arg)
    (hresult : readArguments host signature index message offset args =
      .returns decoded) (hsuccess : decoded.success = true) :
    decoded.messageOffset < 2 ^ 31 ∧ decoded.args.length = args.length ∧
      ∀ arg ∈ decoded.args, VariantFits arg := by
  induction signature generalizing index offset args with
  | nil =>
      cases hresult
      have hlength : args.length = index := hroom
      rw [← hlength, List.take_length] at hargs
      exact ⟨hoffset, rfl, hargs⟩
  | cons char signature ih =>
      rw [readArguments] at hresult
      cases hread : readArgument host char message offset with
      | returns result =>
          obtain ⟨arg, next⟩ := result
          obtain ⟨hfits, hnext⟩ := readArgument_ensures char offset hoffset arg next hread
          simp only [hread] at hresult
          simp only [List.length_cons] at hroom
          have hset := @ih _ _ (args.set index arg) hnext
            (by rw [List.length_set]; omega) ?_ hresult
          · rwa [List.length_set] at hset
          · rw [List.take_succ_eq_append_getElem (by rw [List.length_set]; omega)]
            simp only [List.take_set_of_le (Nat.le_refl index), List.getElem_set_self,
              List.mem_append, List.mem_singleton]
            rintro other (hmem | rfl)
            · exact hargs other hmem
            · exact hfits
      | rejects =>
          simp only [hread, Exec.returns.injEq] at hresult
          simp [← hresult] at hsuccess
      | throws | undefined => simp [hread] at hresult

theorem fromBinary_ensures {signature : DataSignature} {args : VariantVector}
    {decoded : Decoded}
    (hresult : fromBinary host signature message args = .returns decoded)
    (hsuccess : decoded.success = true) :
    decoded.messageOffset < 2 ^ 31 ∧ decoded.args.length = signature.length ∧
      ∀ arg ∈ decoded.args, VariantFits arg := by
  have hroom : (resize Variant.default args signature.length).length =
      0 + signature.length := by
    simp only [resize, List.length_append, List.length_take, List.length_replicate]
    omega
  have hread := readArguments_ensures (by omega) hroom (by simp) hresult hsuccess
  rwa [hroom, Nat.zero_add] at hread

end Results

end DataSignature

end Rpcmple.Cpp
