import Rpcmple.Cpp.FromBinary
import Rpcmple.Cpp.ToBinary

namespace Rpcmple.Cpp

open Data

namespace DataSignature

section Restoring

variable {α β : Type} {front bytes more : Bytes} {ok also : Prop}

/-- Reading at the end of `front` gives this item exactly when `ok` holds, and then moves
behind these bytes. -/
structure Restores (read : Reader α) (item : α) (front bytes : Bytes) (ok : Prop) : Prop where
  good : ok → read front.length = .returns (item, (front ++ bytes).length)
  only : ∀ position, read front.length = .returns (item, position) → ok

theorem Restores.congr {read : Reader α} {item : α}
    (hrestores : Restores read item front bytes ok) (hok : ok ↔ also) :
    Restores read item front bytes also where
  good halso := hrestores.good (hok.mpr halso)
  only position hread := hok.mp (hrestores.only position hread)

theorem restores_pure (item : α) : Restores (pure item) item front [] True where
  good _ := by
    rw [List.append_nil]
    rfl
  only _ _ := trivial

theorem Restores.map {read : Reader α} {item : α} {f : α → β}
    (hinjective : Function.Injective f) (hrestores : Restores read item front bytes ok) :
    Restores (read >>= fun item => pure (f item)) (f item) front bytes ok where
  good hok := by
    change (read front.length >>= fun result => Exec.returns (f result.1, result.2)) = _
    rw [hrestores.good hok, Exec.returns_bind]
  only position hread := by
    change (read front.length >>= fun result => Exec.returns (f result.1, result.2)) = _
      at hread
    obtain ⟨⟨other, reached⟩, hother, hpure⟩ := Exec.bind_eq_returns.mp hread
    have hsame : f other = f item := (Prod.mk.inj (Exec.returns.inj hpure)).1
    obtain rfl := hinjective hsame
    exact hrestores.only reached hother

theorem Restores.cons {read : Reader α} {readRest : Reader (List α)} {item : α}
    {items : List α} (hhead : Restores read item front bytes ok)
    (htail : Restores readRest items (front ++ bytes) more also) :
    Restores (do
      let first ← read
      let others ← readRest
      return first :: others) (item :: items) front (bytes ++ more) (ok ∧ also) where
  good hboth := by
    change (read front.length >>= fun result => readRest result.2 >>= fun rest =>
      Exec.returns (result.1 :: rest.1, rest.2)) = _
    rw [hhead.good hboth.1, Exec.returns_bind, htail.good hboth.2, Exec.returns_bind,
      List.append_assoc]
  only position hread := by
    change (read front.length >>= fun result => readRest result.2 >>= fun rest =>
      Exec.returns (result.1 :: rest.1, rest.2)) = _ at hread
    obtain ⟨⟨first, middle⟩, hfirst, hrest⟩ := Exec.bind_eq_returns.mp hread
    obtain ⟨⟨others, final⟩, hothers, hpure⟩ := Exec.bind_eq_returns.mp hrest
    obtain ⟨rfl, rfl⟩ := List.cons.inj (Prod.mk.inj (Exec.returns.inj hpure)).1
    have hok := hhead.only middle hfirst
    have hmiddle := hfirst.symm.trans (hhead.good hok)
    simp only [Exec.returns.injEq, Prod.mk.injEq, true_and] at hmiddle
    rw [hmiddle] at hothers
    exact ⟨hok, htail.only final hothers⟩

theorem Restores.after {read : Reader α} {next : α → Reader β} {item : α} {result : β}
    (hread : read front.length = .returns (item, (front ++ bytes).length))
    (hnext : Restores (next item) result (front ++ bytes) more ok) :
    Restores (read >>= next) result front (bytes ++ more) ok where
  good hok := by
    change (read front.length >>= fun first => next first.1 first.2) = _
    rw [hread, Exec.returns_bind, hnext.good hok, List.append_assoc]
  only position hresult := by
    change (read front.length >>= fun first => next first.1 first.2) = _ at hresult
    rw [hread, Exec.returns_bind] at hresult
    exact hnext.only position hresult

theorem restores_times {read : Reader α} {emit : α → Bytes} {keeps : α → Prop}
    {message : Bytes} {items : List α}
    (hread : ∀ item ∈ items, ∀ front rest, front ++ emit item ++ rest = message →
      Restores read item front (emit item) (keeps item))
    {rest : Bytes} (hmessage : front ++ items.flatMap emit ++ rest = message) :
    Restores (readTimes read items.length) items front (items.flatMap emit)
      (∀ item ∈ items, keeps item) := by
  induction items generalizing front with
  | nil => exact (restores_pure []).congr (by simp)
  | cons item items ih =>
      rw [List.flatMap_cons] at hmessage ⊢
      have hhead := hread item List.mem_cons_self front (items.flatMap emit ++ rest)
        (by simpa only [List.append_assoc] using hmessage)
      have htail := @ih (front ++ emit item)
        (fun other hmem => hread other (List.mem_cons_of_mem _ hmem))
        (by simpa only [List.append_assoc] using hmessage)
      exact (hhead.cons htail).congr List.forall_mem_cons.symm

theorem Agrees.reads {read : Reader α} {parse : Bytes → Option (α × Bytes)}
    {message rest : Bytes} {item : α} (hread : Agrees message read parse)
    (hparse : parse (bytes ++ rest) = some (item, rest))
    (hmessage : front ++ bytes ++ rest = message) :
    read front.length = .returns (item, (front ++ bytes).length) := by
  have hagree := hread front (bytes ++ rest) (by rw [← List.append_assoc, hmessage])
  rw [hparse] at hagree
  obtain ⟨used, hused, hreturns⟩ := hagree
  rw [hreturns, List.append_cancel_right hused]

end Restoring

section Wide

variable {sender receiver : Platform} {message : Bytes}

/-- The two directions of the converter undo each other where they convert. -/
def Inverse (sender receiver : Platform) : Prop :=
  ∀ text bytes, sender.toBytes text = some bytes ↔ receiver.fromBytes bytes = some text

def utf8 (host : Platform) (text : WString) : Bytes := (host.toBytes text).getD []

theorem utf8_of_toBytes {text : WString} {bytes : Bytes}
    (hbytes : sender.toBytes text = some bytes) : utf8 sender text = bytes := by
  rw [utf8, hbytes, Option.getD_some]

theorem readUint16_restores (hsize : message.length < 2 ^ 31) {front rest : Bytes}
    {count : Nat} (hcount : count < 65536)
    (hmessage : front ++ leBytes 2 count ++ rest = message) :
    readUint16 receiver message front.length =
      .returns (count, (front ++ leBytes 2 count).length) := by
  refine (readUint16_agrees hsize).reads ?_ hmessage
  simp only [splitBytes?_append rest (length_leBytes 2 count), Option.map_some]
  rw [leValue_leBytes hcount]

private theorem takeWhile_eq_iff {bytes : Bytes} :
    bytes.takeWhile (· ≠ 0) = bytes ↔ 0 ∉ bytes := by
  rw [List.takeWhile_eq_self_iff]
  constructor
  · intro hall hzero
    simpa using hall 0 hzero
  · intro hzero byte hmem
    have hdifferent : byte ≠ 0 := fun heq => hzero (heq ▸ hmem)
    simpa using hdifferent

theorem readWideString_restores (hsize : message.length < 2 ^ 31)
    (hinverse : Inverse sender receiver) {text : WString} {bytes : Bytes}
    (hbytes : sender.toBytes text = some bytes) (hfits : bytes.length < 65536)
    {front rest : Bytes} (hmessage : front ++ Value.textBytes bytes ++ rest = message) :
    Restores (readWideString receiver message) text front (Value.textBytes bytes)
      (0 ∉ bytes) := by
  have hread : readString receiver message front.length =
      .returns (bytes, (front ++ Value.textBytes bytes).length) :=
    (readString_agrees hsize).reads (textFormat.parse_emit rest hfits) hmessage
  have hwide : readWideString receiver message front.length =
      (receiver.fromBytes (bytes.takeWhile (· ≠ 0))).elim .throws fun strVal =>
        .returns (strVal, (front ++ Value.textBytes bytes).length) := by
    rw [readWideString, bind_apply, hread, Exec.returns_bind]
    cases receiver.fromBytes (bytes.takeWhile (· ≠ 0)) with
    | none => rfl
    | some strVal => rfl
  rw [← takeWhile_eq_iff]
  constructor
  · intro hwhole
    rw [hwide, hwhole, (hinverse text bytes).mp hbytes, Option.elim_some]
  · intro position hreturns
    cases hconvert : receiver.fromBytes (bytes.takeWhile (· ≠ 0)) with
    | none =>
        rw [hwide, hconvert] at hreturns
        cases hreturns
    | some strVal =>
        rw [hwide, hconvert] at hreturns
        obtain ⟨rfl, -⟩ := Prod.mk.inj (Exec.returns.inj hreturns)
        have hcut := (hinverse strVal _).mpr hconvert
        rw [hbytes] at hcut
        exact (Option.some.inj hcut).symm

def wideTexts : Variant → List WString
  | .wstring text => [text]
  | .wstrings texts => texts
  | .value _ => []

/-- No UTF-8 form has a zero byte, which is the form of code point 0. -/
def ZeroFree (host : Platform) (ret : Variant) : Prop :=
  ∀ text ∈ wideTexts ret, 0 ∉ utf8 host text

/-- What the other side gets for a field: variants carry no wide text. -/
def restored (char : UInt8) (ret : Variant) (value : Value) : Variant :=
  if DataType.ofChar? char = some .v then .value value else ret

private theorem strings_eq {texts : List WString} {strings : List Bytes}
    (hstrings : List.Forall₂ (fun text bytes => sender.toBytes text = some bytes)
      texts strings) : strings = texts.map (utf8 sender) := by
  induction hstrings with
  | nil => rfl
  | cons hbytes _ ih => rw [List.map_cons, utf8_of_toBytes hbytes, ← ih]

private theorem converted_of_mem {texts : List WString} {strings : List Bytes}
    (hstrings : List.Forall₂ (fun text bytes => sender.toBytes text = some bytes)
      texts strings) {text : WString} (hmem : text ∈ texts) :
    sender.toBytes text = some (utf8 sender text) := by
  induction hstrings with
  | nil => cases hmem
  | cons hbytes _ ih =>
      rcases List.mem_cons.mp hmem with rfl | hmem
      · rw [utf8_of_toBytes hbytes, hbytes]
      · exact ih hmem

theorem readWideValue_restores (hsize : message.length < 2 ^ 31)
    (hinverse : Inverse sender receiver) {ret : Variant} {value : Value}
    (hwide : (variantType ret).isWide = true) (hlowers : Lowers sender ret value)
    (hfits : value.Fits) {front rest : Bytes}
    (hmessage : front ++ value.payload ++ rest = message) :
    Restores (readValue receiver (variantType ret) message) ret front value.payload
      (ZeroFree sender ret) := by
  cases hlowers with
  | value => cases value <;> cases hwide
  | @wstring text bytes hbytes =>
      have hread := readWideString_restores hsize hinverse hbytes hfits hmessage
      have hzero : ZeroFree sender (.wstring text) ↔ 0 ∉ bytes := by
        rw [ZeroFree, wideTexts, List.forall_mem_singleton, utf8_of_toBytes hbytes]
      exact (hread.map fun _ _ => Variant.wstring.inj).congr hzero.symm
  | @wstrings texts strings hstrings =>
      obtain ⟨hcount, heach⟩ := hfits
      have hconvert := fun {text : WString} (hmem : text ∈ texts) =>
        converted_of_mem hstrings hmem
      obtain rfl := strings_eq hstrings
      have hpayload : (Value.strings (texts.map (utf8 sender))).payload =
          leBytes 2 texts.length ++
            texts.flatMap fun text => Value.textBytes (utf8 sender text) := by
        rw [Value.payload, List.length_map, List.flatMap_map]
      rw [List.length_map] at hcount
      rw [hpayload, ← List.append_assoc] at hmessage
      rw [hpayload]
      have hlength := @readUint16_restores receiver _ hsize front
        ((texts.flatMap fun text => Value.textBytes (utf8 sender text)) ++ rest)
        texts.length hcount (by rw [← List.append_assoc]; exact hmessage)
      have htexts : Restores (readTimes (readWideString receiver message) texts.length) texts
          (front ++ leBytes 2 texts.length)
          (texts.flatMap fun text => Value.textBytes (utf8 sender text))
          (∀ text ∈ texts, 0 ∉ utf8 sender text) := by
        refine restores_times ?_ hmessage
        intro text hmem before behind hwhole
        exact readWideString_restores hsize hinverse (hconvert hmem)
          (heach _ (List.mem_map_of_mem hmem)) hwhole
      have harray := Restores.after hlength htexts
      exact harray.map fun _ _ => Variant.wstrings.inj

theorem readArgument_restores (hsize : message.length < 2 ^ 31)
    (hinverse : Inverse sender receiver) {char : UInt8} {ret : Variant} {value : Value}
    (hmatches : FieldMatches char ret) (hlowers : Lowers sender ret value)
    (hfits : value.Fits) {front rest : Bytes}
    (hmessage : front ++ (fieldFormat char).emit value ++ rest = message) :
    Restores (readArgument receiver char message) (restored char ret value) front
      ((fieldFormat char).emit value)
      (DataType.ofChar? char ≠ some .v → ZeroFree sender ret) := by
  obtain ⟨dataType, hchar, htype⟩ := hmatches
  have hadmits : dataType.Admits value := by
    rcases htype with rfl | rfl
    · exact .inl rfl
    · exact .inr (hlowers.dataType sender)
  have hvalid := (fieldFormat_valid_iff char value).mpr ⟨dataType, hchar, hadmits, hfits⟩
  by_cases hwide : dataType.isWide = true
  · have hplain : dataType ≠ .v := by
      rintro rfl
      cases hwide
    obtain rfl := htype.resolve_left hplain
    have hargument : readArgument receiver char message =
        readValue receiver (variantType ret) message := by
      rw [readArgument, hchar]
      cases hvariant : variantType ret <;> first | rfl | contradiction
    have hrestored : restored char ret value = ret := by
      rw [restored, hchar, if_neg fun hsome => hplain (Option.some.inj hsome)]
    have hemit : (fieldFormat char).emit value = value.payload := by
      rw [fieldFormat_emit hchar hadmits, DataType.fieldBytes, if_neg hplain]
    rw [hemit] at hmessage ⊢
    rw [hargument, hrestored]
    refine (readWideValue_restores hsize hinverse hwide hlowers hfits hmessage).congr ?_
    rw [hchar]
    constructor
    · intro hzero _
      exact hzero
    · intro hzero
      exact hzero fun hsome => hplain (Option.some.inj hsome)
  · have hnarrow : ∀ other, DataType.ofChar? char = some other → other.isWide = false := by
      intro other hother
      rw [hchar] at hother
      rw [← Option.some.inj hother]
      simpa using hwide
    have htag : wideTagAhead char ((fieldFormat char).emit value ++ rest) = false := by
      have hbody : (bodyFormat [char]).Valid [value] :=
        bodyFormat_valid_iff.mpr
          ⟨.cons ⟨dataType, hchar, hadmits⟩ .nil, by simpa using hfits⟩
      have hreads := readsWideTag_emit hbody rest
      rw [bodyFormat_cons_emit, bodyFormat_nil_emit, List.append_nil, readsWideTag,
        Bool.or_eq_false_iff] at hreads
      exact hreads.1
    have hrestored : restored char ret value = .value value := by
      rw [restored]
      split
      · rfl
      · rename_i hplain
        obtain rfl := htype.resolve_left fun hvariant => hplain (hvariant ▸ hchar)
        cases hlowers with
        | value => rfl
        | wstring | wstrings => exact absurd rfl hwide
    have hagree := @readArgument_agrees receiver _ hsize char front
      ((fieldFormat char).emit value ++ rest) (by rw [← List.append_assoc, hmessage])
      hnarrow htag
    rw [(fieldFormat char).parse_emit rest hvalid] at hagree
    obtain ⟨used, hused, hreturns⟩ := hagree
    rw [List.append_cancel_right hused] at hreturns
    rw [hrestored]
    refine ⟨fun _ => hreturns, ?_⟩
    intro _ _ hplain
    obtain rfl := htype.resolve_left fun hvariant => hplain (hvariant ▸ hchar)
    cases hlowers with
    | value => exact fun _ hmem => absurd hmem List.not_mem_nil
    | wstring | wstrings => exact absurd rfl hwide

def readAll (host : Platform) : DataSignature → Bytes → Reader VariantVector
  | [], _ => pure []
  | char :: signature, message => do
      let arg ← readArgument host char message
      let args ← readAll host signature message
      return arg :: args

theorem readArguments_success {signature : DataSignature} {index offset : Nat}
    {args : VariantVector} {decoded : Decoded}
    (hroom : args.length = index + signature.length) :
    readArguments receiver signature index message offset args = .returns decoded ∧
        decoded.success = true ↔
      ∃ items position, readAll receiver signature message offset =
          .returns (items, position) ∧
        decoded = ⟨true, position, args.take index ++ items⟩ := by
  induction signature generalizing index offset args with
  | nil =>
      have hwhole : args.take index = args := List.take_of_length_le hroom.le
      rw [readArguments]
      constructor
      · intro hdecoded
        refine ⟨[], offset, rfl, ?_⟩
        rw [List.append_nil, hwhole]
        exact (Exec.returns.inj hdecoded.1).symm
      · rintro ⟨items, position, hitems, rfl⟩
        obtain ⟨rfl, rfl⟩ := Prod.mk.inj (Exec.returns.inj hitems)
        rw [List.append_nil, hwhole]
        exact ⟨rfl, rfl⟩
  | cons char signature ih =>
      simp only [List.length_cons] at hroom
      have hstep : readAll receiver (char :: signature) message offset =
          readArgument receiver char message offset >>= fun first =>
            readAll receiver signature message first.2 >>= fun rest =>
              Exec.returns (first.1 :: rest.1, rest.2) := rfl
      rw [readArguments, hstep]
      cases hread : readArgument receiver char message offset with
      | returns result =>
          obtain ⟨arg, middle⟩ := result
          have hset : (args.set index arg).take (index + 1) = args.take index ++ [arg] := by
            rw [List.take_succ_eq_append_getElem (by rw [List.length_set]; omega)]
            simp [List.take_set_of_le (Nat.le_refl index)]
          simp only [Exec.returns_bind]
          rw [@ih (index + 1) middle (args.set index arg) (by rw [List.length_set]; omega),
            hset]
          constructor
          · rintro ⟨items, position, hitems, rfl⟩
            refine ⟨arg :: items, position, by rw [hitems]; rfl, ?_⟩
            rw [List.append_assoc]
            rfl
          · rintro ⟨items, position, hitems, rfl⟩
            obtain ⟨⟨rest, final⟩, hrest, hpure⟩ := Exec.bind_eq_returns.mp hitems
            obtain ⟨rfl, rfl⟩ := Prod.mk.inj (Exec.returns.inj hpure)
            refine ⟨rest, final, hrest, ?_⟩
            rw [List.append_assoc]
            rfl
      | rejects =>
          refine iff_of_false ?_ (by simp)
          rintro ⟨hreturns, hsuccess⟩
          rw [← Exec.returns.inj hreturns] at hsuccess
          cases hsuccess
      | throws | undefined => exact iff_of_false (by simp) (by simp)

def restoredAll : DataSignature → VariantVector → List Value → VariantVector
  | char :: signature, ret :: rets, value :: values =>
      restored char ret value :: restoredAll signature rets values
  | _, _, _ => []

def ZeroFreeFields (host : Platform) (signature : DataSignature) (rets : VariantVector) :
    Prop :=
  ∀ field ∈ signature.zip rets, DataType.ofChar? field.1 ≠ some .v → ZeroFree host field.2

theorem readAll_restores (hsize : message.length < 2 ^ 31)
    (hinverse : Inverse sender receiver) {signature : DataSignature} {rets : VariantVector}
    {values : List Value} (hrepresents : Represents sender signature rets values)
    (hfits : ∀ value ∈ values, value.Fits) {front rest : Bytes}
    (hmessage : front ++ (bodyFormat signature).emit values ++ rest = message) :
    Restores (readAll receiver signature message) (restoredAll signature rets values) front
      ((bodyFormat signature).emit values) (ZeroFreeFields sender signature rets) := by
  induction hrepresents generalizing front with
  | nil surplus => exact (restores_pure []).congr (by simp [ZeroFreeFields])
  | @cons char ret value signature rets values hmatches hlowers _ ih =>
      rw [bodyFormat_cons_emit] at hmessage ⊢
      have hhead := @readArgument_restores _ _ _ hsize hinverse _ _ _ hmatches hlowers
        (hfits _ List.mem_cons_self) front ((bodyFormat signature).emit values ++ rest)
        (by simpa only [List.append_assoc] using hmessage)
      have htail := @ih (fun other hmem => hfits other (List.mem_cons_of_mem _ hmem))
        (front ++ (fieldFormat char).emit value)
        (by simpa only [List.append_assoc] using hmessage)
      refine (hhead.cons htail).congr ?_
      simp only [ZeroFreeFields, List.zip_cons_cons, List.forall_mem_cons]

end Wide

/-- The values come back: as they were, or from a variant as their UTF-8 form. -/
def ComesBack (sender receiver : Platform) (signature : DataSignature) (rets : VariantVector)
    (values : List Value) (buffer : Bytes) (args : VariantVector) : Prop :=
  ∃ message, toBinary sender signature rets buffer = .next message ∧
    message.defined = true ∧ ∃ decoded,
      fromBinary receiver signature message.message args = .returns decoded ∧
      decoded.success = true ∧ decoded.args = restoredAll signature rets values

/-- The UTF-8 forms, and the arrays of them, have at most 65535 elements. -/
def WideFits (rets : VariantVector) (values : List Value) : Prop :=
  ∀ field ∈ rets.zip values, (variantType field.1).isWide = true → field.2.Fits

theorem fits_of_restored {host : Platform} {signature : DataSignature} {rets : VariantVector}
    {values : List Value} (hrepresents : Represents host signature rets values)
    (hwide : WideFits rets values)
    (hfits : ∀ arg ∈ restoredAll signature rets values, VariantFits arg) :
    ∀ value ∈ values, value.Fits := by
  induction hrepresents with
  | nil => exact fun value hmem => absurd hmem List.not_mem_nil
  | @cons char ret value signature rets values _ hlowers _ ih =>
      obtain ⟨hhead, htail⟩ := List.forall_mem_cons.mp hwide
      obtain ⟨hfirst, hrest⟩ := List.forall_mem_cons.mp hfits
      refine List.forall_mem_cons.mpr ⟨?_, ih htail hrest⟩
      rw [restored] at hfirst
      split at hfirst
      · exact hfirst
      · cases hlowers with
        | value => exact hfirst
        | wstring | wstrings => exact hhead rfl

/-- Wide text survives, except that a field of type `w` or `W` is cut at a code point 0;
all else has to fit, and 2 GiB are too much. -/
theorem wide_comesBack_iff {sender receiver : Platform} (hinverse : Inverse sender receiver)
    {signature : DataSignature} {rets : VariantVector} {values : List Value}
    (hrepresents : Represents sender signature rets values) (hwide : WideFits rets values)
    (buffer : Bytes) (args : VariantVector) :
    ComesBack sender receiver signature rets values buffer args ↔
      ZeroFreeFields sender signature rets ∧ (∀ value ∈ values, value.Fits) ∧
        bodySize signature values < 2 ^ 31 := by
  have hroom : (resize Variant.default args signature.length).length =
      0 + signature.length := by
    simp only [resize, List.length_append, List.length_take, List.length_replicate]
    omega
  have hread : (∀ value ∈ values, value.Fits) →
      ((bodyFormat signature).emit values).length < 2 ^ 31 →
      Restores (readAll receiver signature ((bodyFormat signature).emit values))
        (restoredAll signature rets values) [] ((bodyFormat signature).emit values)
        (ZeroFreeFields sender signature rets) := by
    intro hfits hsize
    exact @readAll_restores _ _ _ hsize hinverse _ _ _ hrepresents hfits [] [] (by simp)
  rw [← length_bodyFormat_emit (hrepresents.typed sender), ComesBack]
  constructor
  · rintro ⟨message, hmessage, hdefined, decoded, hdecoded, hsuccess, hargs⟩
    have hfits : ∀ value ∈ values, value.Fits := by
      apply fits_of_restored hrepresents hwide
      rw [← hargs]
      exact (fromBinary_ensures hdecoded hsuccess).2.2
    have hencoded := toBinary_of_represents hrepresents hfits buffer
    obtain rfl := Outcome.next.inj (hencoded.symm.trans hmessage)
    have hsize := of_decide_eq_true hdefined
    obtain ⟨items, position, hitems, rfl⟩ :=
      (readArguments_success hroom).mp ⟨hdecoded, hsuccess⟩
    rw [List.take_zero, List.nil_append] at hargs
    subst hargs
    exact ⟨(hread hfits hsize).only position hitems, hfits, hsize⟩
  · rintro ⟨hzero, hfits, hsize⟩
    refine ⟨_, toBinary_of_represents hrepresents hfits buffer, decide_eq_true hsize, ?_⟩
    obtain ⟨hdecoded, hsuccess⟩ :=
      (readArguments_success hroom).mpr ⟨_, _, (hread hfits hsize).good hzero, rfl⟩
    exact ⟨_, hdecoded, hsuccess, by simp⟩

private def sevenBitHost : Platform where
  isMachineLittleEndian := true
  toBytes text :=
    if text.all (· < 128) then some (text.map UInt32.toUInt8) else none
  fromBytes bytes :=
    if bytes.all (· < 128) then some (bytes.map UInt8.toUInt32) else none

private theorem sevenBit_widened {bytes : Bytes} (hsmall : ∀ byte ∈ bytes, byte < 128) :
    (∀ char ∈ bytes.map UInt8.toUInt32, char < 128) ∧
      (bytes.map UInt8.toUInt32).map UInt32.toUInt8 = bytes := by
  constructor
  · intro char hmem
    obtain ⟨byte, hbyte, rfl⟩ := List.mem_map.mp hmem
    have hlow := hsmall byte hbyte
    rw [UInt8.lt_iff_toNat_lt] at hlow
    rw [UInt32.lt_iff_toNat_lt, UInt8.toNat_toUInt32]
    exact hlow
  · rw [List.map_map, List.map_congr_left (g := id) (fun byte _ => by simp), List.map_id]

private theorem sevenBit_narrowed {text : WString} (hsmall : ∀ char ∈ text, char < 128) :
    (∀ byte ∈ text.map UInt32.toUInt8, byte < 128) ∧
      (text.map UInt32.toUInt8).map UInt8.toUInt32 = text := by
  have hround : ∀ char ∈ text, char.toUInt8.toNat = char.toNat := by
    intro char hmem
    have hlow := hsmall char hmem
    rw [UInt32.lt_iff_toNat_lt] at hlow
    rw [UInt32.toNat_toUInt8]
    exact Nat.mod_eq_of_lt (lt_of_lt_of_le hlow (by decide))
  constructor
  · intro byte hmem
    obtain ⟨char, hchar, rfl⟩ := List.mem_map.mp hmem
    have hlow := hsmall char hchar
    rw [UInt32.lt_iff_toNat_lt] at hlow
    rw [UInt8.lt_iff_toNat_lt, hround char hchar]
    exact hlow
  · rw [List.map_map]
    refine (List.map_congr_left fun char hmem => ?_).trans (List.map_id text)
    apply UInt32.toNat_inj.mp
    rw [Function.comp_apply, UInt8.toNat_toUInt32, hround char hmem, id_eq]

private theorem sevenBitHost_inverse : Inverse sevenBitHost sevenBitHost := by
  intro text bytes
  simp only [sevenBitHost, List.all_eq_true, decide_eq_true_eq, Option.ite_none_right_eq_some,
    Option.some.injEq]
  constructor
  · rintro ⟨hsmall, rfl⟩
    exact sevenBit_narrowed hsmall
  · rintro ⟨hsmall, rfl⟩
    exact sevenBit_widened hsmall

private theorem represents_wstring (text : WString) {bytes : Bytes}
    (hbytes : sevenBitHost.toBytes text = some bytes) :
    Represents sevenBitHost [DataType.w.char] [.wstring text] [.string bytes] :=
  .cons ⟨.w, DataType.ofChar?_char .w, .inr rfl⟩ (.wstring hbytes) (.nil [])

theorem wide_comesBack_letter :
    ComesBack sevenBitHost sevenBitHost [DataType.w.char] [.wstring [97]] [.string [97]]
        [] [] ↔
      ZeroFreeFields sevenBitHost [DataType.w.char] [.wstring [97]] ∧
        (∀ value ∈ [Value.string [97]], value.Fits) ∧
        bodySize [DataType.w.char] [.string [97]] < 2 ^ 31 :=
  wide_comesBack_iff sevenBitHost_inverse (represents_wstring [97] rfl)
    (fun field hmem _ => by
      rw [List.mem_singleton.mp hmem]
      decide) [] []

/-- A text with a code point 0 in front comes back empty. -/
theorem wide_cut_at_zero :
    Inverse sevenBitHost sevenBitHost ∧
    toBinary sevenBitHost [DataType.w.char] [.wstring [0, 97]] [] =
      .next ⟨[2, 0, 0, 97], 4, true⟩ ∧
    fromBinary sevenBitHost [DataType.w.char] [2, 0, 0, 97] [] =
      .returns ⟨true, 4, [.wstring []]⟩ :=
  ⟨sevenBitHost_inverse, by decide, by decide⟩

end DataSignature

end Rpcmple.Cpp
