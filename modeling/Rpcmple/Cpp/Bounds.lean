import Rpcmple.Cpp.BufferReuse

namespace Rpcmple.Cpp

open Data

/-- How a piece of `toBinary` ends: it goes on, it returns false, it does so behind the
room for a count, or the converter throws. -/
inductive Ending where
  | goesOn
  | refuses
  | tooLong
  | throws
  deriving DecidableEq, Repr

/-- The writes of a piece of `toBinary`, each with the room made for it. -/
structure Trace where
  puts : List (Nat × Bytes)
  ending : Ending
  deriving DecidableEq, Repr

namespace Trace

def andThen (first second : Trace) : Trace :=
  if first.ending = .goesOn then ⟨first.puts ++ second.puts, second.ending⟩ else first

def forEach {α : Type} (body : α → Trace) : List α → Trace
  | [] => ⟨[], .goesOn⟩
  | item :: items => (body item).andThen (forEach body items)

def run (puts : List (Nat × Bytes)) (buffer : OutBuffer) : OutBuffer :=
  puts.foldl (fun buffer put => buffer.put put.1 put.2) buffer

def final (trace : Trace) (buffer : OutBuffer) : OutBuffer :=
  if trace.ending = .tooLong then (run trace.puts buffer).reserve 2
  else run trace.puts buffer

def outcome (trace : Trace) (buffer : OutBuffer) : Outcome OutBuffer :=
  match trace.ending with
  | .goesOn => .next (trace.final buffer)
  | .refuses | .tooLong => .fail (trace.final buffer)
  | .throws => .crash

theorem run_append (first second : List (Nat × Bytes)) (buffer : OutBuffer) :
    run (first ++ second) buffer = run second (run first buffer) :=
  List.foldl_append

theorem andThen_outcome (first second : Trace) (buffer : OutBuffer) :
    (first.andThen second).outcome buffer = (first.outcome buffer).andThen second.outcome := by
  unfold andThen outcome final
  cases hfirst : first.ending with
  | goesOn =>
      rw [if_pos rfl]
      simp only [run_append]
      rfl
  | refuses | tooLong | throws =>
      rw [if_neg (by simp), hfirst]
      rfl

theorem forEach_outcome {α : Type} {write : α → OutBuffer → Outcome OutBuffer}
    {body : α → Trace} (hbody : ∀ item, write item = (body item).outcome) (items : List α) :
    Outcome.forEach write items = (forEach body items).outcome := by
  funext buffer
  induction items generalizing buffer with
  | nil => rfl
  | cons item items ih =>
      rw [Outcome.forEach_cons, forEach, andThen_outcome, hbody]
      apply congrArg
      funext middle
      exact ih middle

end Trace

namespace DataSignature

variable (host : Platform)

def scalarTrace (bytes : Bytes) : Trace := ⟨[(8, bytes)], .goesOn⟩

def countTrace (length : Nat) : Trace :=
  if length > 65536 then ⟨[], .tooLong⟩
  else ⟨[(2, uint16ToBytes host (UInt16.ofNat length) true)], .goesOn⟩

def arrayTrace {α : Type} (body : α → Trace) (items : List α) : Trace :=
  (countTrace host items.length).andThen
    (Trace.forEach body (items.take (UInt16.ofNat items.length).toNat))

def stringTrace (strVal : Bytes) : Trace :=
  (countTrace host strVal.length).andThen
    ⟨[((UInt16.ofNat strVal.length).toNat, strVal)], .goesOn⟩

def wideStringTrace (wstrVal : WString) : Trace :=
  match host.toBytes wstrVal with
  | none => ⟨[], .throws⟩
  | some strVal => stringTrace host strVal

def valueTrace (dataType : DataType) (ret : Variant) : Trace :=
  match dataType, ret with
  | .d, .value (.double dblVal) => scalarTrace (doubleToBytes host dblVal true)
  | .D, .value (.doubles dblArr) =>
      arrayTrace host (fun dblVal => scalarTrace (doubleToBytes host dblVal true)) dblArr
  | .i, .value (.int intVal) => scalarTrace (int64ToBytes host intVal true)
  | .I, .value (.ints intArr) =>
      arrayTrace host (fun intVal => scalarTrace (int64ToBytes host intVal true)) intArr
  | .u, .value (.uint uintVal) => scalarTrace (uint64ToBytes host uintVal true)
  | .U, .value (.uints uintArr) =>
      arrayTrace host (fun uintVal => scalarTrace (uint64ToBytes host uintVal true)) uintArr
  | .w, .wstring wstrVal => wideStringTrace host wstrVal
  | .W, .wstrings wstrArrVal => arrayTrace host (wideStringTrace host) wstrArrVal
  | .s, .value (.string strVal) => stringTrace host strVal
  | .S, .value (.strings strArrVal) => arrayTrace host (stringTrace host) strArrVal
  | _, _ => ⟨[], .refuses⟩

def returnTrace (char : UInt8) (ret : Variant) : Trace :=
  match DataType.ofChar? char with
  | none => ⟨[], .refuses⟩
  | some .v =>
      Trace.andThen ⟨[(1, [(variantType ret).narrow.char])], .goesOn⟩
        (valueTrace host (variantType ret) ret)
  | some dataType => valueTrace host dataType ret

def fieldsTrace (signature : DataSignature) (rets : VariantVector) : Trace :=
  Trace.forEach (fun field => returnTrace host field.1 field.2) (signature.zip rets)

variable {host}

private theorem writeCount_trace (length : Nat) :
    writeCount host length = (countTrace host length).outcome := by
  funext buffer
  unfold writeCount countTrace
  by_cases hlong : length > 65536
  · simp only [if_pos hlong]
    rfl
  · simp only [if_neg hlong]
    rfl

private theorem writeArray_trace {α : Type} {write : α → OutBuffer → Outcome OutBuffer}
    {body : α → Trace} (hbody : ∀ item, write item = (body item).outcome)
    (items : List α) (buffer : OutBuffer) :
    ((writeCount host items.length buffer).andThen
      (Outcome.forEach write (items.take (UInt16.ofNat items.length).toNat))) =
      (arrayTrace host body items).outcome buffer := by
  rw [arrayTrace, Trace.andThen_outcome, writeCount_trace, Trace.forEach_outcome hbody]

private theorem writeScalars_trace {α : Type} (toBytes : α → Bytes) (items : List α) :
    writeScalars host toBytes items =
      (arrayTrace host (fun item => scalarTrace (toBytes item)) items).outcome := by
  funext buffer
  exact @writeArray_trace host α (fun item buffer => .next (writeScalar (toBytes item) buffer))
    (fun item => scalarTrace (toBytes item)) (fun _ => rfl) items buffer

private theorem writeString_trace (strVal : Bytes) :
    writeString host strVal = (stringTrace host strVal).outcome := by
  funext buffer
  rw [stringTrace, Trace.andThen_outcome, ← writeCount_trace]
  rfl

private theorem writeWideString_trace (wstrVal : WString) :
    writeWideString host wstrVal = (wideStringTrace host wstrVal).outcome := by
  funext buffer
  unfold writeWideString wideStringTrace
  cases host.toBytes wstrVal with
  | none => rfl
  | some strVal => exact congrFun (writeString_trace strVal) buffer

theorem writeValue_trace (dataType : DataType) (ret : Variant) :
    writeValue host dataType ret = (valueTrace host dataType ret).outcome := by
  funext buffer
  cases ret with
  | value content =>
      cases content <;> cases dataType <;> first
        | exact congrFun (writeScalars_trace _ _) buffer
        | exact congrFun (writeString_trace _) buffer
        | exact writeArray_trace writeString_trace _ buffer
        | rfl
  | wstring wstrVal =>
      cases dataType <;> first
        | exact congrFun (writeWideString_trace wstrVal) buffer
        | rfl
  | wstrings wstrArrVal =>
      cases dataType <;> first
        | exact writeArray_trace writeWideString_trace wstrArrVal buffer
        | rfl

theorem writeReturn_trace (char : UInt8) (ret : Variant) :
    writeReturn host char ret = (returnTrace host char ret).outcome := by
  funext buffer
  unfold writeReturn returnTrace
  cases DataType.ofChar? char with
  | none => rfl
  | some dataType =>
      cases dataType with
      | v =>
          simp only
          rw [Trace.andThen_outcome, writeValue_trace]
          rfl
      | _ => exact congrFun (writeValue_trace _ _) buffer

/-- `toBinary` makes these writes and no others. -/
theorem writeReturns_trace {signature : DataSignature} {rets : VariantVector}
    (hlength : rets.length = signature.length) :
    writeReturns host signature rets = (fieldsTrace host signature rets).outcome := by
  funext buffer
  induction signature generalizing rets buffer with
  | nil => rfl
  | cons char signature ih =>
      cases rets with
      | nil => cases hlength
      | cons ret rets =>
          rw [writeReturns, fieldsTrace, List.zip_cons_cons, Trace.forEach,
            Trace.andThen_outcome, writeReturn_trace]
          apply congrArg
          funext middle
          exact ih (Nat.succ.inj hlength) middle

/-- Room is made for all of the bytes, or for none of 65536. -/
def Roomy (put : Nat × Bytes) : Prop :=
  put.2.length = put.1 ∧ put.1 < 65536 ∨ put.2.length = 65536 ∧ put.1 = 0

/-- A string of 65536 bytes needs as many that the buffer has behind the offset.  What is
put into the buffer takes from them, unless it makes the buffer grow. -/
def Spacious : Nat → List (Nat × Bytes) → Prop
  | _, [] => True
  | spare, (room, bytes) :: puts =>
      (bytes.length = 65536 → 65536 ≤ spare) ∧
        Spacious (if spare < room then spare else spare - room) puts

theorem put_defined {buffer : OutBuffer} {room : Nat} {bytes : Bytes}
    (hroomy : Roomy (room, bytes)) (hinside : buffer.replyOffset ≤ buffer.message.length) :
    (buffer.put room bytes).defined = true ↔
      buffer.defined = true ∧
        (bytes.length = 65536 → 65536 ≤ buffer.message.length - buffer.replyOffset) ∧
        buffer.replyOffset + room < 2 ^ 31 := by
  rcases hroomy with ⟨hfits, hshort⟩ | ⟨hlong, hroom⟩
  · simp only at hfits hshort
    rw [(OutBuffer.put_fits hinside hfits).2]
    have hordinary : bytes.length ≠ 65536 := by omega
    simp [hordinary]
  · simp only at hlong hroom
    subst hroom
    have hreserve : (buffer.reserve 0).message = buffer.message :=
      if_neg (by omega)
    have hoffset : (buffer.reserve 0).replyOffset = buffer.replyOffset := rfl
    rw [OutBuffer.put, OutBuffer.store, hreserve, hoffset, hlong]
    by_cases hspare : buffer.replyOffset + 65536 ≤ buffer.message.length
    · rw [if_pos hspare]
      have hleft : 65536 ≤ buffer.message.length - buffer.replyOffset := by omega
      simp [OutBuffer.advance, OutBuffer.reserve, hleft]
    · rw [if_neg hspare]
      have hleft : ¬ 65536 ≤ buffer.message.length - buffer.replyOffset := by omega
      simp [OutBuffer.advance, hleft]

theorem put_spare {buffer : OutBuffer} {room : Nat} {bytes : Bytes}
    (hinside : buffer.replyOffset ≤ buffer.message.length) :
    (buffer.put room bytes).message.length - (buffer.put room bytes).replyOffset =
      if buffer.message.length - buffer.replyOffset < room then
        buffer.message.length - buffer.replyOffset
      else buffer.message.length - buffer.replyOffset - room := by
  rw [OutBuffer.length_put, OutBuffer.put_replyOffset, OutBuffer.reserve]
  simp only [resize]
  split
  · rw [if_pos (by omega)]
    simp only [List.length_append, List.length_take, List.length_replicate]
    omega
  · rw [if_neg (by omega)]
    omega

def roomFor (puts : List (Nat × Bytes)) : Nat := (puts.map (·.1)).sum

theorem run_defined {puts : List (Nat × Bytes)} (hroomy : ∀ put ∈ puts, Roomy put)
    {buffer : OutBuffer} (hinside : buffer.replyOffset ≤ buffer.message.length)
    (hoffset : buffer.defined = true → buffer.replyOffset < 2 ^ 31) :
    (Trace.run puts buffer).replyOffset = buffer.replyOffset + roomFor puts ∧
    ((Trace.run puts buffer).defined = true ↔
      buffer.defined = true ∧ Spacious (buffer.message.length - buffer.replyOffset) puts ∧
        buffer.replyOffset + roomFor puts < 2 ^ 31) := by
  induction puts generalizing buffer with
  | nil =>
      refine ⟨rfl, ?_⟩
      constructor
      · intro hdefined
        exact ⟨hdefined, trivial, hoffset hdefined⟩
      · intro hall
        exact hall.1
  | cons put puts ih =>
      obtain ⟨room, bytes⟩ := put
      obtain ⟨hput, hputs⟩ := List.forall_mem_cons.mp hroomy
      have hafter := @put_defined buffer _ _ hput hinside
      have hgrown : (buffer.put room bytes).replyOffset ≤
          (buffer.put room bytes).message.length := by
        rw [OutBuffer.length_put, OutBuffer.put_replyOffset]
        exact (OutBuffer.reserve_room hinside).1
      have hbound : (buffer.put room bytes).defined = true →
          (buffer.put room bytes).replyOffset < 2 ^ 31 := by
        intro hdefined
        rw [OutBuffer.put_replyOffset]
        exact (hafter.mp hdefined).2.2
      obtain ⟨hrest, hdefined⟩ := ih hputs hgrown hbound
      have hsum : roomFor ((room, bytes) :: puts) = room + roomFor puts := rfl
      have hrun : Trace.run ((room, bytes) :: puts) buffer =
          Trace.run puts (buffer.put room bytes) := rfl
      rw [hrun, hrest, hdefined, hafter, put_spare hinside, OutBuffer.put_replyOffset, hsum,
        Spacious]
      refine ⟨by omega, ?_⟩
      constructor
      · rintro ⟨⟨hbefore, hspare, -⟩, hspacious, htotal⟩
        exact ⟨hbefore, ⟨hspare, hspacious⟩, by omega⟩
      · rintro ⟨hbefore, ⟨hspare, hspacious⟩, htotal⟩
        exact ⟨⟨hbefore, hspare, by omega⟩, hspacious, by omega⟩

def AllRoomy (trace : Trace) : Prop := ∀ put ∈ trace.puts, Roomy put

theorem roomy_andThen {first second : Trace} (hfirst : AllRoomy first)
    (hsecond : AllRoomy second) : AllRoomy (first.andThen second) := by
  unfold Trace.andThen
  split
  · intro put hmem
    rcases List.mem_append.mp hmem with hleft | hright
    · exact hfirst put hleft
    · exact hsecond put hright
  · exact hfirst

theorem roomy_forEach {α : Type} {body : α → Trace} {items : List α}
    (hbody : ∀ item, AllRoomy (body item)) : AllRoomy (Trace.forEach body items) := by
  induction items with
  | nil => exact fun put hmem => absurd hmem List.not_mem_nil
  | cons item items ih => exact roomy_andThen (hbody item) ih

theorem roomy_single {room : Nat} {bytes : Bytes} {ending : Ending}
    (hroomy : Roomy (room, bytes)) : AllRoomy ⟨[(room, bytes)], ending⟩ := by
  intro put hmem
  rw [List.mem_singleton.mp hmem]
  exact hroomy

theorem roomy_none (ending : Ending) : AllRoomy ⟨[], ending⟩ :=
  fun _ hmem => absurd hmem List.not_mem_nil

private theorem roomy_count (length : Nat) : AllRoomy (countTrace host length) := by
  unfold countTrace
  split
  · exact roomy_none _
  · refine roomy_single (.inl ⟨?_, by omega⟩)
    rw [uint16ToBytes_true, length_leBytes]

private theorem roomy_scalar {bytes : Bytes} (hlength : bytes.length = 8) :
    AllRoomy (scalarTrace bytes) :=
  roomy_single (.inl ⟨hlength, by omega⟩)

private theorem roomy_array {α : Type} {body : α → Trace}
    (hbody : ∀ item, AllRoomy (body item)) (items : List α) :
    AllRoomy (arrayTrace host body items) :=
  roomy_andThen (roomy_count _) (roomy_forEach hbody)

private theorem roomy_string (strVal : Bytes) : AllRoomy (stringTrace host strVal) := by
  by_cases hlong : strVal.length > 65536
  · have hrefused : stringTrace host strVal = ⟨[], .tooLong⟩ := by
      rw [stringTrace, countTrace, if_pos hlong]
      rfl
    rw [hrefused]
    exact roomy_none _
  · refine roomy_andThen (roomy_count _) (roomy_single ?_)
    rw [Roomy, UInt16.toNat_ofNat']
    simp only
    omega

private theorem roomy_wideString (wstrVal : WString) :
    AllRoomy (wideStringTrace host wstrVal) := by
  unfold wideStringTrace
  split
  · exact roomy_none _
  · exact roomy_string _

theorem roomy_value (dataType : DataType) (ret : Variant) :
    AllRoomy (valueTrace host dataType ret) := by
  have hdouble : ∀ dblVal, AllRoomy (scalarTrace (doubleToBytes host dblVal true)) :=
    fun dblVal => roomy_scalar (by rw [doubleToBytes_true, length_leBytes])
  have hint : ∀ intVal, AllRoomy (scalarTrace (int64ToBytes host intVal true)) :=
    fun intVal => roomy_scalar (by rw [int64ToBytes_true, length_leBytes])
  have huint : ∀ uintVal, AllRoomy (scalarTrace (uint64ToBytes host uintVal true)) :=
    fun uintVal => roomy_scalar (by rw [uint64ToBytes_true, length_leBytes])
  unfold valueTrace
  split
  · exact hdouble _
  · exact roomy_array hdouble _
  · exact hint _
  · exact roomy_array hint _
  · exact huint _
  · exact roomy_array huint _
  · exact roomy_wideString _
  · exact roomy_array roomy_wideString _
  · exact roomy_string _
  · exact roomy_array roomy_string _
  · exact roomy_none _

theorem roomy_fields (signature : DataSignature) (rets : VariantVector) :
    AllRoomy (fieldsTrace host signature rets) := by
  apply roomy_forEach
  intro field
  unfold returnTrace
  split
  · exact roomy_none _
  · exact roomy_andThen (roomy_single (.inl ⟨rfl, by omega⟩)) (roomy_value _ _)
  · exact roomy_value _ _

def encodedSize (trace : Trace) : Nat :=
  roomFor trace.puts + if trace.ending = .tooLong then 2 else 0

/-- All writes of `toBinary` lie inside the buffer unless it reaches a string of 65536
bytes without as many behind the offset, or its offset leaves 32 bits. -/
theorem toBinary_inside_iff (host : Platform) {signature : DataSignature}
    {rets : VariantVector} (hlength : rets.length = signature.length) (message : Bytes) :
    writeReturns host signature rets (.start message) =
        (fieldsTrace host signature rets).outcome (.start message) ∧
    (((fieldsTrace host signature rets).final (.start message)).defined = true ↔
      Spacious message.length (fieldsTrace host signature rets).puts ∧
        encodedSize (fieldsTrace host signature rets) < 2 ^ 31) := by
  refine ⟨congrFun (writeReturns_trace hlength) _, ?_⟩
  obtain ⟨hoffset, hdefined⟩ := @run_defined _ (roomy_fields signature rets)
    (.start message) (Nat.zero_le _) (fun _ => Nat.two_pow_pos 31)
  have hstart : (OutBuffer.start message).defined = true := rfl
  have hzero : (OutBuffer.start message).replyOffset = 0 := rfl
  rw [hzero, Nat.zero_add] at hoffset hdefined
  rw [Trace.final, encodedSize]
  by_cases hlong : (fieldsTrace host signature rets).ending = .tooLong
  · rw [if_pos hlong, if_pos hlong]
    change ((Trace.run _ _).defined && decide ((Trace.run _ _).replyOffset + 2 < 2 ^ 31)) =
      true ↔ _
    rw [Bool.and_eq_true, decide_eq_true_eq, hoffset, hdefined]
    constructor
    · intro hinside
      exact ⟨hinside.1.2.1, hinside.2⟩
    · intro hcondition
      have hsize := hcondition.2
      exact ⟨⟨hstart, hcondition.1, by omega⟩, hsize⟩
  · rw [if_neg hlong, if_neg hlong, hdefined, Nat.add_zero]
    exact and_iff_right hstart

private def anyHost : Platform where
  isMachineLittleEndian := true
  toBytes _ := none
  fromBytes _ := none

theorem toBinary_inside_string :
    writeReturns anyHost [DataType.s.char] [.value (.string [97])] (.start []) =
        (fieldsTrace anyHost [DataType.s.char] [.value (.string [97])]).outcome (.start []) ∧
    (((fieldsTrace anyHost [DataType.s.char] [.value (.string [97])]).final
        (.start [])).defined = true ↔
      Spacious 0 (fieldsTrace anyHost [DataType.s.char] [.value (.string [97])]).puts ∧
        encodedSize (fieldsTrace anyHost [DataType.s.char] [.value (.string [97])]) <
          2 ^ 31) :=
  toBinary_inside_iff anyHost rfl []

/-- A string of 65536 bytes is copied behind an empty buffer. -/
theorem toBinary_writes_outside :
    ∃ buffer, toBinary anyHost [DataType.s.char]
        [.value (.string (List.replicate 65536 0))] [] = .next buffer ∧
      buffer.defined = false := by
  have hlength : (List.replicate 65536 (0 : UInt8)).length = 65536 := List.length_replicate
  generalize List.replicate 65536 (0 : UInt8) = text at hlength ⊢
  have hchar : DataType.ofChar? DataType.s.char = some .s := DataType.ofChar?_char .s
  simp [toBinary, writeReturns, writeReturn, hchar, writeValue, writeString, writeCount,
    hlength, OutBuffer.store, OutBuffer.reserve, OutBuffer.advance, OutBuffer.start, resize]

end DataSignature

end Rpcmple.Cpp
