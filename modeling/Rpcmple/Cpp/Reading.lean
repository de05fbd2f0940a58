import Rpcmple.Cpp.DataSignature

namespace Rpcmple.Cpp

open Data

namespace DataSignature

/-- A point of a run: the offset there and the number of bytes its guard asks for, zero
where no guard stands. -/
structure Visit where
  messageOffset : Nat
  count : Nat

namespace Visit

def reads (message : Bytes) (visit : Visit) : List Nat :=
  if bytesLeft message visit.messageOffset < visit.count then []
  else (List.range visit.count).map (visit.messageOffset + ·)

structure Inside (message : Bytes) (visit : Visit) : Prop where
  offset : visit.messageOffset ≤ message.length
  left : bytesLeft message visit.messageOffset = message.length - visit.messageOffset
  bytes : ∀ index ∈ visit.reads message, index < message.length

end Visit

theorem bytesLeft_eq {message : Bytes} {messageOffset : Nat}
    (hsize : message.length < 2 ^ 31) (hoffset : messageOffset ≤ message.length) :
    bytesLeft message messageOffset = message.length - messageOffset := by
  unfold bytesLeft
  omega

theorem Visit.inside {message : Bytes} {messageOffset : Nat}
    (hsize : message.length < 2 ^ 31) (hoffset : messageOffset ≤ message.length)
    (count : Nat) : Visit.Inside message ⟨messageOffset, count⟩ := by
  have hleft := bytesLeft_eq hsize hoffset
  refine ⟨hoffset, hleft, ?_⟩
  intro index hindex
  unfold reads at hindex
  simp only [hleft] at hindex
  split at hindex
  · cases hindex
  · obtain ⟨step, hstep, rfl⟩ := List.mem_map.mp hindex
    have hbound := List.mem_range.mp hstep
    omega

variable {host : Platform} {message : Bytes} {α β : Type}

/-- The points a run of a reader passes, read off the code: a guarded read is one point,
and so is the place where the run returns, rejects or throws. -/
inductive Visits (message : Bytes) : {α : Type} → Reader α → Nat → List Visit → Prop where
  | returns {α : Type} (value : α) (offset : Nat) :
      Visits message (pure value) offset [⟨offset, 0⟩]
  | rejects {α : Type} (offset : Nat) :
      Visits message (Reader.rejects : Reader α) offset [⟨offset, 0⟩]
  | throws {α : Type} (offset : Nat) :
      Visits message (Reader.throws : Reader α) offset [⟨offset, 0⟩]
  | read (count offset : Nat) :
      Visits message (readBytes message count) offset [⟨offset, count⟩]
  | next {α β : Type} {first : Reader α} {rest : α → Reader β} {value : α}
      {offset middle : Nat} {front back : List Visit} :
      Visits message first offset front → first offset = .returns (value, middle) →
      Visits message (rest value) middle back →
      Visits message (first >>= rest) offset (front ++ back)
  | stop {α β : Type} {first : Reader α} {rest : α → Reader β} {offset : Nat}
      {front : List Visit} :
      Visits message first offset front → (∀ result, first offset ≠ .returns result) →
      Visits message (first >>= rest) offset front

structure Stays (message : Bytes) (outcome : Exec (α × Nat)) (visits : List Visit) :
    Prop where
  inside : ∀ visit ∈ visits, visit.Inside message
  defined : outcome ≠ .undefined
  offset : ∀ value final, outcome = .returns (value, final) → final ≤ message.length

theorem readBytes_stays (hsize : message.length < 2 ^ 31) (count : Nat) {offset : Nat}
    (hoffset : offset ≤ message.length) :
    Stays message (readBytes message count offset) [⟨offset, count⟩] := by
  have hleft := bytesLeft_eq hsize hoffset
  refine ⟨by simpa using Visit.inside hsize hoffset count, ?_, ?_⟩
  · unfold readBytes
    rw [hleft]
    split
    · simp
    · rw [if_neg (by omega), if_neg (by omega)]
      simp
  · intro value final hreturns
    unfold readBytes at hreturns
    rw [hleft] at hreturns
    split at hreturns
    · cases hreturns
    · rw [if_neg (by omega), if_neg (by omega)] at hreturns
      cases hreturns
      omega

/-- The induction is over the code: a guarded read moves the offset by what its guard has
counted, and everything else leaves it. -/
theorem Visits.stays (hsize : message.length < 2 ^ 31) {reader : Reader α} {offset : Nat}
    {visits : List Visit} (hvisits : Visits message reader offset visits)
    (hoffset : offset ≤ message.length) : Stays message (reader offset) visits := by
  induction hvisits with
  | returns value offset =>
      refine ⟨by simpa using Visit.inside hsize hoffset 0, ?_, ?_⟩
      · intro hundefined
        cases hundefined
      · intro other final hreturns
        cases hreturns
        exact hoffset
  | rejects offset =>
      refine ⟨by simpa using Visit.inside hsize hoffset 0, ?_, ?_⟩
      · intro hundefined
        cases hundefined
      · intro other final hreturns
        cases hreturns
  | throws offset =>
      refine ⟨by simpa using Visit.inside hsize hoffset 0, ?_, ?_⟩
      · intro hundefined
        cases hundefined
      · intro other final hreturns
        cases hreturns
  | read count offset => exact readBytes_stays hsize count hoffset
  | @next _ _ first rest value offset middle front back hfirst hmiddle hrest ihfirst ihrest =>
      have hfront := ihfirst hoffset
      have hback := ihrest (hfront.offset value middle hmiddle)
      have hbind : (first >>= rest) offset = rest value middle := by
        change (first offset >>= fun result => rest result.1 result.2) = _
        rw [hmiddle, Exec.returns_bind]
      rw [hbind]
      exact ⟨List.forall_mem_append.mpr ⟨hfront.inside, hback.inside⟩, hback.defined,
        hback.offset⟩
  | @stop _ _ first rest offset front hfirst hstops ihfirst =>
      have hfront := ihfirst hoffset
      have hdefined := hfront.defined
      refine ⟨hfront.inside, ?_, ?_⟩
      · change (first offset >>= fun result => rest result.1 result.2) ≠ _
        cases houtcome : first offset with
        | returns result => exact absurd houtcome (hstops result)
        | rejects | throws => simp
        | undefined => exact absurd houtcome hdefined
      · intro value final hreturns
        change (first offset >>= fun result => rest result.1 result.2) = _ at hreturns
        obtain ⟨result, hresult, hrest⟩ := Exec.bind_eq_returns.mp hreturns
        exact absurd hresult (hstops result)

def Guarded (message : Bytes) (reader : Reader α) : Prop :=
  ∀ offset, ∃ visits, Visits message reader offset visits

theorem guarded_pure (value : α) : Guarded message (pure value : Reader α) :=
  fun offset => ⟨_, .returns value offset⟩

theorem guarded_rejects : Guarded message (Reader.rejects : Reader α) :=
  fun offset => ⟨_, .rejects offset⟩

theorem guarded_throws : Guarded message (Reader.throws : Reader α) :=
  fun offset => ⟨_, .throws offset⟩

theorem guarded_readBytes (count : Nat) : Guarded message (readBytes message count) :=
  fun offset => ⟨_, .read count offset⟩

theorem Guarded.bind {first : Reader α} {rest : α → Reader β}
    (hfirst : Guarded message first) (hrest : ∀ value, Guarded message (rest value)) :
    Guarded message (first >>= rest) := by
  intro offset
  obtain ⟨front, hfront⟩ := hfirst offset
  cases houtcome : first offset with
  | returns result =>
      obtain ⟨value, middle⟩ := result
      obtain ⟨back, hback⟩ := hrest value middle
      exact ⟨front ++ back, .next hfront houtcome hback⟩
  | rejects | throws | undefined =>
      exact ⟨front, .stop hfront fun result habsurd => by simp [houtcome] at habsurd⟩

theorem Guarded.map {read : Reader α} (hread : Guarded message read) (f : α → β) :
    Guarded message (read >>= fun value => pure (f value)) :=
  hread.bind fun value => guarded_pure (f value)

theorem readScalar_guarded (convert : Bytes → α) :
    Guarded message (readScalar convert message) :=
  (guarded_readBytes 8).map convert

theorem readUint16_guarded : Guarded message (readUint16 host message) :=
  (guarded_readBytes 2).map fun bytes => (bytesToUint16 host bytes true).toNat

theorem readTimes_guarded {read : Reader α} (hread : Guarded message read) (count : Nat) :
    Guarded message (readTimes read count) := by
  induction count with
  | zero => exact guarded_pure []
  | succ count ih => exact hread.bind fun item => ih.map fun items => item :: items

theorem readArray_guarded {read : Reader α} (hread : Guarded message read) :
    Guarded message (readArray host read message) :=
  readUint16_guarded.bind fun arrSize => readTimes_guarded hread arrSize

theorem readString_guarded : Guarded message (readString host message) :=
  readUint16_guarded.bind fun strSize => guarded_readBytes strSize

theorem readWideString_guarded : Guarded message (readWideString host message) := by
  apply readString_guarded.bind
  intro byteVal
  cases host.fromBytes (byteVal.takeWhile (· ≠ 0)) with
  | none => exact guarded_throws
  | some strVal => exact guarded_pure strVal

theorem readValue_guarded (dataType : DataType) :
    Guarded message (readValue host dataType message) := by
  cases dataType with
  | d | i | u => exact (readScalar_guarded _).map _
  | D | I | U => exact (readArray_guarded (readScalar_guarded _)).map _
  | w => exact readWideString_guarded.map _
  | W => exact (readArray_guarded readWideString_guarded).map _
  | s => exact readString_guarded.map _
  | S => exact (readArray_guarded readString_guarded).map _
  | v => exact guarded_rejects

theorem readArgument_guarded (char : UInt8) :
    Guarded message (readArgument host char message) := by
  unfold readArgument
  split
  · exact guarded_rejects
  · apply (guarded_readBytes 1).bind
    intro tag
    split
    · exact guarded_rejects
    · exact guarded_rejects
    · exact readValue_guarded _
  · exact readValue_guarded _

inductive ArgumentVisits (host : Platform) (message : Bytes) :
    DataSignature → Nat → List Visit → Prop where
  | done (offset : Nat) : ArgumentVisits host message [] offset [⟨offset, 0⟩]
  | next {char : UInt8} {signature : DataSignature} {arg : Variant} {offset middle : Nat}
      {front back : List Visit} :
      Visits message (readArgument host char message) offset front →
      readArgument host char message offset = .returns (arg, middle) →
      ArgumentVisits host message signature middle back →
      ArgumentVisits host message (char :: signature) offset (front ++ back)
  | stop {char : UInt8} {signature : DataSignature} {offset : Nat} {front : List Visit} :
      Visits message (readArgument host char message) offset front →
      (∀ result, readArgument host char message offset ≠ .returns result) →
      ArgumentVisits host message (char :: signature) offset front

theorem exists_argumentVisits (signature : DataSignature) (offset : Nat) :
    ∃ visits, ArgumentVisits host message signature offset visits := by
  induction signature generalizing offset with
  | nil => exact ⟨_, .done offset⟩
  | cons char signature ih =>
      obtain ⟨front, hfront⟩ := @readArgument_guarded host message char offset
      cases houtcome : readArgument host char message offset with
      | returns result =>
          obtain ⟨arg, middle⟩ := result
          obtain ⟨back, hback⟩ := ih middle
          exact ⟨front ++ back, .next hfront houtcome hback⟩
      | rejects | throws | undefined =>
          exact ⟨front, .stop hfront fun result habsurd => by simp [houtcome] at habsurd⟩

theorem ArgumentVisits.inside (hsize : message.length < 2 ^ 31) {signature : DataSignature}
    {offset : Nat} {visits : List Visit}
    (hvisits : ArgumentVisits host message signature offset visits)
    (hoffset : offset ≤ message.length) : ∀ visit ∈ visits, visit.Inside message := by
  induction hvisits with
  | done offset => simpa using Visit.inside hsize hoffset 0
  | next hfirst hmiddle hrest ih =>
      have hfront := hfirst.stays hsize hoffset
      exact List.forall_mem_append.mpr
        ⟨hfront.inside, ih (hfront.offset _ _ hmiddle)⟩
  | stop hfirst hstops => exact (hfirst.stays hsize hoffset).inside

theorem readArguments_stays (hsize : message.length < 2 ^ 31) (signature : DataSignature)
    (index : Nat) {offset : Nat} (args : VariantVector) (hoffset : offset ≤ message.length) :
    readArguments host signature index message offset args ≠ .undefined ∧
      ∀ decoded, readArguments host signature index message offset args = .returns decoded →
        decoded.messageOffset ≤ message.length := by
  induction signature generalizing index offset args with
  | nil =>
      refine ⟨by simp [readArguments], ?_⟩
      intro decoded hreturns
      cases hreturns
      exact hoffset
  | cons char signature ih =>
      obtain ⟨visits, hvisits⟩ := @readArgument_guarded host message char offset
      have hstays := hvisits.stays hsize hoffset
      have hdefined := hstays.defined
      unfold readArguments
      cases houtcome : readArgument host char message offset with
      | returns result =>
          obtain ⟨arg, middle⟩ := result
          exact ih (index + 1) (args.set index arg) (hstays.offset arg middle houtcome)
      | rejects =>
          refine ⟨by simp, ?_⟩
          intro decoded hreturns
          cases hreturns
          exact hoffset
      | throws => simp
      | undefined => exact absurd houtcome hdefined

/-- The points of the run exist, whatever it ends in, and at all of them the offset and the
bytes read lie inside the message. -/
theorem fromBinary_inside (host : Platform) (signature : DataSignature) (message : Bytes)
    (args : VariantVector) (hsize : message.length < 2 ^ 31) :
    (∃ visits, ArgumentVisits host message signature 0 visits) ∧
      (∀ visits, ArgumentVisits host message signature 0 visits →
        ∀ visit ∈ visits, visit.Inside message) ∧
      fromBinary host signature message args ≠ .undefined ∧
      ∀ decoded, fromBinary host signature message args = .returns decoded →
        decoded.messageOffset ≤ message.length := by
  have hstart : 0 ≤ message.length := Nat.zero_le _
  exact ⟨exists_argumentVisits signature 0, fun _ hvisits => hvisits.inside hsize hstart,
    readArguments_stays hsize signature 0 _ hstart⟩

private def narrowHost : Platform := ⟨true, fun _ => none, fun _ => none⟩

theorem text_cut_short_inside :
    let message : Bytes := [2, 0, 1, 0, 65, 4, 0, 66]
    fromBinary narrowHost [83] message [] = .returns ⟨false, 0, [.default]⟩ ∧
      (∃ visits, ArgumentVisits narrowHost message [83] 0 visits) ∧
      ∀ visits, ArgumentVisits narrowHost message [83] 0 visits →
        ∀ visit ∈ visits, visit.Inside message := by
  obtain ⟨hexists, hinside, _, _⟩ :=
    fromBinary_inside narrowHost [83] [2, 0, 1, 0, 65, 4, 0, 66] [] (by decide)
  exact ⟨by decide, hexists, hinside⟩

end DataSignature

end Rpcmple.Cpp
