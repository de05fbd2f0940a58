import Rpcmple.Cpp.DataSignature

namespace Rpcmple.Cpp

open Data

/-- The step all of `toBinary` is made of: make room, write, and move on. -/
def OutBuffer.put (buffer : OutBuffer) (count : Nat) (bytes : Bytes) : OutBuffer :=
  ((buffer.reserve count).store bytes).advance count

namespace OutBuffer

variable {buffer : OutBuffer} {count : Nat} {bytes : Bytes}

theorem reserve_room (hroom : buffer.replyOffset ≤ buffer.message.length) :
    buffer.replyOffset + count ≤ (buffer.reserve count).message.length ∧
      (buffer.reserve count).message.take buffer.replyOffset =
        buffer.message.take buffer.replyOffset := by
  unfold reserve resize
  simp only
  split
  · rw [List.take_of_length_le (Nat.le_add_right _ _),
      List.take_append_of_le_length hroom]
    refine ⟨?_, rfl⟩
    rw [List.length_append, List.length_replicate]
    omega
  · exact ⟨by omega, rfl⟩

theorem reserve_tight (htight : buffer.message.length = buffer.replyOffset) :
    (buffer.reserve count).message = buffer.message ++ List.replicate count 0 := by
  unfold reserve resize
  simp only
  split
  · rw [List.take_of_length_le (Nat.le_add_right _ _), Nat.add_sub_cancel_left]
  · obtain rfl : count = 0 := by omega
    rw [List.replicate_zero, List.append_nil]

theorem length_store : (buffer.store bytes).message.length = buffer.message.length := by
  unfold store
  split
  · simp only [List.length_append, List.length_take, List.length_drop]
    omega
  · rfl

@[simp] theorem store_replyOffset : (buffer.store bytes).replyOffset = buffer.replyOffset := by
  unfold store
  split <;> rfl

@[simp] theorem put_replyOffset :
    (buffer.put count bytes).replyOffset = buffer.replyOffset + count := by
  rw [put, advance, store_replyOffset]
  rfl

theorem length_put :
    (buffer.put count bytes).message.length = (buffer.reserve count).message.length :=
  length_store

theorem put_fits (hroom : buffer.replyOffset ≤ buffer.message.length)
    (hfits : bytes.length = count) :
    (buffer.put count bytes).message.take (buffer.replyOffset + count) =
        buffer.message.take buffer.replyOffset ++ bytes ∧
      ((buffer.put count bytes).defined = true ↔
        buffer.defined = true ∧ buffer.replyOffset + count < 2 ^ 31) := by
  obtain ⟨hreserved, hkept⟩ := @reserve_room _ count hroom
  have hinside : (buffer.reserve count).replyOffset + bytes.length ≤
      (buffer.reserve count).message.length := hfits ▸ hreserved
  have hlength : (buffer.message.take buffer.replyOffset ++ bytes).length =
      buffer.replyOffset + count := by
    rw [List.length_append, List.length_take, hfits, Nat.min_eq_left hroom]
  rw [put, store, if_pos hinside]
  refine ⟨?_, ?_⟩
  · change ((buffer.reserve count).message.take buffer.replyOffset ++ bytes ++ _).take _ = _
    rw [hkept, List.take_left' hlength]
  · change (buffer.defined && decide (buffer.replyOffset + count < 2 ^ 31) &&
      decide (buffer.replyOffset + count < 2 ^ 31)) = true ↔ _
    rw [Bool.and_assoc, Bool.and_self, Bool.and_eq_true, decide_eq_true_eq]

theorem put_lands (hroom : buffer.replyOffset ≤ buffer.message.length)
    (hcount : count ≤ bytes.length) (hdefined : (buffer.put count bytes).defined = true) :
    buffer.defined = true ∧
      (buffer.put count bytes).message.take (buffer.replyOffset + count) =
        buffer.message.take buffer.replyOffset ++ bytes.take count := by
  obtain ⟨hreserved, hkept⟩ := @reserve_room _ count hroom
  have hfront : (buffer.message.take buffer.replyOffset).length = buffer.replyOffset := by
    rw [List.length_take, Nat.min_eq_left hroom]
  by_cases hinside : (buffer.reserve count).replyOffset + bytes.length ≤
      (buffer.reserve count).message.length
  · rw [put, store, if_pos hinside] at hdefined ⊢
    refine ⟨?_, ?_⟩
    · change (buffer.defined && _ && _) = true at hdefined
      simp only [Bool.and_eq_true] at hdefined
      exact hdefined.1.1
    · change ((buffer.reserve count).message.take buffer.replyOffset ++ bytes ++ _).take _ = _
      rw [hkept, List.append_assoc, List.take_append, hfront, Nat.add_sub_cancel_left,
        List.take_of_length_le (by omega), List.take_append_of_le_length hcount]
  · rw [put, store, if_neg hinside] at hdefined
    cases hdefined

theorem put_overruns (htight : buffer.message.length = buffer.replyOffset)
    (hlong : count < bytes.length) : (buffer.put count bytes).defined = false := by
  have houtside : ¬ (buffer.reserve count).replyOffset + bytes.length ≤
      (buffer.reserve count).message.length := by
    rw [reserve_tight htight, List.length_append, List.length_replicate]
    change ¬ buffer.replyOffset + _ ≤ _
    omega
  rw [put, store, if_neg houtside]
  rfl

end OutBuffer

namespace DataSignature

variable {host : Platform} {R : OutBuffer → OutBuffer → Prop}

/-- Two buffers stay related while the same is put into both, a piece being never
shorter than the room made for it. -/
def Kept (R : OutBuffer → OutBuffer → Prop) : Prop :=
  ∀ first second count bytes, count ≤ bytes.length → R first second →
    R (first.put count bytes) (second.put count bytes)

theorem writeScalar_alike (hkept : Kept R) {bytes : Bytes} (hlength : bytes.length = 8)
    {first second : OutBuffer} (hrelated : R first second) :
    R (writeScalar bytes first) (writeScalar bytes second) :=
  hkept first second 8 bytes hlength.ge hrelated

theorem writeCount_alike (hkept : Kept R) (length : Nat) {first second : OutBuffer}
    (hrelated : R first second) :
    Outcome.Alike R (writeCount host length first) (writeCount host length second) := by
  unfold writeCount
  by_cases hlong : length > 65536
  · simp only [if_pos hlong]
    exact .fail _ _
  · simp only [if_neg hlong]
    refine .next (hkept first second 2 _ ?_ hrelated)
    rw [uint16ToBytes_true, length_leBytes]

theorem writeScalars_alike (hkept : Kept R) {α : Type} {toBytes : α → Bytes}
    (hlength : ∀ item, (toBytes item).length = 8) (items : List α)
    {first second : OutBuffer} (hrelated : R first second) :
    Outcome.Alike R (writeScalars host toBytes items first)
      (writeScalars host toBytes items second) := by
  apply (writeCount_alike hkept items.length hrelated).andThen
  intro left right hrelated
  apply Outcome.Alike.forEach _ hrelated
  intro item _ left right hrelated
  exact .next (writeScalar_alike hkept (hlength item) hrelated)

theorem writeString_alike (hkept : Kept R) (strVal : Bytes) {first second : OutBuffer}
    (hrelated : R first second) :
    Outcome.Alike R (writeString host strVal first) (writeString host strVal second) := by
  apply (writeCount_alike hkept strVal.length hrelated).andThen
  intro left right hrelated
  refine .next (hkept left right _ strVal ?_ hrelated)
  rw [UInt16.toNat_ofNat']
  exact Nat.mod_le _ _

theorem writeStrings_alike (hkept : Kept R) (strArrVal : List Bytes)
    {first second : OutBuffer} (hrelated : R first second) :
    Outcome.Alike R (writeStrings host strArrVal first)
      (writeStrings host strArrVal second) := by
  apply (writeCount_alike hkept strArrVal.length hrelated).andThen
  intro left right hrelated
  apply Outcome.Alike.forEach _ hrelated
  intro strVal _ left right hrelated
  exact writeString_alike hkept strVal hrelated

theorem writeWideString_alike (hkept : Kept R) (wstrVal : WString)
    {first second : OutBuffer} (hrelated : R first second) :
    Outcome.Alike R (writeWideString host wstrVal first)
      (writeWideString host wstrVal second) := by
  unfold writeWideString
  cases host.toBytes wstrVal with
  | none => exact .crash
  | some strVal => exact writeString_alike hkept strVal hrelated

theorem writeWideStrings_alike (hkept : Kept R) (wstrArrVal : List WString)
    {first second : OutBuffer} (hrelated : R first second) :
    Outcome.Alike R (writeWideStrings host wstrArrVal first)
      (writeWideStrings host wstrArrVal second) := by
  apply (writeCount_alike hkept wstrArrVal.length hrelated).andThen
  intro left right hrelated
  apply Outcome.Alike.forEach _ hrelated
  intro wstrVal _ left right hrelated
  exact writeWideString_alike hkept wstrVal hrelated

theorem writeValue_alike (hkept : Kept R) (dataType : DataType) (ret : Variant)
    {first second : OutBuffer} (hrelated : R first second) :
    Outcome.Alike R (writeValue host dataType ret first)
      (writeValue host dataType ret second) := by
  have hdouble : ∀ dblVal, (doubleToBytes host dblVal true).length = 8 := by
    intro dblVal
    rw [doubleToBytes_true, length_leBytes]
  have hint : ∀ intVal, (int64ToBytes host intVal true).length = 8 := by
    intro intVal
    rw [int64ToBytes_true, length_leBytes]
  have huint : ∀ uintVal, (uint64ToBytes host uintVal true).length = 8 := by
    intro uintVal
    rw [uint64ToBytes_true, length_leBytes]
  unfold writeValue
  split
  · exact .next (writeScalar_alike hkept (hdouble _) hrelated)
  · exact writeScalars_alike hkept hdouble _ hrelated
  · exact .next (writeScalar_alike hkept (hint _) hrelated)
  · exact writeScalars_alike hkept hint _ hrelated
  · exact .next (writeScalar_alike hkept (huint _) hrelated)
  · exact writeScalars_alike hkept huint _ hrelated
  · exact writeWideString_alike hkept _ hrelated
  · exact writeWideStrings_alike hkept _ hrelated
  · exact writeString_alike hkept _ hrelated
  · exact writeStrings_alike hkept _ hrelated
  · exact .fail _ _

theorem writeReturn_alike (hkept : Kept R) (char : UInt8) (ret : Variant)
    {first second : OutBuffer} (hrelated : R first second) :
    Outcome.Alike R (writeReturn host char ret first) (writeReturn host char ret second) := by
  unfold writeReturn
  split
  · exact .fail _ _
  · exact writeValue_alike hkept _ _ (hkept first second 1 _ Nat.le.refl hrelated)
  · exact writeValue_alike hkept _ _ hrelated

theorem writeReturns_alike (hkept : Kept R) (signature : DataSignature)
    (rets : VariantVector) {first second : OutBuffer} (hrelated : R first second) :
    Outcome.Alike R (writeReturns host signature rets first)
      (writeReturns host signature rets second) := by
  induction signature generalizing rets first second with
  | nil => exact .next hrelated
  | cons char signature ih =>
      cases rets with
      | nil => exact .fail _ _
      | cons ret rets =>
          apply (writeReturn_alike hkept char ret hrelated).andThen
          intro left right hrelated
          exact ih rets hrelated

/-- The two agree up to where the next piece goes, if all so far landed inside both. -/
structure Agree (first second : OutBuffer) : Prop where
  offset : first.replyOffset = second.replyOffset
  firstRoom : first.replyOffset ≤ first.message.length
  secondRoom : second.replyOffset ≤ second.message.length
  same : first.defined = true → second.defined = true →
    first.message.take first.replyOffset = second.message.take second.replyOffset

theorem Agree.start (left right : Bytes) : Agree (.start left) (.start right) :=
  ⟨rfl, Nat.zero_le _, Nat.zero_le _, fun _ _ => rfl⟩

theorem agree_kept : Kept Agree := by
  intro first second count bytes hcount hagree
  obtain ⟨hoffset, hfirst, hsecond, hsame⟩ := hagree
  refine ⟨?_, ?_, ?_, ?_⟩
  · rw [OutBuffer.put_replyOffset, OutBuffer.put_replyOffset, hoffset]
  · rw [OutBuffer.put_replyOffset, OutBuffer.length_put]
    exact (OutBuffer.reserve_room hfirst).1
  · rw [OutBuffer.put_replyOffset, OutBuffer.length_put]
    exact (OutBuffer.reserve_room hsecond).1
  · intro hfirstDefined hsecondDefined
    obtain ⟨hleft, hleftTake⟩ := OutBuffer.put_lands hfirst hcount hfirstDefined
    obtain ⟨hright, hrightTake⟩ := OutBuffer.put_lands hsecond hcount hsecondDefined
    rw [OutBuffer.put_replyOffset, OutBuffer.put_replyOffset, hleftTake, hrightTake,
      hsame hleft hright]

private theorem resize_inside {buffer : OutBuffer}
    (hinside : buffer.replyOffset ≤ buffer.message.length) :
    resize 0 buffer.message buffer.replyOffset =
      buffer.message.take buffer.replyOffset := by
  rw [resize, Nat.sub_eq_zero_of_le hinside, List.replicate_zero, List.append_nil]

theorem toBinary_buffers (host : Platform) (signature : DataSignature) (rets : VariantVector)
    (left right : Bytes) :
    Outcome.Alike
      (fun first second => first.defined = true → second.defined = true →
        first.message.length = second.message.length ∧ first.message = second.message)
      (toBinary host signature rets left) (toBinary host signature rets right) := by
  apply (writeReturns_alike agree_kept signature rets (Agree.start left right)).andThen
  intro first second hagree
  refine .next fun hfirst hsecond => ?_
  have hmessage : resize 0 first.message first.replyOffset =
      resize 0 second.message second.replyOffset := by
    rw [resize_inside hagree.firstRoom, resize_inside hagree.secondRoom,
      hagree.same hfirst hsecond]
  exact ⟨congrArg List.length hmessage, hmessage⟩

structure Follows (fresh used : OutBuffer) : Prop where
  offset : used.replyOffset = fresh.replyOffset
  tight : fresh.message.length = fresh.replyOffset
  room : used.replyOffset ≤ used.message.length
  same : fresh.defined = true →
    used.defined = true ∧ used.message.take used.replyOffset = fresh.message

theorem Follows.start (message : Bytes) : Follows (.start []) (.start message) :=
  ⟨rfl, rfl, Nat.zero_le _, fun _ => ⟨rfl, rfl⟩⟩

theorem follows_kept : Kept Follows := by
  intro fresh used count bytes hcount hfollows
  obtain ⟨hoffset, htight, hroom, hsame⟩ := hfollows
  have hlength : (fresh.put count bytes).message.length = fresh.replyOffset + count := by
    rw [OutBuffer.length_put, OutBuffer.reserve_tight htight, List.length_append,
      List.length_replicate, htight]
  refine ⟨?_, ?_, ?_, ?_⟩
  · rw [OutBuffer.put_replyOffset, OutBuffer.put_replyOffset, hoffset]
  · rw [OutBuffer.put_replyOffset, hlength]
  · rw [OutBuffer.put_replyOffset, OutBuffer.length_put]
    exact (OutBuffer.reserve_room hroom).1
  · intro hdefined
    rcases hcount.eq_or_lt with hfits | hlong
    · obtain ⟨hfresh, hfreshDefined⟩ := OutBuffer.put_fits htight.ge hfits.symm
      obtain ⟨hused, husedDefined⟩ := OutBuffer.put_fits hroom hfits.symm
      obtain ⟨hbefore, hsmall⟩ := hfreshDefined.mp hdefined
      obtain ⟨hdefined', hfront⟩ := hsame hbefore
      refine ⟨husedDefined.mpr ⟨hdefined', hoffset ▸ hsmall⟩, ?_⟩
      rw [OutBuffer.put_replyOffset, hused, hfront]
      rw [← hlength, List.take_length, ← htight, List.take_length] at hfresh
      exact hfresh.symm
    · rw [OutBuffer.put_overruns htight hlong] at hdefined
      cases hdefined

/-- What encodes into an empty buffer, inside its bounds, leaves the same in every
other. -/
theorem toBinary_reuses (host : Platform) (signature : DataSignature) (rets : VariantVector)
    (message : Bytes) :
    Outcome.Alike
      (fun fresh used => fresh.defined = true →
        used.defined = true ∧ used.message = fresh.message)
      (toBinary host signature rets []) (toBinary host signature rets message) := by
  apply (writeReturns_alike follows_kept signature rets (Follows.start message)).andThen
  rintro fresh used ⟨hoffset, htight, hroom, hsame⟩
  refine .next fun hdefined => ?_
  obtain ⟨hdefined', hfront⟩ := hsame hdefined
  refine ⟨hdefined', ?_⟩
  rw [resize_inside hroom, resize_inside htight.ge, hfront, ← htight, List.take_length]

end DataSignature

end Rpcmple.Cpp
