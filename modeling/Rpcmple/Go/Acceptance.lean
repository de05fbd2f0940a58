import Rpcmple.Go.DataSignature

namespace Rpcmple.Go.DataSignature

open Data

def AtMost65536 : Value → Prop
  | .doubles bits => bits.length ≤ 65536
  | .ints numbers => numbers.length ≤ 65536
  | .uints numbers => numbers.length ≤ 65536
  | .string text => text.length ≤ 65536
  | .strings texts => texts.length ≤ 65536 ∧ ∀ text ∈ texts, text.length ≤ 65536
  | _ => True

instance : DecidablePred AtMost65536
  | .doubles bits => inferInstanceAs (Decidable (bits.length ≤ 65536))
  | .ints numbers => inferInstanceAs (Decidable (numbers.length ≤ 65536))
  | .uints numbers => inferInstanceAs (Decidable (numbers.length ≤ 65536))
  | .string text => inferInstanceAs (Decidable (text.length ≤ 65536))
  | .strings texts =>
      inferInstanceAs (Decidable (texts.length ≤ 65536 ∧ ∀ text ∈ texts, text.length ≤ 65536))
  | .double _ | .int _ | .uint _ => isTrue trivial

/-- Behind at most one pointer, a value of the type the character asks for. -/
def Acceptable (arg : UInt8) (argument : Any) : Prop :=
  ∃ dataType value, DataType.ofChar? arg = some dataType ∧
    argument.indirect = some (.value value) ∧ dataType.Admits value ∧ AtMost65536 value

private theorem writeCounted_next_iff {length : Nat} {elements body : Bytes} :
    (∃ final, writeCounted length elements body = .next final) ↔ length ≤ 65536 := by
  rw [writeCounted]
  split <;> simp <;> omega

private theorem writeCounted_ne_crash (length : Nat) (elements body : Bytes) :
    writeCounted length elements body ≠ .crash := by
  rw [writeCounted]
  split <;> simp

private theorem writeStrings_next_iff {texts : List Bytes} {body : Bytes} :
    (∃ final, (writeCounted texts.length [] body).andThen
      (Outcome.forEach (fun strVal => writeCounted strVal.length strVal) texts) =
        .next final) ↔ texts.length ≤ 65536 ∧ ∀ text ∈ texts, text.length ≤ 65536 := by
  have hloop := Outcome.forEach_next_iff
    (fun (strVal : Bytes) state => @writeCounted_next_iff strVal.length strVal state) texts
  rw [← @writeCounted_next_iff texts.length [] body]
  constructor
  · intro haccept
    obtain ⟨final, hfinal⟩ := haccept
    obtain ⟨middle, hmiddle, hrest⟩ := Outcome.andThen_eq_next.mp hfinal
    exact ⟨⟨middle, hmiddle⟩, (hloop middle).mp ⟨final, hrest⟩⟩
  · intro hcounts
    obtain ⟨⟨middle, hmiddle⟩, htexts⟩ := hcounts
    obtain ⟨final, hfinal⟩ := (hloop middle).mpr htexts
    exact ⟨final, Outcome.andThen_eq_next.mpr ⟨middle, hmiddle, hfinal⟩⟩

theorem writeValue_next_iff {arg : DataType} {value : Value} {body : Bytes} :
    (∃ final, writeValue arg (.value value) body = .next final) ↔
      arg.narrow = value.dataType ∧ AtMost65536 value := by
  constructor
  · intro haccept
    have htype : arg.narrow = value.dataType := by
      obtain ⟨final, hfinal⟩ := haccept
      obtain ⟨_, hsame, htype⟩ := writeValue_accepts hfinal
      rw [Any.value.inj hsame]
      exact htype
    refine ⟨htype, ?_⟩
    cases value with
    | double | int | uint => trivial
    | doubles | ints | uints | string =>
        cases arg <;> first | contradiction | exact writeCounted_next_iff.mp haccept
    | strings =>
        cases arg <;> first | contradiction | exact writeStrings_next_iff.mp haccept
  · intro hvalue
    obtain ⟨htype, hcount⟩ := hvalue
    cases value with
    | double | int | uint => cases arg <;> first | contradiction | exact ⟨_, rfl⟩
    | doubles | ints | uints | string =>
        cases arg <;> first | contradiction | exact writeCounted_next_iff.mpr hcount
    | strings =>
        cases arg <;> first | contradiction | exact writeStrings_next_iff.mpr hcount

theorem writeValue_ne_crash (arg : DataType) (v : Any) (body : Bytes) :
    writeValue arg v body ≠ .crash := by
  unfold writeValue
  split <;> try simp
  all_goals first
    | exact writeCounted_ne_crash _ _ _
    | exact Outcome.andThen_ne_crash (writeCounted_ne_crash _ _ _)
        (Outcome.forEach_ne_crash fun _ _ => writeCounted_ne_crash _ _)

theorem writeArgument_next_iff {arg : UInt8} {argument : Any} {body : Bytes} :
    (∃ final, writeArgument arg argument body = .next final) ↔ Acceptable arg argument := by
  constructor
  · intro haccept
    obtain ⟨final, hfinal⟩ := haccept
    obtain ⟨dataType, value, harg, hindirect, hadmits⟩ := writeArgument_accepts hfinal
    refine ⟨dataType, value, harg, hindirect, hadmits, ?_⟩
    unfold writeArgument at hfinal
    simp only [hindirect, harg] at hfinal
    cases dataType with
    | v => exact (writeValue_next_iff.mp ⟨final, hfinal⟩).2
    | _ => exact (writeValue_next_iff.mp ⟨final, hfinal⟩).2
  · intro hacceptable
    obtain ⟨dataType, value, harg, hindirect, hadmits, hcount⟩ := hacceptable
    unfold writeArgument
    simp only [hindirect, harg]
    have hnarrow : value.dataType.narrow = value.dataType := by
      cases value <;> rfl
    by_cases hvariant : dataType = .v
    · subst hvariant
      exact writeValue_next_iff.mpr ⟨hnarrow, hcount⟩
    · have hwrite := @writeValue_next_iff dataType value body
      have hfinal := hwrite.mpr ⟨hadmits.resolve_left hvariant, hcount⟩
      cases dataType <;> first | contradiction | exact hfinal

theorem writeArgument_crash_iff {arg : UInt8} {argument : Any} {body : Bytes} :
    writeArgument arg argument body = .crash ↔ argument.indirect = none := by
  unfold writeArgument
  cases hindirect : argument.indirect with
  | none => simp
  | some v =>
      refine ⟨?_, nofun⟩
      intro hcrash
      exfalso
      split at hcrash
      · contradiction
      · rename_i found heq
        cases heq
        split at hcrash
        · cases hcrash
        · split at hcrash
          · cases hcrash
          · exact writeValue_ne_crash _ _ _ hcrash
        · exact writeValue_ne_crash _ _ _ hcrash

def Encodable (ds : DataSignature) (arguments : List Any) : Prop :=
  List.Forall₂ Acceptable ds arguments

def RejectsTheRest (ds : DataSignature) (arguments : List Any) : Prop :=
  ∀ body, ToBinary ds body arguments ≠ .crash ∧
    ((∃ final, ToBinary ds body arguments = .next final) ↔ Encodable ds arguments)

private theorem encodable_iff {ds : DataSignature} {arguments : List Any} :
    Encodable ds arguments ↔ ds.length = arguments.length ∧
      ∀ field ∈ ds.zip arguments, Acceptable field.1 field.2 := by
  rw [Encodable, List.forall₂_iff_zip]
  apply and_congr_right
  intro _
  exact ⟨fun hall field hmem => hall hmem, fun hall arg argument hmem => hall _ hmem⟩

/-- `ToBinary` rejects instead of crashing unless a nil argument has nothing but
acceptable arguments before it. -/
theorem ToBinary_rejects_iff (ds : DataSignature) (arguments : List Any) :
    RejectsTheRest ds arguments ↔
      ds.length ≠ arguments.length ∨
      ∀ front field back, ds.zip arguments = front ++ field :: back →
        (∀ earlier ∈ front, Acceptable earlier.1 earlier.2) →
        field.2.indirect ≠ none := by
  have haccept : ∀ body, (∃ final, ToBinary ds body arguments = .next final) ↔
      Encodable ds arguments := by
    intro body
    rw [encodable_iff, ToBinary]
    by_cases hlength : ds.length = arguments.length
    · rw [if_neg (not_not.mpr hlength), Outcome.forEach_next_iff
        (fun field state => @writeArgument_next_iff field.1 field.2 state)]
      exact (and_iff_right hlength).symm
    · simp [hlength]
  have hcrash : ∀ body, ToBinary ds body arguments = .crash ↔
      ds.length = arguments.length ∧
      ∃ front field back, ds.zip arguments = front ++ field :: back ∧
        (∀ earlier ∈ front, Acceptable earlier.1 earlier.2) ∧
        field.2.indirect = none := by
    intro body
    rw [ToBinary]
    by_cases hlength : ds.length = arguments.length
    · rw [if_neg (not_not.mpr hlength), Outcome.forEach_crash_iff
        (fun field state => @writeArgument_next_iff field.1 field.2 state)
        (fun field state => @writeArgument_crash_iff field.1 field.2 state)]
      exact (and_iff_right hlength).symm
    · simp [hlength]
  constructor
  · intro hrejects
    by_cases hlength : ds.length = arguments.length
    · refine .inr ?_
      intro front field back hsplit hfront hnil
      exact (hrejects []).1 ((hcrash []).mpr ⟨hlength, front, field, back, hsplit, hfront, hnil⟩)
    · exact .inl hlength
  · intro hcondition body
    refine ⟨?_, haccept body⟩
    intro hpanic
    obtain ⟨hlength, front, field, back, hsplit, hfront, hnil⟩ := (hcrash body).mp hpanic
    rcases hcondition with hdiffer | hnone
    · exact hdiffer hlength
    · exact hnone front field back hsplit hfront hnil

/-- A nil argument of a one-character signature panics. -/
theorem ToBinary_panics_on_nil :
    ¬ ∀ ds arguments, RejectsTheRest ds arguments := by
  intro hrejects
  exact (hrejects [DataType.i.char] [.nil] []).1 rfl

end Rpcmple.Go.DataSignature
