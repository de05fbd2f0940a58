import Rpcmple.Cpp.FromBinary

namespace Rpcmple.Cpp

open Data

/-! How far a body can be read, with every conversion to wide text left out. -/

/-- What reading leads to, the bytes it leaves, and the texts it would convert. -/
structure Walked (α : Type) where
  result : Option α
  left : Bytes
  texts : List Bytes

structure Walk (α : Type) where
  run : Bytes → Walked α
  suffix : ∀ bytes, ∃ used, used ++ (run bytes).left = bytes

namespace Walk

variable {α β : Type}

def stop : Walk α where
  run bytes := ⟨none, bytes, []⟩
  suffix _ := ⟨[], rfl⟩

def done (item : α) : Walk α where
  run bytes := ⟨some item, bytes, []⟩
  suffix _ := ⟨[], rfl⟩

def convert (text : Bytes) : Walk Bytes where
  run bytes := ⟨some text, bytes, [text.takeWhile (· ≠ 0)]⟩
  suffix _ := ⟨[], rfl⟩

def take (count : Nat) : Walk Bytes where
  run bytes :=
    match splitBytes? count bytes with
    | none => ⟨none, bytes, []⟩
    | some (front, rest) => ⟨some front, rest, []⟩
  suffix bytes := by
    cases hsplit : splitBytes? count bytes with
    | none => exact ⟨[], rfl⟩
    | some split => exact ⟨split.1, (splitBytes?_eq_some.mp hsplit).2⟩

def andThen (walk : Walk α) (next : α → Walk β) : Walk β where
  run bytes :=
    match (walk.run bytes).result with
    | none => ⟨none, (walk.run bytes).left, (walk.run bytes).texts⟩
    | some item =>
        { (next item).run (walk.run bytes).left with
          texts := (walk.run bytes).texts ++ ((next item).run (walk.run bytes).left).texts }
  suffix bytes := by
    obtain ⟨used, hused⟩ := walk.suffix bytes
    cases (walk.run bytes).result with
    | none => exact ⟨used, hused⟩
    | some item =>
        obtain ⟨more, hmore⟩ := (next item).suffix (walk.run bytes).left
        exact ⟨used ++ more, by rw [List.append_assoc, hmore, hused]⟩

def count : Walk Nat := (take 2).andThen fun bytes => done (leValue bytes)

def times (walk : Walk α) : Nat → Walk (List α)
  | 0 => done []
  | count + 1 =>
      walk.andThen fun item => (walk.times count).andThen fun items => done (item :: items)

def array (walk : Walk α) : Walk (List α) := count.andThen walk.times

def string : Walk Bytes := count.andThen take

def wideString : Walk Bytes := string.andThen convert

def scalar : Walk Unit := (take 8).andThen fun _ => done ()

def value : DataType → Walk Unit
  | .d | .i | .u => scalar.andThen fun _ => done ()
  | .D | .I | .U => (array scalar).andThen fun _ => done ()
  | .s => string.andThen fun _ => done ()
  | .S => (array string).andThen fun _ => done ()
  | .w => wideString.andThen fun _ => done ()
  | .W => (array wideString).andThen fun _ => done ()
  | .v => stop

def field (char : UInt8) : Walk Unit :=
  match DataType.ofChar? char with
  | none => stop
  | some .v => (take 1).andThen fun tag =>
      match tag.head?.bind DataType.ofChar? with
      | none => stop
      | some dataType => value dataType
  | some dataType => value dataType

def body : DataSignature → Walk Unit
  | [] => done ()
  | char :: signature => (field char).andThen fun _ => body signature

end Walk

namespace DataSignature

variable {host : Platform} {message : Bytes} {α β γ δ : Type}

def Converts (host : Platform) (texts : List Bytes) : Prop :=
  ∀ text ∈ texts, host.fromBytes text ≠ none

/-- How a read that should lead there ends: so, unless the position does not fit the
offset or a text on the way cannot be converted. -/
inductive Ends (host : Platform) (R : α → β → Prop) (position : Nat) :
    Exec (α × Nat) → Walked β → Prop where
  | rejects {left : Bytes} {texts : List Bytes} :
      position < 2 ^ 31 → Converts host texts →
      Ends host R position .rejects ⟨none, left, texts⟩
  | returns {item : α} {result : β} {left : Bytes} {texts : List Bytes} :
      position < 2 ^ 31 → Converts host texts → R item result →
      Ends host R position (.returns (item, position)) ⟨some result, left, texts⟩
  | fails {outcome : Exec (α × Nat)} {walked : Walked β} :
      ¬ (position < 2 ^ 31 ∧ Converts host walked.texts) →
      outcome = .throws ∨ outcome = .undefined → Ends host R position outcome walked

def Walks (host : Platform) (message : Bytes) (R : α → β → Prop) (read : Reader α)
    (walk : Walk β) : Prop :=
  ∀ front bytes, front ++ bytes = message → front.length < 2 ^ 31 →
    Ends host R (message.length - (walk.run bytes).left.length) (read front.length)
      (walk.run bytes)

theorem converts_nil : Converts host [] := fun _ hmem => absurd hmem List.not_mem_nil

theorem converts_append {first second : List Bytes} :
    Converts host (first ++ second) ↔ Converts host first ∧ Converts host second :=
  List.forall_mem_append

private theorem position_front {front bytes : Bytes} (hmessage : front ++ bytes = message) :
    message.length - bytes.length = front.length := by
  rw [← hmessage, List.length_append, Nat.add_sub_cancel]

theorem walks_done {R : α → β → Prop} {item : α} {walked : β} (hrelated : R item walked) :
    Walks host message R (pure item) (Walk.done walked) := by
  intro front bytes hmessage hfront
  have hposition := position_front hmessage
  change Ends host R (message.length - bytes.length) (.returns (item, front.length)) _
  rw [← hposition] at hfront ⊢
  exact .returns hfront converts_nil hrelated

theorem Walks.andThen {R : α → β → Prop} {S : γ → δ → Prop} {read : Reader α}
    {next : α → Reader γ} {walk : Walk β} {nextWalk : β → Walk δ}
    (hread : Walks host message R read walk)
    (hnext : ∀ item walked, R item walked →
      Walks host message S (next item) (nextWalk walked)) :
    Walks host message S (read >>= next) (walk.andThen nextWalk) := by
  intro front bytes hmessage hfront
  have hends := hread front bytes hmessage hfront
  obtain ⟨used, hused⟩ := walk.suffix bytes
  change Ends host S _ (read front.length >>= fun result => next result.1 result.2) _
  unfold Walk.andThen
  simp only
  generalize walk.run bytes = first at hends hused ⊢
  generalize read front.length = outcome at hends ⊢
  cases hends with
  | rejects hposition htexts => exact .rejects hposition htexts
  | @returns item result left texts hposition htexts hrelated =>
      have hbehind : (front ++ used) ++ left = message := by
        rw [List.append_assoc, hused, hmessage]
      have hsame := position_front hbehind
      simp only at hposition ⊢
      rw [hsame] at hposition
      have hrest := hnext item result hrelated (front ++ used) left hbehind hposition
      rw [hsame, Exec.returns_bind]
      generalize (nextWalk result).run left = second at hrest ⊢
      generalize next item (front ++ used).length = following at hrest ⊢
      cases hrest with
      | rejects hend hmore => exact .rejects hend (converts_append.mpr ⟨htexts, hmore⟩)
      | returns hend hmore hrelated =>
          exact .returns hend (converts_append.mpr ⟨htexts, hmore⟩) hrelated
      | fails hfails houtcome =>
          refine .fails ?_ houtcome
          intro hgood
          exact hfails ⟨hgood.1, (converts_append.mp hgood.2).2⟩
  | fails hfails houtcome =>
      have hlost : (outcome >>= fun result => next result.1 result.2) = .throws ∨
          (outcome >>= fun result => next result.1 result.2) = .undefined := by
        rcases houtcome with rfl | rfl
        · exact .inl rfl
        · exact .inr rfl
      cases hresult : first.result with
      | none => exact .fails hfails hlost
      | some walked =>
          refine .fails ?_ hlost
          intro hgood
          obtain ⟨further, hfurther⟩ := (nextWalk walked).suffix first.left
          have hshorter := congrArg List.length hfurther
          have hend := hgood.1
          rw [List.length_append] at hshorter
          simp only at hend
          exact hfails ⟨by omega, (converts_append.mp hgood.2).1⟩

theorem Walks.map {R : α → β → Prop} {read : Reader α} {walk : Walk β} {f : α → γ}
    (hread : Walks host message R read walk) :
    Walks host message (fun _ _ => True) (read >>= fun item => pure (f item))
      (walk.andThen fun _ => Walk.done ()) :=
  hread.andThen fun _ _ _ => walks_done trivial

/-! The readers of the fields.  The size of a vector is a `size_t`. -/

section Fields

variable (hsize : message.length < 2 ^ 64)

include hsize

end Fields

end DataSignature

end Rpcmple.Cpp
