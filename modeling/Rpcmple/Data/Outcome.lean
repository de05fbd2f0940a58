import Rpcmple.Data.Bytes

namespace Rpcmple.Data

/-! Straight-line code with early exits. -/

/-- How a piece of code ends: control goes on, the function returns false, or
the thread dies. -/
inductive Outcome (σ : Type) where
  | next (state : σ)
  | fail (state : σ)
  | crash
  deriving DecidableEq, Repr

namespace Outcome

variable {σ τ α : Type}

def andThen : Outcome σ → (σ → Outcome σ) → Outcome σ
  | next state, continuation => continuation state
  | fail state, _ => fail state
  | crash, _ => crash

@[simp] theorem next_andThen (state : σ) (continuation : σ → Outcome σ) :
    (next state).andThen continuation = continuation state := rfl

@[simp] theorem fail_andThen (state : σ) (continuation : σ → Outcome σ) :
    (fail state).andThen continuation = fail state := rfl

@[simp] theorem crash_andThen (continuation : σ → Outcome σ) :
    (crash : Outcome σ).andThen continuation = crash := rfl

theorem andThen_eq_next {outcome : Outcome σ} {continuation : σ → Outcome σ}
    {state : σ} :
    outcome.andThen continuation = next state ↔
      ∃ middle, outcome = next middle ∧ continuation middle = next state := by
  cases outcome <;> simp

theorem andThen_ne_crash {outcome : Outcome σ} {continuation : σ → Outcome σ}
    (houtcome : outcome ≠ crash) (hcontinuation : ∀ state, continuation state ≠ crash) :
    outcome.andThen continuation ≠ crash := by
  cases outcome with
  | next state => exact hcontinuation state
  | fail state => simp
  | crash => exact absurd rfl houtcome

def forEach (body : α → σ → Outcome σ) : List α → σ → Outcome σ
  | [], state => next state
  | item :: items, state => (body item state).andThen (forEach body items)

@[simp] theorem forEach_nil (body : α → σ → Outcome σ) (state : σ) :
    forEach body [] state = next state := rfl

@[simp] theorem forEach_cons (body : α → σ → Outcome σ) (item : α)
    (items : List α) (state : σ) :
    forEach body (item :: items) state =
      (body item state).andThen (forEach body items) := rfl

theorem forEach_ne_crash {body : α → σ → Outcome σ} {items : List α}
    (hbody : ∀ item ∈ items, ∀ state, body item state ≠ crash) (state : σ) :
    forEach body items state ≠ crash := by
  induction items generalizing state with
  | nil => simp
  | cons item items ih =>
      have htail := ih fun other hmem => hbody other (List.mem_cons_of_mem _ hmem)
      have hhead := hbody item List.mem_cons_self state
      rw [forEach_cons]
      cases hstep : body item state with
      | next middle => exact htail middle
      | fail middle => simp
      | crash => exact absurd hstep hhead

theorem forEach_extends {body : α → σ → Outcome σ} {emit : α → Bytes}
    {R : σ → Bytes → Prop} {items : List α}
    (hbody : ∀ item ∈ items, ∀ state output, R state output →
      ∃ state', body item state = next state' ∧ R state' (output ++ emit item))
    {state : σ} {output : Bytes} (hstate : R state output) :
    ∃ state', forEach body items state = next state' ∧
      R state' (output ++ items.flatMap emit) := by
  induction items generalizing state output with
  | nil => exact ⟨state, rfl, by simpa using hstate⟩
  | cons item items ih =>
      obtain ⟨middle, hmiddle, hrel⟩ := hbody item List.mem_cons_self state output hstate
      obtain ⟨final, hfinal, hdone⟩ :=
        ih (fun other hmem => hbody other (List.mem_cons_of_mem _ hmem)) hrel
      refine ⟨final, ?_, ?_⟩
      · rw [forEach_cons, hmiddle]
        exact hfinal
      · simpa [List.append_assoc] using hdone

theorem forEach_next_iff {body : α → σ → Outcome σ} {P : α → Prop}
    (hbody : ∀ item state, (∃ final, body item state = next final) ↔ P item)
    (items : List α) (state : σ) :
    (∃ final, forEach body items state = next final) ↔ ∀ item ∈ items, P item := by
  induction items generalizing state with
  | nil => simp
  | cons item items ih =>
      rw [List.forall_mem_cons, ← hbody item state]
      constructor
      · intro hloop
        obtain ⟨final, hfinal⟩ := hloop
        obtain ⟨middle, hmiddle, hrest⟩ := andThen_eq_next.mp hfinal
        exact ⟨⟨middle, hmiddle⟩, (ih middle).mp ⟨final, hrest⟩⟩
      · intro hrounds
        obtain ⟨⟨middle, hmiddle⟩, hrest⟩ := hrounds
        obtain ⟨final, hfinal⟩ := (ih middle).mpr hrest
        exact ⟨final, andThen_eq_next.mpr ⟨middle, hmiddle, hfinal⟩⟩

theorem forEach_crash_iff {body : α → σ → Outcome σ} {P Q : α → Prop}
    (hnext : ∀ item state, (∃ final, body item state = next final) ↔ P item)
    (hcrash : ∀ item state, body item state = crash ↔ Q item)
    (items : List α) (state : σ) :
    forEach body items state = crash ↔
      ∃ front item back, items = front ++ item :: back ∧
        (∀ earlier ∈ front, P earlier) ∧ Q item := by
  induction items generalizing state with
  | nil => simp
  | cons item items ih =>
      rw [forEach_cons]
      constructor
      · intro hloop
        cases hround : body item state with
        | next middle =>
            rw [hround, next_andThen, ih] at hloop
            obtain ⟨front, other, back, rfl, hfront, hother⟩ := hloop
            refine ⟨item :: front, other, back, rfl, ?_, hother⟩
            exact List.forall_mem_cons.mpr ⟨(hnext item state).mp ⟨middle, hround⟩, hfront⟩
        | fail middle => simp [hround] at hloop
        | crash => exact ⟨[], item, items, rfl, by simp, (hcrash item state).mp hround⟩
      · intro hitems
        obtain ⟨front, other, back, hsplit, hfront, hother⟩ := hitems
        cases front with
        | nil =>
            obtain ⟨rfl, rfl⟩ := List.cons.inj hsplit
            rw [(hcrash item state).mpr hother, crash_andThen]
        | cons first front =>
            obtain ⟨rfl, rfl⟩ := List.cons.inj hsplit
            obtain ⟨hfirst, hrest⟩ := List.forall_mem_cons.mp hfront
            obtain ⟨middle, hmiddle⟩ := (hnext item state).mpr hfirst
            rw [hmiddle, next_andThen]
            exact (ih middle).mpr ⟨front, other, back, rfl, hrest, hother⟩

/-- Two runs that end alike, in related states when control goes on. -/
inductive Alike (R : σ → σ → Prop) : Outcome σ → Outcome σ → Prop where
  | next {first second : σ} : R first second → Alike R (next first) (next second)
  | fail (first second : σ) : Alike R (fail first) (fail second)
  | crash : Alike R crash crash

theorem Alike.andThen {R S : σ → σ → Prop} {first second : Outcome σ}
    {continuation : σ → Outcome σ} (halike : Alike R first second)
    (hcontinuation : ∀ left right, R left right →
      Alike S (continuation left) (continuation right)) :
    Alike S (first.andThen continuation) (second.andThen continuation) := by
  cases halike with
  | next hrelated => exact hcontinuation _ _ hrelated
  | fail left right => exact .fail left right
  | crash => exact .crash

theorem Alike.forEach {R : σ → σ → Prop} {body : α → σ → Outcome σ} {items : List α}
    (hbody : ∀ item ∈ items, ∀ left right, R left right →
      Alike R (body item left) (body item right))
    {left right : σ} (hrelated : R left right) :
    Alike R (Outcome.forEach body items left) (Outcome.forEach body items right) := by
  induction items generalizing left right with
  | nil => exact .next hrelated
  | cons item items ih =>
      apply (hbody item List.mem_cons_self left right hrelated).andThen
      intro left right hrelated
      exact ih (fun other hmem => hbody other (List.mem_cons_of_mem _ hmem)) hrelated

end Outcome

end Rpcmple.Data
