import Rpcmple.Data.System

namespace Rpcmple.Data

/-! A system behind a mutex and one condition variable. -/

/-- The state, the threads asleep on the condition variable, and those whose next step is
`notify_all`. -/
structure Monitor (σ κ : Type) where
  state : σ
  asleep : κ → Bool
  owes : κ → Bool

/-- The steps that threads take under the mutex, the predicate at whose wait a thread is,
and the steps that are followed by `notify_all`. -/
structure Monitored (σ κ ι : Type) where
  step : σ → ι → Option σ
  acts : κ → ι → Bool
  waitsFor : σ → κ → Option Bool
  signals : σ → ι → σ → Bool

namespace Monitor

variable {σ κ ι : Type}

/-- A thread that is awake makes a step, goes to sleep at a wait whose predicate is false,
or wakes all the others. -/
inductive Action (κ ι : Type) where
  | act (thread : κ) (action : ι)
  | sleep (thread : κ)
  | notify (thread : κ)

def Action.thread : Action κ ι → κ
  | .act thread _ | .sleep thread | .notify thread => thread

def free (monitor : Monitor σ κ) (thread : κ) : Bool :=
  !monitor.asleep thread && !monitor.owes thread

section

variable [DecidableEq κ] (program : Monitored σ κ ι)

def start (state : σ) : Monitor σ κ := ⟨state, fun _ => false, fun _ => false⟩

def step (monitor : Monitor σ κ) : Action κ ι → Option (Monitor σ κ)
  | .act thread action =>
      if monitor.free thread && program.acts thread action then
        (program.step monitor.state action).map fun next =>
          { monitor with
            state := next
            owes := Function.update monitor.owes thread
              (program.signals monitor.state action next) }
      else none
  | .sleep thread =>
      if monitor.free thread && program.waitsFor monitor.state thread == some false then
        some { monitor with asleep := Function.update monitor.asleep thread true }
      else none
  | .notify thread =>
      if monitor.owes thread then
        some
          { monitor with
            asleep := fun _ => false
            owes := Function.update monitor.owes thread false }
      else none

/-- No thread sleeps through its predicate, unless a notification is still to come. -/
def Notified (monitor : Monitor σ κ) : Prop :=
  ∀ thread, monitor.asleep thread = true →
    program.waitsFor monitor.state thread = some true →
    ∃ other, monitor.owes other = true

/-- What the steps of the system do to the predicates of other threads: they leave them at
their waits, and a step that makes a predicate true signals, unless it strands the thread.
The invariant is one of the system alone. -/
structure Signalled (invariant : σ → Prop) (strands : σ → ι → κ → Prop) : Prop where
  keeps : ∀ state action next, invariant state → program.step state action = some next →
    invariant next
  stays : ∀ state actor action next thread, invariant state →
    program.acts actor action = true → thread ≠ actor →
    program.step state action = some next →
    (program.waitsFor state thread).isSome → (program.waitsFor next thread).isSome
  raises : ∀ state actor action next thread, invariant state →
    program.acts actor action = true → thread ≠ actor →
    program.step state action = some next → program.waitsFor state thread = some false →
    program.waitsFor next thread = some true →
    program.signals state action next = true ∨ strands state action thread
  strands : ∀ state actor action next thread, invariant state →
    program.acts actor action = true → thread ≠ actor →
    program.step state action = some next → strands state action thread →
    program.signals state action next = false ∧ program.waitsFor next thread = some true

/-- The step strands a thread that is asleep, and no notification is to come. -/
def Strands (strands : σ → ι → κ → Prop) (monitor : Monitor σ κ) : Action κ ι → Prop
  | .act actor action =>
      (∃ next, step program monitor (.act actor action) = some next) ∧
        (∃ thread, monitor.asleep thread = true ∧ strands monitor.state action thread) ∧
        ∀ other, monitor.owes other = false
  | .sleep _ | .notify _ => False

structure Sound (invariant : σ → Prop) (monitor : Monitor σ κ) : Prop where
  holds : invariant monitor.state
  waits : ∀ thread, monitor.asleep thread = true →
    (program.waitsFor monitor.state thread).isSome

end

variable [DecidableEq κ] {program : Monitored σ κ ι} {invariant : σ → Prop}
  {strands : σ → ι → κ → Prop} {monitor next : Monitor σ κ}

theorem step_act {thread : κ} {action : ι}
    (hstep : step program monitor (.act thread action) = some next) :
    monitor.asleep thread = false ∧ monitor.owes thread = false ∧
      program.acts thread action = true ∧
      ∃ state, program.step monitor.state action = some state ∧
        next = { monitor with
          state
          owes := Function.update monitor.owes thread
            (program.signals monitor.state action state) } := by
  simp only [step] at hstep
  split at hstep
  · rename_i hfree
    simp only [free, Bool.and_eq_true, Bool.not_eq_true'] at hfree
    obtain ⟨state, hstate, rfl⟩ := Option.map_eq_some_iff.mp hstep
    exact ⟨hfree.1.1, hfree.1.2, hfree.2, state, hstate, rfl⟩
  · cases hstep

theorem step_sleep {thread : κ}
    (hstep : step program monitor (.sleep thread) = some next) :
    program.waitsFor monitor.state thread = some false ∧
      next = { monitor with asleep := Function.update monitor.asleep thread true } := by
  simp only [step] at hstep
  split at hstep
  · rename_i hfree
    simp only [Bool.and_eq_true, beq_iff_eq] at hfree
    cases hstep
    exact ⟨hfree.2, rfl⟩
  · cases hstep

theorem step_notify {thread : κ}
    (hstep : step program monitor (.notify thread) = some next) :
    next = { monitor with
      asleep := fun _ => false
      owes := Function.update monitor.owes thread false } := by
  simp only [step] at hstep
  split at hstep
  · cases hstep
    rfl
  · cases hstep

theorem owes_step {action : Action κ ι} (hstep : step program monitor action = some next)
    {thread : κ} (hother : thread ≠ action.thread) : next.owes thread = monitor.owes thread := by
  cases action with
  | act actor action =>
      obtain ⟨-, -, -, state, -, rfl⟩ := step_act hstep
      exact Function.update_of_ne hother ..
  | sleep actor =>
      obtain ⟨-, rfl⟩ := step_sleep hstep
      rfl
  | notify actor =>
      obtain rfl := step_notify hstep
      exact Function.update_of_ne hother ..

theorem owes_run {actions : List (Action κ ι)}
    (hrun : System.run (step program) monitor actions = some next) {thread : κ}
    (hother : ∀ action ∈ actions, thread ≠ action.thread) :
    next.owes thread = monitor.owes thread := by
  induction actions generalizing monitor with
  | nil =>
      obtain rfl := Option.some.inj hrun
      rfl
  | cons action actions ih =>
      rw [System.run, List.foldlM_cons] at hrun
      obtain ⟨middle, hmiddle, hrest⟩ := Option.bind_eq_some_iff.mp hrun
      rw [ih hrest fun other hmem => hother other (List.mem_cons_of_mem _ hmem),
        owes_step hmiddle (hother action List.mem_cons_self)]

theorem Sound.step (hsignalled : Signalled program invariant strands)
    (hsound : Sound program invariant monitor) {action : Action κ ι}
    (hstep : step program monitor action = some next) : Sound program invariant next := by
  cases action with
  | act actor action =>
      obtain ⟨hawake, -, hacts, state, hstate, rfl⟩ := step_act hstep
      refine ⟨hsignalled.keeps _ _ _ hsound.holds hstate, ?_⟩
      intro thread hasleep
      have hother : thread ≠ actor := by
        rintro rfl
        exact absurd hasleep (by simp [hawake])
      exact hsignalled.stays _ _ _ _ _ hsound.holds hacts hother hstate
        (hsound.waits thread hasleep)
  | sleep thread =>
      obtain ⟨hwaits, rfl⟩ := step_sleep hstep
      refine ⟨hsound.holds, ?_⟩
      intro other hasleep
      simp only at hasleep ⊢
      by_cases hsame : other = thread
      · rw [hsame, hwaits]
        rfl
      · rw [Function.update_of_ne hsame] at hasleep
        exact hsound.waits other hasleep
  | notify thread =>
      obtain rfl := step_notify hstep
      exact ⟨hsound.holds, by simp⟩

theorem notified_step (hsignalled : Signalled program invariant strands)
    (hsound : Sound program invariant monitor) (hnotified : Notified program monitor)
    {action : Action κ ι} (hstep : step program monitor action = some next) :
    Notified program next ↔ ¬ Strands program strands monitor action := by
  cases action with
  | act actor action =>
      have hmoves := hstep
      obtain ⟨hawake, hquiet, hacts, state, hstate, rfl⟩ := step_act hstep
      have hother : ∀ thread, monitor.asleep thread = true → thread ≠ actor := by
        rintro thread hasleep rfl
        exact absurd hasleep (by simp [hawake])
      constructor
      · rintro hnext ⟨-, ⟨thread, hasleep, hstrands⟩, hnobody⟩
        obtain ⟨hsilent, hready⟩ := hsignalled.strands _ _ _ _ _ hsound.holds hacts
          (hother thread hasleep) hstate hstrands
        obtain ⟨other, howes⟩ := hnext thread hasleep hready
        simp only at howes
        by_cases hsame : other = actor
        · simp [hsame, hsilent] at howes
        · rw [Function.update_of_ne hsame, hnobody] at howes
          cases howes
      · intro hstrands thread hasleep hready
        have hbefore : (∃ other, monitor.owes other = true) →
            ∃ other, Function.update monitor.owes actor
              (program.signals monitor.state action state) other = true := by
          rintro ⟨other, howes⟩
          have hdiffers : other ≠ actor := by
            rintro rfl
            rw [hquiet] at howes
            cases howes
          exact ⟨other, by rw [Function.update_of_ne hdiffers, howes]⟩
        cases hpredicate : program.waitsFor monitor.state thread with
        | none =>
            have hwaits := hsound.waits thread hasleep
            simp [hpredicate] at hwaits
        | some predicate =>
            cases predicate with
            | true => exact hbefore (hnotified thread hasleep hpredicate)
            | false =>
                rcases hsignalled.raises _ _ _ _ _ hsound.holds hacts
                  (hother thread hasleep) hstate hpredicate hready with hsignals | hleft
                · exact ⟨actor, by simpa using hsignals⟩
                · apply hbefore
                  by_contra hnobody
                  refine hstrands ⟨⟨_, hmoves⟩, ⟨thread, hasleep, hleft⟩, ?_⟩
                  simpa using hnobody
  | sleep thread =>
      obtain ⟨hwaits, rfl⟩ := step_sleep hstep
      refine iff_of_true ?_ not_false
      intro other hasleep hready
      simp only at hasleep hready
      by_cases hsame : other = thread
      · rw [hsame, hwaits] at hready
        cases hready
      · rw [Function.update_of_ne hsame] at hasleep
        exact hnotified other hasleep hready
  | notify thread =>
      obtain rfl := step_notify hstep
      refine iff_of_true ?_ not_false
      intro other hasleep
      cases hasleep

/-- Along a run no thread is left asleep exactly when no step of it strands one. -/
theorem along_notified_iff (hsignalled : Signalled program invariant strands) {state : σ}
    (hinvariant : invariant state) (actions : List (Action κ ι)) :
    System.Along (step program) (Notified program) (start state) actions ↔
      System.Meets (step program) (fun monitor action => ¬ Strands program strands monitor action)
        (start state) actions := by
  apply System.along_iff_meets (I := Sound program invariant)
  · exact fun _ _ _ hsound hstep => hsound.step hsignalled hstep
  · exact fun _ _ _ hsound hnotified hstep => notified_step hsignalled hsound hnotified hstep
  · intro monitor action hstuck hstrands
    cases action with
    | act actor action =>
        obtain ⟨⟨next, hstep⟩, -⟩ := hstrands
        rw [hstuck] at hstep
        cases hstep
    | sleep | notify => exact hstrands
  · exact ⟨hinvariant, by simp [start]⟩
  · intro thread hasleep
    cases hasleep

end Monitor

end Rpcmple.Data
