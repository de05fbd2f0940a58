import Mathlib

namespace Rpcmple.Data

/-! Systems of parties whose steps interleave. -/

namespace System

variable {σ ι : Type} {step : σ → ι → Option σ} {allowed : σ → ι → Prop}

/-- The states of the runs whose steps are all allowed where they are taken. -/
inductive Reaches (step : σ → ι → Option σ) (allowed : σ → ι → Prop) (start : σ) :
    σ → Prop where
  | start : Reaches step allowed start start
  | step {state next : σ} {action : ι} :
      Reaches step allowed start state → allowed state action →
      step state action = some next → Reaches step allowed start next

def Reachable (step : σ → ι → Option σ) : σ → σ → Prop :=
  Reaches step fun _ _ => True

def run (step : σ → ι → Option σ) (start : σ) (actions : List ι) : Option σ :=
  actions.foldlM step start

theorem run_append {start middle final : σ} {actions more : List ι}
    (hfirst : run step start actions = some middle)
    (hsecond : run step middle more = some final) :
    run step start (actions ++ more) = some final := by
  rw [run] at hfirst
  rw [run, List.foldlM_append, hfirst]
  exact hsecond

theorem Reaches.next {start state next : σ} (hreaches : Reaches step allowed start state)
    (action : ι) (hallowed : allowed state action) (hstep : step state action = some next) :
    Reaches step allowed start next := .step hreaches hallowed hstep

theorem Reachable.next {start state next : σ} (hreaches : Reachable step start state)
    (action : ι) (hstep : step state action = some next) : Reachable step start next :=
  .step hreaches trivial hstep

theorem Reaches.invariant {I : σ → Prop} {start state : σ} (hstart : I start)
    (hstep : ∀ state action next, I state → allowed state action →
      step state action = some next → I next)
    (hreaches : Reaches step allowed start state) : I state := by
  induction hreaches with
  | start => exact hstart
  | step _ hallowed hnext ih => exact hstep _ _ _ ih hallowed hnext

theorem Reaches.trans {start middle final : σ} (hfirst : Reaches step allowed start middle)
    (hsecond : Reaches step allowed middle final) : Reaches step allowed start final := by
  induction hsecond with
  | start => exact hfirst
  | step _ hallowed hnext ih => exact .step ih hallowed hnext

theorem reaches_of_run {start final : σ} {actions : List ι}
    (hallowed : ∀ action ∈ actions, ∀ state, allowed state action)
    (hrun : run step start actions = some final) : Reaches step allowed start final := by
  induction actions generalizing start with
  | nil =>
      obtain rfl := Option.some.inj hrun
      exact .start
  | cons action actions ih =>
      rw [run, List.foldlM_cons] at hrun
      obtain ⟨next, hnext, hrest⟩ := Option.bind_eq_some_iff.mp hrun
      have hfirst := Reaches.step (.start : Reaches step allowed start start)
        (hallowed action List.mem_cons_self start) hnext
      exact hfirst.trans
        (ih (fun other hmem => hallowed other (List.mem_cons_of_mem _ hmem)) hrest)

/-- Every step of this run is allowed where it is taken. -/
def Meets (step : σ → ι → Option σ) (allowed : σ → ι → Prop) : σ → List ι → Prop
  | _, [] => True
  | state, action :: actions =>
      allowed state action ∧ ∀ next, step state action = some next → Meets step allowed next actions

theorem run_iff_meets {P : σ → Prop}
    (hstep : ∀ state action next, step state action = some next →
      (P next ↔ P state ∧ allowed state action))
    {start final : σ} {actions : List ι} (hrun : run step start actions = some final) :
    P final ↔ P start ∧ Meets step allowed start actions := by
  induction actions generalizing start with
  | nil =>
      obtain rfl := Option.some.inj hrun
      simp only [Meets, and_true]
  | cons action actions ih =>
      rw [run, List.foldlM_cons] at hrun
      obtain ⟨next, hnext, hrest⟩ := Option.bind_eq_some_iff.mp hrun
      rw [ih hrest, hstep _ _ _ hnext, Meets, and_assoc]
      refine and_congr_right fun _ => and_congr_right fun _ => ?_
      constructor
      · intro hmeets other hother
        obtain rfl := Option.some.inj (hnext.symm.trans hother)
        exact hmeets
      · exact fun hmeets => hmeets next hnext

def Along (step : σ → ι → Option σ) (P : σ → Prop) : σ → List ι → Prop
  | state, [] => P state
  | state, action :: actions =>
      P state ∧ ∀ next, step state action = some next → Along step P next actions

theorem Along.head {P : σ → Prop} {state : σ} {actions : List ι}
    (halong : Along step P state actions) : P state := by
  cases actions with
  | nil => exact halong
  | cons action actions => exact halong.1

theorem Along.meets {P : σ → Prop}
    (hstep : ∀ state action next, step state action = some next → P next →
      allowed state action)
    (hsteps : ∀ state action, step state action = none → allowed state action)
    {start : σ} {actions : List ι} (halong : Along step P start actions) :
    Meets step allowed start actions := by
  induction actions generalizing start with
  | nil => exact trivial
  | cons action actions ih =>
      refine ⟨?_, fun next hnext => ih (halong.2 next hnext)⟩
      cases hnext : step start action with
      | none => exact hsteps start action hnext
      | some next => exact hstep start action next hnext (halong.2 next hnext).head

theorem Meets.along {I : σ → Prop}
    (hkeeps : ∀ state action next, I state → allowed state action →
      step state action = some next → I next)
    {start : σ} {actions : List ι} (hmeets : Meets step allowed start actions)
    (hstart : I start) : Along step I start actions := by
  induction actions generalizing start with
  | nil => exact hstart
  | cons action actions ih =>
      exact ⟨hstart, fun next hnext =>
        ih (hmeets.2 next hnext) (hkeeps _ _ _ hstart hmeets.1 hnext)⟩

theorem Along.mono {P Q : σ → Prop} (hPQ : ∀ state, P state → Q state) {start : σ}
    {actions : List ι} (halong : Along step P start actions) :
    Along step Q start actions := by
  induction actions generalizing start with
  | nil => exact hPQ _ halong
  | cons action actions ih =>
      exact ⟨hPQ _ halong.1, fun next hnext => ih (halong.2 next hnext)⟩

/-- A property that only the steps that are not allowed break holds all along a run exactly
when all its steps are allowed. -/
theorem along_iff_meets {P I : σ → Prop}
    (hkeeps : ∀ state action next, I state → step state action = some next → I next)
    (hstep : ∀ state action next, I state → P state → step state action = some next →
      (P next ↔ allowed state action))
    (hsteps : ∀ state action, step state action = none → allowed state action)
    {start : σ} (hstart : I start) (hholds : P start) {actions : List ι} :
    Along step P start actions ↔ Meets step allowed start actions := by
  induction actions generalizing start with
  | nil => exact iff_of_true hholds trivial
  | cons action actions ih =>
      rw [Along, Meets, and_iff_right hholds]
      cases hnext : step start action with
      | none => simp [hsteps start action hnext]
      | some next =>
          have hiff := hstep _ _ _ hstart hholds hnext
          simp only [Option.some.injEq, forall_eq']
          constructor
          · intro halong
            have hP := halong.head
            exact ⟨hiff.mp hP, (ih (hkeeps _ _ _ hstart hnext) hP).mp halong⟩
          · rintro ⟨hallowed, hmeets⟩
            exact (ih (hkeeps _ _ _ hstart hnext) (hiff.mpr hallowed)).mpr hmeets

/-- A system that tests before each step whether it is allowed. -/
def guarded (step : σ → ι → Option σ) (allowed : σ → ι → Prop)
    [∀ state action, Decidable (allowed state action)] (state : σ) (action : ι) : Option σ :=
  if allowed state action then step state action else none

theorem reaches_of_guarded [∀ state action, Decidable (allowed state action)]
    {start final : σ} {actions : List ι}
    (hrun : run (guarded step allowed) start actions = some final) :
    Reaches step allowed start final := by
  have hguarded : Reachable (guarded step allowed) start final :=
    reaches_of_run (fun _ _ _ => trivial) hrun
  clear hrun
  induction hguarded with
  | start => exact .start
  | @step state next action _ _ hnext ih =>
      rw [guarded] at hnext
      split at hnext
      · rename_i hallowed
        exact .step ih hallowed hnext
      · cases hnext

/-- A state, and what is remembered of the steps that led there. -/
structure Recalled (σ μ : Type) where
  state : σ
  memory : μ

def recalling {μ : Type} (step : σ → ι → Option σ) (remember : σ → ι → σ → μ → μ)
    (recalled : Recalled σ μ) (action : ι) : Option (Recalled σ μ) :=
  (step recalled.state action).map fun next =>
    ⟨next, remember recalled.state action next recalled.memory⟩

theorem meets_of_guarded [∀ state action, Decidable (allowed state action)]
    {start final : σ} {actions : List ι}
    (hrun : run (guarded step allowed) start actions = some final) :
    Meets step allowed start actions ∧ run step start actions = some final := by
  induction actions generalizing start with
  | nil => exact ⟨trivial, hrun⟩
  | cons action actions ih =>
      rw [run, List.foldlM_cons] at hrun ⊢
      obtain ⟨next, hguarded, hrest⟩ := Option.bind_eq_some_iff.mp hrun
      rw [guarded] at hguarded
      split at hguarded
      · rename_i hallowed
        obtain ⟨hmeets, hfinal⟩ := ih hrest
        refine ⟨⟨hallowed, fun other hother => ?_⟩, ?_⟩
        · obtain rfl := Option.some.inj (hguarded.symm.trans hother)
          exact hmeets
        · exact Option.bind_eq_some_iff.mpr ⟨next, hguarded, hfinal⟩
      · cases hguarded

end System

end Rpcmple.Data
