import Rpcmple.Data.System

namespace Rpcmple.Data

namespace System

variable {σ ι : Type} {step : σ → ι → Option σ}

def Stuck (step : σ → ι → Option σ) (state : σ) : Prop := ∀ action, step state action = none

/-- No run goes on for ever, and one that cannot go on has come to `P`. -/
structure Completes (step : σ → ι → Option σ) (start : σ) (P : σ → Prop) : Prop where
  bounded : ∃ bound, ∀ actions final, run step start actions = some final →
    actions.length ≤ bound
  ends : ∀ final, Reachable step start final → Stuck step final → P final

theorem run_length_le {I : σ → Prop} {size : σ → Nat}
    (hstep : ∀ state action next, I state → step state action = some next →
      I next ∧ size next < size state)
    {start final : σ} {actions : List ι} (hstart : I start)
    (hrun : run step start actions = some final) :
    actions.length + size final ≤ size start := by
  induction actions generalizing start with
  | nil =>
      obtain rfl := Option.some.inj hrun
      simp
  | cons action actions ih =>
      rw [run, List.foldlM_cons] at hrun
      obtain ⟨next, hnext, hrest⟩ := Option.bind_eq_some_iff.mp hrun
      obtain ⟨hinvariant, hless⟩ := hstep _ _ _ hstart hnext
      have hlength := ih hinvariant hrest
      rw [List.length_cons]
      omega

theorem Completes.exists_final {P : σ → Prop} {start : σ} (hcompletes : Completes step start P) :
    ∃ final, Reachable step start final ∧ P final := by
  by_contra hnone
  push Not at hnone
  -- Where `P` never holds no state is stuck, and a run can be made as long as one likes.
  have hgoes : ∀ length, ∃ actions final, run step start actions = some final ∧
      Reachable step start final ∧ actions.length = length := by
    intro length
    induction length with
    | zero => exact ⟨[], start, rfl, .start, rfl⟩
    | succ length ih =>
        obtain ⟨actions, final, hrun, hreaches, hlength⟩ := ih
        have hstuck : ¬ Stuck step final :=
          mt (hcompletes.ends final hreaches) (hnone final hreaches)
        rw [Stuck, not_forall] at hstuck
        obtain ⟨action, haction⟩ := hstuck
        obtain ⟨next, hnext⟩ := Option.ne_none_iff_exists'.mp haction
        have hlonger : run step final [action] = some next := by
          rw [run, List.foldlM_cons, hnext]
          rfl
        exact ⟨actions ++ [action], next, run_append hrun hlonger, hreaches.next action hnext, by
          rw [List.length_append, hlength, List.length_singleton]⟩
  obtain ⟨bound, hbound⟩ := hcompletes.bounded
  obtain ⟨actions, final, hrun, -, hlength⟩ := hgoes (bound + 1)
  have hle := hbound actions final hrun
  omega

theorem completes_of_measure {I P : σ → Prop} {size : σ → Nat} {start : σ} (hstart : I start)
    (hstep : ∀ state action next, I state → step state action = some next →
      I next ∧ size next < size state)
    (hstuck : ∀ state, I state → Stuck step state → P state) : Completes step start P where
  bounded := by
    refine ⟨size start, ?_⟩
    intro actions final hrun
    have hlength := run_length_le hstep hstart hrun
    omega
  ends final hreaches := by
    apply hstuck
    exact hreaches.invariant hstart fun state action next hinvariant _ hnext =>
      (hstep state action next hinvariant hnext).1

end System

end Rpcmple.Data
