import Mathlib

namespace Rpcmple.Data

namespace Machine

variable {σ τ : Type}

theorem iterate_invariant {step : σ → σ} {I : σ → Prop}
    (hstep : ∀ state, I state → I (step state)) {state : σ} (hstate : I state) (n : Nat) :
    I (step^[n] state) := by
  induction n generalizing state with
  | zero => exact hstate
  | succ n ih => exact ih (hstep state hstate)

theorem exists_halted {step : σ → σ} {I Halted : σ → Prop} {size : σ → Nat}
    (hstep : ∀ state, I state → I (step state))
    (hshrinks : ∀ state, I state → ¬ Halted state → size (step state) < size state)
    {state : σ} (hstate : I state) : ∃ n, Halted (step^[n] state) := by
  induction hsize : size state using Nat.strong_induction_on generalizing state with
  | _ bound ih =>
      by_cases hhalted : Halted state
      · exact ⟨0, hhalted⟩
      · obtain ⟨n, hn⟩ := ih _ (hsize ▸ hshrinks state hstate hhalted)
          (hstep state hstate) rfl
        exact ⟨n + 1, hn⟩

/-- From some step on, and for good, the observation is this one. -/
def Settles (step : σ → σ) (observe : σ → τ) (state : σ) (value : τ) : Prop :=
  ∃ n, ∀ m, n ≤ m → observe (step^[m] state) = value

theorem settles_step {step : σ → σ} {observe : σ → τ} {state : σ} {value : τ} :
    Settles step observe (step state) value ↔ Settles step observe state value := by
  constructor
  · rintro ⟨n, hn⟩
    refine ⟨n + 1, fun m hm => ?_⟩
    obtain ⟨k, rfl⟩ : ∃ k, m = k + 1 := ⟨m - 1, by omega⟩
    exact hn k (by omega)
  · rintro ⟨n, hn⟩
    exact ⟨n, fun m hm => hn (m + 1) (by omega)⟩

theorem settles_of_constant {step : σ → σ} {observe : σ → τ} {I : σ → Prop}
    {value : τ} (hstep : ∀ state, I state → I (step state))
    (hobserve : ∀ state, I state → observe state = value) {state : σ} (hstate : I state) :
    Settles step observe state value :=
  ⟨0, fun m _ => hobserve _ (iterate_invariant hstep hstate m)⟩

theorem Settles.unique {step : σ → σ} {observe : σ → τ} {state : σ} {first second : τ}
    (hfirst : Settles step observe state first)
    (hsecond : Settles step observe state second) : first = second := by
  obtain ⟨n, hn⟩ := hfirst
  obtain ⟨m, hm⟩ := hsecond
  rw [← hn (max n m) (le_max_left n m), hm (max n m) (le_max_right n m)]

def Always (step : σ → σ) (P : σ → Prop) (state : σ) : Prop :=
  ∀ n, P (step^[n] state)

theorem always_step {step : σ → σ} {P : σ → Prop} {state : σ} :
    Always step P state ↔ P state ∧ Always step P (step state) := by
  constructor
  · intro halways
    exact ⟨halways 0, fun n => halways (n + 1)⟩
  · rintro ⟨hstate, halways⟩ n
    cases n with
    | zero => exact hstate
    | succ n => exact halways n

end Machine

end Rpcmple.Data
