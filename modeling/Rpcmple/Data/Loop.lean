import Mathlib

namespace Rpcmple.Data

namespace Loop

variable {σ τ : Type}

def run (round : σ → σ ⊕ τ) : Nat → σ → Option τ
  | 0, _ => none
  | rounds + 1, state =>
      match round state with
      | .inl next => run round rounds next
      | .inr result => some result

/-- With rounds enough the loop comes to this result. -/
def Ends (round : σ → σ ⊕ τ) (state : σ) (result : τ) : Prop :=
  ∃ rounds, run round rounds state = some result

variable {round : σ → σ ⊕ τ} {state next : σ} {result : τ}

theorem ends_of_next (hnext : round state = .inl next) :
    Ends round state result ↔ Ends round next result := by
  constructor
  · intro hends
    obtain ⟨rounds, hrun⟩ := hends
    cases rounds with
    | zero => cases hrun
    | succ rounds =>
        rw [run, hnext] at hrun
        exact ⟨rounds, hrun⟩
  · intro hends
    obtain ⟨rounds, hrun⟩ := hends
    refine ⟨rounds + 1, ?_⟩
    rw [run, hnext]
    exact hrun

theorem ends_of_result {other : τ} (hresult : round state = .inr result) :
    Ends round state other ↔ result = other := by
  constructor
  · intro hends
    obtain ⟨rounds, hrun⟩ := hends
    cases rounds with
    | zero => cases hrun
    | succ rounds =>
        rw [run, hresult] at hrun
        exact Option.some.inj hrun
  · intro hsame
    refine ⟨1, ?_⟩
    rw [run, hresult, hsame]

/-- A loop ends, and well, when every round of it keeps the invariant and comes closer to
the end, or leaves with what is wanted. -/
theorem exists_ends {I : σ → Prop} {Q : τ → Prop} {size : σ → Nat}
    (hround : ∀ state, I state →
      (∃ next, round state = .inl next ∧ I next ∧ size next < size state) ∨
        ∃ result, round state = .inr result ∧ Q result)
    (hstate : I state) : ∃ result, Ends round state result ∧ Q result := by
  induction hsize : size state using Nat.strong_induction_on generalizing state with
  | _ bound ih =>
      rcases hround state hstate with ⟨next, hnext, hkept, hless⟩ | ⟨result, hresult, hQ⟩
      · obtain ⟨result, hends, hQ⟩ := ih _ (hsize ▸ hless) hkept rfl
        exact ⟨result, (ends_of_next hnext).mpr hends, hQ⟩
      · exact ⟨result, (ends_of_result hresult).mpr rfl, hQ⟩

theorem Ends.keeps {I : σ → Prop} {Q : τ → Prop}
    (hnext : ∀ state next, I state → round state = .inl next → I next)
    (hresult : ∀ state result, I state → round state = .inr result → Q result)
    (hstate : I state) (hends : Ends round state result) : Q result := by
  obtain ⟨rounds, hrun⟩ := hends
  induction rounds generalizing state with
  | zero => cases hrun
  | succ rounds ih =>
      rw [run] at hrun
      cases hround : round state with
      | inl next =>
          rw [hround] at hrun
          exact ih (hnext _ _ hstate hround) hrun
      | inr last =>
          rw [hround] at hrun
          obtain rfl := Option.some.inj hrun
          exact hresult _ _ hstate hround

end Loop

end Rpcmple.Data
