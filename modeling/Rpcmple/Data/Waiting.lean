import Rpcmple.Data.System

namespace Rpcmple.Data

/-- A connection was given these behind what is written, and took none of it: there is at
most one message, since the flow stops then. -/
def Refusal {α : Type} (writeOk : List α → α → Bool) (written refused : List α) : Prop :=
  refused = [] ∨ ∃ message, refused = [message] ∧ writeOk written message = false

/-! Goroutines and threads that wait for a condition on a system: each remembers what there
was when it began to wait. -/

structure Waiting (σ α : Type) where
  state : σ
  waits : List α

namespace Waiting

inductive Action (ι : Type) where
  | other (action : ι)
  | begin
  | return (index : Nat)

section

variable {σ ι α : Type}

def step (base : σ → ι → Option σ) (snapshot : σ → α) (ready : σ → Bool)
    (waiting : Waiting σ α) : Action ι → Option (Waiting σ α)
  | .other action => (base waiting.state action).map fun state => { waiting with state }
  | .begin => some { waiting with waits := waiting.waits ++ [snapshot waiting.state] }
  | .return index =>
      if ready waiting.state && index < waiting.waits.length then
        some { waiting with waits := waiting.waits.eraseIdx index }
      else none

variable {base : σ → ι → Option σ} {snapshot : σ → α} {ready : σ → Bool}
  {allowed : Waiting σ α → Action ι → Prop} {baseAllowed : σ → ι → Prop} {start : σ}
  {waiting next : Waiting σ α}

theorem reaches_base
    (hallowed : ∀ waiting action, allowed waiting (.other action) →
      baseAllowed waiting.state action)
    (hreaches : System.Reaches (step base snapshot ready) allowed ⟨start, []⟩ waiting) :
    System.Reaches base baseAllowed start waiting.state := by
  induction hreaches with
  | start => exact .start
  | @step before after action _ hbefore hnext ih =>
      cases action with
      | other action =>
          obtain ⟨state, hstate, rfl⟩ := Option.map_eq_some_iff.mp hnext
          exact .step ih (hallowed _ _ hbefore) hstate
      | begin =>
          cases hnext
          exact ih
      | «return» index =>
          simp only [step] at hnext
          split at hnext
          · cases hnext
            exact ih
          · cases hnext

theorem reaches_waits {P : σ → α → Prop} (hbegin : ∀ state, P state (snapshot state))
    (hkeep : ∀ state action next snapshot, base state action = some next →
      P state snapshot → P next snapshot)
    (hreaches : System.Reaches (step base snapshot ready) allowed ⟨start, []⟩ waiting) :
    ∀ wait ∈ waiting.waits, P waiting.state wait := by
  induction hreaches with
  | start =>
      intro wait hmem
      cases hmem
  | @step before after action _ _ hnext ih =>
      intro wait hmem
      cases action with
      | other action =>
          obtain ⟨state, hstate, rfl⟩ := Option.map_eq_some_iff.mp hnext
          exact hkeep _ _ _ _ hstate (ih wait hmem)
      | begin =>
          cases hnext
          rcases List.mem_append.mp hmem with hbefore | hnew
          · exact ih wait hbefore
          · rw [List.mem_singleton.mp hnew]
            exact hbegin _
      | «return» index =>
          simp only [step] at hnext
          split at hnext
          · cases hnext
            exact ih wait (List.mem_of_mem_eraseIdx hmem)
          · cases hnext

theorem ready_of_return {index : Nat}
    (hreturn : step base snapshot ready waiting (.return index) = some next) :
    ready waiting.state = true ∧ index < waiting.waits.length := by
  simp only [step] at hreturn
  split at hreturn
  · rename_i hready
    simpa using hready
  · cases hreturn

end

end Waiting

end Rpcmple.Data
