import Mathlib

namespace Rpcmple.Data

/-- A function returns a value, returns early with false, throws, or does
something the language gives no meaning to. -/
inductive Exec (α : Type) where
  | returns (value : α)
  | rejects
  | throws
  | undefined
  deriving DecidableEq, Repr

namespace Exec

variable {α β : Type}

protected def bind : Exec α → (α → Exec β) → Exec β
  | returns value, continuation => continuation value
  | rejects, _ => rejects
  | throws, _ => throws
  | undefined, _ => undefined

instance : Monad Exec where
  pure := returns
  bind := Exec.bind

@[simp] theorem pure_eq (value : α) : (pure value : Exec α) = returns value := rfl

@[simp] theorem returns_bind (value : α) (continuation : α → Exec β) :
    (returns value >>= continuation) = continuation value := rfl

@[simp] theorem rejects_bind (continuation : α → Exec β) :
    (rejects >>= continuation) = rejects := rfl

@[simp] theorem throws_bind (continuation : α → Exec β) :
    (throws >>= continuation) = throws := rfl

@[simp] theorem undefined_bind (continuation : α → Exec β) :
    (undefined >>= continuation) = undefined := rfl

theorem bind_eq_returns {exec : Exec α} {continuation : α → Exec β} {result : β} :
    (exec >>= continuation) = returns result ↔
      ∃ value, exec = returns value ∧ continuation value = returns result := by
  cases exec <;> simp

end Exec

end Rpcmple.Data
