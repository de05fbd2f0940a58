import Rpcmple.Cpp.Grouping
import Rpcmple.Data.Waiting

namespace Rpcmple.Cpp

open Data System MessageManager

namespace Publishing

variable {host : Platform} {mSignature : DataSignature}
  {writeOk : List Bytes → Bytes → Bool} {groupMessages : Bool} {state next : Publishing}

/-- The predicate of the wait, and the test before it. -/
def drained (state : Publishing) : Bool := state.stack.isEmpty

def count (state : Publishing) : Nat := state.published.length

/-- The flow takes only what can be sent, and the wait does not end while the flow is between
`writeMessage` and the connection. -/
def Waits (waiting : Waiting Publishing Nat) : Waiting.Action Action → Prop
  | .other .take =>
      waiting.state.Sends ∧ ∀ message ∈ waiting.state.stack.head?, message.length ≤ 16777216
  | .other _ | .begin => True
  | .return _ => waiting.state.hand = none

def Writes (host : Platform) (writeOk : List Bytes → Bytes → Bool) (state : Publishing) : Prop :=
  (∃ sent held, state.Flowing host sent held) ∨ ∃ sent lost, state.Broken host writeOk sent lost

theorem writes_step {action : Action} {waits : List Nat} (hwrites : state.Writes host writeOk)
    (hallowed : Waits ⟨state, waits⟩ (.other action))
    (hstep : step host mSignature writeOk state action = some next) :
    next.Writes host writeOk := by
  cases action with
  | publish data =>
      rcases publish_cases hstep with rfl | ⟨message, -, rfl⟩
      · exact hwrites
      · refine hwrites.imp ?_ ?_
        · exact fun ⟨sent, held, hflowing⟩ => ⟨sent, held, flowing_pushed data message hflowing⟩
        · exact fun ⟨sent, lost, hbroken⟩ => ⟨sent, lost, broken_pushed data message hbroken⟩
  | take =>
      obtain ⟨hsends, hhead⟩ := hallowed
      rcases hwrites with ⟨sent, held, hflowing⟩ | ⟨sent, lost, hbroken⟩
      · rcases flowing_take hflowing hsends hstep with hgoes | ⟨bad, rest, hstack, hrefused⟩
        · exact Or.inl ⟨_, _, hgoes⟩
        · have hfits := hhead bad (by rw [hstack]; rfl)
          have hlong := hrefused.long
          omega
      · exact (take_idle (Or.inr hbroken.closed) hstep).elim
  | write =>
      rcases hwrites with ⟨sent, held, hflowing⟩ | ⟨sent, lost, hbroken⟩
      · rcases flowing_write hflowing hstep with hgoes | hbroken
        · exact Or.inl ⟨_, _, hgoes⟩
        · exact Or.inr ⟨_, _, hbroken⟩
      · simp [step, write, hbroken.hand] at hstep

theorem Writes.given (hwrites : state.Writes host writeOk) (hdrained : state.drained = true)
    (hhand : state.hand = none) :
    ∃ refused, (state.mm.written ++ refused).flatten =
        state.bodies.flatMap (DataPublisher.frame host) ∧
      Refusal writeOk state.mm.written refused := by
  have hstack : state.stack = [] := List.isEmpty_iff.mp hdrained
  rcases hwrites with ⟨sent, held, hflowing⟩ | ⟨sent, lost, hbroken⟩
  · have hheld : held = [] := by
      rcases hflowing.holds with ⟨-, hheld⟩ | ⟨hother, -⟩
      · exact hheld
      · rw [hhand] at hother
        cases hother
    refine ⟨[], ?_, Or.inl rfl⟩
    rw [List.append_nil, hflowing.written, hflowing.whole, hheld, hstack, List.append_nil,
      List.append_nil]
  · refine ⟨[lost.flatMap (DataPublisher.frame host)], ?_, Or.inr ⟨_, rfl, hbroken.refused⟩⟩
    rw [List.flatten_append, hbroken.written, hbroken.whole, hstack, List.append_nil,
      List.flatMap_append, List.flatten_cons, List.flatten_nil, List.append_nil]

theorem count_step {action : Action} {published : Nat} (hpublished : published ≤ state.count)
    (hstep : step host mSignature writeOk state action = some next) :
    published ≤ next.count := by
  cases action with
  | publish data =>
      rcases publish_cases hstep with rfl | ⟨message, -, rfl⟩
      · exact hpublished
      · refine hpublished.trans ?_
        simp only [count, pushed, List.length_append]
        omega
  | take =>
      change state.take host = some next at hstep
      unfold take at hstep
      split at hstep
      · obtain ⟨result, -, rfl⟩ := Option.map_eq_some_iff.mp hstep
        exact hpublished
      · cases hstep
  | write =>
      obtain ⟨hand, -, rfl⟩ := Option.map_eq_some_iff.mp hstep
      exact hpublished

theorem waited_given {waiting next : Waiting Publishing Nat} {index published : Nat}
    (hreaches : Reaches (Waiting.step (step host mSignature writeOk) count drained) Waits
      ⟨start host groupMessages, []⟩ waiting)
    (hwaits : Waits waiting (.return index))
    (hreturn : Waiting.step (step host mSignature writeOk) count drained waiting
      (.return index) = some next)
    (hpublished : waiting.waits[index]? = some published) :
    ∃ refused, (waiting.state.mm.written ++ refused).flatten =
        waiting.state.bodies.flatMap (DataPublisher.frame host) ∧
      Refusal writeOk waiting.state.mm.written refused ∧
      published ≤ waiting.state.bodies.length := by
  have hwrites : waiting.state.Writes host writeOk := by
    clear hwaits hreturn hpublished
    induction hreaches with
    | start => exact Or.inl ⟨[], [], flowing_start groupMessages⟩
    | @step before after action _ hallowed hnext ih =>
        cases action with
        | other action =>
            obtain ⟨state, hstate, rfl⟩ := Option.map_eq_some_iff.mp hnext
            exact writes_step ih hallowed hstate
        | begin =>
            cases hnext
            exact ih
        | «return» index =>
            simp only [Waiting.step] at hnext
            split at hnext
            · cases hnext
              exact ih
            · cases hnext
  have hcounts : ∀ wait ∈ waiting.waits, wait ≤ waiting.state.count :=
    Waiting.reaches_waits (P := fun state published => published ≤ state.count)
      (fun _ => le_rfl) (fun _ _ _ _ hstep hle => count_step hle hstep) hreaches
  have hready := (Waiting.ready_of_return hreturn).1
  obtain ⟨refused, hgiven, hrefusal⟩ := hwrites.given hready hwaits
  refine ⟨refused, hgiven, hrefusal, ?_⟩
  rw [bodies, List.length_map]
  exact hcounts published (List.mem_of_getElem? hpublished)

end Publishing

end Rpcmple.Cpp
