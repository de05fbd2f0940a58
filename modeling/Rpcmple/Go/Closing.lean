import Rpcmple.Go.Calling

namespace Rpcmple.Go

open Data System

/-! What `StartDataFlowBlocking` leaves behind, beside goroutines that change the parser and
calls of `StopDataFlow`. -/

namespace Closing

inductive Place where
  | first
  | dataFlow
  | returned
  deriving DecidableEq

end Closing

open Closing (Place)

/-- `stopping` counts the calls of `StopDataFlow` between their two statements. -/
structure Closing (σ : Type) where
  mm : MessageManager σ
  place : Place
  connClosed : Bool
  stopping : Nat
  stopCalled : Bool

namespace Closing

inductive Action (σ : Type) where
  | flow
  | others (parser : σ)
  | stopDataFlow
  | stop

variable {σ : Type} (methods : MessageParser σ) (requester : Bool) (Stop : σ → σ)
  (writeOk : List Bytes → Bytes → Bool)

def start (parser : σ) (incoming : List Bytes) : Closing σ where
  mm := .NewMessageManager methods parser incoming
  place := .first
  connClosed := false
  stopping := 0
  stopCalled := false

/-- What is written of the first message; `none` is one of the four early returns. -/
def opening (mm : MessageManager σ) : Option (List Bytes) :=
  if requester then
    MessageManager.transmit true writeOk (methods.SendMessage mm.parser).1
      (methods.SendMessage mm.parser).2.1 mm.written
  else some mm.written

def openFlow (state : Closing σ) : Closing σ :=
  let parser := if requester then (methods.SendMessage state.mm.parser).2.2 else state.mm.parser
  match opening methods requester writeOk state.mm with
  | some written => { state with mm := { state.mm with parser, written }, place := .dataFlow }
  | none =>
      { state with mm := { state.mm with parser, stopRequest := true }, place := .returned }

def flow (state : Closing σ) : Option (Closing σ) :=
  match state.place with
  | .first => some (state.openFlow methods requester writeOk)
  | .dataFlow =>
      if state.mm.loop = .closed then
        if state.connClosed then some { state with place := .returned }
        else some { state with connClosed := true }
      else some { state with mm := state.mm.dataFlow methods writeOk }
  | .returned => none

def step (state : Closing σ) : Action σ → Option (Closing σ)
  | .flow => state.flow methods requester writeOk
  | .others parser => some { state with mm := { state.mm with parser } }
  | .stopDataFlow =>
      some
        { state with
          mm := { state.mm with stopRequest := true }
          stopping := state.stopping + 1 }
  | .stop =>
      if state.stopping = 0 then none
      else
        some
          { state with
            mm := { state.mm with parser := Stop state.mm.parser }
            stopping := state.stopping - 1
            stopCalled := true }

/-- A flow that has returned has closed the connection, and its parser was stopped. -/
def Clean (state : Closing σ) : Prop :=
  state.place = .returned → state.connClosed = true ∧ state.stopCalled = true

/-- The flow does not return before `dataFlow`, and from there only behind a `StopDataFlow`
that has called `Stop`. -/
def Stopped (state : Closing σ) : Action σ → Prop
  | .flow =>
      (state.place = .first → (opening methods requester writeOk state.mm).isSome) ∧
        (state.place = .dataFlow → state.mm.loop = .closed → state.connClosed = true →
          state.stopCalled = true)
  | .others _ | .stopDataFlow | .stop => True

instance (state : Closing σ) :
    (action : Action σ) → Decidable (state.Stopped methods requester writeOk action)
  | .flow => inferInstanceAs (Decidable (_ ∧ (_ → _ → _ → _)))
  | .others _ | .stopDataFlow | .stop => inferInstanceAs (Decidable True)

def Opens (state : Closing σ) : Prop := state.place = .first → state.connClosed = false

variable {methods requester Stop writeOk}

theorem openFlow_place (state : Closing σ) :
    (state.openFlow methods requester writeOk).connClosed = state.connClosed ∧
      (state.openFlow methods requester writeOk).place =
        if (opening methods requester writeOk state.mm).isSome then .dataFlow
        else .returned := by
  unfold openFlow
  cases opening methods requester writeOk state.mm with
  | none | some => exact ⟨rfl, rfl⟩

theorem step_opens {state next : Closing σ} {action : Action σ} (hopens : state.Opens)
    (hstep : step methods requester Stop writeOk state action = some next) : next.Opens := by
  cases action with
  | flow =>
      change state.flow methods requester writeOk = some next at hstep
      unfold flow at hstep
      cases hplace : state.place with
      | first =>
          simp only [hplace] at hstep
          cases hstep
          obtain ⟨hclosed, -⟩ := @openFlow_place _ methods requester writeOk state
          exact fun _ => hclosed.trans (hopens hplace)
      | dataFlow =>
          simp only [hplace] at hstep
          split at hstep
          · split at hstep
            · cases hstep
              intro hfirst
              cases hfirst
            · cases hstep
              intro hfirst
              cases hfirst
          · cases hstep
            intro hfirst
            cases hfirst
      | returned =>
          simp only [hplace] at hstep
          cases hstep
  | others | stopDataFlow =>
      cases hstep
      exact hopens
  | stop =>
      simp only [step] at hstep
      split at hstep
      · cases hstep
      · cases hstep
        exact hopens

theorem step_clean_iff {state next : Closing σ} {action : Action σ} (hopens : state.Opens)
    (hclean : state.Clean)
    (hstep : step methods requester Stop writeOk state action = some next) :
    next.Clean ↔ state.Stopped methods requester writeOk action := by
  cases action with
  | flow =>
      change state.flow methods requester writeOk = some next at hstep
      unfold flow at hstep
      rw [Stopped]
      cases hplace : state.place with
      | first =>
          simp only [hplace] at hstep
          cases hstep
          obtain ⟨hclosed, hnext⟩ := @openFlow_place _ methods requester writeOk state
          rw [Clean, hclosed, hopens hplace, hnext]
          cases (opening methods requester writeOk state.mm).isSome with
          | false => simp
          | true => simp
      | dataFlow =>
          simp only [hplace] at hstep
          split at hstep
          · rename_i hloop
            split at hstep
            · rename_i hclosed
              cases hstep
              simp [Clean, hclosed, hloop]
            · rename_i hopen
              cases hstep
              simp [Clean, hopen]
          · rename_i hloop
            cases hstep
            simp [Clean, hloop]
      | returned =>
          simp only [hplace] at hstep
          cases hstep
  | others | stopDataFlow =>
      cases hstep
      exact iff_of_true hclean trivial
  | stop =>
      simp only [step] at hstep
      split at hstep
      · cases hstep
      · cases hstep
        exact iff_of_true (fun hreturned => ⟨(hclean hreturned).1, rfl⟩) trivial

theorem clean_iff (parser : σ) (incoming : List Bytes) (actions : List (Action σ)) :
    Along (step methods requester Stop writeOk) Clean (start methods parser incoming) actions ↔
      Meets (step methods requester Stop writeOk) (Stopped methods requester writeOk)
        (start methods parser incoming) actions := by
  refine along_iff_meets (I := Opens) (fun _ _ _ hopens hstep => step_opens hopens hstep)
    (fun _ _ _ hopens hclean hstep => step_clean_iff hopens hclean hstep) ?_ (fun _ => rfl) ?_
  · intro state action hnone
    cases action with
    | flow =>
        change state.flow methods requester writeOk = none at hnone
        cases hplace : state.place with
        | returned => simp [Stopped, hplace]
        | first => simp [flow, hplace] at hnone
        | dataFlow =>
            simp only [flow, hplace] at hnone
            split at hnone
            · split at hnone
              all_goals cases hnone
            · cases hnone
    | others | stopDataFlow | stop => trivial
  · intro hreturned
    cases hreturned

end Closing

namespace Calling

variable {writeOk : List Bytes → Bytes → Bool} {state next : Calling} {index : Nat}

/-- A goroutine whose command nobody takes. -/
def Blocked (state : Calling) (index : Nat) : Prop :=
  (∃ rps arguments, state.calls[index]? = some ⟨some rps, arguments, .signal⟩) ∧
    state.signal index = none

theorem not_blocked_of_closed (hclosed : state.stopping = .closed) : ¬ state.Blocked index := by
  rintro ⟨⟨rps, arguments, hcall⟩, hwaits⟩
  simp [signal, hcall, hclosed] at hwaits

theorem closed_step {action : Action} (hclosed : state.stopping = .closed)
    (hstep : step writeOk state action = some next) : next.stopping = .closed := by
  cases (step_moves hstep).2 with
  | flows hflow => exact (flowStep_frame hflow).2.2.trans hclosed
  | requests hstopping | closes hstopping => simp [hclosed] at hstopping
  | calls | names | unknown | panics | locks | fails | signals | delivers | hangsUp =>
      exact hclosed

theorem not_blocked_of_stop {later : Calling} (hrequested : state.stopping = .requested)
    (hstop : step writeOk state .stop = some next)
    (hreaches : Reachable (step writeOk) next later) : ¬ later.Blocked index := by
  have hclosed : later.stopping = .closed := by
    refine hreaches.invariant (I := fun later => later.stopping = .closed) ?_ ?_
    · unfold step at hstop
      split at hstop
      · cases hstop
      · change state.stop = some next at hstop
        rw [stop, hrequested] at hstop
        cases hstop
        rfl
    · exact fun _ _ _ hclosed _ hnext => closed_step hclosed hnext
  exact not_blocked_of_closed hclosed

end Calling

end Rpcmple.Go
