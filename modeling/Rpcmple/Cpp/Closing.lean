import Rpcmple.Cpp.Calling
import Rpcmple.Cpp.Sizes

namespace Rpcmple.Cpp

open Data System

/-! What `dataFlow` leaves behind, beside threads that change the parser and calls of
`stopDataFlow`. -/

/-- `stopping` counts the calls of `stopDataFlow` between their two statements. -/
structure Closing (σ : Type) where
  mm : MessageManager σ
  connClosed : Bool
  returned : Bool
  stopping : Nat
  stopParserCalled : Bool

namespace Closing

inductive Action (σ : Type) where
  | flow
  | others (parser : σ)
  | stopDataFlow
  | stopParser

variable {σ : Type} (methods : Parser σ) (stopParser : σ → σ)
  (writeOk : List Bytes → Bytes → Bool)

def start (parser : σ) (incoming : List Bytes) : Closing σ where
  mm := MessageManager.init methods parser incoming
  connClosed := false
  returned := false
  stopping := 0
  stopParserCalled := false

/-- A step of `dataFlow`, or behind the loops `mConn->close` and the end of it. -/
def flow (state : Closing σ) : Option (Closing σ) :=
  match state.mm.loop with
  | .closed =>
      if state.returned then none
      else if state.connClosed then some { state with returned := true }
      else some { state with connClosed := true }
  | .terminated => none
  | .first | .outer | .inner | .reply =>
      some { state with mm := state.mm.dataFlow methods writeOk }

def step (state : Closing σ) : Action σ → Option (Closing σ)
  | .flow => state.flow methods writeOk
  | .others parser => some { state with mm := { state.mm with parser } }
  | .stopDataFlow =>
      some
        { state with
          mm := { state.mm with stopRequested := true }
          stopping := state.stopping + 1 }
  | .stopParser =>
      if state.stopping = 0 then none
      else
        some
          { state with
            mm := { state.mm with parser := stopParser state.mm.parser }
            stopping := state.stopping - 1
            stopParserCalled := true }

/-- A flow that has returned has closed the connection, and its parser was stopped. -/
def Clean (state : Closing σ) : Prop :=
  state.returned = true → state.connClosed = true ∧ state.stopParserCalled = true

/-- The flow returns only behind a `stopDataFlow` that has called `stopParser`. -/
def Stopped (state : Closing σ) : Action σ → Prop
  | .flow =>
      state.mm.loop = .closed → state.returned = false → state.connClosed = true →
        state.stopParserCalled = true
  | .others _ | .stopDataFlow | .stopParser => True

instance (state : Closing σ) : (action : Action σ) → Decidable (state.Stopped action)
  | .flow => inferInstanceAs (Decidable (_ → _ → _ → _))
  | .others _ | .stopDataFlow | .stopParser => inferInstanceAs (Decidable True)

variable {methods stopParser writeOk}

theorem step_clean_iff {state next : Closing σ} {action : Action σ} (hclean : state.Clean)
    (hstep : step methods stopParser writeOk state action = some next) :
    next.Clean ↔ state.Stopped action := by
  cases action with
  | flow =>
      change state.flow methods writeOk = some next at hstep
      unfold flow at hstep
      rw [Stopped]
      cases hloop : state.mm.loop with
      | closed =>
          simp only [hloop] at hstep
          split at hstep
          · cases hstep
          · rename_i hruns
            split at hstep
            · rename_i hclosed
              cases hstep
              simp [Clean, hclosed, hruns]
            · rename_i hopen
              cases hstep
              simp [Clean, hopen, hruns]
      | terminated =>
          simp only [hloop] at hstep
          cases hstep
      | first | outer | inner | reply =>
          simp only [hloop] at hstep
          cases hstep
          exact iff_of_true hclean (by simp)
  | others | stopDataFlow =>
      cases hstep
      exact iff_of_true hclean trivial
  | stopParser =>
      simp only [step] at hstep
      split at hstep
      · cases hstep
      · cases hstep
        exact iff_of_true (fun hreturned => ⟨(hclean hreturned).1, rfl⟩) trivial

theorem clean_iff (parser : σ) (incoming : List Bytes) (actions : List (Action σ)) :
    Along (step methods stopParser writeOk) Clean (start methods parser incoming) actions ↔
      Meets (step methods stopParser writeOk) Stopped (start methods parser incoming)
        actions := by
  refine along_iff_meets (I := fun _ => True) (fun _ _ _ _ _ => trivial)
    (fun _ _ _ _ hclean hstep => step_clean_iff hclean hstep) ?_ trivial ?_
  · intro state action hnone
    cases action with
    | flow =>
        change state.flow methods writeOk = none at hnone
        intro hloop hruns hclosed
        simp [flow, hloop, hruns, hclosed] at hnone
    | others | stopDataFlow | stopParser => trivial
  · intro hreturned
    cases hreturned

end Closing

namespace Calling

variable {host : Platform} {writeOk : List Bytes → Bytes → Bool}
  {state next : Calling} {index : Nat}

/-- A thread in one of the two waits of `callSync`, whose condition does not hold. -/
def Blocked (state : Calling) (index : Nat) : Prop :=
  ((∃ call, state.callers[index]? = some (.waiting call)) ∧ state.client.mayCall = false) ∨
    (∃ call args since, state.callers[index]? = some (.collecting call args since)) ∧
      state.client.mayCollect = false

theorem push_stopWait {rc : RpcClient} {rpId : UInt32} {proc : RemoteProcedureSignature}
    {arguments : VariantVector} {result : Bool × RpcClient}
    (hpush : rc.push host rpId proc arguments = .returns result) :
    result.2.stopWait = rc.stopWait := by
  unfold RpcClient.push at hpush
  split at hpush
  · split at hpush
    all_goals cases hpush
    rfl
  · split at hpush
    all_goals cases hpush
    rfl
  · cases hpush

theorem parse_stopWait (rc : RpcClient) (message : Bytes) :
    (rc.parseMessage host message).parser.stopWait = rc.stopWait := by
  unfold RpcClient.parseMessage
  split
  · cases readHeader host message with
    | returns mVal =>
        simp only [Parsed.after_returns]
        split
        all_goals rfl
    | rejects | throws | undefined => rfl
  · split
    all_goals rfl

theorem dataFlow_stopWait {methods : Parser RpcClient} {mm : MessageManager RpcClient}
    (hmethods : methods.parseMessage = RpcClient.parseMessage host)
    (hwrite : ∀ client buffer result, methods.writeMessage client buffer = some result →
      result.2.2.stopWait = client.stopWait)
    (hstopped : mm.parser.stopWait = true) :
    (mm.dataFlow methods writeOk).parser.stopWait = true := by
  refine @MessageManager.dataFlow_keeps _ methods writeOk mm
    (fun client => client.stopWait = true) ?_ ?_ hstopped
  · intro client piece hbefore
    rw [hmethods, parse_stopWait]
    exact hbefore
  · intro client buffer result hbefore hresult
    rw [hwrite _ _ _ hresult]
    exact hbefore

theorem writeMessage_stopWait {rc : RpcClient} {result : Bool × Bytes × RpcClient}
    (hwrite : rc.writeMessage host = some result) : result.2.2.stopWait = rc.stopWait := by
  unfold RpcClient.writeMessage RpcClient.writeCommand at hwrite
  split at hwrite
  · cases hwrite
    rfl
  · split at hwrite
    · cases hwrite
      split
      · rfl
      · split
        all_goals rfl
    · cases hwrite

theorem stopWait_step {action : Action} (hstopped : state.client.stopWait = true)
    (hstep : step host writeOk state action = some next) : next.client.stopWait = true := by
  cases action with
  | call index rpId arguments returns =>
      change state.call index rpId arguments returns = some next at hstep
      unfold call at hstep
      split at hstep
      · split at hstep
        all_goals cases hstep
        all_goals exact hstopped
      · cases hstep
  | wake index =>
      change state.wake index = some next at hstep
      unfold wake at hstep
      split at hstep
      · split at hstep
        · cases hstep
          exact hstopped
        · cases hstep
      · cases hstep
  | push index left =>
      change state.push host index left = some next at hstep
      unfold push at hstep
      split at hstep
      · split at hstep
        · rename_i hresult
          cases hstep
          exact (push_stopWait hresult).trans hstopped
        · rename_i hresult
          cases hstep
          exact (push_stopWait hresult).trans hstopped
        · cases hstep
          exact hstopped
        · cases hstep
          exact hstopped
        · cases hstep
      · cases hstep
  | release index =>
      change state.release index = some next at hstep
      unfold release at hstep
      split at hstep
      · split at hstep
        · cases hstep
          exact hstopped
        · cases hstep
      · cases hstep
  | collect index =>
      change state.collect host index = some next at hstep
      unfold collect at hstep
      split at hstep
      · split at hstep
        · rename_i hresult
          cases hstep
          obtain ⟨decoded, -, hpure⟩ := Exec.bind_eq_returns.mp hresult
          cases hpure
          exact hstopped
        · cases hstep
          exact hstopped
        · cases hstep
          exact hstopped
        · cases hstep
      · cases hstep
  | enter =>
      change state.enter = some next at hstep
      unfold enter at hstep
      split at hstep
      · split at hstep
        · split at hstep
          · cases hstep
            exact hstopped
          · split at hstep
            · cases hstep
              exact hstopped
            · cases hstep
        · cases hstep
      · cases hstep
  | build =>
      change state.build host = some next at hstep
      unfold build at hstep
      split at hstep
      · split at hstep
        all_goals cases hstep
        all_goals exact hstopped
      · cases hstep
  | check =>
      change state.check = some next at hstep
      unfold check at hstep
      split at hstep
      · cases hstep
        exact hstopped
      · cases hstep
  | flow =>
      change state.flow host writeOk = some next at hstep
      unfold flow at hstep
      split at hstep
      · split at hstep
        · cases hstep
        · cases hstep
          exact dataFlow_stopWait rfl (fun _ _ _ => writeMessage_stopWait) hstopped
      · cases hstep
        refine dataFlow_stopWait rfl ?_ hstopped
        intro client buffer result hresult
        cases hresult
        rfl
      · cases hstep
  | deliver chunk =>
      change state.deliver chunk = some next at hstep
      unfold deliver at hstep
      split at hstep
      · cases hstep
        exact hstopped
      · cases hstep
  | requestStop =>
      cases hstep
      exact hstopped
  | stopParser =>
      cases hstep
      rfl

theorem not_blocked_of_stopWait (hstopped : state.client.stopWait = true) :
    ¬ state.Blocked index := by
  rintro (⟨-, hwaits⟩ | ⟨-, hwaits⟩)
  · simp [RpcClient.mayCall, hstopped] at hwaits
  · simp [RpcClient.mayCollect, hstopped] at hwaits

theorem not_blocked_of_stopParser {later : Calling}
    (hstop : step host writeOk state .stopParser = some next)
    (hreaches : Reachable (step host writeOk) next later) : ¬ later.Blocked index := by
  have hstopped : later.client.stopWait = true := by
    refine hreaches.invariant (I := fun later => later.client.stopWait = true) ?_ ?_
    · cases hstop
      rfl
    · exact fun _ _ _ hstopped _ hnext => stopWait_step hstopped hnext
  exact not_blocked_of_stopWait hstopped

end Calling

end Rpcmple.Cpp
