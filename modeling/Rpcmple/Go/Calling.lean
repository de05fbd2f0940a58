import Rpcmple.Data.System
import Rpcmple.Go.DataPublisher
import Rpcmple.Go.RpcClient

namespace Rpcmple.Go

open Data DataSignature

namespace RpcClient

/-- The client as a parser, behind its locks and its channel. -/
def parser : MessageParser RpcClient where
  ParseMessage := RpcClient.ParseMessage
  GetMessageLen rc := rc.sectionLen.toNat
  SendMessage rc := (rc.SendMessage.1, rc.SendMessage.2, rc)

end RpcClient

/-! `rpcClient` with any number of goroutines in `Call`, the goroutine of its flow and
`StopDataFlow`.  What `myLock` protects is one step. -/

namespace Calling

inductive Place where
  | lock
  | signal
  | returned (result : Bool)
  deriving DecidableEq

/-- A goroutine in `Call`; without a signature the name was not found. -/
structure Goroutine where
  rps : Option RemoteProcedureSignature
  arguments : List Any
  place : Place

/-- What the flow does next: `SendMessage` from `send` to `lock`, what is done with its
result, and `GetMessageLen`; `first` before `dataFlow` starts. -/
inductive Flow where
  | loop
  | send (first : Bool)
  | receive (first : Bool)
  | lock (first : Bool)
  | write (first replyOk : Bool) (message : Bytes)
  | measure
  | returned
  deriving DecidableEq

end Calling

open Calling

/-- The client with its manager.  `myLock` is held by a goroutine that has returned, and
`ended` tells that the peer sends nothing more; after a panic nothing runs any more. -/
structure Calling where
  mm : MessageManager RpcClient
  myLock : Bool
  calls : List Goroutine
  flow : Flow
  stopping : DataPublisher.StopDataFlow
  ended : Bool
  panicked : Bool

namespace Calling

def start (remoteProcedures : List RemoteProcedureSignature) : Calling where
  mm := .NewMessageManager RpcClient.parser (RpcClient.NewRPCClient remoteProcedures) []
  myLock := false
  calls := []
  flow := .send true
  stopping := .notCalled
  ended := false
  panicked := false

def rc (state : Calling) : RpcClient := state.mm.parser

def meets (state : Calling) (rc : RpcClient) : Calling :=
  { state with mm := { state.mm with parser := rc } }

def goto (state : Calling) (index : Nat) (place : Place) : Calling :=
  { state with calls := state.calls.modify index fun goroutine => { goroutine with place } }

def panic (state : Calling) : Calling := { state with panicked := true }

inductive Action where
  | call (procedure : Nat) (arguments : List Any)
  | callName (remoteProcedure : String) (arguments : List Any)
  | lock (index : Nat)
  | signal (index : Nat)
  | flow
  | deliver (chunk : Bytes)
  | hangUp
  | stop

def enters (state : Calling) (goroutine : Goroutine) : Calling :=
  { state with calls := state.calls ++ [goroutine] }

def call (state : Calling) (procedure : Nat) (arguments : List Any) : Option Calling :=
  state.rc.remoteProcedures[procedure]?.map fun rps =>
    state.enters ⟨some rps, arguments, .lock⟩

def callName (state : Calling) (remoteProcedure : String) (arguments : List Any) : Calling :=
  match state.rc.remoteProcedure remoteProcedure with
  | some mProc => state.enters ⟨some mProc, arguments, .lock⟩
  | none => state.enters ⟨none, arguments, .returned false⟩

/-- From `Lock` to `Unlock`, which only a call that succeeds gets to. -/
def locked (state : Calling) (index : Nat) (rps : RemoteProcedureSignature)
    (arguments : List Any) : Calling :=
  let (success, rc) := RpcClient.Call rps state.rc arguments
  if ToBinary rps.Arguments [] arguments = .crash then state.panic
  else if success then (state.meets rc).goto index .signal
  else { (state.meets rc).goto index (.returned false) with myLock := true }

def lock (state : Calling) (index : Nat) : Option Calling :=
  match state.calls[index]? with
  | some ⟨some rps, arguments, .lock⟩ =>
      if state.myLock then none else some (state.locked index rps arguments)
  | _ => none

/-- `commandReady <- true`: the flow has to be there, and the channel open. -/
def signal (state : Calling) (index : Nat) : Option Calling :=
  match state.calls[index]? with
  | some ⟨some _, _, .signal⟩ =>
      if state.stopping = .closed then some state.panic
      else
        match state.flow with
        | .receive first =>
            some { state.goto index (.returned true) with flow := .lock first }
        | _ => none
  | _ => none

/-- The next statement of `dataFlow` reads and nothing is there, or it is a
`ParseMessage` that waits for the lock. -/
def blocked (state : Calling) : Bool :=
  match state.mm.loop with
  | .outer =>
      !state.mm.stopRequest && state.mm.messageLength ≠ 0 && state.mm.incoming.isEmpty &&
        !state.ended
  | .inner =>
      0 < state.mm.readBuffer.length && state.mm.transfer.messageMissingBytes = 0 &&
        state.myLock
  | .closed => false

def loops (state : Calling) : Calling :=
  { state with
    mm := (state.mm.upToSend RpcClient.parser).1
    flow :=
      if (state.mm.upToSend RpcClient.parser).2 then .send false
      else if state.mm.loop = .closed then .returned
      else .loop }

def writes (writeOk : List Bytes → Bytes → Bool) (state : Calling) (first replyOk : Bool)
    (message : Bytes) : Calling :=
  match MessageManager.transmit first writeOk replyOk message state.mm.written with
  | some written =>
      { state with
        mm := { state.mm with written }
        flow := if first then .loop else .measure }
  | none =>
      if first then
        { state with mm := { state.mm with stopRequest := true }, flow := .returned }
      else { state with mm := state.mm.stop, flow := .loop }

def flowStep (writeOk : List Bytes → Bytes → Bool) (state : Calling) : Option Calling :=
  match state.flow with
  | .loop => if state.blocked then none else some state.loops
  | .send first =>
      if state.rc.sectionID ≠ 0 then some { state with flow := .write first true [] }
      else some { state with flow := .receive first }
  | .receive first =>
      if state.stopping = .closed then some { state with flow := .lock first } else none
  | .lock first =>
      if state.myLock then none
      else
        some
          { state with
            flow := .write first state.rc.SendMessage.1 state.rc.SendMessage.2 }
  | .write first replyOk message => some (state.writes writeOk first replyOk message)
  | .measure =>
      if state.myLock then none
      else some { state with mm := state.mm.nextMessage RpcClient.parser, flow := .loop }
  | .returned => none

/-- `StopDataFlow` sets `stopRequest` and then closes the channel. -/
def stop (state : Calling) : Option Calling :=
  match state.stopping with
  | .notCalled =>
      some
        { state with
          mm := { state.mm with stopRequest := true }
          stopping := .requested }
  | .requested => some { state with stopping := .closed }
  | .closed => some state.panic

def step (writeOk : List Bytes → Bytes → Bool) (state : Calling) (action : Action) :
    Option Calling :=
  if state.panicked then none
  else
    match action with
    | .call procedure arguments => state.call procedure arguments
    | .callName remoteProcedure arguments =>
        some (state.callName remoteProcedure arguments)
    | .lock index => state.lock index
    | .signal index => state.signal index
    | .flow => state.flowStep writeOk
    | .deliver chunk =>
        if state.ended then none
        else some { state with mm := { state.mm with incoming := state.mm.incoming ++ [chunk] } }
    | .hangUp => some { state with ended := true }
    | .stop => state.stop

variable {writeOk : List Bytes → Bytes → Bool} {state next : Calling}

/-- A call that fails keeps the lock. -/
def fails (state : Calling) (index : Nat) (rc : RpcClient) : Calling :=
  { (state.meets rc).goto index (.returned false) with myLock := true }

inductive Moves (writeOk : List Bytes → Bytes → Bool) (state : Calling) :
    Action → Calling → Prop where
  | calls {procedure : Nat} {arguments : List Any} {rps : RemoteProcedureSignature} :
      state.rc.remoteProcedures[procedure]? = some rps →
      Moves writeOk state (.call procedure arguments) (state.enters ⟨some rps, arguments, .lock⟩)
  | names {remoteProcedure : String} {arguments : List Any}
      {mProc : RemoteProcedureSignature} :
      state.rc.remoteProcedure remoteProcedure = some mProc →
      Moves writeOk state (.callName remoteProcedure arguments)
        (state.enters ⟨some mProc, arguments, .lock⟩)
  | unknown {remoteProcedure : String} {arguments : List Any} :
      state.rc.remoteProcedure remoteProcedure = none →
      Moves writeOk state (.callName remoteProcedure arguments)
        (state.enters ⟨none, arguments, .returned false⟩)
  | panics {action : Action} : Moves writeOk state action state.panic
  | locks {index : Nat} {rps : RemoteProcedureSignature} {arguments : List Any}
      {rc : RpcClient} :
      state.calls[index]? = some ⟨some rps, arguments, .lock⟩ → state.myLock = false →
      RpcClient.Call rps state.rc arguments = (true, rc) →
      Moves writeOk state (.lock index) ((state.meets rc).goto index .signal)
  | fails {index : Nat} {rps : RemoteProcedureSignature} {arguments : List Any}
      {rc : RpcClient} :
      state.calls[index]? = some ⟨some rps, arguments, .lock⟩ → state.myLock = false →
      RpcClient.Call rps state.rc arguments = (false, rc) →
      Moves writeOk state (.lock index) (state.fails index rc)
  | signals {index : Nat} {rps : RemoteProcedureSignature} {arguments : List Any}
      {first : Bool} :
      state.calls[index]? = some ⟨some rps, arguments, .signal⟩ →
      state.stopping ≠ .closed → state.flow = .receive first →
      Moves writeOk state (.signal index)
        { state.goto index (.returned true) with flow := .lock first }
  | flows {next : Calling} :
      state.flowStep writeOk = some next → Moves writeOk state .flow next
  | delivers {chunk : Bytes} :
      state.ended = false →
      Moves writeOk state (.deliver chunk)
        { state with mm := { state.mm with incoming := state.mm.incoming ++ [chunk] } }
  | hangsUp : Moves writeOk state .hangUp { state with ended := true }
  | requests :
      state.stopping = .notCalled →
      Moves writeOk state .stop
        { state with mm := { state.mm with stopRequest := true }, stopping := .requested }
  | closes :
      state.stopping = .requested →
      Moves writeOk state .stop { state with stopping := .closed }

theorem lock_moves {index : Nat} (hlock : state.lock index = some next) :
    Moves writeOk state (.lock index) next := by
  unfold lock at hlock
  split at hlock
  · rename_i rps arguments hcall
    split at hlock
    · cases hlock
    · rename_i hfree
      cases hlock
      simp only [locked]
      split
      · exact .panics
      · cases hresult : RpcClient.Call rps state.rc arguments with
        | mk success rc =>
            cases success with
            | true => exact .locks hcall (by simpa using hfree) hresult
            | false => exact .fails hcall (by simpa using hfree) hresult
  · cases hlock

theorem signal_moves {index : Nat} (hsignal : state.signal index = some next) :
    Moves writeOk state (.signal index) next := by
  unfold signal at hsignal
  split at hsignal
  · rename_i hcall
    split at hsignal
    · cases hsignal
      exact .panics
    · rename_i hopen
      split at hsignal
      · rename_i hflow
        cases hsignal
        exact .signals hcall hopen hflow
      · cases hsignal
  · cases hsignal

theorem step_moves {action : Action} (hstep : step writeOk state action = some next) :
    state.panicked = false ∧ Moves writeOk state action next := by
  unfold step at hstep
  split at hstep
  · cases hstep
  · rename_i hruns
    refine ⟨by simpa using hruns, ?_⟩
    cases action with
    | call procedure arguments =>
        obtain ⟨rps, hrps, rfl⟩ := Option.map_eq_some_iff.mp hstep
        exact .calls hrps
    | callName remoteProcedure arguments =>
        cases hstep
        unfold callName
        cases hproc : state.rc.remoteProcedure remoteProcedure with
        | none => exact .unknown hproc
        | some mProc => exact .names hproc
    | lock index => exact lock_moves hstep
    | signal index => exact signal_moves hstep
    | flow => exact .flows hstep
    | deliver chunk =>
        simp only at hstep
        split at hstep
        · cases hstep
        · rename_i hmore
          cases hstep
          exact .delivers (by simpa using hmore)
    | hangUp =>
        cases hstep
        exact .hangsUp
    | stop =>
        change state.stop = some next at hstep
        unfold stop at hstep
        cases hstopping : state.stopping with
        | notCalled =>
            rw [hstopping] at hstep
            cases hstep
            exact .requests hstopping
        | requested =>
            rw [hstopping] at hstep
            cases hstep
            exact .closes hstopping
        | closed =>
            rw [hstopping] at hstep
            cases hstep
            exact .panics

theorem flowStep_frame (hflow : state.flowStep writeOk = some next) :
    next.calls = state.calls ∧ next.myLock = state.myLock ∧
      next.stopping = state.stopping := by
  unfold flowStep at hflow
  cases hplace : state.flow with
  | loop | receive | lock | measure =>
      simp only [hplace] at hflow
      split at hflow
      all_goals cases hflow
      all_goals exact ⟨rfl, rfl, rfl⟩
  | send first =>
      simp only [hplace] at hflow
      split at hflow
      all_goals cases hflow
      all_goals exact ⟨rfl, rfl, rfl⟩
  | write first replyOk message =>
      simp only [hplace] at hflow
      cases hflow
      unfold writes
      split
      · exact ⟨rfl, rfl, rfl⟩
      · split
        all_goals exact ⟨rfl, rfl, rfl⟩
  | returned =>
      simp only [hplace] at hflow
      cases hflow

def measured (state : Calling) : Calling :=
  if state.flow = .measure then
    { state with mm := state.mm.nextMessage RpcClient.parser, flow := .loop }
  else state

theorem flowStep_measured (hlock : state.myLock = false) (hmeasure : state.flow = .measure) :
    state.flowStep writeOk = some state.measured := by
  rw [measured, if_pos hmeasure, flowStep, hmeasure]
  exact if_neg (by simp [hlock])

theorem flowStep_send (first : Bool) (hsend : state.flow = .send first)
    (hsection : state.rc.sectionID ≠ 0) :
    state.flowStep writeOk =
      some { state with flow := .write first state.rc.SendMessage.1 state.rc.SendMessage.2 } := by
  rw [flowStep, hsend, RpcClient.SendMessage, if_pos hsection]
  exact if_pos hsection

theorem writes_measured :
    (state.writes writeOk false state.rc.SendMessage.1 state.rc.SendMessage.2).measured =
      { state with mm := state.mm.sendReply RpcClient.parser writeOk, flow := .loop } := by
  have hsend : RpcClient.parser.SendMessage state.mm.parser =
      (state.rc.SendMessage.1, state.rc.SendMessage.2, state.mm.parser) := rfl
  rw [writes, MessageManager.sendReply, MessageManager.respond_eq, hsend]
  cases MessageManager.transmit false writeOk state.rc.SendMessage.1 state.rc.SendMessage.2
      state.mm.written with
  | none => rfl
  | some written => rfl

theorem loops_dataFlow (state : Calling) :
    state.mm.dataFlow RpcClient.parser writeOk =
      if (state.mm.upToSend RpcClient.parser).2 then
        (state.loops.writes writeOk false state.loops.rc.SendMessage.1
          state.loops.rc.SendMessage.2).measured.mm
      else state.loops.mm := by
  rw [MessageManager.dataFlow_eq, writes_measured]
  rfl

end Calling

end Rpcmple.Go
