import Rpcmple.Cpp.Publishing
import Rpcmple.Cpp.RpcClient

namespace Rpcmple.Cpp

open Data MessageManager

/-! Any number of threads in `callSync`, the flow of their client, and `stopDataFlow`. -/

/-- What a flow shows: a message the connection took, or a section that was parsed. -/
inductive Event where
  | sent (message : Bytes)
  | parsed (piece : Bytes)
  deriving DecidableEq, Repr

structure Call where
  rpId : UInt32
  proc : RemoteProcedureSignature
  arguments : VariantVector
  returns : VariantVector

/-- Where a thread is: outside, or before one of the four critical sections.  Behind the
second one it has pushed `args`; `since` records what the flow has shown from then on. -/
inductive Caller where
  | idle
  | waiting (call : Call)
  | pushing (call : Call)
  | collecting (call : Call) (args : Bytes) (since : List Event)
  | released (call : Call) (args : Bytes) (since : List Event)

/-- How far the flow is inside `writeMessage`: past its wait, past its critical section, or
behind its `return`. -/
inductive Writing where
  | outside
  | woken
  | built (message : Bytes)
  | returned (success : Bool) (message : Bytes)

/-- A `callSync` that returned true, with the client its last critical section met. -/
structure Returned where
  call : Call
  args : Bytes
  since : List Event
  client : RpcClient
  values : VariantVector

structure Calling where
  mm : MessageManager RpcClient
  writing : Writing
  callers : List Caller
  pushed : List (Call × Bytes)
  returned : List Returned

namespace Caller

def sees (events : List Event) : Caller → Caller
  | .collecting call args since => .collecting call args (since ++ events)
  | .released call args since => .released call args (since ++ events)
  | caller => caller

end Caller

namespace Calling

inductive Action where
  | call (index : Nat) (rpId : UInt32) (arguments returns : VariantVector)
  | wake (index : Nat)
  | push (index : Nat) (left : Bytes)
  | release (index : Nat)
  | collect (index : Nat)
  | enter
  | build
  | check
  | flow
  | deliver (chunk : Bytes)
  | requestStop
  | stopParser

variable (host : Platform) (writeOk : List Bytes → Bytes → Bool)

def start (remoteProcedures : List RemoteProcedureSignature) (threads : Nat) : Calling where
  mm := init (RpcClient.methods host) (RpcClient.new remoteProcedures) []
  writing := .outside
  callers := List.replicate threads .idle
  pushed := []
  returned := []

def client (state : Calling) : RpcClient := state.mm.parser

def meets (state : Calling) (client : RpcClient) : Calling :=
  { state with mm := { state.mm with parser := client } }

def goto (state : Calling) (index : Nat) (caller : Caller) : Calling :=
  { state with callers := state.callers.set index caller }

/-- Up to the first wait; a number without a signature is undefined. -/
def call (state : Calling) (index : Nat) (rpId : UInt32) (arguments returns : VariantVector) :
    Option Calling :=
  match state.callers[index]?, state.client.remoteProcedures[rpId.toNat]? with
  | some .idle, some proc =>
      if arguments.length ≠ proc.args.length then some state
      else some (state.goto index (.waiting ⟨rpId, proc, arguments, returns⟩))
  | _, _ => none

def wake (state : Calling) (index : Nat) : Option Calling :=
  match state.callers[index]? with
  | some (.waiting call) =>
      if state.client.mayCall then
        if state.client.stopWait then some (state.goto index .idle)
        else some (state.goto index (.pushing call))
      else none
  | _ => none

/-- The critical section that serialises; an exception leaves anything in `args`. -/
def push (state : Calling) (index : Nat) (left : Bytes) : Option Calling :=
  match state.callers[index]? with
  | some (.pushing call) =>
      match state.client.push host call.rpId call.proc call.arguments with
      | .returns (true, client) =>
          some
            { (state.meets client).goto index (.collecting call client.args []) with
              pushed := state.pushed ++ [(call, client.args)] }
      | .returns (false, client) => some ((state.meets client).goto index .idle)
      | .rejects | .throws =>
          some ((state.meets { state.client with args := left }).goto index .idle)
      | .undefined => none
  | _ => none

def release (state : Calling) (index : Nat) : Option Calling :=
  match state.callers[index]? with
  | some (.collecting call args since) =>
      if state.client.mayCollect then some (state.goto index (.released call args since))
      else none
  | _ => none

def collect (state : Calling) (index : Nat) : Option Calling :=
  match state.callers[index]? with
  | some (.released call args since) =>
      match state.client.collect host call.proc call.returns with
      | .returns ((success, values), client) =>
          some
            { (state.meets client).goto index .idle with
              returned :=
                if success then
                  state.returned ++ [⟨call, args, since, state.client, values⟩]
                else state.returned }
      | .rejects | .throws =>
          some
            ((state.meets { state.client with replIsReady := false, canCall := true }).goto
              index .idle)
      | .undefined => none
  | _ => none

def writes (mm : MessageManager RpcClient) : Prop :=
  mm.loop = .first ∨ mm.loop = .reply ∨
    mm.loop = .outer ∧ mm.stopRequested = false ∧ mm.messageLength = 0

instance (mm : MessageManager RpcClient) : Decidable (writes mm) :=
  inferInstanceAs (Decidable (_ ∨ _ ∨ _ ∧ _ ∧ _))

def enter (state : Calling) : Option Calling :=
  match state.writing with
  | .outside =>
      if writes state.mm then
        if state.client.sectionID ≠ 0 then some { state with writing := .returned true [] }
        else if state.client.maySend then
          some
            { state with
              writing := if state.client.stopWait then .returned false [] else .woken }
        else none
      else none
  | _ => none

def build (state : Calling) : Option Calling :=
  match state.writing with
  | .woken =>
      if state.client.args.length > 16777216 then
        some { state with writing := .returned false [] }
      else
        some
          { state.meets { state.client with sendIsReady := false } with
            writing := .built
              (headerBytes host state.client.procedureID state.client.args.length ++
                state.client.args) }
  | _ => none

def check (state : Calling) : Option Calling :=
  match state.writing with
  | .built message => some { state with writing := .returned (!state.client.stopWait) message }
  | _ => none

def events (before after : MessageManager RpcClient) : List Event :=
  ((after.written.drop before.written.length).map .sent) ++
    ((after.parsed.drop before.parsed.length).map fun piece => .parsed piece.2)

def shows (state : Calling) (mm : MessageManager RpcClient) : Calling :=
  { state with
    mm
    writing := .outside
    callers := state.callers.map (Caller.sees (events state.mm mm)) }

def flow (state : Calling) : Option Calling :=
  match state.writing with
  | .outside =>
      if writes state.mm then none
      else some (state.shows (state.mm.dataFlow (RpcClient.methods host) writeOk))
  | .returned success message =>
      some
        (state.shows
          (state.mm.dataFlow ((RpcClient.methods host).holding (success, message)) writeOk))
  | _ => none

def deliver (state : Calling) (chunk : Bytes) : Option Calling :=
  if chunk.length ≤ readBufferSize then
    some { state with mm := { state.mm with incoming := state.mm.incoming ++ [chunk] } }
  else none

/-- The two statements of `stopDataFlow`. -/
def requestStop (state : Calling) : Option Calling :=
  some { state with mm := { state.mm with stopRequested := true } }

def stopParser (state : Calling) : Option Calling :=
  some (state.meets { state.client with stopWait := true })

def step (state : Calling) : Action → Option Calling
  | .call index rpId arguments returns => state.call index rpId arguments returns
  | .wake index => state.wake index
  | .push index left => state.push host index left
  | .release index => state.release index
  | .collect index => state.collect host index
  | .enter => state.enter
  | .build => state.build host
  | .check => state.check
  | .flow => state.flow host writeOk
  | .deliver chunk => state.deliver chunk
  | .requestStop => state.requestStop
  | .stopParser => state.stopParser

def writeAll (state : Calling) : Option Calling := do
  let entered ← state.enter
  match entered.writing with
  | .woken =>
      let built ← entered.build host
      match built.writing with
      | .built _ => built.check
      | _ => return built
  | _ => return entered

/-- With nobody in between, they are `writeMessage`. -/
theorem writeAll_eq {state : Calling} (hwriting : state.writing = .outside)
    (hwrites : writes state.mm) :
    state.writeAll host =
      (state.client.writeMessage host).map fun (success, message, client) =>
        { state.meets client with writing := .returned success message } := by
  unfold writeAll enter RpcClient.writeMessage RpcClient.writeCommand
  rw [hwriting]
  simp only [if_pos hwrites]
  by_cases hsection : state.client.sectionID ≠ 0
  · simp only [if_pos hsection]
    rfl
  · simp only [if_neg hsection]
    by_cases hsend : state.client.maySend = true
    · simp only [if_pos hsend]
      by_cases hstop : state.client.stopWait = true
      · simp only [if_pos hstop]
        rfl
      · simp only [if_neg hstop]
        by_cases hlong : state.client.args.length > 16777216
        · have hbuild : build host { state with writing := .woken } =
              some { state with writing := .returned false [] } := if_pos hlong
          simp only [Option.bind_eq_bind, Option.bind_some, hbuild, if_pos hlong]
          rfl
        · have hbuild : build host { state with writing := .woken } = _ := if_neg hlong
          have hrunning : state.mm.parser.stopWait = false := by simpa [client] using hstop
          simp only [Option.bind_eq_bind, Option.bind_some, hbuild, if_neg hlong,
            Option.map_some]
          simp only [check, client, meets, hrunning, Bool.not_false]
    · simp only [if_neg hsend]
      rfl

end Calling

end Rpcmple.Cpp
