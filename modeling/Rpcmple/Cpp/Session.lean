import Rpcmple.Cpp.Arguments
import Rpcmple.Cpp.Arrivals
import Rpcmple.Cpp.Calling

namespace Rpcmple.Cpp

open Data MessageManager

/-! A client and a server at the two ends of a connection, and one thread that calls. -/

structure Procedure (ω : Type) where
  procedureName : WString
  args : DataSignature
  rets : DataSignature
  called : ω → VariantVector → Bool × VariantVector × ω

structure Invocation where
  rpId : UInt32
  arguments : VariantVector
  returns : VariantVector

namespace Procedure

variable {ω : Type} (proc : Procedure ω)

def remote : RemoteProcedureSignature := ⟨proc.procedureName, proc.args, proc.rets⟩

def registered : LocalProcedureSignature ω :=
  ⟨proc.procedureName, proc.args, proc.rets, proc.called⟩

def Takes (arguments : VariantVector) : Prop :=
  arguments.length = proc.args.length ∧ DataSignature.Matches proc.args arguments

instance (arguments : VariantVector) : Decidable (proc.Takes arguments) :=
  inferInstanceAs (Decidable (_ ∧ _))

/-- No wide strings; on arguments that match, it returns true and values that match. -/
structure Honest : Prop where
  args : Narrow proc.args
  rets : Narrow proc.rets
  returns : ∀ world arguments, proc.Takes arguments → DataSignature.Small proc.args arguments →
    (proc.called world arguments).1 = true ∧
      (proc.called world arguments).2.1.length = proc.rets.length ∧
      DataSignature.Matches proc.rets (proc.called world arguments).2.1 ∧
      DataSignature.Small proc.rets (proc.called world arguments).2.1

end Procedure

/-- `write` blocks on nothing, and `read` until something is there.  The bytes between the
two ends are those written and not yet read. -/
structure Session (ω : Type) where
  calling : Calling
  server : MessageManager (RpcServer ω)
  toServer : Bytes
  toClient : Bytes
  todo : List Invocation
  results : List (Option VariantVector)

def MessageManager.Ended {σ : Type} (mm : MessageManager σ) : Prop :=
  mm.loop = .closed ∨ mm.loop = .terminated

instance {σ : Type} (mm : MessageManager σ) : Decidable mm.Ended :=
  inferInstanceAs (Decidable (_ ∨ _))

def Calling.thread? (calling : Calling) : Option Caller := calling.callers[0]?

namespace Session

variable {ω : Type}

/-- Each end is one thread; the connection hands over any part of what is on its way. -/
inductive Action where
  | caller
  | flow
  | server
  | toServer (size : Nat)
  | toClient (size : Nat)

variable (near far : Platform)

def start (table : List (Procedure ω)) (world : ω) (calls : List Invocation) : Session ω where
  calling := Calling.start near (table.map Procedure.remote) 1
  server := init (RpcServer.methods far) (RpcServer.new (table.map Procedure.registered) world) []
  toServer := []
  toClient := []
  todo := calls
  results := []

/-- `callSync` is left: what it returned, and `none` for false. -/
def settle (state : Session ω) (calling : Calling) : Session ω :=
  { state with
    calling
    results :=
      match calling.thread? with
      | some .idle =>
          state.results ++
            [(calling.returned.drop state.calling.returned.length).head?.map (·.values)]
      | _ => state.results }

def caller (state : Session ω) : Option (Session ω) :=
  match state.calling.thread? with
  | some .idle =>
      match state.todo with
      | [] => none
      | invocation :: todo =>
          (state.calling.call 0 invocation.rpId invocation.arguments invocation.returns).map
            fun calling => { state with todo }.settle calling
  | some (.waiting _) => (state.calling.wake 0).map state.settle
  | some (.pushing _) => (state.calling.push near 0 []).map state.settle
  | some (.collecting _ _ _) => (state.calling.release 0).map state.settle
  | some (.released _ _ _) => (state.calling.collect near 0).map state.settle
  | none => none

def flowAction (calling : Calling) : Calling.Action :=
  match calling.writing with
  | .outside => if Calling.writes calling.mm then .enter else .flow
  | .woken => .build
  | .built _ => .check
  | .returned _ _ => .flow

def sent {σ : Type} (before after : MessageManager σ) : Bytes :=
  (after.written.drop before.written.length).flatten

def flow (state : Session ω) : Option (Session ω) :=
  if state.calling.mm.Starved ∨ state.calling.mm.Ended then none
  else
    (state.calling.step near RpcServer.takesAll (flowAction state.calling)).map fun calling =>
      { state with
        calling
        toServer := state.toServer ++ sent state.calling.mm calling.mm }

def serve (state : Session ω) : Option (Session ω) :=
  if state.server.Starved ∨ state.server.Ended then none
  else
    let server := state.server.dataFlow (RpcServer.methods far) RpcServer.takesAll
    some
      { state with
        server
        toClient := state.toClient ++ sent state.server server }

def deliverToServer (state : Session ω) (size : Nat) : Option (Session ω) :=
  if 0 < size ∧ size ≤ state.toServer.length ∧ size ≤ readBufferSize then
    some
      { state with
        server := state.server.fed [state.toServer.take size]
        toServer := state.toServer.drop size }
  else none

def deliverToClient (state : Session ω) (size : Nat) : Option (Session ω) :=
  if 0 < size ∧ size ≤ state.toClient.length ∧ size ≤ readBufferSize then
    (state.calling.deliver (state.toClient.take size)).map fun calling =>
      { state with calling, toClient := state.toClient.drop size }
  else none

def step (state : Session ω) : Action → Option (Session ω)
  | .caller => state.caller near
  | .flow => state.flow near
  | .server => state.serve far
  | .toServer size => state.deliverToServer size
  | .toClient size => state.deliverToClient size

variable (table : List (Procedure ω))

def target (invocation : Invocation) : Option (Procedure ω) :=
  table[invocation.rpId.toNat]?.filter fun proc => proc.Takes invocation.arguments

def outcome (world : ω) (invocation : Invocation) : Option VariantVector × ω :=
  match target table invocation with
  | some proc =>
      let (_, rets, world) := proc.called world invocation.arguments
      (some rets, world)
  | none => (none, world)

def outcomes : ω → List Invocation → List (Option VariantVector)
  | _, [] => []
  | world, invocation :: calls =>
      (outcome table world invocation).1 :: outcomes (outcome table world invocation).2 calls

end Session

structure Issue (ω : Type) where
  invocation : Invocation
  proc : Procedure ω

namespace Issue

variable {ω : Type} (issue : Issue ω)

def request : Frame :=
  ⟨issue.invocation.rpId.toNat, DataSignature.body issue.proc.args issue.invocation.arguments⟩

def run : Nat × VariantVector := (issue.invocation.rpId.toNat, issue.invocation.arguments)

def reply (world : ω) : Frame :=
  ⟨1, DataSignature.body issue.proc.rets
    (issue.proc.called world issue.invocation.arguments).2.1⟩

def next (world : ω) : ω := (issue.proc.called world issue.invocation.arguments).2.2

def after (world : ω) (issues : List (Issue ω)) : ω :=
  issues.foldl (fun world issue => issue.next world) world

def replies : ω → List (Issue ω) → List Frame
  | _, [] => []
  | world, issue :: issues => issue.reply world :: replies (issue.next world) issues

end Issue

namespace Session

variable {ω : Type} (table : List (Procedure ω))

def issues (calls : List Invocation) : List (Issue ω) :=
  calls.filterMap fun invocation => (target table invocation).map fun proc => ⟨invocation, proc⟩

/-- The server can convert the names of the procedures that are sent for. -/
def Named (far : Platform) (calls : List Invocation) : Prop :=
  ∀ issue ∈ issues table calls, Converts far issue.proc.procedureName

instance (far : Platform) (calls : List Invocation) : Decidable (Named table far calls) :=
  inferInstanceAs (Decidable (∀ issue ∈ issues table calls, _))

/-- The number stands for a procedure, and what would be encoded is small. -/
def Admissible (invocation : Invocation) : Prop :=
  ∃ proc, table[invocation.rpId.toNat]? = some proc ∧
    (invocation.arguments.length = proc.args.length →
      DataSignature.Small proc.args invocation.arguments)

end Session

end Rpcmple.Cpp
