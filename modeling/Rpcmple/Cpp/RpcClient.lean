import Rpcmple.Cpp.RpcServer

namespace Rpcmple.Cpp

open Data

structure RemoteProcedureSignature where
  procedureName : WString
  args : DataSignature
  rets : DataSignature
  deriving DecidableEq, Repr

/-- The client.  Everything but the two section fields and `callSuccessInt` is
shared between the flow's thread and the callers. -/
structure RpcClient where
  remoteProcedures : List RemoteProcedureSignature
  canCall : Bool
  sendIsReady : Bool
  replIsReady : Bool
  procedureID : UInt32
  args : Bytes
  callSuccessInt : UInt32
  rets : Bytes
  sectionLen : UInt32
  sectionID : UInt16
  stopWait : Bool

namespace RpcClient

variable (host : Platform)

def new (remoteProcedures : List RemoteProcedureSignature) : RpcClient where
  remoteProcedures := remoteProcedures
  canCall := true
  sendIsReady := false
  replIsReady := false
  procedureID := 0
  args := []
  callSuccessInt := 0
  rets := []
  sectionLen := 4
  sectionID := 0
  stopWait := false

/-! `callSync`, one definition for each stretch between two of its waits. -/

def mayCall (rc : RpcClient) : Bool := rc.canCall || rc.stopWait

/-- The section that serialises the arguments; `fail` is the return of false. -/
def push (rc : RpcClient) (rpId : UInt32) (proc : RemoteProcedureSignature)
    (arguments : VariantVector) : Exec (Bool × RpcClient) :=
  match DataSignature.toBinary host proc.args arguments rc.args with
  | .next buffer =>
      if buffer.defined then
        .returns (true,
          { rc with
            args := buffer.message
            procedureID := rpId
            canCall := false
            sendIsReady := true })
      else .undefined
  | .fail buffer =>
      if buffer.defined then .returns (false, { rc with args := buffer.message })
      else .undefined
  | .crash => .throws

def mayCollect (rc : RpcClient) : Bool := rc.replIsReady || rc.stopWait

/-- The section that reads the reply: what `callSync` returns and leaves in
`returns`. -/
def collect (rc : RpcClient) (proc : RemoteProcedureSignature) (returns : VariantVector) :
    Exec ((Bool × VariantVector) × RpcClient) := do
  let rc := { rc with replIsReady := false, canCall := true }
  let decoded ← DataSignature.fromBinary host proc.rets rc.rets returns
  return ((decoded.success && decide (decoded.args.length = proc.rets.length),
    decoded.args), rc)

def maySend (rc : RpcClient) : Bool := rc.sendIsReady || rc.stopWait

def writeCommand (rc : RpcClient) : Bool × Bytes × RpcClient :=
  if rc.stopWait then (false, [], rc)
  else if rc.args.length > 16777216 then (false, [], rc)
  else
    (true, headerBytes host rc.procedureID rc.args.length ++ rc.args,
      { rc with sendIsReady := false })

def writeMessage (rc : RpcClient) : Option (Bool × Bytes × RpcClient) :=
  if rc.sectionID ≠ 0 then some (true, [], rc)
  else if rc.maySend then some (rc.writeCommand host)
  else none

def acceptReply (rc : RpcClient) (rets : Bytes) : RpcClient :=
  { rc with rets, replIsReady := true, sectionID := 0, sectionLen := 4 }

def parseMessage (rc : RpcClient) (message : Bytes) : Parsed RpcClient :=
  if rc.sectionID = 0 then
    Parsed.after (readHeader host message) rc fun mVal =>
      let rc : RpcClient :=
        { rc with callSuccessInt := mVal / 16777216, sectionLen := mVal % 16777216 }
      if rc.sectionLen > 0 then .returns (true, { rc with sectionID := 1 })
      else .returns (true, rc.acceptReply [])
  else if rc.sectionID = 1 then .returns (true, rc.acceptReply message)
  else .returns (false, rc)

/-- The client alone, without interference by callers. -/
def methods : Parser RpcClient where
  isRequester := true
  parseMessage := parseMessage host
  getMessageLen rc := rc.sectionLen
  writeMessage rc _ := rc.writeMessage host

/-! The client among callers, which may change the shared fields between any two
calls of the flow. -/

structure Shared where
  canCall : Bool
  sendIsReady : Bool
  replIsReady : Bool
  procedureID : UInt32
  args : Bytes
  rets : Bytes
  stopWait : Bool

def meet (others : Nat → Shared) (state : RpcClient × Nat) : RpcClient :=
  let shared := others state.2
  { state.1 with
    canCall := shared.canCall
    sendIsReady := shared.sendIsReady
    replIsReady := shared.replIsReady
    procedureID := shared.procedureID
    args := shared.args
    rets := shared.rets
    stopWait := shared.stopWait }

def sharedMethods (others : Nat → Shared) : Parser (RpcClient × Nat) where
  isRequester := true
  parseMessage state message :=
    match (meet others state).parseMessage host message with
    | .returns (success, rc) => .returns (success, (rc, state.2 + 1))
    | .dies rc => .dies (rc, state.2 + 1)
  getMessageLen state := state.1.sectionLen
  writeMessage state _ :=
    ((meet others state).writeMessage host).map fun result =>
      (result.1, result.2.1, (result.2.2, state.2 + 1))

def Framed (rc : RpcClient) : Prop :=
  RpcServer.SectionFramed rc.sectionID rc.sectionLen

variable {host}

theorem parseMessage_framed {rc next : RpcClient} {message : Bytes}
    (hparse : rc.parseMessage host message = .returns (true, next)) : next.Framed := by
  unfold parseMessage at hparse
  split at hparse
  · obtain ⟨mVal, -, hbody⟩ := Parsed.after_eq_returns.mp hparse
    simp only at hbody
    split at hbody
    · rename_i hpositive
      cases hbody
      exact RpcServer.sectionFramed_body hpositive
    · cases hbody
      exact RpcServer.sectionFramed_header
  · split at hparse
    · cases hparse
      exact RpcServer.sectionFramed_header
    · cases hparse

theorem writeMessage_section {rc next : RpcClient} {success : Bool} {reply : Bytes}
    (hwrite : rc.writeMessage host = some (success, reply, next)) :
    next.sectionID = rc.sectionID ∧ next.sectionLen = rc.sectionLen := by
  unfold writeMessage at hwrite
  split at hwrite
  · cases hwrite
    exact ⟨rfl, rfl⟩
  · split at hwrite
    · unfold writeCommand at hwrite
      split at hwrite
      · cases hwrite
        exact ⟨rfl, rfl⟩
      · split at hwrite
        · cases hwrite
          exact ⟨rfl, rfl⟩
        · cases hwrite
          exact ⟨rfl, rfl⟩
    · cases hwrite

end RpcClient

end Rpcmple.Cpp
