import Rpcmple.Go.DataSubscriber

namespace Rpcmple.Go

open Data DataSignature

/-- `ReplyCallback` tells whether there is one. -/
structure RemoteProcedureSignature where
  id : UInt8
  ProcedureName : String
  Arguments : DataSignature
  Returns : DataSignature
  ReplyCallback : Bool
  deriving DecidableEq, Repr

/-- The client, with a record of which procedure's callback was called with what. -/
structure RpcClient where
  remoteProcedures : List RemoteProcedureSignature
  sectionLen : UInt32
  sectionID : UInt16
  lastRemoteProc : String
  callbackValues : AnySlice
  replySuccess : Bool
  command : Bytes
  replies : List (RemoteProcedureSignature × Bool × List Any)

namespace RpcClient

/-- The signatures with the ids `NewRPCClient` gives them, counting from `index`. -/
def withIds (remoteProcedures : List RemoteProcedureSignature) :
    List RemoteProcedureSignature :=
  remoteProcedures.mapIdx fun index signature => { signature with id := UInt8.ofNat index }

def NewRPCClient (remoteProcedures : List RemoteProcedureSignature) : RpcClient where
  remoteProcedures := withIds remoteProcedures
  sectionLen := 4
  sectionID := 0
  lastRemoteProc := ""
  callbackValues := ⟨List.replicate 50 .nil, 50⟩
  replySuccess := false
  command := []
  replies := []

/-- The map from names: a later signature replaces an earlier one of its name. -/
def remoteProcedure (rc : RpcClient) (name : String) : Option RemoteProcedureSignature :=
  rc.remoteProcedures.reverse.find? fun signature => signature.ProcedureName == name

def deliver (rc : RpcClient) (message : Bytes) : Bool × RpcClient :=
  match rc.remoteProcedure rc.lastRemoteProc with
  | none => (false, rc)
  | some mProc =>
      let (success, callbackValues) :=
        FromBinary mProc.Returns message rc.callbackValues
      if !success.isSome then (false, { rc with callbackValues })
      else
        (true,
          { rc with
            callbackValues
            replies :=
              if mProc.ReplyCallback then
                rc.replies ++ [(mProc, rc.replySuccess, callbackValues.values)]
              else rc.replies })

def expectHeader (rc : RpcClient) : RpcClient :=
  { rc with sectionLen := 4, sectionID := 0 }

/-- The header section; an empty body is decoded at once, and its values cleared. -/
def parseHeader (rc : RpcClient) (message : Bytes) : Bool × RpcClient :=
  if message.length ≠ 4 then (false, rc)
  else
    match readUint32 message with
    | none => (false, rc)
    | some section1 =>
        let rc : RpcClient :=
          { rc with
            replySuccess := section1 / 16777216 == 1
            sectionLen := section1 % 16777216 }
        if rc.sectionLen > 0 then (true, { rc with sectionID := 1 })
        else
          let (success, rc) := rc.deliver []
          if !success then (false, rc)
          else
            let cleared : AnySlice := ⟨rc.callbackValues.backing.map fun _ => .nil, 0⟩
            (true, { rc with callbackValues := cleared }.expectHeader)

def parseBody (rc : RpcClient) (message : Bytes) : Bool × RpcClient :=
  let (success, rc) := rc.deliver message
  if !success then (false, rc) else (true, rc.expectHeader)

def ParseMessage (rc : RpcClient) (message : Bytes) : Bool × RpcClient :=
  if rc.sectionID = 0 then rc.parseHeader message
  else if rc.sectionID = 1 then rc.parseBody message
  else (false, rc)

/-- What `SendMessage` does once it may: nothing before a body, else the command. -/
def SendMessage (rc : RpcClient) : Bool × Bytes :=
  if rc.sectionID ≠ 0 then (true, [])
  else if rc.command.length = 0 then (false, [])
  else (true, rc.command)

/-- `RemoteProcedureSignature.Call` up to the unlock: the frame in the command
buffer and the name of the procedure, or an empty buffer. -/
def Call (rps : RemoteProcedureSignature) (rc : RpcClient) (arguments : List Any) :
    Bool × RpcClient :=
  match ToBinary rps.Arguments [] arguments with
  | .next body =>
      if body.length > 16777216 then (false, { rc with command := [] })
      else
        let headerMessage := rps.id.toUInt32 * 16777216 + UInt32.ofNat body.length
        (true,
          { rc with
            command := leBytes 4 headerMessage.toNat ++ body
            lastRemoteProc := rps.ProcedureName })
  | .fail _ | .crash => (false, { rc with command := [] })

/-! The client as a parser: other goroutines may run `Call` before each of the
flow's calls takes the lock. -/

/-- What the flow's next call finds in the two fields `Call` writes. -/
structure Shared where
  command : Bytes
  lastRemoteProc : String

def meet (others : Nat → Shared) (state : RpcClient × Nat) : RpcClient :=
  { state.1 with
    command := (others state.2).command
    lastRemoteProc := (others state.2).lastRemoteProc }

def methods (others : Nat → Shared) : MessageParser (RpcClient × Nat) where
  ParseMessage state message :=
    let (success, rc) := (meet others state).ParseMessage message
    (success, (rc, state.2 + 1))
  GetMessageLen state := state.1.sectionLen.toNat
  SendMessage state :=
    let rc := meet others state
    (rc.SendMessage.1, rc.SendMessage.2, (rc, state.2 + 1))

def Framed (rc : RpcClient) : Prop :=
  (rc.sectionID = 0 ∧ rc.sectionLen = 4) ∨
    (rc.sectionID = 1 ∧ 0 < rc.sectionLen.toNat ∧ rc.sectionLen.toNat < 16777216)

theorem framed_new (remoteProcedures : List RemoteProcedureSignature) :
    (NewRPCClient remoteProcedures).Framed := Or.inl ⟨rfl, rfl⟩

theorem Framed.positive {rc : RpcClient} (hframed : rc.Framed) :
    0 < rc.sectionLen.toNat := by
  rcases hframed with ⟨-, hlen⟩ | ⟨-, hpositive, -⟩
  · rw [hlen]
    decide
  · exact hpositive

theorem framed_expectHeader (rc : RpcClient) : rc.expectHeader.Framed := Or.inl ⟨rfl, rfl⟩

theorem ParseMessage_framed {rc next : RpcClient} {message : Bytes}
    (hparse : rc.ParseMessage message = (true, next)) : next.Framed := by
  unfold ParseMessage at hparse
  split at hparse
  · unfold parseHeader at hparse
    split at hparse
    · cases hparse
    · split at hparse
      · cases hparse
      · rename_i section1 _
        simp only at hparse
        split at hparse
        · rename_i hpositive
          cases hparse
          refine Or.inr ⟨rfl, UInt32.lt_iff_toNat_lt.mp hpositive, ?_⟩
          rw [UInt32.toNat_mod]
          exact Nat.mod_lt _ (by decide)
        · split at hparse
          · cases hparse
          · cases hparse
            exact framed_expectHeader _
  · split at hparse
    · unfold parseBody at hparse
      simp only at hparse
      split at hparse
      · cases hparse
      · cases hparse
        exact framed_expectHeader _
    · cases hparse

end RpcClient

end Rpcmple.Go
