import Rpcmple.Go.DataSignature
import Rpcmple.Go.MessageManager

namespace Rpcmple.Go

open Data DataSignature

/-! What the manager does with the result of `SendMessage`: in `dataFlow`, and for the
first message in `StartDataFlowBlocking` and `StartDataFlowNonBlocking`. -/

namespace MessageManager

/-- Everything written afterwards, or `none` when the flow has to stop. -/
def transmit (first : Bool) (writeOk : List Bytes → Bytes → Bool) (replyOk : Bool)
    (message : Bytes) (written : List Bytes) : Option (List Bytes) :=
  if !replyOk then none
  else if message.length = 0 then
    if first then none else some written
  else if message.length % 2 ^ 32 > 16777220 then none
  else if !writeOk written message then none
  else some (written ++ [message])

theorem respond_eq {σ : Type} (methods : MessageParser σ)
    (writeOk : List Bytes → Bytes → Bool) (parser : σ) (written : List Bytes) :
    respond methods writeOk parser written =
      (transmit false writeOk (methods.SendMessage parser).1 (methods.SendMessage parser).2.1
        written).map fun written => ((methods.SendMessage parser).2.2, written) := by
  rcases hsend : methods.SendMessage parser with ⟨replyOk, replyMessage, next⟩
  simp only [respond, transmit, hsend]
  cases replyOk with
  | false => rfl
  | true =>
      by_cases hempty : replyMessage.length = 0
      · simp [hempty]
      · have hpositive : replyMessage.length > 0 := Nat.pos_of_ne_zero hempty
        simp only [if_pos hpositive, if_neg hempty]
        split_ifs <;> rfl

end MessageManager

/-! `dataPublisher`: any number of goroutines in `Publish` and the flow's goroutine, which
take their steps in any order.  A buffer is known by its number. -/

namespace DataPublisher

/-- What a call of `Publish` does next; `put` and `reset` are its deferred calls. -/
inductive Place where
  | getBody
  | toBinary (body : Nat)
  | write (body : Nat) (pending : Bytes) (success : Bool)
  | checkLen (body : Nat)
  | bytes (body : Nat)
  | getMessage (body : Nat) (bodyArr : Bytes)
  | writeHeader (body message : Nat) (bodyArr : Bytes)
  | writeBody (body message : Nat) (bodyArr : Bytes)
  | add (body message : Nat)
  | send (body message : Nat)
  | put (body : Nat) (result : Bool)
  | reset (body : Nat) (result : Bool)
  | returned (result : Bool)
  deriving DecidableEq

structure Goroutine where
  data : List Any
  place : Place

/-- What the flow does next: `SendMessage` from `receive` to `done`, with its deferred
calls, and the manager around it; `first` before `dataFlow` starts. -/
inductive Flow where
  | loop
  | receive (first : Bool)
  | checkLen (first : Bool) (lastMessage : Nat)
  | copy (first : Bool) (lastMessage : Nat)
  | put (first : Bool) (lastMessage : Nat) (result : Bool) (message : Bytes)
  | reset (first : Bool) (lastMessage : Nat) (result : Bool) (message : Bytes)
  | done (first : Bool) (result : Bool) (message : Bytes)
  | write (first : Bool) (result : Bool) (message : Bytes)
  | closed
  deriving DecidableEq

/-- `StopDataFlow` sets `stopRequest` and then closes the channel. -/
inductive StopDataFlow where
  | notCalled
  | requested
  | closed
  deriving DecidableEq

end DataPublisher

open DataPublisher

/-- The publisher with its goroutines and its manager.  `sent` records which calls sent to
the channel, `taken` what `SendMessage` copied and `written` what the connection took;
after a panic nothing runs any more. -/
structure DataPublisher where
  buffers : Nat → Bytes
  created : Nat
  messagePool : List Nat
  messageStack : List Nat
  wg : Int
  stopRequest : Bool
  stopping : StopDataFlow
  publishes : List Goroutine
  flow : Flow
  panicked : Bool
  sent : List Nat
  taken : List Bytes
  written : List Bytes

namespace DataPublisher

def NewDataPublisher : DataPublisher where
  buffers _ := []
  created := 0
  messagePool := []
  messageStack := []
  wg := 0
  stopRequest := false
  stopping := .notCalled
  publishes := []
  flow := .receive true
  panicked := false
  sent := []
  taken := []
  written := []

/-- `messagePool.Get`: one of the buffers in the pool, or a new one. -/
def get (dp : DataPublisher) : Option Nat → Option (Nat × DataPublisher)
  | none =>
      some (dp.created,
        { dp with
          created := dp.created + 1
          buffers := Function.update dp.buffers dp.created [] })
  | some buffer =>
      if buffer ∈ dp.messagePool then
        some (buffer, { dp with messagePool := dp.messagePool.erase buffer })
      else none

def put (dp : DataPublisher) (buffer : Nat) : DataPublisher :=
  { dp with messagePool := buffer :: dp.messagePool }

def add (dp : DataPublisher) (delta : Int) : DataPublisher := { dp with wg := dp.wg + delta }

/-- `messageStack <- message`, when there is room. -/
def push (dp : DataPublisher) (index message : Nat) : DataPublisher :=
  { dp with messageStack := dp.messageStack ++ [message], sent := dp.sent ++ [index] }

def store (dp : DataPublisher) (buffer : Nat) (bytes : Bytes) : DataPublisher :=
  { dp with buffers := Function.update dp.buffers buffer bytes }

@[simp] theorem store_self (dp : DataPublisher) (buffer : Nat) (bytes : Bytes) :
    (dp.store buffer bytes).buffers buffer = bytes := Function.update_self _ _ _

theorem store_of_ne (dp : DataPublisher) {buffer other : Nat} (bytes : Bytes)
    (hother : other ≠ buffer) : (dp.store buffer bytes).buffers other = dp.buffers other :=
  Function.update_of_ne hother _ _

def append (dp : DataPublisher) (buffer : Nat) (bytes : Bytes) : DataPublisher :=
  dp.store buffer (dp.buffers buffer ++ bytes)

def goto (dp : DataPublisher) (index : Nat) (data : List Any) (place : Place) :
    DataPublisher :=
  { dp with publishes := dp.publishes.set index ⟨data, place⟩ }

def panic (dp : DataPublisher) : DataPublisher := { dp with panicked := true }

def headerBytes (bodyArr : Bytes) : Bytes :=
  leBytes 4 ((1 : UInt32) * 16777216 + UInt32.ofNat bodyArr.length).toNat

variable (signature : DataSignature)

/-- One step of a call of `Publish`: `choice` is what `Get` finds, and `ToBinary` writes
`count + 1` bytes at once. -/
def Publish (dp : DataPublisher) (index : Nat) (choice : Option Nat) (count : Nat) :
    Option DataPublisher :=
  match dp.publishes[index]? with
  | none => none
  | some ⟨data, place⟩ =>
      match place with
      | .getBody => (dp.get choice).map fun (body, dp) => dp.goto index data (.toBinary body)
      | .toBinary body =>
          match ToBinary signature [] data with
          | .next bytes => some (dp.goto index data (.write body bytes true))
          | .fail bytes => some (dp.goto index data (.write body bytes false))
          | .crash => some dp.panic
      | .write body pending success =>
          if pending.isEmpty then
            some (dp.goto index data (if success then .checkLen body else .put body false))
          else
            some ((dp.append body (pending.take (count + 1))).goto index data
              (.write body (pending.drop (count + 1)) success))
      | .checkLen body =>
          some (dp.goto index data
            (if (dp.buffers body).length > 16777216 then .put body false else .bytes body))
      | .bytes body => some (dp.goto index data (.getMessage body (dp.buffers body)))
      | .getMessage body bodyArr =>
          (dp.get choice).map fun (message, dp) =>
            dp.goto index data (.writeHeader body message bodyArr)
      | .writeHeader body message bodyArr =>
          some ((dp.append message (headerBytes bodyArr)).goto index data
            (.writeBody body message bodyArr))
      | .writeBody body message bodyArr =>
          some ((dp.append message bodyArr).goto index data (.add body message))
      | .add body message =>
          some ((dp.add 1).goto index data (.send body message))
      | .send body message =>
          if dp.stopping = .closed then some dp.panic
          else if dp.messageStack.length < 1024 then
            some ((dp.push index message).goto index data (.put body true))
          else none
      | .put body result =>
          some ((dp.put body).goto index data (.reset body result))
      | .reset body result => some ((dp.store body []).goto index data (.returned result))
      | .returned _ => none

variable (writeOk : List Bytes → Bytes → Bool)

def SendMessage (dp : DataPublisher) : Option DataPublisher :=
  match dp.flow with
  | .loop => some { dp with flow := if dp.stopRequest then .closed else .receive false }
  | .receive first =>
      match dp.messageStack with
      | lastMessage :: messageStack =>
          some { dp with messageStack, flow := .checkLen first lastMessage }
      | [] => if dp.stopping = .closed then some dp.panic else none
  | .checkLen first lastMessage =>
      some { dp with
        flow :=
          if (dp.buffers lastMessage).length = 0 then .put first lastMessage false []
          else .copy first lastMessage }
  | .copy first lastMessage =>
      some { dp with
        taken := dp.taken ++ [dp.buffers lastMessage]
        flow := .put first lastMessage true (dp.buffers lastMessage) }
  | .put first lastMessage result message =>
      some { dp.put lastMessage with flow := .reset first lastMessage result message }
  | .reset first lastMessage result message =>
      some { dp.store lastMessage [] with flow := .done first result message }
  | .done first result message =>
      some { dp.add (-1) with
        panicked := decide ((dp.add (-1)).wg < 0)
        flow := .write first result message }
  | .write first result message =>
      match MessageManager.transmit first writeOk result message dp.written with
      | none => some { dp with stopRequest := true, flow := .closed }
      | some written => some { dp with written, flow := .loop }
  | .closed => none

def stop (dp : DataPublisher) : Option DataPublisher :=
  match dp.stopping with
  | .notCalled => some { dp with stopRequest := true, stopping := .requested }
  | .requested => some { dp with stopping := .closed }
  | .closed => none

inductive Action where
  | publish (data : List Any)
  | run (index : Nat) (choice : Option Nat) (count : Nat)
  | flow
  | stop

def step (dp : DataPublisher) (action : Action) : Option DataPublisher :=
  if dp.panicked then none
  else
    match action with
    | .publish data => some { dp with publishes := dp.publishes ++ [⟨data, .getBody⟩] }
    | .run index choice count => dp.Publish signature index choice count
    | .flow => dp.SendMessage writeOk
    | .stop => dp.stop

end DataPublisher

end Rpcmple.Go
