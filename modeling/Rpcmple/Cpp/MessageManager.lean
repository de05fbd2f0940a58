import Rpcmple.Cpp.DataSignature

namespace Rpcmple.Cpp

open Data

/-! `messageManager`: the loop between a connection and a message parser. -/

/-- What `parseMessage` comes to; one that throws leaves a parser behind, too. -/
inductive Parsed (σ : Type) where
  | returns (result : Bool × σ)
  | dies (parser : σ)
  deriving DecidableEq, Repr

namespace Parsed

variable {σ α : Type}

def after (exec : Exec α) (parser : σ) (continuation : α → Parsed σ) : Parsed σ :=
  match exec with
  | .returns value => continuation value
  | .rejects | .throws | .undefined => .dies parser

@[simp] theorem after_returns (value : α) (parser : σ) (continuation : α → Parsed σ) :
    after (.returns value) parser continuation = continuation value := rfl

theorem after_eq_returns {exec : Exec α} {parser : σ} {continuation : α → Parsed σ}
    {result : Bool × σ} :
    after exec parser continuation = .returns result ↔
      ∃ value, exec = .returns value ∧ continuation value = .returns result := by
  cases exec <;> simp [after]

def parser : Parsed σ → σ
  | returns result => result.2
  | dies parser => parser

theorem parser_after {P : σ → Prop} {exec : Exec α} {parser : σ}
    {continuation : α → Parsed σ} (hdies : P parser)
    (hreturns : ∀ value, exec = .returns value → P (continuation value).parser) :
    P (after exec parser continuation).parser := by
  cases exec with
  | returns value => exact hreturns value rfl
  | rejects | throws | undefined => exact hdies

end Parsed

/-- The virtual methods, with the parser's state after them.  `writeMessage` is
given the vector's content and is `none` while it waits. -/
structure Parser (σ : Type) where
  isRequester : Bool
  parseMessage : σ → Bytes → Parsed σ
  getMessageLen : σ → UInt32
  writeMessage : σ → Bytes → Option (Bool × Bytes × σ)

/-- The place `dataFlow` has reached: before the first message, at either loop,
between parsing and replying, behind the loops, or dead with its thread. -/
inductive Loop where
  | first
  | outer
  | inner
  | reply
  | closed
  | terminated
  deriving DecidableEq, Repr

/-- The manager, what `mConn->read` is still going to deliver, and a record of what
was parsed, with the parser it met, and written.  `readBuffer` is the part of the vector the last
read filled; `inBounds` stays set while every copy is inside its vectors. -/
structure MessageManager (σ : Type) where
  parser : σ
  stopRequested : Bool
  readBuffer : Bytes
  message : Bytes
  messageLastIdx : Nat
  messageLength : Nat
  messageMissingBytes : Nat
  bytesRead : Nat
  bytesParsed : Nat
  loop : Loop
  inBounds : Bool
  incoming : List Bytes
  parsed : List (σ × Bytes)
  written : List Bytes

/-- The capacity of `readBuffer`, and the limit the loops put on a message. -/
def readBufferSize : Nat := 16777220

namespace MessageManager

variable {σ : Type} (methods : Parser σ) (writeOk : List Bytes → Bytes → Bool)

def init (parser : σ) (incoming : List Bytes) : MessageManager σ where
  parser := parser
  stopRequested := false
  readBuffer := []
  message := List.replicate (methods.getMessageLen parser).toNat 0
  messageLastIdx := 0
  messageLength := (methods.getMessageLen parser).toNat
  messageMissingBytes := (methods.getMessageLen parser).toNat
  bytesRead := 0
  bytesParsed := 0
  loop := .first
  inBounds := true
  incoming := incoming
  parsed := []
  written := []

def stop (mm : MessageManager σ) : MessageManager σ :=
  { mm with stopRequested := true, loop := .closed }

/-- The size checks and `mConn->write` behind a `writeMessage` that returned:
the parser and everything written, or `none` when the flow has to stop.
`checked` is the size the limit is compared with. -/
def send (result : Bool × Bytes × σ) (checked : Nat) (written : List Bytes) :
    Option (σ × List Bytes) :=
  let (writeOkay, message, parser) := result
  if !writeOkay then none
  else if message.isEmpty then some (parser, written)
  else if checked > readBufferSize then none
  else if !writeOk written message then none
  else some (parser, written ++ [message])

def firstMessage (mm : MessageManager σ) : MessageManager σ :=
  if methods.isRequester then
    match methods.writeMessage mm.parser [] with
    | none => mm
    | some result =>
        match send writeOk result result.2.1.length mm.written with
        | none => mm.stop
        | some (parser, written) => { mm with parser, written, loop := .outer }
  else { mm with loop := .outer }

/-- The branch for parsers that only send: a vector of its own for the message, no
limit on its size, and `message` keeps the size it had. -/
def idle (mm : MessageManager σ) : MessageManager σ :=
  match methods.writeMessage mm.parser [] with
  | none => mm
  | some result =>
      match send writeOk result 0 mm.written with
      | none => mm.stop
      | some (parser, written) =>
          { mm with
            parser, written
            messageLastIdx := 0
            messageLength := (methods.getMessageLen parser).toNat
            messageMissingBytes := (methods.getMessageLen parser).toNat }

def outerRound (mm : MessageManager σ) : MessageManager σ :=
  if mm.stopRequested then { mm with loop := .closed }
  else if mm.messageLength > 0 then
    match mm.incoming with
    | [] => { mm with bytesRead := 0, bytesParsed := 0, loop := .closed }
    | chunk :: incoming =>
        { mm with
          readBuffer := chunk
          bytesRead := chunk.length
          bytesParsed := 0
          loop := .inner
          inBounds := mm.inBounds && decide (chunk.length ≤ readBufferSize)
          incoming }
  else mm.idle methods writeOk

def overwrite (target bytes : Bytes) (index : Nat) : Bytes :=
  target.take index ++ bytes ++ target.drop (index + bytes.length)

/-- Copy what is missing, or what there is, and count it in 32 bits. -/
def transfer (mm : MessageManager σ) : MessageManager σ :=
  let left := (mm.bytesRead + 2 ^ 32 - mm.bytesParsed) % 2 ^ 32
  let transferredBytes :=
    if left < mm.messageMissingBytes then left else mm.messageMissingBytes
  { mm with
    message := overwrite mm.message
      ((mm.readBuffer.drop mm.bytesParsed).take transferredBytes) mm.messageLastIdx
    messageLastIdx := (mm.messageLastIdx + transferredBytes) % 2 ^ 32
    messageMissingBytes := (mm.messageMissingBytes + 2 ^ 32 - transferredBytes) % 2 ^ 32
    bytesParsed := (mm.bytesParsed + transferredBytes) % 2 ^ 32
    inBounds := mm.inBounds &&
      decide (mm.bytesParsed + transferredBytes ≤ mm.readBuffer.length) &&
      decide (mm.messageLastIdx + transferredBytes ≤ mm.message.length) }

def parse (mm : MessageManager σ) : MessageManager σ :=
  let piece := mm.message.take mm.messageLength
  let mm := { mm with parsed := mm.parsed ++ [(mm.parser, piece)] }
  match methods.parseMessage mm.parser piece with
  | .returns (true, parser) => { mm with parser, loop := .reply }
  | .returns (false, parser) => { mm with parser }.stop
  | .dies parser => { mm with parser, loop := .terminated }

def innerRound (mm : MessageManager σ) : MessageManager σ :=
  if mm.bytesParsed < mm.bytesRead then
    if mm.transfer.messageMissingBytes = 0 then mm.transfer.parse methods
    else mm.transfer
  else { mm with loop := .outer }

/-- What the vector for a reply holds before `writeMessage`. -/
def replyMessage : Bytes := List.replicate 1024 0

/-- The reply, in its own vector; the limit is compared with
the size of the message received.  Then the three assignments before the next. -/
def replyRound (mm : MessageManager σ) : MessageManager σ :=
  match methods.writeMessage mm.parser replyMessage with
  | none => mm
  | some result =>
      match send writeOk result mm.message.length mm.written with
      | none => mm.stop
      | some (parser, written) =>
          { mm with
            parser, written
            messageLastIdx := 0
            messageLength := (methods.getMessageLen parser).toNat
            message := resize 0 mm.message (methods.getMessageLen parser).toNat
            messageMissingBytes := (methods.getMessageLen parser).toNat
            loop := .inner }

def dataFlow (mm : MessageManager σ) : MessageManager σ :=
  match mm.loop with
  | .first => mm.firstMessage methods writeOk
  | .outer => mm.outerRound methods writeOk
  | .inner => mm.innerRound methods
  | .reply => mm.replyRound methods writeOk
  | .closed | .terminated => mm

end MessageManager

end Rpcmple.Cpp
