import Rpcmple.Data.Machine
import Rpcmple.Data.Sections

namespace Rpcmple.Go

open Data

/-- The calls of the interface `MessageParser`, with the parser's state after
them.  `SendMessage` also gives what it wrote to the buffer. -/
structure MessageParser (σ : Type) where
  ParseMessage : σ → Bytes → Bool × σ
  GetMessageLen : σ → Nat
  SendMessage : σ → Bool × Bytes × σ

inductive Loop where
  | outer
  | inner
  | closed
  deriving DecidableEq, Repr

/-- The manager, the two buffers of `dataFlow`, what `conn.Read` is still going
to return, and a record of what was parsed and written. -/
structure MessageManager (σ : Type) where
  messageLastIdx : Int
  messageLength : Nat
  messageMissingBytes : Int
  stopRequest : Bool
  parser : σ
  loop : Loop
  readBuffer : Bytes
  readMessage : Bytes
  incoming : List Bytes
  parsed : List Bytes
  written : List Bytes

namespace MessageManager

variable {σ : Type}

def NewMessageManager (methods : MessageParser σ) (parser : σ) (incoming : List Bytes) :
    MessageManager σ where
  messageLastIdx := 0
  messageLength := methods.GetMessageLen parser
  messageMissingBytes := methods.GetMessageLen parser
  stopRequest := false
  parser := parser
  loop := .outer
  readBuffer := []
  readMessage := []
  incoming := incoming
  parsed := []
  written := []

variable (methods : MessageParser σ) (writeOk : List Bytes → Bytes → Bool)

def stop (mm : MessageManager σ) : MessageManager σ :=
  { mm with stopRequest := true, loop := .closed }

def nextMessage (mm : MessageManager σ) : MessageManager σ :=
  { mm with
    messageLastIdx := 0
    messageLength := methods.GetMessageLen mm.parser
    messageMissingBytes := methods.GetMessageLen mm.parser
    loop := .inner }

/-- `SendMessage`, the size check and the write, the same in both branches: the
parser and everything written afterwards, or `none` when the flow has to stop.
Whether a write succeeds may depend on all the connection was given before. -/
def respond (parser : σ) (written : List Bytes) : Option (σ × List Bytes) :=
  let (replyOk, replyMessage, parser) := methods.SendMessage parser
  if !replyOk then none
  else if replyMessage.length > 0 then
    if replyMessage.length % 2 ^ 32 > 16777220 then none
    else if !writeOk written replyMessage then none
    else some (parser, written ++ [replyMessage])
  else some (parser, written)

def sendReply (mm : MessageManager σ) : MessageManager σ :=
  match respond methods writeOk mm.parser mm.written with
  | none => mm.stop
  | some (parser, written) => { mm with parser, written }.nextMessage methods

def outerRound (mm : MessageManager σ) : MessageManager σ :=
  if mm.stopRequest then { mm with loop := .closed }
  else if mm.messageLength ≠ 0 then
    match mm.incoming with
    | [] => { mm with loop := .closed }
    | chunk :: incoming =>
        if chunk.length = 0 then { mm with loop := .closed, incoming }
        else { mm with readBuffer := chunk, incoming, loop := .inner }
  else { mm with readBuffer := [] }.sendReply methods writeOk

/-- Move up to a whole message from one buffer to the other, and count it. -/
def transfer (mm : MessageManager σ) : MessageManager σ :=
  let next := mm.readBuffer.take mm.messageLength
  { mm with
    readMessage := mm.readMessage ++ next
    readBuffer := mm.readBuffer.drop mm.messageLength
    messageLastIdx := mm.messageLastIdx + next.length
    messageMissingBytes := mm.messageMissingBytes - next.length }

def parse (mm : MessageManager σ) : MessageManager σ :=
  let (success, parser) := methods.ParseMessage mm.parser mm.readMessage
  let mm := { mm with parser, parsed := mm.parsed ++ [mm.readMessage] }
  if !success then mm.stop
  else { mm with readMessage := [] }.sendReply methods writeOk

def innerRound (mm : MessageManager σ) : MessageManager σ :=
  if mm.readBuffer.length > 0 then
    if mm.transfer.messageMissingBytes = 0 then mm.transfer.parse methods writeOk
    else mm.transfer
  else { mm with loop := .outer }

def dataFlow (mm : MessageManager σ) : MessageManager σ :=
  match mm.loop with
  | .outer => mm.outerRound methods writeOk
  | .inner => mm.innerRound methods writeOk
  | .closed => mm

def upToSend (mm : MessageManager σ) : MessageManager σ × Bool :=
  match mm.loop with
  | .outer =>
      if mm.stopRequest then ({ mm with loop := .closed }, false)
      else if mm.messageLength ≠ 0 then
        match mm.incoming with
        | [] => ({ mm with loop := .closed }, false)
        | chunk :: incoming =>
            if chunk.length = 0 then ({ mm with loop := .closed, incoming }, false)
            else ({ mm with readBuffer := chunk, incoming, loop := .inner }, false)
      else ({ mm with readBuffer := [] }, true)
  | .inner =>
      if mm.readBuffer.length > 0 then
        if mm.transfer.messageMissingBytes = 0 then
          let (success, parser) := methods.ParseMessage mm.transfer.parser mm.transfer.readMessage
          let mm := { mm.transfer with parser, parsed := mm.parsed ++ [mm.transfer.readMessage] }
          if !success then (mm.stop, false) else ({ mm with readMessage := [] }, true)
        else (mm.transfer, false)
      else ({ mm with loop := .outer }, false)
  | .closed => (mm, false)

theorem dataFlow_eq (mm : MessageManager σ) :
    mm.dataFlow methods writeOk =
      if (mm.upToSend methods).2 then (mm.upToSend methods).1.sendReply methods writeOk
      else (mm.upToSend methods).1 := by
  unfold dataFlow upToSend
  cases hloop : mm.loop with
  | closed => rfl
  | outer =>
      by_cases hstop : mm.stopRequest = true
      · simp [outerRound, hstop]
      · by_cases hlength : mm.messageLength ≠ 0
        · cases hincoming : mm.incoming with
          | nil => simp [outerRound, hstop, hlength, hincoming]
          | cons chunk incoming =>
              by_cases hchunk : chunk.length = 0
              · simp [outerRound, hstop, hlength, hincoming, hchunk]
              · simp [outerRound, hstop, hlength, hincoming, hchunk]
        · simp [outerRound, hstop, hlength, hloop]
  | inner =>
      by_cases hmore : mm.readBuffer.length > 0
      · by_cases hfull : mm.transfer.messageMissingBytes = 0
        · have hparsed : mm.transfer.parsed = mm.parsed := rfl
          simp only [innerRound, if_pos hmore, if_pos hfull, parse, hparsed]
          cases (methods.ParseMessage mm.transfer.parser mm.transfer.readMessage).1 with
          | false => rfl
          | true => rfl
        · simp only [innerRound, if_pos hmore, if_neg hfull]
          rfl
      · simp only [innerRound, if_neg hmore]
        rfl

/-- The sections a stream falls into: the parser says how long each is, and a
section is the last one when it is rejected or its reply cannot be sent. -/
def sections : Cutter (σ × List Bytes) where
  len state := methods.GetMessageLen state.1
  accept state piece :=
    let (success, parser) := methods.ParseMessage state.1 piece
    if !success then none else respond methods writeOk parser state.2

@[simp] theorem sections_len (state : σ × List Bytes) :
    (sections methods writeOk).len state = methods.GetMessageLen state.1 := rfl

/-- Inside the inner loop, with `filled` read of the next section. -/
def awaiting (state : σ × List Bytes) (parsed : List Bytes) (filled buffer : Bytes)
    (incoming : List Bytes) : MessageManager σ where
  messageLastIdx := filled.length
  messageLength := methods.GetMessageLen state.1
  messageMissingBytes := methods.GetMessageLen state.1 - filled.length
  stopRequest := false
  parser := state.1
  loop := .inner
  readBuffer := buffer
  readMessage := filled
  incoming := incoming
  parsed := parsed
  written := state.2

def reading (state : σ × List Bytes) (parsed : List Bytes) (filled : Bytes)
    (incoming : List Bytes) : MessageManager σ :=
  { awaiting methods state parsed filled [] incoming with loop := .outer }

section Steps

variable {methods writeOk} {state : σ × List Bytes} {parsed incoming : List Bytes}
  {filled buffer : Bytes}

theorem dataFlow_awaiting_nil :
    dataFlow methods writeOk (awaiting methods state parsed filled [] incoming) =
      reading methods state parsed filled incoming := rfl

theorem new_eq (parser : σ) (chunks : List Bytes) :
    NewMessageManager methods parser chunks =
      dataFlow methods writeOk (awaiting methods (parser, []) [] [] [] chunks) := by
  rw [dataFlow_awaiting_nil]
  simp [NewMessageManager, reading, awaiting]

theorem dataFlow_read {chunk : Bytes} (hlen : methods.GetMessageLen state.1 ≠ 0)
    (hchunk : chunk ≠ []) :
    dataFlow methods writeOk (reading methods state parsed filled (chunk :: incoming)) =
      awaiting methods state parsed filled chunk incoming := by
  simp [dataFlow, outerRound, reading, awaiting, hlen, hchunk]

theorem dataFlow_end (hlen : methods.GetMessageLen state.1 ≠ 0) :
    dataFlow methods writeOk (reading methods state parsed filled []) =
      { awaiting methods state parsed filled [] [] with loop := .closed } := by
  simp [dataFlow, outerRound, reading, awaiting, hlen]

theorem dataFlow_idle (hlen : methods.GetMessageLen state.1 = 0)
    (hidle : methods.SendMessage state.1 = (true, [], state.1)) :
    dataFlow methods writeOk (reading methods state parsed [] incoming) =
      awaiting methods state parsed [] [] incoming := by
  simp [dataFlow, outerRound, reading, awaiting, hlen, sendReply, respond, hidle, nextMessage]

private theorem dataFlow_inner {mm : MessageManager σ} (hloop : mm.loop = .inner)
    (hbuffer : mm.readBuffer ≠ []) :
    dataFlow methods writeOk mm =
      if mm.transfer.messageMissingBytes = 0 then mm.transfer.parse methods writeOk
      else mm.transfer := by
  have hpositive : mm.readBuffer.length > 0 := List.length_pos_iff.mpr hbuffer
  rw [dataFlow, hloop]
  simp only [innerRound, if_pos hpositive]

theorem dataFlow_unfilled (hbuffer : buffer ≠ [])
    (hshort : filled.length + buffer.length < methods.GetMessageLen state.1) :
    dataFlow methods writeOk (awaiting methods state parsed filled buffer incoming) =
      awaiting methods state parsed (filled ++ buffer) [] incoming := by
  have hall : buffer.length ≤ methods.GetMessageLen state.1 := by omega
  have htransfer : (awaiting methods state parsed filled buffer incoming).transfer =
      awaiting methods state parsed (filled ++ buffer) [] incoming := by
    simp only [transfer, awaiting, List.take_of_length_le hall,
      List.drop_of_length_le hall, List.length_append, Nat.cast_add]
    rw [Int.sub_sub]
  rw [dataFlow_inner rfl hbuffer, htransfer, if_neg]
  simp only [awaiting, List.length_append]
  omega

/-- More than is missing is moved: the counter turns negative. -/
theorem dataFlow_overrun (hbuffer : buffer ≠ [])
    (hlong : methods.GetMessageLen state.1 <
      (filled ++ buffer.take (methods.GetMessageLen state.1)).length) :
    (dataFlow methods writeOk
        (awaiting methods state parsed filled buffer incoming)).messageMissingBytes < 0 ∧
      (dataFlow methods writeOk
        (awaiting methods state parsed filled buffer incoming)).messageLength =
          methods.GetMessageLen state.1 := by
  have hmissing : (awaiting methods state parsed filled buffer
      incoming).transfer.messageMissingBytes < 0 := by
    simp only [transfer, awaiting]
    rw [List.length_append] at hlong
    omega
  rw [dataFlow_inner rfl hbuffer, if_neg (by omega)]
  exact ⟨hmissing, rfl⟩

private theorem dataFlow_parse (hbuffer : buffer ≠ [])
    (hfull : (filled ++ buffer.take (methods.GetMessageLen state.1)).length =
      methods.GetMessageLen state.1) :
    dataFlow methods writeOk (awaiting methods state parsed filled buffer incoming) =
      parse methods writeOk
        { awaiting methods state parsed
            (filled ++ buffer.take (methods.GetMessageLen state.1))
            (buffer.drop (methods.GetMessageLen state.1)) incoming with
          messageLength := methods.GetMessageLen state.1
          messageMissingBytes := 0 } := by
  have hmissing : (awaiting methods state parsed filled buffer
      incoming).transfer.messageMissingBytes = 0 := by
    simp only [transfer, awaiting]
    rw [List.length_append] at hfull
    omega
  rw [dataFlow_inner rfl hbuffer, if_pos hmissing]
  congr 1
  rw [← hmissing]
  simp [transfer, awaiting]

theorem dataFlow_last (hbuffer : buffer ≠ [])
    (hfull : (filled ++ buffer.take (methods.GetMessageLen state.1)).length =
      methods.GetMessageLen state.1)
    (hlast : (sections methods writeOk).accept state
      (filled ++ buffer.take (methods.GetMessageLen state.1)) = none) :
    ∃ mm, dataFlow methods writeOk
        (awaiting methods state parsed filled buffer incoming) = mm ∧
      mm.loop = .closed ∧ mm.messageMissingBytes = 0 ∧
      mm.parsed = parsed ++ [filled ++ buffer.take (methods.GetMessageLen state.1)] := by
  refine ⟨_, dataFlow_parse hbuffer hfull, ?_⟩
  generalize filled ++ buffer.take (methods.GetMessageLen state.1) = piece at hlast ⊢
  rcases hparse : methods.ParseMessage state.1 piece with ⟨success, parser⟩
  cases success with
  | false => simp [parse, awaiting, hparse, stop]
  | true =>
      have hrespond : respond methods writeOk parser state.2 = none := by
        simpa [sections, hparse] using hlast
      simp [parse, awaiting, hparse, sendReply, hrespond, stop]

theorem dataFlow_next {following : σ × List Bytes} (hbuffer : buffer ≠ [])
    (hfull : (filled ++ buffer.take (methods.GetMessageLen state.1)).length =
      methods.GetMessageLen state.1)
    (hnext : (sections methods writeOk).accept state
      (filled ++ buffer.take (methods.GetMessageLen state.1)) = some following) :
    dataFlow methods writeOk (awaiting methods state parsed filled buffer incoming) =
      awaiting methods following
        (parsed ++ [filled ++ buffer.take (methods.GetMessageLen state.1)]) []
        (buffer.drop (methods.GetMessageLen state.1)) incoming := by
  rw [dataFlow_parse hbuffer hfull]
  generalize filled ++ buffer.take (methods.GetMessageLen state.1) = piece at hnext ⊢
  rcases hparse : methods.ParseMessage state.1 piece with ⟨success, parser⟩
  cases success with
  | false => simp [sections, hparse] at hnext
  | true =>
      have hrespond : respond methods writeOk parser state.2 = some following := by
        simpa [sections, hparse] using hnext
      obtain ⟨next, written⟩ := following
      simp [parse, awaiting, hparse, sendReply, hrespond, nextMessage]

end Steps

end MessageManager

end Rpcmple.Go
