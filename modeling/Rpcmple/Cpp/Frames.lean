import Rpcmple.Cpp.DataSubscriber
import Rpcmple.Cpp.RpcClient
import Rpcmple.Cpp.Sections
import Rpcmple.Wire.Frame

namespace Rpcmple.Cpp

open Data

theorem readHeader_header (host : Platform) (high size : Nat) :
    readHeader host (Frame.header high size) =
      .returns (UInt32.ofNat (high * 16777216 + size)) := by
  rw [readHeader_of_length host (Frame.length_header high size), Frame.header,
    leValue_leBytes_mod]
  congr 1
  apply UInt32.toNat_inj.mp
  rw [UInt32.toNat_ofNat', UInt32.toNat_ofNat']
  omega

theorem header_quotient {high size : Nat} (hhigh : high < 256) (hsize : size < 16777216) :
    UInt32.ofNat (high * 16777216 + size) / 16777216 = UInt32.ofNat high := by
  apply UInt32.toNat_inj.mp
  rw [UInt32.toNat_div, UInt32.toNat_ofNat', UInt32.toNat_ofNat']
  change (high * 16777216 + size) % 2 ^ 32 / 16777216 = high % 2 ^ 32
  omega

theorem header_remainder (high : Nat) {size : Nat} (hsize : size < 16777216) :
    UInt32.ofNat (high * 16777216 + size) % 16777216 = UInt32.ofNat size := by
  apply UInt32.toNat_inj.mp
  rw [UInt32.toNat_mod, UInt32.toNat_ofNat', UInt32.toNat_ofNat']
  change (high * 16777216 + size) % 2 ^ 32 % 16777216 = size % 2 ^ 32
  omega

theorem size_pos_iff {size : Nat} (hsize : size < 16777216) :
    UInt32.ofNat size > 0 ↔ size ≠ 0 := by
  rw [gt_iff_lt, UInt32.lt_iff_toNat_lt, UInt32.toNat_ofNat']
  change 0 < size % 2 ^ 32 ↔ _
  omega

theorem toNat_size {size : Nat} (hsize : size < 16777216) :
    (UInt32.ofNat size).toNat = size := by
  rw [UInt32.toNat_ofNat']
  omega

section Answering

variable {σ τ β : Type} {methods : Parser σ} {writeOk : List Bytes → Bytes → Bool}

/-- A parser that writes nothing ahead of a body, and a reply that leaves it as it is
ahead of a header. -/
structure Answers (reader : FrameReader methods.reads τ β) (reply : τ → Bool × Bytes) :
    Prop where
  quiet : ∀ state high size,
    methods.writeMessage (reader.atBody state high size) MessageManager.replyMessage =
      some (true, [], reader.atBody state high size)
  replies : ∀ state,
    methods.writeMessage (reader.atHeader state) MessageManager.replyMessage =
      some ((reply state).1, (reply state).2, reader.atHeader state)

theorem send_map (f : τ → σ) (reply : Bool × Bytes) (state : τ) {checked : Nat}
    (hchecked : checked ≤ readBufferSize) (written : List Bytes) :
    MessageManager.send writeOk (reply.1, reply.2, f state) checked written =
      (MessageManager.send writeOk (reply.1, reply.2, state) 0 written).map
        fun sent => (f sent.1, sent.2) := by
  unfold MessageManager.send
  simp only [if_neg (not_lt.mpr hchecked), if_neg (Nat.not_lt_zero _)]
  split
  · rfl
  · split
    · rfl
    · split <;> rfl

variable {reader : FrameReader methods.reads τ β} {reply : τ → Bool × Bytes}

theorem Answers.respond_body (hanswers : Answers reader reply) (state : τ) (high : Nat)
    {size : Nat} (hsize : size < 16777216) (received : Nat) (written : List Bytes) :
    Position.respond methods writeOk (reader.atBody state high size) received written =
      some ⟨reader.atBody state high size, written, size⟩ := by
  have hlen := reader.len_body state high size hsize
  change (methods.getMessageLen (reader.atBody state high size)).toNat = size at hlen
  rw [Position.respond, hanswers.quiet, Position.afterSend, Option.bind_some]
  simp [MessageManager.send, hlen]

theorem Answers.respond_header (hanswers : Answers reader reply) (state : τ)
    {received : Nat} (hreceived : received ≤ readBufferSize)
    (written : List Bytes) :
    Position.respond methods writeOk (reader.atHeader state) received written =
      (MessageManager.send writeOk ((reply state).1, (reply state).2, state) 0 written).map
        fun sent => ⟨reader.atHeader sent.1, sent.2, 4⟩ := by
  rw [Position.respond, hanswers.replies, Position.afterSend, Option.bind_some,
    send_map reader.atHeader (reply state) state hreceived, Option.map_map]
  congr 1
  funext sent
  exact congrArg (Position.mk _ _) (reader.len_header sent.1)

variable (writeOk)

theorem Answers.replying_header (hanswers : Answers reader reply) (state : τ × List Bytes)
    (high size : Nat) (hhigh : high < 256) (hsize : size < 16777216)
    (hbody : ¬ (reader.eager = true ∧ size = 0)) :
    (Position.sections methods writeOk).accept ⟨reader.atHeader state.1, state.2, 4⟩
        (Frame.header high size) = some ⟨reader.atBody state.1 high size, state.2, size⟩ ∧
      reader.observed (reader.atHeader state.1) (Frame.header high size) = none := by
  obtain ⟨haccept, hobserved⟩ := reader.header state.1 high size hhigh hsize hbody
  refine ⟨?_, hobserved⟩
  change accepted (methods.parseMessage (reader.atHeader state.1) _) = _ at haccept
  simp only [Position.sections, haccept, Option.bind_some]
  exact hanswers.respond_body state.1 high hsize _ _

theorem Answers.replying_empty (hanswers : Answers reader reply) (state : τ × List Bytes)
    (high : Nat) (hhigh : high < 256) (heager : reader.eager = true) :
    (Position.sections methods writeOk).accept ⟨reader.atHeader state.1, state.2, 4⟩
        (Frame.header high 0) =
        ((reader.handle state.1 ⟨high, []⟩).bind fun next =>
          MessageManager.send writeOk ((reply next).1, (reply next).2, next) 0 state.2).map
          (fun next => ⟨reader.atHeader next.1, next.2, 4⟩) ∧
      reader.observed (reader.atHeader state.1) (Frame.header high 0) =
        some (reader.observe state.1 ⟨high, []⟩) := by
  obtain ⟨haccept, hobserved⟩ := reader.empty state.1 high hhigh heager
  refine ⟨?_, hobserved⟩
  change accepted (methods.parseMessage (reader.atHeader state.1) _) = _ at haccept
  simp only [Position.sections, haccept]
  cases hhandle : reader.handle state.1 ⟨high, []⟩ with
  | none => rfl
  | some next =>
      rw [Option.map_some, Option.bind_some, Option.bind_some]
      exact hanswers.respond_header next (by rw [Frame.length_header]; decide) state.2

theorem Answers.replying_body (hanswers : Answers reader reply) (state : τ × List Bytes)
    (frame : Frame) (hfits : frame.Fits)
    (hbody : ¬ (reader.eager = true ∧ frame.body.length = 0)) :
    (Position.sections methods writeOk).accept
        ⟨reader.atBody state.1 frame.high frame.body.length, state.2, frame.body.length⟩
        frame.body =
        ((reader.handle state.1 frame).bind fun next =>
          MessageManager.send writeOk ((reply next).1, (reply next).2, next) 0 state.2).map
          (fun next => ⟨reader.atHeader next.1, next.2, 4⟩) ∧
      reader.observed (reader.atBody state.1 frame.high frame.body.length) frame.body =
        some (reader.observe state.1 frame) := by
  obtain ⟨haccept, hobserved⟩ := reader.body state.1 frame hfits hbody
  refine ⟨?_, hobserved⟩
  change accepted (methods.parseMessage
    (reader.atBody state.1 frame.high frame.body.length) _) = _ at haccept
  simp only [Position.sections, haccept]
  cases hhandle : reader.handle state.1 frame with
  | none => rfl
  | some next =>
      rw [Option.map_some, Option.bind_some, Option.bind_some]
      have hsize := hfits.2
      exact hanswers.respond_header next (by simp only [readBufferSize]; omega) state.2

def Answers.replying (hanswers : Answers reader reply) :
    FrameReader (Position.sections methods writeOk) (τ × List Bytes) β where
  atHeader state := ⟨reader.atHeader state.1, state.2, 4⟩
  atBody state high size := ⟨reader.atBody state.1 high size, state.2, size⟩
  handle state frame :=
    (reader.handle state.1 frame).bind fun next =>
      MessageManager.send writeOk ((reply next).1, (reply next).2, next) 0 state.2
  observe state frame := reader.observe state.1 frame
  observed position piece := reader.observed position.parser piece
  eager := reader.eager
  len_header _ := rfl
  len_body _ _ _ _ := rfl
  header := hanswers.replying_header writeOk
  empty := hanswers.replying_empty writeOk
  body := hanswers.replying_body writeOk

end Answering

namespace RpcServer

variable {ω : Type} (host : Platform)

def asked (server : RpcServer ω) (frame : Frame) : RpcServer ω :=
  { server with
    procedureID := UInt32.ofNat frame.high
    sectionLen := UInt32.ofNat frame.body.length
    sectionID := if frame.body.length = 0 then 0 else 1 }

def expectBody (server : RpcServer ω) (high size : Nat) : RpcServer ω :=
  { server with
    procedureID := UInt32.ofNat high
    sectionLen := UInt32.ofNat size
    sectionID := 1 }

variable {host} (server : RpcServer ω)

theorem reads_header {high size : Nat} (hhigh : high < 256) (hsize : size < 16777216)
    (hbody : size ≠ 0) :
    server.expectHeader.parseMessage host (Frame.header high size) =
        .returns (true, server.expectBody high size) ∧
      server.expectHeader.requested host (Frame.header high size) = none := by
  have hpositive := (size_pos_iff hsize).mpr hbody
  have hsection : server.expectHeader.sectionID = 0 := rfl
  constructor
  · rw [parseMessage, if_pos hsection, readHeader_header, Parsed.after_returns]
    simp only [header_quotient hhigh hsize, header_remainder high hsize]
    rw [if_pos hpositive]
    rfl
  · rw [requested, if_pos hsection, readHeader_header]
    simp only [header_remainder high hsize]
    rw [if_pos hpositive]

theorem reads_empty {high : Nat} (hhigh : high < 256) :
    server.expectHeader.parseMessage host (Frame.header high 0) =
        (server.asked ⟨high, []⟩).callThenHeader host [] ∧
      server.expectHeader.requested host (Frame.header high 0) =
        some (server.asked ⟨high, []⟩, []) := by
  have hzero : 0 < 16777216 := by omega
  have hnone : ¬ UInt32.ofNat 0 > 0 := by decide
  have hsection : server.expectHeader.sectionID = 0 := rfl
  constructor
  · rw [parseMessage, if_pos hsection, readHeader_header, Parsed.after_returns]
    simp only [header_quotient hhigh hzero, header_remainder high hzero]
    rw [if_neg hnone]
    rfl
  · rw [requested, if_pos hsection, readHeader_header]
    simp only [header_quotient hhigh hzero, header_remainder high hzero]
    rw [if_neg hnone]
    rfl

theorem reads_body {frame : Frame} (hbody : frame.body.length ≠ 0) :
    (server.expectBody frame.high frame.body.length).parseMessage host frame.body =
        (server.asked frame).callThenHeader host frame.body ∧
      (server.expectBody frame.high frame.body.length).requested host frame.body =
        some (server.asked frame, frame.body) := by
  have hother : ¬ (1 : UInt16) = 0 := by decide
  constructor
  · simp only [parseMessage, expectBody, if_neg hother, if_true, asked, if_neg hbody]
  · simp only [requested, expectBody, if_neg hother, if_true, asked, if_neg hbody]

theorem accepted_callThenHeader {message : Bytes} :
    accepted (server.callThenHeader host message) =
      (accepted (server.callThenHeader host message)).map expectHeader := by
  cases haccepted : accepted (server.callThenHeader host message) with
  | none => rfl
  | some next =>
      obtain ⟨called, -, rfl⟩ := callThenHeader_eq_returns.mp (accepted_eq_some.mp haccepted)
      rfl

variable (host) in
def reader : FrameReader (methods (ω := ω) host).reads (RpcServer ω) Frame where
  atHeader := expectHeader
  atBody := expectBody
  handle server frame := accepted ((server.asked frame).callThenHeader host frame.body)
  observe _ frame := frame
  observed server piece :=
    (server.requested host piece).map fun request => ⟨request.1.procedureID.toNat, request.2⟩
  eager := true
  len_header _ := rfl
  len_body _ _ _ hsize := toNat_size hsize
  header server high size hhigh hsize hbody := by
    have hsize' : size ≠ 0 := fun hzero => hbody ⟨rfl, hzero⟩
    obtain ⟨hparse, hrequested⟩ := @reads_header _ host server _ _ hhigh hsize hsize'
    refine ⟨accepted_eq_some.mpr hparse, ?_⟩
    rw [hrequested, Option.map_none]
  empty server high hhigh _ := by
    obtain ⟨hparse, hrequested⟩ := @reads_empty _ host server _ hhigh
    refine ⟨(congrArg accepted hparse).trans (accepted_callThenHeader _), ?_⟩
    rw [hrequested, Option.map_some]
    exact congrArg some (congrArg₂ Frame.mk (toNat_size (hhigh.trans (by omega))) rfl)
  body server frame hfits hbody := by
    have hbody' : frame.body.length ≠ 0 := fun hzero => hbody ⟨rfl, hzero⟩
    obtain ⟨hparse, hrequested⟩ := @reads_body _ host server _ hbody'
    refine ⟨(congrArg accepted hparse).trans (accepted_callThenHeader _), ?_⟩
    rw [hrequested, Option.map_some]
    exact congrArg some (congrArg₂ Frame.mk (toNat_size (hfits.1.trans (by omega))) rfl)

variable (host) in
def reply (server : RpcServer ω) : Bool × Bytes := server.expectHeader.writeMessage host

variable (host) in
theorem answers : Answers (reader (ω := ω) host) (reply host) where
  quiet _ _ _ := rfl
  replies _ := rfl

end RpcServer

namespace RpcClient

variable (host : Platform)

def expectHeader (rc : RpcClient) : RpcClient := { rc with sectionLen := 4, sectionID := 0 }

def expectBody (rc : RpcClient) (high size : Nat) : RpcClient :=
  { rc with
    callSuccessInt := UInt32.ofNat high
    sectionLen := UInt32.ofNat size
    sectionID := 1 }

def replied (rc : RpcClient) (message : Bytes) : Option Frame :=
  (accepted (rc.parseMessage host message)).bind fun next =>
    if next.sectionID = 0 then some ⟨next.callSuccessInt.toNat, next.rets⟩ else none

variable {host} (rc : RpcClient)

theorem parse_header {high size : Nat} (hhigh : high < 256) (hsize : size < 16777216) :
    rc.expectHeader.parseMessage host (Frame.header high size) =
      .returns (true,
        if size = 0 then { rc with callSuccessInt := UInt32.ofNat high }.acceptReply []
        else rc.expectBody high size) := by
  have hsection : rc.expectHeader.sectionID = 0 := rfl
  rw [parseMessage, if_pos hsection, readHeader_header, Parsed.after_returns]
  simp only [header_quotient hhigh hsize, header_remainder high hsize, size_pos_iff hsize]
  by_cases hempty : size = 0
  · rw [if_neg (not_not.mpr hempty), if_pos hempty]
    rfl
  · rw [if_pos hempty, if_neg hempty]
    rfl

theorem parse_body (high size : Nat) (message : Bytes) :
    (rc.expectBody high size).parseMessage host message =
      .returns (true, (rc.expectBody high size).acceptReply message) := by
  have hother : ¬ (rc.expectBody high size).sectionID = 0 := by
    change ¬ (1 : UInt16) = 0
    decide
  have hsection : (rc.expectBody high size).sectionID = 1 := rfl
  rw [parseMessage, if_neg hother, if_pos hsection]

variable (host) in
def reader : FrameReader (methods host).reads RpcClient Frame where
  atHeader := expectHeader
  atBody := expectBody
  handle rc frame := some ((rc.expectBody frame.high frame.body.length).acceptReply frame.body)
  observe _ frame := frame
  observed := replied host
  eager := true
  len_header _ := rfl
  len_body _ _ _ hsize := toNat_size hsize
  header rc high size hhigh hsize hbody := by
    have hparse := @parse_header host rc _ _ hhigh hsize
    rw [if_neg fun hzero => hbody ⟨rfl, hzero⟩] at hparse
    have haccepted := accepted_eq_some.mpr hparse
    refine ⟨haccepted, ?_⟩
    rw [replied, haccepted, Option.bind_some]
    rfl
  empty rc high hhigh _ := by
    have hparse := @parse_header host rc _ _ hhigh (Nat.pos_of_ne_zero (by decide))
    rw [if_pos rfl] at hparse
    have haccepted := accepted_eq_some.mpr hparse
    refine ⟨haccepted, ?_⟩
    rw [replied, haccepted, Option.bind_some]
    exact congrArg some (congrArg₂ Frame.mk (toNat_size (hhigh.trans (by omega))) rfl)
  body rc frame hfits _ := by
    have haccepted := accepted_eq_some.mpr
      (@parse_body host rc frame.high frame.body.length frame.body)
    refine ⟨haccepted, ?_⟩
    rw [replied, haccepted, Option.bind_some]
    exact congrArg some (congrArg₂ Frame.mk (toNat_size (hfits.1.trans (by omega))) rfl)

end RpcClient

namespace DataSubscriber

variable (host : Platform)

def expectBody (subscriber : DataSubscriber) (size : Nat) : DataSubscriber :=
  { subscriber with sectionLen := UInt32.ofNat size, sectionID := 1 }

/-- What the subscriber does with a whole frame, whose flag it does not look at. -/
def take (subscriber : DataSubscriber) (body : Bytes) : Option DataSubscriber :=
  if body.length = 0 then
    if subscriber.mSignature.length > 0 then none
    else some (subscriber.callback [] []).expectHeader
  else accepted ((subscriber.expectBody body.length).parseBody host body)

variable {host} (subscriber : DataSubscriber)

theorem reads_header {high size : Nat} (hsize : size < 16777216) (hbody : size ≠ 0) :
    subscriber.expectHeader.parseMessage host (Frame.header high size) =
        .returns (true, subscriber.expectBody size) ∧
      subscriber.expectHeader.published host (Frame.header high size) = none := by
  have hpositive := (size_pos_iff hsize).mpr hbody
  have hsection : subscriber.expectHeader.sectionID = 0 := rfl
  constructor
  · rw [parseMessage, if_pos hsection, parseHeader, readHeader_header, Parsed.after_returns]
    simp only [header_remainder high hsize]
    rw [if_pos hpositive]
    rfl
  · rw [published, if_pos hsection, readHeader_header]
    simp only [header_remainder high hsize]
    rw [if_pos hpositive]

theorem reads_empty (high : Nat) :
    accepted (subscriber.expectHeader.parseMessage host (Frame.header high 0)) =
        (subscriber.take host []).map expectHeader ∧
      subscriber.expectHeader.published host (Frame.header high 0) = some [] := by
  have hzero : 0 < 16777216 := by omega
  have hnone : ¬ UInt32.ofNat 0 > 0 := by decide
  have hsection : subscriber.expectHeader.sectionID = 0 := rfl
  constructor
  · rw [parseMessage, if_pos hsection, parseHeader, readHeader_header, Parsed.after_returns]
    simp only [header_remainder high hzero]
    rw [if_neg hnone, take, if_pos List.length_nil]
    change accepted (if subscriber.mSignature.length > 0 then _ else _) = _
    by_cases hsignature : subscriber.mSignature.length > 0
    · rw [if_pos hsignature, if_pos hsignature]
      rfl
    · rw [if_neg hsignature, if_neg hsignature]
      unfold callback
      cases hcallback : subscriber.callbackFunction <;> simp [expectHeader, hcallback] <;> rfl
  · rw [published, if_pos hsection, readHeader_header]
    simp only [header_remainder high hzero]
    rw [if_neg hnone]

theorem reads_body {body : Bytes} (hbody : body.length ≠ 0) :
    accepted ((subscriber.expectBody body.length).parseMessage host body) =
        (subscriber.take host body).map expectHeader ∧
      (subscriber.expectBody body.length).published host body = some body := by
  have hother : ¬ (1 : UInt16) = 0 := by decide
  constructor
  · simp only [parseMessage, expectBody, if_neg hother, if_true, take, if_neg hbody]
    cases haccepted : accepted (DataSubscriber.parseBody host
      { subscriber with sectionLen := UInt32.ofNat body.length, sectionID := 1 } body) with
    | none => rfl
    | some next =>
        obtain ⟨decoded, -, hnext⟩ :=
          Parsed.after_eq_returns.mp (accepted_eq_some.mp haccepted)
        simp only at hnext
        split at hnext
        · cases hnext
        · cases hnext
          rfl
  · simp only [published, expectBody, if_neg hother, if_true]

variable (host) in
def reader : FrameReader (methods host).reads DataSubscriber Bytes where
  atHeader := expectHeader
  atBody subscriber _ size := subscriber.expectBody size
  handle subscriber frame := subscriber.take host frame.body
  observe _ frame := frame.body
  observed := published host
  eager := true
  len_header _ := rfl
  len_body _ _ _ hsize := toNat_size hsize
  header subscriber high size _ hsize hbody := by
    obtain ⟨hparse, hpublished⟩ := @reads_header host subscriber high size hsize
      fun hzero => hbody ⟨rfl, hzero⟩
    exact ⟨accepted_eq_some.mpr hparse, hpublished⟩
  empty subscriber high _ _ := @reads_empty host subscriber high
  body subscriber frame _ hbody :=
    @reads_body host subscriber frame.body fun hzero => hbody ⟨rfl, hzero⟩

variable (host) in
theorem answers : Answers (reader host) fun _ => (true, []) where
  quiet _ _ _ := rfl
  replies _ := rfl

end DataSubscriber

end Rpcmple.Cpp
