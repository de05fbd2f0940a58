import Rpcmple.Cpp.DataPublisher
import Rpcmple.Cpp.Replies
import Rpcmple.Data.System

namespace Rpcmple.Cpp

open Data MessageManager

/-! A flow whose thread stops between `writeMessage` and what it does with the result. -/

def Parser.holding {σ : Type} (methods : Parser σ) (hand : Bool × Bytes) : Parser σ :=
  { methods with writeMessage := fun parser _ => some (hand.1, hand.2, parser) }

theorem MessageManager.dataFlow_opens {σ : Type} {methods : Parser σ}
    {writeOk : List Bytes → Bytes → Bool} {mm : MessageManager σ} (hloop : mm.loop = .first)
    (hrequester : methods.isRequester = true) {result : Bool × Bytes × σ}
    (hwrite : methods.writeMessage mm.parser [] = some result) :
    mm.dataFlow methods writeOk =
      match send writeOk result result.2.1.length mm.written with
      | none => mm.stop
      | some (parser, written) => { mm with parser, written, loop := .outer } := by
  rw [dataFlow, hloop]
  change mm.firstMessage methods writeOk = _
  cases hsend : send writeOk result result.2.1.length mm.written with
  | none => simp only [firstMessage, if_pos hrequester, hwrite, hsend]
  | some sent => simp only [firstMessage, if_pos hrequester, hwrite, hsend]

theorem MessageManager.dataFlow_idles {σ : Type} {methods : Parser σ}
    {writeOk : List Bytes → Bytes → Bool} {mm : MessageManager σ} (hloop : mm.loop = .outer)
    (hrunning : mm.stopRequested = false) (hzero : mm.messageLength = 0) :
    mm.dataFlow methods writeOk = mm.idle methods writeOk := by
  have hstopped : ¬ mm.stopRequested = true := by simp [hrunning]
  rw [dataFlow, hloop]
  change mm.outerRound methods writeOk = _
  rw [outerRound, if_neg hstopped, if_neg (by omega)]

theorem MessageManager.idle_writes {σ : Type} {methods : Parser σ}
    {writeOk : List Bytes → Bytes → Bool} {mm : MessageManager σ} {result : Bool × Bytes × σ}
    (hwrite : methods.writeMessage mm.parser [] = some result) :
    mm.idle methods writeOk =
      match send writeOk result 0 mm.written with
      | none => mm.stop
      | some (parser, written) =>
          { mm with
            parser, written
            messageLastIdx := 0
            messageLength := (methods.getMessageLen parser).toNat
            messageMissingBytes := (methods.getMessageLen parser).toNat } := by
  cases hsend : send writeOk result 0 mm.written with
  | none => simp only [idle, hwrite, hsend]
  | some sent => simp only [idle, hwrite, hsend]

namespace DataPublisher

variable (host : Platform)

def encoded (mSignature : DataSignature) (data : VariantVector) : Exec (Option Bytes) :=
  if data.length ≠ mSignature.length then .returns none
  else
    match DataSignature.toBinary host mSignature data (List.replicate 1024 0) with
    | .next buffer => if buffer.defined then .returns (some buffer.message) else .undefined
    | .fail buffer => if buffer.defined then .returns none else .undefined
    | .crash => .throws

def publish (mSignature : DataSignature) (publisher : DataPublisher) (data : VariantVector) :
    Exec (Bool × DataPublisher) := do
  match ← encoded host mSignature data with
  | none => return (false, publisher)
  | some message =>
      return (true, { publisher with messageStack := publisher.messageStack ++ [message] })

variable {host}

theorem encoded_of_typed {mSignature : DataSignature} {values : List Value}
    (hnarrow : Narrow mSignature) (htyped : Typed mSignature values)
    (hfits : ∀ value ∈ values, value.Fits) (hsize : bodySize mSignature values < 2 ^ 31) :
    encoded host mSignature (values.map .value) =
      .returns (some ((bodyFormat mSignature).emit values)) := by
  have hlength : (values.map Variant.value).length = mSignature.length := by
    rw [List.length_map, htyped.length_eq]
  have hrepresents : DataSignature.Represents host mSignature (values.map .value) values := by
    simpa using DataSignature.represents_of_typed host hnarrow htyped []
  have hwhole : decide (((bodyFormat mSignature).emit values).length < 2 ^ 31) = true := by
    rw [length_bodyFormat_emit htyped]
    exact decide_eq_true hsize
  rw [encoded, if_neg (not_not.mpr hlength),
    DataSignature.toBinary_of_represents hrepresents hfits]
  simp only [hwhole, if_true]

/-- Messages are taken while less than 1024 bytes are filled, up to one that is too long. -/
def group (groupMessages : Bool) : Nat → List Bytes → List Bytes
  | _, [] => []
  | filled, stackMessage :: messageStack =>
      if filled < 1024 ∧ stackMessage.length ≤ 16777216 then
        stackMessage ::
          (if groupMessages then
            group groupMessages (filled + 4 + stackMessage.length) messageStack
          else [])
      else []

theorem frame_eq (stackMessage : Bytes) :
    frame host stackMessage = Frame.bytes ⟨1, stackMessage⟩ := by
  rw [frame, headerBytes_eq]
  rfl

theorem writeMessage_of_sendLoop {publisher : DataPublisher} {retMessage message : Bytes}
    {success : Bool} {messageStack : List Bytes} (hrunning : publisher.stopWait = false)
    (hstack : publisher.messageStack ≠ [])
    (hloop : sendLoop host publisher.groupMessages publisher.messageStack retMessage 0 =
      (success, message, messageStack)) :
    writeMessage host publisher retMessage =
      some (success, message, { publisher with messageStack }) := by
  simp only [writeMessage, hrunning, List.isEmpty_eq_false_iff.mpr hstack, hloop, Bool.and_true,
    Bool.not_false, Bool.false_eq_true, if_false]

theorem length_frame (stackMessage : Bytes) :
    (frame host stackMessage).length = 4 + stackMessage.length := by
  rw [frame_eq, Frame.bytes, List.length_append, Frame.length_header]

theorem group_le {groupMessages : Bool} {filled : Nat} {messageStack : List Bytes} :
    ∀ message ∈ group groupMessages filled messageStack, message.length ≤ 16777216 := by
  induction messageStack generalizing filled with
  | nil => simp [group]
  | cons stackMessage messageStack ih =>
      rw [group]
      split
      · rename_i hfits
        rw [List.forall_mem_cons]
        refine ⟨hfits.2, ?_⟩
        split
        · exact ih
        · simp
      · simp

def size (messages : List Bytes) : Nat :=
  (messages.map fun message => 4 + message.length).sum

theorem length_frames (messages : List Bytes) :
    (messages.flatMap (frame host)).length = size messages := by
  rw [List.length_flatMap, size]
  simp only [length_frame]

theorem group_split (groupMessages : Bool) (filled : Nat) (messageStack : List Bytes) :
    group groupMessages filled messageStack = [] ∨
      ∃ front last rest, group groupMessages filled messageStack = front ++ [last] ∧
        messageStack = front ++ last :: rest ∧ filled + size front < 1024 ∧
        (groupMessages = true ∨ front = []) := by
  induction messageStack generalizing filled with
  | nil => exact Or.inl rfl
  | cons stackMessage messageStack ih =>
      rw [group]
      split
      · rename_i hfits
        refine Or.inr ?_
        cases groupMessages with
        | false => exact ⟨[], stackMessage, messageStack, rfl, rfl, hfits.1, Or.inr rfl⟩
        | true =>
            simp only [if_true]
            rcases ih (filled + 4 + stackMessage.length) with
              hempty | ⟨front, last, rest, htaken, hstack, hroom, -⟩
            · rw [hempty]
              exact ⟨[], stackMessage, messageStack, rfl, rfl, hfits.1, Or.inl trivial⟩
            · refine ⟨stackMessage :: front, last, rest, by rw [htaken, List.cons_append],
                by rw [hstack, List.cons_append], ?_, Or.inl trivial⟩
              rw [size, List.map_cons, List.sum_cons]
              rw [size] at hroom
              omega
      · exact Or.inl rfl

theorem sendLoop_spec (groupMessages : Bool) (messageStack : List Bytes) (retMessage : Bytes) :
    let taken := group groupMessages retMessage.length messageStack
    let sent := retMessage ++ taken.flatMap (frame host)
    (∃ rest, messageStack = taken ++ rest ∧
        sendLoop host groupMessages messageStack retMessage retMessage.length =
          (true, sent, rest)) ∨
      ∃ bad rest, messageStack = taken ++ bad :: rest ∧ 16777216 < bad.length ∧
        sent.length < 1024 ∧ (groupMessages = true ∨ taken = []) ∧
        sendLoop host groupMessages messageStack retMessage retMessage.length =
          (false, sent, rest) := by
  induction messageStack generalizing retMessage with
  | nil => exact Or.inl ⟨[], rfl, by simp [sendLoop, group]⟩
  | cons stackMessage messageStack ih =>
      rw [sendLoop, group]
      by_cases hroom : retMessage.length < 1024
      · by_cases hlong : stackMessage.length > 16777216
        · refine Or.inr ⟨stackMessage, messageStack, ?_⟩
          simp [hroom, hlong, not_le.mpr hlong]
        · simp only [if_neg hlong, not_lt.mp hlong, hroom, and_self, if_true,
            List.take_length]
          have hlength : (retMessage ++ frame host stackMessage).length =
              retMessage.length + 4 + stackMessage.length := by
            rw [List.length_append, length_frame, Nat.add_assoc]
          cases groupMessages with
          | false =>
              refine Or.inl ⟨messageStack, rfl, ?_⟩
              simp
          | true =>
              simp only [if_true]
              have hih := ih (retMessage ++ frame host stackMessage)
              rw [hlength] at hih
              rw [hlength]
              simp only [List.append_assoc] at hih
              rcases hih with ⟨rest, hstack, hloop⟩ | ⟨bad, rest, hstack, hbad, hsent, -, hloop⟩
              · refine Or.inl ⟨rest, by rw [List.cons_append, ← hstack], ?_⟩
                rw [List.flatMap_cons]
                exact hloop
              · refine Or.inr ⟨bad, rest, by rw [List.cons_append, ← hstack], hbad, ?_,
                  Or.inl trivial, ?_⟩
                · rw [List.flatMap_cons]
                  exact hsent
                · rw [List.flatMap_cons]
                  exact hloop
      · refine Or.inl ⟨stackMessage :: messageStack, ?_⟩
        simp [hroom]

end DataPublisher

/-! The publisher's flow, and any number of threads that publish. -/

/-- `hand` is what `writeMessage` returned, as long as the flow has not handled it, and
`published` records what `publish` pushed. -/
structure Publishing where
  mm : MessageManager DataPublisher
  hand : Option (Bool × Bytes)
  published : List (VariantVector × Bytes)

namespace Publishing

inductive Action where
  | publish (data : VariantVector)
  | take
  | write

variable (host : Platform) (mSignature : DataSignature)
  (writeOk : List Bytes → Bytes → Bool)

def start (groupMessages : Bool) : Publishing where
  mm := init (DataPublisher.methods host) ⟨[], false, groupMessages⟩ []
  hand := none
  published := []

/-- `publish` takes the lock once, to push. -/
def publish (state : Publishing) (data : VariantVector) : Option Publishing :=
  match DataPublisher.encoded host mSignature data,
    state.mm.parser.publish host mSignature data with
  | .returns (some message), .returns (true, publisher) =>
      some
        { state with
          mm := { state.mm with parser := publisher }
          published := state.published ++ [(data, message)] }
  | .undefined, _ => none
  | _, _ => some state

/-- `writeMessage`, once it does not wait any more. -/
def take (state : Publishing) : Option Publishing :=
  if state.hand = none ∧
      (state.mm.loop = .first ∨ state.mm.loop = .outer ∧ state.mm.stopRequested = false) then
    (DataPublisher.writeMessage host state.mm.parser []).map fun result =>
      { state with
        mm := { state.mm with parser := result.2.2 }
        hand := some (result.1, result.2.1) }
  else none

def write (state : Publishing) : Option Publishing :=
  state.hand.map fun hand =>
    { state with
      mm := state.mm.dataFlow ((DataPublisher.methods host).holding hand) writeOk
      hand := none }

def step (state : Publishing) : Action → Option Publishing
  | .publish data => state.publish host mSignature data
  | .take => state.take host
  | .write => state.write host writeOk

variable {host mSignature writeOk} {state next : Publishing}

/-- A round whose two halves come one after the other is a step of `dataFlow`, which does
not keep the parser of a flow that has stopped. -/
theorem write_take {middle : Publishing} (hzero : state.mm.messageLength = 0)
    (htake : state.take host = some middle) (hwrite : middle.write host writeOk = some next) :
    next.mm = { state.mm.dataFlow (DataPublisher.methods host) writeOk with
        parser := next.mm.parser } ∧
      (next.mm.loop ≠ .closed →
        next.mm = state.mm.dataFlow (DataPublisher.methods host) writeOk) := by
  unfold take at htake
  split at htake
  · rename_i hready
    obtain ⟨⟨success, message, publisher⟩, hresult, rfl⟩ := Option.map_eq_some_iff.mp htake
    cases hwrite
    have hmethod : (DataPublisher.methods host).writeMessage state.mm.parser [] =
        some (success, message, publisher) := hresult
    have hrequester : (DataPublisher.methods host).isRequester = true := rfl
    rcases hready.2 with hloop | ⟨hloop, hrunning⟩
    · simp only [dataFlow, hloop, firstMessage, Parser.holding, hmethod, hrequester, if_true]
      cases send writeOk (success, message, publisher) message.length state.mm.written with
      | none => exact ⟨rfl, fun hgoes => absurd rfl hgoes⟩
      | some sent => exact ⟨rfl, fun _ => rfl⟩
    · rw [dataFlow_idles hloop hrunning hzero]
      have hidles := @dataFlow_idles _ ((DataPublisher.methods host).holding (success, message))
        writeOk { state.mm with parser := publisher } hloop hrunning hzero
      simp only [hidles]
      simp only [idle, Parser.holding, hmethod]
      cases send writeOk (success, message, publisher) 0 state.mm.written with
      | none => exact ⟨rfl, fun hgoes => absurd rfl hgoes⟩
      | some sent => exact ⟨rfl, fun _ => rfl⟩
  · cases htake

def bodies (state : Publishing) : List Bytes := state.published.map Prod.snd

def stack (state : Publishing) : List Bytes := state.mm.parser.messageStack

def taken (state : Publishing) : List Bytes :=
  DataPublisher.group state.mm.parser.groupMessages 0 state.stack

/-- With fewer than 1024 bytes of other frames before it in its group, a message is not too
long, nor the first group as far as this message. -/
def Sends (state : Publishing) : Prop :=
  state.mm.parser.groupMessages = true →
    ∀ front message rest, state.stack = front ++ message :: rest → front ≠ [] →
      DataPublisher.size front < 1024 →
        message.length ≤ 16777216 ∧
          (state.mm.loop = .first →
            DataPublisher.size front + message.length ≤ 16777216)

structure Running (state : Publishing) : Prop where
  place : state.mm.loop = .first ∨ state.mm.loop = .outer
  goes : state.mm.stopRequested = false
  waits : state.mm.parser.stopWait = false
  idle : state.mm.messageLength = 0

def Holds (host : Platform) (state : Publishing) (held : List Bytes) : Prop :=
  (state.hand = none ∧ held = []) ∨
    (state.hand = some (true, held.flatMap (DataPublisher.frame host)) ∧
      (state.mm.loop = .first →
        (held.flatMap (DataPublisher.frame host)).length ≤ readBufferSize))

/-- Every message is written, held or on the stack, in this order. -/
structure Flowing (host : Platform) (state : Publishing) (sent held : List Bytes) : Prop where
  whole : state.bodies = sent ++ held ++ state.stack
  fits : ∀ message ∈ sent ++ held, message.length ≤ 16777216
  written : state.mm.written.flatten = sent.flatMap (DataPublisher.frame host)
  holds : state.Holds host held
  running : state.Running

structure Refused (host : Platform) (state : Publishing) (sent : List Bytes) (bad : Bytes) :
    Prop where
  whole : state.bodies = sent ++ bad :: state.stack
  fits : ∀ message ∈ sent, message.length ≤ 16777216
  long : 16777216 < bad.length
  written : state.mm.written.flatten = sent.flatMap (DataPublisher.frame host)
  place : (∃ message, state.hand = some (false, message)) ∧ state.Running ∨
    state.hand = none ∧ state.mm.loop = .closed

structure Broken (host : Platform) (writeOk : List Bytes → Bytes → Bool) (state : Publishing)
    (sent lost : List Bytes) : Prop where
  whole : state.bodies = sent ++ lost ++ state.stack
  written : state.mm.written.flatten = sent.flatMap (DataPublisher.frame host)
  hand : state.hand = none
  closed : state.mm.loop = .closed
  refused : writeOk state.mm.written (lost.flatMap (DataPublisher.frame host)) = false

inductive Balanced (host : Platform) (writeOk : List Bytes → Bytes → Bool)
    (state : Publishing) : Prop where
  | goes {sent held : List Bytes} : state.Flowing host sent held → Balanced host writeOk state
  | fails {sent : List Bytes} {bad : Bytes} :
      state.Refused host sent bad → Balanced host writeOk state
  | breaks {sent lost : List Bytes} :
      state.Broken host writeOk sent lost → Balanced host writeOk state

theorem flowing_start (groupMessages : Bool) : (start host groupMessages).Flowing host [] [] where
  whole := rfl
  fits _ hmem := by cases hmem
  written := rfl
  holds := Or.inl ⟨rfl, rfl⟩
  running := ⟨Or.inl rfl, rfl, rfl, rfl⟩

def pushed (state : Publishing) (data : VariantVector) (message : Bytes) : Publishing :=
  { state with
    mm := { state.mm with
      parser := { state.mm.parser with messageStack := state.stack ++ [message] } }
    published := state.published ++ [(data, message)] }

theorem publish_cases {data : VariantVector}
    (hpublish : state.publish host mSignature data = some next) :
    next = state ∨ ∃ message,
      DataPublisher.encoded host mSignature data = .returns (some message) ∧
        next = state.pushed data message := by
  unfold publish DataPublisher.publish at hpublish
  cases hencoded : DataPublisher.encoded host mSignature data with
  | returns result =>
      rw [hencoded] at hpublish
      cases result with
      | none =>
          cases hpublish
          exact Or.inl rfl
      | some message =>
          cases hpublish
          exact Or.inr ⟨message, rfl, rfl⟩
  | rejects | throws =>
      rw [hencoded] at hpublish
      cases hpublish
      exact Or.inl rfl
  | undefined =>
      rw [hencoded] at hpublish
      cases hpublish

theorem taken_le : ∀ message ∈ state.taken, message.length ≤ 16777216 :=
  DataPublisher.group_le

theorem Sends.first (hsends : state.Sends) (hloop : state.mm.loop = .first) :
    (state.taken.flatMap (DataPublisher.frame host)).length ≤ readBufferSize := by
  rw [DataPublisher.length_frames, readBufferSize]
  have hle := @taken_le state
  rcases DataPublisher.group_split state.mm.parser.groupMessages 0 state.stack with
    hempty | ⟨front, last, rest, htaken, hstack, hroom, hgrouping⟩
  · rw [taken, hempty]
    exact Nat.zero_le _
  · rw [taken, htaken] at hle ⊢
    have hlast : last.length ≤ 16777216 := hle last (by simp)
    rw [DataPublisher.size, List.map_append, List.sum_append, ← DataPublisher.size]
    simp only [List.map_cons, List.map_nil, List.sum_cons, List.sum_nil]
    by_cases hfront : front = []
    · rw [hfront, DataPublisher.size, List.map_nil, List.sum_nil]
      omega
    · have hgroups := hgrouping.resolve_right hfront
      have hsum := (hsends hgroups front last rest hstack hfront (by omega)).2 hloop
      omega

theorem Sends.alone {bad : Bytes} {rest : List Bytes} (hsends : state.Sends)
    (hstack : state.stack = state.taken ++ bad :: rest) (hbad : 16777216 < bad.length)
    (hshort : (state.taken.flatMap (DataPublisher.frame host)).length < 1024)
    (hcase : state.mm.parser.groupMessages = true ∨ state.taken = []) :
    state.taken = [] := by
  by_contra htaken
  have hgroups := hcase.resolve_right htaken
  rw [DataPublisher.length_frames] at hshort
  have hle := (hsends hgroups _ _ _ hstack htaken hshort).1
  omega

theorem publish_of_encoded {data : VariantVector} {message : Bytes}
    (hencoded : DataPublisher.encoded host mSignature data = .returns (some message)) :
    state.publish host mSignature data = some (state.pushed data message) := by
  have hpublish : state.mm.parser.publish host mSignature data =
      .returns (true,
        { state.mm.parser with messageStack := state.mm.parser.messageStack ++ [message] }) := by
    rw [DataPublisher.publish, hencoded]
    rfl
  rw [publish, hencoded, hpublish]
  rfl

theorem take_cases (hwaits : state.mm.parser.stopWait = false)
    (htake : state.take host = some next) :
    state.hand = none ∧ state.stack ≠ [] ∧
      (state.mm.loop = .first ∨ state.mm.loop = .outer) ∧
      ∃ success message rest,
        DataPublisher.sendLoop host state.mm.parser.groupMessages state.stack [] 0 =
          (success, message, rest) ∧
        next = { state with
          mm := { state.mm with parser := { state.mm.parser with messageStack := rest } }
          hand := some (success, message) } := by
  unfold take at htake
  split at htake
  · rename_i hready
    obtain ⟨result, hresult, rfl⟩ := Option.map_eq_some_iff.mp htake
    unfold DataPublisher.writeMessage at hresult
    rw [hwaits] at hresult
    cases hstack : state.mm.parser.messageStack.isEmpty with
    | true => simp [hstack] at hresult
    | false =>
        simp only [hstack, Bool.false_and, Bool.false_eq_true, if_false,
          Option.some.injEq] at hresult
        subst hresult
        refine ⟨hready.1, ?_, hready.2.imp_right And.left, _, _, _, rfl, ?_⟩
        · intro hempty
          rw [stack] at hempty
          rw [hempty] at hstack
          cases hstack
        · simp only [hwaits]
          rfl
  · cases htake

theorem send_true {σ : Type} {parser : σ} {message : Bytes} {checked : Nat}
    {written : List Bytes} (hchecked : checked ≤ readBufferSize) :
    send writeOk (true, message, parser) checked written =
      if message.isEmpty then some (parser, written)
      else if writeOk written message then some (parser, written ++ [message]) else none := by
  unfold send
  simp only [Bool.not_true, Bool.false_eq_true, if_false, if_neg (not_lt.mpr hchecked)]
  cases writeOk written message <;> simp

theorem write_spec {message : Bytes} (hrunning : state.Running)
    (hhand : state.hand = some (true, message))
    (hfirst : state.mm.loop = .first → message.length ≤ readBufferSize)
    (hwrite : state.write host writeOk = some next) :
    next.hand = none ∧ next.published = state.published ∧
      next.mm.parser = state.mm.parser ∧
      (next.Running ∧
          next.mm.written = state.mm.written ++ (if message.isEmpty then [] else [message]) ∨
        next.mm.loop = .closed ∧ next.mm.written = state.mm.written ∧
          writeOk state.mm.written message = false) := by
  unfold write at hwrite
  rw [hhand, Option.map_some] at hwrite
  cases hwrite
  obtain ⟨hplace, hgoes, hwaits, hidle⟩ := hrunning
  refine ⟨rfl, rfl, ?_⟩
  rcases hplace with hloop | hloop
  · have hopens := @dataFlow_opens _
      ((DataPublisher.methods host).holding (true, message)) writeOk state.mm hloop rfl
      (true, message, state.mm.parser) rfl
    rw [hopens, send_true (hfirst hloop)]
    cases message.isEmpty with
    | true =>
        exact ⟨rfl, Or.inl ⟨⟨Or.inr rfl, hgoes, hwaits, hidle⟩, (List.append_nil _).symm⟩⟩
    | false =>
        cases hok : writeOk state.mm.written message with
        | true => exact ⟨rfl, Or.inl ⟨⟨Or.inr rfl, hgoes, hwaits, hidle⟩, rfl⟩⟩
        | false => exact ⟨rfl, Or.inr ⟨rfl, rfl, rfl⟩⟩
  · rw [dataFlow_idles hloop hgoes hidle]
    have hidles := @idle_writes _
      ((DataPublisher.methods host).holding (true, message)) writeOk state.mm
      (true, message, state.mm.parser) rfl
    rw [hidles, send_true (Nat.zero_le _)]
    cases message.isEmpty with
    | true =>
        exact ⟨rfl, Or.inl ⟨⟨Or.inr hloop, hgoes, hwaits, rfl⟩, (List.append_nil _).symm⟩⟩
    | false =>
        cases hok : writeOk state.mm.written message with
        | true => exact ⟨rfl, Or.inl ⟨⟨Or.inr hloop, hgoes, hwaits, rfl⟩, rfl⟩⟩
        | false => exact ⟨rfl, Or.inr ⟨rfl, rfl, rfl⟩⟩

theorem write_failed {message : Bytes} (hrunning : state.Running)
    (hhand : state.hand = some (false, message))
    (hwrite : state.write host writeOk = some next) :
    next.hand = none ∧ next.published = state.published ∧
      next.mm.parser = state.mm.parser ∧ next.mm.written = state.mm.written ∧
      next.mm.loop = .closed := by
  unfold write at hwrite
  rw [hhand, Option.map_some] at hwrite
  cases hwrite
  obtain ⟨hplace, hgoes, hwaits, hidle⟩ := hrunning
  refine ⟨rfl, rfl, ?_⟩
  rcases hplace with hloop | hloop
  · have hopens := @dataFlow_opens _
      ((DataPublisher.methods host).holding (false, message)) writeOk state.mm hloop rfl
      (false, message, state.mm.parser) rfl
    rw [hopens]
    exact ⟨rfl, rfl, rfl⟩
  · rw [dataFlow_idles hloop hgoes hidle]
    exact ⟨rfl, rfl, rfl⟩

theorem running_pushed {data : VariantVector} {message : Bytes} (hrunning : state.Running) :
    (state.pushed data message).Running :=
  ⟨hrunning.place, hrunning.goes, hrunning.waits, hrunning.idle⟩

theorem bodies_pushed (data : VariantVector) (message : Bytes) :
    (state.pushed data message).bodies = state.bodies ++ [message] := by
  simp [bodies, pushed]

theorem flowing_pushed {sent held : List Bytes} (data : VariantVector) (message : Bytes)
    (hflowing : state.Flowing host sent held) :
    (state.pushed data message).Flowing host sent held := by
  have hstack : (state.pushed data message).stack = state.stack ++ [message] := rfl
  refine ⟨?_, hflowing.fits, hflowing.written, hflowing.holds, running_pushed hflowing.running⟩
  rw [bodies_pushed, hflowing.whole, hstack, List.append_assoc]

theorem refused_pushed {sent : List Bytes} {bad : Bytes} (data : VariantVector)
    (message : Bytes) (hrefused : state.Refused host sent bad) :
    (state.pushed data message).Refused host sent bad := by
  have hstack : (state.pushed data message).stack = state.stack ++ [message] := rfl
  refine ⟨?_, hrefused.fits, hrefused.long, hrefused.written,
    hrefused.place.imp_left (And.imp_right running_pushed)⟩
  rw [bodies_pushed, hrefused.whole, hstack, List.append_assoc, List.cons_append]

theorem broken_pushed {sent lost : List Bytes} (data : VariantVector) (message : Bytes)
    (hbroken : state.Broken host writeOk sent lost) :
    (state.pushed data message).Broken host writeOk sent lost := by
  have hstack : (state.pushed data message).stack = state.stack ++ [message] := rfl
  refine ⟨?_, hbroken.written, hbroken.hand, hbroken.closed, hbroken.refused⟩
  rw [bodies_pushed, hbroken.whole, hstack, List.append_assoc]

theorem balanced_publish {data : VariantVector} (hbalanced : state.Balanced host writeOk)
    (hpublish : state.publish host mSignature data = some next) :
    next.Balanced host writeOk := by
  rcases publish_cases hpublish with rfl | ⟨message, -, rfl⟩
  · exact hbalanced
  · cases hbalanced with
    | goes hflowing => exact .goes (flowing_pushed data message hflowing)
    | fails hrefused => exact .fails (refused_pushed data message hrefused)
    | breaks hbroken => exact .breaks (broken_pushed data message hbroken)

theorem flowing_take {sent held : List Bytes} (hflowing : state.Flowing host sent held)
    (hsends : state.Sends) (htake : state.take host = some next) :
    next.Flowing host sent state.taken ∨
      ∃ bad rest, state.stack = bad :: rest ∧ next.Refused host sent bad := by
  obtain ⟨hhand, -, hplace, success, message, rest, hloop, rfl⟩ :=
    take_cases hflowing.running.waits htake
  have hrunning := hflowing.running
  have hheld : held = [] := by
    rcases hflowing.holds with ⟨-, hheld⟩ | ⟨hother, -⟩
    · exact hheld
    · rw [hhand] at hother
      cases hother
  have hwhole : state.bodies = sent ++ state.stack := by
    rw [hflowing.whole, hheld, List.append_nil]
  have hfits : ∀ message ∈ sent, message.length ≤ 16777216 := fun message hmem =>
    hflowing.fits message (List.mem_append_left _ hmem)
  have hspec := @DataPublisher.sendLoop_spec host
    state.mm.parser.groupMessages state.stack []
  simp only [List.length_nil, hloop, List.nil_append] at hspec
  rcases hspec with ⟨rest', hsplit, heq⟩ | ⟨bad, rest', hsplit, hbad, hshort, hcase, heq⟩
  · obtain ⟨rfl, rfl, rfl⟩ := Prod.mk.inj heq |>.imp_right Prod.mk.inj
    refine Or.inl ⟨?_, List.forall_mem_append.mpr ⟨hfits, taken_le⟩, hflowing.written,
      Or.inr ⟨rfl, hsends.first⟩, hplace, hrunning.goes, hrunning.waits, hrunning.idle⟩
    change state.bodies = sent ++ state.taken ++ rest
    rw [hwhole, hsplit, taken, List.append_assoc]
  · obtain ⟨rfl, rfl, rfl⟩ := Prod.mk.inj heq |>.imp_right Prod.mk.inj
    have hempty : state.taken = [] := hsends.alone hsplit hbad hshort hcase
    rw [taken] at hempty
    rw [hempty, List.nil_append] at hsplit
    refine Or.inr ⟨bad, rest, hsplit, ?_, hfits, hbad, hflowing.written,
      Or.inl ⟨⟨_, rfl⟩, hplace, hrunning.goes, hrunning.waits, hrunning.idle⟩⟩
    change state.bodies = sent ++ bad :: rest
    rw [hwhole, hsplit]

theorem take_idle (hplace : state.hand ≠ none ∨ state.mm.loop = .closed)
    (htake : state.take host = some next) : False := by
  unfold take at htake
  split at htake
  · rename_i hready
    rcases hplace with hhand | hclosed
    · exact hhand hready.1
    · rcases hready.2 with hloop | ⟨hloop, -⟩ <;> rw [hclosed] at hloop <;> cases hloop
  · cases htake

theorem balanced_take (hbalanced : state.Balanced host writeOk) (hsends : state.Sends)
    (htake : state.take host = some next) : next.Balanced host writeOk := by
  cases hbalanced with
  | goes hflowing =>
      rcases flowing_take hflowing hsends htake with hgoes | ⟨bad, rest, -, hrefused⟩
      · exact .goes hgoes
      · exact .fails hrefused
  | fails hrefused =>
      refine (take_idle ?_ htake).elim
      rcases hrefused.place with ⟨⟨message, hhand⟩, -⟩ | ⟨-, hclosed⟩
      · exact Or.inl (by rw [hhand]; exact Option.some_ne_none _)
      · exact Or.inr hclosed
  | breaks hbroken => exact (take_idle (Or.inr hbroken.closed) htake).elim

theorem frames_isEmpty {held : List Bytes} :
    (held.flatMap (DataPublisher.frame host)).isEmpty = held.isEmpty := by
  cases held with
  | nil => rfl
  | cons message held =>
      have hlength := @DataPublisher.length_frame host message
      cases hframe : DataPublisher.frame host message with
      | nil =>
          rw [hframe, List.length_nil] at hlength
          omega
      | cons byte bytes => simp [hframe]

theorem flowing_write {sent held : List Bytes} (hflowing : state.Flowing host sent held)
    (hwrite : state.write host writeOk = some next) :
    next.Flowing host (sent ++ held) [] ∨ next.Broken host writeOk sent held := by
  rcases hflowing.holds with ⟨hhand, -⟩ | ⟨hhand, hfirst⟩
  · unfold write at hwrite
    rw [hhand] at hwrite
    cases hwrite
  · obtain ⟨hnone, hpublished, hparser, hgoes⟩ :=
      write_spec hflowing.running hhand hfirst hwrite
    have hbodies : next.bodies = (sent ++ held) ++ next.stack := by
      rw [bodies, stack, hpublished, hparser]
      exact hflowing.whole
    rcases hgoes with ⟨hrunning, hwritten⟩ | ⟨hclosed, hsame, hrefused⟩
    · refine Or.inl ⟨?_, ?_, ?_, Or.inl ⟨hnone, rfl⟩, hrunning⟩
      · rw [List.append_nil]
        exact hbodies
      · rw [List.append_nil]
        exact hflowing.fits
      · rw [hwritten, List.flatten_append, hflowing.written, List.flatMap_append, frames_isEmpty]
        cases held <;> simp
    · exact Or.inr ⟨hbodies, hsame ▸ hflowing.written, hnone, hclosed, hsame ▸ hrefused⟩

theorem balanced_write (hbalanced : state.Balanced host writeOk)
    (hwrite : state.write host writeOk = some next) : next.Balanced host writeOk := by
  cases hbalanced with
  | goes hflowing =>
      rcases flowing_write hflowing hwrite with hgoes | hbroken
      · exact .goes hgoes
      · exact .breaks hbroken
  | fails hrefused =>
      rcases hrefused.place with ⟨⟨message, hhand⟩, hrunning⟩ | ⟨hhand, -⟩
      · obtain ⟨hnone, hpublished, hparser, hsame, hclosed⟩ :=
          write_failed hrunning hhand hwrite
        refine .fails ⟨?_, hrefused.fits, hrefused.long, by rw [hsame, hrefused.written],
          Or.inr ⟨hnone, hclosed⟩⟩
        rw [bodies, stack, hpublished, hparser]
        exact hrefused.whole
      · unfold write at hwrite
        rw [hhand] at hwrite
        cases hwrite
  | breaks hbroken =>
      unfold write at hwrite
      rw [hbroken.hand] at hwrite
      cases hwrite

def SendsAll (state : Publishing) (action : Action) : Prop :=
  action = .take → state.Sends

theorem balanced_step {action : Action} (hbalanced : state.Balanced host writeOk)
    (hallowed : SendsAll state action)
    (hstep : step host mSignature writeOk state action = some next) :
    next.Balanced host writeOk := by
  cases action with
  | publish data => exact balanced_publish hbalanced hstep
  | take => exact balanced_take hbalanced (hallowed rfl) hstep
  | write => exact balanced_write hbalanced hstep

end Publishing

end Rpcmple.Cpp
