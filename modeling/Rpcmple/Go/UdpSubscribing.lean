import Rpcmple.Data.Relay
import Rpcmple.Go.Frames
import Rpcmple.Wire.Datagram

namespace Rpcmple.Go

open Data DataSignature MessageManager

/-- `readBufferRaw` in `dataFlow`. -/
def readBufferSize : Nat := 16777220

namespace UdpSubscriber

inductive Action where
  | receive
  | flow

variable (writeOk : List Bytes → Bytes → Bool) (signature : DataSignature)

def Reads (mm : MessageManager DataSubscriber) : Prop :=
  mm.loop = .outer ∧ mm.stopRequest = false ∧ mm.messageLength ≠ 0 ∧ mm.incoming = []

instance (mm : MessageManager DataSubscriber) : Decidable (Reads mm) :=
  inferInstanceAs (Decidable (_ ∧ _ ∧ _ ∧ _))

def start : MessageManager DataSubscriber :=
  NewMessageManager DataSubscriber.methods (DataSubscriber.NewDataSubscriber signature true) []

/-- `conn.Read` returns a datagram, as much of it as fits. -/
def receive (mm : MessageManager DataSubscriber) (queue : List Bytes) :
    Option (MessageManager DataSubscriber × List Bytes) :=
  if Reads mm then
    match queue with
    | [] => none
    | datagram :: queue =>
        some
          ({ mm with incoming := [datagram.take readBufferSize] }.dataFlow
            DataSubscriber.methods writeOk, queue)
  else none

def step (mm : MessageManager DataSubscriber) (queue : List Bytes) :
    Action → Option (MessageManager DataSubscriber × List Bytes)
  | .receive => receive writeOk mm queue
  | .flow =>
      if Reads mm then none else some (mm.dataFlow DataSubscriber.methods writeOk, queue)

def called (mm : MessageManager DataSubscriber) : List (Bool × List Any) := mm.parser.replies

variable {writeOk signature} {mm next : MessageManager DataSubscriber}
  {content : List (List Value)}

theorem accept_section {ds after : DataSubscriber} {message : Bytes} {written : List Bytes}
    (hparse : ds.ParseMessage message = (true, after)) :
    (sections DataSubscriber.methods writeOk).accept (ds, written) message =
      some (after, written) := by
  have hmethod : DataSubscriber.methods.ParseMessage ds message = (true, after) := hparse
  simp only [sections, hmethod]
  rfl

structure Called (signature : DataSignature) (done : List (List Value)) (ds : DataSubscriber) :
    Prop where
  signature : ds.signature = signature
  callback : ds.replyCallback = true
  replies : ds.replies = done.map fun values => (true, values.map .value)

theorem parse_header (ds : DataSubscriber) {size : Nat} (hsize : size < 16777216) :
    ds.expectHeader.ParseMessage (Frame.header 1 size) = (true, ds.expectBody 1 size) :=
  have hone : 1 < 256 := by norm_num
  MessageParser.reads_eq_some.mp
    (DataSubscriber.reader.header ds 1 size hone hsize fun heager => by cases heager.1).1

def passOn (ds : DataSubscriber) (callbackValues : AnySlice) : DataSubscriber :=
  { ds with
    replies := ds.replies ++ [(ds.publisherSuccess, callbackValues.values)]
    callbackValues := { callbackValues with len := 0 }
    sectionLen := 4
    sectionID := 0 }

theorem parse_body {ds : DataSubscriber} {message rest : Bytes} (hsection : ds.sectionID = 1)
    (hcallback : ds.replyCallback = true)
    (hread : (FromBinary ds.signature message ds.callbackValues).1 = some rest) :
    ds.ParseMessage message =
      (true, passOn ds (FromBinary ds.signature message ds.callbackValues).2) := by
  have hheader : ¬ ds.sectionID = 0 := by simp [hsection]
  rw [DataSubscriber.ParseMessage, if_neg hheader, if_pos hsection, DataSubscriber.parseBody]
  simp only [hread, hcallback, Option.isSome_some, if_true, passOn]

theorem Called.body {done : List (List Value)} {ds : DataSubscriber} {values : List Value}
    (hcalled : Called signature done ds) (hvalid : (bodyFormat signature).Valid values) :
    ∃ after, (ds.expectBody 1 ((bodyFormat signature).emit values).length).ParseMessage
        ((bodyFormat signature).emit values) = (true, after) ∧
      after.expectHeader = after ∧ Called signature (done ++ [values]) after := by
  obtain ⟨rfl, hcallback, hreplies⟩ := hcalled
  obtain ⟨hread, hvalues⟩ := FromBinary_emit hvalid ds.callbackValues
  have hparse := @parse_body
    (ds.expectBody 1 ((bodyFormat ds.signature).emit values).length) _ _ rfl hcallback hread
  refine ⟨_, hparse, rfl, rfl, hcallback, ?_⟩
  change ds.replies ++ [(true, (FromBinary ds.signature _ ds.callbackValues).2.values)] = _
  rw [hvalues, hreplies, List.map_append]
  rfl

/-- The subscriber waits for a datagram, or is in front of a header or a body. -/
inductive Stands (signature : DataSignature) (content : List (List Value)) :
    MessageManager DataSubscriber → Prop
  | waits {ds : DataSubscriber} {parsed : List Bytes} :
      Called signature content ds →
      Stands signature content
        (reading DataSubscriber.methods (ds.expectHeader, []) parsed [] [])
  | header {ds : DataSubscriber} {parsed : List Bytes} {done rest : List (List Value)} :
      Called signature done ds → content = done ++ rest →
      Stands signature content
        (awaiting DataSubscriber.methods (ds.expectHeader, []) parsed []
          (datagram signature rest) [])
  | body {ds : DataSubscriber} {parsed : List Bytes} {done rest : List (List Value)}
      {values : List Value} :
      Called signature done ds → content = done ++ values :: rest →
      Stands signature content
        (awaiting DataSubscriber.methods
          (ds.expectBody 1 ((bodyFormat signature).emit values).length, []) parsed []
          ((bodyFormat signature).emit values ++ datagram signature rest) [])

structure Holds (signature : DataSignature) (mm : MessageManager DataSubscriber)
    (content : List (List Value)) : Prop where
  valid : ∀ values ∈ content, (bodyFormat signature).Valid values ∧
    ((bodyFormat signature).emit values).length < 16777216
  stands : Stands signature content mm

theorem holds_start : Holds signature (start signature) [] where
  valid _ hmem := by cases hmem
  stands := by
    have hstart : start signature = reading DataSubscriber.methods
        ((DataSubscriber.NewDataSubscriber signature true).expectHeader, []) [] [] [] := by
      simp [start, NewMessageManager, reading, awaiting, DataSubscriber.methods,
        DataSubscriber.NewDataSubscriber, DataSubscriber.expectHeader]
    rw [hstart]
    exact .waits ⟨rfl, rfl, rfl⟩

theorem len_header (ds : DataSubscriber) :
    DataSubscriber.methods.GetMessageLen ds.expectHeader = 4 := rfl

theorem len_body (ds : DataSubscriber) {size : Nat} (hsize : size < 16777216) :
    DataSubscriber.methods.GetMessageLen (ds.expectBody 1 size) = size := toNat_size hsize

theorem dataFlow_section {state following : DataSubscriber × List Bytes} {parsed : List Bytes}
    {piece rest : Bytes} (hpiece : piece ≠ [])
    (hlen : DataSubscriber.methods.GetMessageLen state.1 = piece.length)
    (hnext : (sections DataSubscriber.methods writeOk).accept state piece = some following) :
    dataFlow DataSubscriber.methods writeOk
        (awaiting DataSubscriber.methods state parsed [] (piece ++ rest) []) =
      awaiting DataSubscriber.methods following (parsed ++ [piece]) [] rest [] := by
  have htake :
      [] ++ (piece ++ rest).take (DataSubscriber.methods.GetMessageLen state.1) = piece := by
    rw [hlen, List.take_left, List.nil_append]
  have hstep := @dataFlow_next _ DataSubscriber.methods writeOk state parsed [] [] (piece ++ rest)
    following (by simp [hpiece]) (by rw [htake, hlen]) (by rw [htake]; exact hnext)
  rw [hstep, htake, hlen, List.drop_left]

theorem Stands.receive {group : List (List Value)} (hgroup : Sendable signature group)
    (hstands : Stands signature content mm) (hreads : Reads mm) :
    Stands signature (content ++ group)
      ({ mm with incoming := [datagram signature group] }.dataFlow
        DataSubscriber.methods writeOk) := by
  cases hstands with
  | header | body =>
      cases hreads.1
  | @waits ds parsed hcalled =>
      have hread := @dataFlow_read _ DataSubscriber.methods writeOk (ds.expectHeader, []) parsed
        [] [] (datagram signature group) (by rw [len_header]; norm_num) hgroup.full
      have hincoming : { reading DataSubscriber.methods (ds.expectHeader, []) parsed [] [] with
          incoming := [datagram signature group] } =
          reading DataSubscriber.methods (ds.expectHeader, []) parsed []
            [datagram signature group] := rfl
      rw [hincoming, hread]
      exact .header hcalled rfl

theorem Stands.flow (hsignature : signature ≠ [])
    (hvalid : ∀ values ∈ content, (bodyFormat signature).Valid values ∧
      ((bodyFormat signature).emit values).length < 16777216)
    (hstands : Stands signature content mm) (hgoes : ¬ Reads mm) :
    Stands signature content (mm.dataFlow DataSubscriber.methods writeOk) := by
  cases hstands with
  | @waits ds parsed hcalled =>
      exact absurd ⟨rfl, rfl, by simp [reading, awaiting, len_header], rfl⟩ hgoes
  | @header ds parsed done rest hcalled hcontent =>
      cases rest with
      | nil =>
          rw [List.append_nil] at hcontent
          subst hcontent
          rw [datagram, List.flatMap_nil, dataFlow_awaiting_nil]
          exact .waits hcalled
      | cons values rest =>
          have hshort := (hvalid values (by rw [hcontent]; simp)).2
          have hbytes : datagram signature (values :: rest) =
              Frame.header 1 ((bodyFormat signature).emit values).length ++
                ((bodyFormat signature).emit values ++ datagram signature rest) := by
            rw [← List.append_assoc]
            rfl
          have hheader : Frame.header 1 ((bodyFormat signature).emit values).length ≠ [] := by
            rw [← List.length_pos_iff, Frame.length_header]
            norm_num
          rw [hbytes, dataFlow_section hheader (by rw [len_header, Frame.length_header])
            (accept_section (parse_header ds hshort))]
          exact .body hcalled hcontent
  | @body ds parsed done rest values hcalled hcontent =>
      obtain ⟨hfits, hshort⟩ := hvalid values (by rw [hcontent]; simp)
      obtain ⟨after, hparse, hheader, hnext⟩ := hcalled.body hfits
      rw [dataFlow_section (body_ne_nil hsignature hfits) (len_body ds hshort)
        (accept_section hparse), ← hheader]
      refine .header hnext ?_
      rw [hcontent, List.append_assoc]
      rfl

theorem relay_takes (hsignature : signature ≠ []) :
    Relay.Takes (step writeOk) (datagram signature) (Sendable signature) (Holds signature) where
  keeps := by
    intro mm content groups action next queue hholds hgroups hstep
    cases action with
    | receive =>
        have hreceive : receive writeOk mm (groups.map (datagram signature)) = some (next, queue) :=
          hstep
        unfold receive at hreceive
        split at hreceive
        case isFalse => cases hreceive
        rename_i hreads
        cases groups with
        | nil => cases hreceive
        | cons group rest =>
            have hgroup := hgroups group List.mem_cons_self
            have hfits : (datagram signature group).length ≤ readBufferSize := by
              refine hgroup.short.trans ?_
              rw [largestDatagram, readBufferSize]
              norm_num
            simp only [List.map_cons, List.take_of_length_le hfits, Option.some.injEq,
              Prod.mk.injEq] at hreceive
            obtain ⟨rfl, rfl⟩ := hreceive
            refine Or.inr ⟨group, rest, rfl, rfl, ?_, hholds.stands.receive hgroup hreads⟩
            exact List.forall_mem_append.mpr ⟨hholds.valid, fun values hmem =>
              ⟨hgroup.valid values hmem, hgroup.body_short hmem⟩⟩
    | flow =>
        unfold step at hstep
        simp only at hstep
        split at hstep
        · cases hstep
        · rename_i hgoes
          obtain ⟨rfl, rfl⟩ := Prod.mk.inj (Option.some.inj hstep)
          exact Or.inl ⟨rfl, hholds.valid,
            hholds.stands.flow hsignature hholds.valid hgoes⟩

theorem Holds.called (hholds : Holds signature mm content) :
    called mm <+: content.map (fun values => (true, values.map .value)) ∧
      (Reads mm → called mm = content.map fun values => (true, values.map .value)) := by
  have hstands := hholds.stands
  cases hstands with
  | waits hcalled =>
      rw [← hcalled.replies]
      exact ⟨List.prefix_rfl, fun _ => rfl⟩
  | header hcalled hcontent | body hcalled hcontent =>
      refine ⟨?_, fun hreads => by cases hreads.1⟩
      rw [hcontent, List.map_append, ← hcalled.replies]
      exact List.prefix_append _ _

end UdpSubscriber

end Rpcmple.Go
