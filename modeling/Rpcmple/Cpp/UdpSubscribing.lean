import Rpcmple.Cpp.Datagrams
import Rpcmple.Cpp.PublishSubscribe
import Rpcmple.Data.Relay
import Rpcmple.Wire.Datagram

namespace Rpcmple.Cpp

open Data MessageManager
open RpcServer (takesAll)

structure UdpSubscriber where
  socket : UdpSocket
  subscriber : MessageManager DataSubscriber

namespace UdpSubscriber

inductive Action where
  | receive
  | flow

variable (host : Platform) (mSignature : DataSignature)

def start : UdpSubscriber where
  socket := .new true
  subscriber := init (DataSubscriber.methods host) (DataSubscriber.new mSignature true) []

/-- `mConn->read`, when the flow is there and a datagram if the socket asks for one. -/
def receive (state : UdpSubscriber) (queue : List Bytes) :
    Option (UdpSubscriber × List Bytes) :=
  if state.subscriber.Starved ∧ (state.socket.refills = true → queue ≠ []) then
    let left := if state.socket.refills then queue.tail else queue
    match state.socket.read (List.replicate readBufferSize 0) (.of (queue.headD [])) with
    | .returns (socket, some (bytes, bytesRead)) =>
        some (⟨socket, state.subscriber.fed [bytes.take bytesRead]⟩, left)
    | .returns (socket, none) =>
        some (⟨socket, state.subscriber.dataFlow (DataSubscriber.methods host) takesAll⟩, left)
    | .rejects | .throws | .undefined => none
  else none

def flow (state : UdpSubscriber) : Option UdpSubscriber :=
  if state.subscriber.Starved then none
  else
    some
      { state with
        subscriber := state.subscriber.dataFlow (DataSubscriber.methods host) takesAll }

def step (state : UdpSubscriber) (queue : List Bytes) :
    Action → Option (UdpSubscriber × List Bytes)
  | .receive => state.receive host queue
  | .flow => (state.flow host).map fun next => (next, queue)

def called (state : UdpSubscriber) : List VariantVector := state.subscriber.parser.calls

def Idle (state : UdpSubscriber) : Prop :=
  Rests (DataSubscriber.methods host) state.subscriber ∨ state.subscriber.Starved

variable {host mSignature} {state next : UdpSubscriber} {content : List (List Value)}

structure Holds (host : Platform) (mSignature : DataSignature) (state : UdpSubscriber)
    (content : List (List Value)) : Prop where
  valid : ∀ values ∈ content, (bodyFormat mSignature).Valid values ∧
    ((bodyFormat mSignature).emit values).length < 16777216
  socket : state.socket.Drained
  streams : Streams (DataSubscriber.methods host) takesAll
    (DataSubscriber.Subscribed mSignature true) (DataSubscriber.new mSignature true)
    (datagram mSignature content) state.subscriber
  recorded : Recorded DataSubscriber.invocations (DataSubscriber.invocation host)
    state.subscriber

theorem holds_start : (start host mSignature).Holds host mSignature [] where
  valid _ hmem := by cases hmem
  socket := ⟨UdpSocket.new_valid true, rfl, rfl⟩
  streams := streams_init ⟨RpcServer.sectionFramed_header, rfl, rfl⟩
  recorded := rfl

theorem Holds.receive {group : List (List Value)} {queue left : List Bytes}
    (hholds : state.Holds host mSignature content) (hgroup : Sendable mSignature group)
    (hreceive : state.receive host (datagram mSignature group :: queue) = some (next, left)) :
    left = queue ∧ next.Holds host mSignature (content ++ group) := by
  unfold UdpSubscriber.receive at hreceive
  split at hreceive
  case isFalse => cases hreceive
  obtain ⟨socket, filled, hread, hbytes, hdrained⟩ := @UdpSocket.Drained.read _ hholds.socket _
    (List.replicate readBufferSize 0) hgroup.full hgroup.short (by
      rw [List.length_replicate, internalBufferSize, readBufferSize]
      norm_num)
  simp only [hholds.socket.refills, if_true, List.headD_cons, List.tail_cons, hread, hbytes,
    Option.some.injEq, Prod.mk.injEq] at hreceive
  obtain ⟨rfl, rfl⟩ := hreceive
  have hchunk : (datagram mSignature group).length ≤ readBufferSize := by
    refine hgroup.short.trans ?_
    rw [largestDatagram, readBufferSize]
    norm_num
  refine ⟨rfl, List.forall_mem_append.mpr ⟨hholds.valid, ?_⟩, hdrained, ?_, hholds.recorded⟩
  · exact fun values hmem => ⟨hgroup.valid values hmem, hgroup.body_short hmem⟩
  · rw [datagram_append]
    exact hholds.streams.arrives hchunk

theorem Holds.flow (hholds : state.Holds host mSignature content)
    (hflow : state.flow host = some next) : next.Holds host mSignature content := by
  unfold UdpSubscriber.flow at hflow
  split at hflow
  · cases hflow
  · rename_i hfed
    cases hflow
    exact ⟨hholds.valid, hholds.socket,
      hholds.streams.flows (DataSubscriber.subscribed_sectional host mSignature true) hfed,
      (DataSubscriber.records host).dataFlow hholds.recorded⟩

theorem relay_takes : Relay.Takes (step host) (datagram mSignature) (Sendable mSignature)
    (Holds host mSignature) where
  keeps := by
    intro state content groups action next queue hholds hgroups hstep
    cases action with
    | receive =>
        cases groups with
        | nil =>
            have hreceive : state.receive host [] = some (next, queue) := hstep
            rw [UdpSubscriber.receive,
              if_neg fun hready => hready.2 hholds.socket.refills rfl] at hreceive
            cases hreceive
        | cons group rest =>
            obtain ⟨hleft, hnext⟩ := hholds.receive (hgroups group List.mem_cons_self) hstep
            exact Or.inr ⟨group, rest, rfl, hleft, hnext⟩
    | flow =>
        obtain ⟨after, hflow, heq⟩ := Option.map_eq_some_iff.mp hstep
        cases heq
        exact Or.inl ⟨rfl, hholds.flow hflow⟩

theorem Holds.called (hnarrow : Narrow mSignature)
    (hholds : state.Holds host mSignature content) :
    state.called <+: content.map (fun values => values.map .value) ∧
      (state.Idle host → state.called = content.map fun values => values.map .value) := by
  let entries : List (VariantVector × Bytes) := content.map fun values =>
    (values.map .value, (bodyFormat mSignature).emit values)
  have hcarries : ∀ entry ∈ entries, PublishSubscribe.Carries mSignature entry := by
    intro entry hmem
    obtain ⟨values, hvalues, rfl⟩ := List.mem_map.mp hmem
    exact ⟨values, (hholds.valid values hvalues).1, rfl, (hholds.valid values hvalues).2⟩
  obtain ⟨pieces, replies, hhandles, hcalls⟩ :=
    PublishSubscribe.handles_carried host host hnarrow hcarries
  have hbytes : (entries.map Prod.snd).flatMap (DataPublisher.frame host) =
      datagram mSignature content := by
    rw [List.map_map, List.flatMap_map]
    exact List.flatMap_congr fun values _ => DataPublisher.frame_eq _
  have hvalues : (pieces.filterMap fun piece => piece.1.invocation host piece.2).map Prod.snd =
      content.map fun values => values.map .value := by
    rw [hcalls, List.map_map, List.map_map]
    rfl
  have hcalled : state.called = (state.subscriber.parsed.filterMap fun piece =>
      piece.1.invocation host piece.2).map Prod.snd :=
    congrArg (List.map Prod.snd) hholds.recorded
  rw [hbytes] at hhandles
  rw [hcalled, ← hvalues]
  constructor
  · have hparsed := @Streams.parsed_front _ _ _ _ _ _ _ hholds.streams [] _ _
      (by rw [List.append_nil]; exact hhandles)
    exact (hparsed.filterMap _).map Prod.snd
  · intro hidle
    rw [← (hholds.streams.done hidle hhandles).1]

end UdpSubscriber

end Rpcmple.Cpp
