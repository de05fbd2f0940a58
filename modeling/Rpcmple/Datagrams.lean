import Rpcmple.Cpp.Grouping
import Rpcmple.Cpp.UdpPublishing
import Rpcmple.Cpp.UdpSubscribing
import Rpcmple.Go.UdpPublishing
import Rpcmple.Go.UdpSubscribing

namespace Rpcmple

open Data System

namespace Datagrams

/-- Whether `conn.Write` returns no error, behind these datagrams. -/
def goWriteOk (network : DatagramNetwork) (sent : List Bytes) (message : Bytes) : Bool :=
  (network.sendto sent message).isSome

theorem goWriteOk_short (network : DatagramNetwork) (sent : List Bytes) (message : Bytes)
    (hok : goWriteOk network sent message = true) : message.length ≤ largestDatagram := by
  obtain ⟨count, hcount⟩ := Option.isSome_iff_exists.mp hok
  exact (network.whole _ _ _ hcount).2

section Systems

variable (sender receiver : Cpp.Platform) (signature : DataSignature)
  (network : DatagramNetwork) (mSocket known : Bool)

def cppPublish : Cpp.Publishing → Cpp.Publishing.Action → Option Cpp.Publishing :=
  Cpp.Publishing.step sender signature (Cpp.UdpSocket.writeOk network mSocket known)

def goPublish : Go.DataPublisher → Go.DataPublisher.Action → Option Go.DataPublisher :=
  Go.DataPublisher.step signature (goWriteOk network)

def cppSent (publishing : Cpp.Publishing) : List Bytes := publishing.mm.written

def goSent (dp : Go.DataPublisher) : List Bytes := dp.written

def goSubscribe : Go.MessageManager Go.DataSubscriber → List Bytes → Go.UdpSubscriber.Action →
    Option (Go.MessageManager Go.DataSubscriber × List Bytes) :=
  Go.UdpSubscriber.step fun _ _ => true

def cppCalled (values : List Value) : Cpp.VariantVector := values.map .value

def goCalled (values : List Value) : Bool × List Go.Any := (true, values.map .value)

end Systems

variable {sender receiver : Cpp.Platform} {signature : DataSignature}
  {network : DatagramNetwork} {mSocket known groupMessages : Bool}

theorem cppPublish_groups (hnarrow : Narrow signature) :
    Relay.Groups (cppPublish sender signature network mSocket known) cppSent
      (Cpp.Publishing.Publishes signature) (datagram signature) (Sendable signature)
      (Cpp.Publishing.SendsGroups sender signature) :=
  Cpp.Publishing.relay_groups hnarrow

/-- Whatever becomes of the datagrams, the callback is called with the groups of messages
that arrive, each whole, and with nothing else. -/
theorem cpp_to_cpp (hnarrow : Narrow signature) (groupMessages : Bool)
    {state : Relay Cpp.Publishing Cpp.UdpSubscriber}
    (hreaches : Reaches (Relay.step (cppPublish sender signature network mSocket known) cppSent
        (Cpp.UdpSubscriber.step receiver))
      (Relay.Allowed (Cpp.Publishing.Publishes signature))
      (Relay.start (Cpp.Publishing.start sender groupMessages)
        (Cpp.UdpSubscriber.start receiver signature)) state) :
    ∃ groups : List (List (List Value)),
      groups.flatten.map cppCalled <+:
          state.sender.published.map Prod.fst ∧
        Relay.Delivers cppSent (datagram signature) Cpp.UdpSubscriber.called cppCalled
          (Cpp.UdpSubscriber.Idle receiver) state groups := by
  obtain ⟨groups, hsends, hdelivered⟩ := Relay.delivered (cppPublish_groups hnarrow)
    Cpp.UdpSubscriber.relay_takes (Cpp.Publishing.sendsGroups_start groupMessages)
    Cpp.UdpSubscriber.holds_start (fun _ _ hholds => hholds.called hnarrow) hreaches
  exact ⟨groups, hsends.published, hdelivered⟩

theorem cpp_to_go (hnarrow : Narrow signature) (hsignature : signature ≠ [])
    (groupMessages : Bool) {state : Relay Cpp.Publishing (Go.MessageManager Go.DataSubscriber)}
    (hreaches : Reaches (Relay.step (cppPublish sender signature network mSocket known) cppSent
        goSubscribe)
      (Relay.Allowed (Cpp.Publishing.Publishes signature))
      (Relay.start (Cpp.Publishing.start sender groupMessages) (Go.UdpSubscriber.start signature))
      state) :
    ∃ groups : List (List (List Value)),
      groups.flatten.map cppCalled <+:
          state.sender.published.map Prod.fst ∧
        Relay.Delivers cppSent (datagram signature) Go.UdpSubscriber.called goCalled
          Go.UdpSubscriber.Reads state groups := by
  obtain ⟨groups, hsends, hdelivered⟩ := Relay.delivered (cppPublish_groups hnarrow)
    (Go.UdpSubscriber.relay_takes hsignature) (Cpp.Publishing.sendsGroups_start groupMessages)
    Go.UdpSubscriber.holds_start (fun _ _ hholds => hholds.called) hreaches
  exact ⟨groups, hsends.published, hdelivered⟩

theorem go_to_cpp (hnarrow : Narrow signature)
    {state : Relay Go.DataPublisher Cpp.UdpSubscriber}
    (hreaches : Reaches (Relay.step (goPublish signature network) goSent
        (Cpp.UdpSubscriber.step receiver))
      (Relay.Allowed Go.DataPublisher.Publishes)
      (Relay.start Go.DataPublisher.NewDataPublisher (Cpp.UdpSubscriber.start receiver signature))
      state) :
    ∃ groups : List (List (List Value)),
      List.Forall₂ state.sender.Published (state.sender.sent.take groups.length) groups ∧
        Relay.Delivers goSent (datagram signature) Cpp.UdpSubscriber.called cppCalled
          (Cpp.UdpSubscriber.Idle receiver) state groups := by
  obtain ⟨groups, hsends, hdelivered⟩ := Relay.delivered
    (Go.DataPublisher.relay_groups (goWriteOk_short network)) Cpp.UdpSubscriber.relay_takes
    Go.DataPublisher.datagrams_start Cpp.UdpSubscriber.holds_start
    (fun _ _ hholds => hholds.called hnarrow) hreaches
  exact ⟨groups, hsends.published, hdelivered⟩

theorem go_to_go (hsignature : signature ≠ [])
    {state : Relay Go.DataPublisher (Go.MessageManager Go.DataSubscriber)}
    (hreaches : Reaches (Relay.step (goPublish signature network) goSent goSubscribe)
      (Relay.Allowed Go.DataPublisher.Publishes)
      (Relay.start Go.DataPublisher.NewDataPublisher (Go.UdpSubscriber.start signature)) state) :
    ∃ groups : List (List (List Value)),
      List.Forall₂ state.sender.Published (state.sender.sent.take groups.length) groups ∧
        Relay.Delivers goSent (datagram signature) Go.UdpSubscriber.called goCalled
          Go.UdpSubscriber.Reads state groups := by
  obtain ⟨groups, hsends, hdelivered⟩ := Relay.delivered
    (Go.DataPublisher.relay_groups (goWriteOk_short network))
    (Go.UdpSubscriber.relay_takes hsignature) Go.DataPublisher.datagrams_start
    Go.UdpSubscriber.holds_start (fun _ _ hholds => hholds.called) hreaches
  exact ⟨groups, hsends.published, hdelivered⟩

open Cpp (plainPlatform)

def openNetwork : DatagramNetwork where
  sendto _ datagram :=
    if datagram.length ≤ largestDatagram then some datagram.length else none
  whole _ _ _ hcount := by
    split at hcount
    · rename_i hfits
      exact ⟨(Option.some.inj hcount).symm, hfits⟩
    · cases hcount

private def five : List Value := [.uint 5]

private theorem narrow_five : Narrow [DataType.u.char] := by
  intro char hmem dataType hchar
  obtain rfl := List.mem_singleton.mp hmem
  cases (DataType.ofChar?_char .u).symm.trans hchar
  rfl

private theorem plain_five : Cpp.PublishSubscribe.Plain [DataType.u.char] (five.map .value) :=
  ⟨five, rfl, List.forall_mem_singleton.mpr trivial, fun _ => by decide⟩

private theorem cppPublish_five :
    cppPublish plainPlatform [DataType.u.char] openNetwork true true
        (Cpp.Publishing.start plainPlatform false) (.publish (five.map .value)) =
      some ((Cpp.Publishing.start plainPlatform false).pushed (five.map .value)
        [5, 0, 0, 0, 0, 0, 0, 0]) := by
  have hencoded := @Cpp.DataPublisher.encoded_of_typed plainPlatform [DataType.u.char] five
    narrow_five (.cons ⟨.u, DataType.ofChar?_char .u, Or.inr rfl⟩ .nil)
    (List.forall_mem_singleton.mpr trivial) (by decide)
  have hbytes : (bodyFormat [DataType.u.char]).emit five = [5, 0, 0, 0, 0, 0, 0, 0] := by decide
  rw [hbytes] at hencoded
  rw [cppPublish, Cpp.Publishing.step]
  exact Cpp.Publishing.publish_of_encoded hencoded

private def fiveBytes : Bytes := [8, 0, 0, 1, 5, 0, 0, 0, 0, 0, 0, 0]

private theorem cppWrites_five : ∃ taken final,
    cppPublish plainPlatform [DataType.u.char] openNetwork true true
        ((Cpp.Publishing.start plainPlatform false).pushed (five.map .value)
          [5, 0, 0, 0, 0, 0, 0, 0]) .take = some taken ∧
      cppPublish plainPlatform [DataType.u.char] openNetwork true true taken .write =
        some final ∧
      cppSent final = [fiveBytes] :=
  ⟨_, _, rfl, rfl, by decide⟩

private theorem arrives_twice {σ ρ α β : Type} {sends : σ → α → Option σ} {sent : σ → List Bytes}
    {receives : ρ → List Bytes → β → Option (ρ × List Bytes)} {allowed : σ → α → Prop}
    {initial final : σ} {receiver : ρ} {datagram : Bytes} (hsent : sent final = [datagram])
    (hreaches : Reaches (Relay.step sends sent receives) (Relay.Allowed allowed)
      (Relay.start initial receiver) ⟨final, [], [], receiver⟩) :
    Reaches (Relay.step sends sent receives) (Relay.Allowed allowed)
      (Relay.start initial receiver) ⟨final, [0, 0], [datagram, datagram], receiver⟩ := by
  have harrives : ∀ arrived queue, Relay.step sends sent receives
      ⟨final, arrived, queue, receiver⟩ (.arrive 0) =
        some ⟨final, arrived ++ [0], queue ++ [datagram], receiver⟩ := by
    intro arrived queue
    rw [Relay.step, Relay.arrive, hsent]
    rfl
  exact (hreaches.next (.arrive 0) trivial (harrives [] [])).next (.arrive 0) trivial
    (harrives [0] [datagram])

private theorem cppSends_five {ρ β : Type}
    (receives : ρ → List Bytes → β → Option (ρ × List Bytes)) (receiver : ρ) :
    ∃ final, Reaches (Relay.step (cppPublish plainPlatform [DataType.u.char] openNetwork true true)
        cppSent receives) (Relay.Allowed (Cpp.Publishing.Publishes [DataType.u.char]))
      (Relay.start (Cpp.Publishing.start plainPlatform false) receiver)
      ⟨final, [0, 0], [fiveBytes, fiveBytes], receiver⟩ := by
  obtain ⟨taken, final, htake, hwrite, hsent⟩ := cppWrites_five
  refine ⟨final, arrives_twice hsent ?_⟩
  have hstart := @Reaches.start _ _ (Relay.step (cppPublish plainPlatform [DataType.u.char]
    openNetwork true true) cppSent receives) (Relay.Allowed (Cpp.Publishing.Publishes
    [DataType.u.char])) (Relay.start (Cpp.Publishing.start plainPlatform false) receiver)
  exact ((hstart.next (.sender (.publish (five.map .value))) plain_five
    (by rw [Relay.step, Relay.start, cppPublish_five]; rfl)).next (.sender .take) trivial
    (by rw [Relay.step, htake]; rfl)).next (.sender .write) trivial
    (by rw [Relay.step, hwrite]; rfl)

private def goActions : List Go.DataPublisher.Action :=
  Go.DataPublisher.publishNumber 0 none none 5 ++ List.replicate 7 .flow

private theorem publishes_goActions (action : Go.DataPublisher.Action)
    (hmem : action ∈ goActions) (dp : Go.DataPublisher) : dp.Publishes action := by
  have hfresh : goActions.all Go.DataPublisher.Action.fresh = true := by decide
  refine ⟨Go.DataPublisher.getsReset_of_fresh (List.all_eq_true.mp hfresh action hmem) dp, ?_⟩
  intro data hpublish
  subst hpublish
  have hdata : data = [.value (.uint 5)] := by
    simpa [goActions, Go.DataPublisher.publishNumber] using hmem
  subst hdata
  exact ⟨five, .cons rfl .nil, List.forall_mem_singleton.mpr trivial⟩

private theorem goSends_five {ρ β : Type}
    (receives : ρ → List Bytes → β → Option (ρ × List Bytes)) (receiver : ρ) :
    ∃ final, Reaches (Relay.step (goPublish [DataType.u.char] openNetwork) goSent receives)
      (Relay.Allowed Go.DataPublisher.Publishes)
      (Relay.start Go.DataPublisher.NewDataPublisher receiver)
      ⟨final, [0, 0], [fiveBytes, fiveBytes], receiver⟩ := by
  obtain ⟨final, hrun, hsent⟩ : ∃ final, run (goPublish [DataType.u.char] openNetwork)
      Go.DataPublisher.NewDataPublisher goActions = some final ∧ goSent final = [fiveBytes] :=
    ⟨_, rfl, rfl⟩
  exact ⟨final, arrives_twice hsent (Relay.reaches_sender publishes_goActions hrun)⟩

private def goReads : List Go.UdpSubscriber.Action :=
  [.receive, .flow, .flow, .flow, .receive, .flow, .flow, .flow]

theorem cpp_to_cpp_twice :
    ∃ state : Relay Cpp.Publishing Cpp.UdpSubscriber, state.arrived = [0, 0] ∧
      ∃ groups : List (List (List Value)),
        groups.flatten.map cppCalled <+: state.sender.published.map Prod.fst ∧
          Relay.Delivers cppSent (datagram [DataType.u.char]) Cpp.UdpSubscriber.called cppCalled
            (Cpp.UdpSubscriber.Idle plainPlatform) state groups := by
  obtain ⟨final, hreaches⟩ := cppSends_five (Cpp.UdpSubscriber.step plainPlatform)
    (Cpp.UdpSubscriber.start plainPlatform [DataType.u.char])
  exact ⟨_, rfl, cpp_to_cpp narrow_five false hreaches⟩

theorem go_to_cpp_twice :
    ∃ state : Relay Go.DataPublisher Cpp.UdpSubscriber, state.arrived = [0, 0] ∧
      ∃ groups : List (List (List Value)),
        List.Forall₂ state.sender.Published (state.sender.sent.take groups.length) groups ∧
          Relay.Delivers goSent (datagram [DataType.u.char]) Cpp.UdpSubscriber.called cppCalled
            (Cpp.UdpSubscriber.Idle plainPlatform) state groups := by
  obtain ⟨final, hreaches⟩ := goSends_five (Cpp.UdpSubscriber.step plainPlatform)
    (Cpp.UdpSubscriber.start plainPlatform [DataType.u.char])
  exact ⟨_, rfl, go_to_cpp narrow_five hreaches⟩

theorem cpp_to_go_twice :
    ∃ state : Relay Cpp.Publishing (Go.MessageManager Go.DataSubscriber),
      Go.UdpSubscriber.called state.receiver = [goCalled five, goCalled five] ∧
      ∃ groups : List (List (List Value)),
        groups.flatten.map cppCalled <+: state.sender.published.map Prod.fst ∧
          Relay.Delivers cppSent (datagram [DataType.u.char]) Go.UdpSubscriber.called goCalled
            Go.UdpSubscriber.Reads state groups := by
  obtain ⟨final, hreaches⟩ := cppSends_five goSubscribe
    (Go.UdpSubscriber.start [DataType.u.char])
  obtain ⟨mm, hread, hcalled⟩ : ∃ mm, Relay.receive goSubscribe
      (Go.UdpSubscriber.start [DataType.u.char]) [fiveBytes, fiveBytes] goReads = some (mm, []) ∧
      Go.UdpSubscriber.called mm = [goCalled five, goCalled five] := ⟨_, rfl, rfl⟩
  have hdone := hreaches.trans (Relay.reaches_receiver hread)
  exact ⟨_, hcalled, cpp_to_go narrow_five (List.cons_ne_nil _ _) false hdone⟩

theorem go_to_go_twice :
    ∃ state : Relay Go.DataPublisher (Go.MessageManager Go.DataSubscriber),
      Go.UdpSubscriber.called state.receiver = [goCalled five, goCalled five] ∧
      ∃ groups : List (List (List Value)),
        List.Forall₂ state.sender.Published (state.sender.sent.take groups.length) groups ∧
          Relay.Delivers goSent (datagram [DataType.u.char]) Go.UdpSubscriber.called goCalled
            Go.UdpSubscriber.Reads state groups := by
  obtain ⟨final, hreaches⟩ := goSends_five goSubscribe (Go.UdpSubscriber.start [DataType.u.char])
  obtain ⟨mm, hread, hcalled⟩ : ∃ mm, Relay.receive goSubscribe
      (Go.UdpSubscriber.start [DataType.u.char]) [fiveBytes, fiveBytes] goReads = some (mm, []) ∧
      Go.UdpSubscriber.called mm = [goCalled five, goCalled five] := ⟨_, rfl, rfl⟩
  have hdone := hreaches.trans (Relay.reaches_receiver hread)
  exact ⟨_, hcalled, go_to_go (List.cons_ne_nil _ _) hdone⟩

end Datagrams

end Rpcmple
