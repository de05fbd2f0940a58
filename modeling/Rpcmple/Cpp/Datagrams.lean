import Rpcmple.Cpp.UdpSocket
import Rpcmple.Data.Loop
import Rpcmple.Wire.Datagram

namespace Rpcmple.Cpp

open Data

structure SendtoLoop where
  totalBytesSent : Nat
  bytesLeft : Nat
  sent : List Bytes

/-- One round of the loop around `sendto`; a length that is negative as an `int` is an
error. -/
def sendtoRound (network : DatagramNetwork) (bytes : Bytes) (sending : SendtoLoop) :
    SendtoLoop ⊕ Exec (Bool × List Bytes) :=
  if sending.totalBytesSent < bytes.length then
    let len := Int.bmod sending.bytesLeft (2 ^ 32)
    let datagram := (bytes.drop sending.totalBytesSent).take len.toNat
    match if len < 0 then none else network.sendto sending.sent datagram with
    | none => .inr (.returns (false, sending.sent))
    | some bytesSent =>
        if 2 ^ 31 ≤ sending.totalBytesSent + bytesSent then .inr .undefined
        else .inl
          { totalBytesSent := sending.totalBytesSent + bytesSent
            bytesLeft := (sending.bytesLeft + 2 ^ 32 - bytesSent) % 2 ^ 32
            sent := sending.sent ++ [datagram] }
  else .inr (.returns (true, sending.sent))

namespace UdpSocket

/-- The return value, and all the datagrams then sent.  `known` says that `clientAddr` has an
address; a round sends a byte at least, unless the loop goes on for ever. -/
def write (network : DatagramNetwork) (mSocket known : Bool) (sent : List Bytes)
    (bytes : Bytes) : Exec (Bool × List Bytes) :=
  if mSocket && known then
    (Loop.run (sendtoRound network bytes) (bytes.length + 1)
      ⟨0, bytes.length % 2 ^ 32, sent⟩).getD .undefined
  else .returns (false, sent)

theorem sendtoRound_first (network : DatagramNetwork) (sent : List Bytes) {bytes : Bytes}
    (hlower : bytes ≠ []) (hupper : bytes.length < 2 ^ 31) :
    (network.sendto sent bytes = none →
      sendtoRound network bytes ⟨0, bytes.length % 2 ^ 32, sent⟩ =
        .inr (.returns (false, sent))) ∧
    (network.sendto sent bytes = some bytes.length →
      ∃ bytesLeft, sendtoRound network bytes ⟨0, bytes.length % 2 ^ 32, sent⟩ =
        .inl ⟨bytes.length, bytesLeft, sent ++ [bytes]⟩) := by
  have hlen : Int.bmod ((bytes.length % 2 ^ 32 : Nat) : Int) (2 ^ 32) = bytes.length := by
    rw [Int.bmod_def]
    omega
  have hdatagram : (bytes.drop 0).take (bytes.length : Int).toNat = bytes := by simp
  have hnonneg : ¬ (bytes.length : Int) < 0 := by omega
  have hsmall : ¬ 2 ^ 31 ≤ 0 + bytes.length := by omega
  unfold sendtoRound
  rw [if_pos (List.length_pos_iff.mpr hlower)]
  simp only
  rw [hlen, hdatagram, if_neg hnonneg]
  constructor
  · intro hsendto
    rw [hsendto]
  · intro hsendto
    rw [hsendto]
    simp only
    rw [if_neg hsmall]
    exact ⟨_, by rw [Nat.zero_add]⟩

theorem write_whole (network : DatagramNetwork) (mSocket known : Bool) (sent : List Bytes)
    {bytes : Bytes} (hlower : bytes ≠ []) (hupper : bytes.length < 2 ^ 31) :
    (write network mSocket known sent bytes = .returns (true, sent ++ [bytes]) ∧
        bytes.length ≤ largestDatagram) ∨
      write network mSocket known sent bytes = .returns (false, sent) := by
  unfold write
  split
  case isFalse => exact .inr rfl
  obtain ⟨hfails, hgoes⟩ := sendtoRound_first network sent hlower hupper
  have hrounds : bytes.length + 1 = bytes.length - 1 + 1 + 1 := by
    have hpositive := List.length_pos_iff.mpr hlower
    omega
  rw [hrounds, Loop.run]
  cases hsendto : network.sendto sent bytes with
  | none =>
      rw [hfails hsendto]
      exact .inr rfl
  | some count =>
      obtain ⟨rfl, hfits⟩ := network.whole _ _ _ hsendto
      obtain ⟨bytesLeft, hround⟩ := hgoes hsendto
      have hlast : sendtoRound network bytes ⟨bytes.length, bytesLeft, sent ++ [bytes]⟩ =
          .inr (.returns (true, sent ++ [bytes])) := by
        rw [sendtoRound, if_neg (lt_irrefl _)]
      refine .inl ⟨?_, hfits⟩
      rw [hround]
      simp only [Loop.run, hlast, Option.getD_some]

end UdpSocket

/-- `recvfrom` fails if the datagram does not fit into the buffer. -/
def Received.of (bytes : Bytes) : Received :=
  if hfits : bytes.length ≤ internalBufferSize then .datagram bytes hfits else .socketError

namespace UdpSocket

structure Drained (socket : UdpSocket) : Prop where
  valid : socket.Valid
  opened : socket.mSocket = true
  empty : socket.internalBufferStartPos = socket.internalBufferEndPos

theorem Drained.refills {socket : UdpSocket} (hdrained : socket.Drained) :
    socket.refills = true := by
  rw [UdpSocket.refills, hdrained.opened, hdrained.empty, beq_self_eq_true]
  rfl

theorem Drained.refill {socket : UdpSocket} (hdrained : socket.Drained) {datagram : Bytes}
    (hlower : datagram ≠ []) (hupper : datagram.length ≤ internalBufferSize) :
    socket.refill (.of datagram) =
      (true,
        { socket with
          internalBuffer := datagram ++ socket.internalBuffer.drop datagram.length
          internalBufferStartPos := 0
          internalBufferEndPos := datagram.length }) := by
  have hpositive := List.length_pos_iff.mpr hlower
  have hof : Received.of datagram = .datagram datagram hupper := dif_pos hupper
  have hcount : (Received.of datagram).bytesReceived = (datagram.length : Int) := by rw [hof]; rfl
  have hbytes : (Received.of datagram).bytes = datagram := by rw [hof]; rfl
  unfold UdpSocket.refill
  rw [if_pos hdrained.empty]
  simp only [hdrained.opened, Bool.true_eq_false, if_false, recvfrom, hcount, hbytes]
  rw [if_neg (by omega), if_neg (by omega)]

theorem Drained.read {socket : UdpSocket} (hdrained : socket.Drained) {datagram bytes : Bytes}
    (hlower : datagram ≠ []) (hupper : datagram.length ≤ internalBufferSize)
    (hlarge : internalBufferSize < bytes.length) :
    ∃ next filled, socket.read bytes (.of datagram) =
        .returns (next, some (filled, datagram.length)) ∧
      filled.take datagram.length = datagram ∧ next.Drained := by
  have hsize : internalBufferSize = 65507 := rfl
  have hlength : (datagram ++ socket.internalBuffer.drop datagram.length).length =
      internalBufferSize := by
    rw [List.length_append, List.length_drop, hdrained.valid.length_eq]
    omega
  have hless : ¬ (bytes.length : Int) ≤ (datagram.length - 0 : Int) % 2 ^ 64 := by omega
  have hcopy : copy (datagram ++ socket.internalBuffer.drop datagram.length) 0 datagram.length
      bytes = .returns (datagram ++ bytes.drop datagram.length) := by
    rw [copy, if_pos (by omega)]
    simp
  unfold UdpSocket.read
  rw [hdrained.refill hlower hupper]
  simp only [drain]
  rw [if_neg hless, hcopy]
  simp only [Exec.returns_bind, Exec.pure_eq, Int.sub_zero, Int.toNat_natCast]
  exact ⟨_, _, rfl, List.take_left, ⟨le_refl _, le_refl _, Int.natCast_nonneg _, hlength⟩,
    hdrained.opened, rfl⟩

end UdpSocket

end Rpcmple.Cpp
