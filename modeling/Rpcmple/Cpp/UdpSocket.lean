import Rpcmple.Data.Bytes
import Rpcmple.Data.Exec
import Rpcmple.Data.System

namespace Rpcmple.Cpp

open Data

/-! `udpSocket::read`, which hands out a datagram in pieces. -/

/-- The size of `internalBuffer`, and of the largest datagram. -/
def internalBufferSize : Nat := 65507

inductive Received where
  | datagram (bytes : Bytes) (hfits : bytes.length ≤ internalBufferSize)
  | socketError

namespace Received

/-- What `recvfrom` returns; `SOCKET_ERROR` is -1. -/
def bytesReceived : Received → Int
  | datagram bytes _ => bytes.length
  | socketError => -1

def bytes : Received → Bytes
  | datagram bytes _ => bytes
  | socketError => []

end Received

/-- The fields `read` uses; `mSocket` says whether the socket is open. -/
structure UdpSocket where
  mSocket : Bool
  internalBuffer : Bytes
  internalBufferStartPos : Int
  internalBufferEndPos : Int

/-- `std::copy` between two vectors, defined inside both. -/
def copy (source : Bytes) (first last : Int) (target : Bytes) : Exec Bytes :=
  if 0 ≤ first ∧ first ≤ last ∧ last ≤ source.length ∧ last - first ≤ target.length then
    .returns ((source.drop first.toNat).take (last - first).toNat ++
      target.drop (last - first).toNat)
  else .undefined

namespace UdpSocket

def new (mSocket : Bool) : UdpSocket where
  mSocket
  internalBuffer := List.replicate internalBufferSize 0
  internalBufferStartPos := 0
  internalBufferEndPos := 0

def refills (socket : UdpSocket) : Bool :=
  socket.internalBufferStartPos == socket.internalBufferEndPos && socket.mSocket

def recvfrom (socket : UdpSocket) (received : Received) : UdpSocket :=
  { socket with
    internalBuffer := received.bytes ++ socket.internalBuffer.drop received.bytes.length
    internalBufferEndPos := received.bytesReceived }

/-- The first part of `read`; with false the call returns false. -/
def refill (socket : UdpSocket) (received : Received) : Bool × UdpSocket :=
  if socket.internalBufferStartPos = socket.internalBufferEndPos then
    let socket := { socket with internalBufferStartPos := 0, internalBufferEndPos := 0 }
    if socket.mSocket = false then (false, socket)
    else
      let socket := socket.recvfrom received
      if received.bytesReceived = -1 then (false, socket)
      else if received.bytesReceived = 0 then (false, socket)
      else (true, socket)
  else (true, socket)

/-- The rest of `read`: the destination and `*pBytesRead`.  The size of the destination is
compared as a `size_t`. -/
def drain (socket : UdpSocket) (bytes : Bytes) : Exec (UdpSocket × Bytes × Nat) :=
  let bytesInInternalBuffer := socket.internalBufferEndPos - socket.internalBufferStartPos
  if (bytes.length : Int) ≤ bytesInInternalBuffer % 2 ^ 64 then do
    let filled ← copy socket.internalBuffer socket.internalBufferStartPos
      (socket.internalBufferStartPos + bytes.length) bytes
    return ({ socket with
      internalBufferStartPos := socket.internalBufferStartPos + bytes.length },
      filled, bytes.length)
  else do
    let filled ← copy socket.internalBuffer socket.internalBufferStartPos
      socket.internalBufferEndPos bytes
    return ({ socket with internalBufferStartPos := 0, internalBufferEndPos := 0 },
      filled, bytesInInternalBuffer.toNat)

def read (socket : UdpSocket) (bytes : Bytes) (received : Received) :
    Exec (UdpSocket × Option (Bytes × Nat)) :=
  match socket.refill received with
  | (false, socket) => return (socket, none)
  | (true, socket) => do
      let (socket, bytes, bytesRead) ← socket.drain bytes
      return (socket, some (bytes, bytesRead))

def pending (socket : UdpSocket) : Bytes :=
  (socket.internalBuffer.drop socket.internalBufferStartPos.toNat).take
    (socket.internalBufferEndPos - socket.internalBufferStartPos).toNat

structure Valid (socket : UdpSocket) : Prop where
  start_nonneg : 0 ≤ socket.internalBufferStartPos
  start_le : socket.internalBufferStartPos ≤ socket.internalBufferEndPos
  end_le : socket.internalBufferEndPos ≤ internalBufferSize
  length_eq : socket.internalBuffer.length = internalBufferSize

variable {socket : UdpSocket}

theorem new_valid (mSocket : Bool) : (new mSocket).Valid :=
  ⟨le_refl _, le_refl _, Int.natCast_nonneg _, List.length_replicate⟩

theorem pending_eq_nil
    (hempty : socket.internalBufferStartPos = socket.internalBufferEndPos) :
    socket.pending = [] := by
  rw [pending, hempty, Int.sub_self]
  rfl

theorem recvfrom_spec (hlength : socket.internalBuffer.length = internalBufferSize)
    (hstart : socket.internalBufferStartPos = 0) {received : Received}
    (hreceived : received ≠ .socketError) :
    (socket.recvfrom received).Valid ∧
      (socket.recvfrom received).pending = received.bytes := by
  cases received with
  | socketError => exact absurd rfl hreceived
  | datagram bytes hfits =>
      refine ⟨⟨hstart.ge, ?_, Int.ofNat_le.mpr hfits, ?_⟩, ?_⟩
      · change socket.internalBufferStartPos ≤ (bytes.length : Int)
        omega
      · change (bytes ++ socket.internalBuffer.drop bytes.length).length = _
        rw [List.length_append, List.length_drop]
        omega
      · simp [pending, recvfrom, Received.bytes, Received.bytesReceived, hstart]

theorem refill_spec (hvalid : socket.Valid) {received : Received}
    (hreceived : socket.refills = true → received ≠ .socketError) :
    (socket.refill received).2.Valid ∧
      (socket.refill received).2.pending =
        socket.pending ++ if socket.refills then received.bytes else [] := by
  unfold refill
  by_cases hempty : socket.internalBufferStartPos = socket.internalBufferEndPos
  · rw [if_pos hempty, pending_eq_nil hempty]
    cases hsocket : socket.mSocket with
    | false => exact ⟨⟨le_refl _, le_refl _, Int.natCast_nonneg _, hvalid.length_eq⟩,
        by simp [refills, hsocket, pending]⟩
    | true =>
        have hrefills : socket.refills = true := by simp [refills, hempty, hsocket]
        have hfilled := @recvfrom_spec
          { socket with internalBufferStartPos := 0, internalBufferEndPos := 0 }
          hvalid.length_eq rfl _ (hreceived hrefills)
        rw [if_pos hrefills, List.nil_append]
        simp only [hsocket, Bool.true_eq_false, if_false] at hfilled ⊢
        split
        · exact hfilled
        · split
          all_goals exact hfilled
  · rw [if_neg hempty]
    have hrefills : socket.refills = false := by simp [refills, hempty]
    rw [hrefills, if_neg Bool.false_ne_true, List.append_nil]
    exact ⟨hvalid, rfl⟩

theorem drain_spec (hvalid : socket.Valid) (bytes : Bytes) :
    ∃ socket' bytes' bytesRead,
      socket.drain bytes = .returns (socket', bytes', bytesRead) ∧ socket'.Valid ∧
        socket.pending = bytes'.take bytesRead ++ socket'.pending := by
  obtain ⟨hstart, hle, hend, hlength⟩ := hvalid
  have hsize : internalBufferSize = 65507 := rfl
  have hleft : (socket.internalBufferEndPos - socket.internalBufferStartPos) % 2 ^ 64 =
      socket.internalBufferEndPos - socket.internalBufferStartPos := by omega
  unfold drain
  simp only [hleft]
  by_cases hfits : (bytes.length : Int) ≤
      socket.internalBufferEndPos - socket.internalBufferStartPos
  · have hcopy : 0 ≤ socket.internalBufferStartPos ∧
        socket.internalBufferStartPos ≤ socket.internalBufferStartPos + bytes.length ∧
        socket.internalBufferStartPos + bytes.length ≤ socket.internalBuffer.length ∧
        socket.internalBufferStartPos + bytes.length - socket.internalBufferStartPos ≤
          bytes.length := by omega
    rw [if_pos hfits, copy, if_pos hcopy]
    refine ⟨_, _, _, rfl, ⟨?_, ?_, hend, hlength⟩, ?_⟩
    · simp only
      omega
    · simp only
      omega
    · have hcount : (socket.internalBufferStartPos + bytes.length -
          socket.internalBufferStartPos).toNat = bytes.length := by omega
      have hmoved : (socket.internalBufferStartPos + bytes.length).toNat =
          socket.internalBufferStartPos.toNat + bytes.length := by omega
      have hall : (socket.internalBufferEndPos - socket.internalBufferStartPos).toNat =
          bytes.length + (socket.internalBufferEndPos -
            (socket.internalBufferStartPos + bytes.length)).toNat := by omega
      simp only [pending]
      rw [hcount, hmoved, hall, List.drop_length, List.append_nil, List.take_take,
        Nat.min_self, List.take_add, List.drop_drop]
  · have hcopy : 0 ≤ socket.internalBufferStartPos ∧
        socket.internalBufferStartPos ≤ socket.internalBufferEndPos ∧
        socket.internalBufferEndPos ≤ socket.internalBuffer.length ∧
        socket.internalBufferEndPos - socket.internalBufferStartPos ≤ bytes.length := by
      omega
    rw [if_neg hfits, copy, if_pos hcopy]
    refine ⟨_, _, _, rfl, ⟨le_refl _, le_refl _, Int.natCast_nonneg _, hlength⟩, ?_⟩
    have hcount : ((socket.internalBuffer.drop socket.internalBufferStartPos.toNat).take
        (socket.internalBufferEndPos - socket.internalBufferStartPos).toNat).length =
        (socket.internalBufferEndPos - socket.internalBufferStartPos).toNat := by
      rw [List.length_take, List.length_drop]
      omega
    rw [List.take_left' hcount]
    simp [pending]

end UdpSocket

structure UdpCall where
  bytes : Bytes
  received : Received

/-- The socket after some calls, the bytes of the datagrams it was given, those the
successful reads returned, and whether every copy was defined. -/
structure UdpStream where
  socket : UdpSocket
  received : Bytes
  returned : Bytes
  defined : Bool

namespace UdpStream

def start (mSocket : Bool) : UdpStream := ⟨.new mSocket, [], [], true⟩

def call (stream : UdpStream) (call : UdpCall) : UdpStream :=
  let received :=
    if stream.socket.refills then stream.received ++ call.received.bytes else stream.received
  match stream.socket.read call.bytes call.received with
  | .returns (socket, none) => { stream with socket, received }
  | .returns (socket, some (bytes, bytesRead)) =>
      { stream with
        socket, received
        returned := stream.returned ++ bytes.take bytesRead }
  | .rejects | .throws | .undefined => { stream with defined := false }

def step (stream : UdpStream) (call : UdpCall) : Option UdpStream := some (stream.call call)

structure Faithful (stream : UdpStream) : Prop where
  start_nonneg : 0 ≤ stream.socket.internalBufferStartPos
  start_le : stream.socket.internalBufferStartPos ≤ stream.socket.internalBufferEndPos
  end_le : stream.socket.internalBufferEndPos ≤ internalBufferSize
  defined : stream.defined = true
  in_order : stream.returned <+: stream.received

def Errs (stream : UdpStream) (call : UdpCall) : Prop :=
  stream.socket.refills = true ∧ call.received = .socketError

structure Buffers (stream : UdpStream) : Prop where
  valid : stream.socket.Valid
  defined : stream.defined = true
  received_eq : stream.received = stream.returned ++ stream.socket.pending

theorem Buffers.faithful {stream : UdpStream} (hbuffers : stream.Buffers) :
    stream.Faithful where
  start_nonneg := hbuffers.valid.start_nonneg
  start_le := hbuffers.valid.start_le
  end_le := hbuffers.valid.end_le
  defined := hbuffers.defined
  in_order := ⟨stream.socket.pending, hbuffers.received_eq.symm⟩

theorem buffers_start (mSocket : Bool) : (start mSocket).Buffers :=
  ⟨UdpSocket.new_valid mSocket, rfl, (UdpSocket.pending_eq_nil rfl).symm⟩

theorem Buffers.call {stream : UdpStream} (hbuffers : stream.Buffers) {call : UdpCall}
    (hallowed : ¬ stream.Errs call) : (stream.call call).Buffers := by
  obtain ⟨hvalid, hdefined, hreceived⟩ := hbuffers
  obtain ⟨hrefilled, hpending⟩ := UdpSocket.refill_spec hvalid
    fun hrefills hfailed => hallowed ⟨hrefills, hfailed⟩
  have hgiven : (if stream.socket.refills then stream.received ++ call.received.bytes
      else stream.received) =
      stream.returned ++ (stream.socket.refill call.received).2.pending := by
    rw [hpending, ← List.append_assoc, ← hreceived]
    split
    · rfl
    · rw [List.append_nil]
  unfold UdpStream.call UdpSocket.read
  simp only [hgiven]
  generalize stream.socket.refill call.received = refilled at hrefilled ⊢
  obtain ⟨success, socket⟩ := refilled
  cases success with
  | false => exact ⟨hrefilled, hdefined, rfl⟩
  | true =>
      obtain ⟨socket', bytes', bytesRead, hdrain, hvalid', hsplit⟩ :=
        UdpSocket.drain_spec hrefilled call.bytes
      simp only at hsplit
      simp only [hdrain, Exec.returns_bind, Exec.pure_eq]
      refine ⟨hvalid', hdefined, ?_⟩
      rw [hsplit, List.append_assoc]

theorem Errs.not_faithful {stream : UdpStream} {call : UdpCall} (herrs : stream.Errs call) :
    ¬ (stream.call call).Faithful := by
  obtain ⟨hrefills, hfailed⟩ := herrs
  obtain ⟨hempty, hsocket⟩ := Bool.and_eq_true_iff.mp hrefills
  intro hfaithful
  have hend : (stream.call call).socket.internalBufferEndPos = -1 := by
    simp [UdpStream.call, UdpSocket.read, UdpSocket.refill, UdpSocket.recvfrom,
      beq_iff_eq.mp hempty, hsocket, hfailed, Received.bytesReceived]
  have hstart := hfaithful.start_nonneg
  have hle := hfaithful.start_le
  omega

/-- The buffer is a faithful stream all along a run of calls exactly when no call of the
run has `recvfrom` fail. -/
theorem faithful_along_iff (mSocket : Bool) (calls : List UdpCall) :
    System.Along step Faithful (start mSocket) calls ↔
      System.Meets step (fun stream call => ¬ stream.Errs call) (start mSocket) calls := by
  constructor
  · intro halong
    apply halong.meets
    · intro stream call next hnext hfaithful herrs
      obtain rfl := Option.some.inj hnext
      exact herrs.not_faithful hfaithful
    · intro stream call habsurd
      cases habsurd
  · intro hmeets
    have halong : System.Along step Buffers (start mSocket) calls := by
      apply hmeets.along _ (buffers_start mSocket)
      intro stream call next hbuffers hallowed hnext
      obtain rfl := Option.some.inj hnext
      exact hbuffers.call hallowed
    exact halong.mono fun _ hbuffers => hbuffers.faithful

private def abc : UdpCall := ⟨[0, 0, 0, 0], .datagram [65, 66, 67] (by decide)⟩

private def failing (size : Nat) : UdpCall := ⟨List.replicate size 0, .socketError⟩

private theorem call_abc : ∃ buffer, (start true).call abc =
    ⟨⟨true, 65 :: 66 :: 67 :: buffer, 0, 0⟩, [65, 66, 67], [65, 66, 67], true⟩ := by
  have hroom : (3 : Int) ≤ ((internalBufferSize - 3 : Nat) : Int) + 1 + 1 + 1 := by decide
  exact ⟨_, by simp [abc, call, start, UdpSocket.read, UdpSocket.refill, UdpSocket.drain,
    UdpSocket.recvfrom, UdpSocket.refills, UdpSocket.new, copy, Received.bytes,
    Received.bytesReceived, hroom]; rfl⟩

/-- The last read returns the front of the datagram once more. -/
theorem stale_bytes_returned :
    ([abc, failing 4, failing 2].foldl call (start true)).returned = [65, 66, 67, 65, 66] ∧
      ([abc, failing 4, failing 2].foldl call (start true)).received = [65, 66, 67] ∧
      ¬ System.Along step Faithful (start true) [abc, failing 4, failing 2] := by
  obtain ⟨buffer, habc⟩ := call_abc
  have hafter : [abc, failing 4, failing 2].foldl call (start true) =
      ⟨⟨true, 65 :: 66 :: 67 :: buffer, 2, -1⟩, [65, 66, 67], [65, 66, 67, 65, 66], true⟩ := by
    have hroom : (2 : Int) ≤ (buffer.length : Int) + 1 + 1 + 1 := by omega
    rw [List.foldl_cons, habc]
    simp [failing, call, UdpSocket.read, UdpSocket.refill, UdpSocket.drain,
      UdpSocket.recvfrom, UdpSocket.refills, copy, Received.bytes, Received.bytesReceived,
      hroom]
  refine ⟨by rw [hafter], by rw [hafter], ?_⟩
  intro halong
  have hfaithful := ((halong.2 _ rfl).2 _ rfl).head
  rw [habc] at hfaithful
  exact Errs.not_faithful ⟨rfl, rfl⟩ hfaithful

end UdpStream

end Rpcmple.Cpp
