import Rpcmple.Data.Parties
import Rpcmple.Data.System

namespace Rpcmple.Cpp

open Data System

/-- `none` is `INVALID_SOCKET`. -/
abbrev SOCKET : Type := Option Nat

/-- A ledger of the calls of Winsock: the start-ups without a clean-up, the sockets made
and not closed, and whether a socket was closed that was not there or a clean-up had no
start-up before it. -/
structure Winsock where
  startups : Nat
  sockets : List Nat
  misused : Bool

/-- What its functions answer during one call; false is an error. -/
structure Winsock.Answers where
  startup : Bool
  socket : SOCKET
  inetPton : Bool
  bind : Bool
  listen : Bool
  connect : Bool
  accept : SOCKET

namespace Winsock

def WSAStartup (winsock : Winsock) : Winsock :=
  { winsock with startups := winsock.startups + 1 }

def WSACleanup (winsock : Winsock) : Winsock :=
  match winsock.startups with
  | 0 => { winsock with misused := true }
  | startups + 1 => { winsock with startups }

def opens (winsock : Winsock) (socket : Nat) : Winsock :=
  { winsock with sockets := socket :: winsock.sockets }

def closesocket (winsock : Winsock) (socket : Nat) : Winsock :=
  if socket ∈ winsock.sockets then { winsock with sockets := winsock.sockets.erase socket }
  else { winsock with misused := true }

/-- What `tcpSocketClient::create`, `udpSocket::create` and `startTCPServer` do: the value
they return, and the variable of the socket.  `configured` says whether every call between
`socket` and the end succeeds. -/
def openSocket (winsock : Winsock) (answers : Winsock.Answers) (configured : Bool)
    (mSocket : SOCKET) : Bool × SOCKET × Winsock :=
  if !answers.startup then (false, mSocket, winsock)
  else
    match answers.socket with
    | none => (false, none, winsock.WSAStartup.WSACleanup)
    | some socket =>
        let winsock := winsock.WSAStartup.opens socket
        if !configured then (false, some socket, (winsock.closesocket socket).WSACleanup)
        else (true, some socket, winsock)

/-- What `close` of the two and `stopTCPServer` do. -/
def closeSocket (winsock : Winsock) (mSocket : SOCKET) : Winsock :=
  match mSocket with
  | some socket => (winsock.closesocket socket).WSACleanup
  | none => winsock

end Winsock

namespace TcpSocketClient

def create (winsock : Winsock) (answers : Winsock.Answers) (connectSocket : SOCKET) :
    Bool × SOCKET × Winsock :=
  winsock.openSocket answers (answers.inetPton && answers.connect) connectSocket

def close (winsock : Winsock) (connectSocket : SOCKET) : Bool × SOCKET × Winsock :=
  (true, none, winsock.closeSocket connectSocket)

end TcpSocketClient

namespace UdpSocket

def create (winsock : Winsock) (answers : Winsock.Answers) (listenPort : Int) (mSocket : SOCKET) :
    Bool × SOCKET × Winsock :=
  winsock.openSocket answers (listenPort == -1 || answers.bind) mSocket

def close (winsock : Winsock) (mSocket : SOCKET) : Bool × SOCKET × Winsock :=
  (true, none, winsock.closeSocket mSocket)

end UdpSocket

/-- The socket is returned also where it has been closed again. -/
def startTCPServer (winsock : Winsock) (answers : Winsock.Answers) : SOCKET × Winsock :=
  (winsock.openSocket answers (answers.bind && answers.listen) none).2

/-- `listenSocket` is a copy of the caller's. -/
def stopTCPServer (winsock : Winsock) (listenSocket : SOCKET) : Winsock :=
  winsock.closeSocket listenSocket

namespace TcpSocketServer

/-- `accept` has overwritten `clientSocket` before it is looked at. -/
def create (winsock : Winsock) (answers : Winsock.Answers) : Bool × SOCKET × Winsock :=
  match answers.accept with
  | none => (false, none, winsock)
  | some socket => (true, some socket, winsock.opens socket)

def close (winsock : Winsock) (clientSocket : SOCKET) : Bool × SOCKET × Winsock :=
  match clientSocket with
  | some socket => (true, none, winsock.closesocket socket)
  | none => (true, none, winsock)

end TcpSocketServer

inductive Holder where
  | tcpSocketClient (connectSocket : SOCKET)
  | udpSocket (listenPort : Int) (mSocket : SOCKET)
  | tcpSocketServer (listenSocket clientSocket : SOCKET)

namespace Holder

def socket : Holder → SOCKET
  | tcpSocketClient connectSocket => connectSocket
  | udpSocket _ mSocket => mSocket
  | tcpSocketServer _ clientSocket => clientSocket

def startups : Holder → Nat
  | tcpSocketClient mSocket | udpSocket _ mSocket => mSocket.toList.length
  | tcpSocketServer _ _ => 0

def create (holder : Holder) (winsock : Winsock) (answers : Winsock.Answers) :
    Holder × Winsock :=
  match holder with
  | tcpSocketClient connectSocket =>
      let (_, connectSocket, winsock) := TcpSocketClient.create winsock answers connectSocket
      (tcpSocketClient connectSocket, winsock)
  | udpSocket listenPort mSocket =>
      let (_, mSocket, winsock) := UdpSocket.create winsock answers listenPort mSocket
      (udpSocket listenPort mSocket, winsock)
  | tcpSocketServer listenSocket _ =>
      let (_, clientSocket, winsock) := TcpSocketServer.create winsock answers
      (tcpSocketServer listenSocket clientSocket, winsock)

def close (holder : Holder) (winsock : Winsock) : Holder × Winsock :=
  match holder with
  | tcpSocketClient connectSocket =>
      let (_, connectSocket, winsock) := TcpSocketClient.close winsock connectSocket
      (tcpSocketClient connectSocket, winsock)
  | udpSocket listenPort mSocket =>
      let (_, mSocket, winsock) := UdpSocket.close winsock mSocket
      (udpSocket listenPort mSocket, winsock)
  | tcpSocketServer listenSocket clientSocket =>
      let (_, clientSocket, winsock) := TcpSocketServer.close winsock clientSocket
      (tcpSocketServer listenSocket clientSocket, winsock)

end Holder

/-- A program with any number of connections, and what `startTCPServer` returned to it and
`stopTCPServer` was not given since. -/
structure Sockets where
  winsock : Winsock
  holders : List Holder
  listening : List Nat

namespace Sockets

/-- A constructor, `create` or `close` (which is all that a destructor does) of a
connection, and the two functions for listening sockets. -/
inductive Action where
  | tcpSocketClient
  | udpSocket (listenPort : Int)
  | tcpSocketServer (listenSocket : SOCKET)
  | create (index : Nat) (answers : Winsock.Answers)
  | close (index : Nat)
  | startTCPServer (answers : Winsock.Answers)
  | stopTCPServer (listenSocket : SOCKET)

def start : Sockets := ⟨⟨0, [], false⟩, [], []⟩

def keeps (state : Sockets) (holder : Holder) : Sockets :=
  { state with holders := state.holders ++ [holder] }

/-- No socket is handed out that is still open. -/
def Fresh (winsock : Winsock) (answers : Winsock.Answers) : Prop :=
  (∀ socket ∈ answers.socket, socket ∉ winsock.sockets) ∧
    ∀ socket ∈ answers.accept, socket ∉ winsock.sockets

instance (winsock : Winsock) (answers : Winsock.Answers) : Decidable (Fresh winsock answers) :=
  inferInstanceAs (Decidable (_ ∧ _))

def create (state : Sockets) (index : Nat) (answers : Winsock.Answers) : Option Sockets :=
  state.holders[index]?.bind fun holder =>
    if Fresh state.winsock answers then
      some
        { state with
          winsock := (holder.create state.winsock answers).2
          holders := state.holders.set index (holder.create state.winsock answers).1 }
    else none

def close (state : Sockets) (index : Nat) : Option Sockets :=
  state.holders[index]?.map fun holder =>
    { state with
      winsock := (holder.close state.winsock).2
      holders := state.holders.set index (holder.close state.winsock).1 }

def startTCPServer (state : Sockets) (answers : Winsock.Answers) : Option Sockets :=
  if Fresh state.winsock answers then
    some
      { state with
        winsock := (Cpp.startTCPServer state.winsock answers).2
        listening :=
          (Cpp.startTCPServer state.winsock answers).1.toList ++ state.listening }
  else none

def stopTCPServer (state : Sockets) (listenSocket : SOCKET) : Sockets :=
  { state with
    winsock := Cpp.stopTCPServer state.winsock listenSocket
    listening :=
      match listenSocket with
      | some socket => state.listening.erase socket
      | none => state.listening }

def step (state : Sockets) : Action → Option Sockets
  | .tcpSocketClient => some (state.keeps (.tcpSocketClient none))
  | .udpSocket listenPort => some (state.keeps (.udpSocket listenPort none))
  | .tcpSocketServer listenSocket => some (state.keeps (.tcpSocketServer listenSocket none))
  | .create index answers => state.create index answers
  | .close index => state.close index
  | .startTCPServer answers => state.startTCPServer answers
  | .stopTCPServer listenSocket => some (state.stopTCPServer listenSocket)

end Sockets

namespace Winsock

structure Holds (winsock : Winsock) (held : List Nat) (count : Nat) : Prop where
  sockets : winsock.sockets.Perm held
  distinct : held.Nodup
  startups : winsock.startups = count
  calm : winsock.misused = false

variable {winsock : Winsock} {held rest : List Nat} {count : Nat} {mSocket : SOCKET}

theorem Holds.startup (hholds : winsock.Holds held count) :
    winsock.WSAStartup.Holds held (count + 1) where
  sockets := hholds.sockets
  distinct := hholds.distinct
  startups := congrArg (· + 1) hholds.startups
  calm := hholds.calm

theorem Holds.cleanup (hholds : winsock.Holds held (count + 1)) :
    winsock.WSACleanup.Holds held count := by
  unfold WSACleanup
  rw [hholds.startups]
  exact ⟨hholds.sockets, hholds.distinct, rfl, hholds.calm⟩

theorem Holds.opened (hholds : winsock.Holds held count) {socket : Nat}
    (hnew : socket ∉ winsock.sockets) : (winsock.opens socket).Holds (socket :: held) count where
  sockets := hholds.sockets.cons socket
  distinct := List.nodup_cons.mpr
    ⟨fun hmem => hnew (hholds.sockets.mem_iff.mpr hmem), hholds.distinct⟩
  startups := hholds.startups
  calm := hholds.calm

theorem Holds.closed {socket : Nat} (hholds : winsock.Holds (socket :: rest) count) :
    (winsock.closesocket socket).Holds rest count := by
  obtain ⟨hsockets, hdistinct, hstartups, hcalm⟩ := hholds
  have hopen : socket ∈ winsock.sockets := hsockets.mem_iff.mpr List.mem_cons_self
  rw [closesocket, if_pos hopen]
  refine ⟨?_, (List.nodup_cons.mp hdistinct).2, hstartups, hcalm⟩
  have herased := hsockets.erase socket
  rwa [List.erase_cons_head] at herased

theorem Holds.length (hholds : winsock.Holds (mSocket.toList ++ rest) count) :
    winsock.sockets.length = mSocket.toList.length + rest.length := by
  rw [hholds.sockets.length_eq, List.length_append]

theorem Holds.closeSocket
    (hholds : winsock.Holds (mSocket.toList ++ rest) (mSocket.toList.length + count)) :
    (winsock.closeSocket mSocket).Holds rest count := by
  cases mSocket with
  | none => simpa [Winsock.closeSocket] using hholds
  | some socket =>
      apply Holds.cleanup
      apply Holds.closed
      simpa [Nat.add_comm] using hholds

end Winsock

namespace Sockets

def held (state : Sockets) : List Nat := state.holders.flatMap fun holder => holder.socket.toList

/-- The open sockets are those the connections hold and those `startTCPServer` returned,
each once, and for every start-up there is a clean-up to come. -/
def Balanced (state : Sockets) : Prop :=
  state.winsock.Holds (state.held ++ state.listening)
    ((state.holders.map Holder.startups).sum + state.listening.length)

end Sockets

namespace Holder

end Holder

namespace Sockets

variable {state next : Sockets} {index : Nat} {holder : Holder}

/-- After a `connect` that failed the destructor closes the socket once more, and so does
a second `stopTCPServer`. -/
example : (run step start
    [.tcpSocketClient, .create 0 ⟨true, some 7, true, true, true, false, none⟩, .close 0]).map
      (fun state => state.winsock.misused) = some true ∧
    (run step start
      [.startTCPServer ⟨true, some 7, true, true, true, true, none⟩, .stopTCPServer (some 7),
        .stopTCPServer (some 7)]).map (fun state => state.winsock.misused) = some true := by
  decide

end Sockets

end Rpcmple.Cpp
