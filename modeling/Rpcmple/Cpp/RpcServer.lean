import Rpcmple.Cpp.MessageManager

namespace Rpcmple.Cpp

open Data

/-- `bytesToUint32` on `message.data()`, which has to hold four bytes. -/
def readHeader (host : Platform) (message : Bytes) : Exec UInt32 :=
  if message.length < 4 then .undefined
  else .returns (bytesToUint32 host (message.take 4) true)

theorem readHeader_of_length (host : Platform) {message : Bytes}
    (hlength : message.length = 4) :
    readHeader host message = .returns (UInt32.ofNat (leValue message)) := by
  have htake : message.take 4 = message := List.take_of_length_le hlength.le
  rw [readHeader, if_neg (by omega), htake, bytesToUint32_true host hlength]

/-- The four bytes in front of a body: 24 bits of length below a number or flag. -/
def headerBytes (host : Platform) (high : UInt32) (size : Nat) : Bytes :=
  uint32ToBytes host (high * 16777216 + UInt32.ofNat size) true

/-- `std::wstring_convert::to_bytes` throws what it cannot convert. -/
def wstringToUtf8 (host : Platform) (wstr : WString) : Exec Bytes :=
  match host.toBytes wstr with
  | some bytes => .returns bytes
  | none => .throws

def Converts (host : Platform) (wstr : WString) : Prop := (host.toBytes wstr).isSome = true

instance (host : Platform) (wstr : WString) : Decidable (Converts host wstr) :=
  inferInstanceAs (Decidable (_ = true))

theorem Converts.returns {host : Platform} {wstr : WString} (hconverts : Converts host wstr) :
    ∃ bytes, wstringToUtf8 host wstr = .returns bytes := by
  obtain ⟨bytes, hbytes⟩ := Option.isSome_iff_exists.mp hconverts
  exact ⟨bytes, by rw [wstringToUtf8, hbytes]⟩

theorem throws_of_not_converts {host : Platform} {wstr : WString}
    (hfails : ¬ Converts host wstr) : wstringToUtf8 host wstr = .throws := by
  rw [Converts, Option.not_isSome_iff_eq_none] at hfails
  rw [wstringToUtf8, hfails]

/-- A procedure of the server: `called` runs it in the server's surroundings. -/
structure LocalProcedureSignature (ω : Type) where
  procedureName : WString
  args : DataSignature
  rets : DataSignature
  called : ω → VariantVector → Bool × VariantVector × ω

/-- The server, the surroundings its procedures run in, and a record of which of
them was called with what, and for which body. -/
structure RpcServer (ω : Type) where
  localProcedures : List (LocalProcedureSignature ω)
  procedureID : UInt32
  callSuccess : Bool
  callReturnsSerialized : Bytes
  sectionLen : UInt32
  sectionID : UInt16
  world : ω
  invocations : List (Nat × Bytes × VariantVector)

namespace RpcServer

variable {ω : Type} (host : Platform)

def new (localProcedures : List (LocalProcedureSignature ω)) (world : ω) : RpcServer ω where
  localProcedures := localProcedures
  procedureID := -1
  callSuccess := false
  callReturnsSerialized := []
  sectionLen := 4
  sectionID := 0
  world := world
  invocations := []

def calls (server : RpcServer ω) : List (Nat × VariantVector) :=
  server.invocations.map fun call => (call.1, call.2.2)

/-- Keep what `toBinary` left in the buffer, whether it returned true or false. -/
def serialize (server : RpcServer ω) (signature : DataSignature) (rets : VariantVector) :
    Exec (RpcServer ω) :=
  match DataSignature.toBinary host signature rets server.callReturnsSerialized with
  | .next buffer | .fail buffer =>
      if buffer.defined then
        .returns { server with callReturnsSerialized := buffer.message }
      else .undefined
  | .crash => .throws

/-- `called` and what follows it in `call`. -/
def invoke (server : RpcServer ω) (pProc : LocalProcedureSignature ω) (message : Bytes)
    (args : VariantVector) : Parsed (RpcServer ω) :=
  let (success, rets, world) := pProc.called server.world args
  let server :=
    { server with
      world
      invocations := server.invocations ++ [(server.procedureID.toNat, message, args)] }
  if !success then
    Parsed.after (wstringToUtf8 host pProc.procedureName) server fun _ =>
      .returns (false, server)
  else if rets.length ≠ pProc.rets.length then
    .returns (false, { server with callReturnsSerialized := [], callSuccess := false })
  else
    let server := { server with callSuccess := true }
    Parsed.after (server.serialize host pProc.rets rets) server fun server =>
      .returns (true, server)

/-- The name is converted for the log, before anything else; nothing looks at what
`fromBinary` returns. -/
def call (server : RpcServer ω) (message : Bytes) : Parsed (RpcServer ω) :=
  match server.localProcedures[server.procedureID.toNat]? with
  | none => .returns (false, server)
  | some pProc =>
      Parsed.after (wstringToUtf8 host pProc.procedureName) server fun _ =>
        Parsed.after
          (DataSignature.fromBinary host pProc.args message
            (List.replicate pProc.args.length .default))
          server fun decoded => server.invoke host pProc message decoded.args

def expectHeader (server : RpcServer ω) : RpcServer ω :=
  { server with sectionLen := 4, sectionID := 0 }

def callThenHeader (server : RpcServer ω) (message : Bytes) : Parsed (RpcServer ω) :=
  match server.call host message with
  | .returns (true, server) => .returns (true, server.expectHeader)
  | .returns (false, server) => .returns (false, server)
  | .dies server => .dies server

def parseMessage (server : RpcServer ω) (message : Bytes) : Parsed (RpcServer ω) :=
  if server.sectionID = 0 then
    Parsed.after (readHeader host message) server fun mVal =>
      let server : RpcServer ω :=
        { server with procedureID := mVal / 16777216, sectionLen := mVal % 16777216 }
      if server.sectionLen > 0 then .returns (true, { server with sectionID := 1 })
      else server.callThenHeader host []
  else if server.sectionID = 1 then server.callThenHeader host message
  else .returns (false, server)

/-- The server as `call` finds it and the bytes `call` is given, when the section
completes a request. -/
def requested (server : RpcServer ω) (message : Bytes) : Option (RpcServer ω × Bytes) :=
  if server.sectionID = 0 then
    match readHeader host message with
    | .returns mVal =>
        if mVal % 16777216 > 0 then none
        else some ({ server with procedureID := mVal / 16777216, sectionLen := 0 }, [])
    | .rejects | .throws | .undefined => none
  else if server.sectionID = 1 then some (server, message)
  else none

def writeMessage (server : RpcServer ω) : Bool × Bytes :=
  if server.sectionID ≠ 0 then (true, [])
  else if server.callReturnsSerialized.length > 16777216 then (false, [])
  else
    let callSuccessInt : UInt32 := if server.callSuccess then 1 else 0
    (true, headerBytes host callSuccessInt server.callReturnsSerialized.length ++
      server.callReturnsSerialized)

def methods : Parser (RpcServer ω) where
  isRequester := false
  parseMessage := parseMessage host
  getMessageLen server := server.sectionLen
  writeMessage server _ :=
    some ((server.writeMessage host).1, (server.writeMessage host).2, server)

def SectionFramed (sectionID : UInt16) (sectionLen : UInt32) : Prop :=
  (sectionID = 0 ∧ sectionLen = 4) ∨
    (sectionID = 1 ∧ 1 ≤ sectionLen.toNat ∧ sectionLen.toNat < 2 ^ 24)

def Framed (server : RpcServer ω) : Prop :=
  SectionFramed server.sectionID server.sectionLen

theorem sectionFramed_header : SectionFramed 0 4 := Or.inl ⟨rfl, rfl⟩

theorem sectionFramed_body {mVal : UInt32} (hpositive : mVal % 16777216 > 0) :
    SectionFramed 1 (mVal % 16777216) := by
  refine Or.inr ⟨rfl, UInt32.lt_iff_toNat_lt.mp hpositive, ?_⟩
  rw [UInt32.toNat_mod]
  exact Nat.mod_lt _ (by decide)

theorem SectionFramed.positive {sectionID : UInt16} {sectionLen : UInt32}
    (hframed : SectionFramed sectionID sectionLen) : 0 < sectionLen.toNat := by
  rcases hframed with ⟨-, rfl⟩ | ⟨-, hpositive, -⟩
  · decide
  · exact hpositive

variable {host}

theorem callThenHeader_eq_returns {server next : RpcServer ω} {message : Bytes} :
    server.callThenHeader host message = .returns (true, next) ↔
      ∃ called, server.call host message = .returns (true, called) ∧
        next = called.expectHeader := by
  unfold callThenHeader
  rcases server.call host message with ⟨success, called⟩ | left
  · cases success <;> simp [eq_comm]
  · simp

theorem parseMessage_framed {server next : RpcServer ω} {message : Bytes}
    (hparse : server.parseMessage host message = .returns (true, next)) :
    next.Framed := by
  have hcalled : ∀ {server : RpcServer ω} {body : Bytes},
      server.callThenHeader host body = .returns (true, next) → next.Framed := by
    intro server body hcall
    obtain ⟨called, -, rfl⟩ := callThenHeader_eq_returns.mp hcall
    exact sectionFramed_header
  unfold parseMessage at hparse
  split at hparse
  · obtain ⟨mVal, -, hbody⟩ := Parsed.after_eq_returns.mp hparse
    simp only at hbody
    split at hbody
    · rename_i hpositive
      cases hbody
      exact sectionFramed_body hpositive
    · exact hcalled hbody
  · split at hparse
    · exact hcalled hparse
    · cases hparse

end RpcServer

end Rpcmple.Cpp
