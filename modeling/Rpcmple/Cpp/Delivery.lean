import Rpcmple.Cpp.DataSubscriber
import Rpcmple.Cpp.Framing
import Rpcmple.Cpp.RpcClient

namespace Rpcmple.Cpp

open Data MessageManager

variable {ω : Type} (host : Platform)

structure MessageManager.Moderate {σ : Type} (methods : Parser σ) (I : σ → Prop) : Prop
    extends Sectional methods I where
  moderate : ∀ parser, I parser → (methods.getMessageLen parser).toNat ≤ readBufferSize

theorem RpcServer.SectionFramed.moderate {sectionID : UInt16} {sectionLen : UInt32}
    (hframed : SectionFramed sectionID sectionLen) : sectionLen.toNat ≤ readBufferSize := by
  rw [readBufferSize]
  rcases hframed with ⟨-, rfl⟩ | ⟨-, -, hsmall⟩
  · decide
  · omega

theorem RpcServer.sectional : Sectional (RpcServer.methods (ω := ω) host) RpcServer.Framed where
  positive := fun _ hframed => hframed.positive
  parses := fun _ _ _ _ hparse => parseMessage_framed hparse
  writes := by
    intro server message reply next hframed hwrite
    simp only [RpcServer.methods, Option.some.injEq, Prod.mk.injEq] at hwrite
    exact hwrite.2.2 ▸ hframed

theorem RpcClient.sectional (others : Nat → RpcClient.Shared) :
    Sectional (RpcClient.sharedMethods host others) fun state => state.1.Framed where
  positive := fun _ hframed => hframed.positive
  parses := by
    intro state piece next _ hparse
    simp only [sharedMethods] at hparse
    split at hparse
    · rename_i hclient
      cases hparse
      exact parseMessage_framed hclient
    · cases hparse
  writes := by
    intro state message reply next hframed hwrite
    obtain ⟨⟨success, sent, rc⟩, hclient, hnext⟩ := Option.map_eq_some_iff.mp hwrite
    cases hnext
    obtain ⟨hid, hlen⟩ := writeMessage_section hclient
    simp only [RpcClient.Framed, hid, hlen]
    exact hframed

theorem DataSubscriber.sectional :
    Sectional (DataSubscriber.methods host) DataSubscriber.Framed where
  positive := fun _ hframed => hframed.positive
  parses := fun _ _ _ _ hparse => parseMessage_framed hparse
  writes := by
    intro subscriber message reply next hframed hwrite
    simp only [DataSubscriber.methods, Option.some.injEq, Prod.mk.injEq] at hwrite
    exact hwrite.2.2 ▸ hframed

namespace Position

variable {σ : Type} (methods : Parser σ) (writeOk : List Bytes → Bytes → Bool)

/-- The sections a stream falls into when none is measured again before its reply: a
section is the last one when it is rejected or its reply is not written. -/
def answered : Cutter (Position σ) where
  len position := position.len
  accept position piece :=
    (accepted (methods.parseMessage position.parser piece)).bind fun parser =>
      respond methods writeOk parser 0 position.written

def AnswersAll (parser : σ) (bytes : Bytes) (pieces : List (σ × Bytes))
    (replies : List Bytes) : Prop :=
  (opening methods writeOk parser = none ∧ pieces = [] ∧ replies = []) ∨
    ∃ start visited final, opening methods writeOk parser = some start ∧
      (answered methods writeOk).Runs start bytes visited final ∧
      visits visited = pieces ∧ final.written = replies

variable {methods writeOk}

theorem respond_moderate {parser : σ} {received : Nat} {written : List Bytes}
    (hreceived : received ≤ readBufferSize) :
    respond methods writeOk parser received written =
      respond methods writeOk parser 0 written := by
  simp only [respond, afterSend, send, Nat.not_lt.mpr hreceived, gt_iff_lt,
    Nat.not_lt_zero]

end Position

theorem MessageManager.Sectional.progresses {σ : Type} {methods : Parser σ} {I : σ → Prop}
    (hsectional : Sectional methods I) (writeOk : List Bytes → Bytes → Bool) :
    (Position.sections methods writeOk).Progresses fun position => I position.parser := by
  intro position piece following hposition haccept
  obtain ⟨parser, hparse, hrespond⟩ := Option.bind_eq_some_iff.mp haccept
  obtain ⟨hsent, hlen⟩ :=
    hsectional.sent (hsectional.parses _ _ _ hposition (accepted_eq_some.mp hparse)) hrespond
  refine ⟨hsent, fun _ => ?_⟩
  rw [Position.sections_len, hlen]
  exact hsectional.positive _ hsent

theorem MessageManager.Sectional.exists_handlesAll {σ : Type} {methods : Parser σ}
    {I : σ → Prop} (hsectional : Sectional methods I) (writeOk : List Bytes → Bytes → Bool)
    {parser : σ} (hparser : I parser) (bytes : Bytes) :
    ∃ pieces replies, HandlesAll methods writeOk parser bytes pieces replies := by
  cases hopening : Position.opening methods writeOk parser with
  | none => exact ⟨[], [], Or.inl ⟨hopening, rfl, rfl⟩⟩
  | some start =>
      have hstart : I start.parser := (hsectional.opened hparser hopening).1
      obtain ⟨visited, final, hruns⟩ :=
        (hsectional.progresses writeOk).exists_runs hstart bytes
      exact ⟨_, _, Or.inr ⟨start, hopening, visited, final, hruns, rfl, rfl⟩⟩

theorem MessageManager.Moderate.answered {σ : Type} {methods : Parser σ} {I : σ → Prop}
    (hmoderate : Moderate methods I) {writeOk : List Bytes → Bytes → Bool}
    {position final : Position σ} {bytes : Bytes} {visited : List (Position σ × Bytes)}
    (hposition : I position.parser) (hlen : position.len ≤ readBufferSize)
    (hruns : (Position.sections methods writeOk).Runs position bytes visited final) :
    (Position.answered methods writeOk).Runs position bytes visited final := by
  have hsame : ∀ (position : Position σ) (piece : Bytes), position.len ≤ readBufferSize →
      piece.length = position.len →
      (Position.answered methods writeOk).accept position piece =
        (Position.sections methods writeOk).accept position piece := by
    intro position piece hlen hpiece
    simp only [Position.answered, Position.sections,
      Position.respond_moderate (hpiece.trans_le hlen)]
  induction hruns with
  | short hshort => exact .short hshort
  | last hlength hnone => exact .last hlength ((hsame _ _ hlen hlength).trans hnone)
  | next hlength hsome _ ih =>
      obtain ⟨parser, hparse, hrespond⟩ := Option.bind_eq_some_iff.mp hsome
      obtain ⟨hfollowing, hasked⟩ := hmoderate.toSectional.sent
        (hmoderate.parses _ _ _ hposition (accepted_eq_some.mp hparse)) hrespond
      refine .next hlength ((hsame _ _ hlen hlength).trans hsome) (ih hfollowing ?_)
      rw [hasked]
      exact hmoderate.moderate _ hfollowing

/-- The flow keeps its counters and its copies in bounds, comes to rest, and has
then parsed the sections of the stream, each once and in order, and replied to them. -/
def ParsesSections {σ : Type} (methods : Parser σ) (writeOk : List Bytes → Bytes → Bool)
    (parser : σ) (chunks : List Bytes) : Prop :=
  Machine.Always (dataFlow methods writeOk) Counted (init methods parser chunks) ∧
    ∃ pieces replies n,
      Position.AnswersAll methods writeOk parser chunks.flatten pieces replies ∧
      Rests methods ((dataFlow methods writeOk)^[n] (init methods parser chunks)) ∧
      ((dataFlow methods writeOk)^[n] (init methods parser chunks)).parsed = pieces ∧
      ((dataFlow methods writeOk)^[n] (init methods parser chunks)).written = replies

theorem parsesSections {σ : Type} {methods : Parser σ} {I : σ → Prop} {parser : σ}
    {chunks : List Bytes} (writeOk : List Bytes → Bytes → Bool)
    (hmoderate : Moderate methods I) (hparser : I parser)
    (hchunks : ∀ chunk ∈ chunks, chunk.length ≤ readBufferSize) :
    ParsesSections methods writeOk parser chunks := by
  obtain ⟨pieces, replies, hhandles⟩ :=
    hmoderate.toSectional.exists_handlesAll writeOk hparser chunks.flatten
  obtain ⟨hcounted, n, hrests, hparsed, hwritten⟩ :=
    dataFlow_handlesAll hmoderate.toSectional hparser hchunks hhandles
  refine ⟨fun m => (hcounted m).1, pieces, replies, n, ?_, hrests, hparsed, hwritten⟩
  refine hhandles.imp_right fun ⟨start, hopening, visited, final, hruns, hvisits, hfinal⟩ => ?_
  obtain ⟨hstart, hlen⟩ := hmoderate.toSectional.opened hparser hopening
  exact ⟨start, visited, final, hopening,
    hmoderate.answered hstart (hlen ▸ hmoderate.moderate _ hparser) hruns, hvisits, hfinal⟩

/-- Behind every parser whose sections stay within the limit the flow is exact on every
stream and chunking, and the parsers of the library are such, whatever the server's
procedures, the client's callers and the connection do. -/
theorem dataFlow_parsesSections (writeOk : List Bytes → Bytes → Bool)
    {chunks : List Bytes} (hchunks : ∀ chunk ∈ chunks, chunk.length ≤ readBufferSize) :
    (∀ (σ : Type) (methods : Parser σ) (I : σ → Prop) (parser : σ),
      Moderate methods I → I parser → ParsesSections methods writeOk parser chunks) ∧
    (∀ (ω : Type) (localProcedures : List (LocalProcedureSignature ω)) (world : ω),
      Moderate (RpcServer.methods (ω := ω) host) RpcServer.Framed ∧
        (RpcServer.new localProcedures world).Framed) ∧
    (∀ remoteProcedures others,
      Moderate (RpcClient.sharedMethods host others) (fun state => state.1.Framed) ∧
        (RpcClient.new remoteProcedures).Framed) ∧
    ∀ signature callback,
      Moderate (DataSubscriber.methods host) DataSubscriber.Framed ∧
        (DataSubscriber.new signature callback).Framed :=
  ⟨fun _ _ _ _ hmoderate hparser => parsesSections writeOk hmoderate hparser hchunks,
    fun _ _ _ => ⟨⟨RpcServer.sectional host, fun _ hframed => hframed.moderate⟩,
      RpcServer.sectionFramed_header⟩,
    fun _ others => ⟨⟨RpcClient.sectional host others, fun _ hframed => hframed.moderate⟩,
      RpcServer.sectionFramed_header⟩,
    fun _ _ => ⟨⟨DataSubscriber.sectional host, fun _ hframed => hframed.moderate⟩,
      RpcServer.sectionFramed_header⟩⟩

theorem dataFlow_parsesSections_two_chunks :
    (∀ (σ : Type) (methods : Parser σ) (I : σ → Prop) (parser : σ),
      Moderate methods I → I parser →
        ParsesSections methods (fun _ _ => true) parser [[0, 0], [0, 1]]) ∧
    (∀ (ω : Type) (localProcedures : List (LocalProcedureSignature ω)) (world : ω),
      Moderate (RpcServer.methods (ω := ω) plainPlatform) RpcServer.Framed ∧
        (RpcServer.new localProcedures world).Framed) ∧
    (∀ remoteProcedures others,
      Moderate (RpcClient.sharedMethods plainPlatform others) (fun state => state.1.Framed) ∧
        (RpcClient.new remoteProcedures).Framed) ∧
    ∀ signature callback,
      Moderate (DataSubscriber.methods plainPlatform) DataSubscriber.Framed ∧
        (DataSubscriber.new signature callback).Framed :=
  dataFlow_parsesSections _ (fun _ _ => true) (by decide)

private def muteParser : Parser Unit where
  isRequester := false
  parseMessage _ _ := .returns (true, ())
  getMessageLen _ := 1
  writeMessage _ _ := some (false, [], ())

/-- When `writeMessage` returns false the flow stops, with a section unread that the
parser would have taken. -/
theorem dataFlow_stops_without_reply :
    Sectional muteParser (fun _ => True) ∧
      Cutter.Cut
        ⟨fun parser => (muteParser.getMessageLen parser).toNat, fun parser piece =>
          match muteParser.parseMessage parser piece with
          | .returns (true, next) => some next
          | _ => none⟩
        () ([1] ++ ([2] ++ [])) [[1], [2]] ∧
      Rests muteParser
        ((dataFlow muteParser fun _ _ => true)^[4] (init muteParser () [[1, 2]])) ∧
      ((dataFlow muteParser fun _ _ => true)^[4] (init muteParser () [[1, 2]])).parsed =
        [((), [1])] :=
  ⟨⟨fun _ _ => Nat.one_pos, fun _ _ _ _ _ => trivial, fun _ _ _ _ _ _ => trivial⟩,
    .next rfl rfl (.next rfl rfl (.short (by decide))), Or.inl rfl, rfl⟩

end Rpcmple.Cpp
