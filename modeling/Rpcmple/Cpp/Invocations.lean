import Rpcmple.Cpp.Delivery
import Rpcmple.Cpp.Frames

namespace Rpcmple.Cpp

open Data MessageManager

section Flow

variable {σ τ β : Type} {methods : Parser σ} {writeOk : List Bytes → Bytes → Bool}
  {I : σ → Prop}

theorem forall_handled (hsectional : Sectional methods I) {start : Position σ}
    (hstart : I start.parser) (hlen : start.len = (methods.getMessageLen start.parser).toNat)
    {bytes : Bytes} {pieces : List (σ × Bytes)} {replies : List Bytes}
    (hhandles : Handles methods writeOk start bytes pieces replies) :
    ∀ piece ∈ pieces, I piece.1 ∧ piece.2.length = (methods.getMessageLen piece.1).toNat := by
  obtain ⟨visited, final, hruns, rfl, -⟩ := hhandles
  have hprogress : (Position.sections methods writeOk).Progresses fun position =>
      I position.parser ∧ position.len = (methods.getMessageLen position.parser).toNat := by
    intro position piece following hposition haccept
    obtain ⟨parser, hparse, hrespond⟩ := Option.bind_eq_some_iff.mp haccept
    obtain ⟨hsent, hasked⟩ := hsectional.sent
      (hsectional.parses _ _ _ hposition.1 (accepted_eq_some.mp hparse)) hrespond
    refine ⟨⟨hsent, hasked⟩, fun _ => ?_⟩
    rw [Position.sections_len, hasked]
    exact hsectional.positive _ hsent
  intro piece hmem
  obtain ⟨visit, hvisit, rfl⟩ := List.mem_map.mp hmem
  obtain ⟨hparser, hasked⟩ := hprogress.of_mem_visited ⟨hstart, hlen⟩ hruns visit hvisit
  exact ⟨hparser, (hruns.length_eq visit hvisit).trans hasked⟩

theorem handlesAll_frames (hsectional : Sectional methods I)
    {reader : FrameReader methods.reads τ β} {reply : τ → Bool × Bytes}
    (hanswers : Answers reader reply) {state : τ} (hstate : I (reader.atHeader state))
    (hopening : Position.opening methods writeOk (reader.atHeader state) =
      some ⟨reader.atHeader state, [], 4⟩)
    {bytes : Bytes} {frames : List ((τ × List Bytes) × Frame)} {final : τ × List Bytes}
    (hruns : Frame.Runs (hanswers.replying writeOk).handle (state, []) bytes frames final) :
    ∃ pieces, HandlesAll methods writeOk (reader.atHeader state) bytes pieces final.2 ∧
      (∀ piece ∈ pieces, I piece.1 ∧
        piece.2.length = (methods.getMessageLen piece.1).toNat) ∧
      pieces.filterMap (fun piece => reader.observed piece.1 piece.2) =
        frames.map fun frame => reader.observe frame.1.1 frame.2 := by
  obtain ⟨visited, last, hcut, hobserved, hlast⟩ := (hanswers.replying writeOk).exists_runs hruns
  have hwritten : last.written = final.2 := by
    rcases hlast with rfl | ⟨high, size, rfl⟩ <;> rfl
  have hhandles : Handles methods writeOk ⟨reader.atHeader state, [], 4⟩ bytes
      (visits visited) final.2 := ⟨visited, last, hcut, rfl, hwritten⟩
  refine ⟨visits visited, Or.inr ⟨_, hopening, hhandles⟩,
    forall_handled hsectional hstate (reader.len_header state).symm hhandles, ?_⟩
  rw [visits, List.filterMap_map]
  exact hobserved

theorem filterMap_invocation {γ : Type} {reader : FrameReader methods.reads τ β}
    {pieces : List (σ × Bytes)} {frames : List ((τ × List Bytes) × Frame)}
    (hpieces : ∀ piece ∈ pieces, I piece.1 ∧
      piece.2.length = (methods.getMessageLen piece.1).toNat)
    (hobserved : pieces.filterMap (fun piece => reader.observed piece.1 piece.2) =
      frames.map fun frame => reader.observe frame.1.1 frame.2)
    {invocation : σ → Bytes → Option γ} {called : β → Option γ}
    (hinvocation : ∀ parser piece, I parser →
      piece.length = (methods.getMessageLen parser).toNat →
      invocation parser piece = (reader.observed parser piece).bind called) :
    pieces.filterMap (fun piece => invocation piece.1 piece.2) =
      frames.filterMap fun frame => called (reader.observe frame.1.1 frame.2) := by
  have hbound : pieces.filterMap (fun piece => invocation piece.1 piece.2) =
      pieces.filterMap fun piece => (reader.observed piece.1 piece.2).bind called :=
    List.filterMap_congr fun piece hmem =>
      hinvocation piece.1 piece.2 (hpieces piece hmem).1 (hpieces piece hmem).2
  rw [hbound, ← List.filterMap_filterMap, hobserved, List.filterMap_map]
  rfl

/-- A flow whose parser replies to frames sees those of the stream, and in the end has
written what replying to them leaves. -/
theorem dataFlow_frames (hsectional : Sectional methods I)
    {reader : FrameReader methods.reads τ β} {reply : τ → Bool × Bytes}
    (hanswers : Answers reader reply) {state : τ} (hstate : I (reader.atHeader state))
    (hopening : Position.opening methods writeOk (reader.atHeader state) =
      some ⟨reader.atHeader state, [], 4⟩)
    {chunks : List Bytes} (hchunks : ∀ chunk ∈ chunks, chunk.length ≤ readBufferSize)
    {frames : List ((τ × List Bytes) × Frame)} {final : τ × List Bytes}
    (hruns : Frame.Runs (hanswers.replying writeOk).handle (state, []) chunks.flatten
      frames final) :
    ∃ n pieces,
      Machine.Always (dataFlow methods writeOk) (fun mm => mm.parsed <+: pieces)
        (init methods (reader.atHeader state) chunks) ∧
      Rests methods
        ((dataFlow methods writeOk)^[n] (init methods (reader.atHeader state) chunks)) ∧
      ((dataFlow methods writeOk)^[n] (init methods (reader.atHeader state) chunks)).parsed =
        pieces ∧
      ((dataFlow methods writeOk)^[n] (init methods (reader.atHeader state) chunks)).written =
        final.2 ∧
      (∀ piece ∈ pieces, I piece.1 ∧
        piece.2.length = (methods.getMessageLen piece.1).toNat) ∧
      pieces.filterMap (fun piece => reader.observed piece.1 piece.2) =
        frames.map fun frame => reader.observe frame.1.1 frame.2 := by
  obtain ⟨pieces, hhandles, hpieces, hobserved⟩ :=
    handlesAll_frames hsectional hanswers hstate hopening hruns
  obtain ⟨halways, n, hrests, hparsed, hreplies⟩ :=
    dataFlow_handlesAll hsectional hstate hchunks hhandles
  exact ⟨n, pieces, fun m => (halways m).2, hrests, hparsed, hreplies, hpieces, hobserved⟩

/-- The parser keeps a record of what the sections make it call, whether it returns to
the flow or not. -/
structure Records {γ : Type} (methods : Parser σ) (record : σ → List γ)
    (invocation : σ → Bytes → Option γ) : Prop where
  parses : ∀ parser piece, record (methods.parseMessage parser piece).parser =
    record parser ++ (invocation parser piece).toList
  writes : ∀ parser message success reply next,
    methods.writeMessage parser message = some (success, reply, next) →
      record next = record parser

def Recorded {γ : Type} (record : σ → List γ) (invocation : σ → Bytes → Option γ)
    (mm : MessageManager σ) : Prop :=
  record mm.parser = mm.parsed.filterMap fun piece => invocation piece.1 piece.2

theorem Records.dataFlow {γ : Type} {record : σ → List γ}
    {invocation : σ → Bytes → Option γ} (hrecords : Records methods record invocation)
    {mm : MessageManager σ} (hrecorded : Recorded record invocation mm) :
    Recorded record invocation (mm.dataFlow methods writeOk) := by
  cases @dataFlow_step _ methods writeOk mm with
  | stays hparser hparsed =>
      rw [Recorded, hparser, hparsed]
      exact hrecorded
  | parses piece hparser hparsed =>
      rw [Recorded, hparser, hparsed, hrecords.parses, List.filterMap_append, List.filterMap_cons,
        List.filterMap_nil]
      refine congrArg₂ (· ++ ·) hrecorded ?_
      simp only
      cases invocation mm.parser piece <;> rfl
  | @writes buffer result hwrite hparser hparsed =>
      rw [Recorded, hparser, hparsed, hrecords.writes _ _ _ _ _ hwrite]
      exact hrecorded

theorem Records.always {γ : Type} {record : σ → List γ}
    {invocation : σ → Bytes → Option γ} (hrecords : Records methods record invocation)
    {mm : MessageManager σ} (hrecorded : Recorded record invocation mm) :
    Machine.Always (MessageManager.dataFlow methods writeOk) (Recorded record invocation) mm := by
  intro n
  induction n with
  | zero => exact hrecorded
  | succ n ih =>
      rw [Function.iterate_succ_apply']
      exact hrecords.dataFlow ih

/-- All recorded calls of a run have the property exactly when those that the frames
handled ask for have it. -/
theorem dataFlow_calls_iff {γ : Type} (hsectional : Sectional methods I)
    {reader : FrameReader methods.reads τ β} {reply : τ → Bool × Bytes}
    (hanswers : Answers reader reply) {state : τ} (hstate : I (reader.atHeader state))
    (hopening : Position.opening methods writeOk (reader.atHeader state) =
      some ⟨reader.atHeader state, [], 4⟩)
    {chunks : List Bytes} (hchunks : ∀ chunk ∈ chunks, chunk.length ≤ readBufferSize)
    {frames : List ((τ × List Bytes) × Frame)} {final : τ × List Bytes}
    (hruns : Frame.Runs (hanswers.replying writeOk).handle (state, []) chunks.flatten
      frames final)
    {record : σ → List γ} {invocation : σ → Bytes → Option γ}
    (hrecords : Records methods record invocation)
    (hempty : record (reader.atHeader state) = []) {called : β → Option γ}
    (hinvocation : ∀ parser piece, I parser →
      piece.length = (methods.getMessageLen parser).toNat →
      invocation parser piece = (reader.observed parser piece).bind called)
    (P : γ → Prop) :
    Machine.Always (dataFlow methods writeOk)
        (fun mm => ∀ call ∈ record mm.parser, P call)
        (init methods (reader.atHeader state) chunks) ↔
      ∀ frame ∈ frames, ∀ call,
        called (reader.observe frame.1.1 frame.2) = some call → P call := by
  obtain ⟨n, pieces, halways, -, hparsed, -, hpieces, hobserved⟩ :=
    dataFlow_frames hsectional hanswers hstate hopening hchunks hruns
  have hcalls := filterMap_invocation hpieces hobserved hinvocation
  have hrecorded := @Records.always _ _ writeOk _ _ _ hrecords
    (init methods (reader.atHeader state) chunks) hempty
  constructor
  · intro hreached frame hmem call hcall
    have hend := hreached n
    simp only at hend
    rw [hrecorded n, hparsed, hcalls] at hend
    exact hend call (List.mem_filterMap.mpr ⟨frame, hmem, hcall⟩)
  · intro hframes m call hmem
    rw [hrecorded m] at hmem
    have hlater := ((halways m).filterMap fun piece => invocation piece.1 piece.2).subset hmem
    rw [hcalls] at hlater
    obtain ⟨frame, hframe, hcall⟩ := List.mem_filterMap.mp hlater
    exact hframes frame hframe call hcall

end Flow

namespace RpcServer

variable {ω : Type} {host : Platform}

def Ran (server next : RpcServer ω) (calls : List (Nat × Bytes × VariantVector)) : Prop :=
  next.invocations = server.invocations ++ calls ∧
    next.localProcedures = server.localProcedures

theorem Ran.nothing (server : RpcServer ω) : server.Ran server [] :=
  ⟨(List.append_nil _).symm, rfl⟩

theorem serialize_keeps {server next : RpcServer ω} {signature : DataSignature}
    {rets : VariantVector}
    (hserialize : server.serialize host signature rets = .returns next) :
    next.invocations = server.invocations ∧ next.localProcedures = server.localProcedures := by
  unfold serialize at hserialize
  split at hserialize
  · split at hserialize
    · cases hserialize
      exact ⟨rfl, rfl⟩
    · cases hserialize
  · split at hserialize
    · cases hserialize
      exact ⟨rfl, rfl⟩
    · cases hserialize
  · cases hserialize

theorem invoke_records (server : RpcServer ω) (pProc : LocalProcedureSignature ω)
    (message : Bytes) (args : VariantVector) :
    server.Ran (server.invoke host pProc message args).parser
      [(server.procedureID.toNat, message, args)] := by
  unfold invoke
  simp only
  split
  · exact Parsed.parser_after (P := (server.Ran · _)) ⟨rfl, rfl⟩ fun _ _ => ⟨rfl, rfl⟩
  · split
    · exact ⟨rfl, rfl⟩
    · exact Parsed.parser_after (P := (server.Ran · _)) ⟨rfl, rfl⟩ fun _ => serialize_keeps

variable (host) in
/-- The call that a request makes: there is none without a procedure of a name that
converts, or where `fromBinary` does not return. -/
def invoked (localProcedures : List (LocalProcedureSignature ω)) (procedureID : Nat)
    (message : Bytes) : Option (Nat × Bytes × VariantVector) :=
  localProcedures[procedureID]?.bind fun pProc =>
    if Converts host pProc.procedureName then
      match DataSignature.fromBinary host pProc.args message
        (List.replicate pProc.args.length .default) with
      | .returns decoded => some (procedureID, message, decoded.args)
      | .rejects | .throws | .undefined => none
    else none

theorem invoked_converts {localProcedures : List (LocalProcedureSignature ω)}
    {procedureID : Nat} {message : Bytes} {call : Nat × Bytes × VariantVector}
    (hinvoked : invoked host localProcedures procedureID message = some call) :
    ∃ pProc, localProcedures[call.1]? = some pProc ∧ Converts host pProc.procedureName := by
  obtain ⟨pProc, hproc, hcall⟩ := Option.bind_eq_some_iff.mp hinvoked
  by_cases hname : Converts host pProc.procedureName
  · rw [if_pos hname] at hcall
    split at hcall
    · cases hcall
      exact ⟨pProc, hproc, hname⟩
    all_goals cases hcall
  · rw [if_neg hname] at hcall
    cases hcall

theorem call_records (server : RpcServer ω) (message : Bytes) :
    server.Ran (server.call host message).parser
      (invoked host server.localProcedures server.procedureID.toNat message).toList := by
  unfold call invoked
  cases hproc : server.localProcedures[server.procedureID.toNat]? with
  | none => exact .nothing server
  | some pProc =>
      simp only [Option.bind_some]
      by_cases hname : Converts host pProc.procedureName
      · obtain ⟨name, hreturns⟩ := hname.returns
        rw [hreturns, if_pos hname, Parsed.after_returns]
        cases hdecoded : DataSignature.fromBinary host pProc.args message
            (List.replicate pProc.args.length .default) with
        | returns decoded => exact invoke_records server pProc message decoded.args
        | rejects | throws | undefined => exact .nothing server
      · rw [throws_of_not_converts hname, if_neg hname]
        exact .nothing server

theorem callThenHeader_records (server : RpcServer ω) (message : Bytes) :
    server.Ran (server.callThenHeader host message).parser
      (invoked host server.localProcedures server.procedureID.toNat message).toList := by
  have hcall := @call_records _ host server message
  unfold callThenHeader
  cases hcalled : server.call host message with
  | returns result =>
      obtain ⟨success, called⟩ := result
      rw [hcalled] at hcall
      cases success <;> exact hcall
  | dies left =>
      rw [hcalled] at hcall
      exact hcall

def invocation (host : Platform) (server : RpcServer ω) (message : Bytes) :
    Option (Nat × Bytes × VariantVector) :=
  (server.requested host message).bind fun request =>
    invoked host request.1.localProcedures request.1.procedureID.toNat request.2

theorem requested_localProcedures {server : RpcServer ω} {message : Bytes}
    {request : RpcServer ω × Bytes} (hrequest : server.requested host message = some request) :
    request.1.localProcedures = server.localProcedures := by
  unfold requested at hrequest
  split at hrequest
  · split at hrequest
    · split at hrequest
      · cases hrequest
      · cases hrequest
        rfl
    all_goals cases hrequest
  · split at hrequest
    · cases hrequest
      rfl
    · cases hrequest

theorem parseMessage_records (server : RpcServer ω) (message : Bytes) :
    server.Ran (server.parseMessage host message).parser
      (invocation host server message).toList := by
  unfold parseMessage invocation requested
  by_cases hheader : server.sectionID = 0
  · rw [if_pos hheader, if_pos hheader]
    cases hread : readHeader host message with
    | returns mVal =>
        rw [Parsed.after_returns]
        simp only
        split
        · exact .nothing server
        · rename_i hempty
          rw [Option.bind_some]
          exact callThenHeader_records _ []
    | rejects | throws | undefined => exact .nothing server
  · rw [if_neg hheader, if_neg hheader]
    split
    · exact callThenHeader_records server message
    · exact .nothing server

def CalledByName (host : Platform) (localProcedures : List (LocalProcedureSignature ω))
    (server : RpcServer ω) : Prop :=
  server.localProcedures = localProcedures ∧ ∀ call ∈ server.invocations,
    ∃ pProc, localProcedures[call.1]? = some pProc ∧ Converts host pProc.procedureName

theorem parseMessage_byName {localProcedures : List (LocalProcedureSignature ω)}
    {server : RpcServer ω} {message : Bytes}
    (hnamed : CalledByName host localProcedures server) :
    CalledByName host localProcedures (server.parseMessage host message).parser := by
  obtain ⟨hprocedures, hcalls⟩ := hnamed
  obtain ⟨hrecord, hkept⟩ := @parseMessage_records _ host server message
  refine ⟨hkept.trans hprocedures, ?_⟩
  rw [hrecord]
  refine List.forall_mem_append.mpr ⟨hcalls, fun call hmem => ?_⟩
  obtain ⟨request, hrequest, hinvoked⟩ := Option.bind_eq_some_iff.mp (Option.mem_toList.mp hmem)
  have hsame : request.1.localProcedures = server.localProcedures :=
    requested_localProcedures hrequest
  rw [hsame, hprocedures] at hinvoked
  exact invoked_converts hinvoked

variable (ω host) in
theorem records : Records (methods (ω := ω) host) invocations (invocation host) where
  parses server piece := (parseMessage_records server piece).1
  writes := by
    intro server message success reply next hwrite
    simp only [methods, Option.some.injEq, Prod.mk.injEq] at hwrite
    rw [hwrite.2.2]

theorem parseMessage_localProcedures {server next : RpcServer ω} {message : Bytes}
    {success : Bool}
    (hparse : server.parseMessage host message = .returns (success, next)) :
    next.localProcedures = server.localProcedures := by
  have hkept := (@parseMessage_records _ host server message).2
  rwa [hparse] at hkept

def Serving (localProcedures : List (LocalProcedureSignature ω)) (server : RpcServer ω) :
    Prop :=
  server.Framed ∧ server.localProcedures = localProcedures

theorem serving_sectional (host : Platform)
    (localProcedures : List (LocalProcedureSignature ω)) :
    Sectional (methods (ω := ω) host) (Serving localProcedures) where
  positive := fun _ hserving => hserving.1.positive
  parses := fun _ _ _ hserving hparse =>
    ⟨parseMessage_framed hparse, (parseMessage_localProcedures hparse).trans hserving.2⟩
  writes := by
    intro server message reply next hserving hwrite
    simp only [methods, Option.some.injEq, Prod.mk.injEq] at hwrite
    exact hwrite.2.2 ▸ hserving

theorem invocation_eq {localProcedures : List (LocalProcedureSignature ω)}
    {server : RpcServer ω} {message : Bytes} (hserving : Serving localProcedures server) :
    server.invocation host message =
      ((reader host).observed server message).bind fun frame =>
        invoked host localProcedures frame.high frame.body := by
  obtain ⟨-, rfl⟩ := hserving
  cases hrequest : server.requested host message with
  | none => simp [invocation, reader, hrequest]
  | some request => simp [invocation, reader, hrequest, requested_localProcedures hrequest]

variable (host)

/-- The body of the frame decodes, if there is a procedure to decode it for, of a name
that converts, and `fromBinary` returns at all. -/
def Decodes (localProcedures : List (LocalProcedureSignature ω)) (frame : Frame) : Prop :=
  ∀ pProc, localProcedures[frame.high]? = some pProc → Converts host pProc.procedureName →
    ∀ decoded, DataSignature.fromBinary host pProc.args frame.body
        (List.replicate pProc.args.length .default) = .returns decoded →
      decoded.success = true

def CalledWithDecoded (localProcedures : List (LocalProcedureSignature ω))
    (call : Nat × Bytes × VariantVector) : Prop :=
  ∃ pProc messageOffset, localProcedures[call.1]? = some pProc ∧
    DataSignature.fromBinary host pProc.args call.2.1
      (List.replicate pProc.args.length .default) = .returns ⟨true, messageOffset, call.2.2⟩

variable {host}

theorem invoked_decoded_iff {localProcedures : List (LocalProcedureSignature ω)}
    {frame : Frame} :
    (∀ call, invoked host localProcedures frame.high frame.body = some call →
        CalledWithDecoded host localProcedures call) ↔
      Decodes host localProcedures frame := by
  cases hproc : localProcedures[frame.high]? with
  | none => simp [invoked, Decodes, hproc]
  | some pProc =>
      by_cases hname : Converts host pProc.procedureName
      · cases hdecoded : DataSignature.fromBinary host pProc.args frame.body
            (List.replicate pProc.args.length .default) with
        | returns decoded =>
            obtain ⟨success, messageOffset, args⟩ := decoded
            simp [invoked, Decodes, CalledWithDecoded, hproc, hname, hdecoded]
        | rejects | throws | undefined => simp [invoked, Decodes, hproc, hname, hdecoded]
      · simp [invoked, Decodes, hproc, hname]

/-- The frames a server handles, up to the first it refuses or does not answer. -/
def Handled (host : Platform) (writeOk : List Bytes → Bytes → Bool)
    (localProcedures : List (LocalProcedureSignature ω)) (world : ω) (bytes : Bytes)
    (frames : List Frame) : Prop :=
  ∃ visited final, Frame.Runs ((answers host).replying writeOk).handle
      (new localProcedures world, []) bytes visited final ∧
    frames = visited.map Prod.snd

theorem only_decoded_iff (writeOk : List Bytes → Bytes → Bool)
    (localProcedures : List (LocalProcedureSignature ω)) (world : ω) {chunks : List Bytes}
    (hchunks : ∀ chunk ∈ chunks, chunk.length ≤ readBufferSize) :
    ∃ frames, Handled host writeOk localProcedures world chunks.flatten frames ∧
      (Machine.Always (dataFlow (methods host) writeOk)
          (fun mm => ∀ call ∈ mm.parser.invocations,
            CalledWithDecoded host localProcedures call)
          (init (methods host) (new localProcedures world) chunks) ↔
        ∀ frame ∈ frames, Decodes host localProcedures frame) := by
  obtain ⟨visited, final, hruns⟩ := Frame.Runs.exists
    ((answers host).replying writeOk).handle (new localProcedures world, []) chunks.flatten
  refine ⟨_, ⟨visited, final, hruns, rfl⟩, ?_⟩
  have hcalls := dataFlow_calls_iff (serving_sectional host localProcedures) (answers host)
    ⟨sectionFramed_header, rfl⟩ rfl hchunks hruns (records ω host) rfl
    (fun _ _ hserving _ => invocation_eq hserving)
    (CalledWithDecoded host localProcedures)
  refine hcalls.trans ?_
  rw [List.forall_mem_map]
  exact forall₂_congr fun frame _ => invoked_decoded_iff

end RpcServer

namespace DataSubscriber

variable {host : Platform} {signature : DataSignature} {hasCallback : Bool}

theorem callback_records (subscriber : DataSubscriber) (message : Bytes)
    (args : VariantVector) :
    (subscriber.callback message args).invocations = subscriber.invocations ++
        (if subscriber.callbackFunction then [(message, args)] else []) ∧
      (subscriber.callback message args).mSignature = subscriber.mSignature ∧
      (subscriber.callback message args).callbackFunction = subscriber.callbackFunction := by
  unfold callback
  split <;> simp

variable (host) in
def invocation (subscriber : DataSubscriber) (message : Bytes) :
    Option (Bytes × VariantVector) :=
  if !subscriber.callbackFunction then none
  else if subscriber.sectionID = 0 then
    (subscriber.published host message).bind fun _ =>
      if subscriber.mSignature.length > 0 then none else some ([], [])
  else if subscriber.sectionID = 1 then
    match DataSignature.fromBinary host subscriber.mSignature message [] with
    | .returns decoded => some (message, decoded.args)
    | .rejects | .throws | .undefined => none
  else none

private theorem toList_called {hasCallback : Bool} (call : Bytes × VariantVector) :
    (if hasCallback = true then [call] else []) =
      (if (!hasCallback) = true then none else some call).toList := by
  cases hasCallback <;> rfl

private theorem toList_uncalled (hasCallback : Bool) :
    (if (!hasCallback) = true then none else
      (none : Option (Bytes × VariantVector))).toList = [] := by
  cases hasCallback <;> rfl

theorem parseMessage_records (subscriber : DataSubscriber) (message : Bytes) :
    (subscriber.parseMessage host message).parser.invocations =
        subscriber.invocations ++ (subscriber.invocation host message).toList ∧
      (subscriber.parseMessage host message).parser.mSignature = subscriber.mSignature ∧
      (subscriber.parseMessage host message).parser.callbackFunction =
        subscriber.callbackFunction := by
  unfold parseMessage invocation
  by_cases hheader : subscriber.sectionID = 0
  · rw [if_pos hheader, if_pos hheader, parseHeader, published, if_pos hheader]
    cases hread : readHeader host message with
    | returns mVal =>
        rw [Parsed.after_returns]
        simp only
        split
        · rw [Option.bind_none, toList_uncalled, List.append_nil]
          exact ⟨rfl, rfl, rfl⟩
        · rw [Option.bind_some]
          split
          · rw [toList_uncalled, List.append_nil]
            exact ⟨rfl, rfl, rfl⟩
          · rw [← toList_called]
            exact callback_records { subscriber with sectionLen := mVal % 16777216 } [] []
    | rejects | throws | undefined =>
        rw [Option.bind_none, toList_uncalled, List.append_nil]
        exact ⟨rfl, rfl, rfl⟩
  · rw [if_neg hheader, if_neg hheader]
    by_cases hbody : subscriber.sectionID = 1
    · rw [if_pos hbody, if_pos hbody, parseBody]
      cases hdecoded : DataSignature.fromBinary host subscriber.mSignature message [] with
      | returns decoded =>
          rw [Parsed.after_returns]
          simp only
          rw [← toList_called]
          split <;> exact callback_records subscriber message decoded.args
      | rejects | throws | undefined =>
          simp only
          rw [toList_uncalled, List.append_nil]
          exact ⟨rfl, rfl, rfl⟩
    · rw [if_neg hbody, if_neg hbody, toList_uncalled, List.append_nil]
      exact ⟨rfl, rfl, rfl⟩

variable (host) in
theorem records : Records (methods host) invocations (invocation host) where
  parses subscriber piece := (parseMessage_records subscriber piece).1
  writes := by
    intro subscriber message success reply next hwrite
    simp only [methods, Option.some.injEq, Prod.mk.injEq] at hwrite
    rw [hwrite.2.2]

def Subscribed (signature : DataSignature) (hasCallback : Bool)
    (subscriber : DataSubscriber) : Prop :=
  subscriber.Framed ∧ subscriber.mSignature = signature ∧
    subscriber.callbackFunction = hasCallback

theorem subscribed_sectional (host : Platform) (signature : DataSignature)
    (hasCallback : Bool) :
    Sectional (methods host) (Subscribed signature hasCallback) where
  positive := fun _ hsubscribed => hsubscribed.1.positive
  parses := by
    intro subscriber piece next hsubscribed hparse
    obtain ⟨-, hsame, hkept⟩ := @parseMessage_records host subscriber piece
    change subscriber.parseMessage host piece = _ at hparse
    rw [hparse] at hsame hkept
    exact ⟨parseMessage_framed hparse, hsame.trans hsubscribed.2.1,
      hkept.trans hsubscribed.2.2⟩
  writes := by
    intro subscriber message reply next hsubscribed hwrite
    simp only [methods, Option.some.injEq, Prod.mk.injEq] at hwrite
    exact hwrite.2.2 ▸ hsubscribed

variable (host) in
def delivered (signature : DataSignature) (hasCallback : Bool) (body : Bytes) :
    Option (Bytes × VariantVector) :=
  if !hasCallback then none
  else if body.length = 0 then
    if signature.length > 0 then none else some ([], [])
  else
    match DataSignature.fromBinary host signature body [] with
    | .returns decoded => some (body, decoded.args)
    | .rejects | .throws | .undefined => none

theorem invocation_eq {subscriber : DataSubscriber} {message : Bytes}
    (hsubscribed : Subscribed signature hasCallback subscriber)
    (hlength : message.length = subscriber.sectionLen.toNat) :
    subscriber.invocation host message =
      ((reader host).observed subscriber message).bind fun body =>
        delivered host signature hasCallback body := by
  obtain ⟨hframed, rfl, rfl⟩ := hsubscribed
  change _ = (subscriber.published host message).bind _
  unfold invocation delivered
  cases hcallback : subscriber.callbackFunction with
  | false => cases subscriber.published host message <;> rfl
  | true =>
      rcases hframed with ⟨hsection, -⟩ | ⟨hsection, hpositive, -⟩
      · have hbody : ∀ body, subscriber.published host message = some body → body = [] := by
          intro body hpublished
          unfold published at hpublished
          rw [if_pos hsection] at hpublished
          split at hpublished
          · split at hpublished <;> cases hpublished
            rfl
          all_goals cases hpublished
        rw [if_neg (by simp), if_pos hsection]
        refine Option.bind_congr fun body hpublished => ?_
        rw [hbody body hpublished]
        simp
      · have hother : ¬ subscriber.sectionID = 0 := by
          rw [hsection]
          decide
        rw [if_neg (by simp), if_neg hother, if_pos hsection, published, if_neg hother,
          if_pos hsection, Option.bind_some, if_neg (by simp)]
        exact (if_neg (by omega)).symm

variable (host) in
def Decodes (signature : DataSignature) (body : Bytes) : Prop :=
  body.length ≠ 0 → ∀ decoded,
    DataSignature.fromBinary host signature body [] = .returns decoded →
    decoded.success = true

variable (host) in
def CalledWithDecoded (signature : DataSignature) (call : Bytes × VariantVector) : Prop :=
  ∃ messageOffset, DataSignature.fromBinary host signature call.1 [] =
    .returns ⟨true, messageOffset, call.2⟩

theorem delivered_decoded_iff {body : Bytes} :
    (∀ call, delivered host signature hasCallback body = some call →
        CalledWithDecoded host signature call) ↔
      (hasCallback = true → Decodes host signature body) := by
  cases hasCallback with
  | false => simp [delivered]
  | true =>
      by_cases hempty : body.length = 0
      · by_cases hsignature : signature.length > 0
        · simp [delivered, Decodes, hempty, hsignature]
        · obtain rfl := List.length_eq_zero_iff.mp (Nat.eq_zero_of_not_pos hsignature)
          have hdecoded : CalledWithDecoded host [] ([], []) := ⟨0, rfl⟩
          simpa [delivered, Decodes, hempty] using hdecoded
      · cases hdecoded : DataSignature.fromBinary host signature body [] with
        | returns decoded =>
            obtain ⟨success, messageOffset, args⟩ := decoded
            simp [delivered, Decodes, CalledWithDecoded, hempty, hdecoded]
        | rejects | throws | undefined => simp [delivered, Decodes, hempty, hdecoded]

/-- The bodies a subscriber handles, up to the first it refuses. -/
def Handled (host : Platform) (writeOk : List Bytes → Bytes → Bool)
    (signature : DataSignature) (hasCallback : Bool) (bytes : Bytes) (bodies : List Bytes) :
    Prop :=
  ∃ visited final, Frame.Runs ((answers host).replying writeOk).handle
      (new signature hasCallback, []) bytes visited final ∧
    bodies = visited.map fun visit => visit.2.body

theorem only_decoded_iff (writeOk : List Bytes → Bytes → Bool) (signature : DataSignature)
    (hasCallback : Bool) {chunks : List Bytes}
    (hchunks : ∀ chunk ∈ chunks, chunk.length ≤ readBufferSize) :
    ∃ bodies, Handled host writeOk signature hasCallback chunks.flatten bodies ∧
      (Machine.Always (dataFlow (methods host) writeOk)
          (fun mm => ∀ call ∈ mm.parser.invocations, CalledWithDecoded host signature call)
          (init (methods host) (new signature hasCallback) chunks) ↔
        ∀ body ∈ bodies, hasCallback = true → Decodes host signature body) := by
  obtain ⟨visited, final, hruns⟩ := Frame.Runs.exists
    ((answers host).replying writeOk).handle (new signature hasCallback, []) chunks.flatten
  refine ⟨_, ⟨visited, final, hruns, rfl⟩, ?_⟩
  have hcalls := dataFlow_calls_iff (subscribed_sectional host signature hasCallback)
    (answers host) ⟨RpcServer.sectionFramed_header, rfl, rfl⟩ rfl hchunks hruns
    (records host) rfl (fun _ _ hsubscribed hlength => invocation_eq hsubscribed hlength)
    (CalledWithDecoded host signature)
  refine hcalls.trans ?_
  rw [List.forall_mem_map]
  exact forall₂_congr fun frame _ => delivered_decoded_iff

end DataSubscriber

/-- In every run user code is called with decoded values only, exactly when the body of
every frame handled decodes. -/
theorem calls_only_decoded_iff (host : Platform) (writeOk : List Bytes → Bytes → Bool)
    {chunks : List Bytes} (hchunks : ∀ chunk ∈ chunks, chunk.length ≤ readBufferSize) :
    (∀ (ω : Type) (localProcedures : List (LocalProcedureSignature ω)) (world : ω),
      ∃ frames, RpcServer.Handled host writeOk localProcedures world chunks.flatten frames ∧
        (Machine.Always (dataFlow (RpcServer.methods host) writeOk)
            (fun mm => ∀ call ∈ mm.parser.invocations,
              RpcServer.CalledWithDecoded host localProcedures call)
            (init (RpcServer.methods host) (RpcServer.new localProcedures world) chunks) ↔
          ∀ frame ∈ frames, RpcServer.Decodes host localProcedures frame)) ∧
    ∀ signature hasCallback,
      ∃ bodies, DataSubscriber.Handled host writeOk signature hasCallback chunks.flatten
          bodies ∧
        (Machine.Always (dataFlow (DataSubscriber.methods host) writeOk)
            (fun mm => ∀ call ∈ mm.parser.invocations,
              DataSubscriber.CalledWithDecoded host signature call)
            (init (DataSubscriber.methods host) (DataSubscriber.new signature hasCallback)
              chunks) ↔
          ∀ body ∈ bodies, hasCallback = true → DataSubscriber.Decodes host signature body) :=
  ⟨fun _ localProcedures world =>
      RpcServer.only_decoded_iff writeOk localProcedures world hchunks,
    fun signature hasCallback =>
      DataSubscriber.only_decoded_iff writeOk signature hasCallback hchunks⟩

theorem calls_only_decoded_iff_whole_frame :
    (∀ (ω : Type) (localProcedures : List (LocalProcedureSignature ω)) (world : ω),
      ∃ frames, RpcServer.Handled plainPlatform (fun _ _ => true) localProcedures world
          [[1, 0, 0, 0, 7]].flatten frames ∧
        (Machine.Always (dataFlow (RpcServer.methods plainPlatform) fun _ _ => true)
            (fun mm => ∀ call ∈ mm.parser.invocations,
              RpcServer.CalledWithDecoded plainPlatform localProcedures call)
            (init (RpcServer.methods plainPlatform) (RpcServer.new localProcedures world)
              [[1, 0, 0, 0, 7]]) ↔
          ∀ frame ∈ frames, RpcServer.Decodes plainPlatform localProcedures frame)) ∧
    ∀ signature hasCallback,
      ∃ bodies, DataSubscriber.Handled plainPlatform (fun _ _ => true) signature hasCallback
          [[1, 0, 0, 0, 7]].flatten bodies ∧
        (Machine.Always (dataFlow (DataSubscriber.methods plainPlatform) fun _ _ => true)
            (fun mm => ∀ call ∈ mm.parser.invocations,
              DataSubscriber.CalledWithDecoded plainPlatform signature call)
            (init (DataSubscriber.methods plainPlatform)
              (DataSubscriber.new signature hasCallback) [[1, 0, 0, 0, 7]]) ↔
          ∀ body ∈ bodies, hasCallback = true →
            DataSubscriber.Decodes plainPlatform signature body) :=
  calls_only_decoded_iff plainPlatform (fun _ _ => true) (by decide)

def takesNumber : LocalProcedureSignature Unit :=
  ⟨[], [DataType.u.char], [], fun world _ => (true, [], world)⟩

/-- It is called for a request without arguments, with the zero its vector was filled
with. -/
theorem calls_undecoded_default :
    ∃ call ∈ ((dataFlow (RpcServer.methods plainPlatform) fun _ _ => true)^[3]
        (init (RpcServer.methods plainPlatform) (RpcServer.new [takesNumber] ())
          [[0, 0, 0, 0]])).parser.invocations,
      call = (0, [], [.value (.int 0)]) ∧
        ¬ RpcServer.CalledWithDecoded plainPlatform [takesNumber] call := by
  refine ⟨_, List.mem_cons_self, rfl, ?_⟩
  rintro ⟨pProc, messageOffset, hproc, hdecoded⟩
  cases hproc
  cases hdecoded

end Rpcmple.Cpp
