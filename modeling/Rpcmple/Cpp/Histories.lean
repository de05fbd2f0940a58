import Rpcmple.Cpp.BufferReuse
import Rpcmple.Cpp.Replies

namespace Rpcmple.Cpp

open Data MessageManager

namespace RpcServer

variable {ω : Type} (host : Platform)

def after (localProcedures : List (LocalProcedureSignature ω)) (world : ω)
    (history : List Frame) : Option (RpcServer ω × List Bytes) :=
  history.foldlM (answer host) (new localProcedures world, [])

def results (localProcedures : List (LocalProcedureSignature ω)) (world : ω)
    (request : Frame) : Option (DataSignature × Bool × VariantVector) :=
  localProcedures[request.high]?.bind fun pProc =>
    if Converts host pProc.procedureName then
      match DataSignature.fromBinary host pProc.args request.body
        (List.replicate pProc.args.length .default) with
      | .returns decoded =>
          some (pProc.rets, (pProc.called world decoded.args).1,
            (pProc.called world decoded.args).2.1)
      | .rejects | .throws | .undefined => none
    else none

/-- A result that is not encoded, or that is encoded into an empty buffer inside its
bounds, or throws there. -/
def Accepts (result : DataSignature × Bool × VariantVector) : Prop :=
  result.2.1 = false ∨ result.2.2.length ≠ result.1.length ∨
    DataSignature.toBinary host result.1 result.2.2 [] = .crash ∨
      ∃ buffer, DataSignature.toBinary host result.1 result.2.2 [] = .next buffer ∧
        buffer.defined = true

variable {host}

def replied (result : Parsed (RpcServer ω)) : Option (Bool × Bytes) :=
  (accepted result).map fun server => (server.callSuccess, server.callReturnsSerialized)

theorem serialize_replied {signature : DataSignature} {rets : VariantVector}
    (hlength : rets.length = signature.length) (haccepts : Accepts host (signature, true, rets))
    {first second : RpcServer ω} (hflag : first.callSuccess = second.callSuccess) :
    replied (Parsed.after (first.serialize host signature rets) first fun server =>
        .returns (true, server)) =
      replied (Parsed.after (second.serialize host signature rets) second fun server =>
        .returns (true, server)) := by
  have hfirst := DataSignature.toBinary_reuses host signature rets first.callReturnsSerialized
  have hsecond := DataSignature.toBinary_reuses host signature rets
    second.callReturnsSerialized
  unfold serialize
  rcases haccepts with hfalse | hother | hcrash | ⟨buffer, hbuffer, hdefined⟩
  · cases hfalse
  · exact absurd hlength hother
  · rw [hcrash] at hfirst hsecond
    generalize DataSignature.toBinary host signature rets first.callReturnsSerialized =
      left at hfirst
    generalize DataSignature.toBinary host signature rets second.callReturnsSerialized =
      right at hsecond
    cases hfirst
    cases hsecond
    rfl
  · rw [hbuffer] at hfirst hsecond
    generalize DataSignature.toBinary host signature rets first.callReturnsSerialized =
      left at hfirst
    generalize DataSignature.toBinary host signature rets second.callReturnsSerialized =
      right at hsecond
    cases hfirst with
    | next hleft =>
        cases hsecond with
        | next hright =>
            obtain ⟨hleftDefined, hleftMessage⟩ := hleft hdefined
            obtain ⟨hrightDefined, hrightMessage⟩ := hright hdefined
            simp only [hleftDefined, hleftMessage, hrightDefined, hrightMessage, if_true]
            exact congrArg (fun flag => some (flag, buffer.message)) hflag

theorem call_replied {first second : RpcServer ω} {message : Bytes}
    (hprocedures : first.localProcedures = second.localProcedures)
    (hnumber : first.procedureID = second.procedureID)
    (hresults : results host first.localProcedures first.world
        ⟨first.procedureID.toNat, message⟩ =
      results host second.localProcedures second.world
        ⟨second.procedureID.toNat, message⟩)
    (haccepts : ∀ result ∈ results host first.localProcedures first.world
        ⟨first.procedureID.toNat, message⟩, Accepts host result) :
    replied (first.call host message) = replied (second.call host message) := by
  unfold results at hresults haccepts
  unfold call
  rw [← hprocedures, ← hnumber] at hresults ⊢
  cases hproc : first.localProcedures[first.procedureID.toNat]? with
  | none => rfl
  | some pProc =>
      simp only [hproc, Option.bind_some] at hresults haccepts ⊢
      by_cases hname : Converts host pProc.procedureName
      case neg =>
        rw [throws_of_not_converts hname]
        rfl
      obtain ⟨name, hreturns⟩ := hname.returns
      rw [if_pos hname] at hresults haccepts
      rw [if_pos hname] at hresults
      rw [hreturns, Parsed.after_returns, Parsed.after_returns]
      cases hdecoded : DataSignature.fromBinary host pProc.args message
          (List.replicate pProc.args.length .default) with
      | returns decoded =>
          simp only [hdecoded, Option.some.injEq, Prod.mk.injEq, true_and] at hresults
          simp only [hdecoded, Option.mem_some_iff, forall_eq'] at haccepts
          obtain ⟨hsuccess, hrets⟩ := hresults
          rw [Parsed.after_returns, Parsed.after_returns]
          unfold invoke
          rcases hfirst : pProc.called first.world decoded.args with ⟨success, rets, world⟩
          rcases hsecond : pProc.called second.world decoded.args with
            ⟨success', rets', world'⟩
          rw [hfirst, hsecond] at hsuccess hrets
          rw [hfirst] at haccepts
          simp only at hsuccess hrets haccepts ⊢
          subst hsuccess hrets
          cases success with
          | false =>
              simp only [hreturns]
              rfl
          | true =>
              by_cases hlength : rets.length = pProc.rets.length
              · simp only [Bool.not_true, Bool.false_eq_true, if_false, hlength, ne_eq,
                  not_true_eq_false]
                exact serialize_replied hlength haccepts rfl
              · simp only [Bool.not_true, Bool.false_eq_true, if_false, hlength, ne_eq,
                  not_false_eq_true, if_true]
                rfl
      | rejects | throws | undefined => rfl

theorem accepted_call (server : RpcServer ω) (message : Bytes) :
    accepted (server.callThenHeader host message) =
      (accepted (server.call host message)).map expectHeader := by
  unfold callThenHeader
  cases server.call host message with
  | returns result =>
      obtain ⟨success, next⟩ := result
      cases success <;> rfl
  | dies left => rfl

def sent (reply : Bool × Bytes) : Option (List Bytes) :=
  if reply.1 then some (if reply.2.isEmpty then [] else [reply.2]) else none

theorem answer_written (state : RpcServer ω × List Bytes) (frame : Frame) :
    (answer host state frame).map Prod.snd =
      ((accepted ((state.1.asked frame).call host frame.body)).bind fun next =>
        sent (reply host next)).map fun replies => state.2 ++ replies := by
  change Option.map Prod.snd ((accepted _).bind _) = _
  rw [accepted_call]
  cases accepted ((state.1.asked frame).call host frame.body) with
  | none => rfl
  | some next =>
      change Option.map Prod.snd (send takesAll
        ((reply host next).1, (reply host next).2, next.expectHeader) 0 state.2) = _
      rw [Option.bind_some]
      unfold send sent
      cases hokay : (reply host next).1 <;> cases hempty : (reply host next).2.isEmpty <;>
        simp [hempty, takesAll]

theorem reply_of_replied {first second : Option (RpcServer ω)}
    (hsame : first.map (fun server => (server.callSuccess, server.callReturnsSerialized)) =
      second.map fun server => (server.callSuccess, server.callReturnsSerialized)) :
    (first.bind fun next => sent (reply host next)) =
      second.bind fun next => sent (reply host next) := by
  have hreply : ∀ server : RpcServer ω, reply host server =
      if server.callReturnsSerialized.length > 16777216 then (false, [])
      else (true, headerBytes host (if server.callSuccess then 1 else 0)
        server.callReturnsSerialized.length ++ server.callReturnsSerialized) := fun _ => rfl
  cases first with
  | none =>
      cases second with
      | none => rfl
      | some right => cases hsame
  | some left =>
      cases second with
      | none => cases hsame
      | some right =>
          obtain ⟨hflag, hrets⟩ := Prod.mk.inj (Option.some.inj hsame)
          simp only [Option.bind_some, hreply, hflag, hrets]

theorem answer_forgets {first second : RpcServer ω × List Bytes} {request : Frame}
    (hfits : request.Fits)
    (hprocedures : first.1.localProcedures = second.1.localProcedures)
    (hresults : results host first.1.localProcedures first.1.world request =
      results host second.1.localProcedures second.1.world request)
    (haccepts : ∀ result ∈ results host first.1.localProcedures first.1.world request,
      Accepts host result) :
    ∃ replies : Option (List Bytes),
      (answer host first request).map Prod.snd = replies.map (first.2 ++ ·) ∧
      (answer host second request).map Prod.snd = replies.map (second.2 ++ ·) := by
  have hnumber : (UInt32.ofNat request.high).toNat = request.high :=
    toNat_size (hfits.1.trans (by omega))
  refine ⟨_, answer_written first request, ?_⟩
  rw [answer_written]
  congr 1
  refine reply_of_replied (call_replied hprocedures.symm rfl ?_ ?_)
  · change results host _ _ ⟨(UInt32.ofNat request.high).toNat, request.body⟩ =
      results host _ _ ⟨(UInt32.ofNat request.high).toNat, request.body⟩
    rw [hnumber]
    exact hresults.symm
  · change ∀ result ∈ results host _ _ ⟨(UInt32.ofNat request.high).toNat, request.body⟩, _
    rw [hnumber]
    exact hresults ▸ haccepts

theorem runs_after {localProcedures : List (LocalProcedureSignature ω)} {world : ω}
    {history : List Frame} {request : Frame} {state : RpcServer ω × List Bytes}
    (hfits : ∀ frame ∈ history ++ [request], frame.Fits)
    (hafter : after host localProcedures world history = some state) :
    ∃ visited final, Frame.Runs (answer host) (new localProcedures world, [])
        ((history ++ [request]).flatMap Frame.bytes) visited final ∧
      some final.2 = ((answer host state request).map Prod.snd <|> some state.2) := by
  rw [List.forall_mem_append, List.forall_mem_singleton] at hfits
  obtain ⟨hhistory, hrequest⟩ := hfits
  have hshort : Frame.split? [] = none := rfl
  rw [List.flatMap_append, List.flatMap_singleton, ← List.append_nil request.bytes]
  cases hanswer : answer host state request with
  | none =>
      have hlast : Frame.Runs (answer host) state (request.bytes ++ []) _ _ :=
        .last hrequest hanswer
      obtain ⟨visited, hruns⟩ := Frame.Runs.of_handled hhistory hafter hlast
      exact ⟨_, _, hruns, rfl⟩
  | some next =>
      obtain ⟨visited, hruns⟩ := Frame.Runs.of_handled hhistory hafter
        (.next hrequest hanswer (.short hshort))
      exact ⟨_, _, hruns, rfl⟩

theorem after_procedures {localProcedures : List (LocalProcedureSignature ω)}
    {history : List Frame} {state final : RpcServer ω × List Bytes}
    (hstate : state.1.localProcedures = localProcedures)
    (hhandled : history.foldlM (answer host) state = some final) :
    final.1.localProcedures = localProcedures := by
  induction history generalizing state with
  | nil =>
      obtain rfl := Option.some.inj hhandled
      exact hstate
  | cons frame history ih =>
      rw [List.foldlM_cons] at hhandled
      obtain ⟨⟨next, replies⟩, hanswer, hhistory⟩ := Option.bind_eq_some_iff.mp hhandled
      obtain ⟨hcalled, -⟩ := answer_eq_some.mp hanswer
      have hkept := (@callThenHeader_records _ host (state.1.asked frame) frame.body).2
      rw [hcalled] at hkept
      exact ih (hkept.trans hstate) hhistory

theorem dataFlow_after {localProcedures : List (LocalProcedureSignature ω)} {world : ω}
    {history : List Frame} {request : Frame} {state : RpcServer ω × List Bytes}
    (hfits : ∀ frame ∈ history ++ [request], frame.Fits)
    (hafter : after host localProcedures world history = some state)
    {chunks : List Bytes} (hchunks : ∀ chunk ∈ chunks, chunk.length ≤ readBufferSize)
    (hstream : chunks.flatten = (history ++ [request]).flatMap Frame.bytes) :
    ∃ n, Rests (methods host)
        ((dataFlow (methods host) takesAll)^[n]
          (init (methods host) (new localProcedures world) chunks)) ∧
      some ((dataFlow (methods host) takesAll)^[n]
          (init (methods host) (new localProcedures world) chunks)).written =
        ((answer host state request).map Prod.snd <|> some state.2) := by
  obtain ⟨visited, final, hruns, hfinal⟩ := runs_after hfits hafter
  rw [← hstream] at hruns
  obtain ⟨n, pieces, -, hrests, -, hwritten, -, -⟩ := dataFlow_frames
    (serving_sectional host localProcedures) (answers host)
    ⟨sectionFramed_header, rfl⟩ rfl hchunks hruns
  refine ⟨n, hrests, ?_⟩
  rw [← hfinal]
  exact congrArg some hwritten

end RpcServer

/-- Two servers with the same procedures, behind histories of requests they replied to, reply
to the next request with the same bytes, however the streams are cut, if its procedure
returns the same to both and the result is not turned down by the encoder. -/
theorem replies_forget_history {ω : Type} (host : Platform)
    (localProcedures : List (LocalProcedureSignature ω)) {request : Frame}
    {world other : ω} {history history' : List Frame}
    {server server' : RpcServer ω} {written written' : List Bytes}
    (hfits : ∀ frame ∈ history ++ [request], frame.Fits)
    (hfits' : ∀ frame ∈ history' ++ [request], frame.Fits)
    (hafter : RpcServer.after host localProcedures world history = some (server, written))
    (hafter' : RpcServer.after host localProcedures other history' =
      some (server', written'))
    (hresults : RpcServer.results host localProcedures server.world request =
      RpcServer.results host localProcedures server'.world request)
    (haccepts : ∀ result ∈ RpcServer.results host localProcedures server.world request,
      RpcServer.Accepts host result)
    {chunks chunks' : List Bytes} (hchunks : ∀ chunk ∈ chunks, chunk.length ≤ readBufferSize)
    (hchunks' : ∀ chunk ∈ chunks', chunk.length ≤ readBufferSize)
    (hstream : chunks.flatten = (history ++ [request]).flatMap Frame.bytes)
    (hstream' : chunks'.flatten = (history' ++ [request]).flatMap Frame.bytes) :
    ∃ n n' replies,
      Rests (RpcServer.methods host)
        ((dataFlow (RpcServer.methods host) RpcServer.takesAll)^[n]
          (init (RpcServer.methods host) (RpcServer.new localProcedures world) chunks)) ∧
      Rests (RpcServer.methods host)
        ((dataFlow (RpcServer.methods host) RpcServer.takesAll)^[n']
          (init (RpcServer.methods host) (RpcServer.new localProcedures other) chunks')) ∧
      ((dataFlow (RpcServer.methods host) RpcServer.takesAll)^[n]
        (init (RpcServer.methods host) (RpcServer.new localProcedures world)
          chunks)).written = written ++ replies ∧
      ((dataFlow (RpcServer.methods host) RpcServer.takesAll)^[n']
        (init (RpcServer.methods host) (RpcServer.new localProcedures other)
          chunks')).written = written' ++ replies := by
  obtain ⟨n, hrests, hwritten⟩ := RpcServer.dataFlow_after hfits hafter hchunks hstream
  obtain ⟨n', hrests', hwritten'⟩ := RpcServer.dataFlow_after hfits' hafter' hchunks' hstream'
  have hprocedures := @RpcServer.after_procedures _ host localProcedures _ _ _ rfl hafter
  have hprocedures' := @RpcServer.after_procedures _ host localProcedures _ _ _ rfl hafter'
  simp only at hprocedures hprocedures'
  have hrequest : request.Fits := hfits request (by simp)
  obtain ⟨replies, hreplies, hreplies'⟩ := @RpcServer.answer_forgets _ host
    (server, written) (server', written') request hrequest
    (hprocedures.trans hprocedures'.symm)
    (by simp only [hprocedures, hprocedures', hresults])
    (by simpa only [hprocedures] using haccepts)
  rw [hreplies] at hwritten
  rw [hreplies'] at hwritten'
  refine ⟨n, n', replies.getD [], hrests, hrests', ?_, ?_⟩
  · cases replies with
    | none => simpa using hwritten
    | some replies => simpa using hwritten
  · cases replies with
    | none => simpa using hwritten'
    | some replies => simpa using hwritten'

def spells : LocalProcedureSignature Unit where
  procedureName := [115, 112, 101, 108, 108]
  args := [DataType.u.char]
  rets := [DataType.s.char]
  called world args :=
    match args with
    | [.value (.uint count)] => (true, [.value (.string (List.replicate count.toNat 65))], world)
    | _ => (true, [.default], world)

theorem replies_forget_history_spells :
    ∃ n n' replies,
      Rests (RpcServer.methods plainPlatform)
        ((dataFlow (RpcServer.methods plainPlatform) RpcServer.takesAll)^[n]
          (init (RpcServer.methods plainPlatform) (RpcServer.new [spells] ())
            [Frame.bytes ⟨0, [2, 0, 0, 0, 0, 0, 0, 0]⟩])) ∧
      Rests (RpcServer.methods plainPlatform)
        ((dataFlow (RpcServer.methods plainPlatform) RpcServer.takesAll)^[n']
          (init (RpcServer.methods plainPlatform) (RpcServer.new [spells] ())
            [Frame.bytes ⟨0, [3, 0, 0, 0, 0, 0, 0, 0]⟩,
              Frame.bytes ⟨0, [2, 0, 0, 0, 0, 0, 0, 0]⟩])) ∧
      ((dataFlow (RpcServer.methods plainPlatform) RpcServer.takesAll)^[n]
        (init (RpcServer.methods plainPlatform) (RpcServer.new [spells] ())
          [Frame.bytes ⟨0, [2, 0, 0, 0, 0, 0, 0, 0]⟩])).written = [] ++ replies ∧
      ((dataFlow (RpcServer.methods plainPlatform) RpcServer.takesAll)^[n']
        (init (RpcServer.methods plainPlatform) (RpcServer.new [spells] ())
          [Frame.bytes ⟨0, [3, 0, 0, 0, 0, 0, 0, 0]⟩,
            Frame.bytes ⟨0, [2, 0, 0, 0, 0, 0, 0, 0]⟩])).written =
          [[5, 0, 0, 1, 3, 0, 65, 65, 65]] ++ replies := by
  refine @replies_forget_history Unit plainPlatform [spells]
    ⟨0, [2, 0, 0, 0, 0, 0, 0, 0]⟩ () () [] [⟨0, [3, 0, 0, 0, 0, 0, 0, 0]⟩] _ _ _ _ (by decide)
    (by decide) rfl rfl rfl ?_ _ _ (by decide) (by decide) rfl rfl
  rintro result ⟨⟩
  exact Or.inr (Or.inr (Or.inr ⟨_, rfl, rfl⟩))

def saysText : LocalProcedureSignature Unit :=
  ⟨[], [], [DataType.s.char], fun world _ => (true, [.value (.string [65])], world)⟩

def mistypes : LocalProcedureSignature Unit :=
  ⟨[], [], [DataType.u.char], fun world _ => (true, [.value (.string [66])], world)⟩

/-- The reply to the second procedure is empty, or what the first one replied before. -/
theorem reply_shows_earlier :
    RpcServer.results plainPlatform [saysText, mistypes] () ⟨1, []⟩ =
        some ([DataType.u.char], true, [.value (.string [66])]) ∧
      Rests (RpcServer.methods plainPlatform)
        ((dataFlow (RpcServer.methods plainPlatform) RpcServer.takesAll)^[7]
          (init (RpcServer.methods plainPlatform) (RpcServer.new [saysText, mistypes] ())
            [Frame.bytes ⟨1, []⟩])) ∧
      Rests (RpcServer.methods plainPlatform)
        ((dataFlow (RpcServer.methods plainPlatform) RpcServer.takesAll)^[11]
          (init (RpcServer.methods plainPlatform) (RpcServer.new [saysText, mistypes] ())
            [Frame.bytes ⟨0, []⟩, Frame.bytes ⟨1, []⟩])) ∧
      ((dataFlow (RpcServer.methods plainPlatform) RpcServer.takesAll)^[7]
        (init (RpcServer.methods plainPlatform) (RpcServer.new [saysText, mistypes] ())
          [Frame.bytes ⟨1, []⟩])).written = [[0, 0, 0, 1]] ∧
      ((dataFlow (RpcServer.methods plainPlatform) RpcServer.takesAll)^[11]
        (init (RpcServer.methods plainPlatform) (RpcServer.new [saysText, mistypes] ())
          [Frame.bytes ⟨0, []⟩, Frame.bytes ⟨1, []⟩])).written =
        [[3, 0, 0, 1, 1, 0, 65], [3, 0, 0, 1, 1, 0, 65]] :=
  ⟨rfl, Or.inl rfl, Or.inl rfl, rfl, rfl⟩

end Rpcmple.Cpp
