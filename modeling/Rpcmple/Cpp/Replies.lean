import Rpcmple.Cpp.Invocations
import Rpcmple.Cpp.ToBinary

namespace Rpcmple.Cpp

open Data MessageManager

theorem headerBytes_eq (host : Platform) (high : UInt32) (size : Nat) :
    headerBytes host high size = Frame.header high.toNat size := by
  rw [headerBytes, uint32ToBytes_true, Frame.header, ← leBytes_mod 4 (high.toNat * _ + size)]
  congr 1
  rw [UInt32.toNat_add, UInt32.toNat_mul, UInt32.toNat_ofNat']
  change (high.toNat * 16777216 % 2 ^ 32 + size % 2 ^ 32) % 2 ^ 32 = _
  omega

namespace RpcServer

variable {ω : Type} (host : Platform)

def Requests (localProcedures : List (LocalProcedureSignature ω)) (frame : Frame)
    (pProc : LocalProcedureSignature ω) (args : VariantVector) : Prop :=
  localProcedures[frame.high]? = some pProc ∧ ∃ messageOffset,
    DataSignature.fromBinary host pProc.args frame.body
      (List.replicate pProc.args.length .default) = .returns ⟨true, messageOffset, args⟩

def Encodes (signature : DataSignature) (result : Bool × VariantVector × ω)
    (values : List Value) : Prop :=
  result.1 = true ∧ result.2.1.length = signature.length ∧
    DataSignature.Represents host signature result.2.1 values ∧ ∀ value ∈ values, value.Fits

/-- The reply is one frame: the encoded returns with the flag set, or no returns and
the flag clear. -/
def Truthful (signature : DataSignature) (result : Bool × VariantVector × ω)
    (reply : Bytes) : Prop :=
  (∃ values, Encodes host signature result values ∧
      Frame.split? reply = some (⟨1, (bodyFormat signature).emit values⟩, [])) ∨
    ((∀ values, ¬ Encodes host signature result values) ∧
      Frame.split? reply = some (⟨0, []⟩, []))

/-- One truthful reply for each request, in order, as one request is handled after the
other. -/
inductive AllTruthful (localProcedures : List (LocalProcedureSignature ω)) :
    ω → List Frame → List Bytes → Prop where
  | nil (world : ω) : AllTruthful localProcedures world [] []
  | cons {world : ω} {frame : Frame} {frames : List Frame} {reply : Bytes}
      {replies : List Bytes} {pProc : LocalProcedureSignature ω} {args : VariantVector} :
      Requests host localProcedures frame pProc args →
      Truthful host pProc.rets (pProc.called world args) reply →
      AllTruthful localProcedures (pProc.called world args).2.2 frames replies →
      AllTruthful localProcedures world (frame :: frames) (reply :: replies)

/-- Every procedure has a name that converts and, called for one request after the other,
returns true and values with an encoding below the limit. -/
inductive AllSucceed (localProcedures : List (LocalProcedureSignature ω)) :
    ω → List Frame → Prop where
  | nil (world : ω) : AllSucceed localProcedures world []
  | cons {world : ω} {frame : Frame} {frames : List Frame}
      {pProc : LocalProcedureSignature ω} {args : VariantVector} {values : List Value} :
      Requests host localProcedures frame pProc args →
      Converts host pProc.procedureName →
      Encodes host pProc.rets (pProc.called world args) values →
      ((bodyFormat pProc.rets).emit values).length < 16777216 →
      AllSucceed localProcedures (pProc.called world args).2.2 frames →
      AllSucceed localProcedures world (frame :: frames)

variable {host} {localProcedures : List (LocalProcedureSignature ω)}

theorem Requests.unique {frame : Frame} {first second : LocalProcedureSignature ω}
    {args other : VariantVector} (hfirst : Requests host localProcedures frame first args)
    (hsecond : Requests host localProcedures frame second other) :
    first = second ∧ args = other := by
  obtain ⟨hproc, messageOffset, hdecoded⟩ := hfirst
  obtain ⟨hproc', messageOffset', hdecoded'⟩ := hsecond
  cases hproc.symm.trans hproc'
  cases hdecoded.symm.trans hdecoded'
  exact ⟨rfl, rfl⟩

theorem Encodes.message {signature : DataSignature} {success : Bool} {rets : VariantVector}
    {world : ω} {values : List Value}
    (hencodes : Encodes host signature (success, rets, world) values) (message : Bytes) :
    DataSignature.toBinary host signature rets message =
      .next ⟨(bodyFormat signature).emit values,
        ((bodyFormat signature).emit values).length,
        decide (((bodyFormat signature).emit values).length < 2 ^ 31)⟩ :=
  DataSignature.toBinary_of_represents hencodes.2.2.1 hencodes.2.2.2 message

def afterCall (server : RpcServer ω) (message : Bytes) (args : VariantVector) (world : ω)
    (rets : Bytes) : RpcServer ω :=
  { server with
    world
    invocations := server.invocations ++ [(server.procedureID.toNat, message, args)]
    callSuccess := true
    callReturnsSerialized := rets }

theorem calls_afterCall (server : RpcServer ω) (message : Bytes) (args : VariantVector)
    (world : ω) (rets : Bytes) :
    (server.afterCall message args world rets).calls =
      server.calls ++ [(server.procedureID.toNat, args)] := by
  simp [calls, afterCall]

theorem call_of_requests {server : RpcServer ω} {message : Bytes}
    {pProc : LocalProcedureSignature ω} {args : VariantVector}
    (hrequests : Requests host server.localProcedures ⟨server.procedureID.toNat, message⟩
      pProc args)
    (hname : Converts host pProc.procedureName) :
    server.call host message = server.invoke host pProc message args := by
  obtain ⟨hproc, messageOffset, hdecoded⟩ := hrequests
  obtain ⟨name, hreturns⟩ := hname.returns
  simp only at hproc hdecoded
  rw [call, hproc]
  simp only [hreturns, hdecoded, Parsed.after_returns]

theorem call_of_not_converts {server : RpcServer ω} {pProc : LocalProcedureSignature ω}
    (hproc : server.localProcedures[server.procedureID.toNat]? = some pProc)
    (hname : ¬ Converts host pProc.procedureName) (message : Bytes) :
    server.call host message = .dies server := by
  rw [call, hproc]
  simp only [throws_of_not_converts hname]
  rfl

theorem invoke_of_encodes {server : RpcServer ω} {pProc : LocalProcedureSignature ω}
    {args : VariantVector} {values : List Value} {message : Bytes}
    (hencodes : Encodes host pProc.rets (pProc.called server.world args) values)
    (hsize : ((bodyFormat pProc.rets).emit values).length < 2 ^ 31) :
    server.invoke host pProc message args =
      .returns (true, server.afterCall message args (pProc.called server.world args).2.2
        ((bodyFormat pProc.rets).emit values)) := by
  unfold invoke
  rcases hcalled : pProc.called server.world args with ⟨success, rets, world⟩
  rw [hcalled] at hencodes
  obtain rfl : success = true := hencodes.1
  have hlength : rets.length = pProc.rets.length := hencodes.2.1
  simp only [Bool.not_true, Bool.false_eq_true, if_false, hlength, ne_eq, not_true_eq_false,
    serialize, hencodes.message, hsize, decide_true, if_true, Parsed.after_returns]
  rfl

theorem invoke_eq_returns {server next : RpcServer ω} {pProc : LocalProcedureSignature ω}
    {args : VariantVector} {message : Bytes}
    (hinvoke : server.invoke host pProc message args = .returns (true, next)) :
    ∃ rets, next =
        server.afterCall message args (pProc.called server.world args).2.2 rets ∧
      ∀ values, Encodes host pProc.rets (pProc.called server.world args) values →
        rets = (bodyFormat pProc.rets).emit values := by
  unfold invoke at hinvoke
  rcases hcalled : pProc.called server.world args with ⟨success, rets, world⟩
  rw [hcalled] at hinvoke
  simp only at hinvoke
  split at hinvoke
  · obtain ⟨name, -, hreturned⟩ := Parsed.after_eq_returns.mp hinvoke
    cases hreturned
  · split at hinvoke
    · cases hinvoke
    · obtain ⟨serialized, hserialize, hnext⟩ := Parsed.after_eq_returns.mp hinvoke
      cases hnext
      unfold serialize at hserialize
      split at hserialize
      · rename_i buffer hbuffer
        split at hserialize
        · cases hserialize
          refine ⟨buffer.message, rfl, fun values hencodes => ?_⟩
          rw [hencodes.message] at hbuffer
          cases hbuffer
          rfl
        · cases hserialize
      · rename_i buffer hbuffer
        split at hserialize
        · cases hserialize
          refine ⟨buffer.message, rfl, fun values hencodes => ?_⟩
          rw [hencodes.message] at hbuffer
          cases hbuffer
        · cases hserialize
      · cases hserialize

theorem reply_afterCall (server : RpcServer ω) (message : Bytes) (args : VariantVector)
    (world : ω) (rets : Bytes) :
    reply host (server.afterCall message args world rets).expectHeader =
      if rets.length > 16777216 then (false, [])
      else (true, Frame.bytes ⟨1, rets⟩) := by
  have hsection : ¬ (server.afterCall message args world rets).expectHeader.sectionID ≠ 0 :=
    not_not.mpr rfl
  change writeMessage host (server.afterCall message args world rets).expectHeader = _
  rw [writeMessage, if_neg hsection]
  simp only [afterCall, expectHeader, if_true, headerBytes_eq]
  rfl

theorem split?_flag {rets rest : Bytes} {frame : Frame} (hsize : rets.length ≤ 16777216)
    (hsplit : Frame.split? (Frame.bytes ⟨1, rets⟩) = some (frame, rest)) :
    frame ≠ ⟨0, []⟩ := by
  rintro rfl
  obtain ⟨-, hbytes⟩ := Frame.split?_eq_some.mp hsplit
  simp only [Frame.bytes, List.append_nil] at hbytes
  obtain ⟨hheader, -⟩ := List.append_inj hbytes (by simp)
  have hvalue := congrArg leValue hheader
  rw [Frame.leValue_header (by decide) (by simp), Frame.header, leValue_leBytes_mod] at hvalue
  simp only [List.length_nil] at hvalue
  omega

def takesAll (_ : List Bytes) (_ : Bytes) : Bool := true

variable (host) in
def answer : RpcServer ω × List Bytes → Frame → Option (RpcServer ω × List Bytes) :=
  ((answers host).replying takesAll).handle

theorem answer_eq_some {server next : RpcServer ω} {written replies : List Bytes}
    {frame : Frame} :
    answer host (server, written) frame = some (next, replies) ↔
      (server.asked frame).callThenHeader host frame.body = .returns (true, next) ∧
        (reply host next).1 = true ∧
        replies = if (reply host next).2.isEmpty then written
          else written ++ [(reply host next).2] := by
  change (accepted _).bind _ = _ ↔ _
  rw [Option.bind_eq_some_iff]
  constructor
  · rintro ⟨after, haccepted, hsend⟩
    unfold send at hsend
    simp only at hsend
    cases hokay : (reply host after).1 with
    | false => simp [hokay] at hsend
    | true =>
        rw [hokay] at hsend
        cases hempty : (reply host after).2.isEmpty <;>
          simp [hempty, takesAll, Prod.ext_iff] at hsend <;>
          obtain ⟨rfl, rfl⟩ := hsend <;>
          exact ⟨accepted_eq_some.mp haccepted, hokay, by simp [hempty]⟩
  · rintro ⟨hcalled, hokay, rfl⟩
    refine ⟨next, accepted_eq_some.mpr hcalled, ?_⟩
    unfold send
    simp only [hokay]
    cases hempty : (reply host next).2.isEmpty <;> simp [takesAll]

theorem asked_requests {server : RpcServer ω} {frame : Frame}
    {pProc : LocalProcedureSignature ω} {args : VariantVector} (hfits : frame.Fits)
    (hrequests : Requests host server.localProcedures frame pProc args)
    (hname : Converts host pProc.procedureName) :
    (server.asked frame).call host frame.body =
      (server.asked frame).invoke host pProc frame.body args := by
  refine call_of_requests ?_ hname
  have hnumber : (server.asked frame).procedureID.toNat = frame.high :=
    toNat_size (hfits.1.trans (by omega))
  rw [hnumber]
  exact hrequests

theorem answer_of_encodes {server : RpcServer ω} {written : List Bytes} {frame : Frame}
    {pProc : LocalProcedureSignature ω} {args : VariantVector} {values : List Value}
    (hfits : frame.Fits) (hrequests : Requests host server.localProcedures frame pProc args)
    (hname : Converts host pProc.procedureName)
    (hencodes : Encodes host pProc.rets (pProc.called server.world args) values)
    (hsize : ((bodyFormat pProc.rets).emit values).length < 16777216) :
    answer host (server, written) frame =
      some (((server.asked frame).afterCall frame.body args
        (pProc.called server.world args).2.2
        ((bodyFormat pProc.rets).emit values)).expectHeader,
        written ++ [Frame.bytes ⟨1, (bodyFormat pProc.rets).emit values⟩]) := by
  have hinvoke : (server.asked frame).invoke host pProc frame.body args = _ :=
    invoke_of_encodes hencodes (by omega)
  have hcalled : (server.asked frame).callThenHeader host frame.body =
      .returns (true, ((server.asked frame).afterCall frame.body args
        (pProc.called server.world args).2.2
        ((bodyFormat pProc.rets).emit values)).expectHeader) := by
    rw [callThenHeader, asked_requests hfits hrequests hname, hinvoke]
    rfl
  have hreply := @reply_afterCall _ host (server.asked frame) frame.body args
    (pProc.called server.world args).2.2 ((bodyFormat pProc.rets).emit values)
  rw [if_neg (by omega)] at hreply
  rw [answer_eq_some, hreply]
  exact ⟨hcalled, rfl, rfl⟩

theorem answer_truthful {server next : RpcServer ω} {written replies : List Bytes}
    {frame : Frame} {pProc : LocalProcedureSignature ω} {args : VariantVector}
    (hfits : frame.Fits) (hrequests : Requests host server.localProcedures frame pProc args)
    (hanswer : answer host (server, written) frame = some (next, replies)) :
    ∃ reply, replies = written ++ [reply] ∧
      next.world = (pProc.called server.world args).2.2 ∧
      next.localProcedures = server.localProcedures ∧
      Converts host pProc.procedureName ∧
      (Truthful host pProc.rets (pProc.called server.world args) reply →
        ∃ values, Encodes host pProc.rets (pProc.called server.world args) values ∧
          ((bodyFormat pProc.rets).emit values).length < 16777216) := by
  obtain ⟨hcalled, hokay, rfl⟩ := answer_eq_some.mp hanswer
  obtain ⟨after, hcall, rfl⟩ := callThenHeader_eq_returns.mp hcalled
  have hname : Converts host pProc.procedureName := by
    by_contra hfails
    have hnumber : (server.asked frame).procedureID.toNat = frame.high :=
      toNat_size (hfits.1.trans (by omega))
    have hproc : (server.asked frame).localProcedures[(server.asked frame).procedureID.toNat]? =
        some pProc := by
      rw [hnumber]
      exact hrequests.1
    rw [call_of_not_converts hproc hfails] at hcall
    cases hcall
  rw [asked_requests hfits hrequests hname] at hcall
  obtain ⟨rets, rfl, -⟩ := invoke_eq_returns hcall
  rw [reply_afterCall] at hokay ⊢
  split at hokay
  · cases hokay
  · rename_i hsize
    rw [if_neg hsize]
    refine ⟨Frame.bytes ⟨1, rets⟩, rfl, rfl, rfl, hname, ?_⟩
    rintro (⟨values, hencodes, hsplit⟩ | ⟨-, hsplit⟩)
    · exact ⟨values, hencodes, (Frame.split?_eq_some.mp hsplit).1.2⟩
    · exact absurd rfl (split?_flag (not_lt.mp hsize) hsplit)

theorem allTruthful_iff {requests : List Frame}
    (hfits : ∀ frame ∈ requests, frame.Fits)
    (hrequests : ∀ frame ∈ requests, ∃ pProc args,
      Requests host localProcedures frame pProc args)
    {server : RpcServer ω} (hprocedures : server.localProcedures = localProcedures)
    {written : List Bytes} {visited : List ((RpcServer ω × List Bytes) × Frame)}
    {final : RpcServer ω × List Bytes}
    (hruns : Frame.Runs (answer host) (server, written) (requests.flatMap Frame.bytes)
      visited final) :
    ∃ replies, final.2 = written ++ replies ∧
      (AllTruthful host localProcedures server.world requests replies ↔
        AllSucceed host localProcedures server.world requests) := by
  induction requests generalizing server written visited with
  | nil =>
      cases hruns with
      | short _ => exact ⟨[], (List.append_nil _).symm, iff_of_true (.nil _) (.nil _)⟩
  | cons frame requests ih =>
      rw [List.forall_mem_cons] at hfits hrequests
      obtain ⟨⟨pProc, args, hfirst⟩, hrequests⟩ := hrequests
      have hserver := hprocedures ▸ hfirst
      rw [List.flatMap_cons] at hruns
      rcases hruns.of_append hfits.1 with
        ⟨hanswer, rfl, rfl⟩ | ⟨⟨next, replies⟩, tail, hanswer, htail, rfl⟩
      · refine ⟨[], (List.append_nil _).symm, iff_of_false (fun htruthful => ?_) ?_⟩
        · cases htruthful
        · rintro (_ | ⟨hother, hname, hencodes, hsize, -⟩)
          obtain ⟨rfl, rfl⟩ := hfirst.unique hother
          rw [answer_of_encodes hfits.1 hserver hname hencodes hsize] at hanswer
          cases hanswer
      · obtain ⟨reply, rfl, hworld, hkept, hname, htruthful⟩ :=
          answer_truthful hfits.1 hserver hanswer
        obtain ⟨replies, hfinal, hiff⟩ :=
          ih hfits.2 hrequests (hkept.trans hprocedures) htail
        refine ⟨reply :: replies, by rw [hfinal, List.append_assoc]; rfl, ?_⟩
        rw [hworld] at hiff
        constructor
        · rintro (_ | ⟨hother, hreply, hall⟩)
          obtain ⟨rfl, rfl⟩ := hfirst.unique hother
          obtain ⟨values, hencodes, hsize⟩ := htruthful hreply
          exact .cons hfirst hname hencodes hsize (hiff.mp hall)
        · rintro (_ | ⟨hother, -, hencodes, hsize, hall⟩)
          obtain ⟨rfl, rfl⟩ := hfirst.unique hother
          rw [answer_of_encodes hfits.1 hserver hname hencodes hsize] at hanswer
          obtain ⟨-, hwritten⟩ := Prod.mk.inj (Option.some.inj hanswer)
          obtain rfl := List.singleton_inj.mp (List.append_cancel_left hwritten)
          refine .cons hfirst (Or.inl ⟨_, hencodes, ?_⟩) (hiff.mpr hall)
          have hsplit := @Frame.split?_bytes ⟨1, (bodyFormat pProc.rets).emit _⟩
            ⟨Nat.one_lt_ofNat, hsize⟩ []
          rwa [List.append_nil] at hsplit

end RpcServer

/-- The replies to a sequence of whole requests are one truthful frame each, in order,
exactly when every procedure has a name that converts and returns true and values with
an encoding below the limit. -/
theorem replies_truthful_iff {ω : Type} (host : Platform)
    (localProcedures : List (LocalProcedureSignature ω)) (world : ω) {requests : List Frame}
    (hfits : ∀ frame ∈ requests, frame.Fits)
    (hrequests : ∀ frame ∈ requests, ∃ pProc args,
      RpcServer.Requests host localProcedures frame pProc args)
    {chunks : List Bytes} (hchunks : ∀ chunk ∈ chunks, chunk.length ≤ readBufferSize)
    (hstream : chunks.flatten = requests.flatMap Frame.bytes) :
    ∃ n, Rests (RpcServer.methods host)
        ((dataFlow (RpcServer.methods host) RpcServer.takesAll)^[n]
          (init (RpcServer.methods host) (RpcServer.new localProcedures world) chunks)) ∧
      (RpcServer.AllTruthful host localProcedures world requests
          ((dataFlow (RpcServer.methods host) RpcServer.takesAll)^[n]
            (init (RpcServer.methods host) (RpcServer.new localProcedures world)
              chunks)).written ↔
        RpcServer.AllSucceed host localProcedures world requests) := by
  obtain ⟨visited, final, hruns⟩ := Frame.Runs.exists (RpcServer.answer host)
    (RpcServer.new localProcedures world, []) chunks.flatten
  obtain ⟨n, pieces, -, hrests, -, hwritten, -, -⟩ := dataFlow_frames
    (RpcServer.serving_sectional host localProcedures) (RpcServer.answers host)
    ⟨RpcServer.sectionFramed_header, rfl⟩ rfl hchunks hruns
  rw [hstream] at hruns
  obtain ⟨replies, hfinal, hiff⟩ := RpcServer.allTruthful_iff hfits hrequests rfl hruns
  refine ⟨n, hrests, ?_⟩
  rw [List.nil_append] at hfinal
  rw [← hfinal, ← hwritten] at hiff
  exact hiff

theorem replies_truthful_iff_number :
    ∃ n, Rests (RpcServer.methods plainPlatform)
        ((dataFlow (RpcServer.methods plainPlatform) RpcServer.takesAll)^[n]
          (init (RpcServer.methods plainPlatform) (RpcServer.new [takesNumber] ())
            [[8, 0, 0, 0, 7, 0, 0], [0, 0, 0, 0, 0]])) ∧
      (RpcServer.AllTruthful plainPlatform [takesNumber] ()
          [⟨0, [7, 0, 0, 0, 0, 0, 0, 0]⟩]
          ((dataFlow (RpcServer.methods plainPlatform) RpcServer.takesAll)^[n]
            (init (RpcServer.methods plainPlatform) (RpcServer.new [takesNumber] ())
              [[8, 0, 0, 0, 7, 0, 0], [0, 0, 0, 0, 0]])).written ↔
        RpcServer.AllSucceed plainPlatform [takesNumber] ()
          [⟨0, [7, 0, 0, 0, 0, 0, 0, 0]⟩]) := by
  refine replies_truthful_iff plainPlatform [takesNumber] () (by decide) ?_ (by decide) rfl
  intro frame hmem
  obtain rfl := List.mem_singleton.mp hmem
  exact ⟨takesNumber, [.value (.uint 7)], rfl, 8, rfl⟩

def alwaysFails : LocalProcedureSignature Unit := ⟨[], [], [], fun world _ => (false, [], world)⟩

/-- A request for a procedure that fails is not replied to. -/
theorem request_without_reply :
    RpcServer.Requests plainPlatform [alwaysFails] ⟨0, []⟩ alwaysFails [] ∧
      Rests (RpcServer.methods plainPlatform)
        ((dataFlow (RpcServer.methods plainPlatform) RpcServer.takesAll)^[3]
          (init (RpcServer.methods plainPlatform) (RpcServer.new [alwaysFails] ())
            [Frame.bytes ⟨0, []⟩])) ∧
      ¬ RpcServer.AllTruthful plainPlatform [alwaysFails] () [⟨0, []⟩]
        ((dataFlow (RpcServer.methods plainPlatform) RpcServer.takesAll)^[3]
          (init (RpcServer.methods plainPlatform) (RpcServer.new [alwaysFails] ())
            [Frame.bytes ⟨0, []⟩])).written := by
  refine ⟨⟨rfl, 0, rfl⟩, Or.inl rfl, ?_⟩
  change ¬ RpcServer.AllTruthful plainPlatform [alwaysFails] () [⟨0, []⟩] []
  intro htruthful
  cases htruthful

end Rpcmple.Cpp
