import Rpcmple.Go.Frames

namespace Rpcmple.Go

open Data DataSignature

namespace DataSignature

theorem readReturn_nil (ret : UInt8) : readReturn ret [] = none := by
  unfold readReturn
  cases DataType.ofChar? ret with
  | none => rfl
  | some dataType => cases dataType <;> rfl

theorem readBody_nil_iff {ds : DataSignature} :
    (∃ read, readBody ds [] = some read) ↔ ds = [] := by
  cases ds with
  | nil => simp [readBody]
  | cons ret ds => simp [readBody, readReturn_nil]

theorem FromBinary_isSome {ds : DataSignature} {mr : Bytes} (callbackValues : AnySlice) :
    (FromBinary ds mr callbackValues).1.isSome ↔ ∃ read, readBody ds mr = some read := by
  cases hread : readBody ds mr with
  | none => simp [FromBinary_of_not_readBody callbackValues hread]
  | some read => simp [(FromBinary_of_readBody callbackValues hread).1]

end DataSignature

namespace RpcClient

theorem remoteProcedure_of_mem {rc : RpcClient} {mProc : RemoteProcedureSignature}
    (hnames : (rc.remoteProcedures.map (·.ProcedureName)).Nodup)
    (hlisted : mProc ∈ rc.remoteProcedures) :
    rc.remoteProcedure mProc.ProcedureName = some mProc := by
  rw [remoteProcedure]
  cases hfind : rc.remoteProcedures.reverse.find? fun signature =>
      signature.ProcedureName == mProc.ProcedureName with
  | none =>
      have hmissing := List.find?_eq_none.mp hfind mProc (List.mem_reverse.mpr hlisted)
      exact absurd (beq_self_eq_true _) hmissing
  | some found =>
      have hfound := List.mem_reverse.mp (List.mem_of_find?_eq_some hfind)
      have hname : found.ProcedureName = mProc.ProcedureName := by
        simpa using List.find?_some hfind
      rw [List.inj_on_of_nodup_map hnames hfound hlisted hname]

theorem withIds_names (remoteProcedures : List RemoteProcedureSignature) :
    (withIds remoteProcedures).map (·.ProcedureName) =
      remoteProcedures.map (·.ProcedureName) := by
  apply List.ext_getElem
  · simp [withIds]
  · intro index hfirst hsecond
    simp [withIds]

def replySections (frame : Frame) : List Bytes :=
  if frame.body.length = 0 then [Frame.header frame.high 0]
  else [Frame.header frame.high frame.body.length, frame.body]

def ParseMessages (others : Nat → Shared) (state : RpcClient × Nat) (sections : List Bytes) :
    Option (RpcClient × Nat) :=
  sections.foldlM (methods others).reads.accept state

/-- A call of this procedure is waiting for its reply: no other one has put its name
in the place of this one. -/
structure Outstanding (remoteProcedures : List RemoteProcedureSignature)
    (mProc : RemoteProcedureSignature) (others : Nat → Shared) (state : RpcClient × Nat) :
    Prop where
  names : (remoteProcedures.map (·.ProcedureName)).Nodup
  listed : mProc ∈ withIds remoteProcedures
  client : state.1.remoteProcedures = withIds remoteProcedures
  header : waiting state = state
  called : ∀ turn, (others turn).lastRemoteProc = mProc.ProcedureName

/-- Any flag, and a body that is decoded or missing from a failure. -/
structure Answers (mProc : RemoteProcedureSignature) (frame : Frame) : Prop where
  fits : frame.Fits
  body : (frame.body = [] ∧ frame.high = 0) ∨
    ∀ reused, (FromBinary mProc.Returns frame.body reused).1.isSome

/-- The callback was called once more, with the flag and, when it is set, the
decoded values, and the next section is a header. -/
def CallsBack (mProc : RemoteProcedureSignature) (frame : Frame) (before after : RpcClient) :
    Prop :=
  after.sectionID = 0 ∧ after.sectionLen = 4 ∧
    ∃ values, (frame.high = 1 → ∀ reused,
        (FromBinary mProc.Returns frame.body reused).2.values = values) ∧
      after.replies = before.replies ++
        if mProc.ReplyCallback then [(mProc, frame.high == 1, values)] else []

section Reply

variable {remoteProcedures : List RemoteProcedureSignature}
  {mProc : RemoteProcedureSignature} {others : Nat → Shared} {state : RpcClient × Nat}

theorem Outstanding.lookup {rc : RpcClient}
    (houtstanding : Outstanding remoteProcedures mProc others state)
    (htable : rc.remoteProcedures = state.1.remoteProcedures)
    (hname : rc.lastRemoteProc = mProc.ProcedureName) :
    rc.remoteProcedure rc.lastRemoteProc = some mProc := by
  rw [houtstanding.client] at htable
  rw [hname]
  apply remoteProcedure_of_mem
  · rw [htable, withIds_names]
    exact houtstanding.names
  · rw [htable]
    exact houtstanding.listed

theorem deliver_of_read {rc : RpcClient} {message : Bytes} {read : List Value × Bytes}
    (hproc : rc.remoteProcedure rc.lastRemoteProc = some mProc)
    (hread : readBody mProc.Returns message = some read) :
    rc.deliver message = (true,
      { rc with
        callbackValues := (FromBinary mProc.Returns message rc.callbackValues).2
        replies := rc.replies ++
          if mProc.ReplyCallback then [(mProc, rc.replySuccess, read.1.map .value)]
          else [] }) := by
  obtain ⟨hrest, hvalues⟩ := FromBinary_of_readBody rc.callbackValues hread
  rw [deliver, hproc]
  simp only [hrest, hvalues]
  cases mProc.ReplyCallback <;> simp

theorem deliver_of_not_read {rc : RpcClient} {message : Bytes}
    (hproc : rc.remoteProcedure rc.lastRemoteProc = some mProc)
    (hread : readBody mProc.Returns message = none) :
    (rc.deliver message).1 = false := by
  rw [deliver, hproc]
  simp [FromBinary_of_not_readBody rc.callbackValues hread]

theorem callsBack_of_read {frame : Frame} {read : List Value × Bytes}
    {before after : RpcClient} (hhigh : after.sectionID = 0) (hlen : after.sectionLen = 4)
    (hread : readBody mProc.Returns frame.body = some read)
    (hreplies : after.replies = before.replies ++
      if mProc.ReplyCallback then [(mProc, frame.high == 1, read.1.map .value)] else []) :
    CallsBack mProc frame before after :=
  ⟨hhigh, hlen, read.1.map .value,
    fun _ reused => (FromBinary_of_readBody reused hread).2, hreplies⟩

def emptyBody (rc : RpcClient) (high : Nat) : RpcClient :=
  { rc with replySuccess := high == 1, sectionLen := UInt32.ofNat 0 }

theorem parseHeader_empty {rc : RpcClient} {high : Nat} (hhigh : high < 256) :
    rc.parseHeader (Frame.header high 0) =
      if !((rc.emptyBody high).deliver []).1 then
        (false, ((rc.emptyBody high).deliver []).2)
      else
        (true, { ((rc.emptyBody high).deliver []).2 with
          callbackValues :=
            ⟨((rc.emptyBody high).deliver []).2.callbackValues.backing.map
              fun _ => .nil, 0⟩ }.expectHeader) := by
  have hzero : 0 < 16777216 := by omega
  rw [parseHeader, if_neg (not_not.mpr (Frame.length_header high 0)), readUint32_header]
  simp only [header_flag hhigh hzero, header_size high hzero]
  exact if_neg (by decide)

theorem parse_empty_iff {frame : Frame} (hhigh : frame.high < 256) (hbody : frame.body = [])
    (houtstanding : Outstanding remoteProcedures mProc others state) :
    (∃ final, ParseMessages others state (replySections frame) = some final ∧
      CallsBack mProc frame state.1 final.1) ↔ mProc.Returns = [] := by
  have hproc : ((meet others state).emptyBody frame.high).remoteProcedure
      ((meet others state).emptyBody frame.high).lastRemoteProc = some mProc :=
    houtstanding.lookup rfl (houtstanding.called state.2)
  have hparses : ParseMessages others state (replySections frame) =
      (methods others).reads.accept state (Frame.header frame.high 0) := by
    rw [replySections, hbody, List.length_nil, if_pos rfl]
    exact bind_pure _
  have hparse : (meet others state).ParseMessage (Frame.header frame.high 0) =
      (meet others state).parseHeader (Frame.header frame.high 0) := by
    have hsection : (meet others state).sectionID = 0 := by
      rw [meet, ← houtstanding.header]
      rfl
    rw [ParseMessage, if_pos hsection]
  rw [parseHeader_empty hhigh] at hparse
  rw [hparses, ← readBody_nil_iff]
  constructor
  · intro hcalled
    obtain ⟨final, haccept, -⟩ := hcalled
    cases hread : readBody mProc.Returns [] with
    | some read => exact ⟨read, rfl⟩
    | none =>
        have hfail := deliver_of_not_read hproc hread
        rw [MessageParser.reads_eq_some, methods_ParseMessage, hparse, hfail] at haccept
        simp at haccept
  · intro hread
    obtain ⟨read, hread⟩ := hread
    rw [deliver_of_read hproc hread] at hparse
    rw [← hbody] at hread
    refine ⟨_, accept_of_parse others hparse, ?_⟩
    exact callsBack_of_read rfl rfl hread rfl

theorem parse_body {frame : Frame} {read : List Value × Bytes} (hfits : frame.Fits)
    (hbody : frame.body.length ≠ 0)
    (houtstanding : Outstanding remoteProcedures mProc others state)
    (hread : readBody mProc.Returns frame.body = some read) :
    ∃ final, ParseMessages others state (replySections frame) = some final ∧
      CallsBack mProc frame state.1 final.1 := by
  have hproc : (meet others
        (receiving others state frame.high frame.body.length)).remoteProcedure
      (meet others (receiving others state frame.high frame.body.length)).lastRemoteProc =
        some mProc :=
    houtstanding.lookup rfl (houtstanding.called (state.2 + 1))
  have hparses : ParseMessages others state (replySections frame) =
      (methods others).reads.accept
        (receiving others state frame.high frame.body.length) frame.body := by
    have hheader := accept_header others state hfits.1 hfits.2 hbody
    rw [houtstanding.header] at hheader
    rw [replySections, if_neg hbody]
    simp only [ParseMessages, List.foldlM_cons, List.foldlM_nil]
    rw [hheader]
    change (methods others).reads.accept _ frame.body >>= pure = _
    rw [bind_pure]
  have hparse : (meet others
      (receiving others state frame.high frame.body.length)).ParseMessage frame.body =
        (meet others
          (receiving others state frame.high frame.body.length)).parseBody frame.body := rfl
  rw [parseBody, deliver_of_read hproc hread] at hparse
  rw [hparses]
  refine ⟨_, accept_of_parse others hparse, ?_⟩
  exact callsBack_of_read rfl rfl hread rfl

/-- A reply reaches the callback of the procedure that was called, unless its body is
empty and the procedure returns something. -/
theorem reply_called_back_iff {frame : Frame}
    (houtstanding : Outstanding remoteProcedures mProc others state)
    (hanswers : Answers mProc frame) :
    (∃ final, ParseMessages others state (replySections frame) = some final ∧
      CallsBack mProc frame state.1 final.1) ↔
      frame.body ≠ [] ∨ mProc.Returns = [] := by
  by_cases hbody : frame.body = []
  · rw [parse_empty_iff hanswers.fits.1 hbody houtstanding]
    simp [hbody]
  · rw [iff_true_right (.inl hbody)]
    have hdecodes := hanswers.body.resolve_left fun hempty => hbody hempty.1
    obtain ⟨read, hread⟩ := (FromBinary_isSome ⟨[], 0⟩).mp (hdecodes ⟨[], 0⟩)
    exact parse_body hanswers.fits (fun hlength =>
      hbody (List.eq_nil_of_length_eq_zero hlength)) houtstanding hread

end Reply

private def pingTable : List RemoteProcedureSignature :=
  [⟨0, "ping", [], [DataType.i.char], true⟩]

private def pinged (_ : Nat) : Shared := ⟨[0, 0, 0, 0], "ping"⟩

private theorem ping_outstanding :
    Outstanding pingTable ⟨0, "ping", [], [DataType.i.char], true⟩ pinged
      (NewRPCClient pingTable, 0) where
  names := by decide
  listed := by decide
  client := rfl
  header := rfl
  called _ := rfl

theorem reply_called_back_ping :
    (∃ final, ParseMessages pinged (NewRPCClient pingTable, 0)
        (replySections ⟨1, [7, 0, 0, 0, 0, 0, 0, 0]⟩) = some final ∧
      CallsBack ⟨0, "ping", [], [DataType.i.char], true⟩ ⟨1, [7, 0, 0, 0, 0, 0, 0, 0]⟩
        (NewRPCClient pingTable) final.1) ↔
      ([7, 0, 0, 0, 0, 0, 0, 0] : Bytes) ≠ [] ∨ [DataType.i.char] = [] :=
  reply_called_back_iff ping_outstanding
    ⟨by decide, .inr fun reused => (FromBinary_isSome reused).mpr ⟨_, rfl⟩⟩

/-- A failure without a body ends the flow and leaves the callback waiting. -/
theorem empty_failure_not_called_back :
    ¬ ∀ remoteProcedures mProc others state frame,
      Outstanding remoteProcedures mProc others state → Answers mProc frame →
      ∃ final, ParseMessages others state (replySections frame) = some final ∧
        CallsBack mProc frame state.1 final.1 := by
  intro hcalled
  have hanswers : Answers ⟨0, "ping", [], [DataType.i.char], true⟩ ⟨0, []⟩ :=
    ⟨by decide, .inl ⟨rfl, rfl⟩⟩
  obtain ⟨final, hparse, -⟩ := hcalled _ _ _ _ _ ping_outstanding hanswers
  cases hparse

end RpcClient

end Rpcmple.Go
