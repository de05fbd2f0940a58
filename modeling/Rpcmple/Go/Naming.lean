import Rpcmple.Data.System
import Rpcmple.Go.Replies
import Rpcmple.Go.Turns

namespace Rpcmple.Go

open Data DataSignature System

namespace RpcClient

structure Exchange where
  index : Nat
  arguments : List Any
  reply : Frame
  fits : reply.Fits

def parseSections (rc : RpcClient) : List Bytes → Bool × RpcClient
  | [] => (true, rc)
  | section_ :: sections =>
      match rc.ParseMessage section_ with
      | (true, next) => next.parseSections sections
      | (false, next) => (false, next)

/-- Call, and parse the reply.  A call that fails keeps the lock, and a reply that is
refused ends the flow: nothing comes after them. -/
def exchange (rc : RpcClient) (next : Exchange) : Option RpcClient := do
  let rps ← rc.remoteProcedures[next.index]?
  match Call rps rc next.arguments with
  | (false, _) => none
  | (true, called) =>
      match called.parseSections (replySections next.reply) with
      | (true, final) => some final
      | (false, _) => none

/-- The frame carries the index of the entry, and the reply is decoded under its `Returns`
and given to its `ReplyCallback`. -/
structure Identifies (rc : RpcClient) (next : Exchange) (rps : RemoteProcedureSignature)
    (called : RpcClient) : Prop where
  sent : ∃ frame : Frame, frame.Fits ∧ frame.high = next.index ∧
    called.SendMessage = (true, frame.bytes)
  procedure : called.remoteProcedure called.lastRemoteProc = some rps
  decoded : (called.parseSections (replySections next.reply)).1 =
    (FromBinary rps.Returns next.reply.body rc.callbackValues).1.isSome
  calledBack : (called.parseSections (replySections next.reply)).2.replies =
    rc.replies ++ calledBack rps (next.reply.high == 1, next.reply.body) rc.callbackValues

def Identified (rc : RpcClient) (next : Exchange) : Prop :=
  ∀ rps called, rc.remoteProcedures[next.index]? = some rps →
    Call rps rc next.arguments = (true, called) → Identifies rc next rps called

def Latest (entries : List RemoteProcedureSignature) (index : Nat) (name : String) : Prop :=
  ∀ later other, index < later → entries[later]? = some other → other.ProcedureName ≠ name

/-- The entry that is called is the latest of its name, and the body that is sent is not
as long as the largest that `Call` lets through. -/
def Distinct (entries : List RemoteProcedureSignature) (next : Exchange) : Prop :=
  ∀ rps body, entries[next.index]? = some rps →
    ToBinary rps.Arguments [] next.arguments = .next body → body.length ≤ 16777216 →
    body.length ≠ 16777216 ∧ Latest entries next.index rps.ProcedureName

theorem withIds_getElem? (remoteProcedures : List RemoteProcedureSignature) (index : Nat) :
    (withIds remoteProcedures)[index]? =
      remoteProcedures[index]?.map fun rps => { rps with id := UInt8.ofNat index } := by
  rw [withIds, List.getElem?_mapIdx]

theorem withIds_length (remoteProcedures : List RemoteProcedureSignature) :
    (withIds remoteProcedures).length = remoteProcedures.length :=
  List.length_mapIdx

theorem withIds_id {remoteProcedures : List RemoteProcedureSignature} {index : Nat}
    {rps : RemoteProcedureSignature}
    (hentry : (withIds remoteProcedures)[index]? = some rps) : rps.id = UInt8.ofNat index := by
  rw [withIds_getElem?] at hentry
  obtain ⟨signature, -, rfl⟩ := Option.map_eq_some_iff.mp hentry
  rfl

theorem withIds_inj {remoteProcedures : List RemoteProcedureSignature}
    (hsize : remoteProcedures.length ≤ 256) {first second : Nat}
    {rps : RemoteProcedureSignature}
    (hfirst : (withIds remoteProcedures)[first]? = some rps)
    (hsecond : (withIds remoteProcedures)[second]? = some rps) : first = second := by
  obtain ⟨hfirstBound, -⟩ := List.getElem?_eq_some_iff.mp hfirst
  obtain ⟨hsecondBound, -⟩ := List.getElem?_eq_some_iff.mp hsecond
  rw [withIds_length] at hfirstBound hsecondBound
  have hsame := congrArg UInt8.toNat ((withIds_id hfirst).symm.trans (withIds_id hsecond))
  rw [UInt8.toNat_ofNat', UInt8.toNat_ofNat'] at hsame
  omega

theorem remoteProcedure_iff_latest {remoteProcedures : List RemoteProcedureSignature}
    (hsize : remoteProcedures.length ≤ 256) {rc : RpcClient}
    (htable : rc.remoteProcedures = withIds remoteProcedures) {index : Nat}
    {rps : RemoteProcedureSignature} (hentry : rc.remoteProcedures[index]? = some rps) :
    rc.remoteProcedure rps.ProcedureName = some rps ↔
      Latest rc.remoteProcedures index rps.ProcedureName := by
  obtain ⟨hindex, hget⟩ := List.getElem?_eq_some_iff.mp hentry
  have hsplit : rc.remoteProcedures.reverse =
      (rc.remoteProcedures.drop (index + 1)).reverse ++
        rps :: (rc.remoteProcedures.take index).reverse := by
    rw [← hget, ← List.reverse_concat, ← List.reverse_append,
      List.append_assoc, List.singleton_append, List.cons_getElem_drop_succ,
      List.take_append_drop]
  rw [remoteProcedure, hsplit, List.find?_append]
  constructor
  · intro hfound later other hlater hother hname
    have hmem : other ∈ (rc.remoteProcedures.drop (index + 1)).reverse := by
      rw [List.mem_reverse]
      apply List.mem_of_getElem? (i := later - (index + 1))
      rw [List.getElem?_drop, Nat.add_sub_cancel' hlater]
      exact hother
    cases hback : (rc.remoteProcedures.drop (index + 1)).reverse.find?
        fun signature => signature.ProcedureName == rps.ProcedureName with
    | none =>
        have hmissing := List.find?_eq_none.mp hback other hmem
        exact hmissing (beq_iff_eq.mpr hname)
    | some found =>
        rw [hback, Option.some_or] at hfound
        obtain rfl := Option.some.inj hfound
        have hbehind := List.mem_reverse.mp (List.mem_of_find?_eq_some hback)
        obtain ⟨step, hstep⟩ := List.mem_iff_getElem?.mp hbehind
        rw [List.getElem?_drop, htable] at hstep
        rw [htable] at hentry
        have hsame := withIds_inj hsize hstep hentry
        omega
  · intro hlatest
    have hnone : (rc.remoteProcedures.drop (index + 1)).reverse.find?
        (fun signature => signature.ProcedureName == rps.ProcedureName) = none := by
      apply List.find?_eq_none.mpr
      intro other hother
      obtain ⟨step, hstep⟩ := List.mem_iff_getElem?.mp (List.mem_reverse.mp hother)
      rw [List.getElem?_drop] at hstep
      have hname := hlatest (index + 1 + step) other (by omega) hstep
      simpa using hname
    rw [hnone, Option.none_or, List.find?_cons_of_pos (by simp)]

theorem deliver_success {rc : RpcClient} {mProc : RemoteProcedureSignature}
    (hproc : rc.remoteProcedure rc.lastRemoteProc = some mProc) (message : Bytes) :
    (rc.deliver message).1 = (FromBinary mProc.Returns message rc.callbackValues).1.isSome := by
  rw [deliver, hproc]
  simp only
  cases (FromBinary mProc.Returns message rc.callbackValues).1.isSome <;> rfl

theorem parseSections_single {rc next : RpcClient} {piece : Bytes} {success : Bool}
    (hparse : rc.ParseMessage piece = (success, next)) :
    rc.parseSections [piece] = (success, next) := by
  rw [parseSections, hparse]
  cases success <;> rfl

theorem parseSections_reply {rc : RpcClient} (hheader : rc.expectHeader = rc) {frame : Frame}
    (hfits : frame.Fits) :
    ∃ len sectionID, ∃ decoding : RpcClient,
      decoding = { rc with
        replySuccess := frame.high == 1, sectionLen := len, sectionID := sectionID } ∧
      (rc.parseSections (replySections frame)).1 = (decoding.deliver frame.body).1 ∧
      (rc.parseSections (replySections frame)).2.replies =
        (decoding.deliver frame.body).2.replies ∧
      (rc.parseSections (replySections frame)).2.remoteProcedures = rc.remoteProcedures ∧
      ((rc.parseSections (replySections frame)).1 = true →
        (rc.parseSections (replySections frame)).2.expectHeader =
          (rc.parseSections (replySections frame)).2) := by
  have hsection : rc.sectionID = 0 := by
    rw [← hheader]
    rfl
  by_cases hbody : frame.body.length = 0
  · have hempty := List.eq_nil_of_length_eq_zero hbody
    have hkeeps := deliver_keeps (rc.emptyBody frame.high) []
    have hparse : rc.ParseMessage (Frame.header frame.high 0) =
        rc.parseHeader (Frame.header frame.high 0) := by
      rw [ParseMessage, if_pos hsection]
    rw [parseHeader_empty hfits.1] at hparse
    refine ⟨_, rc.sectionID, rc.emptyBody frame.high, rfl, ?_⟩
    rw [replySections, if_pos hbody, hempty]
    cases hsuccess : ((rc.emptyBody frame.high).deliver []).1 with
    | false =>
        rw [hsuccess] at hparse
        rw [parseSections_single hparse]
        exact ⟨rfl, rfl, hkeeps.remoteProcedures, by simp⟩
    | true =>
        rw [hsuccess] at hparse
        rw [parseSections_single hparse]
        exact ⟨rfl, rfl, hkeeps.remoteProcedures, fun _ => rfl⟩
  · have hread := (@reads_header rc _ _ hfits.1 hfits.2 hbody).1
    rw [hheader] at hread
    have hkeeps := deliver_keeps (rc.expectBody frame.high frame.body.length) frame.body
    have hparse : (rc.expectBody frame.high frame.body.length).ParseMessage frame.body =
        (rc.expectBody frame.high frame.body.length).parseBody frame.body := rfl
    rw [parseBody] at hparse
    refine ⟨_, _, rc.expectBody frame.high frame.body.length, rfl, ?_⟩
    rw [replySections, if_neg hbody, parseSections, hread]
    simp only at hparse ⊢
    cases hsuccess : ((rc.expectBody frame.high frame.body.length).deliver frame.body).1 with
    | false =>
        rw [hsuccess] at hparse
        rw [parseSections_single hparse]
        exact ⟨rfl, rfl, hkeeps.remoteProcedures, by simp⟩
    | true =>
        rw [hsuccess] at hparse
        rw [parseSections_single hparse]
        exact ⟨rfl, rfl, hkeeps.remoteProcedures, fun _ => rfl⟩

structure Idle (remoteProcedures : List RemoteProcedureSignature) (rc : RpcClient) :
    Prop where
  table : rc.remoteProcedures = withIds remoteProcedures
  header : rc.expectHeader = rc

theorem idle_new (remoteProcedures : List RemoteProcedureSignature) :
    Idle remoteProcedures (NewRPCClient remoteProcedures) := ⟨rfl, rfl⟩

theorem Idle.call {remoteProcedures : List RemoteProcedureSignature} {rc called : RpcClient}
    (hidle : Idle remoteProcedures rc) {rps : RemoteProcedureSignature}
    {arguments : List Any} {success : Bool}
    (hcall : Call rps rc arguments = (success, called)) : Idle remoteProcedures called := by
  have hsame := (Call_spec hcall).1
  have hheader := hidle.header
  rw [hsame]
  refine ⟨hidle.table, ?_⟩
  change { rc.expectHeader with
    command := called.command, lastRemoteProc := called.lastRemoteProc } = _
  rw [hheader]

theorem Idle.exchange {remoteProcedures : List RemoteProcedureSignature}
    {rc final : RpcClient} (hidle : Idle remoteProcedures rc) {next : Exchange}
    (hexchange : rc.exchange next = some final) : Idle remoteProcedures final := by
  obtain ⟨rps, -, hcalled⟩ := Option.bind_eq_some_iff.mp hexchange
  split at hcalled
  · cases hcalled
  · rename_i called hcall
    have hwaits := hidle.call hcall
    obtain ⟨-, -, -, -, -, -, htable, hheader⟩ := parseSections_reply hwaits.header next.fits
    split at hcalled
    · rename_i last hparse
      cases hcalled
      rw [hparse] at htable hheader
      exact ⟨htable.trans hwaits.table, hheader rfl⟩
    · cases hcalled

theorem idle_of_run {remoteProcedures : List RemoteProcedureSignature}
    {exchanges : List Exchange} {rc : RpcClient}
    (hrun : run exchange (NewRPCClient remoteProcedures) exchanges = some rc) :
    Idle remoteProcedures rc := by
  have hreaches : Reachable exchange (NewRPCClient remoteProcedures) rc :=
    reaches_of_run (fun _ _ _ => trivial) hrun
  exact hreaches.invariant (idle_new remoteProcedures)
    fun _ _ _ hidle _ hexchange => hidle.exchange hexchange

theorem sent_iff {rps : RemoteProcedureSignature} {rc called : RpcClient} {index : Nat}
    {arguments : List Any} {body : Bytes} (hindex : index < 256)
    (hid : rps.id = UInt8.ofNat index) (hsection : rc.sectionID = 0)
    (hbody : ToBinary rps.Arguments [] arguments = .next body)
    (hsize : body.length ≤ 16777216)
    (hcall : Call rps rc arguments = (true, called)) :
    (∃ frame : Frame, frame.Fits ∧ frame.high = index ∧
      called.SendMessage = (true, frame.bytes)) ↔ body.length ≠ 16777216 := by
  have hcommand : called = { rc with
      command := Frame.header index body.length ++ body
      lastRemoteProc := rps.ProcedureName } := by
    rw [Call, hbody] at hcall
    simp only [if_neg (not_lt.mpr hsize), hid, header_eq] at hcall
    exact (congrArg Prod.snd hcall).symm
  have hsend : called.SendMessage = (true, Frame.header index body.length ++ body) := by
    rw [hcommand, SendMessage, if_neg (not_not.mpr hsection)]
    refine if_neg ?_
    rw [List.length_append, Frame.length_header]
    omega
  rw [hsend]
  constructor
  · intro hframe hfull
    obtain ⟨frame, hfits, -, hsame⟩ := hframe
    have hlength := congrArg List.length (congrArg Prod.snd hsame)
    have hshort := hfits.2
    simp only [Frame.bytes, List.length_append, Frame.length_header] at hlength
    omega
  · intro hfits
    exact ⟨⟨index, body⟩, ⟨hindex, by simp only; omega⟩, rfl, rfl⟩

/-- After any sequence of calls and replies the next call is identified by its index
exactly when its entry is the latest of its name, and its body not of the one length that
spills over into the index. -/
theorem identified_iff {remoteProcedures : List RemoteProcedureSignature}
    (hsize : remoteProcedures.length ≤ 256) {exchanges : List Exchange} {rc : RpcClient}
    (hrun : run exchange (NewRPCClient remoteProcedures) exchanges = some rc)
    (next : Exchange) :
    Identified rc next ↔ Distinct (withIds remoteProcedures) next := by
  have hidle := idle_of_run hrun
  have hsection : rc.sectionID = 0 := by
    rw [← hidle.header]
    rfl
  have hframe : ∀ {rps body}, ToBinary rps.Arguments [] next.arguments = .next body →
      body.length ≤ 16777216 → ∃ command,
        Call rps rc next.arguments =
          (true, { rc with command, lastRemoteProc := rps.ProcedureName }) := by
    intro rps body hbody hbound
    have hcommand : ∃ command, frame rps next.arguments = some command := by
      rw [frame, hbody]
      exact ⟨_, if_neg (not_lt.mpr hbound)⟩
    obtain ⟨command, hcommand⟩ := hcommand
    exact ⟨command, Call_of_frame hcommand rc⟩
  have hbound : ∀ {rps}, rc.remoteProcedures[next.index]? = some rps → next.index < 256 := by
    intro rps hentry
    obtain ⟨hindex, -⟩ := List.getElem?_eq_some_iff.mp hentry
    rw [hidle.table, withIds_length] at hindex
    omega
  constructor
  · intro hidentified rps body hentry hbody hlength
    rw [← hidle.table] at hentry
    obtain ⟨command, hcall⟩ := hframe hbody hlength
    obtain ⟨hsent, hprocedure, -, -⟩ := hidentified rps _ hentry hcall
    have hid := withIds_id (hidle.table ▸ hentry)
    refine ⟨(sent_iff (hbound hentry) hid hsection hbody hlength hcall).mp hsent, ?_⟩
    rw [← hidle.table]
    exact (remoteProcedure_iff_latest hsize hidle.table hentry).mp hprocedure
  · intro hdistinct rps called hentry hcall
    obtain ⟨hsame, hmade⟩ := Call_spec hcall
    obtain ⟨hcommand, hname⟩ := hmade rfl
    have hid := withIds_id (hidle.table ▸ hentry)
    have hcalled := hidle.call hcall
    obtain ⟨body, hbody, hlength⟩ : ∃ body,
        ToBinary rps.Arguments [] next.arguments = .next body ∧ body.length ≤ 16777216 := by
      unfold frame at hcommand
      split at hcommand
      · rename_i body hbody
        split at hcommand
        · cases hcommand
        · rename_i hshort
          exact ⟨body, hbody, not_lt.mp hshort⟩
      all_goals cases hcommand
    obtain ⟨hfull, hlatest⟩ := hdistinct rps body (hidle.table ▸ hentry) hbody hlength
    rw [← hidle.table] at hlatest
    have hproc : called.remoteProcedure called.lastRemoteProc = some rps := by
      rw [hsame, hname]
      exact (remoteProcedure_iff_latest hsize hidle.table hentry).mpr hlatest
    obtain ⟨len, sectionID, decoding, hdecoding, hsuccess, hreplies, -, -⟩ :=
      parseSections_reply hcalled.header next.fits
    have hdecodes : decoding.remoteProcedure decoding.lastRemoteProc = some rps := by
      rw [hdecoding]
      exact hproc
    have hreused : decoding.callbackValues = rc.callbackValues := by
      rw [hdecoding, hsame]
    have hbefore : decoding.replies = rc.replies := by
      rw [hdecoding, hsame]
    have hflag : decoding.replySuccess = (next.reply.high == 1) := by
      rw [hdecoding]
    refine ⟨(sent_iff (hbound hentry) hid hsection hbody hlength hcall).mpr hfull, hproc,
      ?_, ?_⟩
    · rw [hsuccess, deliver_success hdecodes, hreused]
    · rw [hreplies, deliver_replies hdecodes, hreused, hbefore, hflag]

private def getTable : List RemoteProcedureSignature :=
  [⟨0, "get", [], [DataType.i.char], true⟩, ⟨0, "get", [], [DataType.u.char], true⟩]

private def getNumber (index : Nat) : Exchange where
  index
  arguments := []
  reply := ⟨1, [7, 0, 0, 0, 0, 0, 0, 0]⟩
  fits := by decide

theorem identified_get :
    ∃ rc, run exchange (NewRPCClient getTable) [getNumber 1] = some rc ∧
      (Identified rc (getNumber 1) ↔ Distinct (withIds getTable) (getNumber 1)) := by
  have hrun : ∃ rc, run exchange (NewRPCClient getTable) [getNumber 1] = some rc := ⟨_, rfl⟩
  obtain ⟨rc, hrc⟩ := hrun
  exact ⟨rc, hrc, identified_iff (by decide) hrc (getNumber 1)⟩

/-- The reply to the first entry is decoded for the second, and called back there. -/
theorem reply_of_other_entry :
    ¬ Identified (NewRPCClient getTable) (getNumber 0) ∧
      ∃ rc, run exchange (NewRPCClient getTable) [getNumber 0] = some rc ∧
        rc.replies =
          [(⟨1, "get", [], [DataType.u.char], true⟩, true, [.value (.uint 7)])] := by
  refine ⟨?_, _, rfl, rfl⟩
  intro hidentified
  have hprocedure := (hidentified _ _ rfl rfl).procedure
  exact absurd hprocedure (by decide)

end RpcClient

end Rpcmple.Go
