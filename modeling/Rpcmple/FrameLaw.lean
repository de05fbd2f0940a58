import Rpcmple.Cpp.Sizes
import Rpcmple.Go.Frames
import Rpcmple.Go.Publishing

namespace Rpcmple

open Data

namespace FrameLaw

/-- Go `Call` of the procedure with this index of the table, and `SendMessage`. -/
def goCalls (remoteProcedures : List Go.RemoteProcedureSignature) (frames : List Frame)
    (bytes : Bytes) : Prop :=
  ∃ frame rps rc next arguments, frames = [frame] ∧
    (Go.RpcClient.withIds remoteProcedures)[frame.high]? = some rps ∧
    Go.DataSignature.ToBinary rps.Arguments [] arguments = .next frame.body ∧
    Go.RpcClient.Call rps rc arguments = (true, next) ∧ next.sectionID = 0 ∧
    next.SendMessage = (true, bytes)

/-- `rpcClient::writeMessage`. -/
def cppCalls (host : Cpp.Platform) (frames : List Frame) (bytes : Bytes) : Prop :=
  ∃ rc next : Cpp.RpcClient, rc.sectionID = 0 ∧
    frames = [⟨rc.procedureID.toNat, rc.args⟩] ∧
    rc.writeMessage host = some (true, bytes, next)

/-- `rpcServer::writeMessage`. -/
def replies {ω : Type} (host : Cpp.Platform) (frames : List Frame) (bytes : Bytes) : Prop :=
  ∃ server : Cpp.RpcServer ω, server.sectionID = 0 ∧
    frames = [⟨if server.callSuccess then 1 else 0, server.callReturnsSerialized⟩] ∧
    server.writeMessage host = (true, bytes)

def goPublishes (signature : DataSignature) (frames : List Frame) (bytes : Bytes) : Prop :=
  ∃ data body, frames = [⟨1, body⟩] ∧
    Go.DataSignature.ToBinary signature [] data = .next body ∧
    Go.DataPublisher.frame signature data = some bytes

/-- `dataPublisher::writeMessage`, which takes the frames off its stack. -/
def cppPublishes (host : Cpp.Platform) (frames : List Frame) (bytes : Bytes) : Prop :=
  ∃ publisher next : Cpp.DataPublisher,
    publisher.writeMessage host [] = some (true, bytes, next) ∧
    (∀ frame ∈ frames, frame.high = 1) ∧
    publisher.messageStack = frames.map Frame.body ++ next.messageStack

/-- The bytes are those of the frames, which are as long as the senders let them be. -/
def Written (frames : List Frame) (bytes : Bytes) : Prop :=
  bytes = frames.flatMap Frame.bytes ∧ ∀ frame ∈ frames, frame.body.length ≤ 16777216

variable {host : Cpp.Platform} {frames : List Frame} {bytes : Bytes}

theorem Written.single {frame : Frame} (hbytes : bytes = frame.bytes)
    (hsize : frame.body.length ≤ 16777216) : Written [frame] bytes :=
  ⟨by simpa using hbytes, by simpa using hsize⟩

theorem written_goCalls {remoteProcedures : List Go.RemoteProcedureSignature}
    (hcalls : goCalls remoteProcedures frames bytes) : Written frames bytes := by
  obtain ⟨frame, rps, rc, next, arguments, rfl, hrps, hbody, hcall, hsection, hsend⟩ := hcalls
  rw [Go.RpcClient.withIds, List.getElem?_mapIdx] at hrps
  obtain ⟨signature, -, rfl⟩ := Option.map_eq_some_iff.mp hrps
  rw [Go.RpcClient.Call, hbody] at hcall
  simp only [Go.header_eq] at hcall
  split at hcall
  · cases hcall
  · rename_i hsize
    cases hcall
    rw [Go.RpcClient.SendMessage, if_neg (not_not.mpr hsection)] at hsend
    split at hsend
    · cases hsend
    · cases hsend
      exact .single rfl (not_lt.mp hsize)

theorem written_cppCalls (hcalls : cppCalls host frames bytes) : Written frames bytes := by
  obtain ⟨rc, next, hsection, rfl, hwrite⟩ := hcalls
  rw [Cpp.RpcClient.writeMessage, if_neg (not_not.mpr hsection)] at hwrite
  split at hwrite
  · rw [Option.some.injEq, Cpp.RpcClient.writeCommand] at hwrite
    split at hwrite
    · cases hwrite
    · split at hwrite
      · cases hwrite
      · rename_i hsize
        cases hwrite
        refine .single ?_ (not_lt.mp hsize)
        rw [Cpp.headerBytes_eq]
        rfl
  · cases hwrite

theorem written_replies {ω : Type} (hreplies : @replies ω host frames bytes) :
    Written frames bytes := by
  obtain ⟨server, hsection, rfl, hwrite⟩ := hreplies
  rw [Cpp.RpcServer.writeMessage, if_neg (not_not.mpr hsection)] at hwrite
  split at hwrite
  · cases hwrite
  · rename_i hsize
    cases hwrite
    refine .single ?_ (not_lt.mp hsize)
    rw [Cpp.headerBytes_eq]
    cases server.callSuccess with
    | true | false => rfl

theorem written_goPublishes {signature : DataSignature}
    (hpublishes : goPublishes signature frames bytes) : Written frames bytes := by
  obtain ⟨data, body, rfl, hbody, hframe⟩ := hpublishes
  rw [Go.DataPublisher.frame, hbody] at hframe
  simp only at hframe
  split at hframe
  · cases hframe
  · rename_i hsize
    cases hframe
    exact .single (congrArg (· ++ body) (Go.header_eq 1 body.length)) (not_lt.mp hsize)

theorem frames_of_stack (hhigh : ∀ frame ∈ frames, frame.high = 1) :
    (frames.map Frame.body).flatMap (Cpp.DataPublisher.frame host) =
      frames.flatMap Frame.bytes := by
  rw [List.flatMap_map]
  refine List.flatMap_congr fun frame hmem => ?_
  rw [Cpp.DataPublisher.frame_eq, ← hhigh frame hmem]

theorem written_cppPublishes (hpublishes : cppPublishes host frames bytes) :
    Written frames bytes := by
  obtain ⟨publisher, next, hwrite, hhigh, hstack⟩ := hpublishes
  have hspec := @Cpp.DataPublisher.sendLoop_spec host publisher.groupMessages
    publisher.messageStack []
  simp only [List.length_nil, List.nil_append] at hspec
  rw [Cpp.DataPublisher.writeMessage] at hwrite
  split at hwrite
  · cases hwrite
  · split at hwrite
    · cases hwrite
    · rcases hspec with ⟨rest, htaken, hloop⟩ | ⟨bad, rest, -, -, -, -, hloop⟩
      · rw [hloop] at hwrite
        cases hwrite
        have hbodies := List.append_cancel_right (hstack.symm.trans htaken)
        rw [← hbodies, frames_of_stack hhigh]
        refine ⟨rfl, fun frame hmem => ?_⟩
        have hbody : frame.body ∈ Cpp.DataPublisher.group publisher.groupMessages 0
            publisher.messageStack := hbodies ▸ List.mem_map_of_mem hmem
        exact Cpp.DataPublisher.group_le _ hbody
      · rw [hloop] at hwrite
        cases hwrite

def Flagged (frames : List Frame) : Prop := ∀ frame ∈ frames, frame.high < 256

theorem flagged_replies {ω : Type} (hreplies : @replies ω host frames bytes) :
    Flagged frames := by
  obtain ⟨server, -, rfl, -⟩ := hreplies
  intro frame hmem
  obtain rfl := List.mem_singleton.mp hmem
  change (if server.callSuccess = true then 1 else 0) < 256
  split
  · decide
  · decide

theorem flagged_goPublishes {signature : DataSignature}
    (hpublishes : goPublishes signature frames bytes) : Flagged frames := by
  obtain ⟨data, body, rfl, -, -⟩ := hpublishes
  intro frame hmem
  obtain rfl := List.mem_singleton.mp hmem
  exact Nat.lt_of_sub_pos (by decide : 0 < 256 - 1)

theorem flagged_cppPublishes (hpublishes : cppPublishes host frames bytes) :
    Flagged frames := by
  obtain ⟨publisher, next, -, hhigh, -⟩ := hpublishes
  intro frame hmem
  rw [hhigh frame hmem]
  decide

variable {sends : List (List Frame)} {streams : List Bytes}

theorem written_all (hwritten : List.Forall₂ Written sends streams) :
    streams.flatten = sends.flatten.flatMap Frame.bytes ∧
      ∀ frame ∈ sends.flatten, frame.body.length ≤ 16777216 := by
  induction hwritten with
  | nil => exact ⟨rfl, by simp⟩
  | cons hhead _ ih =>
      rw [List.flatten_cons, List.flatten_cons, List.flatMap_append, ← ih.1, ← hhead.1,
        List.forall_mem_append]
      exact ⟨rfl, hhead.2, ih.2⟩

theorem flagged_all (hflagged : List.Forall₂ (fun frames _ => Flagged frames) sends streams) :
    Flagged sends.flatten := by
  induction hflagged with
  | nil => exact fun frame hmem => absurd hmem List.not_mem_nil
  | cons hhead _ ih =>
      rw [List.flatten_cons]
      exact List.forall_mem_append.mpr ⟨hhead, ih⟩

/-- All frames fit their headers, and none but the last is refused. -/
def Through {τ : Type} (handle : τ → Frame → Option τ) (state : τ) (sent : List Frame) : Prop :=
  (∀ frame ∈ sent, frame.Fits) ∧ (Frame.taken handle state sent).map Prod.snd = sent

section Receiving

variable {σ τ : Type} {cutter : Cutter σ}

theorem recovered_frames (reader : FrameReader cutter τ Frame)
    (hreader : ∀ state frame, reader.observe state frame = frame)
    (hwritten : List.Forall₂ Written sends streams) (state : τ) :
    ∃ visited last, cutter.Runs (reader.atHeader state) streams.flatten visited last ∧
      (reader.observations visited = sends.flatten ↔
        Through reader.handle state sends.flatten) := by
  rw [(written_all hwritten).1]
  have hobserve : ∀ (frame seen : Frame) (rest behind : Bytes), True → ¬ frame.Fits →
      Frame.split? (frame.bytes ++ rest) = some (seen, behind) → id seen ≠ id frame := by
    rintro frame seen rest behind - hlong hsplit rfl
    exact hlong (Frame.split?_eq_some.mp hsplit).1
  have hrecovers := @FrameReader.recovers_iff _ _ _ _ reader id _ hreader hobserve
    sends.flatten (fun _ _ => trivial) state
  rwa [List.map_id] at hrecovers

theorem recovered_bodies {β : Type} {observe : Frame → β} (reader : FrameReader cutter τ β)
    (hreader : ∀ state frame, reader.observe state frame = observe frame)
    (hbody : ∀ seen frame, observe seen = observe frame → seen.body = frame.body)
    (hwritten : List.Forall₂ Written sends streams)
    (hflagged : List.Forall₂ (fun frames _ => Flagged frames) sends streams) (state : τ) :
    ∃ visited last, cutter.Runs (reader.atHeader state) streams.flatten visited last ∧
      (reader.observations visited = sends.flatten.map observe ↔
        Through reader.handle state sends.flatten) := by
  obtain ⟨hbytes, hsize⟩ := written_all hwritten
  have hflags := flagged_all hflagged
  rw [hbytes]
  refine reader.recovers_iff hreader ?_
    (fun frame hmem => And.intro (hflags frame hmem) (hsize frame hmem)) state
  rintro frame seen rest behind ⟨hhigh, hlength⟩ hlong hsplit hsame
  have hfull : frame.body.length = 16777216 := by
    by_contra hother
    exact hlong ⟨hhigh, by omega⟩
  have hempty := Frame.split?_of_full hfull hsplit
  rw [← hbody _ _ hsame, hempty] at hfull
  cases hfull

end Receiving

/-- Every receiver recovers the frames its senders accepted exactly when each of them fits
its header, and none but the last is refused. -/
theorem frames_recovered_iff (sender receiver : Cpp.Platform)
    (remoteProcedures : List Go.RemoteProcedureSignature) (signature : DataSignature) :
    (∀ (ω : Type) (server : Cpp.RpcServer ω) (sends : List (List Frame))
      (streams : List Bytes),
      List.Forall₂ (fun frames bytes =>
        goCalls remoteProcedures frames bytes ∨ cppCalls sender frames bytes) sends streams →
      ∃ visited last, (Cpp.RpcServer.methods receiver).reads.Runs server.expectHeader
          streams.flatten visited last ∧
        ((Cpp.RpcServer.reader receiver).observations visited = sends.flatten ↔
          Through (Cpp.RpcServer.reader receiver).handle server sends.flatten)) ∧
    (∀ (ω : Type) (rc : Cpp.RpcClient) (sends : List (List Frame)) (streams : List Bytes),
      List.Forall₂ (@replies ω sender) sends streams →
      ∃ visited last, (Cpp.RpcClient.methods receiver).reads.Runs rc.expectHeader
          streams.flatten visited last ∧
        ((Cpp.RpcClient.reader receiver).observations visited = sends.flatten ↔
          Through (Cpp.RpcClient.reader receiver).handle rc sends.flatten)) ∧
    (∀ (ω : Type) (others : Nat → Go.RpcClient.Shared) (state : Go.RpcClient × Nat)
      (sends : List (List Frame)) (streams : List Bytes),
      List.Forall₂ (@replies ω sender) sends streams →
      ∃ visited last, (Go.RpcClient.methods others).reads.Runs (Go.RpcClient.waiting state)
          streams.flatten visited last ∧
        ((Go.RpcClient.reader others).observations visited =
            sends.flatten.map (fun frame => (frame.high == 1, frame.body)) ↔
          Through (Go.RpcClient.reader others).handle state sends.flatten)) ∧
    (∀ (subscriber : Cpp.DataSubscriber) (sends : List (List Frame)) (streams : List Bytes),
      List.Forall₂ (fun frames bytes =>
        goPublishes signature frames bytes ∨ cppPublishes sender frames bytes) sends streams →
      ∃ visited last, (Cpp.DataSubscriber.methods receiver).reads.Runs
          subscriber.expectHeader streams.flatten visited last ∧
        ((Cpp.DataSubscriber.reader receiver).observations visited =
            sends.flatten.map Frame.body ↔
          Through (Cpp.DataSubscriber.reader receiver).handle subscriber sends.flatten)) ∧
    ∀ (ds : Go.DataSubscriber) (sends : List (List Frame)) (streams : List Bytes),
      List.Forall₂ (fun frames bytes =>
        goPublishes signature frames bytes ∨ cppPublishes sender frames bytes) sends streams →
      ∃ visited last, Go.DataSubscriber.methods.reads.Runs ds.expectHeader
          streams.flatten visited last ∧
        (Go.DataSubscriber.reader.observations visited =
            sends.flatten.map (fun frame => (frame.high == 1, frame.body)) ↔
          Through Go.DataSubscriber.reader.handle ds sends.flatten) := by
  have hpublished : ∀ {sends : List (List Frame)} {streams : List Bytes},
      List.Forall₂ (fun frames bytes =>
        goPublishes signature frames bytes ∨ cppPublishes sender frames bytes) sends streams →
      List.Forall₂ Written sends streams ∧
        List.Forall₂ (fun frames _ => Flagged frames) sends streams := by
    intro sends streams hsends
    constructor
    · exact hsends.imp fun _ _ hsend => hsend.elim written_goPublishes written_cppPublishes
    · exact hsends.imp fun _ _ hsend => hsend.elim flagged_goPublishes flagged_cppPublishes
  have hflag : ∀ seen frame : Frame,
      (seen.high == 1, seen.body) = (frame.high == 1, frame.body) → seen.body = frame.body :=
    fun _ _ hsame => (Prod.mk.inj hsame).2
  refine ⟨?_, ?_, ?_, ?_, ?_⟩
  · intro ω server sends streams hsends
    exact recovered_frames (Cpp.RpcServer.reader receiver) (fun _ _ => rfl)
      (hsends.imp fun _ _ hsend => hsend.elim written_goCalls written_cppCalls) server
  · intro ω rc sends streams hsends
    exact recovered_frames (Cpp.RpcClient.reader receiver) (fun _ _ => rfl)
      (hsends.imp fun _ _ => written_replies) rc
  · intro ω others state sends streams hsends
    exact recovered_bodies (Go.RpcClient.reader others) (fun _ _ => rfl) hflag
      (hsends.imp fun _ _ => written_replies) (hsends.imp fun _ _ => flagged_replies) state
  · intro subscriber sends streams hsends
    exact recovered_bodies (Cpp.DataSubscriber.reader receiver) (fun _ _ => rfl)
      (fun _ _ => id) (hpublished hsends).1 (hpublished hsends).2 subscriber
  · intro ds sends streams hsends
    exact recovered_bodies Go.DataSubscriber.reader (fun _ _ => rfl) hflag
      (hpublished hsends).1 (hpublished hsends).2 ds

private def replying (success : Bool) (body : Bytes) : Cpp.RpcServer Unit :=
  { Cpp.RpcServer.new [] () with callSuccess := success, callReturnsSerialized := body }

theorem frames_recovered_group :
    (∃ visited last, (Cpp.RpcClient.methods Cpp.plainPlatform).reads.Runs
        (Cpp.RpcClient.new []).expectHeader
        [2, 0, 0, 1, 7, 0, 0, 0, 0, 0, 1, 0, 0, 1, 9] visited last ∧
      (Cpp.RpcClient.reader Cpp.plainPlatform).observations visited =
        [⟨1, [7, 0]⟩, ⟨0, []⟩, ⟨1, [9]⟩]) ∧
    ∃ visited last, Go.DataSubscriber.methods.reads.Runs
        (Go.DataSubscriber.NewDataSubscriber [DataType.s.char] true)
        [3, 0, 0, 1, 1, 0, 65, 4, 0, 0, 1, 2, 0, 66, 67] visited last ∧
      Go.DataSubscriber.reader.observations visited =
        [(true, [1, 0, 65]), (true, [2, 0, 66, 67])] := by
  have hlaw := frames_recovered_iff Cpp.plainPlatform Cpp.plainPlatform [] [DataType.s.char]
  constructor
  · obtain ⟨visited, last, hruns, hrecovered⟩ := hlaw.2.1 Unit (Cpp.RpcClient.new [])
      [[⟨1, [7, 0]⟩], [⟨0, []⟩], [⟨1, [9]⟩]] [[2, 0, 0, 1, 7, 0], [0, 0, 0, 0], [1, 0, 0, 1, 9]]
      (.cons ⟨replying true [7, 0], rfl, rfl, rfl⟩
        (.cons ⟨replying false [], rfl, rfl, rfl⟩
          (.cons ⟨replying true [9], rfl, rfl, rfl⟩ .nil)))
    exact ⟨visited, last, hruns, hrecovered.mpr ⟨by decide, rfl⟩⟩
  · let publisher : Cpp.DataPublisher := ⟨[[1, 0, 65], [2, 0, 66, 67]], false, true⟩
    have hgroup : cppPublishes Cpp.plainPlatform [⟨1, [1, 0, 65]⟩, ⟨1, [2, 0, 66, 67]⟩]
        [3, 0, 0, 1, 1, 0, 65, 4, 0, 0, 1, 2, 0, 66, 67] :=
      ⟨publisher, { publisher with messageStack := [] }, rfl, by simp, rfl⟩
    obtain ⟨visited, last, hruns, hrecovered⟩ := hlaw.2.2.2.2
      (Go.DataSubscriber.NewDataSubscriber [DataType.s.char] true)
      [[⟨1, [1, 0, 65]⟩, ⟨1, [2, 0, 66, 67]⟩]] _ (.cons (.inr hgroup) .nil)
    exact ⟨visited, last, hruns, hrecovered.mpr ⟨by decide, rfl⟩⟩

/-- A message of exactly 2^24 bytes is sent, and received as an empty one. -/
theorem full_body_lost :
    ∃ body bytes next visited last,
      Cpp.DataPublisher.encoded Cpp.plainPlatform [DataType.S.char]
          [.value (.strings Cpp.DataPublisher.fullTexts)] = .returns (some body) ∧
      Cpp.DataPublisher.writeMessage Cpp.plainPlatform ⟨[body], false, false⟩ [] =
        some (true, bytes, next) ∧
      (Cpp.DataSubscriber.methods Cpp.plainPlatform).reads.Runs
        (Cpp.DataSubscriber.new [DataType.S.char] true) bytes visited last ∧
      (Cpp.DataSubscriber.reader Cpp.plainPlatform).observations visited ≠ [body] := by
  obtain ⟨body, hencoded, hfull⟩ :=
    Cpp.Publishing.encoded_strings Cpp.plainPlatform Cpp.DataPublisher.fullTexts_fits
      (by rw [Cpp.DataPublisher.fullTexts_size]; norm_num)
  rw [Cpp.DataPublisher.fullTexts_size] at hfull
  have hwrite : Cpp.DataPublisher.writeMessage Cpp.plainPlatform ⟨[body], false, false⟩ [] =
      some (true, Cpp.DataPublisher.frame Cpp.plainPlatform body, ⟨[], false, false⟩) := by
    have hsize : ¬ 16777216 < body.length := by omega
    simp [Cpp.DataPublisher.writeMessage, Cpp.DataPublisher.sendLoop, hsize]
  have hpublishes : cppPublishes Cpp.plainPlatform [⟨1, body⟩]
      (Cpp.DataPublisher.frame Cpp.plainPlatform body) :=
    ⟨_, _, hwrite, by simp, rfl⟩
  obtain ⟨visited, last, hruns, hrecovered⟩ :=
    recovered_bodies (Cpp.DataSubscriber.reader Cpp.plainPlatform) (fun _ _ => rfl)
      (fun _ _ => id) (.cons (written_cppPublishes hpublishes) .nil)
      (.cons (flagged_cppPublishes hpublishes) .nil)
      (Cpp.DataSubscriber.new [DataType.S.char] true)
  refine ⟨body, _, _, visited, last, hencoded, hwrite, ?_, ?_⟩
  · rwa [List.flatten_singleton] at hruns
  · intro hobserved
    have hfits := (hrecovered.mp hobserved).1 ⟨1, body⟩ (by simp)
    have hbody : body.length < 16777216 := hfits.2
    omega

end FrameLaw

end Rpcmple
