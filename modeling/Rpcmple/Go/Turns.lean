import Rpcmple.Go.Calling
import Rpcmple.Go.Frames

namespace Rpcmple.Go

open Data DataSignature System

namespace RpcClient

def frame (rps : RemoteProcedureSignature) (arguments : List Any) : Option Bytes :=
  match ToBinary rps.Arguments [] arguments with
  | .next body =>
      if body.length > 16777216 then none
      else
        let headerMessage := rps.id.toUInt32 * 16777216 + UInt32.ofNat body.length
        some (leBytes 4 headerMessage.toNat ++ body)
  | .fail _ | .crash => none

variable {rps : RemoteProcedureSignature} {rc next : RpcClient} {arguments : List Any}
  {command message : Bytes} {success : Bool}

theorem frame_length (hframe : frame rps arguments = some command) :
    0 < command.length ∧ command.length ≤ 16777220 := by
  unfold frame at hframe
  split at hframe
  · split at hframe
    · cases hframe
    · cases hframe
      rw [List.length_append, length_leBytes]
      omega
  all_goals cases hframe

theorem Call_of_frame (hframe : frame rps arguments = some command) (rc : RpcClient) :
    Call rps rc arguments =
      (true, { rc with command, lastRemoteProc := rps.ProcedureName }) := by
  unfold frame at hframe
  unfold Call
  cases hbody : ToBinary rps.Arguments [] arguments with
  | next body =>
      simp only [hbody] at hframe ⊢
      split at hframe
      · cases hframe
      · rename_i hsize
        cases hframe
        rw [if_neg hsize]
  | fail | crash =>
      rw [hbody] at hframe
      cases hframe

theorem Call_of_not_frame (hframe : frame rps arguments = none) (rc : RpcClient) :
    Call rps rc arguments = (false, { rc with command := [] }) := by
  unfold frame at hframe
  unfold Call
  cases hbody : ToBinary rps.Arguments [] arguments with
  | next body =>
      simp only [hbody] at hframe ⊢
      split at hframe
      · rename_i hsize
        rw [if_pos hsize]
      · cases hframe
  | fail | crash => rfl

theorem Call_spec (hcall : Call rps rc arguments = (success, next)) :
    next = { rc with command := next.command, lastRemoteProc := next.lastRemoteProc } ∧
      (success = true → frame rps arguments = some next.command ∧
        next.lastRemoteProc = rps.ProcedureName) := by
  cases hframe : frame rps arguments with
  | none =>
      rw [Call_of_not_frame hframe] at hcall
      cases hcall
      exact ⟨rfl, by simp⟩
  | some command =>
      rw [Call_of_frame hframe] at hcall
      cases hcall
      exact ⟨rfl, by simp⟩

/-- The complete replies, and the flag of one whose body is still missing. -/
abbrev Received : Type := List (Bool × Bytes) × Option Bool

def receive (received : Received) (piece : Bytes) : Received :=
  match received.2 with
  | some flag => (received.1 ++ [(flag, piece)], none)
  | none =>
      if piece.length ≠ 4 then received
      else
        match readUint32 piece with
        | none => received
        | some section1 =>
            if section1 % 16777216 > 0 then (received.1, some (section1 / 16777216 == 1))
            else (received.1 ++ [(section1 / 16777216 == 1, [])], none)

def received (parsed : List Bytes) : Received := parsed.foldl receive ([], none)

theorem received_snoc (parsed : List Bytes) (piece : Bytes) :
    received (parsed ++ [piece]) = receive (received parsed) piece := by
  rw [received, List.foldl_append]
  rfl

def calledBack (mProc : RemoteProcedureSignature) (reply : Bool × Bytes) (reused : AnySlice) :
    List (RemoteProcedureSignature × Bool × List Any) :=
  if (FromBinary mProc.Returns reply.2 reused).1.isSome && mProc.ReplyCallback then
    [(mProc, reply.1, (FromBinary mProc.Returns reply.2 reused).2.values)]
  else []

def Stands (rc : RpcClient) (pending : Option Bool) : Prop :=
  (rc.sectionID = 0 ∧ pending = none) ∨ (rc.sectionID = 1 ∧ pending = some rc.replySuccess)

structure Keeps (rc next : RpcClient) : Prop where
  remoteProcedures : next.remoteProcedures = rc.remoteProcedures
  command : next.command = rc.command
  lastRemoteProc : next.lastRemoteProc = rc.lastRemoteProc

theorem deliver_keeps (rc : RpcClient) (message : Bytes) :
    Keeps rc (rc.deliver message).2 := by
  unfold deliver
  split
  · exact ⟨rfl, rfl, rfl⟩
  · simp only
    split
    all_goals exact ⟨rfl, rfl, rfl⟩

theorem deliver_count (rc : RpcClient) (message : Bytes) :
    (rc.deliver message).2.replies.length ≤ rc.replies.length + 1 := by
  unfold deliver
  split
  · exact Nat.le_succ _
  · simp only
    split
    · exact Nat.le_succ _
    · simp only
      split
      · simp
      · exact Nat.le_succ _

theorem deliver_replies {mProc : RemoteProcedureSignature}
    (hproc : rc.remoteProcedure rc.lastRemoteProc = some mProc) (message : Bytes) :
    (rc.deliver message).2.replies =
      rc.replies ++ calledBack mProc (rc.replySuccess, message) rc.callbackValues := by
  rw [deliver, hproc]
  simp only [calledBack]
  cases (FromBinary mProc.Returns message rc.callbackValues).1.isSome with
  | false => simp
  | true => cases mProc.ReplyCallback <;> simp

theorem ParseMessage_spec {done : List (Bool × Bytes)} {pending : Option Bool}
    (hstands : rc.Stands pending) (hparse : rc.ParseMessage message = (success, next)) :
    Keeps rc next ∧
      ((success = false ∧ next.replies = rc.replies ∧
          (receive (done, pending) message).1 = done) ∨
        (success = true ∧ next.replies = rc.replies ∧
          ∃ flag, receive (done, pending) message = (done, some flag) ∧
            next.Stands (some flag)) ∨
        ∃ reply, receive (done, pending) message = (done ++ [reply], none) ∧
          (success = true → next.Stands none) ∧
          next.replies.length ≤ rc.replies.length + 1 ∧
          ∀ mProc, rc.remoteProcedure rc.lastRemoteProc = some mProc →
            ∃ reused, next.replies = rc.replies ++ calledBack mProc reply reused) := by
  rcases hstands with ⟨hsection, rfl⟩ | ⟨hsection, rfl⟩
  · rw [ParseMessage, if_pos hsection, parseHeader] at hparse
    split at hparse
    · rename_i hlength
      cases hparse
      exact ⟨⟨rfl, rfl, rfl⟩, .inl ⟨rfl, rfl, by simp [receive, hlength]⟩⟩
    · rename_i hlength
      cases hread : readUint32 message with
      | none =>
          rw [hread] at hparse
          cases hparse
          exact ⟨⟨rfl, rfl, rfl⟩, .inl ⟨rfl, rfl, by simp [receive, hlength, hread]⟩⟩
      | some section1 =>
          rw [hread] at hparse
          simp only at hparse
          split at hparse
          · rename_i hpositive
            cases hparse
            refine ⟨⟨rfl, rfl, rfl⟩, .inr (.inl ⟨rfl, rfl, section1 / 16777216 == 1, ?_,
              .inr ⟨rfl, rfl⟩⟩)⟩
            simp only [receive, if_neg hlength, hread, if_pos hpositive]
          · rename_i hempty
            have hreply : receive (done, none) message =
                (done ++ [(section1 / 16777216 == 1, [])], none) := by
              simp only [receive, if_neg hlength, hread, if_neg hempty]
            generalize hheader : ({ rc with
              replySuccess := section1 / 16777216 == 1
              sectionLen := section1 % 16777216 } : RpcClient) = header at hparse
            have hkeeps := deliver_keeps header []
            split at hparse
            all_goals
              cases hparse
              subst hheader
              refine ⟨⟨hkeeps.remoteProcedures, hkeeps.command, hkeeps.lastRemoteProc⟩,
                .inr (.inr ⟨_, hreply, ?_, deliver_count _ [],
                  fun mProc hproc => ⟨rc.callbackValues,
                    @deliver_replies { rc with
                      replySuccess := section1 / 16777216 == 1
                      sectionLen := section1 % 16777216 } mProc hproc []⟩⟩)⟩
            · intro hfalse
              cases hfalse
            · exact fun _ => .inl ⟨rfl, rfl⟩
  · have hother : ¬ rc.sectionID = 0 := by
      rw [hsection]
      decide
    rw [ParseMessage, if_neg hother, if_pos hsection, parseBody] at hparse
    have hkeeps := deliver_keeps rc message
    simp only at hparse
    split at hparse
    all_goals
      cases hparse
      refine ⟨⟨hkeeps.remoteProcedures, hkeeps.command, hkeeps.lastRemoteProc⟩,
        .inr (.inr ⟨_, rfl, ?_, deliver_count rc message, fun mProc hproc =>
          ⟨rc.callbackValues, deliver_replies hproc message⟩⟩)⟩
    · intro hfalse
      cases hfalse
    · exact fun _ => .inl ⟨rfl, rfl⟩

end RpcClient

namespace MessageManager

variable {σ : Type} {methods : MessageParser σ} {mm : MessageManager σ}

theorem upToSend_spec (hlength : mm.messageLength ≠ 0) :
    (mm.upToSend methods).1.written = mm.written ∧
      (mm.upToSend methods).1.messageLength ≠ 0 ∧
      (((mm.upToSend methods).2 = false ∧ (mm.upToSend methods).1.parser = mm.parser ∧
          (mm.upToSend methods).1.parsed = mm.parsed) ∨
        ∃ piece, (mm.upToSend methods).1.parsed = mm.parsed ++ [piece] ∧
          methods.ParseMessage mm.parser piece =
            ((mm.upToSend methods).2, (mm.upToSend methods).1.parser) ∧
          ((mm.upToSend methods).1.loop = .closed ↔ (mm.upToSend methods).2 = false)) := by
  unfold upToSend
  cases hloop : mm.loop with
  | closed => exact ⟨rfl, hlength, .inl ⟨rfl, rfl, rfl⟩⟩
  | outer =>
      simp only [if_pos hlength]
      split
      · exact ⟨rfl, hlength, .inl ⟨rfl, rfl, rfl⟩⟩
      · split
        · exact ⟨rfl, hlength, .inl ⟨rfl, rfl, rfl⟩⟩
        · split
          all_goals exact ⟨rfl, hlength, .inl ⟨rfl, rfl, rfl⟩⟩
  | inner =>
      have htransfer : mm.transfer.loop = .inner := hloop
      rcases hparse : methods.ParseMessage mm.transfer.parser mm.transfer.readMessage with
        ⟨success, parser⟩
      simp only
      split
      · split
        · cases success with
          | false => exact ⟨rfl, hlength, .inr ⟨_, rfl, hparse, iff_of_true rfl rfl⟩⟩
          | true =>
              exact ⟨rfl, hlength, .inr ⟨_, rfl, hparse, by simp [htransfer]⟩⟩
        · exact ⟨rfl, hlength, .inl ⟨rfl, rfl, rfl⟩⟩
      · exact ⟨rfl, hlength, .inl ⟨rfl, rfl, rfl⟩⟩

theorem transmit_frame {message : Bytes} (hpositive : 0 < message.length)
    (hsize : message.length ≤ 16777220) (first : Bool) (written : List Bytes) :
    transmit first (fun _ _ => true) true message written = some (written ++ [message]) := by
  have hsmall : ¬ message.length % 2 ^ 32 > 16777220 := by omega
  rw [transmit, if_neg (by simp), if_neg hpositive.ne', if_neg hsmall, if_neg (by simp)]

end MessageManager

namespace Calling

def Over (flow : Flow) (loop : Loop) : Prop :=
  (flow = .loop ∧ loop = .closed) ∨ flow = .returned

/-- The flow goes on, from where the received sections have brought it. -/
structure GoesOn (loop : Loop) (messageLength : Nat) (rc : RpcClient)
    (received : RpcClient.Received) : Prop where
  loop : loop ≠ .closed
  length : messageLength ≠ 0
  framed : rc.Framed
  stands : rc.Stands received.2

def Goes (state : Calling) : Prop :=
  GoesOn state.mm.loop state.mm.messageLength state.rc (RpcClient.received state.mm.parsed)

variable {state : Calling}

theorem loops_spec (hgoes : state.Goes) :
    state.loops.mm.written = state.mm.written ∧ state.rc.Keeps state.loops.rc ∧
      ((state.loops.flow = .loop ∧ state.loops.rc = state.rc ∧
          state.loops.mm.parsed = state.mm.parsed ∧
          (state.loops.mm.loop ≠ .closed → state.loops.Goes)) ∨
        (Over state.loops.flow state.loops.mm.loop ∧
          state.loops.rc.replies = state.rc.replies ∧
          (RpcClient.received state.loops.mm.parsed).1 =
            (RpcClient.received state.mm.parsed).1) ∨
        (state.loops.flow = .send false ∧ state.loops.rc.sectionID ≠ 0 ∧ state.loops.Goes ∧
          state.loops.rc.replies = state.rc.replies ∧
          (RpcClient.received state.loops.mm.parsed).1 =
            (RpcClient.received state.mm.parsed).1) ∨
        ∃ reply, (RpcClient.received state.loops.mm.parsed).1 =
            (RpcClient.received state.mm.parsed).1 ++ [reply] ∧
          state.loops.rc.replies.length ≤ state.rc.replies.length + 1 ∧
          (∀ mProc, state.rc.remoteProcedure state.rc.lastRemoteProc = some mProc →
            ∃ reused, state.loops.rc.replies =
              state.rc.replies ++ RpcClient.calledBack mProc reply reused) ∧
          (Over state.loops.flow state.loops.mm.loop ∨
            (state.loops.flow = .send false ∧ state.loops.rc.sectionID = 0 ∧
              state.loops.Goes))) := by
  obtain ⟨hwritten, hmeasured, hparses⟩ :=
    @MessageManager.upToSend_spec _ RpcClient.parser state.mm hgoes.length
  have hlooping : (state.mm.upToSend RpcClient.parser).2 = false →
      state.loops.flow = .loop := by
    intro hquiet
    simp only [loops, hquiet, if_neg hgoes.loop]
    rfl
  refine ⟨hwritten, ?_⟩
  rcases hparses with ⟨hquiet, hparser, hparsed⟩ | ⟨piece, hparsed, hparse, hclosed⟩
  · have hrc : state.loops.rc = state.rc := hparser
    have hsame : state.loops.mm.parsed = state.mm.parsed := hparsed
    refine ⟨by rw [hrc]; exact ⟨rfl, rfl, rfl⟩, .inl ⟨hlooping hquiet, hrc, hsame, ?_⟩⟩
    intro hloop
    rw [Goes, hrc, hsame]
    exact ⟨hloop, hmeasured, hgoes.framed, hgoes.stands⟩
  · have hreceived : RpcClient.received state.loops.mm.parsed =
        RpcClient.receive (RpcClient.received state.mm.parsed) piece := by
      rw [← RpcClient.received_snoc]
      exact congrArg RpcClient.received hparsed
    obtain ⟨hkeeps, hspec⟩ := @RpcClient.ParseMessage_spec state.rc state.loops.rc piece _
      (RpcClient.received state.mm.parsed).1 _ hgoes.stands hparse
    have hfollows : (state.mm.upToSend RpcClient.parser).2 = true →
        state.loops.rc.Stands (RpcClient.received state.loops.mm.parsed).2 →
        state.loops.flow = .send false ∧ state.loops.Goes := by
      intro hsuccess hstands
      refine ⟨by simp only [loops, hsuccess, if_true], ?_, hmeasured, ?_, hstands⟩
      · intro hends
        rw [hclosed.mp hends] at hsuccess
        cases hsuccess
      · exact RpcClient.ParseMessage_framed (hparse.trans (by rw [hsuccess]; rfl))
    have hends : (state.mm.upToSend RpcClient.parser).2 = false →
        Over state.loops.flow state.loops.mm.loop :=
      fun hfails => .inl ⟨hlooping hfails, hclosed.mpr hfails⟩
    rw [hreceived] at hfollows
    refine ⟨hkeeps, .inr ?_⟩
    rw [hreceived]
    rcases hspec with ⟨hfails, hreplies, hdone⟩ | ⟨hsuccess, hreplies, flag, hdone, hbody⟩ |
      ⟨reply, hdone, hheader, hcount, hreplies⟩
    · exact .inl ⟨hends hfails, hreplies, hdone⟩
    · obtain ⟨hflow, hfollowing⟩ := hfollows hsuccess (by rw [hdone]; exact hbody)
      refine .inr (.inl ⟨hflow, ?_, hfollowing, hreplies, by rw [hdone]⟩)
      rcases hbody with ⟨-, hfalse⟩ | ⟨hone, -⟩
      · cases hfalse
      · rw [hone]
        decide
    · refine .inr (.inr ⟨reply, by rw [hdone], hcount, hreplies, ?_⟩)
      cases hsuccess : (state.mm.upToSend RpcClient.parser).2 with
      | false => exact .inl (hends hsuccess)
      | true =>
          obtain ⟨hflow, hfollowing⟩ :=
            hfollows hsuccess (by rw [hdone]; exact hheader hsuccess)
          refine .inr ⟨hflow, ?_, hfollowing⟩
          rcases hheader hsuccess with ⟨hzero, -⟩ | ⟨-, hfalse⟩
          · exact hzero
          · cases hfalse

theorem calls_split {index : Nat} {goroutine : Goroutine}
    (hcall : state.calls[index]? = some goroutine) :
    ∃ front back, state.calls = front ++ goroutine :: back ∧
      ∀ place, (state.goto index place).calls = front ++ { goroutine with place } :: back := by
  obtain ⟨hindex, rfl⟩ := List.getElem?_eq_some_iff.mp hcall
  refine ⟨state.calls.take index, state.calls.drop (index + 1), ?_, ?_⟩
  · rw [List.cons_getElem_drop_succ, List.take_append_drop]
  · intro place
    exact List.modify_eq_take_cons_drop hindex

theorem Over.loops (hover : Over state.flow state.mm.loop) (hflow : state.flow = .loop) :
    state.loops = { state with flow := .returned } := by
  have hclosed : state.mm.loop = .closed := by simpa [Over, hflow] using hover
  have hstays : state.mm.upToSend RpcClient.parser = (state.mm, false) := by
    rw [MessageManager.upToSend, hclosed]
  simp only [Calling.loops, hstays, hclosed]
  rfl

end Calling

end Rpcmple.Go
