import Rpcmple.Cpp.Moves
import Rpcmple.Data.System

namespace Rpcmple.Cpp

open Data MessageManager System

def replyEvents (frame : Frame) : List Event :=
  if frame.body.length = 0 then [.parsed (Frame.header frame.high 0)]
  else [.parsed (Frame.header frame.high frame.body.length), .parsed frame.body]

theorem replyEvents_empty (high : Nat) :
    replyEvents ⟨high, []⟩ = [.parsed (Frame.header high 0)] := if_pos rfl

theorem replyEvents_body {frame : Frame} (hbody : frame.body.length ≠ 0) :
    replyEvents frame =
      [.parsed (Frame.header frame.high frame.body.length), .parsed frame.body] :=
  if_neg hbody

theorem header_inj {high size high' size' : Nat} (hhigh : high < 256) (hsize : size < 16777216)
    (hhigh' : high' < 256) (hsize' : size' < 16777216)
    (hsame : Frame.header high size = Frame.header high' size') :
    high = high' ∧ size = size' := by
  have hvalue := congrArg leValue hsame
  rw [Frame.leValue_header hhigh hsize, Frame.leValue_header hhigh' hsize'] at hvalue
  omega

theorem replyEvents_inj {first second : Frame} (hfirst : first.Fits) (hsecond : second.Fits)
    (hsame : replyEvents first = replyEvents second) : first = second := by
  obtain ⟨high, body⟩ := first
  obtain ⟨high', body'⟩ := second
  by_cases hbody : body.length = 0
  · obtain rfl := List.length_eq_zero_iff.mp hbody
    by_cases hbody' : body'.length = 0
    · obtain rfl := List.length_eq_zero_iff.mp hbody'
      rw [replyEvents_empty, replyEvents_empty, List.cons.injEq, Event.parsed.injEq] at hsame
      exact congrArg₂ Frame.mk
        (header_inj hfirst.1 hfirst.2 hsecond.1 hsecond.2 hsame.1).1 rfl
    · rw [replyEvents_empty, replyEvents_body hbody'] at hsame
      simp at hsame
  · by_cases hbody' : body'.length = 0
    · obtain rfl := List.length_eq_zero_iff.mp hbody'
      rw [replyEvents_empty, replyEvents_body hbody] at hsame
      simp at hsame
    · rw [replyEvents_body hbody, replyEvents_body hbody'] at hsame
      simp only [List.cons.injEq, Event.parsed.injEq, and_true] at hsame
      exact congrArg₂ Frame.mk
        (header_inj hfirst.1 hfirst.2 hsecond.1 hsecond.2 hsame.1).1 hsame.2

/-- The frame of a call is on its way, or a header of its reply came in front of a body. -/
inductive Incomplete (command : Bytes) : List Event → Prop where
  | unsent : Incomplete command []
  | sent : Incomplete command [.sent command]
  | announced {high size : Nat} : high < 256 → size < 16777216 → size ≠ 0 →
      Incomplete command [.sent command, .parsed (Frame.header high size)]

theorem Incomplete.not_replied {command : Bytes} {since : List Event}
    (hincomplete : Incomplete command since) {frame : Frame} (hfits : frame.Fits) :
    since ≠ .sent command :: replyEvents frame := by
  intro hsame
  cases hincomplete with
  | unsent => cases hsame
  | sent =>
      rw [replyEvents] at hsame
      split at hsame <;> simp at hsame
  | announced hhigh hsize hbody =>
      by_cases hempty : frame.body.length = 0
      · rw [replyEvents, if_pos hempty] at hsame
        simp only [List.cons.injEq, Event.parsed.injEq, and_true, true_and] at hsame
        exact hbody (header_inj hhigh hsize hfits.1 (Nat.pos_of_ne_zero (by decide)) hsame).2
      · rw [replyEvents_body hempty] at hsame
        simp at hsame

/-- How far the outstanding call is, by what the flow has shown since it was pushed. -/
inductive Progress (host : Platform) (client : RpcClient) (turn : Turn) (call : Call)
    (args : Bytes) : List Event → Prop where
  | queued :
      client.replIsReady = false → client.sendIsReady = true → client.args = args →
      client.procedureID = call.rpId → turn = .waits ∨ turn = .woken →
      Progress host client turn call args []
  | holds :
      client.replIsReady = false → client.sendIsReady = false →
      turn = .holds (commandFrame host call.rpId args) → Progress host client turn call args []
  | reads :
      client.replIsReady = false → client.sendIsReady = false → turn = .reads →
      Progress host client turn call args [.sent (commandFrame host call.rpId args)]
  | announced {high size : Nat} :
      high < 256 → size < 16777216 → size ≠ 0 →
      client.callSuccessInt = UInt32.ofNat high → client.sectionLen = UInt32.ofNat size →
      client.replIsReady = false → client.sendIsReady = false → turn = .readsBody →
      Progress host client turn call args
        [.sent (commandFrame host call.rpId args), .parsed (Frame.header high size)]
  | replied {frame : Frame} :
      frame.Fits → client.callSuccessInt = UInt32.ofNat frame.high →
      client.rets = frame.body → client.replIsReady = true → client.sendIsReady = false →
      turn = .waits ∨ turn = .ends →
      Progress host client turn call args
        (.sent (commandFrame host call.rpId args) :: replyEvents frame)
  | ended {since : List Event} :
      Incomplete (commandFrame host call.rpId args) since → client.replIsReady = false →
      turn = .ends → Progress host client turn call args since

variable {host : Platform} {client next : RpcClient} {turn following : Turn}
  {events since : List Event} {call : Call} {args : Bytes}

theorem FlowStep.keeps (hstep : FlowStep host client turn events next following) :
    next.canCall = client.canCall ∧ next.stopWait = client.stopWait ∧
      (client.replIsReady = true → next.replIsReady = true) := by
  cases hstep with
  | stays | ends | wakes | takes | sends | announces => exact ⟨rfl, rfl, id⟩
  | replies | completes => exact ⟨rfl, rfl, fun _ => rfl⟩

theorem commandFrame_ne_nil (host : Platform) (rpId : UInt32) (args : Bytes) :
    (commandFrame host rpId args).isEmpty = false := by
  rw [commandFrame, headerBytes_eq, List.isEmpty_eq_false_iff, ← List.length_pos_iff,
    List.length_append, Frame.length_header]
  omega

theorem Progress.flows (hprogress : Progress host client turn call args since)
    (hstep : FlowStep host client turn events next following) :
    Progress host next following call args (since ++ events) := by
  cases hprogress with
  | queued hnone hready hargs hid hturn =>
      rcases hturn with rfl | rfl
      · cases hstep with
        | stays => exact .queued hnone hready hargs hid (.inl rfl)
        | ends => exact .ended .unsent hnone rfl
        | wakes _ => exact .queued hnone hready hargs hid (.inr rfl)
      · cases hstep with
        | stays => exact .queued hnone hready hargs hid (.inr rfl)
        | ends => exact .ended .unsent hnone rfl
        | takes => exact .holds hnone rfl (by rw [hargs, hid])
  | holds hnone hready hturn =>
      subst hturn
      cases hstep with
      | stays => exact .holds hnone hready rfl
      | ends => exact .ended .unsent hnone rfl
      | sends =>
          rw [commandFrame_ne_nil]
          exact .reads hnone hready rfl
  | reads hnone hready hturn =>
      subst hturn
      cases hstep with
      | stays => exact .reads hnone hready rfl
      | ends => exact .ended .sent hnone rfl
      | @replies high hhigh =>
          have hfits : Frame.Fits ⟨high, []⟩ := ⟨hhigh, Nat.pos_of_ne_zero (by decide)⟩
          rw [List.singleton_append, ← replyEvents_empty]
          exact .replied hfits rfl rfl rfl hready (.inl rfl)
      | announces hhigh hsize hbody =>
          exact .announced hhigh hsize hbody rfl rfl hnone hready rfl
  | @announced high size hhigh hsize hbody hflag hlen hnone hready hturn =>
      subst hturn
      cases hstep with
      | stays => exact .announced hhigh hsize hbody hflag hlen hnone hready rfl
      | ends => exact .ended (.announced hhigh hsize hbody) hnone rfl
      | @completes piece hlength =>
          have hpiece : piece.length = size := by
            rw [hlength, hlen]
            exact toNat_size hsize
          obtain rfl := hpiece
          have hevents := @replyEvents_body ⟨high, piece⟩ hbody
          rw [List.cons_append, List.singleton_append, ← hevents]
          exact .replied ⟨hhigh, hsize⟩ hflag rfl rfl hready (.inl rfl)
  | replied hfits hflag hrets hreply hready hturn =>
      rcases hturn with rfl | rfl
      · cases hstep with
        | stays =>
            rw [List.append_nil]
            exact .replied hfits hflag hrets hreply hready (.inl rfl)
        | ends =>
            rw [List.append_nil]
            exact .replied hfits hflag hrets hreply hready (.inr rfl)
        | wakes hsend =>
            rw [hready] at hsend
            cases hsend
      · cases hstep with
        | stays | ends =>
            rw [List.append_nil]
            exact .replied hfits hflag hrets hreply hready (.inr rfl)
  | ended hincomplete hnone hturn =>
      subst hturn
      cases hstep with
      | stays | ends =>
          rw [List.append_nil]
          exact .ended hincomplete hnone rfl

theorem Progress.replied_or (hprogress : Progress host client turn call args since) :
    (∃ frame : Frame, frame.Fits ∧ client.callSuccessInt = UInt32.ofNat frame.high ∧
        client.rets = frame.body ∧ client.replIsReady = true ∧ client.sendIsReady = false ∧
        (turn = .waits ∨ turn = .ends) ∧
        since = .sent (commandFrame host call.rpId args) :: replyEvents frame) ∨
      Incomplete (commandFrame host call.rpId args) since ∧ client.replIsReady = false := by
  cases hprogress with
  | queued hnone => exact .inr ⟨.unsent, hnone⟩
  | holds hnone => exact .inr ⟨.unsent, hnone⟩
  | reads hnone => exact .inr ⟨.sent, hnone⟩
  | announced hhigh hsize hbody _ _ hnone => exact .inr ⟨.announced hhigh hsize hbody, hnone⟩
  | replied hfits hflag hrets hreply hready hturn =>
      exact .inl ⟨_, hfits, hflag, hrets, hreply, hready, hturn, rfl⟩
  | ended hincomplete hnone => exact .inr ⟨hincomplete, hnone⟩

namespace Caller

def pushed? : Caller → Option (Call × Bytes × List Event)
  | .collecting call args since | .released call args since => some (call, args, since)
  | .idle | .waiting _ | .pushing _ => none

theorem pushed?_sees (events : List Event) (caller : Caller) :
    (caller.sees events).pushed? =
      caller.pushed?.map fun pushed => (pushed.1, pushed.2.1, pushed.2.2 ++ events) := by
  cases caller with
  | idle | waiting | pushing | collecting | released => rfl

end Caller

/-- The values were decoded from the body of this reply, the only one since the call was
pushed, and behind its frame. -/
structure Answered (host : Platform) (answer : Returned) (frame : Frame) : Prop where
  since : answer.since =
    .sent (commandFrame host answer.call.rpId answer.args) :: replyEvents frame
  decoded : ∃ decoded, DataSignature.fromBinary host answer.call.proc.rets frame.body
      answer.call.returns = .returns decoded ∧ decoded.success = true ∧
    decoded.args.length = answer.call.proc.rets.length ∧ answer.values = decoded.args

namespace Calling

def outstanding (state : Calling) : List (Call × Bytes × List Event) :=
  state.callers.filterMap Caller.pushed?

def commands (host : Platform) (pushed : List (Call × Bytes)) : List Bytes :=
  pushed.map fun command => commandFrame host command.1.rpId command.2

/-- The frame is the reply to the frame of this call: it has its place among the replies
that were read. -/
def Numbered (host : Platform) (state : Calling) (answer : Returned) (frame : Frame) : Prop :=
  ∃ (index : Nat) (replies : List Frame), (∀ reply ∈ replies, reply.Fits) ∧
    replies.flatMap Frame.bytes <+: state.read ∧ replies[index]? = some frame ∧
    state.pushed[index]? = some (answer.call, answer.args) ∧
    state.mm.written[index]? = some (commandFrame host answer.call.rpId answer.args)

/-- What a `callSync` that returned true has had from the flow. -/
inductive Outcome (host : Platform) (state : Calling) (answer : Returned) : Prop where
  | answered {frame : Frame} :
      frame.Fits → Answered host answer frame → state.Numbered host answer frame →
      answer.client.replIsReady = true →
      answer.client.callSuccessInt = UInt32.ofNat frame.high → Outcome host state answer
  | unanswered :
      Incomplete (commandFrame host answer.call.rpId answer.args) answer.since →
      answer.client.replIsReady = false → answer.client.stopWait = true →
      Outcome host state answer

structure Logged (host : Platform) (state : Calling) (front : List (Call × Bytes))
    (since : List Event) (replies : List Frame) : Prop where
  written : state.mm.written = commands host front ++ since.filterMap message?
  read : state.read = replies.flatMap Frame.bytes ++ since.flatMap received
  replied : replies.length = front.length
  fits : ∀ reply ∈ replies, Frame.Fits reply

/-- No call is outstanding, one is, or a stop was requested behind the last one. -/
inductive Phase (host : Platform) (state : Calling) : Prop where
  | rests {replies : List Frame} :
      state.outstanding = [] → state.client.canCall = true →
      state.client.replIsReady = false → state.client.sendIsReady = false →
      state.turn = .waits ∨ state.turn = .ends →
      Logged host state state.pushed [] replies → Phase host state
  | one {call : Call} {args : Bytes} {since : List Event} {front : List (Call × Bytes)}
      {replies : List Frame} :
      state.outstanding = [(call, args, since)] → state.client.canCall = false →
      Progress host state.client state.turn call args since →
      state.pushed = front ++ [(call, args)] → Logged host state front since replies →
      Phase host state
  | stopped :
      state.client.stopWait = true →
      (∀ caller ∈ state.callers, caller = .idle ∨ ∃ call, caller = .waiting call) →
      Phase host state

def Passed (state : Calling) : Prop :=
  ∀ call args since, Caller.released call args since ∈ state.callers →
    state.client.replIsReady = true ∨ state.client.stopWait = true

structure Exchanges (host : Platform) (state : Calling) : Prop where
  steady : state.Steady host
  outcomes : ∀ answer ∈ state.returned, Outcome host state answer
  passed : state.Passed
  phase : Phase host state

variable {state after : Calling} {index : Nat} {before caller : Caller}
  {writeOk : List Bytes → Bytes → Bool}

private theorem getElem?_of_prefix {α : Type} {items more : List α} (hfront : items <+: more)
    {index : Nat} {item : α} (hitem : items[index]? = some item) : more[index]? = some item := by
  obtain ⟨rest, rfl⟩ := hfront
  obtain ⟨hindex, -⟩ := List.getElem?_eq_some_iff.mp hitem
  rw [List.getElem?_append_left hindex, hitem]

theorem Outcome.grows {answer : Returned} (houtcome : Outcome host state answer)
    (hpushed : state.pushed <+: after.pushed) (hwritten : state.mm.written <+: after.mm.written)
    (hread : state.read <+: after.read) : Outcome host after answer := by
  cases houtcome with
  | answered hfits hanswered hnumbered hreply hflag =>
      obtain ⟨index, replies, hreplies, hfront, hframe, hcall, hcommand⟩ := hnumbered
      exact .answered hfits hanswered
        ⟨index, replies, hreplies, hfront.trans hread, hframe, getElem?_of_prefix hpushed hcall,
          getElem?_of_prefix hwritten hcommand⟩ hreply hflag
  | unanswered hincomplete hnone hstop => exact .unanswered hincomplete hnone hstop

theorem Logged.flows {front : List (Call × Bytes)} {since events : List Event}
    {replies : List Frame} (hlogged : Logged host state front since replies)
    (hflows : state.Flows host events after) :
    Logged host after front (since ++ events) replies where
  written := by
    rw [hflows.written, hlogged.written, List.filterMap_append, List.append_assoc]
  read := by rw [hflows.read, hlogged.read, List.flatMap_append, List.append_assoc]
  replied := hlogged.replied
  fits := hlogged.fits

theorem received_replyEvents (frame : Frame) :
    (replyEvents frame).flatMap received = frame.bytes := by
  by_cases hbody : frame.body.length = 0
  · obtain ⟨high, body⟩ := frame
    obtain rfl := List.length_eq_zero_iff.mp hbody
    rw [replyEvents_empty]
    rfl
  · rw [replyEvents_body hbody]
    simp [received, Frame.bytes]

theorem message?_replyEvents (frame : Frame) :
    (replyEvents frame).filterMap message? = [] := by
  rw [replyEvents]
  split <;> rfl

theorem Logged.replies {front : List (Call × Bytes)} {replies : List Frame} {frame : Frame}
    (hlogged : Logged host state front
      (.sent (commandFrame host call.rpId args) :: replyEvents frame) replies)
    (hfits : frame.Fits) :
    Logged host state (front ++ [(call, args)]) [] (replies ++ [frame]) where
  written := by
    rw [hlogged.written, List.filterMap_cons, message?_replyEvents, commands, commands,
      List.map_append]
    simp [message?]
  read := by
    rw [hlogged.read, List.flatMap_cons, received_replyEvents, List.flatMap_append]
    simp [received]
  replied := by simp [hlogged.replied]
  fits := List.forall_mem_append.mpr ⟨hlogged.fits, by simpa using hfits⟩

theorem callers_split (hcaller : state.callers[index]? = some before) :
    ∃ front back, state.callers = front ++ before :: back ∧
      ∀ caller, state.callers.set index caller = front ++ caller :: back := by
  obtain ⟨hindex, rfl⟩ := List.getElem?_eq_some_iff.mp hcaller
  refine ⟨state.callers.take index, state.callers.drop (index + 1), ?_, ?_⟩
  · rw [List.cons_getElem_drop_succ, List.take_append_drop]
  · intro caller
    exact List.set_eq_take_append_cons_drop.trans (if_pos hindex)

theorem outstanding_goto (hcaller : state.callers[index]? = some before)
    (hsame : caller.pushed? = before.pushed?) :
    (state.goto index caller).outstanding = state.outstanding := by
  obtain ⟨front, back, hcallers, hgoto⟩ := callers_split hcaller
  change (state.callers.set index caller).filterMap Caller.pushed? =
    state.callers.filterMap Caller.pushed?
  rw [hgoto, hcallers, List.filterMap_append, List.filterMap_append, List.filterMap_cons,
    List.filterMap_cons, hsame]

theorem outstanding_push (hnone : state.outstanding = [])
    (hcaller : state.callers[index]? = some before)
    (hpushed : caller.pushed? = some (call, args, since)) :
    (state.callers.set index caller).filterMap Caller.pushed? = [(call, args, since)] := by
  obtain ⟨front, back, hcallers, hgoto⟩ := callers_split hcaller
  rw [outstanding, hcallers, List.filterMap_append, List.append_eq_nil_iff] at hnone
  obtain ⟨hfront, hback⟩ := hnone
  have htail : back.filterMap Caller.pushed? = [] := by
    rw [List.filterMap_eq_nil_iff] at hback ⊢
    exact fun other hmem => hback other (List.mem_cons_of_mem _ hmem)
  rw [hgoto, List.filterMap_append, List.filterMap_cons, hfront, htail, hpushed]
  rfl

theorem outstanding_free {other : Call × Bytes × List Event}
    (hone : state.outstanding = [other]) (hcaller : state.callers[index]? = some before)
    (hpushed : before.pushed? = some (call, args, since)) (hidle : caller.pushed? = none) :
    (call, args, since) = other ∧
      (state.callers.set index caller).filterMap Caller.pushed? = [] := by
  obtain ⟨front, back, hcallers, hgoto⟩ := callers_split hcaller
  rw [outstanding, hcallers, List.filterMap_append, List.filterMap_cons, hpushed] at hone
  simp only [List.append_eq_singleton_iff, List.cons_ne_nil, and_false, or_false,
    List.cons.injEq] at hone
  obtain ⟨hfront, hsame, hback⟩ := hone
  refine ⟨hsame, ?_⟩
  rw [hgoto, List.filterMap_append, List.filterMap_cons, hfront, hidle, hback]
  rfl

theorem passed_of_none (hnone : state.outstanding = []) : state.Passed := by
  intro call args since hmem
  rw [outstanding, List.filterMap_eq_nil_iff] at hnone
  have hreleased := hnone _ hmem
  cases hreleased

theorem outstanding_sees (events : List Event) (callers : List Caller) :
    (callers.map (Caller.sees events)).filterMap Caller.pushed? =
      (callers.filterMap Caller.pushed?).map fun pushed =>
        (pushed.1, pushed.2.1, pushed.2.2 ++ events) := by
  rw [List.filterMap_map, List.map_filterMap]
  exact List.filterMap_congr fun caller _ => Caller.pushed?_sees events caller

theorem exchanges_start (host : Platform) (remoteProcedures : List RemoteProcedureSignature)
    (threads : Nat) : Exchanges host (start host remoteProcedures threads) := by
  have hnone : (start host remoteProcedures threads).outstanding = [] := by
    rw [outstanding, List.filterMap_eq_nil_iff]
    intro caller hmem
    obtain rfl := List.eq_of_mem_replicate hmem
    rfl
  refine ⟨steady_start host remoteProcedures threads, by simp [start], passed_of_none hnone, ?_⟩
  have hlogged : Logged host (start host remoteProcedures threads) [] [] [] :=
    ⟨rfl, rfl, rfl, by simp⟩
  exact .rests hnone rfl rfl rfl (.inl rfl) hlogged

theorem Exchanges.flows {events : List Event} (hexchanges : Exchanges host state)
    (hflows : state.Flows host events after) : Exchanges host after := by
  obtain ⟨hcanCall, hstop, hreply⟩ := hflows.moves.keeps
  have houtstanding : after.outstanding = state.outstanding.map fun pushed =>
      (pushed.1, pushed.2.1, pushed.2.2 ++ events) := by
    rw [outstanding, hflows.callers, outstanding_sees]
    rfl
  refine ⟨hflows.steady, ?_, ?_, ?_⟩
  · intro answer hmem
    rw [hflows.returned] at hmem
    refine (hexchanges.outcomes answer hmem).grows ?_ ?_ ?_
    · rw [hflows.pushed]
    · rw [hflows.written]
      exact List.prefix_append _ _
    · rw [hflows.read]
      exact List.prefix_append _ _
  · intro call args since hmem
    rw [hflows.callers] at hmem
    obtain ⟨caller, hold, hsees⟩ := List.mem_map.mp hmem
    cases caller with
    | idle | waiting | pushing | collecting => cases hsees
    | released =>
        rw [hstop]
        exact (hexchanges.passed _ _ _ hold).imp_left hreply
  · cases hexchanges.phase with
    | rests hnone hcan hreply hready hturn hlogged =>
        have hquiet : events = [] ∧ after.client = state.client ∧
            (after.turn = .waits ∨ after.turn = .ends) := by
          have hmoves := hflows.moves
          rcases hturn with hturn | hturn
          · rw [hturn] at hmoves
            generalize after.turn = following at hmoves
            generalize hclient : after.client = next at hmoves
            cases hmoves with
            | stays => exact ⟨rfl, rfl, .inl rfl⟩
            | ends => exact ⟨rfl, rfl, .inr rfl⟩
            | wakes hsend =>
                rw [hready] at hsend
                cases hsend
          · rw [hturn] at hmoves
            generalize after.turn = following at hmoves
            generalize hclient : after.client = next at hmoves
            cases hmoves with
            | stays | ends => exact ⟨rfl, rfl, .inr rfl⟩
        obtain ⟨rfl, hclient, hturn⟩ := hquiet
        have hnext := hlogged.flows hflows
        rw [← hflows.pushed] at hnext
        exact .rests (by rw [houtstanding, hnone]; rfl) (by rw [hclient]; exact hcan)
          (by rw [hclient]; exact hreply) (by rw [hclient]; exact hready) hturn hnext
    | one hone hbusy hprogress hpushed hlogged =>
        exact .one (by rw [houtstanding, hone]; rfl) (hcanCall.trans hbusy)
          (hprogress.flows hflows.moves) (hflows.pushed.trans hpushed) (hlogged.flows hflows)
    | stopped hstopped hquiet =>
        refine .stopped (hstop.trans hstopped) ?_
        intro caller hmem
        rw [hflows.callers] at hmem
        obtain ⟨before, hold, rfl⟩ := List.mem_map.mp hmem
        rcases hquiet before hold with rfl | ⟨call, rfl⟩
        · exact .inl rfl
        · exact .inr ⟨call, rfl⟩

theorem Exchanges.goto (hexchanges : Exchanges host state)
    (hcaller : state.callers[index]? = some before) (hsame : caller.pushed? = before.pushed?)
    (hpassed : ∀ call args since, caller = .released call args since →
      state.client.replIsReady = true ∨ state.client.stopWait = true)
    (hstopped : state.client.stopWait = true → before = .idle ∨ (∃ call, before = .waiting call) →
      caller = .idle ∨ ∃ call, caller = .waiting call)
    (hsteady : (state.goto index caller).Steady host) :
    Exchanges host (state.goto index caller) := by
  refine ⟨hsteady, fun answer hmem => (hexchanges.outcomes answer hmem).grows
    List.prefix_rfl List.prefix_rfl List.prefix_rfl, ?_, ?_⟩
  · intro call args since hmem
    rcases List.mem_or_eq_of_mem_set hmem with hold | hnew
    · exact hexchanges.passed call args since hold
    · exact hpassed call args since hnew.symm
  · have houtstanding := outstanding_goto hcaller hsame
    cases hexchanges.phase with
    | rests hnone hcan hreply hready hturn hlogged =>
        exact .rests (houtstanding.trans hnone) hcan hreply hready hturn
          ⟨hlogged.written, hlogged.read, hlogged.replied, hlogged.fits⟩
    | one hone hbusy hprogress hpushed hlogged =>
        exact .one (houtstanding.trans hone) hbusy hprogress hpushed
          ⟨hlogged.written, hlogged.read, hlogged.replied, hlogged.fits⟩
    | stopped hstop hquiet =>
        refine .stopped hstop ?_
        intro other hmem
        rcases List.mem_or_eq_of_mem_set hmem with hold | rfl
        · exact hquiet other hold
        · exact hstopped hstop (hquiet before (List.mem_of_getElem? hcaller))

theorem Exchanges.pushes (hexchanges : Exchanges host state)
    (hcan : state.client.canCall = true) (hcaller : state.callers[index]? = some (.pushing call))
    (hafter : after = { (state.meets (state.client.queued call.rpId args)).goto index
      (.collecting call args []) with pushed := state.pushed ++ [(call, args)] })
    (hsteady : after.Steady host) : Exchanges host after := by
  subst hafter
  have hclient : (state.meets (state.client.queued call.rpId args)).turn = state.turn :=
    turn_meets rfl
  refine ⟨hsteady, fun answer hmem => (hexchanges.outcomes answer hmem).grows
    (List.prefix_append _ _) List.prefix_rfl List.prefix_rfl, ?_, ?_⟩
  · intro other args since hmem
    rcases List.mem_or_eq_of_mem_set hmem with hold | hnew
    · exact hexchanges.passed other args since hold
    · cases hnew
  · cases hexchanges.phase with
    | rests hnone _ hreply hready hturn hlogged =>
        have hone := @outstanding_push [] call args state index (.pushing call)
          (.collecting call args []) hnone hcaller rfl
        refine .one hone rfl ?_ rfl ⟨hlogged.written, hlogged.read, hlogged.replied, hlogged.fits⟩
        rcases hturn with hturn | hturn
        · exact .queued hreply rfl rfl rfl (.inl (hclient.trans hturn))
        · exact .ended .unsent hreply (hclient.trans hturn)
    | one _ hbusy =>
        rw [hcan] at hbusy
        cases hbusy
    | stopped _ hquiet =>
        rcases hquiet _ (List.mem_of_getElem? hcaller) with hidle | ⟨other, hwaiting⟩
        · cases hidle
        · cases hwaiting

theorem Exchanges.fails (hexchanges : Exchanges host state)
    (hcan : state.client.canCall = true) (hcaller : state.callers[index]? = some (.pushing call))
    (hafter : after = (state.meets { state.client with args }).goto index .idle)
    (hsteady : after.Steady host) : Exchanges host after := by
  subst hafter
  have hclient : (state.meets { state.client with args }).turn = state.turn := turn_meets rfl
  refine ⟨hsteady, fun answer hmem => (hexchanges.outcomes answer hmem).grows
    List.prefix_rfl List.prefix_rfl List.prefix_rfl, ?_, ?_⟩
  · intro other args since hmem
    rcases List.mem_or_eq_of_mem_set hmem with hold | hnew
    · exact hexchanges.passed other args since hold
    · cases hnew
  · cases hexchanges.phase with
    | rests hnone _ hreply hready hturn hlogged =>
        have hstill := @outstanding_goto state index (.pushing call) .idle hcaller rfl
        exact .rests (hstill.trans hnone) hcan hreply hready
          (hturn.imp hclient.trans hclient.trans)
          ⟨hlogged.written, hlogged.read, hlogged.replied, hlogged.fits⟩
    | one _ hbusy =>
        rw [hcan] at hbusy
        cases hbusy
    | stopped _ hquiet =>
        rcases hquiet _ (List.mem_of_getElem? hcaller) with hidle | ⟨other, hwaiting⟩
        · cases hidle
        · cases hwaiting

theorem Exchanges.frees {returned : List Returned} (hexchanges : Exchanges host state)
    (hsingle : state.client.stopWait = true → state.callers.length ≤ 1)
    (hcaller : state.callers[index]? = some (.released call args since))
    (hreturned : ∀ answer ∈ returned, answer ∈ state.returned ∨
      answer.call = call ∧ answer.args = args ∧ answer.since = since ∧
        answer.client = state.client ∧
        ∃ decoded, DataSignature.fromBinary host call.proc.rets state.client.rets call.returns =
            .returns decoded ∧ decoded.success = true ∧
          decoded.args.length = call.proc.rets.length ∧ answer.values = decoded.args)
    (hafter : after = { (state.meets state.client.freed).goto index .idle with returned })
    (hsteady : after.Steady host) : Exchanges host after := by
  subst hafter
  have hmem := List.mem_of_getElem? hcaller
  have hclient : (state.meets state.client.freed).turn = state.turn := turn_meets rfl
  cases hexchanges.phase with
  | rests hnone =>
      rw [outstanding, List.filterMap_eq_nil_iff] at hnone
      cases hnone _ hmem
  | stopped _ hquiet =>
      rcases hquiet _ hmem with hidle | ⟨other, hwaiting⟩
      · cases hidle
      · cases hwaiting
  | @one _ _ _ front replies hone _ hprogress hpushed hlogged =>
      obtain ⟨hsame, hfree⟩ := @outstanding_free since call args state index
        (.released call args since) .idle _ hone hcaller rfl rfl
      cases hsame
      have hpassed := @passed_of_none
        { (state.meets state.client.freed).goto index .idle with returned } hfree
      rcases hprogress.replied_or with
        ⟨frame, hfits, hflag, hrets, hreply, hready, hturn, rfl⟩ | ⟨hincomplete, hnone⟩
      · have hreplied := hlogged.replies hfits
        rw [← hpushed] at hreplied
        refine ⟨hsteady, ?_, hpassed, .rests hfree rfl rfl hready
          (hturn.imp hclient.trans hclient.trans)
          ⟨hreplied.written, hreplied.read, hreplied.replied, hreplied.fits⟩⟩
        intro answer hanswer
        rcases hreturned answer hanswer with hold | ⟨rfl, rfl, hsince, hmet, hdecoded⟩
        · exact (hexchanges.outcomes answer hold).grows List.prefix_rfl List.prefix_rfl
            List.prefix_rfl
        · refine .answered hfits ⟨hsince, ?_⟩ ?_ (by rw [hmet, hreply]) (by rw [hmet, hflag])
          · rw [← hrets]
            exact hdecoded
          · refine ⟨front.length, replies ++ [frame], hreplied.fits, ?_, ?_, ?_, ?_⟩
            · exact ⟨[], hreplied.read.symm⟩
            · rw [← hlogged.replied, List.getElem?_concat_length]
            · exact hpushed ▸ List.getElem?_concat_length
            · change state.mm.written[front.length]? = _
              rw [hreplied.written, hpushed, commands, List.map_append]
              simp
      · have hstop : state.client.stopWait = true := by
          rcases hexchanges.passed _ _ _ hmem with hreply | hstop
          · rw [hnone] at hreply
            cases hreply
          · exact hstop
        refine ⟨hsteady, ?_, hpassed, .stopped hstop ?_⟩
        · intro answer hanswer
          rcases hreturned answer hanswer with hold | ⟨rfl, rfl, rfl, hmet, -⟩
          · exact (hexchanges.outcomes answer hold).grows List.prefix_rfl List.prefix_rfl
              List.prefix_rfl
          · exact .unanswered hincomplete (by rw [hmet, hnone]) (by rw [hmet, hstop])
        · -- There is no other thread.
          intro other hother
          obtain ⟨front, back, hcallers, hgoto⟩ := callers_split hcaller
          have hlength := hsingle hstop
          rw [hcallers, List.length_append, List.length_cons] at hlength
          obtain rfl := List.length_eq_zero_iff.mp (by omega : front.length = 0)
          obtain rfl := List.length_eq_zero_iff.mp (by omega : back.length = 0)
          change other ∈ state.callers.set index .idle at hother
          rw [hgoto] at hother
          exact .inl (List.mem_singleton.mp hother)

theorem Progress.stops (hprogress : Progress host client turn call args since) :
    Progress host { client with stopWait := true } turn call args since := by
  cases hprogress with
  | queued hnone hready hargs hid hturn => exact .queued hnone hready hargs hid hturn
  | holds hnone hready hturn => exact .holds hnone hready hturn
  | reads hnone hready hturn => exact .reads hnone hready hturn
  | announced hhigh hsize hbody hflag hlen hnone hready hturn =>
      exact .announced hhigh hsize hbody hflag hlen hnone hready hturn
  | replied hfits hflag hrets hreply hready hturn =>
      exact .replied hfits hflag hrets hreply hready hturn
  | ended hincomplete hnone hturn => exact .ended hincomplete hnone hturn

theorem Exchanges.stops (hexchanges : Exchanges host state)
    (hsteady : (state.meets { state.client with stopWait := true }).Steady host) :
    Exchanges host (state.meets { state.client with stopWait := true }) := by
  have hclient : (state.meets { state.client with stopWait := true }).turn = state.turn :=
    turn_meets rfl
  refine ⟨hsteady, fun answer hmem => (hexchanges.outcomes answer hmem).grows
    List.prefix_rfl List.prefix_rfl List.prefix_rfl, fun _ _ _ _ => .inr rfl, ?_⟩
  cases hexchanges.phase with
  | rests hnone hcan hreply hready hturn hlogged =>
      exact .rests hnone hcan hreply hready (hturn.imp hclient.trans hclient.trans)
        ⟨hlogged.written, hlogged.read, hlogged.replied, hlogged.fits⟩
  | one hone hbusy hprogress hpushed hlogged =>
      refine .one hone hbusy ?_ hpushed
        ⟨hlogged.written, hlogged.read, hlogged.replied, hlogged.fits⟩
      rw [hclient]
      exact Progress.stops hprogress
  | stopped _ hquiet => exact .stopped rfl hquiet

theorem Exchanges.outside {incoming : List Bytes} {stopRequested : Bool}
    (hexchanges : Exchanges host state)
    (hafter : after = { state with mm := { state.mm with incoming, stopRequested } })
    (hsteady : after.Steady host) : Exchanges host after := by
  subst hafter
  refine ⟨hsteady, fun answer hmem => (hexchanges.outcomes answer hmem).grows
    List.prefix_rfl List.prefix_rfl List.prefix_rfl, hexchanges.passed, ?_⟩
  cases hexchanges.phase with
  | rests hnone hcan hreply hready hturn hlogged =>
      exact .rests hnone hcan hreply hready hturn
        ⟨hlogged.written, hlogged.read, hlogged.replied, hlogged.fits⟩
  | one hone hbusy hprogress hpushed hlogged =>
      exact .one hone hbusy hprogress hpushed
        ⟨hlogged.written, hlogged.read, hlogged.replied, hlogged.fits⟩
  | stopped hstop hquiet => exact .stopped hstop hquiet

/-- Every step keeps to one exchange at a time, when calls are pushed only while one is
possible and a stop finds a single thread. -/
theorem Exchanges.moves {action : Action} (hexchanges : Exchanges host state)
    (hmoves : Moves host state action after)
    (hpush : ∀ index left, action = .push index left → state.client.canCall = true)
    (hsingle : state.client.stopWait = true → state.callers.length ≤ 1) :
    Exchanges host after := by
  have hsteady := hmoves.steady hexchanges.steady
  cases hmoves with
  | refuses => exact hexchanges
  | calls hcaller =>
      exact hexchanges.goto hcaller rfl (by simp) (fun _ _ => .inr ⟨_, rfl⟩) hsteady
  | givesUp hcaller =>
      exact hexchanges.goto hcaller rfl (by simp) (fun _ _ => .inl rfl) hsteady
  | wakes hcaller _ hruns =>
      exact hexchanges.goto hcaller rfl (by simp) (fun hstop _ => by simp [hruns] at hstop) hsteady
  | pushes hcaller => exact hexchanges.pushes (hpush _ _ rfl) hcaller rfl hsteady
  | fails hcaller => exact hexchanges.fails (hpush _ _ rfl) hcaller rfl hsteady
  | releases hcaller hmay =>
      refine hexchanges.goto hcaller rfl (fun _ _ _ _ => ?_) (fun _ hquiet => ?_) hsteady
      · simpa [RpcClient.mayCollect] using hmay
      · rcases hquiet with hidle | ⟨other, hwaiting⟩
        · cases hidle
        · cases hwaiting
  | collects hcaller hcollect =>
      obtain ⟨-, decoded, hdecoded, hresult⟩ := RpcClient.collect_spec hcollect
      have hboth := (Prod.mk.inj hresult).1.symm
      simp only [Bool.and_eq_true, decide_eq_true_eq] at hboth
      refine hexchanges.frees hsingle hcaller ?_ rfl hsteady
      intro answer hanswer
      rcases List.mem_append.mp hanswer with hold | hnew
      · exact .inl hold
      · obtain rfl := List.mem_singleton.mp hnew
        exact .inr ⟨rfl, rfl, rfl, rfl, decoded, hdecoded, hboth.1, hboth.2,
          (Prod.mk.inj hresult).2⟩
  | drops hcaller =>
      exact hexchanges.frees hsingle hcaller (fun answer hanswer => .inl hanswer) rfl hsteady
  | flows _ hflows => exact hexchanges.flows hflows
  | delivers => exact hexchanges.outside rfl hsteady
  | requests => exact hexchanges.outside rfl hsteady
  | stops => exact hexchanges.stops hsteady

end Calling

end Rpcmple.Cpp
