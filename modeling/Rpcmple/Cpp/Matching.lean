import Rpcmple.Cpp.Exchange

namespace Rpcmple.Cpp

open Data MessageManager System

theorem Incomplete.messages {command : Bytes} {since : List Event}
    (hincomplete : Incomplete command since) :
    since.filterMap Calling.message? = [] ∨ since.filterMap Calling.message? = [command] := by
  cases hincomplete with
  | unsent => exact .inl rfl
  | sent | announced => exact .inr rfl

namespace Calling

variable {host : Platform} {writeOk : List Bytes → Bytes → Bool} {state after final : Calling}
  {index : Nat} {before caller : Caller}

/-- Nobody asks for a stop, and a call is pushed only while `canCall` is set. -/
def Exclusive (state : Calling) : Action → Prop
  | .push _ _ => state.client.canCall = true
  | .requestStop | .stopParser => False
  | _ => True

instance (state : Calling) (action : Action) : Decidable (state.Exclusive action) := by
  cases action <;> simp only [Exclusive] <;> infer_instance

/-- One call at a time; every other call has its frame, and each that returned true has
decoded the reply to its own. -/
structure Matched (host : Platform) (state : Calling) : Prop where
  alone : state.outstanding.length ≤ 1
  busy : state.client.canCall = true ↔ state.outstanding = []
  sent : ∃ front back, state.pushed = front ++ back ∧
    back.length ≤ state.outstanding.length ∧ state.mm.written = commands host front
  answered : ∀ answer ∈ state.returned, ∃ frame : Frame, frame.Fits ∧
    Answered host answer frame ∧ state.Numbered host answer frame

theorem Logged.sent {call : Call} {args : Bytes} {since : List Event}
    {front : List (Call × Bytes)} {replies : List Frame}
    (hlogged : Logged host state front since replies)
    (hsince : since.filterMap message? = [] ∨
      since.filterMap message? = [commandFrame host call.rpId args]) :
    ∃ sent back, front ++ [(call, args)] = sent ++ back ∧ back.length ≤ 1 ∧
      state.mm.written = commands host sent := by
  rcases hsince with hnone | hone
  · exact ⟨front, [(call, args)], rfl, le_rfl, by rw [hlogged.written, hnone, List.append_nil]⟩
  · refine ⟨front ++ [(call, args)], [], (List.append_nil _).symm, Nat.zero_le _, ?_⟩
    rw [hlogged.written, hone, commands, commands, List.map_append]
    rfl

structure Runs (state : Calling) : Prop where
  client : state.client.stopWait = false
  returned : ∀ answer ∈ state.returned, answer.client.stopWait = false

theorem Runs.moves {action : Action} (hruns : state.Runs) (hmoves : Moves host state action after)
    (hgoes : action ≠ .stopParser) : after.Runs := by
  cases hmoves with
  | refuses | calls | givesUp | wakes | pushes | fails | releases | drops | delivers
  | requests => exact ⟨hruns.client, hruns.returned⟩
  | collects =>
      refine ⟨hruns.client, ?_⟩
      intro answer hanswer
      rcases List.mem_append.mp hanswer with hold | hnew
      · exact hruns.returned answer hold
      · obtain rfl := List.mem_singleton.mp hnew
        exact hruns.client
  | flows _ hflows =>
      refine ⟨hflows.moves.keeps.2.1.trans hruns.client, ?_⟩
      rw [hflows.returned]
      exact hruns.returned
  | stops => exact absurd rfl hgoes

theorem Exchanges.matched (hexchanges : Exchanges host state) (hruns : state.Runs) :
    Matched host state := by
  have hanswered : ∀ answer ∈ state.returned, ∃ frame : Frame, frame.Fits ∧
      Answered host answer frame ∧ state.Numbered host answer frame := by
    intro answer hanswer
    cases hexchanges.outcomes answer hanswer with
    | answered hfits hframe hnumbered => exact ⟨_, hfits, hframe, hnumbered⟩
    | unanswered _ _ hstop =>
        rw [hruns.returned answer hanswer] at hstop
        cases hstop
  cases hexchanges.phase with
  | rests hnone hcan _ _ _ hlogged =>
      refine ⟨by simp [hnone], by simp [hnone, hcan], ?_, hanswered⟩
      exact ⟨state.pushed, [], (List.append_nil _).symm, Nat.zero_le _,
        hlogged.written.trans (List.append_nil _)⟩
  | @one call args since front replies hone hbusy hprogress hpushed hlogged =>
      have hsince : since.filterMap message? = [] ∨
          since.filterMap message? = [commandFrame host call.rpId args] := by
        rcases hprogress.replied_or with ⟨frame, -, -, -, -, -, -, rfl⟩ | ⟨hincomplete, -⟩
        · right
          rw [List.filterMap_cons, message?_replyEvents]
          rfl
        · exact hincomplete.messages
      refine ⟨by simp [hone], by simp [hone, hbusy], ?_, hanswered⟩
      rw [hpushed, hone]
      exact hlogged.sent hsince
  | stopped hstop =>
      rw [hruns.client] at hstop
      cases hstop

/-- As long as a call is pushed only while `canCall` is set, callers exclude each other and
get their own replies. -/
theorem calls_matched {remoteProcedures : List RemoteProcedureSignature} {threads : Nat}
    (hreaches : Reaches (step host writeOk) Exclusive (start host remoteProcedures threads)
      final) : Matched host final := by
  have hinvariant : Exchanges host final ∧ final.Runs := by
    apply hreaches.invariant (I := fun state => Exchanges host state ∧ state.Runs)
    · exact ⟨exchanges_start host remoteProcedures threads, rfl, by simp [start]⟩
    · intro state action next hinvariant hexclusive hstep
      obtain ⟨hexchanges, hruns⟩ := hinvariant
      have hmoves := step_moves hexchanges.steady hstep
      refine ⟨hexchanges.moves hmoves ?_ ?_, hruns.moves hmoves ?_⟩
      · rintro index left rfl
        exact hexclusive
      · intro hstop
        rw [hruns.client] at hstop
        cases hstop
      · rintro rfl
        exact hexclusive
  exact hinvariant.1.matched hinvariant.2

private def counter : List RemoteProcedureSignature :=
  [⟨[110], [DataType.u.char], [DataType.u.char]⟩, ⟨[116], [DataType.s.char], []⟩]

private def inTurn : List Action :=
  [.call 0 0 [.value (.uint 5)] [], .call 1 1 [.value (.string [65])] [], .wake 0,
    .push 0 [], .enter, .build, .check, .flow,
    .deliver [8, 0, 0, 1, 6, 0, 0, 0, 0, 0, 0, 0], .flow, .flow, .enter, .flow, .flow,
    .release 0, .collect 0, .wake 1, .push 1 [], .enter, .build, .check, .flow, .flow,
    .deliver [0, 0, 0, 1], .flow, .flow, .release 1, .collect 1]

theorem calls_matched_in_turn : ∃ final,
    run (guarded (step plainPlatform fun _ _ => true) Exclusive)
        (start plainPlatform counter 2) inTurn = some final ∧
      final.returned.map (fun answer => (answer.args, answer.values)) =
        [([5, 0, 0, 0, 0, 0, 0, 0], [.value (.uint 6)]), ([1, 0, 65], [])] ∧
      final.mm.written = [[8, 0, 0, 0, 5, 0, 0, 0, 0, 0, 0, 0], [3, 0, 0, 1, 1, 0, 65]] ∧
      Matched plainPlatform final := by
  have hresult : (run (guarded (step plainPlatform fun _ _ => true) Exclusive)
      (start plainPlatform counter 2) inTurn).map (fun final =>
        (final.returned.map fun answer => (answer.args, answer.values), final.mm.written)) =
      some ([([5, 0, 0, 0, 0, 0, 0, 0], [.value (.uint 6)]), ([1, 0, 65], [])],
        [[8, 0, 0, 0, 5, 0, 0, 0, 0, 0, 0, 0], [3, 0, 0, 1, 1, 0, 65]]) := by decide
  obtain ⟨final, hrun, hfinal⟩ := Option.map_eq_some_iff.mp hresult
  obtain ⟨hreturned, hwritten⟩ := Prod.mk.inj hfinal
  exact ⟨final, hrun, hreturned, hwritten, calls_matched (reaches_of_guarded hrun)⟩

private def bareHost : Platform := ⟨true, fun _ => none, fun _ => none⟩

private def pingProcedure : RemoteProcedureSignature := ⟨[], [], []⟩

private def pinging (threads : Nat) : Calling := start bareHost [pingProcedure] threads

/-- Two threads have found `canCall` set before either pushed: two calls are outstanding,
one frame is sent, and both return true with its reply. -/
theorem two_calls_one_frame : ∃ pushed final,
    run (step bareHost fun _ _ => true) (pinging 2)
        [.call 0 0 [] [], .call 1 0 [] [], .wake 0, .wake 1, .push 0 [], .push 1 []] =
      some pushed ∧ pushed.outstanding.length = 2 ∧ ¬ Matched bareHost pushed ∧
    run (step bareHost fun _ _ => true) pushed
        [.enter, .build, .check, .flow, .deliver [0, 0, 0, 1], .flow, .flow, .release 0,
          .release 1, .collect 0, .collect 1] = some final ∧
      final.returned.length = 2 ∧ final.mm.written = [[0, 0, 0, 0]] ∧
      final.read = [0, 0, 0, 1] := by
  have hboth : ((run (step bareHost fun _ _ => true) (pinging 2)
      [.call 0 0 [] [], .call 1 0 [] [], .wake 0, .wake 1, .push 0 [], .push 1 []]).bind
      fun pushed => (run (step bareHost fun _ _ => true) pushed
        [.enter, .build, .check, .flow, .deliver [0, 0, 0, 1], .flow, .flow, .release 0,
          .release 1, .collect 0, .collect 1]).map fun final =>
      (pushed.outstanding.length, final.returned.length, final.mm.written, final.read)) =
      some (2, 2, [[0, 0, 0, 0]], [0, 0, 0, 1]) := by decide
  obtain ⟨pushed, hpushed, hrest⟩ := Option.bind_eq_some_iff.mp hboth
  obtain ⟨final, hfinal, hfacts⟩ := Option.map_eq_some_iff.mp hrest
  simp only [Prod.mk.injEq] at hfacts
  refine ⟨pushed, final, hpushed, hfacts.1, ?_, hfinal, hfacts.2⟩
  intro hmatched
  have halone := hmatched.alone
  omega

structure Single (state : Calling) : Prop where
  one : state.callers.length = 1
  ready : ∀ call, Caller.pushing call ∈ state.callers → state.client.canCall = true

theorem set_single (hone : state.callers.length = 1) (hcaller : state.callers[index]? = some before)
    (caller : Caller) : state.callers.set index caller = [caller] := by
  obtain ⟨front, back, hcallers, hgoto⟩ := callers_split hcaller
  rw [hcallers, List.length_append, List.length_cons] at hone
  obtain rfl := List.length_eq_zero_iff.mp (by omega : front.length = 0)
  obtain rfl := List.length_eq_zero_iff.mp (by omega : back.length = 0)
  exact hgoto caller

theorem Single.moves {action : Action} (hsingle : state.Single)
    (hmoves : Moves host state action after) : after.Single := by
  have hset := @set_single state
  cases hmoves with
  | refuses | delivers | requests | stops => exact ⟨hsingle.one, hsingle.ready⟩
  | calls hcaller | givesUp hcaller | pushes hcaller | fails hcaller | releases hcaller
  | collects hcaller | drops hcaller =>
      have hafter := hset hsingle.one hcaller
      refine ⟨congrArg List.length (hafter _), ?_⟩
      intro call hmem
      change Caller.pushing call ∈ state.callers.set _ _ at hmem
      rw [hafter] at hmem
      cases List.mem_singleton.mp hmem
  | wakes hcaller hcan =>
      have hafter := hset hsingle.one hcaller
      exact ⟨congrArg List.length (hafter _), fun _ _ => hcan⟩
  | flows _ hflows =>
      refine ⟨by rw [hflows.callers, List.length_map, hsingle.one], ?_⟩
      intro call hmem
      rw [hflows.callers] at hmem
      obtain ⟨caller, hold, hsees⟩ := List.mem_map.mp hmem
      cases caller with
      | pushing => exact hflows.moves.keeps.1.trans (hsingle.ready _ hold)
      | idle | waiting | collecting | released => cases hsees

/-- A `callSync` that returned true had a successful reply to its frame exactly when its
last critical section met a reply, and one with the flag 1. -/
theorem success_truthful_iff {remoteProcedures : List RemoteProcedureSignature}
    (hreaches : Reachable (step host writeOk) (start host remoteProcedures 1) final)
    {answer : Returned} (hanswer : answer ∈ final.returned) :
    (∃ frame : Frame, frame.high = 1 ∧ frame.Fits ∧ Answered host answer frame) ↔
      answer.client.replIsReady = true ∧ answer.client.callSuccessInt = 1 := by
  have hinvariant : Exchanges host final ∧ final.Single := by
    apply hreaches.invariant (I := fun state => Exchanges host state ∧ state.Single)
    · refine ⟨exchanges_start host remoteProcedures 1, rfl, ?_⟩
      intro call hmem
      cases List.mem_singleton.mp hmem
    · intro state action next hinvariant _ hstep
      obtain ⟨hexchanges, hsingle⟩ := hinvariant
      have hmoves := step_moves hexchanges.steady hstep
      refine ⟨hexchanges.moves hmoves ?_ (fun _ => hsingle.one.le), hsingle.moves hmoves⟩
      rintro index left rfl
      cases hmoves with
      | pushes hcaller | fails hcaller =>
          exact hsingle.ready _ (List.mem_of_getElem? hcaller)
      | flows hflow => cases hflow
  have houtcome := hinvariant.1.outcomes answer hanswer
  cases houtcome with
  | @answered frame hfits hframe _ hreply hflag =>
      have hone : answer.client.callSuccessInt = 1 ↔ frame.high = 1 := by
        rw [hflag, ← UInt32.toNat_inj, UInt32.toNat_ofNat_of_lt' (hfits.1.trans (by decide))]
        rfl
      rw [hone, and_iff_right hreply]
      constructor
      · rintro ⟨other, hhigh, hother, hanswered⟩
        have hevents := List.tail_eq_of_cons_eq (hframe.since.symm.trans hanswered.since)
        rw [replyEvents_inj hfits hother hevents]
        exact hhigh
      · exact fun hhigh => ⟨frame, hhigh, hfits, hframe⟩
  | unanswered hincomplete hnone _ =>
      refine iff_of_false ?_ (by simp [hnone])
      rintro ⟨frame, -, hfits, hanswered⟩
      exact hincomplete.not_replied hfits hanswered.since

theorem success_truthful_iff_ping : ∃ final answer,
    run (step bareHost fun _ _ => true) (pinging 1)
        [.call 0 0 [] [], .wake 0, .push 0 [], .enter, .build, .check, .flow,
          .deliver [0, 0, 0, 1], .flow, .flow, .release 0, .collect 0] = some final ∧
      answer ∈ final.returned ∧
      ∃ frame : Frame, frame.high = 1 ∧ frame.Fits ∧ Answered bareHost answer frame := by
  have hreturned : (run (step bareHost fun _ _ => true) (pinging 1)
      [.call 0 0 [] [], .wake 0, .push 0 [], .enter, .build, .check, .flow,
        .deliver [0, 0, 0, 1], .flow, .flow, .release 0, .collect 0]).map
      (fun final => final.returned.map fun answer =>
        (answer.client.replIsReady, answer.client.callSuccessInt)) = some [(true, 1)] := by decide
  obtain ⟨final, hrun, hone⟩ := Option.map_eq_some_iff.mp hreturned
  obtain ⟨answer, hanswer, hmet⟩ := List.mem_map.mp (hone ▸ List.mem_singleton_self (true, 1))
  refine ⟨final, answer, hrun, hanswer, ?_⟩
  exact (success_truthful_iff (reaches_of_run (by simp) hrun) hanswer).mpr (Prod.mk.inj hmet)

/-- Stopped while its call waits for a reply: nothing was sent, and `callSync` returns
true. -/
theorem stopped_returns_true : ∃ final answer,
    run (step bareHost fun _ _ => true) (pinging 1)
        [.call 0 0 [] [], .wake 0, .push 0 [], .requestStop, .stopParser, .release 0,
          .collect 0] = some final ∧
      answer ∈ final.returned ∧ final.mm.written = [] ∧ final.read = [] ∧
      ∀ frame, ¬ Answered bareHost answer frame := by
  have hreturned : (run (step bareHost fun _ _ => true) (pinging 1)
      [.call 0 0 [] [], .wake 0, .push 0 [], .requestStop, .stopParser, .release 0,
        .collect 0]).map (fun final =>
        (final.returned.map fun answer => answer.since, final.mm.written, final.read)) =
      some ([[]], [], []) := by decide
  obtain ⟨final, hrun, hfacts⟩ := Option.map_eq_some_iff.mp hreturned
  simp only [Prod.mk.injEq] at hfacts
  obtain ⟨hone, hwritten, hread⟩ := hfacts
  obtain ⟨answer, hanswer, hsince⟩ := List.mem_map.mp (hone ▸ List.mem_singleton_self [])
  refine ⟨final, answer, hrun, hanswer, hwritten, hread, ?_⟩
  intro frame hanswered
  have hsent := hanswered.since
  rw [hsince] at hsent
  cases hsent

end Calling

end Rpcmple.Cpp
