import Rpcmple.Cpp.Moves
import Rpcmple.Data.Monitor

namespace Rpcmple.Cpp

open Data MessageManager

/-! The condition variable `cv` of a client: who waits on it, and who notifies. -/

inductive Wait where
  | toCall
  | toCollect
  | toSend
  deriving DecidableEq, Repr

def RpcClient.admits (rc : RpcClient) : Wait → Bool
  | .toCall => rc.mayCall
  | .toCollect => rc.mayCollect
  | .toSend => rc.maySend

def RpcClient.Decodes (host : Platform) (rc : RpcClient) (call : Call) : Prop :=
  ∃ decoded, DataSignature.fromBinary host call.proc.rets rc.rets call.returns =
    .returns decoded ∧ decoded.success = true ∧ decoded.args.length = call.proc.rets.length

theorem RpcClient.decodes_iff {host : Platform} {rc : RpcClient} {call : Call} :
    rc.Decodes host call ↔
      ∃ values client, rc.collect host call.proc call.returns =
        .returns ((true, values), client) := by
  constructor
  · rintro ⟨decoded, hdecoded, hsuccess, hcount⟩
    refine ⟨decoded.args, rc.freed, Exec.bind_eq_returns.mpr ⟨decoded, hdecoded, ?_⟩⟩
    simp [hsuccess, hcount]
    rfl
  · rintro ⟨values, client, hcollect⟩
    obtain ⟨-, decoded, hdecoded, hresult⟩ := RpcClient.collect_spec hcollect
    have hboth := (Prod.mk.inj hresult).1.symm
    simp only [Bool.and_eq_true, decide_eq_true_eq] at hboth
    exact ⟨decoded, hdecoded, hboth⟩

def Caller.wait? : Caller → Option Wait
  | .waiting _ => some .toCall
  | .collecting _ _ _ => some .toCollect
  | .idle | .pushing _ | .released _ _ _ => none

def Calling.Action.index? : Calling.Action → Option Nat
  | .call index _ _ _ | .wake index | .push index _ | .release index | .collect index =>
      some index
  | _ => none

/-- The client with the threads that call `waitRPCComplete`, set for those inside. -/
structure Completing where
  calling : Calling
  completers : List Bool

inductive Thread where
  | caller (index : Nat)
  | flow
  | stopper (index : Nat)
  | completer (index : Nat)
  | connection
  deriving DecidableEq, Repr

def Thread.isStopper : Thread → Bool
  | .stopper _ => true
  | _ => false

namespace Completing

/-- `stopWait` may be set just before the look at it behind a wait. -/
inductive Action where
  | calling (action : Calling.Action)
  | lateStop (index : Nat)
  | lateStopFlow
  | begin (index : Nat)
  | complete (index : Nat)

variable (host : Platform) (writeOk : List Bytes → Bytes → Bool)

def start (remoteProcedures : List RemoteProcedureSignature) (threads completers : Nat) :
    Completing :=
  ⟨Calling.start host remoteProcedures threads, List.replicate completers false⟩

def client (state : Completing) : RpcClient := state.calling.client

def lateStop (state : Completing) (index : Nat) : Option Completing :=
  match state.calling.callers[index]? with
  | some (.pushing _) =>
      if state.client.stopWait then
        some { state with calling := state.calling.goto index .idle }
      else none
  | _ => none

def lateStopFlow (state : Completing) : Option Completing :=
  match state.calling.writing with
  | .woken =>
      if state.client.stopWait then
        some { state with calling := { state.calling with writing := .returned false [] } }
      else none
  | _ => none

def step (state : Completing) : Action → Option Completing
  | .calling action =>
      (state.calling.step host writeOk action).map fun calling => { state with calling }
  | .lateStop index => state.lateStop index
  | .lateStopFlow => state.lateStopFlow
  | .begin index =>
      if state.completers[index]? = some false then
        some { state with completers := state.completers.set index true }
      else none
  | .complete index =>
      if state.completers[index]? = some true ∧ state.client.mayCall = true then
        some { state with completers := state.completers.set index false }
      else none

def acts (thread : Thread) : Action → Bool
  | .calling action =>
      match action, action.index? with
      | _, some index => thread == .caller index
      | .deliver _, none => thread == .connection
      | _, none => if action.isFlow then thread == .flow else thread.isStopper
  | .lateStop index => thread == .caller index
  | .lateStopFlow => thread == .flow
  | .begin index | .complete index => thread == .completer index

/-- The wait on `cv` a thread is at.  A client has no empty section, so its flow enters
`writeMessage` at two places. -/
def wait? (state : Completing) : Thread → Option Wait
  | .caller index => state.calling.callers[index]?.bind Caller.wait?
  | .flow =>
      match state.calling.writing, state.calling.mm.loop with
      | .outside, .first | .outside, .reply =>
          if state.client.sectionID = 0 then some .toSend else none
      | _, _ => none
  | .completer index => if state.completers[index]? = some true then some .toCall else none
  | .stopper _ | .connection => none

/-- The critical sections that `notify_all` follows: that of `callSync` when it pushes, the
last one when it returns true, that of `writeMessage`, that of a whole reply, and that of
`stopParser`. -/
def signals (state : Completing) (action : Action) (next : Completing) : Bool :=
  match action with
  | .calling (.push _ _) => state.calling.pushed.length < next.calling.pushed.length
  | .calling (.collect _) => state.calling.returned.length < next.calling.returned.length
  | .calling .build =>
      match next.calling.writing with
      | .built _ => true
      | _ => false
  | .calling .flow =>
      state.calling.mm.parsed.length < next.calling.mm.parsed.length &&
        next.client.sectionID == 0
  | .calling .stopParser => true
  | _ => false

def monitored : Monitored Completing Thread Action where
  step := step host writeOk
  acts := acts
  waitsFor state thread := (state.wait? thread).map state.client.admits
  signals := signals

/-- A `callSync` is about to read something that is no reply to its call, and the thread
waits for a call to be possible. -/
def Strands (host : Platform) (state : Completing) (action : Action) (thread : Thread) : Prop :=
  state.wait? thread = some .toCall ∧
    ∃ index call args since, action = .calling (.collect index) ∧
      state.calling.callers[index]? = some (.released call args since) ∧
      ¬ state.client.Decodes host call

end Completing

namespace Calling

variable {host : Platform} {writeOk : List Bytes → Bytes → Bool} {state next : Calling}

theorem wait?_sees (events : List Event) (caller : Caller) :
    (caller.sees events).wait? = caller.wait? := by
  cases caller <;> rfl

theorem callers_goto {index other : Nat} (hother : some index ≠ some other) (caller : Caller) :
    (state.goto index caller).callers[other]? = state.callers[other]? :=
  List.getElem?_set_ne fun hsame => hother (congrArg some hsame)

theorem Moves.wait?_other {action : Action} (hmoves : Moves host state action next)
    {other : Nat} (hother : action.index? ≠ some other) :
    next.callers[other]?.bind Caller.wait? = state.callers[other]?.bind Caller.wait? := by
  cases hmoves with
  | refuses | delivers | requests | stops => rfl
  | calls | givesUp | wakes | releases => rw [callers_goto hother]
  | pushes | fails | collects | drops =>
      exact congrArg (·.bind Caller.wait?) (callers_goto hother _)
  | flows _ hflows =>
      rw [hflows.callers, List.getElem?_map]
      cases state.callers[other]? with
      | none => rfl
      | some caller => exact wait?_sees _ caller

theorem Moves.flow_place {action : Action} (hmoves : Moves host state action next)
    (hcaller : action.isFlow = false) :
    next.writing = state.writing ∧ next.mm.loop = state.mm.loop ∧
      next.client.sectionID = state.client.sectionID := by
  cases hmoves with
  | refuses | calls | givesUp | wakes | pushes | fails | releases | collects | drops
  | delivers | requests | stops => exact ⟨rfl, rfl, rfl⟩
  | flows hflow => simp [hflow] at hcaller

theorem enter_client (henter : state.enter = some next) : next.client = state.client := by
  unfold enter at henter
  split at henter
  · split at henter
    · split at henter
      · cases henter
        rfl
      · split at henter
        · cases henter
          rfl
        · cases henter
    · cases henter
  · cases henter

theorem check_client (hcheck : state.check = some next) : next.client = state.client := by
  unfold check at hcheck
  split at hcheck
  · cases hcheck
    rfl
  · cases hcheck

theorem build_client (hbuild : state.build host = some next) :
    next.client = state.client ∨ next.client = { state.client with sendIsReady := false } := by
  unfold build at hbuild
  split at hbuild
  · split at hbuild
    · cases hbuild
      exact .inl rfl
    · cases hbuild
      exact .inr rfl
  · cases hbuild

theorem flow_client (hsteady : state.Steady host)
    (hflow : state.flow host writeOk = some next) :
    next.client = state.client ∨ state.mm.parsed.length < next.mm.parsed.length := by
  unfold flow at hflow
  split at hflow
  · split at hflow
    · cases hflow
    · rename_i hnot
      cases hflow
      have hreads : state.mm.loop = .outer ∨ state.mm.loop = .inner →
          (state.mm.dataFlow (RpcClient.methods host) writeOk).parser = state.mm.parser ∨
            state.mm.parsed.length <
              (state.mm.dataFlow (RpcClient.methods host) writeOk).parsed.length := by
        intro hplace
        obtain ⟨-, hparses⟩ :=
          @dataFlow_reads _ _ writeOk _ _ hsteady.ready hsteady.asked hplace
        rcases hparses with ⟨hparser, -⟩ | ⟨piece, -, hparsed, -⟩
        · exact .inl hparser
        · rw [hparsed, List.length_append]
          exact .inr (Nat.lt_add_of_pos_right Nat.one_pos)
      cases hloop : state.mm.loop with
      | first => exact absurd (.inl hloop) hnot
      | reply => exact absurd (.inr (.inl hloop)) hnot
      | outer => exact hreads (.inl hloop)
      | inner => exact hreads (.inr hloop)
      | closed | terminated =>
          left
          change (state.mm.dataFlow (RpcClient.methods host) writeOk).parser = state.mm.parser
          rw [dataFlow, hloop]
  · rename_i success message hwriting
    cases hflow
    have hplace := hsteady.writes (by simp [hwriting])
    exact .inl (@dataFlow_writes _ (RpcClient.methods host) writeOk state.mm success message rfl
      hplace).1
  · cases hflow

end Calling

theorem RpcClient.admits_taken {rc : RpcClient} {wait : Wait}
    (hadmits : ({ rc with sendIsReady := false } : RpcClient).admits wait = true) :
    rc.admits wait = true := by
  cases wait with
  | toCall | toCollect => exact hadmits
  | toSend =>
      have hstop : rc.stopWait = true := hadmits
      simp [admits, maySend, hstop]

theorem FlowStep.admits {host : Platform} {client next : RpcClient} {turn following : Turn}
    {events : List Event} (hstep : FlowStep host client turn events next following)
    {wait : Wait} (hadmits : next.admits wait = true) :
    client.admits wait = true ∨ next.sectionID = 0 := by
  cases hstep with
  | stays | ends | wakes | sends | announces => exact .inl hadmits
  | takes => exact .inl (RpcClient.admits_taken hadmits)
  | replies | completes => exact .inr rfl

namespace Completing

variable {host : Platform} {writeOk : List Bytes → Bytes → Bool} {state next : Completing}
  {actor thread : Thread}

theorem acts_index {action : Calling.Action} (hacts : acts actor (.calling action) = true)
    {other : Nat} (hother : Thread.caller other ≠ actor) : action.index? ≠ some other := by
  cases action with
  | call index | wake index | push index | release index | collect index =>
      obtain rfl := beq_iff_eq.mp hacts
      rintro ⟨rfl⟩
      exact hother rfl
  | enter | build | check | flow | deliver | requestStop | stopParser =>
      simp [Calling.Action.index?]

theorem acts_flow {action : Calling.Action} (hacts : acts actor (.calling action) = true)
    (hother : Thread.flow ≠ actor) : action.isFlow = false := by
  cases action with
  | call | wake | push | release | collect | deliver | requestStop | stopParser => rfl
  | enter | build | check | flow => exact absurd (beq_iff_eq.mp hacts).symm hother

theorem wait?_other (hsteady : state.calling.Steady host) {action : Action}
    (hacts : acts actor action = true) (hother : thread ≠ actor)
    (hstep : state.step host writeOk action = some next) :
    next.wait? thread = state.wait? thread := by
  cases action with
  | calling action =>
      obtain ⟨calling, hcalling, rfl⟩ := Option.map_eq_some_iff.mp hstep
      have hmoves := Calling.step_moves hsteady hcalling
      cases thread with
      | caller other => exact hmoves.wait?_other (acts_index hacts hother)
      | flow =>
          obtain ⟨hwriting, hloop, hsection⟩ := hmoves.flow_place (acts_flow hacts hother)
          simp only [wait?, client, hwriting, hloop, hsection]
          rfl
      | stopper | completer | connection => rfl
  | lateStop index =>
      change state.lateStop index = some next at hstep
      unfold lateStop at hstep
      split at hstep
      · split at hstep
        · cases hstep
          cases thread with
          | caller other =>
              have hdiffers : some index ≠ some other := by
                rintro ⟨rfl⟩
                exact hother (beq_iff_eq.mp hacts).symm
              simp only [wait?]
              rw [Calling.callers_goto hdiffers]
          | flow | stopper | completer | connection => rfl
        · cases hstep
      · cases hstep
  | lateStopFlow =>
      change state.lateStopFlow = some next at hstep
      unfold lateStopFlow at hstep
      split at hstep
      · split at hstep
        · cases hstep
          cases thread with
          | flow => exact absurd (beq_iff_eq.mp hacts).symm hother
          | caller | stopper | completer | connection => rfl
        · cases hstep
      · cases hstep
  | begin index | complete index =>
      simp only [step] at hstep
      split at hstep
      · cases hstep
        cases thread with
        | completer other =>
            have hdiffers : index ≠ other := by
              rintro rfl
              exact hother (beq_iff_eq.mp hacts).symm
            simp only [wait?, List.getElem?_set_ne hdiffers]
        | caller | flow | stopper | connection => rfl
      · cases hstep

theorem admits_other (hsteady : state.calling.Steady host) {action : Action}
    (hstep : state.step host writeOk action = some next) {wait : Wait}
    (hbefore : state.client.admits wait = false) (hafter : next.client.admits wait = true) :
    state.signals action next = true ∨ wait = .toCall ∧
      ∃ index call args since, action = .calling (.collect index) ∧
        state.calling.callers[index]? = some (.released call args since) ∧
        ¬ state.client.Decodes host call := by
  have hdiffers : next.client ≠ state.client := by
    intro hsame
    rw [hsame, hbefore] at hafter
    cases hafter
  cases action with
  | calling action =>
      obtain ⟨calling, hcalling, rfl⟩ := Option.map_eq_some_iff.mp hstep
      have hmoves := Calling.step_moves hsteady hcalling
      cases hmoves with
      | refuses | calls | givesUp | wakes | releases | delivers | requests =>
          exact absurd rfl hdiffers
      | pushes | collects => exact .inl (by simp [signals])
      | fails =>
          have hsame : state.client.admits wait = true := by cases wait <;> exact hafter
          rw [hsame] at hbefore
          cases hbefore
      | drops hcaller hfails =>
          cases wait with
          | toCall =>
              refine .inr ⟨rfl, _, _, _, _, rfl, hcaller, ?_⟩
              rw [RpcClient.decodes_iff]
              rintro ⟨values, client, hcollect⟩
              exact hfails values client hcollect
          | toCollect =>
              have hstop : state.client.stopWait = true := hafter
              simp [RpcClient.admits, RpcClient.mayCollect, hstop] at hbefore
          | toSend =>
              rw [show state.client.admits .toSend = true from hafter] at hbefore
              cases hbefore
      | stops => exact .inl rfl
      | flows hflow hflows =>
          rcases hflows.moves.admits hafter with hsame | hsection
          · exact absurd (hbefore.symm.trans hsame) Bool.false_ne_true
          · cases action with
            | call | wake | push | release | collect | deliver | requestStop | stopParser =>
                cases hflow
            | enter => exact absurd (Calling.enter_client hcalling) hdiffers
            | check => exact absurd (Calling.check_client hcalling) hdiffers
            | build =>
                rcases Calling.build_client hcalling with hsame | htaken
                · exact absurd hsame hdiffers
                · change calling.client.admits wait = true at hafter
                  rw [htaken] at hafter
                  have hsame := RpcClient.admits_taken hafter
                  exact absurd (hbefore.symm.trans hsame) Bool.false_ne_true
            | flow =>
                rcases Calling.flow_client hsteady hcalling with hsame | hparsed
                · exact absurd hsame hdiffers
                · have hzero : calling.client.sectionID = 0 := hsection
                  exact .inl (by simp [signals, hparsed, client, hzero])
  | lateStop index =>
      change state.lateStop index = some next at hstep
      unfold lateStop at hstep
      split at hstep
      · split at hstep
        · cases hstep
          exact absurd rfl hdiffers
        · cases hstep
      · cases hstep
  | lateStopFlow =>
      change state.lateStopFlow = some next at hstep
      unfold lateStopFlow at hstep
      split at hstep
      · split at hstep
        · cases hstep
          exact absurd rfl hdiffers
        · cases hstep
      · cases hstep
  | begin index | complete index =>
      simp only [step] at hstep
      split at hstep
      · cases hstep
        exact absurd rfl hdiffers
      · cases hstep

theorem step_steady (hsteady : state.calling.Steady host) {action : Action}
    (hstep : state.step host writeOk action = some next) : next.calling.Steady host := by
  cases action with
  | calling action =>
      obtain ⟨calling, hcalling, rfl⟩ := Option.map_eq_some_iff.mp hstep
      exact (Calling.step_moves hsteady hcalling).steady hsteady
  | lateStop index =>
      change state.lateStop index = some next at hstep
      unfold lateStop at hstep
      split at hstep
      · split at hstep
        · cases hstep
          exact ⟨hsteady.ready, hsteady.asked, hsteady.framed, hsteady.writes, hsteady.header,
            hsteady.quiet⟩
        · cases hstep
      · cases hstep
  | lateStopFlow =>
      change state.lateStopFlow = some next at hstep
      unfold lateStopFlow at hstep
      split at hstep
      · rename_i hwoken
        split at hstep
        · cases hstep
          exact ⟨hsteady.ready, hsteady.asked, hsteady.framed,
            fun _ => hsteady.writes (by simp [hwoken]),
            fun _ => hsteady.header (.inr (.inl hwoken)), by simp⟩
        · cases hstep
      · cases hstep
  | begin index | complete index =>
      simp only [step] at hstep
      split at hstep
      · cases hstep
        exact hsteady
      · cases hstep

theorem signalled (host : Platform) (writeOk : List Bytes → Bytes → Bool) :
    Monitor.Signalled (monitored host writeOk) (fun state => state.calling.Steady host)
      (Strands host) where
  keeps _ _ _ hsteady hstep := step_steady hsteady hstep
  stays := by
    intro state actor action next thread hsteady hacts hother hstep hwaits
    change ((next.wait? thread).map next.client.admits).isSome
    rw [wait?_other hsteady hacts hother hstep, Option.isSome_map]
    exact (Option.isSome_map ..).symm.trans hwaits
  raises := by
    intro state actor action next thread hsteady hacts hother hstep hbefore hafter
    obtain ⟨wait, hwait, hfalse⟩ := Option.map_eq_some_iff.mp hbefore
    obtain ⟨other, hsame, htrue⟩ := Option.map_eq_some_iff.mp hafter
    rw [wait?_other hsteady hacts hother hstep, hwait] at hsame
    obtain rfl := Option.some.inj hsame
    rcases admits_other hsteady hstep hfalse htrue with hsignals | ⟨rfl, hfails⟩
    · exact .inl hsignals
    · exact .inr ⟨hwait, hfails⟩
  strands := by
    rintro state actor action next thread hsteady hacts hother hstep
      ⟨hwait, index, call, args, since, rfl, hcaller, hfails⟩
    obtain ⟨calling, hcalling, rfl⟩ := Option.map_eq_some_iff.mp hstep
    have hmoves := Calling.step_moves hsteady hcalling
    have hindex : acts actor (.calling (.collect index)) = true := hacts
    have hkept := wait?_other hsteady hindex hother hstep
    cases hmoves with
    | collects hreleased hcollect =>
        rw [hcaller] at hreleased
        cases hreleased
        exact absurd (RpcClient.decodes_iff.mpr ⟨_, _, hcollect⟩) hfails
    | drops =>
        refine ⟨by simp [monitored, signals, Calling.meets, Calling.goto], ?_⟩
        refine Option.map_eq_some_iff.mpr ⟨.toCall, hkept.trans hwait, ?_⟩
        rfl
    | flows hflow => cases hflow

/-- No thread is left asleep on `cv` with its predicate true and no `notify_all` to come,
all along a run, exactly when no `callSync` reads something that is no reply to its call
while a thread sleeps until a call is possible and nobody else is about to notify. -/
theorem notified_along_iff (host : Platform) (writeOk : List Bytes → Bytes → Bool)
    (remoteProcedures : List RemoteProcedureSignature) (threads completers : Nat)
    (actions : List (Monitor.Action Thread Action)) :
    System.Along (Monitor.step (monitored host writeOk))
        (Monitor.Notified (monitored host writeOk))
        (Monitor.start (start host remoteProcedures threads completers)) actions ↔
      System.Meets (Monitor.step (monitored host writeOk))
        (fun monitor action =>
          ¬ Monitor.Strands (monitored host writeOk) (Strands host) monitor action)
        (Monitor.start (start host remoteProcedures threads completers)) actions :=
  Monitor.along_notified_iff (signalled host writeOk)
    (Calling.steady_start host remoteProcedures threads) actions

private def smallHost : Platform := ⟨true, fun _ => none, fun _ => none⟩

private def countProcedure : RemoteProcedureSignature := ⟨[], [], [105]⟩

private def twoCallers : Completing := start smallHost [countProcedure] 2 0

private def accepts : Monitored Completing Thread Action := monitored smallHost fun _ _ => true

private def shortReply : List (Monitor.Action Thread Action) :=
  [.act (.caller 0) (.calling (.call 0 0 [] [])),
    .act (.caller 0) (.calling (.wake 0)),
    .act (.caller 0) (.calling (.push 0 [])),
    .notify (.caller 0),
    .act (.caller 1) (.calling (.call 1 0 [] [])),
    .sleep (.caller 1),
    .act .flow (.calling .enter),
    .act .flow (.calling .build),
    .notify .flow,
    .act .flow (.calling .check),
    .act .flow (.calling .flow),
    .act .connection (.calling (.deliver [1, 0, 0, 1, 7])),
    .act .flow (.calling .flow),
    .act .flow (.calling .flow),
    .act .flow (.calling .enter),
    .act .flow (.calling .flow),
    .act .flow (.calling .flow),
    .notify .flow,
    .sleep .flow,
    .sleep (.caller 1),
    .act (.caller 0) (.calling (.release 0)),
    .act (.caller 0) (.calling (.collect 0))]

/-- A call is possible, its thread sleeps, and nobody is left to wake it. -/
theorem caller_left_asleep : ∃ final,
    System.run (Monitor.step accepts) (Monitor.start twoCallers) shortReply = some final ∧
      final.asleep (.caller 1) = true ∧
      accepts.waitsFor final.state (.caller 1) = some true ∧
      final.state.calling.callers[0]? = some .idle ∧ final.asleep .flow = true ∧
      (∀ thread, final.owes thread = false) ∧ ¬ Monitor.Notified accepts final := by
  have hfacts : (System.run (Monitor.step accepts) (Monitor.start twoCallers) shortReply).map
      (fun final => (final.asleep (.caller 1), accepts.waitsFor final.state (.caller 1),
        final.asleep .flow,
        [Thread.caller 0, .caller 1, .flow, .connection].all fun thread =>
          !final.owes thread)) = some (true, some true, true, true) := by decide
  have hcallers : (System.run (Monitor.step accepts) (Monitor.start twoCallers) shortReply).map
      (fun final => final.state.calling.callers[0]?) = some (some .idle) := rfl
  obtain ⟨final, hrun, hfinal⟩ := Option.map_eq_some_iff.mp hfacts
  simp only [Prod.mk.injEq, List.all_eq_true, Bool.not_eq_true'] at hfinal
  obtain ⟨hasleep, hready, hflow, hactors⟩ := hfinal
  rw [hrun] at hcallers
  have howes : ∀ thread, final.owes thread = false := by
    intro thread
    by_cases hactor : thread ∈ [Thread.caller 0, .caller 1, .flow, .connection]
    · exact hactors thread hactor
    · refine Monitor.owes_run hrun fun action hmem hsame => hactor ?_
      have hmembers : ∀ action ∈ shortReply,
          action.thread ∈ [Thread.caller 0, .caller 1, .flow, .connection] := by
        simp [shortReply, Monitor.Action.thread]
      exact hsame ▸ hmembers action hmem
  refine ⟨final, hrun, hasleep, hready, Option.some.inj hcallers, hflow, howes, ?_⟩
  intro hnotified
  obtain ⟨other, howes'⟩ := hnotified _ hasleep hready
  rw [howes other] at howes'
  cases howes'

end Completing

end Rpcmple.Cpp
