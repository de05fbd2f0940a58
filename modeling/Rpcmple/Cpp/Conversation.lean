import Rpcmple.Cpp.ClientSide
import Rpcmple.Cpp.ServerSide

namespace Rpcmple.Cpp

open Data MessageManager
open RpcServer (takesAll)

variable {ω : Type} {table : List (Procedure ω)} {near far : Platform}

namespace Issue

def entry (issue : Issue ω) : Call × Bytes :=
  (⟨issue.invocation.rpId, issue.proc.remote, issue.invocation.arguments,
    issue.invocation.returns⟩, issue.request.body)

theorem commandFrame_entry (issue : Issue ω) :
    commandFrame near issue.entry.1.rpId issue.entry.2 = issue.request.bytes := by
  rw [commandFrame, headerBytes_eq]
  rfl

theorem commands_entries (issues : List (Issue ω)) :
    Calling.commands near (issues.map entry) = issues.map (·.request.bytes) := by
  rw [Calling.commands, List.map_map]
  exact List.map_congr_left fun issue _ => commandFrame_entry issue

theorem replies_front {front issues : List (Issue ω)} (hfront : front <+: issues) (world : ω) :
    replies world front <+: replies world issues := by
  obtain ⟨back, rfl⟩ := hfront
  induction front generalizing world with
  | nil => exact List.nil_prefix
  | cons issue front ih =>
      rw [List.cons_append, replies, replies, List.cons_prefix_cons]
      exact ⟨rfl, ih _⟩

theorem replies_fit {issues : List (Issue ω)} (hsound : ∀ issue ∈ issues, issue.Sound far table)
    (world : ω) : ∀ frame ∈ replies world issues, frame.Fits := by
  induction issues generalizing world with
  | nil => simp [replies]
  | cons issue issues ih =>
      rw [List.forall_mem_cons] at hsound
      rw [replies, List.forall_mem_cons]
      exact ⟨hsound.1.reply_fits world, ih hsound.2 _⟩

end Issue

namespace Session

variable {world : ω} {invocation : Invocation} {proc : Procedure ω} {done : List Invocation}

theorem issues_append (table : List (Procedure ω)) (done : List Invocation)
    (invocation : Invocation) :
    issues table (done ++ [invocation]) = issues table done ++ issues table [invocation] :=
  List.filterMap_append

theorem issues_some (htarget : target table invocation = some proc) :
    issues table [invocation] = [⟨invocation, proc⟩] := by
  simp [issues, htarget]

theorem issues_none (htarget : target table invocation = none) :
    issues table [invocation] = [] := by
  simp [issues, htarget]

theorem target_of_takes (hproc : table[invocation.rpId.toNat]? = some proc)
    (htakes : proc.Takes invocation.arguments) : target table invocation = some proc := by
  rw [target, hproc]
  simp [htakes]

theorem target_of_not_takes (hproc : table[invocation.rpId.toNat]? = some proc)
    (htakes : ¬ proc.Takes invocation.arguments) : target table invocation = none := by
  rw [target, hproc]
  simp [htakes]

theorem target_eq_some (htarget : target table invocation = some proc) :
    table[invocation.rpId.toNat]? = some proc ∧ proc.Takes invocation.arguments := by
  rw [target, Option.filter_eq_some_iff] at htarget
  simpa using htarget

theorem after_issues (world : ω) (invocation : Invocation) (done : List Invocation) :
    Issue.after world (issues table (invocation :: done)) =
      Issue.after (outcome table world invocation).2 (issues table done) := by
  cases htarget : target table invocation with
  | none => simp [issues, outcome, htarget]
  | some proc =>
      simp only [issues, outcome, htarget, List.filterMap_cons, Option.map_some]
      rfl

theorem outcomes_append (world : ω) (done : List Invocation) (invocation : Invocation) :
    outcomes table world (done ++ [invocation]) =
      outcomes table world done ++
        [(outcome table (Issue.after world (issues table done)) invocation).1] := by
  induction done generalizing world with
  | nil => rfl
  | cons first done ih =>
      rw [List.cons_append, outcomes, ih, outcomes, after_issues, List.cons_append]

theorem outcomes_front {calls : List Invocation} (hfront : done <+: calls) (world : ω) :
    outcomes table world done <+: outcomes table world calls := by
  obtain ⟨rest, rfl⟩ := hfront
  induction done generalizing world with
  | nil => exact List.nil_prefix
  | cons first done ih =>
      rw [List.cons_append, outcomes, outcomes, List.cons_prefix_cons]
      exact ⟨rfl, ih _⟩

/-- How far the thread is with its calls, and which were issued by then. -/
inductive Ledger (table : List (Procedure ω)) (world : ω) (calls : List Invocation)
    (state : Session ω) : List (Issue ω) → Prop where
  | rests {done : List Invocation} :
      calls = done ++ state.todo → state.calling.thread? = some .idle →
      state.results = outcomes table world done → Ledger table world calls state (issues table done)
  | calls {done : List Invocation} {issue : Issue ω} :
      calls = done ++ issue.invocation :: state.todo →
      table[issue.invocation.rpId.toNat]? = some issue.proc →
      issue.invocation.arguments.length = issue.proc.args.length →
      state.calling.thread? = some (.waiting issue.entry.1) ∨
        state.calling.thread? = some (.pushing issue.entry.1) →
      state.results = outcomes table world done → Ledger table world calls state (issues table done)
  | issued {done : List Invocation} {issue : Issue ω} {since : List Event} :
      calls = done ++ issue.invocation :: state.todo →
      target table issue.invocation = some issue.proc →
      state.calling.thread? = some (.collecting issue.entry.1 issue.entry.2 since) ∨
        state.calling.thread? = some (.released issue.entry.1 issue.entry.2 since) →
      state.results = outcomes table world done →
      Ledger table world calls state (issues table (done ++ [issue.invocation]))

/-- Both ends, and the bytes in between. -/
structure Converses (near far : Platform) (table : List (Procedure ω)) (world : ω)
    (calls : List Invocation) (state : Session ω) (issued : List (Issue ω)) : Prop where
  client : state.calling.Live near
  remote : state.calling.client.remoteProcedures = table.map Procedure.remote
  pushed : state.calling.pushed = issued.map Issue.entry
  sound : ∀ issue ∈ issued, issue.Sound far table
  ready : Ready (RpcServer.methods far) RpcServer.Framed state.server
  served : Served table world issued state.server.view
  requests : state.server.view.read ++ state.server.view.pending ++ state.toServer =
    state.calling.mm.written.flatten
  replies : state.calling.got ++ state.toClient = state.server.written.flatten
  ledger : Ledger table world calls state issued

theorem converses_start (near far : Platform) (table : List (Procedure ω)) (world : ω)
    (calls : List Invocation) :
    Converses near far table world calls (start near far table world calls) [] where
  client := Calling.live_start near _
  remote := rfl
  pushed := rfl
  sound := by simp
  ready := by
    have hnew : (RpcServer.new (table.map Procedure.registered) world).Framed :=
      RpcServer.sectionFramed_header
    exact init_ready hnew (List.forall_mem_nil _)
  served := served_start far table world
  requests := rfl
  replies := rfl
  ledger := @Ledger.rests _ table world calls _ [] rfl rfl rfl

variable {calls : List Invocation} {state next : Session ω} {issued more : List (Issue ω)}

theorem Ledger.issued_front (hledger : Ledger table world calls state issued) :
    issued <+: issues table calls := by
  cases hledger with
  | rests hcalls =>
      rw [hcalls]
      exact List.IsPrefix.filterMap _ (List.prefix_append _ _)
  | calls hcalls =>
      rw [hcalls]
      exact List.IsPrefix.filterMap _ (List.prefix_append _ _)
  | @issued done issue since hcalls =>
      have hfront : done ++ [issue.invocation] <+: calls := ⟨state.todo, by simp [hcalls]⟩
      exact List.IsPrefix.filterMap _ hfront

theorem Converses.written (hconv : Converses near far table world calls state issued) :
    state.calling.mm.written <+: issued.map (·.request.bytes) := by
  obtain ⟨front, back, hpushed, -, hwritten⟩ :=
    (hconv.client.exchanges.matched hconv.client.runs).sent
  obtain ⟨sent, rest, rfl, rfl, -⟩ := List.map_eq_append_iff.mp (hconv.pushed.symm.trans hpushed)
  rw [hwritten, Issue.commands_entries, List.map_append]
  exact List.prefix_append _ _

theorem Converses.stream (hconv : Converses near far table world calls state issued) :
    state.server.view.read ++ state.server.view.pending <+:
      issued.flatMap (·.request.bytes) := by
  rw [List.flatMap_def]
  refine List.IsPrefix.trans ?_ hconv.written.flatten
  rw [← hconv.requests]
  exact List.prefix_append _ _

theorem Converses.answers (hconv : Converses near far table world calls state issued) :
    ∃ done, done <+: issued ∧
      state.server.written = (Issue.replies world done).map Frame.bytes ∧
      done.map Issue.run <+: state.server.parser.calls ∧
      state.server.parser.calls <+: issued.map Issue.run :=
  hconv.served.logs

theorem Converses.got (hconv : Converses near far table world calls state issued) :
    state.calling.got ++ state.toClient <+: (Issue.replies world issued).flatMap Frame.bytes := by
  obtain ⟨done, hfront, hwritten, -⟩ := hconv.answers
  rw [hconv.replies, hwritten, ← List.flatMap_def]
  obtain ⟨back, hback⟩ := Issue.replies_front hfront world
  rw [← hback, List.flatMap_append]
  exact List.prefix_append _ _

theorem Converses.answered (hconv : Converses near far table world calls state issued)
    {front : List (Call × Bytes)} {since : List Event} {replies : List Frame}
    (hlogged : Calling.Logged near state.calling front since replies) :
    ∃ done, done <+: issued ∧ replies <+: Issue.replies world done ∧
      done.map Issue.run <+: state.server.parser.calls := by
  obtain ⟨done, hfront, hwritten, hran, -⟩ := hconv.answers
  refine ⟨done, hfront, Frame.prefix_of_bytes hlogged.fits ?_ ?_, hran⟩
  · exact Issue.replies_fit (fun issue hmem => hconv.sound issue (hfront.subset hmem)) world
  · have hread : state.calling.mm.view.read = _ := hlogged.read
    have hgot := hconv.replies
    rw [hwritten, ← List.flatMap_def, Calling.got, hread, List.append_assoc,
      List.append_assoc] at hgot
    exact ⟨_, hgot⟩

theorem Converses.replied (hconv : Converses near far table world calls state issued)
    {front : List (Call × Bytes)} {since : List Event} {replies : List Frame}
    (hlogged : Calling.Logged near state.calling front since replies) :
    replies <+: Issue.replies world issued := by
  obtain ⟨done, hfront, hreplies, -⟩ := hconv.answered hlogged
  exact hreplies.trans (Issue.replies_front hfront world)

theorem Ledger.sees {events : List Event} (hledger : Ledger table world calls state issued)
    (htodo : next.todo = state.todo) (hresults : next.results = state.results)
    (hthread : next.calling.thread? = state.calling.thread?.map (Caller.sees events)) :
    Ledger table world calls next issued := by
  cases hledger with
  | rests hcalls hidle houtcomes =>
      rw [← htodo] at hcalls
      rw [hidle] at hthread
      exact .rests hcalls hthread (hresults.trans houtcomes)
  | calls hcalls hproc hlength hplace houtcomes =>
      rw [← htodo] at hcalls
      refine .calls hcalls hproc hlength ?_ (hresults.trans houtcomes)
      rcases hplace with hwaiting | hpushing
      · rw [hwaiting] at hthread
        exact .inl hthread
      · rw [hpushing] at hthread
        exact .inr hthread
  | @issued done issue since hcalls htarget hplace houtcomes =>
      rw [← htodo] at hcalls
      refine @Ledger.issued _ _ _ _ _ _ _ (since ++ events) hcalls htarget ?_
        (hresults.trans houtcomes)
      rcases hplace with hcollecting | hreleased
      · rw [hcollecting] at hthread
        exact .inl hthread
      · rw [hreleased] at hthread
        exact .inr hthread

theorem Ledger.same (hledger : Ledger table world calls state issued)
    (htodo : next.todo = state.todo) (hresults : next.results = state.results)
    (hthread : next.calling.thread? = state.calling.thread?) :
    Ledger table world calls next issued := by
  refine @Ledger.sees _ _ _ _ _ _ _ [] hledger htodo hresults ?_
  rw [hthread]
  cases hplace : state.calling.thread? with
  | none => rfl
  | some caller => cases caller <;> simp [Caller.sees]

theorem FlowStep.remote {host : Platform} {client following : RpcClient} {turn turn' : Turn}
    {events : List Event} (hstep : FlowStep host client turn events following turn') :
    following.remoteProcedures = client.remoteProcedures := by
  cases hstep with
  | stays | ends | wakes | takes | sends | replies | announces | completes => rfl

theorem Converses.flow (hconv : Converses near far table world calls state issued)
    (hflow : state.flow near = some next) :
    Converses near far table world calls next issued ∧
      Calling.Goes near state.calling next.calling ∧
      next = { state with calling := next.calling, toServer := next.toServer } := by
  unfold Session.flow at hflow
  split at hflow
  · cases hflow
  · rename_i hgoes
    rw [not_or] at hgoes
    obtain ⟨calling, hstep, rfl⟩ := Option.map_eq_some_iff.mp hflow
    have hnext := hconv.client.goes_next hgoes.1 hstep
    obtain ⟨events, hflows⟩ := hnext.flows
    have hgrows : state.calling.mm.written <+: calling.mm.written := by
      rw [hflows.written]
      exact List.prefix_append _ _
    refine ⟨?_, hnext, rfl⟩
    exact
      { client := hnext.live
        remote := (FlowStep.remote hflows.moves).trans hconv.remote
        pushed := hflows.pushed.trans hconv.pushed
        sound := hconv.sound
        ready := hconv.ready
        served := hconv.served
        requests := by
          rw [flatten_sent hgrows, ← hconv.requests]
          exact (List.append_assoc _ _ _).symm
        replies := by
          rw [hnext.got]
          exact hconv.replies
        ledger := by
          refine @Ledger.sees _ _ _ _ _ _ _ events hconv.ledger rfl rfl ?_
          change calling.callers[0]? = _
          rw [hflows.callers, List.getElem?_map]
          rfl }

theorem Converses.serve (hconv : Converses near far table world calls state issued)
    (hserve : state.serve far = some next) :
    Converses near far table world calls next issued ∧ ¬ state.server.Starved ∧
      ¬ state.server.Ended ∧
      next = { state with
        server := state.server.dataFlow (RpcServer.methods far) takesAll
        toClient := next.toClient } ∧
      next.server.view.read ++ next.server.view.pending =
        state.server.view.read ++ state.server.view.pending := by
  unfold Session.serve at hserve
  split at hserve
  · cases hserve
  · rename_i hgoes
    rw [not_or] at hgoes
    cases hserve
    obtain ⟨hserved, hready, hgot⟩ :=
      hconv.served.serves hconv.ready hconv.sound hconv.stream hgoes.1
    refine ⟨?_, hgoes.1, hgoes.2, rfl, hgot⟩
    exact
      { client := hconv.client
        remote := hconv.remote
        pushed := hconv.pushed
        sound := hconv.sound
        ready := hready
        served := hserved
        requests := by
          rw [hgot]
          exact hconv.requests
        replies := by
          rw [flatten_sent (written_dataFlow _), ← hconv.replies, List.append_assoc]
        ledger := hconv.ledger.same rfl rfl rfl }

theorem Converses.deliverToServer (hconv : Converses near far table world calls state issued)
    {size : Nat} (hdeliver : state.deliverToServer size = some next) :
    Converses near far table world calls next issued ∧ 0 < size ∧
      size ≤ state.toServer.length ∧
      next = { state with
        server := state.server.fed [state.toServer.take size]
        toServer := state.toServer.drop size } := by
  unfold Session.deliverToServer at hdeliver
  split at hdeliver
  · rename_i hsize
    cases hdeliver
    refine ⟨?_, hsize.1, hsize.2.1, rfl⟩
    have hchunk : (state.toServer.take size).length ≤ readBufferSize :=
      (List.length_take_le _ _).trans hsize.2.2
    exact
      { client := hconv.client
        remote := hconv.remote
        pushed := hconv.pushed
        sound := hconv.sound
        ready := hconv.ready.fed (by simpa using hchunk)
        served := by
          rw [fed_view]
          exact hconv.served.grows List.prefix_rfl _
        requests := by
          rw [← hconv.requests, fed_view]
          change state.server.view.read ++ (state.server.view.pending ++ _) ++ _ = _
          rw [List.append_assoc, List.append_assoc, List.append_assoc, List.take_append_drop]
        replies := hconv.replies
        ledger := hconv.ledger.same rfl rfl rfl }
  · cases hdeliver

theorem Converses.deliverToClient (hconv : Converses near far table world calls state issued)
    {size : Nat} (hdeliver : state.deliverToClient size = some next) :
    Converses near far table world calls next issued ∧ 0 < size ∧
      size ≤ state.toClient.length ∧
      next = { state with
        calling := { state.calling with mm := state.calling.mm.fed [state.toClient.take size] }
        toClient := state.toClient.drop size } := by
  unfold Session.deliverToClient at hdeliver
  split at hdeliver
  · rename_i hsize
    obtain ⟨calling, hcalling, rfl⟩ := Option.map_eq_some_iff.mp hdeliver
    obtain ⟨hlive, rfl⟩ := hconv.client.delivers hcalling
    refine ⟨?_, hsize.1, hsize.2.1, rfl⟩
    exact
      { client := hlive
        remote := hconv.remote
        pushed := hconv.pushed
        sound := hconv.sound
        ready := hconv.ready
        served := hconv.served
        requests := hconv.requests
        replies := by
          rw [← hconv.replies, Calling.got, Calling.got, fed_view]
          change state.calling.mm.view.read ++ (state.calling.mm.view.pending ++ _) ++ _ = _
          rw [List.append_assoc, List.append_assoc, List.append_assoc, List.take_append_drop]
        ledger := hconv.ledger.same rfl rfl rfl }
  · cases hdeliver

end Session

namespace RpcClient

variable {client : RpcClient} {proc : Procedure ω} {arguments values returns : VariantVector}

theorem push_body (hsmall : DataSignature.Small proc.args arguments) (hhonest : proc.Honest)
    (htakes : proc.Takes arguments) (rpId : UInt32) :
    client.push near rpId proc.remote arguments =
      .returns (true, client.queued rpId (DataSignature.body proc.args arguments)) := by
  have hencoded := @DataSignature.toBinary_body near _ _ hsmall hhonest.args htakes.1 htakes.2
    client.args
  rw [push]
  simp only [Procedure.remote, hencoded, if_true]
  rfl

theorem push_mismatch (hsmall : DataSignature.Small proc.args arguments) (hhonest : proc.Honest)
    (hlength : arguments.length = proc.args.length) (htakes : ¬ proc.Takes arguments)
    (rpId : UInt32) :
    ∃ args, client.push near rpId proc.remote arguments =
      .returns (false, { client with args }) := by
  obtain ⟨buffer, hfails, hdefined⟩ := @DataSignature.toBinary_fails near _ _ hsmall hhonest.args
    hlength (fun hmatches => htakes ⟨hlength, hmatches⟩) client.args
  refine ⟨buffer.message, ?_⟩
  rw [push]
  simp only [Procedure.remote, hfails, hdefined, if_true]

theorem collect_body (hsmall : DataSignature.Small proc.rets values) (hhonest : proc.Honest)
    (hlength : values.length = proc.rets.length)
    (hmatches : DataSignature.Matches proc.rets values)
    (hrets : client.rets = DataSignature.body proc.rets values) :
    client.collect near proc.remote returns = .returns ((true, values), client.freed) := by
  have hdecoded := @DataSignature.fromBinary_body near _ _ hsmall hhonest.rets hlength hmatches
    returns
  rw [← hrets] at hdecoded
  rw [collect]
  simp only [Procedure.remote, hdecoded, Exec.returns_bind, hlength, decide_true,
    Bool.and_true]
  rfl

end RpcClient

namespace Session

variable {world : ω} {calls : List Invocation} {state next : Session ω}
  {issued more : List (Issue ω)}

/-- What the procedures and the calls keep to. -/
structure Agreed (far : Platform) (table : List (Procedure ω)) (calls : List Invocation) :
    Prop where
  size : table.length ≤ 256
  honest : ∀ proc ∈ table, proc.Honest
  admissible : ∀ invocation ∈ calls, Admissible table invocation
  named : Named table far calls

theorem Agreed.small {invocation : Invocation} {proc : Procedure ω}
    (hagreed : Agreed far table calls)
    (hmem : invocation ∈ calls) (hproc : table[invocation.rpId.toNat]? = some proc)
    (hlength : invocation.arguments.length = proc.args.length) :
    DataSignature.Small proc.args invocation.arguments := by
  obtain ⟨other, hother, hsmall⟩ := hagreed.admissible _ hmem
  obtain rfl := Option.some.inj (hother.symm.trans hproc)
  exact hsmall hlength

theorem Agreed.sound {issue : Issue ω} (hagreed : Agreed far table calls)
    (hmem : issue.invocation ∈ calls) (htarget : target table issue.invocation = some issue.proc) :
    issue.Sound far table := by
  obtain ⟨hproc, htakes⟩ := target_eq_some htarget
  obtain ⟨hindex, -⟩ := List.getElem?_eq_some_iff.mp hproc
  exact
    { number := hindex.trans_le hagreed.size
      registered := hproc
      takes := htakes
      small := hagreed.small hmem hproc htakes.1
      honest := hagreed.honest _ (List.mem_of_getElem? hproc)
      named := hagreed.named issue (List.mem_filterMap.mpr ⟨_, hmem, by rw [htarget]; rfl⟩) }

def callerLeft : Caller → Nat
  | .idle => 0
  | .waiting _ => 5
  | .pushing _ => 4
  | .collecting _ _ _ => 3
  | .released _ _ _ => 2

def threadLeft (state : Session ω) : Nat :=
  6 * state.todo.length + (state.calling.thread?.map callerLeft).getD 0

structure Calls (state next : Session ω) : Prop where
  fewer : next.threadLeft < state.threadLeft
  left : next.calling.left = state.calling.left
  got : next.calling.got = state.calling.got
  server : next.server = state.server

theorem Converses.asks {calling : Calling} {todo : List Invocation}
    {results : List (Option VariantVector)}
    (hconv : Converses near far table world calls state issued)
    (hasks : Calling.Asks near state.calling calling) (hmore : issued <+: more)
    (hpushed : calling.pushed = more.map Issue.entry)
    (hsound : ∀ issue ∈ more, issue.Sound far table)
    (hledger : Ledger table world calls { state with calling, todo, results } more) :
    Converses near far table world calls { state with calling, todo, results } more where
  client := hasks.live
  remote := hasks.remote.trans hconv.remote
  pushed := hpushed
  sound := hsound
  ready := hconv.ready
  served := hconv.served.grows hmore _
  requests := by
    rw [hasks.written]
    exact hconv.requests
  replies := by
    rw [hasks.got]
    exact hconv.replies
  ledger := hledger

theorem entries_short {issues : List (Issue ω)} (hsound : ∀ issue ∈ issues, issue.Sound far table) :
    ∀ entry ∈ issues.map Issue.entry, entry.2.length < 16777216 := by
  intro entry hmem
  obtain ⟨issue, hissue, rfl⟩ := List.mem_map.mp hmem
  exact (hsound issue hissue).fits.2

theorem settle_idle {calling : Calling} (hthread : calling.thread? = some .idle) :
    state.settle calling =
      { state with
        calling
        results := state.results ++
          [(calling.returned.drop state.calling.returned.length).head?.map (·.values)] } := by
  rw [settle]
  simp only [hthread]

theorem settle_inside {calling : Calling} {caller : Caller}
    (hthread : calling.thread? = some caller) (hinside : caller ≠ .idle) :
    state.settle calling = { state with calling } := by
  rw [settle]
  simp only [hthread]
  cases caller with
  | idle => exact absurd rfl hinside
  | waiting | pushing | collecting | released => rfl

theorem threadLeft_lt {before caller : Caller} (htodo : next.todo = state.todo)
    (hbefore : state.calling.thread? = some before) (hthread : next.calling.thread? = some caller)
    (hless : callerLeft caller < callerLeft before) : next.threadLeft < state.threadLeft := by
  rw [threadLeft, threadLeft, htodo, hbefore, hthread]
  simp only [Option.map_some, Option.getD_some]
  omega

theorem Converses.begins (hagreed : Agreed far table calls)
    (hconv : Converses near far table world calls state issued)
    (hthread : state.calling.thread? = some .idle) {invocation : Invocation}
    {todo : List Invocation} (htodo : state.todo = invocation :: todo) :
    ∃ next more, state.caller near = some next ∧
      Converses near far table world calls next more ∧ state.Calls next := by
  have hledger := hconv.ledger
  cases hledger with
  | calls _ _ _ hplace => rcases hplace with hplace | hplace <;> cases hthread.symm.trans hplace
  | issued _ _ hplace => rcases hplace with hplace | hplace <;> cases hthread.symm.trans hplace
  | @rests done hcalls _ houtcomes =>
      rw [htodo] at hcalls
      have hmem : invocation ∈ calls := by simp [hcalls]
      obtain ⟨proc, hproc, -⟩ := hagreed.admissible _ hmem
      have hremote : state.calling.client.remoteProcedures[invocation.rpId.toNat]? =
          some proc.remote := by
        rw [hconv.remote, List.getElem?_map, hproc]
        rfl
      have hcallers : state.calling.callers[0]? = some .idle := hthread
      have hentries := entries_short hconv.sound
      rw [← hconv.pushed] at hentries
      by_cases hlength : invocation.arguments.length = proc.args.length
      · have hcount : ¬ invocation.arguments.length ≠ proc.remote.args.length :=
          not_not.mpr hlength
        have hcall : state.calling.call 0 invocation.rpId invocation.arguments
            invocation.returns = some (state.calling.goto 0 (.waiting ⟨invocation.rpId,
              proc.remote, invocation.arguments, invocation.returns⟩)) := by
          simp only [Calling.call, hcallers, hremote]
          rw [if_neg hcount]
        have hwaiting := Calling.thread_goto hthread
          (.waiting ⟨invocation.rpId, proc.remote, invocation.arguments, invocation.returns⟩)
        have hasks := @Calling.Live.asks near _ _ (.call 0 _ _ _) hconv.client rfl hcall hentries
        refine ⟨_, _, ?_, hconv.asks hasks List.prefix_rfl hconv.pushed hconv.sound
          (@Ledger.calls _ _ _ _ { state with calling := _, todo } done ⟨invocation, proc⟩ hcalls
            hproc hlength (.inl hwaiting) houtcomes), ?_, hasks.left, hasks.got, rfl⟩
        · simp only [Session.caller, hthread, htodo]
          rw [hcall, Option.map_some, settle_inside hwaiting (by simp)]
        · rw [threadLeft, threadLeft, hthread, htodo]
          simp only [hwaiting, Option.map_some, Option.getD_some, callerLeft, List.length_cons]
          omega
      · have hcount : invocation.arguments.length ≠ proc.remote.args.length := hlength
        have hcall : state.calling.call 0 invocation.rpId invocation.arguments
            invocation.returns = some state.calling := by
          simp only [Calling.call, hcallers, hremote]
          rw [if_pos hcount]
        have hasks := @Calling.Live.asks near _ _ (.call 0 _ _ _) hconv.client rfl hcall hentries
        have htarget : target table invocation = none :=
          target_of_not_takes hproc fun htakes => hlength htakes.1
        have hrests := @Ledger.rests _ table world calls
          { state with todo, results := state.results ++ [none] } (done ++ [invocation])
          (by simp [hcalls]) hthread (by rw [outcomes_append, houtcomes]; simp [outcome, htarget])
        rw [issues_append, issues_none htarget, List.append_nil] at hrests
        refine ⟨_, _, ?_, hconv.asks hasks List.prefix_rfl hconv.pushed hconv.sound hrests, ?_,
          hasks.left, hasks.got, rfl⟩
        · simp only [Session.caller, hthread, htodo]
          rw [hcall, Option.map_some, @settle_idle _ { state with todo } _ hthread]
          simp
        · rw [threadLeft, threadLeft, hthread, htodo]
          simp only [Option.map_some, Option.getD_some, List.length_cons]
          omega

theorem Converses.inside (hconv : Converses near far table world calls state issued)
    {action : Calling.Action} {calling : Calling} {before caller : Caller}
    (haction : action.isCaller = true)
    (hstep : state.calling.step near takesAll action = some calling)
    (hbefore : state.calling.thread? = some before) (hthread : calling.thread? = some caller)
    (hless : callerLeft caller < callerLeft before) (hmore : issued <+: more)
    (hpushed : calling.pushed = more.map Issue.entry)
    (hsound : ∀ issue ∈ more, issue.Sound far table) {results : List (Option VariantVector)}
    (hledger : Ledger table world calls { state with calling, results } more) :
    Converses near far table world calls { state with calling, results } more ∧
      state.Calls { state with calling, results } := by
  have hasks := hconv.client.asks haction hstep (hpushed ▸ entries_short hsound)
  exact ⟨hconv.asks hasks hmore hpushed hsound hledger,
    ⟨threadLeft_lt rfl hbefore hthread hless, hasks.left, hasks.got, rfl⟩⟩

theorem Converses.wakes (hconv : Converses near far table world calls state issued) {call : Call}
    (hthread : state.calling.thread? = some (.waiting call)) :
    ∃ next more, state.caller near = some next ∧
      Converses near far table world calls next more ∧ state.Calls next := by
  have hledger := hconv.ledger
  cases hledger with
  | rests _ hplace => cases hthread.symm.trans hplace
  | issued _ _ hplace => rcases hplace with hplace | hplace <;> cases hthread.symm.trans hplace
  | @calls done issue hcalls hproc hlength hplace houtcomes =>
      rcases hplace with hplace | hplace
      · cases hthread.symm.trans hplace
        have hcallers : state.calling.callers[0]? = some (.waiting issue.entry.1) := hthread
        have hcan := (hconv.client.quiet hthread rfl).1
        have hstep : state.calling.step near takesAll (.wake 0) =
            some (state.calling.goto 0 (.pushing issue.entry.1)) := by
          change Calling.wake state.calling 0 = _
          simp [Calling.wake, hcallers, RpcClient.mayCall, hcan, hconv.client.runs.client]
        have hpushing := Calling.thread_goto hthread (.pushing issue.entry.1)
        obtain ⟨hnext, hless⟩ := @Converses.inside _ _ _ _ _ _ _ _ _ hconv _ _ _ _ rfl hstep hthread
          hpushing (by simp [callerLeft]) List.prefix_rfl hconv.pushed hconv.sound state.results
          (.calls hcalls hproc hlength (.inr hpushing) houtcomes)
        refine ⟨_, _, ?_, hnext, hless⟩
        simp only [Session.caller, hthread]
        rw [show state.calling.wake 0 = _ from hstep, Option.map_some,
          settle_inside hpushing (by simp)]
      · cases hthread.symm.trans hplace

theorem Converses.pushes (hagreed : Agreed far table calls)
    (hconv : Converses near far table world calls state issued) {call : Call}
    (hthread : state.calling.thread? = some (.pushing call)) :
    ∃ next more, state.caller near = some next ∧
      Converses near far table world calls next more ∧ state.Calls next := by
  have hledger := hconv.ledger
  cases hledger with
  | rests _ hplace => cases hthread.symm.trans hplace
  | issued _ _ hplace => rcases hplace with hplace | hplace <;> cases hthread.symm.trans hplace
  | @calls done issue hcalls hproc hlength hplace houtcomes =>
      rcases hplace with hplace | hplace
      · cases hthread.symm.trans hplace
      · cases hthread.symm.trans hplace
        have hmem : issue.invocation ∈ calls := by simp [hcalls]
        have hsmall := hagreed.small hmem hproc hlength
        have hhonest := hagreed.honest _ (List.mem_of_getElem? hproc)
        have hcallers : state.calling.callers[0]? = some (.pushing issue.entry.1) := hthread
        by_cases htakes : issue.proc.Takes issue.invocation.arguments
        · have hpush : state.calling.client.push near issue.entry.1.rpId issue.entry.1.proc
              issue.entry.1.arguments = _ :=
            RpcClient.push_body hsmall hhonest htakes issue.invocation.rpId
          have htarget := target_of_takes hproc htakes
          generalize hcalling :
            { (state.calling.meets (state.calling.client.queued issue.invocation.rpId
                issue.request.body)).goto 0 (.collecting issue.entry.1 issue.entry.2 []) with
              pushed := state.calling.pushed ++ [issue.entry] } = calling
          have hstep : state.calling.step near takesAll (.push 0 []) = some calling := by
            change Calling.push near state.calling 0 [] = _
            simp only [Calling.push, hcallers, hpush]
            exact congrArg some hcalling
          have hcollecting : calling.thread? =
              some (.collecting issue.entry.1 issue.entry.2 []) := by
            rw [← hcalling]
            exact @Calling.thread_goto
              (state.calling.meets (state.calling.client.queued issue.invocation.rpId
                issue.request.body)) _ hthread _
          have hissues :
              issues table (done ++ [issue.invocation]) = issues table done ++ [issue] := by
            rw [issues_append, issues_some htarget]
          have hsound : ∀ other ∈ issues table (done ++ [issue.invocation]),
              other.Sound far table := by
            rw [hissues]
            exact List.forall_mem_append.mpr
              ⟨hconv.sound, by simpa using hagreed.sound hmem htarget⟩
          have hpushed : calling.pushed =
              (issues table (done ++ [issue.invocation])).map Issue.entry := by
            rw [hissues, List.map_append, ← hconv.pushed, ← hcalling]
            rfl
          obtain ⟨hnext, hless⟩ := @Converses.inside _ _ _ _ _ _ _ _ _ hconv _ _ _ _ rfl hstep
            hthread hcollecting (by simp [callerLeft]) (hissues ▸ List.prefix_append _ _) hpushed
            hsound state.results (.issued hcalls htarget (.inl hcollecting) houtcomes)
          refine ⟨_, _, ?_, hnext, hless⟩
          simp only [Session.caller, hthread]
          rw [show state.calling.push near 0 [] = _ from hstep, Option.map_some,
            settle_inside hcollecting (by simp)]
        · obtain ⟨args, hpush⟩ := @RpcClient.push_mismatch _ near state.calling.client _ _ hsmall
            hhonest hlength htakes issue.invocation.rpId
          have htarget := target_of_not_takes hproc htakes
          have hfails : state.calling.client.push near issue.entry.1.rpId issue.entry.1.proc
            issue.entry.1.arguments = _ := hpush
          generalize hcalling :
            (state.calling.meets { state.calling.client with args }).goto 0 .idle = calling
          have hstep : state.calling.step near takesAll (.push 0 []) = some calling := by
            change Calling.push near state.calling 0 [] = _
            simp only [Calling.push, hcallers, hfails]
            exact congrArg some hcalling
          have hidle : calling.thread? = some .idle := by
            rw [← hcalling]
            exact @Calling.thread_goto
              (state.calling.meets { state.calling.client with args }) _ hthread _
          have hreturned : calling.returned = state.calling.returned := by
            rw [← hcalling]
            rfl
          have hpushed : calling.pushed = (issues table done).map Issue.entry := by
            rw [← hconv.pushed, ← hcalling]
            rfl
          have hrests := @Ledger.rests _ table world calls
            { state with calling, results := state.results ++ [none] }
            (done ++ [issue.invocation]) (by simp [hcalls]) hidle
            (by rw [outcomes_append, houtcomes]; simp [outcome, htarget])
          rw [issues_append, issues_none htarget, List.append_nil] at hrests
          obtain ⟨hnext, hless⟩ := @Converses.inside _ _ _ _ _ _ _ _ _ hconv _ _ _ _ rfl hstep
            hthread hidle (by simp [callerLeft]) List.prefix_rfl hpushed hconv.sound
            (state.results ++ [none]) hrests
          refine ⟨_, _, ?_, hnext, hless⟩
          simp only [Session.caller, hthread]
          rw [show state.calling.push near 0 [] = _ from hstep, Option.map_some,
            settle_idle hidle, hreturned, List.drop_length]
          rfl

theorem Converses.releases (hconv : Converses near far table world calls state issued)
    {call : Call} {args : Bytes} {since : List Event}
    (hthread : state.calling.thread? = some (.collecting call args since))
    (hreply : state.calling.client.replIsReady = true) :
    ∃ next more, state.caller near = some next ∧
      Converses near far table world calls next more ∧ state.Calls next := by
  have hledger := hconv.ledger
  cases hledger with
  | rests _ hplace => cases hthread.symm.trans hplace
  | calls _ _ _ hplace => rcases hplace with hplace | hplace <;> cases hthread.symm.trans hplace
  | @issued done issue since hcalls htarget hplace houtcomes =>
      rcases hplace with hplace | hplace
      · cases hthread.symm.trans hplace
        have hcallers : state.calling.callers[0]? =
          some (.collecting issue.entry.1 issue.entry.2 since) := hthread
        have hstep : state.calling.step near takesAll (.release 0) =
            some (state.calling.goto 0 (.released issue.entry.1 issue.entry.2 since)) := by
          change Calling.release state.calling 0 = _
          simp [Calling.release, hcallers, RpcClient.mayCollect, hreply]
        have hreleased := Calling.thread_goto hthread (.released issue.entry.1 issue.entry.2 since)
        obtain ⟨hnext, hless⟩ := @Converses.inside _ _ _ _ _ _ _ _ _ hconv _ _ _ _ rfl hstep hthread
          hreleased (by simp [callerLeft]) List.prefix_rfl hconv.pushed hconv.sound state.results
          (.issued hcalls htarget (.inr hreleased) houtcomes)
        refine ⟨_, _, ?_, hnext, hless⟩
        simp only [Session.caller, hthread]
        rw [show state.calling.release 0 = _ from hstep, Option.map_some,
          settle_inside hreleased (by simp)]
      · cases hthread.symm.trans hplace

theorem Converses.reply (hconv : Converses near far table world calls state issued)
    {issue : Issue ω} {front : List (Issue ω)} (hissued : issued = front ++ [issue])
    {call : Call} {args : Bytes} {since : List Event}
    (hthread : state.calling.thread? = some (.released call args since)) :
    state.calling.client.rets = (issue.reply (Issue.after world front)).body := by
  obtain ⟨sent, replies, hprogress, hpushed, hlogged⟩ := hconv.client.exchange hthread rfl
  have hreply := hconv.client.passed hthread
  rcases hprogress.replied_or with ⟨frame, hfits, -, hrets, -, -, -, rfl⟩ | ⟨-, hnone⟩
  · have hall := hconv.replied (hlogged.replies hfits)
    have hcount := congrArg List.length hpushed
    rw [hconv.pushed, hissued, List.length_map, List.length_append, List.length_append,
      List.length_singleton, List.length_singleton] at hcount
    have hsame := hall.eq_of_length (by
      rw [Issue.length_replies, hissued, List.length_append, List.length_append,
        List.length_singleton, List.length_singleton, hlogged.replied]
      omega)
    rw [hissued, Issue.replies_append] at hsame
    obtain ⟨-, hframe⟩ := List.append_inj' hsame rfl
    rw [hrets, List.singleton_inj.mp hframe]
  · rw [hnone] at hreply
    cases hreply

theorem Converses.collects (hagreed : Agreed far table calls)
    (hconv : Converses near far table world calls state issued)
    {call : Call} {args : Bytes} {since : List Event}
    (hthread : state.calling.thread? = some (.released call args since)) :
    ∃ next more, state.caller near = some next ∧
      Converses near far table world calls next more ∧ state.Calls next := by
  have hledger := hconv.ledger
  cases hledger with
  | rests _ hplace => cases hthread.symm.trans hplace
  | calls _ _ _ hplace => rcases hplace with hplace | hplace <;> cases hthread.symm.trans hplace
  | @issued done issue since hcalls htarget hplace houtcomes =>
      rcases hplace with hplace | hplace
      · cases hthread.symm.trans hplace
      · cases hthread.symm.trans hplace
        have hcallers : state.calling.callers[0]? =
          some (.released issue.entry.1 issue.entry.2 since) := hthread
        have hmem : issue.invocation ∈ calls := by simp [hcalls]
        have hgood := hagreed.sound hmem htarget
        have hissues :
            issues table (done ++ [issue.invocation]) = issues table done ++ [issue] := by
          rw [issues_append, issues_some htarget]
        have hrets := hconv.reply hissues hthread
        obtain ⟨-, hlength, hmatches, hsmall⟩ := hgood.honest.returns
          (Issue.after world (issues table done)) issue.invocation.arguments hgood.takes hgood.small
        have hcollect : state.calling.client.collect near issue.entry.1.proc
            issue.entry.1.returns = _ :=
          RpcClient.collect_body hsmall hgood.honest hlength hmatches hrets
        generalize hcalling :
          { (state.calling.meets state.calling.client.freed).goto 0 .idle with
            returned := state.calling.returned ++
              [Returned.mk issue.entry.1 issue.entry.2 since state.calling.client
                (issue.proc.called (Issue.after world (issues table done))
                  issue.invocation.arguments).2.1] } = calling
        have hstep : state.calling.step near takesAll (.collect 0) = some calling := by
          change Calling.collect near state.calling 0 = _
          simp only [Calling.collect, hcallers, hcollect, if_true]
          exact congrArg some hcalling
        have hidle : calling.thread? = some .idle := by
          rw [← hcalling]
          exact @Calling.thread_goto
            (state.calling.meets state.calling.client.freed) _ hthread _
        have hreturned : (calling.returned.drop state.calling.returned.length).head?.map
            (·.values) = some (issue.proc.called (Issue.after world (issues table done))
              issue.invocation.arguments).2.1 := by
          rw [← hcalling]
          simp
        have hpushed : calling.pushed =
            (issues table (done ++ [issue.invocation])).map Issue.entry := by
          rw [← hconv.pushed, ← hcalling]
          rfl
        obtain ⟨hnext, hless⟩ := @Converses.inside _ _ _ _ _ _ _ _ _ hconv _ _ _ _ rfl hstep
          hthread hidle (by simp [callerLeft]) List.prefix_rfl hpushed hconv.sound
          (state.results ++ [some (issue.proc.called (Issue.after world (issues table done))
            issue.invocation.arguments).2.1])
          (.rests (by simp [hcalls]) hidle
            (by rw [outcomes_append, houtcomes]; simp [outcome, htarget]))
        refine ⟨_, _, ?_, hnext, hless⟩
        simp only [Session.caller, hthread]
        rw [show state.calling.collect near 0 = _ from hstep, Option.map_some,
          settle_idle hidle, hreturned]

end Session

end Rpcmple.Cpp
