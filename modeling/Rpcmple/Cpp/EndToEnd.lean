import Rpcmple.Cpp.Conversation
import Rpcmple.Data.Completion

namespace Rpcmple.Cpp

open Data MessageManager System
open RpcServer (takesAll)

namespace Session

variable {ω : Type} {table : List (Procedure ω)} {near far : Platform} {world : ω}
  {calls : List Invocation} {state next : Session ω} {issued more : List (Issue ω)}

def Awaits (state : Session ω) : Prop :=
  ∃ call args since, state.calling.thread? = some (.collecting call args since) ∧
    state.calling.client.replIsReady = false

theorem Converses.caller (hagreed : Agreed far table calls)
    (hconv : Converses near far table world calls state issued) :
    state.caller near = none ∧
        (state.calling.thread? = some .idle ∧ state.todo = [] ∨ state.Awaits) ∨
      ∃ next more, state.caller near = some next ∧
        Converses near far table world calls next more ∧ state.Calls next := by
  cases hthread : state.calling.thread? with
  | none =>
      have hone := hconv.client.single.one
      rw [Calling.thread?, List.getElem?_eq_none_iff] at hthread
      omega
  | some caller =>
      cases caller with
      | idle =>
          cases htodo : state.todo with
          | nil =>
              refine .inl ⟨?_, .inl ⟨rfl, rfl⟩⟩
              simp only [Session.caller, hthread, htodo]
          | cons invocation todo => exact .inr (hconv.begins hagreed hthread htodo)
      | waiting call => exact .inr (hconv.wakes hthread)
      | pushing call => exact .inr (hconv.pushes hagreed hthread)
      | collecting call args since =>
          cases hreply : state.calling.client.replIsReady with
          | true => exact .inr (hconv.releases hthread hreply)
          | false =>
              refine .inl ⟨?_, .inr ⟨call, args, since, hthread, hreply⟩⟩
              have hcallers : state.calling.callers[0]? = some (.collecting call args since) :=
                hthread
              simp [Session.caller, hthread, Calling.release, hcallers, RpcClient.mayCollect,
                hreply, hconv.client.runs.client]
      | released call args since => exact .inr (hconv.collects hagreed hthread)

/-- The steps still to come; a byte that has yet to arrive counts for those it takes to
read it. -/
def left (table : List (Procedure ω)) (world : ω) (calls : List Invocation)
    (state : Session ω) : Nat :=
  state.threadLeft + state.calling.left + state.server.remaining +
    25 * (((Issue.replies world (issues table calls)).flatMap Frame.bytes).length -
      state.calling.got.length) +
    7 * (((issues table calls).flatMap (·.request.bytes)).length -
      (state.server.view.read ++ state.server.view.pending).length)

theorem length_flatMap_front {α : Type} {front items : List α} (hfront : front <+: items)
    (f : α → Bytes) : (front.flatMap f).length ≤ (items.flatMap f).length := by
  obtain ⟨back, rfl⟩ := hfront
  rw [List.flatMap_append, List.length_append]
  omega

theorem Converses.room (hconv : Converses near far table world calls state issued) :
    state.calling.got.length + state.toClient.length ≤
        ((Issue.replies world (issues table calls)).flatMap Frame.bytes).length ∧
      (state.server.view.read ++ state.server.view.pending).length + state.toServer.length ≤
        ((issues table calls).flatMap (·.request.bytes)).length := by
  have hfront := hconv.ledger.issued_front
  have hwritten : state.calling.mm.written.flatten.length ≤
      (issued.flatMap (·.request.bytes)).length := by
    rw [List.flatMap_def]
    exact hconv.written.flatten.length_le
  rw [← List.length_append, ← List.length_append, hconv.requests]
  exact ⟨hconv.got.length_le.trans
      (length_flatMap_front (Issue.replies_front hfront world) Frame.bytes),
    hwritten.trans (length_flatMap_front hfront _)⟩

theorem Converses.step (hagreed : Agreed far table calls)
    (hconv : Converses near far table world calls state issued) {action : Action}
    (hstep : state.step near far action = some next) :
    ∃ more, Converses near far table world calls next more ∧
      next.left table world calls < state.left table world calls := by
  cases action with
  | caller =>
      rcases hconv.caller hagreed with ⟨hnone, -⟩ | ⟨other, more, hsome, hnext, hcalls⟩
      · cases hnone.symm.trans hstep
      · cases hsome.symm.trans hstep
        refine ⟨more, hnext, ?_⟩
        have hfewer := hcalls.fewer
        rw [left, left, hcalls.left, hcalls.got, hcalls.server]
        omega
  | flow =>
      obtain ⟨hnext, hgoes, hframe⟩ := hconv.flow hstep
      refine ⟨issued, hnext, ?_⟩
      have hfewer := hgoes.left
      have hthread : next.threadLeft = state.threadLeft := by
        obtain ⟨events, hflows⟩ := hgoes.flows
        have hsees : next.calling.thread? = state.calling.thread?.map (Caller.sees events) := by
          rw [Calling.thread?, hflows.callers, List.getElem?_map]
          rfl
        have htodo : next.todo = state.todo := by rw [hframe]
        rw [threadLeft, threadLeft, htodo, hsees, Option.map_map]
        congr 2
        cases state.calling.thread? with
        | none => rfl
        | some caller => cases caller <;> rfl
      have hserver : next.server = state.server := by rw [hframe]
      rw [left, left, hgoes.got, hthread, hserver]
      omega
  | server =>
      obtain ⟨hnext, hgoes, hopen, hframe, hgot⟩ := hconv.serve hstep
      refine ⟨issued, hnext, ?_⟩
      have hrests : ¬ Rests (RpcServer.methods far) state.server := by
        rintro (hclosed | hclosed | ⟨-, hrequester, -⟩ | ⟨-, hwaits⟩)
        · exact hopen (.inl hclosed)
        · exact hopen (.inr hclosed)
        · cases hrequester
        · cases hwaits
      have hfewer := @remaining_dataFlow _ _ takesAll _ _ hconv.ready hrests
      rw [left, left, hgot, hframe]
      simp only [threadLeft]
      omega
  | toServer size =>
      obtain ⟨hnext, hpositive, hsize, rfl⟩ := hconv.deliverToServer hstep
      refine ⟨issued, hnext, ?_⟩
      have hroom := hconv.room.2
      have htaken : (state.toServer.take size).length = size := List.length_take_of_le hsize
      have hgot : (state.server.view.read ++
          (state.server.view.pending ++ state.toServer.take size)).length =
          (state.server.view.read ++ state.server.view.pending).length + size := by
        rw [← List.append_assoc, List.length_append, htaken]
      rw [left, left, threadLeft, threadLeft, fed_view, remaining_fed, htaken]
      change _ + 7 * (_ - (state.server.view.read ++
        (state.server.view.pending ++ state.toServer.take size)).length) < _
      rw [hgot]
      simp only
      omega
  | toClient size =>
      obtain ⟨hnext, hpositive, hsize, rfl⟩ := hconv.deliverToClient hstep
      refine ⟨issued, hnext, ?_⟩
      have hroom := hconv.room.1
      have htaken : (state.toClient.take size).length = size := List.length_take_of_le hsize
      have hgot : Calling.got { state.calling with
          mm := state.calling.mm.fed [state.toClient.take size] } =
          state.calling.got ++ state.toClient.take size := by
        rw [Calling.got, Calling.got, fed_view, List.append_assoc]
        rfl
      have hleft : Calling.left { state.calling with
          mm := state.calling.mm.fed [state.toClient.take size] } =
          state.calling.left + 16 * size + 8 := by
        rw [Calling.left, Calling.left, remaining_fed, htaken]
        change Calling.Writing.left state.calling.writing + _ = _
        omega
      rw [left, left, threadLeft, threadLeft, hgot, hleft, List.length_append, htaken]
      simp only
      change state.threadLeft + _ + _ + _ + _ < state.threadLeft + _ + _ + _ + _
      omega

theorem Converses.client_starved (hconv : Converses near far table world calls state issued)
    (hstuck : Stuck (Session.step near far) state) (hawaits : state.Awaits) :
    state.calling.mm.Starved ∧ state.toClient = [] := by
  obtain ⟨call, args, since, hthread, hreply⟩ := hawaits
  constructor
  · by_contra hgoes
    have hflow : state.flow near = none := hstuck .flow
    have hopen := hconv.client.not_ended
    rw [Session.flow, if_neg (by simp [hgoes, hopen]), Option.map_eq_none_iff] at hflow
    obtain ⟨hturn, hsend⟩ := hconv.client.waits hflow
    obtain ⟨front, replies, hprogress, -, -⟩ := hconv.client.exchange hthread rfl
    rw [hturn] at hprogress
    cases hprogress with
    | queued _ hready => cases hsend.symm.trans hready
    | holds _ _ hother => cases hother
    | reads _ _ hother => cases hother
    | announced _ _ _ _ _ _ _ hother => cases hother
    | replied _ _ _ hready => cases hreply.symm.trans hready
    | ended _ _ hother => cases hother
  · by_contra hsome
    have hdeliver : state.deliverToClient 1 = none := hstuck (.toClient 1)
    have hpositive := List.length_pos_iff.mpr hsome
    have hsize : 0 < 1 ∧ 1 ≤ state.toClient.length ∧ 1 ≤ readBufferSize :=
      ⟨Nat.one_pos, hpositive, by decide⟩
    have hchunk : (state.toClient.take 1).length ≤ readBufferSize :=
      (List.length_take_le _ _).trans hsize.2.2
    rw [Session.deliverToClient, if_pos hsize, Calling.deliver, if_pos hchunk] at hdeliver
    cases hdeliver

theorem Converses.server_starved (hconv : Converses near far table world calls state issued)
    (hstuck : Stuck (Session.step near far) state) :
    state.server.Starved ∧ state.toServer = [] := by
  constructor
  · by_contra hgoes
    have hserve : state.serve far = none := hstuck .server
    have hopen : ¬ state.server.Ended := by
      rw [ended_iff]
      exact hconv.served.open
    rw [Session.serve, if_neg (by simp [hgoes, hopen])] at hserve
    cases hserve
  · by_contra hsome
    have hdeliver : state.deliverToServer 1 = none := hstuck (.toServer 1)
    have hpositive := List.length_pos_iff.mpr hsome
    have hsize : 0 < 1 ∧ 1 ≤ state.toServer.length ∧ 1 ≤ readBufferSize :=
      ⟨Nat.one_pos, hpositive, by decide⟩
    rw [Session.deliverToServer, if_pos hsize] at hdeliver
    cases hdeliver

theorem Converses.rest_arrived (hconv : Converses near far table world calls state issued)
    (hserver : state.server.Starved) (hnone : state.toServer = []) (hnothing : state.toClient = [])
    {call : Call} {args : Bytes} {since : List Event} {front : List (Call × Bytes)}
    {replies : List Frame} (hpushed : state.calling.pushed = front ++ [(call, args)])
    (hlogged : Calling.Logged near state.calling front since replies)
    (hsent : since.filterMap Calling.message? = [commandFrame near call.rpId args]) :
    ∃ frame : Frame, frame.Fits ∧
      since.flatMap Calling.received ++ state.calling.mm.view.pending = frame.bytes := by
  have hwritten : state.calling.mm.written = issued.map (·.request.bytes) := by
    rw [hlogged.written, hsent, ← Issue.commands_entries, ← hconv.pushed, hpushed,
      Calling.commands, Calling.commands, List.map_append]
    rfl
  have hstream := hconv.requests
  rw [hnone, List.append_nil, hwritten, ← List.flatMap_def] at hstream
  obtain ⟨hstage, hshort⟩ := starved_short hconv.ready hserver
  have hall : state.server.written = _ := hconv.served.caught_up hstage hshort hstream
  have hgot := hconv.replies
  rw [hnothing, List.append_nil, hall, ← List.flatMap_def, Calling.got] at hgot
  obtain ⟨rest, hrest⟩ := hconv.replied hlogged
  have hcount := congrArg List.length hpushed
  rw [hconv.pushed, List.length_map, List.length_append, List.length_singleton,
    ← hlogged.replied] at hcount
  have hone := congrArg List.length hrest
  rw [Issue.length_replies, List.length_append, hcount] at hone
  obtain ⟨frame, rfl⟩ := List.length_eq_one_iff.mp (by omega : rest.length = 1)
  refine ⟨frame, Issue.replies_fit hconv.sound world frame (by simp [← hrest]), ?_⟩
  have hread : state.calling.mm.view.read = _ := hlogged.read
  rw [hread, ← hrest, List.append_assoc, List.flatMap_append, List.append_cancel_left_eq,
    List.flatMap_singleton] at hgot
  exact hgot

theorem Converses.not_awaits (hconv : Converses near far table world calls state issued)
    (hstuck : Stuck (Session.step near far) state) : ¬ state.Awaits := by
  intro hawaits
  obtain ⟨hstarved, hnothing⟩ := hconv.client_starved hstuck hawaits
  obtain ⟨hserver, hnone⟩ := hconv.server_starved hstuck
  obtain ⟨hturn, hlen⟩ := hconv.client.starved hstarved
  have hshort := (starved_short hconv.client.ready hstarved).2
  rw [hlen] at hshort
  obtain ⟨call, args, since, hthread, hreply⟩ := hawaits
  obtain ⟨front, replies, hprogress, hpushed, hlogged⟩ := hconv.client.exchange hthread rfl
  have hinside : ∀ turn, turn ≠ .reads → turn ≠ .readsBody → state.calling.turn ≠ turn := by
    intro turn hreads hbody hsame
    rw [hsame] at hturn
    split at hturn
    · exact hreads hturn
    · exact hbody hturn
  cases hprogress with
  | queued _ _ _ _ hplace =>
      exact hplace.elim (hinside _ (by simp) (by simp)) (hinside _ (by simp) (by simp))
  | holds _ _ hplace => exact hinside _ (by simp) (by simp) hplace
  | replied _ _ _ hready => cases hreply.symm.trans hready
  | ended _ _ hplace => exact hinside _ (by simp) (by simp) hplace
  | reads _ _ hreads =>
      obtain ⟨frame, -, hrest⟩ := hconv.rest_arrived hserver hnone hnothing hpushed hlogged rfl
      have hheader : state.calling.client.sectionID = 0 := by
        by_contra hbody
        rw [if_neg hbody, hreads] at hturn
        cases hturn
      have hfour : state.calling.client.sectionLen = 4 := by
        rcases hconv.client.exchanges.steady.framed with ⟨-, hfour⟩ | ⟨hone, -⟩
        · exact hfour
        · cases hheader.symm.trans hone
      have hlength := congrArg List.length hrest
      rw [Frame.length_bytes] at hlength
      rw [hfour] at hshort
      change state.calling.mm.view.pending.length < 4 at hshort
      change state.calling.mm.view.pending.length = _ at hlength
      omega
  | @announced high size hhigh hsize hbody _ hsection =>
      obtain ⟨frame, hfits, hrest⟩ :=
        hconv.rest_arrived hserver hnone hnothing hpushed hlogged rfl
      have hbytes : Frame.header high size ++ state.calling.mm.view.pending =
        Frame.header frame.high frame.body.length ++ frame.body := hrest
      obtain ⟨hheader, hpending⟩ := List.append_inj hbytes (by simp)
      obtain ⟨-, rfl⟩ := header_inj hhigh hsize hfits.1 hfits.2 hheader
      rw [hsection, toNat_size hsize, hpending] at hshort
      omega

/-- Every call that has returned has returned what it is to, nothing else was sent, and the
server has run what was sent: all of it, but perhaps the last. -/
structure Faithful (table : List (Procedure ω)) (world : ω) (calls : List Invocation)
    (state : Session ω) : Prop where
  results : state.results <+: outcomes table world calls
  sent : state.calling.mm.written <+:
    (issues table (calls.take (state.results.length + 1))).map (·.request.bytes)
  ran : (issues table (calls.take state.results.length)).map Issue.run <+:
    state.server.parser.calls
  runs : state.server.parser.calls <+:
    (issues table (calls.take (state.results.length + 1))).map Issue.run

theorem length_outcomes (world : ω) (calls : List Invocation) :
    (outcomes table world calls).length = calls.length := by
  induction calls generalizing world with
  | nil => rfl
  | cons invocation calls ih => rw [outcomes, List.length_cons, List.length_cons, ih]

theorem Converses.ran (hconv : Converses near far table world calls state issued)
    {front : List (Call × Bytes)} {since : List Event} {replies : List Frame}
    (hlogged : Calling.Logged near state.calling front since replies)
    {first : List (Issue ω)} (hfirst : first <+: issued) (hcount : first.length = front.length) :
    first.map Issue.run <+: state.server.parser.calls := by
  obtain ⟨done, hfront, hreplies, hran⟩ := hconv.answered hlogged
  have hlength := hreplies.length_le
  rw [Issue.length_replies, hlogged.replied, ← hcount] at hlength
  exact (List.prefix_of_prefix_length_le hfirst hfront hlength |>.map _).trans hran

theorem Converses.faithful (hconv : Converses near far table world calls state issued) :
    Faithful table world calls state := by
  obtain ⟨-, -, -, -, hruns⟩ := hconv.answers
  have hwritten := hconv.written
  have hmain : ∀ done : List Invocation, done <+: calls →
      state.results = outcomes table world done →
      issued <+: issues table (calls.take (done.length + 1)) →
      (issues table done).map Issue.run <+: state.server.parser.calls →
      Faithful table world calls state := by
    intro done hfront houtcomes hissued hran
    have hcount : state.results.length = done.length := by rw [houtcomes, length_outcomes]
    have htaken : calls.take done.length = done := (List.prefix_iff_eq_take.mp hfront).symm
    refine ⟨houtcomes ▸ outcomes_front hfront world, ?_, ?_, ?_⟩
    · rw [hcount]
      exact hwritten.trans (hissued.map _)
    · rw [hcount, htaken]
      exact hran
    · rw [hcount]
      exact hruns.trans (hissued.map _)
  have htake : ∀ {done rest : List Invocation}, calls = done ++ rest →
      done <+: calls.take (done.length + 1) := by
    intro done rest hcalls
    refine List.prefix_of_prefix_length_le ⟨rest, hcalls.symm⟩ (List.take_prefix _ _) ?_
    rw [List.length_take, hcalls, List.length_append]
    omega
  have hquiet : ∀ {caller : Caller}, state.calling.thread? = some caller →
      caller.pushed? = none → issued.map Issue.run <+: state.server.parser.calls := by
    intro caller hthread hnone
    obtain ⟨-, replies, hlogged⟩ := hconv.client.quiet hthread hnone
    refine hconv.ran hlogged List.prefix_rfl ?_
    rw [hconv.pushed, List.length_map]
  have hledger := hconv.ledger
  cases hledger with
  | @rests done hcalls hthread houtcomes =>
      exact hmain done ⟨_, hcalls.symm⟩ houtcomes ((htake hcalls).filterMap _)
        (hquiet hthread rfl)
  | @calls done issue hcalls _ _ hplace houtcomes =>
      refine hmain done ⟨_, hcalls.symm⟩ houtcomes ((htake hcalls).filterMap _) ?_
      rcases hplace with hthread | hthread
      · exact hquiet hthread rfl
      · exact hquiet hthread rfl
  | @issued done issue since hcalls htarget hplace houtcomes =>
      have hissues : issues table (done ++ [issue.invocation]) = issues table done ++ [issue] := by
        rw [issues_append, issues_some htarget]
      refine hmain done ⟨_, hcalls.symm⟩ houtcomes ?_ ?_
      · have hnext : calls.take (done.length + 1) = done ++ [issue.invocation] := by
          rw [hcalls, List.take_append]
          simp
        rw [hnext]
      · have hexchange : ∃ front replies since, state.calling.pushed = front ++ [issue.entry] ∧
            Calling.Logged near state.calling front since replies := by
          rcases hplace with hthread | hthread
          · obtain ⟨front, replies, -, hpushed, hlogged⟩ := hconv.client.exchange hthread rfl
            exact ⟨front, replies, since, hpushed, hlogged⟩
          · obtain ⟨front, replies, -, hpushed, hlogged⟩ := hconv.client.exchange hthread rfl
            exact ⟨front, replies, since, hpushed, hlogged⟩
        obtain ⟨front, replies, since, hpushed, hlogged⟩ := hexchange
        refine hconv.ran hlogged (hissues ▸ List.prefix_append _ _) ?_
        have hcount := congrArg List.length hpushed
        rw [hconv.pushed, hissues, List.length_map, List.length_append, List.length_append,
          List.length_singleton, List.length_singleton] at hcount
        omega

theorem Converses.done (hagreed : Agreed far table calls)
    (hconv : Converses near far table world calls state issued)
    (hstuck : Stuck (Session.step near far) state) :
    state.results = outcomes table world calls ∧
      state.server.parser.calls = (issues table calls).map Issue.run ∧
      state.calling.mm.written = (issues table calls).map (·.request.bytes) := by
  have hnone : state.caller near = none := hstuck .caller
  rcases hconv.caller hagreed with ⟨-, ⟨hidle, htodo⟩ | hawaits⟩ | ⟨next, more, hsome, -⟩
  · have hledger := hconv.ledger
    cases hledger with
    | calls _ _ _ hplace => rcases hplace with hplace | hplace <;> cases hidle.symm.trans hplace
    | issued _ _ hplace => rcases hplace with hplace | hplace <;> cases hidle.symm.trans hplace
    | @rests done hcalls _ houtcomes =>
        rw [htodo, List.append_nil] at hcalls
        subst hcalls
        have hfaithful := hconv.faithful
        have hcount : state.results.length = calls.length := by rw [houtcomes, length_outcomes]
        have hran := hfaithful.ran
        have hruns := hfaithful.runs
        rw [hcount, List.take_length] at hran
        rw [hcount, List.take_of_length_le (Nat.le_succ _)] at hruns
        refine ⟨houtcomes, ?_, ?_⟩
        · exact hruns.eq_of_length_le hran.length_le
        · obtain ⟨-, replies, hlogged⟩ := hconv.client.quiet hidle rfl
          rw [hlogged.written, hconv.pushed, Issue.commands_entries]
          exact List.append_nil _
  · exact absurd hawaits (hconv.not_awaits hstuck)
  · cases hnone.symm.trans hsome

/-- Whatever the threads, the flows and the connection do first: as far as the calls of
the thread have returned they have returned what they are to, and in the end all have. -/
structure EndToEnd (near far : Platform) (table : List (Procedure ω)) (world : ω)
    (calls : List Invocation) : Prop where
  faithful : ∀ state, Reachable (step near far) (start near far table world calls) state →
    Faithful table world calls state
  completes : Completes (step near far) (start near far table world calls) fun state =>
    state.results = outcomes table world calls ∧
      state.server.parser.calls = (issues table calls).map Issue.run ∧
      state.calling.mm.written = (issues table calls).map (·.request.bytes)

theorem endToEnd_of_agreed (near far : Platform) (world : ω) (hagreed : Agreed far table calls) :
    EndToEnd near far table world calls := by
  have hstart : ∃ issued,
      Converses near far table world calls (start near far table world calls) issued :=
    ⟨[], converses_start near far table world calls⟩
  have hstep : ∀ state action next, (∃ issued, Converses near far table world calls state issued) →
      step near far state action = some next →
      (∃ issued, Converses near far table world calls next issued) ∧
        next.left table world calls < state.left table world calls := by
    rintro state action next ⟨issued, hconv⟩ hnext
    obtain ⟨more, hmore, hless⟩ := hconv.step hagreed hnext
    exact ⟨⟨more, hmore⟩, hless⟩
  refine ⟨?_, completes_of_measure hstart hstep ?_⟩
  · intro state hreaches
    have hinvariant : ∃ issued, Converses near far table world calls state issued := by
      apply hreaches.invariant
        (I := fun state => ∃ issued, Converses near far table world calls state issued) hstart
      exact fun state action next hbefore _ hnext => (hstep state action next hbefore hnext).1
    obtain ⟨issued, hconv⟩ := hinvariant
    exact hconv.faithful
  · rintro state ⟨issued, hconv⟩ hstuck
    exact hconv.done hagreed hstuck

theorem caller_server (hstep : state.caller near = some next) : next.server = state.server := by
  have hsettle : ∀ {before : Session ω} {calling? : Option Calling},
      before.server = state.server → calling?.map before.settle = some next →
      next.server = state.server := by
    intro before calling? hsame hnext
    obtain ⟨calling, -, rfl⟩ := Option.map_eq_some_iff.mp hnext
    exact hsame
  unfold Session.caller at hstep
  split at hstep
  · split at hstep
    · cases hstep
    · rename_i todo _
      exact @hsettle { state with todo } _ rfl hstep
  · exact hsettle rfl hstep
  · exact hsettle rfl hstep
  · exact hsettle rfl hstep
  · exact hsettle rfl hstep
  · cases hstep

theorem step_byName {localProcedures : List (LocalProcedureSignature ω)} {action : Action}
    (hnamed : RpcServer.CalledByName far localProcedures state.server.parser)
    (hstep : state.step near far action = some next) :
    RpcServer.CalledByName far localProcedures next.server.parser := by
  cases action with
  | caller =>
      rw [caller_server hstep]
      exact hnamed
  | flow =>
      simp only [Session.step, Session.flow] at hstep
      split at hstep
      · cases hstep
      · obtain ⟨calling, -, rfl⟩ := Option.map_eq_some_iff.mp hstep
        exact hnamed
  | server =>
      simp only [Session.step, Session.serve] at hstep
      split at hstep
      · cases hstep
      · cases hstep
        refine dataFlow_keeps (I := RpcServer.CalledByName far localProcedures)
          (fun _ _ => RpcServer.parseMessage_byName) ?_ hnamed
        intro server buffer result hserver hwrite
        simp only [RpcServer.methods, Option.some.injEq] at hwrite
        exact hwrite ▸ hserver
  | toServer size =>
      simp only [Session.step, Session.deliverToServer] at hstep
      split at hstep
      · cases hstep
        exact hnamed
      · cases hstep
  | toClient size =>
      simp only [Session.step, Session.deliverToClient] at hstep
      split at hstep
      · obtain ⟨calling, -, rfl⟩ := Option.map_eq_some_iff.mp hstep
        exact hnamed
      · cases hstep

theorem EndToEnd.named (hends : EndToEnd near far table world calls) : Named table far calls := by
  obtain ⟨final, hreaches, -, hcalls, -⟩ := hends.completes.exists_final
  obtain ⟨-, hnamed⟩ : RpcServer.CalledByName far (table.map Procedure.registered)
      final.server.parser := by
    apply hreaches.invariant (I := fun state : Session ω => RpcServer.CalledByName far
      (table.map Procedure.registered) state.server.parser) ⟨rfl, List.forall_mem_nil _⟩
    exact fun state action next hbefore _ hnext => step_byName hbefore hnext
  intro issue hissue
  have hrun : issue.run ∈ final.server.parser.calls := by
    rw [hcalls]
    exact List.mem_map_of_mem hissue
  obtain ⟨call, hmem, hcall⟩ := List.mem_map.mp hrun
  obtain ⟨pProc, hproc, hconverts⟩ := hnamed call hmem
  obtain ⟨invocation, -, htarget⟩ := List.mem_filterMap.mp hissue
  obtain ⟨proc, hproc', rfl⟩ := Option.map_eq_some_iff.mp htarget
  have hnumber : call.1 = invocation.rpId.toNat := congrArg Prod.fst hcall
  rw [hnumber, List.getElem?_map, (target_eq_some hproc').1] at hproc
  cases hproc
  exact hconverts

/-- The calls of a thread come to their ends exactly when the server can convert the names of
the procedures that are sent for. -/
theorem callSync_end_to_end_iff (near far : Platform) (world : ω) (hsize : table.length ≤ 256)
    (hhonest : ∀ proc ∈ table, proc.Honest)
    (hcalls : ∀ invocation ∈ calls, Admissible table invocation) :
    EndToEnd near far table world calls ↔ Named table far calls :=
  ⟨EndToEnd.named, fun hnamed => endToEnd_of_agreed near far world ⟨hsize, hhonest, hcalls, hnamed⟩⟩

private def echo : Procedure Nat where
  procedureName := [101, 99, 104, 111]
  args := [DataType.char .i]
  rets := [DataType.char .i]
  called count arguments := (true, arguments, count + 1)

private def echoCalls : List Invocation :=
  [⟨0, [.value (.int 5)], []⟩, ⟨0, [], []⟩, ⟨0, [.value (.uint 5)], []⟩, ⟨0, [.value (.int 7)], []⟩]

private theorem narrow_number : Narrow [DataType.char .i] := by
  intro char hmem dataType hchar
  obtain rfl := List.mem_singleton.mp hmem
  cases (DataType.ofChar?_char .i).symm.trans hchar
  rfl

private theorem echo_honest : echo.Honest where
  args := narrow_number
  rets := narrow_number
  returns _ _ htakes hsmall := ⟨rfl, htakes.1, htakes.2, hsmall⟩

private theorem small_number {content : Value} (hfits : content.Fits) (hsize : content.size < 9) :
    DataSignature.Small [DataType.char .i] [.value content] where
  narrow := by
    intro field hmem hchar
    obtain rfl := List.mem_singleton.mp hmem
    cases (DataType.ofChar?_char .i).symm.trans hchar
  fits := by
    intro other hmem
    cases List.mem_singleton.mp hmem
    exact hfits
  short := by
    simp only [DataSignature.encodedLength]
    split
    · split <;> omega
    · omega

private theorem echo_admissible :
    ∀ invocation ∈ echoCalls, Admissible [echo] invocation := by
  simp only [echoCalls, List.forall_mem_cons]
  refine ⟨⟨echo, rfl, fun _ => small_number trivial (by decide)⟩, ⟨echo, rfl, by simp [echo]⟩,
    ⟨echo, rfl, fun _ => small_number trivial (by decide)⟩,
    ⟨echo, rfl, fun _ => small_number trivial (by decide)⟩, by simp⟩

theorem callSync_end_to_end_echo :
    EndToEnd plainPlatform plainPlatform [echo] 0 echoCalls ∧
      outcomes [echo] 0 echoCalls =
        [some [.value (.int 5)], none, none, some [.value (.int 7)]] ∧
      (issues [echo] echoCalls).map Issue.run =
        [(0, [.value (.int 5)]), (0, [.value (.int 7)])] ∧
      (issues [echo] echoCalls).map (·.request.bytes) =
        [[8, 0, 0, 0, 5, 0, 0, 0, 0, 0, 0, 0], [8, 0, 0, 0, 7, 0, 0, 0, 0, 0, 0, 0]] :=
  ⟨(callSync_end_to_end_iff plainPlatform plainPlatform 0 (by decide)
      (by simpa using echo_honest) echo_admissible).mpr (by decide),
    by decide, by decide, by decide⟩

private def nameless : Procedure Nat := { echo with procedureName := [0xD800] }

private def namelessCall : Session Nat :=
  start plainPlatform plainPlatform [nameless] 0 [⟨0, [.value (.int 5)], []⟩]

private def namelessRun : List Action :=
  [.caller, .caller, .caller, .flow, .flow, .flow, .flow, .server, .toServer 12, .server, .server,
    .server, .server]

private theorem nameless_terminates :
    (run (step plainPlatform plainPlatform) namelessCall namelessRun).map
      (fun state => (state.server.loop, state.results)) = some (.terminated, []) := by
  decide

/-- The server's flow does not survive the first call. -/
theorem callSync_nameless :
    nameless.Honest ∧ Admissible [nameless] ⟨0, [.value (.int 5)], []⟩ ∧
      (∃ state, Reachable (step plainPlatform plainPlatform)
          (start plainPlatform plainPlatform [nameless] 0 [⟨0, [.value (.int 5)], []⟩]) state ∧
        state.server.loop = .terminated ∧ state.results = []) ∧
      ¬ EndToEnd plainPlatform plainPlatform [nameless] 0 [⟨0, [.value (.int 5)], []⟩] := by
  obtain ⟨state, hrun, hends⟩ := Option.map_eq_some_iff.mp nameless_terminates
  obtain ⟨hloop, hresults⟩ := Prod.mk.inj hends
  exact ⟨⟨narrow_number, narrow_number, echo_honest.returns⟩,
    ⟨nameless, rfl, fun _ => small_number trivial (by decide)⟩,
    ⟨state, reaches_of_run (fun _ _ _ => trivial) hrun, hloop, hresults⟩,
    fun hends => absurd hends.named (by decide)⟩

end Session

end Rpcmple.Cpp
