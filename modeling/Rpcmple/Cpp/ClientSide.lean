import Rpcmple.Cpp.Matching
import Rpcmple.Cpp.Streams

namespace Rpcmple.Cpp

open Data MessageManager
open RpcServer (takesAll)

namespace MessageManager

variable {σ : Type} {methods : Parser σ} {I : σ → Prop} {mm : MessageManager σ}

theorem Ready.goes (hready : Ready methods I mm) (hopen : mm.view.stage ≠ .closed) :
    mm.stopRequested = false := by
  have hplaced := hready.placed
  unfold Placed at hplaced
  cases hloop : mm.loop with
  | first | outer | inner | reply =>
      rw [hloop] at hplaced
      exact hplaced.2.1
  | closed | terminated => simp [view, hloop] at hopen

theorem send_takesAll {message : Bytes} {parser : σ} {checked : Nat} {written : List Bytes}
    (hchecked : checked ≤ readBufferSize) :
    ∃ sent, send takesAll (true, message, parser) checked written = some sent := by
  rw [Publishing.send_true hchecked, takesAll, if_pos rfl]
  split
  · exact ⟨_, rfl⟩
  · exact ⟨_, rfl⟩

theorem writes_on {message : Bytes} (hrequester : methods.isRequester = true)
    (hplace : mm.loop = .first ∨ mm.loop = .reply) (hmessage : message.length ≤ readBufferSize)
    (hsized : mm.view.Sized) :
    (mm.dataFlow (methods.holding (true, message)) takesAll).view.stage ≠ .closed := by
  rcases hplace with hloop | hloop
  · obtain ⟨sent, hsent⟩ := @send_takesAll _ message mm.parser _ mm.written hmessage
    rw [@dataFlow_opens _ (methods.holding (true, message)) takesAll mm hloop hrequester
      (true, message, mm.parser) rfl, hsent]
    simp [view]
  · have hreceived : mm.message.length ≤ readBufferSize :=
      hsized.2 _ (by simp only [view, hloop])
    obtain ⟨sent, hsent⟩ := @send_takesAll _ message mm.parser _ mm.written hreceived
    have hnext : mm.dataFlow (methods.holding (true, message)) takesAll =
        mm.replyRound (methods.holding (true, message)) takesAll := by
      simp only [dataFlow, hloop]
    rw [hnext, replyRound]
    simp only [Parser.holding, hsent]
    simp [view]

end MessageManager

namespace Calling

variable {near : Platform} {state next : Calling}

def got (state : Calling) : Bytes := state.mm.view.read ++ state.mm.view.pending

/-- One thread, a flow that goes on, and no message above the limits. -/
structure Live (near : Platform) (state : Calling) : Prop where
  exchanges : Exchanges near state
  single : state.Single
  runs : state.Runs
  goes : state.mm.stopRequested = false
  goesOn : state.turn ≠ .ends
  sized : state.mm.view.Sized
  short : ∀ entry ∈ state.pushed, entry.2.length < 16777216

theorem Live.ready (hlive : state.Live near) :
    Ready (RpcClient.methods near) RpcClient.Framed state.mm := by
  have hsame : state.mm.running = state.mm := by rw [running, ← hlive.goes]
  exact hsame ▸ hlive.exchanges.steady.ready

theorem live_start (near : Platform) (remoteProcedures : List RemoteProcedureSignature) :
    (start near remoteProcedures 1).Live near where
  exchanges := exchanges_start near remoteProcedures 1
  single := by
    refine ⟨rfl, ?_⟩
    intro call hmem
    cases List.mem_singleton.mp hmem
  runs := ⟨rfl, by simp [start]⟩
  goes := rfl
  goesOn := by
    change Turn.waits ≠ .ends
    simp
  sized := by
    refine ⟨?_, ?_⟩
    · change 4 ≤ readBufferSize
      decide
    · intro received hstage
      cases hstage
  short := by simp [start]

def Writing.left : Writing → Nat
  | .outside => 3
  | .woken => 2
  | .built _ => 1
  | .returned _ _ => 0

def left (state : Calling) : Nat := Writing.left state.writing + 4 * state.mm.remaining

structure Goes (near : Platform) (state next : Calling) : Prop where
  live : next.Live near
  flows : ∃ events, state.Flows near events next
  got : next.got = state.got
  left : next.left < state.left

theorem Live.flows {events : List Event} (hlive : state.Live near)
    (hflows : state.Flows near events next) (hgoes : next.mm.stopRequested = false)
    (hgoesOn : next.turn ≠ .ends) (hsized : next.mm.view.Sized) : next.Live near where
  exchanges := hlive.exchanges.flows hflows
  single := hlive.single.moves (.flows rfl hflows : Moves near state .flow next)
  runs := hlive.runs.moves (.flows rfl hflows : Moves near state .flow next) (by simp)
  goes := hgoes
  goesOn := hgoesOn
  sized := hsized
  short := by
    rw [hflows.pushed]
    exact hlive.short

theorem Live.holds {message : Bytes} (hlive : state.Live near)
    (hturn : state.turn = .holds message) : message.length ≤ readBufferSize := by
  cases hlive.exchanges.phase with
  | rests _ _ _ _ hother =>
      rw [hturn] at hother
      simp at hother
  | @one call args since front replies _ _ hprogress hpushed =>
      rw [hturn] at hprogress
      have hshort : args.length < 16777216 := hlive.short (call, args) (by simp [hpushed])
      cases hprogress with
      | queued _ _ _ _ hother => simp at hother
      | holds _ _ hmessage =>
          obtain rfl := Turn.holds.inj hmessage
          rw [commandFrame, List.length_append, headerBytes_eq, Frame.length_header, readBufferSize]
          omega
      | reads _ _ hother => cases hother
      | announced _ _ _ _ _ _ _ hother => cases hother
      | replied _ _ _ _ _ hother => simp at hother
      | ended _ _ hother => cases hother
  | stopped hstop =>
      rw [hlive.runs.client] at hstop
      cases hstop

theorem Live.woken (hlive : state.Live near) (hturn : state.turn = .woken) :
    ¬ state.client.args.length > 16777216 := by
  cases hlive.exchanges.phase with
  | rests _ _ _ _ hother =>
      rw [hturn] at hother
      simp at hother
  | @one call args since front replies _ _ hprogress hpushed =>
      rw [hturn] at hprogress
      have hshort : args.length < 16777216 := hlive.short (call, args) (by simp [hpushed])
      cases hprogress with
      | queued _ _ hargs =>
          rw [hargs]
          omega
      | holds _ _ hother => cases hother
      | reads _ _ hother => cases hother
      | announced _ _ _ _ _ _ _ hother => cases hother
      | replied _ _ _ _ _ hother => simp at hother
      | ended _ _ hother => cases hother
  | stopped hstop =>
      rw [hlive.runs.client] at hstop
      cases hstop

theorem goes_enter (hlive : state.Live near) (henter : state.enter = some next) :
    Goes near state next := by
  have hflows := flows_enter hlive.exchanges.steady henter
  unfold enter at henter
  split at henter
  · rename_i hwriting
    have hleft : state.left = 3 + 4 * state.mm.remaining := by
      rw [left, hwriting]
      rfl
    split at henter
    · split at henter
      · rename_i hsection
        cases henter
        refine ⟨hlive.flows hflows hlive.goes ?_ hlive.sized, ⟨_, hflows⟩, rfl, ?_⟩
        · have hturn : { state with writing := .returned true [] }.turn = .readsBody :=
            if_neg hsection
          rw [hturn]
          simp
        · rw [hleft]
          change 0 + 4 * state.mm.remaining < 3 + 4 * state.mm.remaining
          omega
      · split at henter
        · rw [hlive.runs.client] at henter
          cases henter
          refine ⟨hlive.flows hflows hlive.goes ?_ hlive.sized, ⟨_, hflows⟩, rfl, ?_⟩
          · change Turn.woken ≠ .ends
            simp
          · rw [hleft]
            change 2 + 4 * state.mm.remaining < 3 + 4 * state.mm.remaining
            omega
        · cases henter
    · cases henter
  · cases henter

theorem goes_build (hlive : state.Live near) (hbuild : state.build near = some next) :
    Goes near state next := by
  have hflows := flows_build hlive.exchanges.steady hbuild
  unfold build at hbuild
  split at hbuild
  · rename_i hwriting
    have hturn : state.turn = .woken := by simp only [turn, hwriting]
    rw [if_neg (hlive.woken hturn)] at hbuild
    cases hbuild
    refine ⟨hlive.flows hflows hlive.goes ?_ hlive.sized, ⟨_, hflows⟩, rfl, ?_⟩
    · change Turn.holds _ ≠ .ends
      simp
    · rw [left, left, hwriting]
      change 1 + 4 * state.mm.remaining < 2 + 4 * state.mm.remaining
      omega
  · cases hbuild

theorem goes_check (hlive : state.Live near) (hcheck : state.check = some next) :
    Goes near state next := by
  have hflows := flows_check hlive.exchanges.steady hcheck
  unfold check at hcheck
  split at hcheck
  · rename_i message hwriting
    rw [hlive.runs.client] at hcheck
    cases hcheck
    have hsection := hlive.exchanges.steady.header (.inr (.inr ⟨message, hwriting⟩))
    refine ⟨hlive.flows hflows hlive.goes ?_ hlive.sized, ⟨_, hflows⟩, rfl, ?_⟩
    · have hturn : { state with writing := .returned true message }.turn = .holds message :=
        if_pos hsection
      rw [Bool.not_false, hturn]
      simp
    · rw [left, left, hwriting]
      change 0 + 4 * state.mm.remaining < 1 + 4 * state.mm.remaining
      omega
  · cases hcheck

theorem turn_shows_ne {mm : MessageManager RpcClient} (hopen : mm.view.stage ≠ .closed) :
    (state.shows mm).turn ≠ .ends := by
  rw [turn_shows]
  cases hloop : mm.loop with
  | first | reply | outer | inner =>
      simp only
      split <;> simp
  | closed | terminated => simp [view, hloop] at hopen

theorem framed_small (parser : RpcClient) (hframed : parser.Framed) :
    ((RpcClient.methods near).getMessageLen parser).toNat ≤ readBufferSize := by
  change parser.sectionLen.toNat ≤ readBufferSize
  rcases hframed with ⟨-, hlen⟩ | ⟨-, -, hshort⟩
  · rw [hlen]
    decide
  · rw [readBufferSize]
    omega

theorem goes_shows {methods : Parser RpcClient} {events : List Event}
    (hlive : state.Live near) (hsectional : Sectional methods RpcClient.Framed)
    (hready : Ready methods RpcClient.Framed state.mm)
    (hlen : methods.getMessageLen = (RpcClient.methods near).getMessageLen)
    (hflows : state.Flows near events (state.shows (state.mm.dataFlow methods takesAll)))
    (hopen : (state.mm.dataFlow methods takesAll).view.stage ≠ .closed)
    (hrests : ¬ Rests methods state.mm) :
    Goes near state (state.shows (state.mm.dataFlow methods takesAll)) := by
  obtain ⟨hnext, hadvance⟩ := @dataFlow_spec _ _ takesAll _ _ hsectional hready
  have hsmall : ∀ parser : RpcClient, parser.Framed →
      (methods.getMessageLen parser).toNat ≤ readBufferSize := by
    rw [hlen]
    exact @framed_small near
  refine
    { live := hlive.flows hflows (hnext.goes hopen) (turn_shows_ne hopen) ?_
      flows := ⟨_, hflows⟩
      got := hadvance.conserves hopen
      left := ?_ }
  · exact hadvance.sized hsectional hsmall hlive.exchanges.steady.framed hlive.sized hopen
  · have hfewer := @remaining_dataFlow _ _ takesAll _ _ hready hrests
    change 3 + 4 * (state.mm.dataFlow methods takesAll).remaining <
      Writing.left state.writing + 4 * state.mm.remaining
    omega

theorem goes_returned {success : Bool} {message : Bytes} (hlive : state.Live near)
    (hwriting : state.writing = .returned success message) :
    Goes near state (state.shows
      (state.mm.dataFlow ((RpcClient.methods near).holding (success, message)) takesAll)) := by
  have hsteady := hlive.exchanges.steady
  have hplace := hsteady.writes (by simp [hwriting])
  have hopen := hlive.goesOn
  obtain rfl : success = true := by
    cases success with
    | true => rfl
    | false => exact absurd (by simp only [turn, hwriting]) hopen
  have hmessage : message.length ≤ readBufferSize := by
    by_cases hsection : state.client.sectionID = 0
    · exact hlive.holds (by simp only [turn, hwriting, if_pos hsection])
    · rw [hsteady.quiet message hwriting hsection]
      exact Nat.zero_le _
  obtain ⟨events, hflows⟩ := @flows_returned near takesAll _ _ _ hsteady hwriting
  refine goes_shows hlive (holding_sectional (client_sectional near) _)
    ((ready_holding _).mpr hlive.ready) rfl hflows
    (writes_on rfl hplace hmessage hlive.sized) ?_
  rintro (hclosed | hclosed | ⟨-, -, hwaits⟩ | ⟨-, hwaits⟩)
  · rcases hplace with hloop | hloop <;> simp [hloop] at hclosed
  · rcases hplace with hloop | hloop <;> simp [hloop] at hclosed
  · cases hwaits
  · cases hwaits

theorem reads_open (hlive : state.Live near) (hgoes : ¬ state.mm.Starved)
    (hplace : state.mm.loop = .outer ∨ state.mm.loop = .inner) :
    (state.mm.dataFlow (RpcClient.methods near) takesAll).view.stage ≠ .closed := by
  intro hclosed
  have hstage : state.mm.view.stage = .reading := by
    rcases hplace with hloop | hloop <;> simp only [view, hloop]
  have hreads := reads_on hlive.ready hgoes hstage hclosed
  have hasked : state.mm.view.len = state.client.sectionLen.toNat :=
    hlive.exchanges.steady.asked (.inr hplace)
  have hadvance :=
    (@dataFlow_spec _ _ takesAll _ _ (client_sectional near) hlive.ready).2
  have hparsed : (state.mm.dataFlow (RpcClient.methods near) takesAll).view.parsed ≠
    state.mm.view.parsed := hreads
  generalize (state.mm.dataFlow (RpcClient.methods near) takesAll).view = next at *
  cases hadvance with
  | stays => cases hstage.symm.trans hclosed
  | opens hother => cases hstage.symm.trans hother
  | parses => cases hclosed
  | rejects _ hlength _ hrejects =>
      obtain ⟨following, hreturns, -⟩ :=
        @parse_framed near _ _ hlive.exchanges.steady.framed (hlength.trans hasked)
      exact hrejects following hreturns
  | replies hother => cases hstage.symm.trans hother
  | fails hfails =>
      rcases hfails with ⟨hother, -⟩ | ⟨received, hother, -⟩
      · cases hstage.symm.trans hother
      · cases hstage.symm.trans hother
  | starves _ _ _ hsame => exact hparsed hsame

theorem goes_flow (hlive : state.Live near) (hgoes : ¬ state.mm.Starved)
    (hflow : state.flow near takesAll = some next) : Goes near state next := by
  obtain ⟨events, hflows⟩ := flows_flow hlive.exchanges.steady hflow
  unfold flow at hflow
  split at hflow
  · rename_i hwriting
    split at hflow
    · cases hflow
    · rename_i hnot
      cases hflow
      have hplace : state.mm.loop = .outer ∨ state.mm.loop = .inner := by
        have hturn := hlive.goesOn
        simp only [turn, hwriting] at hturn
        cases hloop : state.mm.loop with
        | first => exact absurd (.inl hloop) hnot
        | reply => exact absurd (.inr (.inl hloop)) hnot
        | outer => exact .inl rfl
        | inner => exact .inr rfl
        | closed | terminated => simp [hloop] at hturn
      refine goes_shows hlive (client_sectional near) hlive.ready rfl hflows
        (reads_open hlive hgoes hplace) ?_
      rintro (hclosed | hclosed | ⟨hclosed, -⟩ | ⟨hclosed, -⟩) <;>
        rcases hplace with hloop | hloop <;> simp [hloop] at hclosed
  · rename_i success message hwriting
    cases hflow
    exact goes_returned hlive hwriting
  · cases hflow

theorem Live.callers (hlive : state.Live near) {caller : Caller}
    (hthread : state.thread? = some caller) : state.callers = [caller] := by
  obtain ⟨only, honly⟩ := List.length_eq_one_iff.mp hlive.single.one
  rw [thread?, honly] at hthread
  rw [honly, Option.some.inj hthread]

theorem Live.quiet (hlive : state.Live near) {caller : Caller}
    (hthread : state.thread? = some caller) (hnone : caller.pushed? = none) :
    state.client.canCall = true ∧ ∃ replies, Logged near state state.pushed [] replies := by
  have hcallers := hlive.callers hthread
  have houtstanding : state.outstanding = [] := by simp [outstanding, hcallers, hnone]
  cases hlive.exchanges.phase with
  | rests _ hcan _ _ _ hlogged => exact ⟨hcan, _, hlogged⟩
  | one hone => cases houtstanding.symm.trans hone
  | stopped hstop =>
      rw [hlive.runs.client] at hstop
      cases hstop

theorem Live.exchange (hlive : state.Live near) {caller : Caller} {call : Call} {args : Bytes}
    {since : List Event} (hthread : state.thread? = some caller)
    (hpushed : caller.pushed? = some (call, args, since)) :
    ∃ front replies, Progress near state.client state.turn call args since ∧
      state.pushed = front ++ [(call, args)] ∧ Logged near state front since replies := by
  have hcallers := hlive.callers hthread
  have houtstanding : state.outstanding = [(call, args, since)] := by
    simp [outstanding, hcallers, hpushed]
  cases hlive.exchanges.phase with
  | rests hnone => cases houtstanding.symm.trans hnone
  | one hone _ hprogress hfront hlogged =>
      cases houtstanding.symm.trans hone
      exact ⟨_, _, hprogress, hfront, hlogged⟩
  | stopped hstop =>
      rw [hlive.runs.client] at hstop
      cases hstop

theorem Live.passed (hlive : state.Live near) {call : Call} {args : Bytes} {since : List Event}
    (hthread : state.thread? = some (.released call args since)) :
    state.client.replIsReady = true := by
  have hmem : Caller.released call args since ∈ state.callers := List.mem_of_getElem? hthread
  rcases hlive.exchanges.passed _ _ _ hmem with hreply | hstop
  · exact hreply
  · rw [hlive.runs.client] at hstop
    cases hstop

theorem thread_goto {before : Caller} (hthread : state.thread? = some before) (caller : Caller) :
    (state.goto 0 caller).thread? = some caller := by
  obtain ⟨hindex, -⟩ := List.getElem?_eq_some_iff.mp hthread
  exact List.getElem?_set_self hindex

structure Asks (near : Platform) (state next : Calling) : Prop where
  live : next.Live near
  got : next.got = state.got
  left : next.left = state.left
  written : next.mm.written = state.mm.written
  remote : next.client.remoteProcedures = state.client.remoteProcedures

def Action.isCaller : Action → Bool
  | .call _ _ _ _ | .wake _ | .push _ _ | .release _ | .collect _ => true
  | _ => false

theorem Live.asks {action : Action} (hlive : state.Live near)
    (hcaller : action.isCaller = true)
    (hstep : state.step near takesAll action = some next)
    (hshort : ∀ entry ∈ next.pushed, entry.2.length < 16777216) : Asks near state next := by
  have hmoves := step_moves hlive.exchanges.steady hstep
  have hpush : ∀ index left, action = .push index left → state.client.canCall = true := by
    rintro index left rfl
    cases hmoves with
    | pushes hpushing | fails hpushing =>
        exact hlive.single.ready _ (List.mem_of_getElem? hpushing)
    | flows hflow => cases hflow
  have hstops : action ≠ .stopParser := by
    rintro rfl
    cases hcaller
  have hexchanges := hlive.exchanges.moves hmoves hpush fun _ => hlive.single.one.le
  have hsingle := hlive.single.moves hmoves
  have hruns := hlive.runs.moves hmoves hstops
  cases hmoves with
  | flows hflow => cases action <;> simp [Action.isFlow, Action.isCaller] at hflow hcaller
  | delivers | requests | stops => cases hcaller
  | refuses | calls | givesUp | wakes | releases =>
      exact ⟨⟨hexchanges, hsingle, hruns, hlive.goes, hlive.goesOn, hlive.sized, hshort⟩,
        rfl, rfl, rfl, rfl⟩
  | pushes | fails | collects | drops =>
      exact ⟨⟨hexchanges, hsingle, hruns, hlive.goes,
        fun hturn => hlive.goesOn ((turn_meets rfl).symm.trans hturn), hlive.sized, hshort⟩,
        rfl, rfl, rfl, rfl⟩

theorem Live.delivers {chunk : Bytes} (hlive : state.Live near)
    (hdeliver : state.deliver chunk = some next) :
    next.Live near ∧ next = { state with mm := state.mm.fed [chunk] } := by
  have hstep : state.step near takesAll (.deliver chunk) = some next := hdeliver
  have hmoves := step_moves hlive.exchanges.steady hstep
  have hexchanges := hlive.exchanges.moves hmoves (by simp) fun _ => hlive.single.one.le
  have hsingle := hlive.single.moves hmoves
  have hruns := hlive.runs.moves hmoves (by simp)
  cases hmoves with
  | flows hflow => cases hflow
  | delivers =>
      refine ⟨⟨hexchanges, hsingle, hruns, hlive.goes, hlive.goesOn, ?_, hlive.short⟩, rfl⟩
      have hview := @fed_view _ state.mm chunk
      change (state.mm.fed [chunk]).view.Sized
      rw [hview]
      exact hlive.sized

theorem Live.goes_next (hlive : state.Live near) (hgoes : ¬ state.mm.Starved)
    (hstep : state.step near takesAll (Session.flowAction state) = some next) :
    Goes near state next := by
  unfold Session.flowAction at hstep
  split at hstep
  · split at hstep
    · exact goes_enter hlive hstep
    · exact goes_flow hlive hgoes hstep
  · exact goes_build hlive hstep
  · exact goes_check hlive hstep
  · exact goes_flow hlive hgoes hstep

theorem Live.not_ended (hlive : state.Live near) : ¬ state.mm.Ended := by
  intro hended
  have hturn := hlive.goesOn
  have hnowhere : ¬ (state.mm.loop = .first ∨ state.mm.loop = .reply) := by
    rcases hended with hloop | hloop <;> simp [hloop]
  cases hwriting : state.writing with
  | outside =>
      simp only [turn, hwriting] at hturn
      rcases hended with hloop | hloop <;> simp [hloop] at hturn
  | woken | built | returned =>
      exact hnowhere (hlive.exchanges.steady.writes (by simp [hwriting]))

theorem Live.starved (hlive : state.Live near) (hstarved : state.mm.Starved) :
    state.turn = (if state.client.sectionID = 0 then .reads else .readsBody) ∧
      state.mm.view.len = state.client.sectionLen.toNat := by
  refine ⟨?_, hlive.exchanges.steady.asked (.inr (.inl hstarved.1))⟩
  cases hwriting : state.writing with
  | outside => simp only [turn, hwriting, hstarved.1]
  | woken | built | returned =>
      have hplace := hlive.exchanges.steady.writes (by simp [hwriting])
      simp [hstarved.1] at hplace

theorem Live.waits (hlive : state.Live near)
    (hstep : state.step near takesAll (Session.flowAction state) = none) :
    state.turn = .waits ∧ state.client.sendIsReady = false := by
  unfold Session.flowAction at hstep
  split at hstep
  · rename_i hwriting
    split at hstep
    · rename_i hwrites
      have hplace := place_of_writes hlive.exchanges.steady hwrites
      change state.enter = none at hstep
      rw [enter, hwriting] at hstep
      simp only [if_pos hwrites] at hstep
      split at hstep
      · cases hstep
      · rename_i hsection
        rw [ne_eq, not_not] at hsection
        split at hstep
        · cases hstep
        · rename_i hsend
          refine ⟨by rw [turn_outside hwriting hplace, if_pos hsection], ?_⟩
          simpa [RpcClient.maySend, hlive.runs.client] using hsend
    · rename_i hwrites
      change state.flow near takesAll = none at hstep
      rw [flow, hwriting] at hstep
      simp only [if_neg hwrites] at hstep
      cases hstep
  · rename_i hwriting
    change state.build near = none at hstep
    rw [build, hwriting] at hstep
    simp only at hstep
    split at hstep <;> cases hstep
  · rename_i message hwriting
    change state.check = none at hstep
    rw [check, hwriting] at hstep
    cases hstep
  · rename_i success message hwriting
    change state.flow near takesAll = none at hstep
    rw [flow, hwriting] at hstep
    cases hstep

end Calling

end Rpcmple.Cpp
