import Rpcmple.Cpp.Calling
import Rpcmple.Cpp.FlowSteps
import Rpcmple.Cpp.Frames

namespace Rpcmple.Cpp

open Data MessageManager

/-- Where the flow is between two frames: before, inside or behind `writeMessage`, or with
the reply. -/
inductive Turn where
  | waits
  | woken
  | holds (message : Bytes)
  | reads
  | readsBody
  | ends
  deriving DecidableEq, Repr

def commandFrame (host : Platform) (rpId : UInt32) (args : Bytes) : Bytes :=
  headerBytes host rpId args.length ++ args

/-- What the flow does to the client, and what it shows. -/
inductive FlowStep (host : Platform) :
    RpcClient → Turn → List Event → RpcClient → Turn → Prop where
  | stays (client : RpcClient) (turn : Turn) : FlowStep host client turn [] client turn
  | ends (client : RpcClient) (turn : Turn) : FlowStep host client turn [] client .ends
  | wakes {client : RpcClient} :
      client.sendIsReady = true → FlowStep host client .waits [] client .woken
  | takes (client : RpcClient) :
      FlowStep host client .woken [] { client with sendIsReady := false }
        (.holds (commandFrame host client.procedureID client.args))
  | sends (client : RpcClient) (message : Bytes) :
      FlowStep host client (.holds message)
        (if message.isEmpty then [] else [.sent message]) client .reads
  | replies {client : RpcClient} {high : Nat} : high < 256 →
      FlowStep host client .reads [.parsed (Frame.header high 0)]
        ({ client with callSuccessInt := UInt32.ofNat high }.acceptReply []) .waits
  | announces {client : RpcClient} {high size : Nat} :
      high < 256 → size < 16777216 → size ≠ 0 →
      FlowStep host client .reads [.parsed (Frame.header high size)]
        (client.expectBody high size) .readsBody
  | completes {client : RpcClient} {piece : Bytes} : piece.length = client.sectionLen.toNat →
      FlowStep host client .readsBody [.parsed piece] (client.acceptReply piece) .waits

theorem parse_reads {host : Platform} {client next : RpcClient} {piece : Bytes}
    (hid : client.sectionID = 0) (hlen : client.sectionLen = 4) (hlength : piece.length = 4)
    (hparse : client.parseMessage host piece = .returns (true, next)) :
    FlowStep host client .reads [.parsed piece] next
      (if next.sectionID = 0 then .waits else .readsBody) := by
  have hclient : client = client.expectHeader := by
    rw [RpcClient.expectHeader, ← hid, ← hlen]
  have hbound : leValue piece < 256 ^ 4 := leValue_lt_of_length hlength
  rw [Frame.header_of_length hlength]
  rw [Frame.header_of_length hlength, hclient,
    RpcClient.parse_header client (by omega) (by omega)] at hparse
  split at hparse
  · rename_i hempty
    cases hparse
    rw [hempty]
    exact .replies (by omega)
  · rename_i hbody
    cases hparse
    exact .announces (by omega) (by omega) hbody

theorem parse_readsBody {host : Platform} {client next : RpcClient} {piece : Bytes}
    (hid : client.sectionID = 1) (hlength : piece.length = client.sectionLen.toNat)
    (hparse : client.parseMessage host piece = .returns (true, next)) :
    FlowStep host client .readsBody [.parsed piece] next .waits ∧ next.sectionID = 0 := by
  have hother : ¬ client.sectionID = 0 := by
    rw [hid]
    decide
  rw [RpcClient.parseMessage, if_neg hother, if_pos hid] at hparse
  cases hparse
  exact ⟨.completes hlength, rfl⟩

namespace Calling

variable {host : Platform} {writeOk : List Bytes → Bytes → Bool} {state next : Calling}

def turn (state : Calling) : Turn :=
  match state.writing with
  | .woken => .woken
  | .built message => .holds message
  | .returned true message =>
      if state.client.sectionID = 0 then .holds message else .readsBody
  | .returned false _ => .ends
  | .outside =>
      match state.mm.loop with
      | .first | .reply => if state.client.sectionID = 0 then .waits else .readsBody
      | .outer | .inner => if state.client.sectionID = 0 then .reads else .readsBody
      | .closed | .terminated => .ends

structure Steady (host : Platform) (state : Calling) : Prop where
  ready : Ready (RpcClient.methods host) RpcClient.Framed state.mm.running
  asked : state.mm.Asked (RpcClient.methods host)
  framed : state.client.Framed
  writes : state.writing ≠ .outside → state.mm.loop = .first ∨ state.mm.loop = .reply
  header : state.mm.loop = .first ∨ state.writing = .woken ∨
    (∃ message, state.writing = .built message) → state.client.sectionID = 0
  quiet : ∀ message, state.writing = .returned true message → state.client.sectionID ≠ 0 →
    message = []

def message? : Event → Option Bytes
  | .sent message => some message
  | .parsed _ => none

def received : Event → Bytes
  | .sent _ => []
  | .parsed piece => piece

def read (state : Calling) : Bytes := state.mm.parsed.flatMap Prod.snd

/-- A step of the flow, seen from the callers. -/
structure Flows (host : Platform) (state : Calling) (events : List Event) (next : Calling) :
    Prop where
  steady : next.Steady host
  moves : FlowStep host state.client state.turn events next.client next.turn
  callers : next.callers = state.callers.map (Caller.sees events)
  written : next.mm.written = state.mm.written ++ events.filterMap message?
  read : next.read = state.read ++ events.flatMap received
  pushed : next.pushed = state.pushed
  returned : next.returned = state.returned

theorem map_sees_nil (callers : List Caller) : callers.map (Caller.sees []) = callers := by
  have hsame : Caller.sees [] = id := by
    funext caller
    cases caller <;> simp [Caller.sees]
  rw [hsame, List.map_id]

theorem steady_start (host : Platform) (remoteProcedures : List RemoteProcedureSignature)
    (threads : Nat) : (start host remoteProcedures threads).Steady host := by
  have hnew : (RpcClient.new remoteProcedures).Framed := RpcServer.sectionFramed_header
  exact
    { ready := (init_ready hnew (by simp)).running
      asked := fun _ => rfl
      framed := hnew
      writes := fun hwriting => absurd rfl hwriting
      header := fun _ => rfl
      quiet := fun _ hreturned => by cases hreturned }

theorem turn_outside (hwriting : state.writing = .outside)
    (hplace : state.mm.loop = .first ∨ state.mm.loop = .reply) :
    state.turn = if state.client.sectionID = 0 then .waits else .readsBody := by
  rcases hplace with hloop | hloop <;> simp only [turn, hwriting, hloop]

theorem place_of_writes (hsteady : state.Steady host) (hwrites : Calling.writes state.mm) :
    state.mm.loop = .first ∨ state.mm.loop = .reply := by
  rcases hwrites with hfirst | hreply | ⟨hloop, -, hzero⟩
  · exact Or.inl hfirst
  · exact Or.inr hreply
  · have hasked := hsteady.asked (Or.inr (Or.inl hloop))
    have hpositive := hsteady.framed.positive
    change 0 < state.mm.parser.sectionLen.toNat at hpositive
    change state.mm.messageLength = state.mm.parser.sectionLen.toNat at hasked
    omega

theorem Flows.writing {writing : Writing} (hsteady : state.Steady host)
    (hplace : state.mm.loop = .first ∨ state.mm.loop = .reply)
    (hheader : (writing = .woken ∨ ∃ message, writing = .built message) →
      state.client.sectionID = 0)
    (hquiet : ∀ message, writing = .returned true message → state.client.sectionID ≠ 0 →
      message = [])
    (hmoves : FlowStep host state.client state.turn [] state.client
      { state with writing }.turn) : state.Flows host [] { state with writing } where
  steady := ⟨hsteady.ready, hsteady.asked, hsteady.framed, fun _ => hplace,
    fun hcase => hcase.elim (fun hfirst => hsteady.header (Or.inl hfirst)) hheader, hquiet⟩
  moves := hmoves
  callers := (map_sees_nil _).symm
  written := (List.append_nil _).symm
  read := (List.append_nil _).symm
  pushed := rfl
  returned := rfl

theorem flows_enter (hsteady : state.Steady host) (henter : state.enter = some next) :
    state.Flows host [] next := by
  unfold enter at henter
  split at henter
  · rename_i hwriting
    split at henter
    · rename_i hwrites
      have hplace := place_of_writes hsteady hwrites
      have hturn := turn_outside hwriting hplace
      split at henter
      · rename_i hsection
        cases henter
        refine .writing hsteady hplace (by simp) (by simp) ?_
        rw [if_neg hsection] at hturn
        have hnext : { state with writing := .returned true [] }.turn = .readsBody :=
          if_neg hsection
        rw [hturn, hnext]
        exact .stays _ _
      · rename_i hsection
        rw [ne_eq, not_not] at hsection
        rw [if_pos hsection] at hturn
        split at henter
        · rename_i hsend
          cases henter
          cases hstop : state.client.stopWait with
          | true =>
              refine .writing hsteady hplace (fun _ => hsection) (by simp) ?_
              exact .ends _ _
          | false =>
              refine .writing hsteady hplace (fun _ => hsection) (by simp) ?_
              rw [hturn]
              refine .wakes ?_
              simpa [RpcClient.maySend, hstop] using hsend
        · cases henter
    · cases henter
  · cases henter

theorem Steady.meets {client : RpcClient} (hsteady : state.Steady host)
    (hid : client.sectionID = state.client.sectionID)
    (hlen : client.sectionLen = state.client.sectionLen) :
    (state.meets client).Steady host := by
  have hframed : client.Framed := by
    rw [RpcClient.Framed, hid, hlen]
    exact hsteady.framed
  refine ⟨⟨hsteady.ready.counted, hsteady.ready.small, hsteady.ready.chunks, ?_⟩, ?_, hframed,
    hsteady.writes, ?_, ?_⟩
  · have hplaced := hsteady.ready.placed
    have hloop : (state.meets client).mm.running.loop = state.mm.loop := rfl
    have hbefore : state.mm.running.loop = state.mm.loop := rfl
    unfold Placed at hplaced ⊢
    rw [hloop]
    rw [hbefore] at hplaced
    cases hplace : state.mm.loop with
    | first =>
        rw [hplace] at hplaced
        refine ⟨hframed, hplaced.2.1, hplaced.2.2.1, ?_, hplaced.2.2.2.2⟩
        exact hplaced.2.2.2.1.trans (congrArg UInt32.toNat hlen.symm)
    | outer | inner | reply =>
        rw [hplace] at hplaced
        exact ⟨hframed, hplaced.2⟩
    | closed | terminated => trivial
  · intro hplace
    exact (hsteady.asked hplace).trans (congrArg UInt32.toNat hlen.symm)
  · exact fun hcase => hid.trans (hsteady.header hcase)
  · exact fun message hreturned hsection =>
      hsteady.quiet message hreturned fun hzero => hsection (hid.trans hzero)

theorem turn_meets {client : RpcClient} (hid : client.sectionID = state.client.sectionID) :
    (state.meets client).turn = state.turn := by
  have hclient : (state.meets client).client = client := rfl
  have hwriting : (state.meets client).writing = state.writing := rfl
  have hmm : (state.meets client).mm.loop = state.mm.loop := rfl
  rw [turn, turn, hclient, hwriting, hmm, hid]

theorem flows_build (hsteady : state.Steady host) (hbuild : state.build host = some next) :
    state.Flows host [] next := by
  unfold build at hbuild
  split at hbuild
  · rename_i hwriting
    have hplace := hsteady.writes (by simp [hwriting])
    have hsection := hsteady.header (.inr (.inl hwriting))
    have hturn : state.turn = .woken := by simp only [turn, hwriting]
    split at hbuild
    · cases hbuild
      exact .writing hsteady hplace (by simp) (by simp) (.ends _ _)
    · cases hbuild
      have hmeets := @Steady.meets host state { state.client with sendIsReady := false }
        hsteady rfl rfl
      exact
        { steady := ⟨hmeets.ready, hmeets.asked, hmeets.framed, fun _ => hplace,
            fun _ => hsection, by simp⟩
          moves := hturn ▸ FlowStep.takes state.client
          callers := (map_sees_nil _).symm
          written := (List.append_nil _).symm
          read := (List.append_nil _).symm
          pushed := rfl
          returned := rfl }
  · cases hbuild

theorem flows_check (hsteady : state.Steady host) (hcheck : state.check = some next) :
    state.Flows host [] next := by
  unfold check at hcheck
  split at hcheck
  · rename_i message hwriting
    cases hcheck
    have hplace := hsteady.writes (by simp [hwriting])
    have hsection := hsteady.header (.inr (.inr ⟨message, hwriting⟩))
    have hturn : state.turn = .holds message := by simp only [turn, hwriting]
    refine .writing hsteady hplace (by simp) (fun _ _ hbody => absurd hsection hbody) ?_
    cases state.client.stopWait with
    | true => exact .ends _ _
    | false =>
        have hnext : { state with writing := .returned true message }.turn =
            .holds message := if_pos hsection
        rw [Bool.not_false, hturn, hnext]
        exact .stays _ _
  · cases hcheck

theorem client_sectional (host : Platform) :
    Sectional (RpcClient.methods host) RpcClient.Framed where
  positive _ hframed := hframed.positive
  parses _ _ _ _ hparse := RpcClient.parseMessage_framed hparse
  writes := by
    intro client message reply next hframed hwrite
    obtain ⟨hid, hlen⟩ := RpcClient.writeMessage_section hwrite
    rw [RpcClient.Framed, hid, hlen]
    exact hframed

theorem holding_sectional {σ : Type} {methods : Parser σ} {I : σ → Prop}
    (hsectional : Sectional methods I) (hand : Bool × Bytes) :
    Sectional (methods.holding hand) I where
  positive := hsectional.positive
  parses := hsectional.parses
  writes := by
    intro parser message reply next hparser hwrite
    simp only [Parser.holding, Option.some.injEq, Prod.mk.injEq] at hwrite
    exact hwrite.2.2 ▸ hparser

theorem ready_holding {σ : Type} {methods : Parser σ} {I : σ → Prop} {mm : MessageManager σ}
    (hand : Bool × Bytes) : Ready (methods.holding hand) I mm ↔ Ready methods I mm :=
  ⟨fun hready => ⟨hready.counted, hready.small, hready.chunks, hready.placed⟩,
    fun hready => ⟨hready.counted, hready.small, hready.chunks, hready.placed⟩⟩

theorem parse_framed {client : RpcClient} {piece : Bytes} (hframed : client.Framed)
    (hlength : piece.length = client.sectionLen.toNat) :
    ∃ following, client.parseMessage host piece = .returns (true, following) ∧
      FlowStep host client (if client.sectionID = 0 then .reads else .readsBody)
        [.parsed piece] following (if following.sectionID = 0 then .waits else .readsBody) := by
  rcases hframed with ⟨hid, hlen⟩ | ⟨hid, -, -⟩
  · have hfour : piece.length = 4 := by
      rw [hlength, hlen]
      rfl
    have hclient : client = client.expectHeader := by
      rw [RpcClient.expectHeader, ← hid, ← hlen]
    have hbound : leValue piece < 256 ^ 4 := leValue_lt_of_length hfour
    have hparse : ∃ following, client.parseMessage host piece = .returns (true, following) := by
      rw [Frame.header_of_length hfour, hclient]
      exact ⟨_, RpcClient.parse_header client (by omega) (by omega)⟩
    obtain ⟨following, hparse⟩ := hparse
    refine ⟨following, hparse, ?_⟩
    rw [if_pos hid]
    exact parse_reads hid hlen hfour hparse
  · have hother : ¬ client.sectionID = 0 := by
      rw [hid]
      decide
    have hparse : client.parseMessage host piece = .returns (true, client.acceptReply piece) := by
      rw [RpcClient.parseMessage, if_neg hother, if_pos hid]
    refine ⟨_, hparse, ?_⟩
    obtain ⟨hmoves, hheader⟩ := parse_readsBody hid hlength hparse
    rw [if_neg hother, if_pos hheader]
    exact hmoves

theorem turn_shows (state : Calling) (mm : MessageManager RpcClient) :
    (state.shows mm).turn =
      match mm.loop with
      | .first | .reply => if mm.parser.sectionID = 0 then .waits else .readsBody
      | .outer | .inner => if mm.parser.sectionID = 0 then .reads else .readsBody
      | .closed | .terminated => .ends := rfl

theorem Flows.shows {mm : MessageManager RpcClient} {events : List Event}
    (hready : Ready (RpcClient.methods host) RpcClient.Framed mm.running)
    (hasked : mm.Asked (RpcClient.methods host)) (hframed : mm.parser.Framed)
    (hfirst : mm.loop ≠ .first)
    (hevents : Calling.events state.mm mm = events)
    (hwritten : mm.written = state.mm.written ++ events.filterMap message?)
    (hread : mm.parsed.flatMap Prod.snd = state.read ++ events.flatMap received)
    (hmoves : FlowStep host state.client state.turn events mm.parser (state.shows mm).turn) :
    state.Flows host events (state.shows mm) where
  steady :=
    { ready := hready
      asked := hasked
      framed := hframed
      writes := fun hwriting => absurd rfl hwriting
      header := by
        intro hcase
        rcases hcase with hloop | hwoken | ⟨message, hbuilt⟩
        · exact absurd hloop hfirst
        · cases hwoken
        · cases hbuilt
      quiet := fun message hreturned => by cases hreturned }
  moves := hmoves
  callers := by rw [← hevents]; rfl
  written := hwritten
  read := hread
  pushed := rfl
  returned := rfl

theorem events_same {before after : MessageManager RpcClient}
    (hwritten : after.written = before.written) (hparsed : after.parsed = before.parsed) :
    events before after = [] := by
  rw [events, hwritten, hparsed, List.drop_length, List.drop_length]
  rfl

theorem flows_read (hsteady : state.Steady host) (hwriting : state.writing = .outside)
    (hplace : state.mm.loop = .outer ∨ state.mm.loop = .inner) :
    ∃ events, state.Flows host events
      (state.shows (state.mm.dataFlow (RpcClient.methods host) writeOk)) := by
  have hready := @ready_dataFlow _ _ writeOk _ _ (client_sectional host) hsteady.ready
  have hturn : state.turn = if state.client.sectionID = 0 then .reads else .readsBody := by
    rcases hplace with hloop | hloop <;> simp only [turn, hwriting, hloop]
  obtain ⟨hwritten, hreads⟩ :=
    @dataFlow_reads _ _ writeOk _ _ hsteady.ready hsteady.asked hplace
  generalize state.mm.dataFlow (RpcClient.methods host) writeOk = mm at *
  rcases hreads with ⟨hparser, hparsed, hlength, hloop⟩ | ⟨piece, hsize, hparsed, hparse⟩
  · refine ⟨[], .shows hready ?_ ?_ ?_ (events_same hwritten hparsed)
      (by rw [hwritten, List.filterMap_nil, List.append_nil])
      (by rw [hparsed, read, List.flatMap_nil, List.append_nil]) ?_⟩
    · intro hnext
      rw [hlength, hparser]
      refine hsteady.asked ?_
      rcases hplace with hloop | hloop
      · exact .inr (.inl hloop)
      · exact .inr (.inr hloop)
    · rw [hparser]
      exact hsteady.framed
    · rcases hloop with hloop | hloop | hloop <;> simp [hloop]
    · rw [turn_shows, hparser, hturn]
      rcases hloop with hloop | hloop | hloop
      · rw [hloop]
        exact .stays _ _
      · rw [hloop]
        exact .stays _ _
      · rw [hloop]
        exact .ends _ _
  · obtain ⟨following, hreturns, hmoves⟩ := @parse_framed host _ piece hsteady.framed hsize
    rcases hparse with ⟨hparse, hloop⟩ | ⟨hrejects, -⟩
    · obtain rfl : following = mm.parser := by
        have hsame := hreturns.symm.trans hparse
        cases hsame
        rfl
      have hevents : Calling.events state.mm mm = [.parsed piece] := by
        rw [Calling.events, hwritten, hparsed, List.drop_length, List.drop_left]
        rfl
      refine ⟨[.parsed piece], .shows hready ?_ ?_ (by simp [hloop]) hevents ?_
        (by rw [hparsed, List.flatMap_append]; rfl) ?_⟩
      · intro hnext
        simp [hloop] at hnext
      · exact RpcClient.parseMessage_framed hreturns
      · rw [hwritten]
        exact (List.append_nil _).symm
      · rw [turn_shows, hloop, hturn]
        exact hmoves
    · exact absurd hreturns (hrejects following)

theorem flows_returned {success : Bool} {message : Bytes} (hsteady : state.Steady host)
    (hwriting : state.writing = .returned success message) :
    ∃ events, state.Flows host events
      (state.shows
        (state.mm.dataFlow ((RpcClient.methods host).holding (success, message)) writeOk)) := by
  have hplace := hsteady.writes (by simp [hwriting])
  have hready := (ready_holding _).mp (@ready_dataFlow _ _ writeOk _ _
    (holding_sectional (client_sectional host) (success, message))
    ((ready_holding _).mpr hsteady.ready))
  obtain ⟨hparser, hparsed, hwrites⟩ :=
    @dataFlow_writes _ (RpcClient.methods host) writeOk state.mm success message rfl hplace
  generalize state.mm.dataFlow ((RpcClient.methods host).holding (success, message)) writeOk =
    mm at *
  have hframed : mm.parser.Framed := by
    rw [hparser]
    exact hsteady.framed
  rcases hwrites with ⟨hloop, hwritten⟩ | ⟨rfl, hloop, hwritten, hlength⟩
  · refine ⟨[], .shows hready ?_ hframed (by simp [hloop]) (events_same hwritten hparsed)
      (by rw [hwritten, List.filterMap_nil, List.append_nil])
      (by rw [hparsed, read, List.flatMap_nil, List.append_nil]) ?_⟩
    · intro hnext
      simp [hloop] at hnext
    · rw [turn_shows, hloop, hparser]
      exact .ends _ _
  · have hreads : (state.shows mm).turn =
        if state.client.sectionID = 0 then .reads else .readsBody := by
      rw [turn_shows, hparser]
      rcases hloop with hloop | hloop
      · rw [hloop]
        rfl
      · rw [hloop]
        rfl
    have hevents : Calling.events state.mm mm =
        if message.isEmpty then [] else [.sent message] := by
      rw [Calling.events, hwritten, hparsed, List.drop_length, List.drop_left]
      cases message.isEmpty <;> rfl
    have hasked : mm.Asked (RpcClient.methods host) := by
      intro hnext
      rw [hparser]
      exact hlength hsteady.asked
    refine ⟨_, .shows hready hasked hframed ?_ hevents ?_ ?_ ?_⟩
    · rcases hloop with hloop | hloop <;> simp [hloop]
    · rw [hwritten]
      cases message.isEmpty <;> rfl
    · rw [hparsed]
      cases message.isEmpty <;> exact (List.append_nil _).symm
    · rw [hreads, hparser, turn]
      simp only [hwriting]
      by_cases hsection : state.client.sectionID = 0
      · rw [if_pos hsection, if_pos hsection]
        exact .sends _ _
      · obtain rfl := hsteady.quiet message hwriting hsection
        rw [if_neg hsection, if_neg hsection]
        exact .stays _ _

theorem flows_flow (hsteady : state.Steady host) (hflow : state.flow host writeOk = some next) :
    ∃ events, state.Flows host events next := by
  unfold flow at hflow
  split at hflow
  · rename_i hwriting
    split at hflow
    · cases hflow
    · rename_i hnot
      cases hflow
      cases hloop : state.mm.loop with
      | first => exact absurd (.inl hloop) hnot
      | reply => exact absurd (.inr (.inl hloop)) hnot
      | outer => exact flows_read hsteady hwriting (.inl hloop)
      | inner => exact flows_read hsteady hwriting (.inr hloop)
      | closed | terminated =>
          have hsame : state.mm.dataFlow (RpcClient.methods host) writeOk = state.mm := by
            rw [dataFlow, hloop]
          rw [hsame]
          refine ⟨[], .shows hsteady.ready hsteady.asked hsteady.framed (by simp [hloop])
            (events_same rfl rfl) (List.append_nil _).symm (List.append_nil _).symm ?_⟩
          rw [turn_shows, hloop]
          exact .ends _ _
  · rename_i success message hwriting
    cases hflow
    exact flows_returned hsteady hwriting
  · cases hflow

end Calling

end Rpcmple.Cpp
