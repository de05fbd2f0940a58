import Rpcmple.Go.Turns

namespace Rpcmple.Go

open Data DataSignature System

namespace Calling

abbrev Command : Type := RemoteProcedureSignature × List Any

def Command.done (command : Command) : Goroutine := ⟨some command.1, command.2, .returned true⟩

/-- Each reply is decoded for a procedure and given to its callback; one that is not
decoded is not given. -/
inductive Delivered : List (RemoteProcedureSignature × Bool × Bytes) →
    List (RemoteProcedureSignature × Bool × List Any) → Prop where
  | none : Delivered [] []
  | next {answered : List (RemoteProcedureSignature × Bool × Bytes)}
      {replies : List (RemoteProcedureSignature × Bool × List Any)}
      (mProc : RemoteProcedureSignature) (reply : Bool × Bytes) (reused : AnySlice) :
      Delivered answered replies →
      Delivered (answered ++ [(mProc, reply)])
        (replies ++ RpcClient.calledBack mProc reply reused)

def Underway (state : Calling) : Prop :=
  match state.flow with
  | .lock _ => True
  | .write _ _ message => message ≠ []
  | .loop | .send _ | .receive _ | .measure | .returned => False

/-- Behind the calls that returned true are their frames, one each, but for the last while
it is underway; and behind the frames their replies, each for the call of its frame. -/
def Attributed (state : Calling) : Prop :=
  ∃ sent underway : List Command,
    ((sent ++ underway).map Command.done).Perm
      (state.calls.filter fun goroutine => goroutine.place = .returned true) ∧
    sent.map (fun command => RpcClient.frame command.1 command.2) =
      state.mm.written.map some ∧
    underway.length ≤ 1 ∧ (underway ≠ [] → state.Underway) ∧
    (RpcClient.received state.mm.parsed).1.length ≤ sent.length ∧
    Delivered ((sent.map Prod.fst).zip (RpcClient.received state.mm.parsed).1)
      state.rc.replies

def Unsent (state : Calling) : Prop :=
  ¬ Over state.flow state.mm.loop ∧
    ((∃ goroutine ∈ state.calls, goroutine.place = .signal) ∨
      ∃ first, state.flow = .lock first)

def Unanswered (flow : Flow) (loop : Loop) (rc : RpcClient) : Prop :=
  match flow with
  | .write _ _ _ | .measure => True
  | .loop => loop ≠ .closed
  | .send _ => rc.sectionID ≠ 0
  | .lock _ | .receive _ | .returned => False

/-- A call does not get the lock between another one and its reply, unless it makes no
difference, and finds its procedure under the name; nobody stops the flow. -/
def InTurn (state : Calling) : Action → Prop
  | .lock index =>
      ∀ rps arguments, state.calls[index]? = some ⟨some rps, arguments, .lock⟩ →
        (state.Unsent →
          (RpcClient.Call rps state.rc arguments).2.command = state.rc.command) ∧
        (state.Unsent ∨ Unanswered state.flow state.mm.loop state.rc →
          (RpcClient.Call rps state.rc arguments).2.lastRemoteProc =
            state.rc.lastRemoteProc) ∧
        ((RpcClient.Call rps state.rc arguments).1 = true →
          state.rc.remoteProcedure rps.ProcedureName = some rps)
  | .stop => False
  | .call _ _ | .callName _ _ | .signal _ | .flow | .deliver _ | .hangUp => True

def Finds (rc : RpcClient) (rps : RemoteProcedureSignature) : Prop :=
  rc.remoteProcedure rc.lastRemoteProc = some rps

inductive Phase (flow : Flow) (loop : Loop) (messageLength : Nat) (rc : RpcClient)
    (received : RpcClient.Received) (sent underway : List Command) : Prop where
  | idle {first : Bool} :
      GoesOn loop messageLength rc received → flow = .send first ∨ flow = .receive first →
      rc.sectionID = 0 → underway = [] → received.1.length = sent.length →
      Phase flow loop messageLength rc received sent underway
  | taken {first : Bool} {command : Command} :
      GoesOn loop messageLength rc received → flow = .lock first → rc.sectionID = 0 →
      underway = [command] → RpcClient.frame command.1 command.2 = some rc.command →
      Finds rc command.1 → received.1.length = sent.length →
      Phase flow loop messageLength rc received sent underway
  | captured {first : Bool} {message : Bytes} {command : Command} :
      GoesOn loop messageLength rc received → flow = .write first true message →
      rc.sectionID = 0 → underway = [command] →
      RpcClient.frame command.1 command.2 = some message → Finds rc command.1 →
      received.1.length = sent.length →
      Phase flow loop messageLength rc received sent underway
  | waits {front : List Command} {command : Command} :
      GoesOn loop messageLength rc received →
      flow = .loop ∨ flow = .measure ∨
        (flow = .send false ∨ flow = .write false true []) ∧ rc.sectionID ≠ 0 →
      underway = [] → sent = front ++ [command] → Finds rc command.1 →
      received.1.length = front.length →
      Phase flow loop messageLength rc received sent underway
  | ended :
      Over flow loop → underway = [] →
      received.1.length ≤ sent.length →
      Phase flow loop messageLength rc received sent underway

structure Attributes (state : Calling) (sent underway : List Command) : Prop where
  returned : ((sent ++ underway).map Command.done).Perm
    (state.calls.filter fun goroutine => goroutine.place = .returned true)
  written : sent.map (fun command => RpcClient.frame command.1 command.2) =
    state.mm.written.map some
  signalling : ¬ Over state.flow state.mm.loop → ∀ goroutine ∈ state.calls,
    goroutine.place = .signal → ∃ rps, goroutine.rps = some rps ∧
      RpcClient.frame rps goroutine.arguments = some state.rc.command ∧ Finds state.rc rps
  delivered : Delivered
    ((sent.map Prod.fst).zip (RpcClient.received state.mm.parsed).1) state.rc.replies
  runs : state.stopping ≠ .closed
  phase : Phase state.flow state.mm.loop state.mm.messageLength state.rc
    (RpcClient.received state.mm.parsed) sent underway

variable {state next : Calling} {sent underway : List Command}
  {writeOk : List Bytes → Bytes → Bool}

theorem Attributes.attributed (hattributes : Attributes state sent underway) :
    state.Attributed := by
  refine ⟨sent, underway, hattributes.returned, hattributes.written, ?_, ?_, ?_,
    hattributes.delivered⟩
  · cases hattributes.phase with
    | idle _ _ _ hnone | waits _ _ hnone | ended _ hnone => simp [hnone]
    | taken _ _ _ hone | captured _ _ _ hone => simp [hone]
  · intro hsome
    cases hattributes.phase with
    | idle _ _ _ hnone | waits _ _ hnone | ended _ hnone => exact absurd hnone hsome
    | taken _ hflow => simp [Underway, hflow]
    | captured _ hflow _ _ hframe =>
        simpa [Underway, hflow] using
          List.length_pos_iff.mp (RpcClient.frame_length hframe).1
  · cases hattributes.phase with
    | idle _ _ _ _ hlength | taken _ _ _ _ _ _ hlength | captured _ _ _ _ _ _ hlength =>
        exact hlength.le
    | waits _ _ _ hsent _ hlength => simp [hsent, hlength]
    | ended _ _ hlength => exact hlength

theorem Phase.called {flow : Flow} {loop : Loop} {messageLength : Nat} {rc : RpcClient}
    {received : RpcClient.Received} {command : Bytes} {name : String}
    (hphase : Phase flow loop messageLength rc received sent underway)
    (hcommand : (∃ first, flow = .lock first) → command = rc.command)
    (hname : (∃ first, flow = .lock first) ∨ Unanswered flow loop rc →
      name = rc.lastRemoteProc) :
    Phase flow loop messageLength { rc with command, lastRemoteProc := name } received
      sent underway := by
  have hgoesOn : GoesOn loop messageLength rc received →
      GoesOn loop messageLength { rc with command, lastRemoteProc := name } received :=
    fun hgoes => ⟨hgoes.loop, hgoes.length, hgoes.framed, hgoes.stands⟩
  cases hphase with
  | idle hgoes hflow hsection hnone hlength =>
      exact .idle (hgoesOn hgoes) hflow hsection hnone hlength
  | taken hgoes hflow hsection hone hframe hfinds hlength =>
      obtain rfl := hcommand ⟨_, hflow⟩
      obtain rfl := hname (.inl ⟨_, hflow⟩)
      exact .taken (hgoesOn hgoes) hflow hsection hone hframe hfinds hlength
  | captured hgoes hflow hsection hone hframe hfinds hlength =>
      obtain rfl := hname (.inr (by rw [hflow]; trivial))
      exact .captured (hgoesOn hgoes) hflow hsection hone hframe hfinds hlength
  | waits hgoes hflow hnone hsent hfinds hlength =>
      have hunanswered : Unanswered flow loop rc := by
        rcases hflow with rfl | rfl | ⟨rfl | rfl, hbody⟩
        · exact hgoes.loop
        · trivial
        · exact hbody
        · trivial
      obtain rfl := hname (.inr hunanswered)
      exact .waits (hgoesOn hgoes) hflow hnone hsent hfinds hlength
  | ended hflow hnone hlength => exact .ended hflow hnone hlength

theorem unsent_of_taken (htaken : ∃ first, state.flow = .lock first) : state.Unsent := by
  refine ⟨?_, .inr htaken⟩
  obtain ⟨first, hflow⟩ := htaken
  simp [Over, hflow]

theorem Attributes.called {index : Nat} {rps : RemoteProcedureSignature}
    {arguments : List Any} {success : Bool} {rc : RpcClient} {place : Place}
    (hattributes : Attributes state sent underway)
    (hcall : state.calls[index]? = some ⟨some rps, arguments, .lock⟩)
    (hturn : state.InTurn (.lock index))
    (hresult : RpcClient.Call rps state.rc arguments = (success, rc))
    (hplace : place = if success then .signal else .returned false) :
    Attributes ((state.meets rc).goto index place) sent underway := by
  obtain ⟨hcommand, hname, hfound⟩ := hturn rps arguments hcall
  rw [hresult] at hcommand hname
  obtain ⟨hrc, hframe⟩ := RpcClient.Call_spec hresult
  obtain ⟨front, back, hcalls, hgoto⟩ := calls_split hcall
  have hmeets : ((state.meets rc).goto index place).calls = front ++ _ :: back := hgoto place
  refine ⟨?_, hattributes.written, ?_, ?_, hattributes.runs, ?_⟩
  · rw [hmeets]
    refine hattributes.returned.trans (List.Perm.of_eq ?_)
    rw [hcalls]
    cases success <;> simp [hplace]
  · intro hruns goroutine hmem hsignal
    change ∃ rps, goroutine.rps = some rps ∧
      RpcClient.frame rps goroutine.arguments = some rc.command ∧ Finds rc rps
    rw [hmeets, List.mem_append, List.mem_cons] at hmem
    have hothers : goroutine ∈ state.calls → ∃ rps, goroutine.rps = some rps ∧
        RpcClient.frame rps goroutine.arguments = some rc.command ∧ Finds rc rps := by
      intro hold
      obtain ⟨rps, hrps, hcommands, hfinds⟩ :=
        hattributes.signalling hruns goroutine hold hsignal
      have hunsent : state.Unsent := ⟨hruns, .inl ⟨goroutine, hold, hsignal⟩⟩
      refine ⟨rps, hrps, ?_, ?_⟩
      · rw [hcommand hunsent, hcommands]
      · rw [Finds, hname (.inl hunsent), hrc]
        exact hfinds
    rcases hmem with hfront | rfl | hback
    · exact hothers (by rw [hcalls]; exact List.mem_append_left _ hfront)
    · cases success with
      | false => simp [hplace] at hsignal
      | true =>
          refine ⟨rps, rfl, (hframe rfl).1, ?_⟩
          rw [Finds, (hframe rfl).2, hrc]
          exact hfound (congrArg Prod.fst hresult)
    · exact hothers (by
        rw [hcalls]
        exact List.mem_append_right _ (List.mem_cons_of_mem _ hback))
  · have hreplies : rc.replies = state.rc.replies := by rw [hrc]
    change Delivered _ rc.replies
    rw [hreplies]
    exact hattributes.delivered
  · change Phase state.flow state.mm.loop state.mm.messageLength rc _ sent underway
    rw [hrc]
    apply hattributes.phase.called
    · intro htaken
      exact hcommand (unsent_of_taken htaken)
    · rintro (htaken | hunanswered)
      · exact hname (.inl (unsent_of_taken htaken))
      · exact hname (.inr hunanswered)

theorem Attributes.signals {index : Nat} {rps : RemoteProcedureSignature}
    {arguments : List Any} {first : Bool} (hattributes : Attributes state sent underway)
    (hcall : state.calls[index]? = some ⟨some rps, arguments, .signal⟩)
    (hflow : state.flow = .receive first) :
    Attributes { state.goto index (.returned true) with flow := .lock first } sent
      [(rps, arguments)] := by
  obtain ⟨front, back, hcalls, hgoto⟩ := calls_split hcall
  have hmem : ∀ goroutine, goroutine ∈ front ∨ goroutine ∈ back → goroutine ∈ state.calls := by
    intro goroutine hsides
    rw [hcalls, List.mem_append, List.mem_cons]
    exact hsides.imp_right .inr
  have hruns : ¬ Over state.flow state.mm.loop := by simp [Over, hflow]
  have hsignalling := hattributes.signalling hruns
  obtain ⟨found, hfound, hframe, hfinds⟩ :=
    hsignalling ⟨some rps, arguments, .signal⟩ (by rw [hcalls]; simp) rfl
  cases hfound
  cases hattributes.phase with
  | idle hgoes _ hsection hnone hlength =>
      refine ⟨?_, hattributes.written, ?_, hattributes.delivered, hattributes.runs,
        .taken hgoes rfl hsection rfl hframe hfinds hlength⟩
      · have hreturned := hattributes.returned
        rw [hnone, List.append_nil, hcalls, List.filter_append] at hreturned
        change (List.map Command.done (sent ++ [(rps, arguments)])).Perm
          (List.filter _ (state.goto index (.returned true)).calls)
        rw [hgoto, List.map_append, List.filter_append]
        have hadded : (List.map Command.done [(rps, arguments)]) =
            [⟨some rps, arguments, .returned true⟩] := rfl
        simp only [List.filter_cons, decide_true, if_true] at hreturned ⊢
        rw [hadded]
        refine (List.perm_append_singleton _ _).trans ?_
        exact (List.Perm.cons _ (by simpa using hreturned)).trans List.perm_middle.symm
      · intro _ goroutine hother hsignal
        change goroutine ∈ (state.goto index (.returned true)).calls at hother
        rw [hgoto, List.mem_append, List.mem_cons] at hother
        rcases hother with hfront | rfl | hback
        · exact hsignalling goroutine (hmem _ (.inl hfront)) hsignal
        · cases hsignal
        · exact hsignalling goroutine (hmem _ (.inr hback)) hsignal
  | taken _ hother | captured _ hother =>
      rw [hflow] at hother
      cases hother
  | waits _ hother =>
      rw [hflow] at hother
      simp at hother
  | ended hother => exact absurd hother hruns

theorem Finds.keeps {rc after : RpcClient} {rps : RemoteProcedureSignature}
    (hfinds : Finds rc rps) (hkeeps : rc.Keeps after) : Finds after rps := by
  rw [Finds, RpcClient.remoteProcedure, hkeeps.remoteProcedures, hkeeps.lastRemoteProc]
  exact hfinds

theorem Attributes.signalling_keeps (hattributes : Attributes state sent underway)
    (hruns : ¬ Over state.flow state.mm.loop) (hcalls : next.calls = state.calls)
    (hkeeps : state.rc.Keeps next.rc) :
    ∀ goroutine ∈ next.calls, goroutine.place = .signal →
      ∃ rps, goroutine.rps = some rps ∧
        RpcClient.frame rps goroutine.arguments = some next.rc.command ∧
        Finds next.rc rps := by
  intro goroutine hmem hsignal
  rw [hcalls] at hmem
  obtain ⟨rps, hrps, hframe, hfinds⟩ := hattributes.signalling hruns goroutine hmem hsignal
  exact ⟨rps, hrps, by rw [hkeeps.command, hframe], hfinds.keeps hkeeps⟩

theorem delivered_more {front : List Command} {command : Command}
    {done : List (Bool × Bytes)} {replies : List (RemoteProcedureSignature × Bool × List Any)}
    (hlength : done.length = front.length) :
    (Delivered (((front ++ [command]).map Prod.fst).zip done) replies ↔
      Delivered ((front.map Prod.fst).zip done) replies) ∧
    ∀ reply, ((front ++ [command]).map Prod.fst).zip (done ++ [reply]) =
      (front.map Prod.fst).zip done ++ [(command.1, reply)] := by
  have hzip : ∀ more, ((front ++ [command]).map Prod.fst).zip (done ++ more) =
      (front.map Prod.fst).zip done ++ [command.1].zip more := by
    intro more
    rw [List.map_append, List.zip_append (by simp [hlength])]
    rfl
  have hnone := hzip []
  rw [List.append_nil, List.zip_nil_right, List.append_nil] at hnone
  exact ⟨by rw [hnone], fun reply => hzip [reply]⟩

theorem Attributes.turns {front : List Command} {command : Command}
    (hattributes : Attributes state sent underway) (hflow : state.flow = .loop)
    (hgoes : state.Goes) (hnone : underway = []) (hsent : sent = front ++ [command])
    (hfinds : Finds state.rc command.1)
    (hlength : (RpcClient.received state.mm.parsed).1.length = front.length) :
    Attributes state.loops sent underway := by
  obtain ⟨hwritten, hkeeps, hspec⟩ := loops_spec hgoes
  have hruns : ¬ Over state.flow state.mm.loop := by simp [Over, hflow, hgoes.loop]
  have hsignalling := @Attributes.signalling_keeps _ state.loops _ _ hattributes hruns rfl
    hkeeps
  have hframes : sent.map (fun command => RpcClient.frame command.1 command.2) =
      state.loops.mm.written.map some :=
    hattributes.written.trans (congrArg (List.map some) hwritten.symm)
  have hfollowing := hfinds.keeps hkeeps
  have hmore : sent.length = front.length + 1 := by rw [hsent, List.length_append]; rfl
  suffices hrest : Delivered
      ((sent.map Prod.fst).zip (RpcClient.received state.loops.mm.parsed).1)
        state.loops.rc.replies ∧
      Phase state.loops.flow state.loops.mm.loop state.loops.mm.messageLength state.loops.rc
        (RpcClient.received state.loops.mm.parsed) sent underway from
    ⟨hattributes.returned, hframes, fun _ => hsignalling, hrest.1, hattributes.runs, hrest.2⟩
  rcases hspec with ⟨hloop, hrc, hparsed, hgoesOn⟩ | ⟨hover, hreplies, hdone⟩ |
    ⟨hsend, hbody, hgoesOn, hreplies, hdone⟩ | ⟨reply, hdone, -, hreplies, hfollows⟩
  · rw [hrc, hparsed]
    refine ⟨hattributes.delivered, ?_⟩
    by_cases hends : state.loops.mm.loop = .closed
    · exact .ended (.inl ⟨hloop, hends⟩) hnone (by omega)
    · have hgoesOn := hgoesOn hends
      rw [Goes, hrc, hparsed] at hgoesOn
      exact .waits hgoesOn (.inl hloop) hnone hsent hfinds hlength
  · rw [hdone, hreplies]
    exact ⟨hattributes.delivered, .ended hover hnone (by rw [hdone]; omega)⟩
  · rw [hdone, hreplies]
    exact ⟨hattributes.delivered, .waits hgoesOn (.inr (.inr ⟨.inl hsend, hbody⟩)) hnone hsent
      hfollowing (by rw [hdone, hlength])⟩
  · -- A whole reply, to the last frame.
    obtain ⟨hold, hzip⟩ := @delivered_more front command _ state.rc.replies hlength
    obtain ⟨reused, hcalled⟩ := hreplies command.1 hfinds
    have hdelivered := hattributes.delivered
    rw [hsent, hold] at hdelivered
    rw [hdone, hcalled, hsent, hzip, ← hsent]
    refine ⟨.next _ _ _ hdelivered, ?_⟩
    have hall : (RpcClient.received state.loops.mm.parsed).1.length = sent.length := by
      rw [hdone, List.length_append, hlength, hmore]
      rfl
    rcases hfollows with hover | ⟨hsend, hsection, hgoesOn⟩
    · exact .ended hover hnone hall.le
    · exact .idle hgoesOn (.inl hsend) hsection hnone hall

theorem Attributes.flows (hattributes : Attributes state sent underway)
    (hflow : state.flowStep (fun _ _ => true) = some next) :
    ∃ sent underway, Attributes next sent underway := by
  obtain ⟨hreturned, hwritten, hsignalling, hdelivered, hruns, hphase⟩ := hattributes
  have hsignals : state.mm.loop ≠ .closed → state.flow ≠ .returned → _ := fun hloop hplace =>
    hsignalling fun hover => hover.elim (fun hends => hloop hends.2) hplace
  cases hphase with
  | @idle first hgoes hplace hsection hnone hlength =>
      have hsignalling := hsignals hgoes.loop (by rcases hplace with h | h <;> simp [h])
      rcases hplace with hplace | hplace
      · rw [flowStep, hplace] at hflow
        simp only at hflow
        rw [if_neg (not_not.mpr hsection)] at hflow
        cases hflow
        exact ⟨sent, underway, hreturned, hwritten, fun _ => hsignalling, hdelivered, hruns,
          .idle hgoes (.inr rfl) hsection hnone hlength⟩
      · rw [flowStep, hplace] at hflow
        simp only at hflow
        rw [if_neg hruns] at hflow
        cases hflow
  | @taken first command hgoes hplace hsection hone hframe hfinds hlength =>
      have hsignalling := hsignals hgoes.loop (by simp [hplace])
      rw [flowStep, hplace] at hflow
      simp only at hflow
      split at hflow
      · cases hflow
      · cases hflow
        have hsend : state.rc.SendMessage = (true, state.rc.command) := by
          rw [RpcClient.SendMessage, if_neg (not_not.mpr hsection),
            if_neg (RpcClient.frame_length hframe).1.ne']
        have hwrites : Flow.write first state.rc.SendMessage.1 state.rc.SendMessage.2 =
            .write first true state.rc.command := by rw [hsend]
        exact ⟨sent, underway, hreturned, hwritten, fun _ => hsignalling, hdelivered, hruns,
          .captured hgoes hwrites hsection hone hframe hfinds hlength⟩
  | @captured first message command hgoes hplace hsection hone hframe hfinds hlength =>
      have hsignalling := hsignals hgoes.loop (by simp [hplace])
      rw [flowStep, hplace] at hflow
      cases hflow
      obtain ⟨hpositive, hsize⟩ := RpcClient.frame_length hframe
      rw [writes, MessageManager.transmit_frame hpositive hsize]
      have hmore := @delivered_more sent command _ state.rc.replies hlength
      refine ⟨sent ++ [command], [], ?_, ?_, fun _ => hsignalling, hmore.1.mpr hdelivered, hruns,
        .waits hgoes ?_ rfl rfl hfinds hlength⟩
      · rw [List.append_nil]
        exact hone ▸ hreturned
      · rw [List.map_append, hwritten, List.map_append]
        exact congrArg (state.mm.written.map some ++ ·) (by simpa using hframe)
      · cases first <;> simp
  | @waits front command hgoes hplace hnone hsent hfinds hlength =>
      have hsignalling := hsignals hgoes.loop (by
        rcases hplace with h | h | ⟨h | h, -⟩ <;> simp [h])
      rcases hplace with hplace | hplace | ⟨hplace | hplace, hbody⟩
      · rw [flowStep, hplace] at hflow
        simp only at hflow
        split at hflow
        · cases hflow
        · cases hflow
          exact ⟨sent, underway, Attributes.turns
            ⟨hreturned, hwritten, fun _ => hsignalling, hdelivered, hruns,
              .waits hgoes (.inl hplace) hnone hsent hfinds hlength⟩
            hplace hgoes hnone hsent hfinds hlength⟩
      · rw [flowStep, hplace] at hflow
        simp only at hflow
        split at hflow
        · cases hflow
        · cases hflow
          refine ⟨sent, underway, hreturned, hwritten, fun _ => hsignalling, hdelivered, hruns,
            .waits ⟨by simp [MessageManager.nextMessage], ?_, hgoes.framed, hgoes.stands⟩
              (.inl rfl) hnone hsent hfinds hlength⟩
          exact hgoes.framed.positive.ne'
      · rw [flowStep, hplace] at hflow
        simp only at hflow
        rw [if_pos hbody] at hflow
        cases hflow
        exact ⟨sent, underway, hreturned, hwritten, fun _ => hsignalling, hdelivered, hruns,
          .waits hgoes (.inr (.inr ⟨.inr rfl, hbody⟩)) hnone hsent hfinds hlength⟩
      · rw [flowStep, hplace] at hflow
        cases hflow
        exact ⟨sent, underway, hreturned, hwritten, fun _ => hsignalling, hdelivered, hruns,
          .waits hgoes (.inr (.inl rfl)) hnone hsent hfinds hlength⟩
  | ended hplace hnone hlength =>
      rcases hplace with ⟨hplace, hclosed⟩ | hplace
      · rw [flowStep, hplace] at hflow
        simp only at hflow
        split at hflow
        · cases hflow
        · cases hflow
          rw [Over.loops (.inl ⟨hplace, hclosed⟩) hplace]
          exact ⟨sent, underway, hreturned, hwritten, fun hstill => absurd (.inr rfl) hstill,
            hdelivered, hruns,
            .ended (.inr rfl) hnone hlength⟩
      · rw [flowStep, hplace] at hflow
        cases hflow

theorem Attributes.enters {goroutine : Goroutine}
    (hattributes : Attributes state sent underway)
    (hplace : goroutine.place = .lock ∨ goroutine.place = .returned false) :
    Attributes (state.enters goroutine) sent underway := by
  obtain ⟨hreturned, hwritten, hsignalling, hdelivered, hruns, hphase⟩ := hattributes
  refine ⟨?_, hwritten, ?_, hdelivered, hruns, hphase⟩
  · rw [Calling.enters, List.filter_append]
    rcases hplace with hplace | hplace <;> simpa [hplace] using hreturned
  · intro hruns other hmem hsignal
    rw [Calling.enters, List.mem_append, List.mem_singleton] at hmem
    rcases hmem with hold | rfl
    · exact hsignalling hruns other hold hsignal
    · rcases hplace with hplace | hplace <;> simp [hplace] at hsignal

theorem attributes_start (remoteProcedures : List RemoteProcedureSignature) :
    Attributes (start remoteProcedures) [] [] where
  returned := .nil
  written := rfl
  signalling := by simp [start]
  delivered := .none
  runs := by simp [start]
  phase := .idle ⟨by simp [start, MessageManager.NewMessageManager],
    (RpcClient.framed_new remoteProcedures).positive.ne',
    RpcClient.framed_new _, .inl ⟨rfl, rfl⟩⟩ (.inl rfl) rfl rfl rfl

theorem attributes_step {action : Action} (hattributes : Attributes state sent underway)
    (hturn : state.InTurn action) (hstep : step (fun _ _ => true) state action = some next) :
    ∃ sent underway, Attributes next sent underway := by
  cases (step_moves hstep).2 with
  | calls | names => exact ⟨_, _, hattributes.enters (.inl rfl)⟩
  | unknown => exact ⟨_, _, hattributes.enters (.inr rfl)⟩
  | panics | hangsUp | delivers =>
      obtain ⟨hreturned, hwritten, hsignalling, hdelivered, hruns, hphase⟩ := hattributes
      exact ⟨_, _, hreturned, hwritten, hsignalling, hdelivered, hruns, hphase⟩
  | locks hcall _ hresult => exact ⟨_, _, hattributes.called hcall hturn hresult rfl⟩
  | fails hcall _ hresult =>
      obtain ⟨hreturned, hwritten, hsignalling, hdelivered, hruns, hphase⟩ :=
        hattributes.called hcall hturn hresult rfl
      exact ⟨_, _, hreturned, hwritten, hsignalling, hdelivered, hruns, hphase⟩
  | signals hcall _ hflow => exact ⟨_, _, hattributes.signals hcall hflow⟩
  | flows hflow => exact hattributes.flows hflow
  | requests | closes => exact absurd hturn id

/-- As long as every call gets the lock in turn, the frames written are those of the calls
that returned true, and each reply is for the procedure of its frame. -/
theorem calls_attributed {remoteProcedures : List RemoteProcedureSignature}
    {final : Calling}
    (hreaches : Reaches (step fun _ _ => true) InTurn (start remoteProcedures) final) :
    final.Attributed := by
  have hinvariant : ∃ sent underway, Attributes final sent underway := by
    apply hreaches.invariant (I := fun state => ∃ sent underway, Attributes state sent underway)
    · exact ⟨[], [], attributes_start remoteProcedures⟩
    · intro state action next hattributes hturn hstep
      obtain ⟨sent, underway, hattributes⟩ := hattributes
      exact attributes_step hattributes hturn hstep
  obtain ⟨sent, underway, hattributes⟩ := hinvariant
  exact hattributes.attributed

private def files : List RemoteProcedureSignature :=
  [⟨0, "open", [DataType.s.char], [DataType.u.char], true⟩,
    ⟨1, "close", [DataType.u.char], [], true⟩]

private def opened : List Action :=
  [.signal 0, .flow, .flow, .deliver [8, 0, 0, 1, 9, 0, 0, 0, 0, 0, 0, 0]] ++
    List.replicate 7 .flow ++ [.call 1 [.value (.uint 9)]]

private def closed : List Action :=
  [.signal 1, .flow, .flow, .flow, .deliver [0, 0, 0, 1]] ++ List.replicate 4 .flow

private def Action.quiet : Action → Bool
  | .lock _ | .stop => false
  | .call _ _ | .callName _ _ | .signal _ | .flow | .deliver _ | .hangUp => true

private theorem inTurn_quiet {action : Action} (hquiet : action.quiet = true)
    (state : Calling) : state.InTurn action := by
  cases action with
  | lock | stop => cases hquiet
  | call | callName | signal | flow | deliver | hangUp => trivial

private theorem inTurn_lock {state : Calling} {index : Nat} {rps : RemoteProcedureSignature}
    {arguments : List Any} {first : Bool}
    (hcall : state.calls[index]? = some ⟨some rps, arguments, .lock⟩)
    (hothers : state.calls.all (fun goroutine => goroutine.place != .signal) = true)
    (hflow : state.flow = .receive first)
    (hname : state.rc.remoteProcedure rps.ProcedureName = some rps) :
    state.InTurn (.lock index) := by
  have hsent : ¬ state.Unsent := by
    rintro ⟨-, ⟨goroutine, hmem, hsignal⟩ | ⟨other, hlock⟩⟩
    · simpa [hsignal] using List.all_eq_true.mp hothers goroutine hmem
    · rw [hflow] at hlock
      cases hlock
  have hanswered : ¬ Unanswered state.flow state.mm.loop state.rc := by
    rw [hflow]
    exact id
  intro other values hother
  cases hcall.symm.trans hother
  exact ⟨fun hunsent => absurd hunsent hsent,
    fun hunsent => absurd hunsent (not_or.mpr ⟨hsent, hanswered⟩), fun _ => hname⟩

theorem calls_attributed_files :
    ∃ final, Reaches (step fun _ _ => true) InTurn (start files) final ∧
      final.mm.written = [[3, 0, 0, 0, 1, 0, 65], [8, 0, 0, 1, 9, 0, 0, 0, 0, 0, 0, 0]] ∧
      final.rc.replies.map (fun reply => (reply.1.ProcedureName, reply.2)) =
        [("open", true, [.value (.uint 9)]), ("close", true, [])] ∧
      final.Attributed := by
  have hquiet : ∀ actions : List Action, actions.all Action.quiet = true →
      ∀ action ∈ actions, ∀ state : Calling, state.InTurn action :=
    fun actions hall action hmem => inTurn_quiet (List.all_eq_true.mp hall action hmem)
  have hentered := reaches_of_run (hquiet [.call 0 [.value (.string [65])], .flow] rfl)
    (rfl : run (step fun _ _ => true) (start files) _ = some _)
  have hlocked := hentered.next (.lock 0) (inTurn_lock rfl rfl rfl rfl) rfl
  have hopened := hlocked.trans (reaches_of_run (hquiet opened rfl) rfl)
  have hagain := hopened.next (.lock 1) (inTurn_lock rfl rfl rfl rfl) rfl
  have hclosed := hagain.trans (reaches_of_run (hquiet closed rfl) rfl)
  exact ⟨_, hclosed, rfl, rfl, calls_attributed hclosed⟩

private def twoProcedures : List RemoteProcedureSignature :=
  [⟨0, "open", [], [], true⟩, ⟨1, "close", [], [], true⟩]

/-- A second call gets the lock before the first one's command is sent. -/
theorem overtaken_not_attributed :
    ¬ ∀ remoteProcedures final,
      Reaches (step fun _ _ => true) (fun _ action => action ≠ .stop)
        (start remoteProcedures) final → final.Attributed := by
  intro hattributed
  obtain ⟨final, hrun, hcalls, hflow, hwritten⟩ :
      ∃ final, run (step fun _ _ => true) (start twoProcedures)
          [.call 0 [], .call 1 [], .lock 0, .lock 1, .flow, .signal 0, .flow, .flow] =
            some final ∧
        (final.calls.filter fun goroutine => goroutine.place = .returned true) =
          [⟨some ⟨0, "open", [], [], true⟩, [], .returned true⟩] ∧
        final.flow = .loop ∧ final.mm.written = [[0, 0, 0, 1]] :=
    ⟨_, rfl, rfl, rfl, rfl⟩
  obtain ⟨sent, underway, hreturned, hframes, -, hunderway, -⟩ :=
    hattributed twoProcedures final (reaches_of_run (by simp) hrun)
  have hnone : underway = [] := by
    by_contra hsome
    simpa [Underway, hflow] using hunderway hsome
  rw [hnone, List.append_nil, hcalls] at hreturned
  obtain ⟨command, rfl, hdone⟩ := List.map_eq_singleton_iff.mp (List.perm_singleton.mp hreturned)
  simp only [Command.done, Goroutine.mk.injEq, Option.some.injEq, and_true] at hdone
  rw [hwritten, List.map_singleton, List.map_singleton, hdone.1, hdone.2] at hframes
  exact absurd hframes (by decide)

end Calling

end Rpcmple.Go
