import Rpcmple.Go.Turns

namespace Rpcmple.Go.Calling

open Data System

/-! Which commands are written when the flow is stopped, for one goroutine that waits for
each of its replies. -/

def Goroutine.frame (goroutine : Goroutine) : Option Bytes :=
  goroutine.rps.bind fun rps => RpcClient.frame rps goroutine.arguments

def Goroutine.command (goroutine : Goroutine) : Option Bytes :=
  if goroutine.place = .signal ∨ goroutine.place = .returned true then goroutine.frame
  else none

def asked (state : Calling) : List Bytes := state.calls.filterMap Goroutine.command

/-- All calls have returned, and the callbacks of those that returned true were called. -/
def Replied (state : Calling) : Prop :=
  (∀ goroutine ∈ state.calls, ∃ result, goroutine.place = .returned result) ∧
    state.rc.replies.length =
      (state.calls.filter fun goroutine => goroutine.place = .returned true).length

/-- One goroutine, which calls again when it has been called back. -/
def OneCaller (state : Calling) : Action → Prop
  | .call _ _ | .callName _ _ => state.Replied
  | .lock _ | .signal _ | .flow | .deliver _ | .hangUp | .stop => True

def Flow.takes : Flow → Bool
  | .lock _ => true
  | .loop | .send _ | .receive _ | .write _ _ _ | .measure | .returned => false

/-- Whether a `Call` has put a command since `SendMessage` last took the buffer. -/
def remember (state : Calling) (action : Action) (next : Calling) (put : Bool) : Bool :=
  match action with
  | .lock index => put || decide (state.calls[index]?.map (·.place) = some .lock ∧
      next.calls[index]?.map (·.place) = some .signal)
  | .flow => put && !state.flow.takes
  | .call _ _ | .callName _ _ | .signal _ | .deliver _ | .hangUp | .stop => put

/-- `SendMessage` takes a command only when a `Call` has put one since the last. -/
def TakesNew (recalled : Recalled Calling Bool) : Action → Prop
  | .flow => recalled.state.flow.takes = true → recalled.state.rc.command ≠ [] →
      recalled.memory = true
  | .call _ _ | .callName _ _ | .lock _ | .signal _ | .deliver _ | .hangUp | .stop => True

def Current (rc : RpcClient) (asked written : List Bytes) : Prop :=
  asked = written ∨ asked = written ++ [rc.command]

/-- Where the flow is, with the commands asked for and written; `signals` when a call
waits to signal, and `closed` when the channel is. -/
inductive Sends (flow : Flow) (loop : Loop) (messageLength : Nat) (rc : RpcClient)
    (received : RpcClient.Received) (asked written : List Bytes) (signals closed : Prop) :
    Prop where
  | idle {first : Bool} :
      GoesOn loop messageLength rc received → flow = .send first ∨ flow = .receive first →
      rc.sectionID = 0 → Current rc asked written →
      Sends flow loop messageLength rc received asked written signals closed
  | taken {first : Bool} :
      GoesOn loop messageLength rc received → flow = .lock first → rc.sectionID = 0 →
      asked = written ++ [rc.command] → (signals → closed) →
      Sends flow loop messageLength rc received asked written signals closed
  | woken {first : Bool} :
      GoesOn loop messageLength rc received → flow = .lock first → rc.sectionID = 0 →
      asked = written → closed →
      Sends flow loop messageLength rc received asked written signals closed
  | captured {first : Bool} {message : Bytes} :
      GoesOn loop messageLength rc received → flow = .write first true message →
      rc.sectionID = 0 → asked = written ++ [message] → (signals → closed) →
      Sends flow loop messageLength rc received asked written signals closed
  | refused {first : Bool} {message : Bytes} :
      flow = .write first false message → closed →
      Sends flow loop messageLength rc received asked written signals closed
  | waits :
      GoesOn loop messageLength rc received →
      flow = .loop ∨ flow = .measure ∨
        (flow = .send false ∨ flow = .write false true []) ∧ rc.sectionID ≠ 0 →
      Current rc asked written → rc.replies.length < written.length →
      Sends flow loop messageLength rc received asked written signals closed
  | ended :
      Over flow loop → Sends flow loop messageLength rc received asked written signals closed

structure Orders (state : Calling) : Prop where
  alone : ∀ goroutine ∈ state.calls.dropLast, ∃ result, goroutine.place = .returned result
  refused : ∀ goroutine ∈ state.calls, goroutine.place = .returned false →
    goroutine.frame = none
  written : state.mm.written <+: state.asked
  counted : state.rc.replies.length ≤ state.mm.written.length
  locking : (∃ goroutine ∈ state.calls, goroutine.place = .lock) →
    state.asked = state.mm.written
  signalling : state.stopping ≠ .closed → (∃ goroutine ∈ state.calls,
    goroutine.place = .signal) → state.asked ≠ state.mm.written
  sends : Sends state.flow state.mm.loop state.mm.messageLength state.rc
    (RpcClient.received state.mm.parsed) state.asked state.mm.written
    (∃ goroutine ∈ state.calls, goroutine.place = .signal) (state.stopping = .closed)

variable {state next : Calling} {writeOk : List Bytes → Bytes → Bool}

theorem asked_ne_nil {command : Bytes} (hasked : command ∈ state.asked) : command ≠ [] := by
  obtain ⟨goroutine, -, hcommand⟩ := List.mem_filterMap.mp hasked
  rw [Goroutine.command] at hcommand
  split at hcommand
  · obtain ⟨rps, -, hframe⟩ := Option.bind_eq_some_iff.mp hcommand
    exact List.length_pos_iff.mp (RpcClient.frame_length hframe).1
  · cases hcommand

theorem Orders.asked_begins (horders : Orders state) :
    state.asked <+: state.calls.filterMap Goroutine.frame := by
  have hreturned : ∀ goroutine ∈ state.calls.dropLast,
      goroutine.command = goroutine.frame := by
    intro goroutine hmem
    obtain ⟨result, hplace⟩ := horders.alone goroutine hmem
    cases result with
    | true => simp [Goroutine.command, hplace]
    | false =>
        rw [horders.refused goroutine (List.mem_of_mem_dropLast hmem) hplace]
        simp [Goroutine.command, hplace]
  rw [asked]
  cases hlast : state.calls.getLast? with
  | none => simp [List.getLast?_eq_none_iff.mp hlast]
  | some last =>
      have hcalls := List.dropLast_append_getLast? last hlast
      rw [← hcalls, List.filterMap_append, List.filterMap_append,
        List.filterMap_congr hreturned]
      apply List.prefix_append_right_inj _ |>.mpr
      cases hcommand : last.command with
      | none => simp [hcommand]
      | some command =>
          have hframe : last.frame = some command := by
            rw [Goroutine.command] at hcommand
            split at hcommand
            · exact hcommand
            · cases hcommand
          simp [hcommand, hframe]

theorem Sends.mono {flow : Flow} {loop : Loop} {messageLength : Nat} {rc : RpcClient}
    {received : RpcClient.Received} {asked written : List Bytes}
    {signals closed signals' closed' : Prop}
    (hsends : Sends flow loop messageLength rc received asked written signals closed)
    (hsignals : signals' → signals) (hclosed : closed → closed') :
    Sends flow loop messageLength rc received asked written signals' closed' := by
  cases hsends with
  | idle hgoes hflow hsection hcurrent => exact .idle hgoes hflow hsection hcurrent
  | taken hgoes hflow hsection hasked hnone =>
      exact .taken hgoes hflow hsection hasked fun hsignal => hclosed (hnone (hsignals hsignal))
  | woken hgoes hflow hsection hasked hclose =>
      exact .woken hgoes hflow hsection hasked (hclosed hclose)
  | captured hgoes hflow hsection hasked hnone =>
      exact .captured hgoes hflow hsection hasked fun hsignal =>
        hclosed (hnone (hsignals hsignal))
  | refused hflow hclose => exact .refused hflow (hclosed hclose)
  | waits hgoes hflow hcurrent hcounted => exact .waits hgoes hflow hcurrent hcounted
  | ended hover => exact .ended hover

theorem asked_le (hreturned : ∀ goroutine ∈ state.calls,
    ∃ result, goroutine.place = .returned result) :
    state.asked.length ≤
      (state.calls.filter fun goroutine => goroutine.place = .returned true).length := by
  rw [asked]
  generalize state.calls = calls at hreturned ⊢
  induction calls with
  | nil => simp
  | cons goroutine calls ih =>
      rw [List.forall_mem_cons] at hreturned
      obtain ⟨⟨result, hplace⟩, hothers⟩ := hreturned
      have hrest := ih hothers
      cases hcommand : goroutine.command with
      | none =>
          rw [List.filterMap_cons_none hcommand, List.filter_cons]
          split
          · exact hrest.trans (Nat.le_succ _)
          · exact hrest
      | some command =>
          have hdone : goroutine.place = .returned true := by
            simp only [Goroutine.command, hplace, Place.returned.injEq, reduceCtorEq,
              false_or] at hcommand
            split at hcommand
            · rename_i htrue
              rw [hplace, htrue]
            · cases hcommand
          rw [List.filterMap_cons_some hcommand, List.filter_cons_of_pos (by simp [hdone])]
          exact Nat.succ_le_succ hrest

theorem Orders.replied (horders : Orders state) (hreplied : state.Replied) :
    state.asked = state.mm.written := by
  obtain ⟨hreturned, hcount⟩ := hreplied
  have hasked := asked_le hreturned
  have hcounted := horders.counted
  exact (horders.written.eq_of_length_le (by omega)).symm

theorem Orders.enters {goroutine : Goroutine} (horders : Orders state)
    (hreplied : state.Replied)
    (hplace : goroutine.place = .lock ∨
      goroutine.place = .returned false ∧ goroutine.frame = none) :
    Orders (state.enters goroutine) := by
  have hcommand : goroutine.command = none := by
    rcases hplace with hplace | ⟨hplace, -⟩ <;> simp [Goroutine.command, hplace]
  have hasked : (state.enters goroutine).asked = state.asked := by
    simp [asked, Calling.enters, hcommand]
  have hsignals : (∃ other ∈ (state.enters goroutine).calls, other.place = .signal) →
      ∃ other ∈ state.calls, other.place = .signal := by
    intro hsome
    obtain ⟨other, hmem, hsignal⟩ := hsome
    rcases List.mem_append.mp hmem with hold | hnew
    · exact ⟨other, hold, hsignal⟩
    · obtain rfl := List.mem_singleton.mp hnew
      rcases hplace with hplace | ⟨hplace, -⟩ <;> simp [hplace] at hsignal
  refine ⟨?_, ?_, ?_, horders.counted, ?_, ?_, ?_⟩
  · intro other hmem
    rw [Calling.enters, List.dropLast_concat] at hmem
    exact hreplied.1 other hmem
  · intro other hmem hother
    rcases List.mem_append.mp hmem with hold | hnew
    · exact horders.refused other hold hother
    · obtain rfl := List.mem_singleton.mp hnew
      rcases hplace with hplace | ⟨-, hframe⟩
      · simp [hplace] at hother
      · exact hframe
  · rw [hasked]
    exact horders.written
  · intro _
    rw [hasked]
    exact horders.replied hreplied
  · intro hopen hsome
    rw [hasked]
    exact horders.signalling hopen (hsignals hsome)
  · rw [hasked]
    exact horders.sends.mono hsignals id

theorem Orders.last {index : Nat} {goroutine : Goroutine} (horders : Orders state)
    (hcall : state.calls[index]? = some goroutine)
    (hplace : ∀ result, goroutine.place ≠ .returned result) :
    ∃ front, state.calls = front ++ [goroutine] ∧
      (∀ other ∈ front, ∃ result, other.place = .returned result) ∧
      ∀ place, (state.goto index place).calls = front ++ [{ goroutine with place }] := by
  obtain ⟨front, back, hcalls, hgoto⟩ := calls_split hcall
  cases back with
  | nil =>
      refine ⟨front, hcalls, ?_, hgoto⟩
      intro other hmem
      apply horders.alone
      rw [hcalls, List.dropLast_concat]
      exact hmem
  | cons other back =>
      obtain ⟨result, hreturned⟩ := horders.alone goroutine (by
        rw [hcalls, List.dropLast_append_of_ne_nil (List.cons_ne_nil _ _)]
        simp)
      exact absurd hreturned (hplace result)

theorem Sends.called {flow : Flow} {loop : Loop} {messageLength : Nat} {rc : RpcClient}
    {received : RpcClient.Received} {asked written more : List Bytes} {signals closed : Prop}
    {command : Bytes} {name : String}
    (hsends : Sends flow loop messageLength rc received asked written signals closed)
    (hasked : asked = written) (hmore : more = [] ∨ more = [command]) :
    Sends flow loop messageLength { rc with command, lastRemoteProc := name } received
      (asked ++ more) written (more ≠ []) closed := by
  have hgoesOn : GoesOn loop messageLength rc received →
      GoesOn loop messageLength { rc with command, lastRemoteProc := name } received :=
    fun hgoes => ⟨hgoes.loop, hgoes.length, hgoes.framed, hgoes.stands⟩
  have hcurrent : Current { rc with command, lastRemoteProc := name } (asked ++ more)
      written := by
    rcases hmore with rfl | rfl
    · exact .inl (by rw [List.append_nil, hasked])
    · exact .inr (by rw [hasked])
  cases hsends with
  | idle hgoes hflow hsection _ => exact .idle (hgoesOn hgoes) hflow hsection hcurrent
  | taken _ _ _ hmissing | captured _ _ _ hmissing =>
      rw [hasked] at hmissing
      simp at hmissing
  | woken hgoes hflow hsection _ hclosed =>
      rcases hcurrent with hsame | hnew
      · exact .woken (hgoesOn hgoes) hflow hsection hsame hclosed
      · exact .taken (hgoesOn hgoes) hflow hsection hnew fun _ => hclosed
  | refused hflow hclosed => exact .refused hflow hclosed
  | waits hgoes hflow _ hcounted => exact .waits (hgoesOn hgoes) hflow hcurrent hcounted
  | ended hover => exact .ended hover

theorem asked_goto {index : Nat} {goroutine : Goroutine} {place : Place}
    (hcall : state.calls[index]? = some goroutine)
    (hsame : Goroutine.command { goroutine with place } = goroutine.command) :
    (state.goto index place).asked = state.asked := by
  obtain ⟨front, back, hcalls, hgoto⟩ := calls_split hcall
  rw [asked, asked, hgoto, hcalls]
  simp only [List.filterMap_append, List.filterMap_cons, hsame]

theorem Orders.asked_called {index : Nat} {rps : RemoteProcedureSignature}
    {arguments : List Any} {success : Bool} {rc : RpcClient} {place : Place}
    (horders : Orders state)
    (hcall : state.calls[index]? = some ⟨some rps, arguments, .lock⟩)
    (hresult : RpcClient.Call rps state.rc arguments = (success, rc))
    (hplace : place = if success then .signal else .returned false) :
    ((state.meets rc).goto index place).asked =
      state.asked ++ if success then [rc.command] else [] := by
  obtain ⟨front, hcalls, -, hgoto⟩ := horders.last hcall (by simp)
  have hmeets : ((state.meets rc).goto index place).calls =
      front ++ [⟨some rps, arguments, place⟩] := hgoto place
  rw [asked, asked, hmeets, hcalls]
  cases success with
  | false => simp [hplace, Goroutine.command]
  | true =>
      have hframe := ((RpcClient.Call_spec hresult).2 rfl).1
      simp [hplace, Goroutine.command, Goroutine.frame, hframe]

theorem Orders.called {index : Nat} {rps : RemoteProcedureSignature} {arguments : List Any}
    {success : Bool} {rc : RpcClient} {place : Place} (horders : Orders state)
    (hcall : state.calls[index]? = some ⟨some rps, arguments, .lock⟩)
    (hresult : RpcClient.Call rps state.rc arguments = (success, rc))
    (hplace : place = if success then .signal else .returned false) :
    Orders ((state.meets rc).goto index place) := by
  obtain ⟨front, hcalls, hreturned, hgoto⟩ := horders.last hcall (by simp)
  have hmeets : ((state.meets rc).goto index place).calls =
      front ++ [⟨some rps, arguments, place⟩] := hgoto place
  obtain ⟨hrc, -⟩ := RpcClient.Call_spec hresult
  have hwritten : state.asked = state.mm.written :=
    horders.locking ⟨_, List.mem_of_getElem? hcall, rfl⟩
  obtain ⟨more, hasked, hmore, hkinds⟩ :
      ∃ more, ((state.meets rc).goto index place).asked = state.asked ++ more ∧
        (more = [] ∨ more = [rc.command]) ∧
        ((more = [] ∧ place = .returned false) ∨ (more ≠ [] ∧ place = .signal)) := by
    refine ⟨_, horders.asked_called hcall hresult hplace, ?_⟩
    cases success with
    | false => exact ⟨.inl rfl, .inl ⟨rfl, hplace⟩⟩
    | true => exact ⟨.inr rfl, .inr ⟨by simp, hplace⟩⟩
  have hreplies : rc.replies = state.rc.replies := by rw [hrc]
  have hsignals : (∃ other ∈ ((state.meets rc).goto index place).calls,
      other.place = .signal) → more ≠ [] := by
    intro hsome
    obtain ⟨other, hmem, hsignal⟩ := hsome
    rw [hmeets, List.mem_append, List.mem_singleton] at hmem
    rcases hmem with hold | rfl
    · obtain ⟨result, hother⟩ := hreturned other hold
      rw [hother] at hsignal
      cases hsignal
    · rcases hkinds with ⟨-, hfalse⟩ | ⟨hnew, -⟩
      · exact absurd (hfalse.symm.trans hsignal) (by simp)
      · exact hnew
  refine ⟨?_, ?_, ?_, ?_, ?_, ?_, ?_⟩
  · intro other hmem
    rw [hmeets, List.dropLast_concat] at hmem
    exact hreturned other hmem
  · intro other hmem hother
    rw [hmeets, List.mem_append, List.mem_singleton] at hmem
    rcases hmem with hold | rfl
    · exact horders.refused other (by rw [hcalls]; exact List.mem_append_left _ hold) hother
    · cases success with
      | true => exact absurd (hplace.symm.trans hother) (by simp)
      | false =>
          change RpcClient.frame rps arguments = none
          cases hframes : RpcClient.frame rps arguments with
          | none => rfl
          | some command =>
              rw [RpcClient.Call_of_frame hframes] at hresult
              cases hresult
  · rw [hasked]
    exact horders.written.trans (List.prefix_append _ _)
  · change rc.replies.length ≤ state.mm.written.length
    rw [hreplies]
    exact horders.counted
  · intro hsome
    obtain ⟨other, hmem, hlock⟩ := hsome
    rw [hmeets, List.mem_append, List.mem_singleton] at hmem
    rcases hmem with hold | rfl
    · obtain ⟨result, hother⟩ := hreturned other hold
      rw [hother] at hlock
      cases hlock
    · rcases hkinds with ⟨-, hother⟩ | ⟨-, hother⟩ <;> simp [hother] at hlock
  · intro _ hsome
    rw [hasked, hwritten]
    intro hsame
    exact hsignals hsome (List.append_right_eq_self.mp hsame)
  · rw [hasked]
    change Sends state.flow state.mm.loop state.mm.messageLength rc _ _ state.mm.written _ _
    have hcalled := @Sends.called _ _ _ _ _ _ _ more _ _ rc.command rc.lastRemoteProc
      horders.sends hwritten hmore
    rw [← hrc] at hcalled
    exact hcalled.mono hsignals id

theorem Orders.signals {index : Nat} {rps : RemoteProcedureSignature} {arguments : List Any}
    {first : Bool} (horders : Orders state)
    (hcall : state.calls[index]? = some ⟨some rps, arguments, .signal⟩)
    (hopen : state.stopping ≠ .closed) (hflow : state.flow = .receive first) :
    Orders { state.goto index (.returned true) with flow := .lock first } := by
  obtain ⟨front, hcalls, hreturned, hgoto⟩ := horders.last hcall (by simp)
  have hasked : (state.goto index (.returned true)).asked = state.asked :=
    asked_goto hcall (by simp [Goroutine.command, Goroutine.frame])
  have hall : ∀ other ∈ (state.goto index (.returned true)).calls,
      ∃ result, other.place = .returned result := by
    rw [hgoto, List.forall_mem_append]
    exact ⟨hreturned, by simp⟩
  have hnone : ∀ place, (∀ result, place ≠ .returned result) →
      ¬ ∃ other ∈ (state.goto index (.returned true)).calls, other.place = place := by
    rintro place hplace ⟨other, hmem, rfl⟩
    obtain ⟨result, hother⟩ := hall other hmem
    exact hplace result hother
  have hmissing : state.asked ≠ state.mm.written :=
    horders.signalling hopen ⟨_, List.mem_of_getElem? hcall, rfl⟩
  refine ⟨?_, ?_, ?_, horders.counted, ?_, ?_, ?_⟩
  · exact fun other hmem => hall other (List.mem_of_mem_dropLast hmem)
  · intro other hmem hother
    change other ∈ (state.goto index (.returned true)).calls at hmem
    rw [hgoto, List.mem_append, List.mem_singleton] at hmem
    rcases hmem with hold | rfl
    · exact horders.refused other (by rw [hcalls]; exact List.mem_append_left _ hold) hother
    · cases hother
  · exact hasked.symm ▸ horders.written
  · exact fun hsome => absurd hsome (hnone .lock (by simp))
  · exact fun _ hsome => absurd hsome (hnone .signal (by simp))
  · change Sends (.lock first) state.mm.loop state.mm.messageLength state.rc _
      (state.goto index (.returned true)).asked state.mm.written _ _
    rw [hasked]
    cases horders.sends with
    | idle hgoes _ hsection hcurrent =>
        exact .taken hgoes rfl hsection (hcurrent.resolve_left hmissing) fun hsome =>
          absurd hsome (hnone .signal (by simp))
    | taken _ hother | woken _ hother | captured _ hother | refused hother =>
        rw [hflow] at hother
        cases hother
    | waits _ hother =>
        rw [hflow] at hother
        simp at hother
    | ended hover =>
        rw [hflow] at hover
        simp [Over] at hover

theorem Orders.moves (horders : Orders state) (hcalls : next.calls = state.calls)
    (hstopping : next.stopping = state.stopping) (hwritten : next.mm.written = state.mm.written)
    (hcounted : next.rc.replies.length ≤ state.mm.written.length)
    (hsends : Sends next.flow next.mm.loop next.mm.messageLength next.rc
      (RpcClient.received next.mm.parsed) state.asked state.mm.written
      (∃ goroutine ∈ state.calls, goroutine.place = .signal) (state.stopping = .closed)) :
    Orders next := by
  have hasked : next.asked = state.asked := congrArg (List.filterMap _) hcalls
  constructor
  · rw [hcalls]
    exact horders.alone
  · rw [hcalls]
    exact horders.refused
  · rw [hasked, hwritten]
    exact horders.written
  · rw [hwritten]
    exact hcounted
  · rw [hcalls, hasked, hwritten]
    exact horders.locking
  · rw [hcalls, hstopping, hasked, hwritten]
    exact horders.signalling
  · rw [hcalls, hstopping, hasked, hwritten]
    exact hsends

theorem Orders.turns (horders : Orders state) (hgoes : state.Goes)
    (hcurrent : Current state.rc state.asked state.mm.written)
    (hcounted : state.rc.replies.length < state.mm.written.length) :
    Orders state.loops := by
  obtain ⟨hwritten, hkeeps, hspec⟩ := loops_spec hgoes
  have hstill : Current state.loops.rc state.asked state.mm.written := by
    rw [Current, hkeeps.command]
    exact hcurrent
  rcases hspec with ⟨hloop, hrc, hparsed, hgoesOn⟩ | ⟨hover, hreplies, -⟩ |
    ⟨hsend, hbody, hgoesOn, hreplies, -⟩ | ⟨reply, -, hcount, -, hfollows⟩
  · refine horders.moves rfl rfl hwritten (by rw [hrc]; exact hcounted.le) ?_
    by_cases hends : state.loops.mm.loop = .closed
    · exact .ended (.inl ⟨hloop, hends⟩)
    · exact .waits (hgoesOn hends) (.inl hloop) hstill (by rw [hrc]; exact hcounted)
  · exact horders.moves rfl rfl hwritten (by rw [hreplies]; exact hcounted.le) (.ended hover)
  · exact horders.moves rfl rfl hwritten (by rw [hreplies]; exact hcounted.le)
      (.waits hgoesOn (.inr (.inr ⟨.inl hsend, hbody⟩)) hstill (by rw [hreplies]; exact hcounted))
  · refine horders.moves rfl rfl hwritten (by omega) ?_
    rcases hfollows with hover | ⟨hsend, hsection, hgoesOn⟩
    · exact .ended hover
    · exact .idle hgoesOn (.inl hsend) hsection hstill

theorem transmit_message {first : Bool} {message : Bytes} {written after : List Bytes}
    (hmessage : message ≠ [])
    (htransmit : MessageManager.transmit first writeOk true message written = some after) :
    after = written ++ [message] := by
  rw [MessageManager.transmit, if_neg (by simp),
    if_neg (by simpa using hmessage)] at htransmit
  split at htransmit
  · cases htransmit
  · split at htransmit
    · cases htransmit
    · exact (Option.some.inj htransmit).symm

theorem Orders.writes {first : Bool} {message : Bytes} (horders : Orders state)
    (hgoes : state.Goes) (hasked : state.asked = state.mm.written ++ [message])
    (hsignals : (∃ goroutine ∈ state.calls, goroutine.place = .signal) →
      state.stopping = .closed) :
    Orders (state.writes writeOk first true message) := by
  have hmessage : message ≠ [] := asked_ne_nil (by rw [hasked]; simp)
  rw [Calling.writes]
  split
  · rename_i after htransmit
    obtain rfl := transmit_message hmessage htransmit
    refine ⟨horders.alone, horders.refused, ?_, ?_, fun _ => hasked, ?_, ?_⟩
    · exact hasked ▸ List.prefix_refl _
    · exact horders.counted.trans (by simp)
    · exact fun hopen hsome => absurd (hsignals hsome) hopen
    · refine .waits hgoes ?_ (.inl hasked) ?_
      · cases first <;> simp
      · exact Nat.lt_of_le_of_lt horders.counted (by simp)
  · have hkept : ∀ {stopped : Calling}, stopped.calls = state.calls →
        stopped.stopping = state.stopping → stopped.mm.written = state.mm.written →
        stopped.rc = state.rc → Over stopped.flow stopped.mm.loop → Orders stopped := by
      intro stopped hcalls hstopping hwritten hrc hover
      exact horders.moves hcalls hstopping hwritten (by rw [hrc]; exact horders.counted)
        (.ended hover)
    split
    · exact hkept rfl rfl rfl rfl (.inr rfl)
    · exact hkept rfl rfl rfl rfl (.inl ⟨rfl, rfl⟩)

theorem Orders.flows (horders : Orders state)
    (hnew : state.flow.takes = true → state.rc.command ≠ [] → state.asked ≠ state.mm.written)
    (hflow : state.flowStep writeOk = some next) : Orders next := by
  cases horders.sends with
  | @idle first hgoes hplace hsection hcurrent =>
      rcases hplace with hplace | hplace
      · rw [flowStep, hplace] at hflow
        simp only at hflow
        rw [if_neg (not_not.mpr hsection)] at hflow
        cases hflow
        exact horders.moves rfl rfl rfl horders.counted
          (.idle hgoes (.inr rfl) hsection hcurrent)
      · rw [flowStep, hplace] at hflow
        simp only at hflow
        split at hflow
        · rename_i hclosed
          cases hflow
          refine horders.moves rfl rfl rfl horders.counted ?_
          rcases hcurrent with hsame | hasked
          · exact .woken hgoes rfl hsection hsame hclosed
          · exact .taken hgoes rfl hsection hasked fun _ => hclosed
        · cases hflow
  | @taken first hgoes hplace hsection hasked hsignals =>
      rw [flowStep, hplace] at hflow
      simp only at hflow
      split at hflow
      · cases hflow
      · cases hflow
        have hcommand : state.rc.command ≠ [] := asked_ne_nil (by rw [hasked]; simp)
        have hsend : state.rc.SendMessage = (true, state.rc.command) := by
          rw [RpcClient.SendMessage, if_neg (not_not.mpr hsection),
            if_neg (by simpa using hcommand)]
        exact horders.moves rfl rfl rfl horders.counted
          (.captured hgoes (by rw [hsend]) hsection hasked hsignals)
  | @woken first hgoes hplace hsection hasked hclosed =>
      have hcommand : state.rc.command = [] := by
        by_contra hsome
        exact hnew (by rw [hplace]; rfl) hsome hasked
      rw [flowStep, hplace] at hflow
      simp only at hflow
      split at hflow
      · cases hflow
      · cases hflow
        have hsend : state.rc.SendMessage = (false, []) := by
          rw [RpcClient.SendMessage, if_neg (not_not.mpr hsection), hcommand]
          rfl
        exact horders.moves rfl rfl rfl horders.counted (.refused (by rw [hsend]) hclosed)
  | @captured first message hgoes hplace hsection hasked hsignals =>
      rw [flowStep, hplace] at hflow
      cases hflow
      exact horders.writes hgoes hasked hsignals
  | @refused first message hplace hclosed =>
      rw [flowStep, hplace] at hflow
      cases hflow
      rw [Calling.writes]
      simp only [MessageManager.transmit, Bool.not_false, if_true]
      split
      · exact horders.moves rfl rfl rfl horders.counted (.ended (.inr rfl))
      · exact horders.moves rfl rfl rfl horders.counted (.ended (.inl ⟨rfl, rfl⟩))
  | waits hgoes hplace hcurrent hcounted =>
      rcases hplace with hplace | hplace | ⟨hplace | hplace, hbody⟩
      · rw [flowStep, hplace] at hflow
        simp only at hflow
        split at hflow
        · cases hflow
        · cases hflow
          exact horders.turns hgoes hcurrent hcounted
      · rw [flowStep, hplace] at hflow
        simp only at hflow
        split at hflow
        · cases hflow
        · cases hflow
          have hlength : state.rc.sectionLen.toNat ≠ 0 := hgoes.framed.positive.ne'
          exact horders.moves rfl rfl rfl horders.counted
            (.waits ⟨by simp [MessageManager.nextMessage], hlength, hgoes.framed,
              hgoes.stands⟩ (.inl rfl) hcurrent hcounted)
      · rw [flowStep, hplace] at hflow
        simp only at hflow
        rw [if_pos hbody] at hflow
        cases hflow
        exact horders.moves rfl rfl rfl horders.counted
          (.waits hgoes (.inr (.inr ⟨.inr rfl, hbody⟩)) hcurrent hcounted)
      · rw [flowStep, hplace] at hflow
        cases hflow
        exact horders.moves rfl rfl rfl horders.counted
          (.waits hgoes (.inr (.inl rfl)) hcurrent hcounted)
  | ended hover =>
      rcases hover with ⟨hplace, hclosed⟩ | hplace
      · rw [flowStep, hplace] at hflow
        simp only at hflow
        split at hflow
        · cases hflow
        · cases hflow
          rw [Over.loops (.inl ⟨hplace, hclosed⟩) hplace]
          exact horders.moves rfl rfl rfl horders.counted (.ended (.inr rfl))
      · rw [flowStep, hplace] at hflow
        cases hflow

theorem orders_start (remoteProcedures : List RemoteProcedureSignature) :
    Orders (start remoteProcedures) where
  alone := by simp [start]
  refused := by simp [start]
  written := List.nil_prefix
  counted := Nat.zero_le _
  locking := fun _ => rfl
  signalling := by simp [start]
  sends := .idle ⟨by simp [start, MessageManager.NewMessageManager],
    (RpcClient.framed_new remoteProcedures).positive.ne', RpcClient.framed_new _,
    .inl ⟨rfl, rfl⟩⟩ (.inl rfl) rfl (.inl rfl)

theorem orders_step {action : Action} (horders : Orders state)
    (hcaller : state.OneCaller action)
    (hnew : action = .flow → state.flow.takes = true → state.rc.command ≠ [] →
      state.asked ≠ state.mm.written)
    (hstep : step writeOk state action = some next) : Orders next := by
  cases (step_moves hstep).2 with
  | calls | names => exact horders.enters hcaller (.inl rfl)
  | unknown => exact horders.enters hcaller (.inr ⟨rfl, rfl⟩)
  | panics | hangsUp | delivers => exact horders.moves rfl rfl rfl horders.counted horders.sends
  | locks hcall _ hresult => exact horders.called hcall hresult rfl
  | fails hcall _ hresult =>
      have hcalled := horders.called hcall hresult rfl
      exact hcalled.moves rfl rfl rfl hcalled.counted hcalled.sends
  | signals hcall hopen hflow => exact horders.signals hcall hopen hflow
  | flows hflow => exact horders.flows (hnew rfl) hflow
  | requests hstopping =>
      obtain ⟨halone, hrefused, hwritten, hcounted, hlocking, hsignalling, hsends⟩ := horders
      refine ⟨halone, hrefused, hwritten, hcounted, hlocking, fun _ => hsignalling ?_,
        hsends.mono id fun hclosed => ?_⟩
      · simp [hstopping]
      · simp [hstopping] at hclosed
  | closes hstopping =>
      obtain ⟨halone, hrefused, hwritten, hcounted, hlocking, -, hsends⟩ := horders
      exact ⟨halone, hrefused, hwritten, hcounted, hlocking, fun hopen => absurd rfl hopen,
        hsends.mono id fun _ => rfl⟩

/-- What was put and not taken is not written, and not about to be. -/
structure Remembers (state : Calling) (put : Bool) : Prop where
  missing : put = true → state.asked ≠ state.mm.written
  untaken : put = true → ∀ first message, state.flow = .write first true message → message = []

theorem upToSend_written {σ : Type} {methods : MessageParser σ} {mm : MessageManager σ} :
    (mm.upToSend methods).1.written = mm.written := by
  unfold MessageManager.upToSend
  cases hloop : mm.loop with
  | closed => rfl
  | outer =>
      simp only
      split
      · rfl
      · split
        · split
          · rfl
          · split
            all_goals rfl
        · rfl
  | inner =>
      simp only
      split
      · split
        · split
          all_goals rfl
        · rfl
      · rfl

theorem flowStep_written (hflow : state.flowStep writeOk = some next)
    (hempty : ∀ first message, state.flow = .write first true message → message = []) :
    next.mm.written = state.mm.written := by
  unfold flowStep at hflow
  cases hplace : state.flow with
  | loop =>
      simp only [hplace] at hflow
      split at hflow
      · cases hflow
      · cases hflow
        exact upToSend_written
  | send first =>
      simp only [hplace] at hflow
      split at hflow
      all_goals cases hflow
      all_goals rfl
  | receive first | lock first | measure =>
      simp only [hplace] at hflow
      split at hflow
      all_goals cases hflow
      all_goals rfl
  | write first replyOk message =>
      simp only [hplace] at hflow
      cases hflow
      have hsame : ∀ after, MessageManager.transmit first writeOk replyOk message
          state.mm.written = some after → after = state.mm.written := by
        intro after htransmit
        cases replyOk with
        | false => cases htransmit
        | true =>
            rw [hempty first message hplace] at htransmit
            cases first with
            | true => cases htransmit
            | false => exact (Option.some.inj htransmit).symm
      unfold writes
      split
      · rename_i after htransmit
        exact hsame after htransmit
      · split
        all_goals rfl
  | returned =>
      simp only [hplace] at hflow
      cases hflow

theorem flowStep_taken {first : Bool} {message : Bytes}
    (hflow : state.flowStep writeOk = some next) (hnext : next.flow = .write first true message) :
    message = [] ∨ state.flow.takes = true := by
  unfold flowStep at hflow
  cases hplace : state.flow with
  | lock => exact Or.inr rfl
  | loop =>
      simp only [hplace] at hflow
      split at hflow
      · cases hflow
      · cases hflow
        simp only [loops] at hnext
        split at hnext
        · cases hnext
        · split at hnext
          all_goals cases hnext
  | send =>
      simp only [hplace] at hflow
      split at hflow
      · cases hflow
        cases hnext
        exact Or.inl rfl
      · cases hflow
        cases hnext
  | receive | measure =>
      simp only [hplace] at hflow
      split at hflow
      all_goals cases hflow
      all_goals cases hnext
  | write first replyOk other =>
      simp only [hplace] at hflow
      cases hflow
      unfold writes at hnext
      split at hnext
      · simp only at hnext
        split at hnext
        all_goals cases hnext
      · split at hnext
        all_goals cases hnext
  | returned =>
      simp only [hplace] at hflow
      cases hflow

theorem Remembers.flows {put : Bool} (hremembers : Remembers state put)
    (hflow : state.flowStep writeOk = some next) :
    Remembers next (put && !state.flow.takes) := by
  have hasked : next.asked = state.asked :=
    congrArg (List.filterMap _) (flowStep_frame hflow).1
  constructor
  · intro hput
    have hbefore := (Bool.and_eq_true_iff.mp hput).1
    rw [hasked, flowStep_written hflow (hremembers.untaken hbefore)]
    exact hremembers.missing hbefore
  · intro hput first message hnext
    obtain ⟨-, huntaken⟩ := Bool.and_eq_true_iff.mp hput
    refine (flowStep_taken hflow hnext).resolve_right fun htakes => ?_
    rw [htakes] at huntaken
    cases huntaken

theorem remember_panic {action : Action} {put : Bool}
    (hput : state.remember action state.panic put = true) : put = true := by
  cases action with
  | lock index =>
      rcases Bool.or_eq_true_iff.mp hput with hput | hboth
      · exact hput
      · obtain ⟨hlock, hsignal⟩ := of_decide_eq_true hboth
        cases hlock.symm.trans hsignal
  | flow => exact (Bool.and_eq_true_iff.mp hput).1
  | call | callName | signal | deliver | hangUp | stop => exact hput

theorem Orders.remembers_put {index : Nat} {rps : RemoteProcedureSignature}
    {arguments : List Any} {rc : RpcClient} (horders : Orders state)
    (hcall : state.calls[index]? = some ⟨some rps, arguments, .lock⟩)
    (hresult : RpcClient.Call rps state.rc arguments = (true, rc)) (put : Bool) :
    Remembers ((state.meets rc).goto index .signal) put := by
  have hwritten : state.asked = state.mm.written :=
    horders.locking ⟨_, List.mem_of_getElem? hcall, rfl⟩
  constructor
  · intro _
    have hasked : ((state.meets rc).goto index .signal).asked = state.asked ++ [rc.command] :=
      horders.asked_called hcall hresult rfl
    rw [hasked, hwritten]
    exact fun hsame => absurd (List.append_right_eq_self.mp hsame) (by simp)
  · intro _ first message hflow
    change state.flow = .write first true message at hflow
    cases horders.sends with
    | captured _ _ _ hasked => simp [hwritten] at hasked
    | idle _ hplace | taken _ hplace | woken _ hplace | refused hplace => simp [hflow] at hplace
    | waits _ hplace =>
        have hempty : (first = false ∧ message = []) ∧ ¬ state.rc.sectionID = 0 := by
          simpa [hflow] using hplace
        exact hempty.1.2
    | ended hover => simp [Over, hflow] at hover

theorem Orders.remembers {action : Action} {put : Bool} (horders : Orders state)
    (hremembers : Remembers state put) (hstep : step writeOk state action = some next) :
    Remembers next (state.remember action next put) := by
  cases (step_moves hstep).2 with
  | calls | names | unknown =>
      refine ⟨fun hput => ?_, hremembers.untaken⟩
      rw [asked, Calling.enters, List.filterMap_append]
      simpa [Goroutine.command, asked] using hremembers.missing hput
  | panics =>
      exact ⟨fun hput => hremembers.missing (remember_panic hput),
        fun hput => hremembers.untaken (remember_panic hput)⟩
  | @locks index rps arguments rc hcall _ hresult =>
      exact horders.remembers_put hcall hresult _
  | @fails index rps arguments rc hcall _ hresult =>
      have hasked : ((state.meets rc).goto index (.returned false)).asked = state.asked ++ [] :=
        horders.asked_called hcall hresult rfl
      have hplace : (state.fails index rc).calls[index]?.map (·.place) =
          some (.returned false) := by
        change ((state.meets rc).goto index (.returned false)).calls[index]?.map _ = _
        simp [goto, meets, hcall]
      have hput : state.remember (.lock index) (state.fails index rc) put = put := by
        simp [remember, hplace]
      rw [hput]
      refine ⟨fun hput => ?_, hremembers.untaken⟩
      change ((state.meets rc).goto index (.returned false)).asked ≠ state.mm.written
      rw [hasked, List.append_nil]
      exact hremembers.missing hput
  | signals hcall =>
      refine ⟨fun hput => ?_, fun _ _ _ hwrite => by cases hwrite⟩
      change (state.goto _ (.returned true)).asked ≠ _
      rw [asked_goto hcall (by simp [Goroutine.command, Goroutine.frame])]
      exact hremembers.missing hput
  | flows hflow => exact hremembers.flows hflow
  | delivers | hangsUp | requests | closes =>
      exact ⟨hremembers.missing, hremembers.untaken⟩

/-- As long as `SendMessage` takes no command a second time, the frames written are the
first ones of those calls, one each, whenever the flow is stopped. -/
theorem written_once {remoteProcedures : List RemoteProcedureSignature}
    {final : Recalled Calling Bool}
    (hreaches : Reaches (recalling (step writeOk) remember)
      (fun recalled action => recalled.state.OneCaller action ∧ TakesNew recalled action)
      ⟨start remoteProcedures, false⟩ final) :
    final.state.mm.written <+: final.state.calls.filterMap Goroutine.frame := by
  have horders : Orders final.state ∧ Remembers final.state final.memory := by
    apply hreaches.invariant
      (I := fun recalled => Orders recalled.state ∧ Remembers recalled.state recalled.memory)
    · refine ⟨orders_start remoteProcedures, ?_, ?_⟩
      all_goals
        intro hput
        cases hput
    · intro recalled action after hrecalled hallowed hstep
      obtain ⟨next, hnext, rfl⟩ := Option.map_eq_some_iff.mp hstep
      obtain ⟨horders, hremembers⟩ := hrecalled
      obtain ⟨hcaller, hnew⟩ := hallowed
      refine ⟨orders_step horders hcaller ?_ hnext, horders.remembers hremembers hnext⟩
      rintro rfl htakes hcommand
      exact hremembers.missing (hnew htakes hcommand)
  exact horders.1.written.trans horders.1.asked_begins

private def startTable : List RemoteProcedureSignature := [⟨0, "start", [], [], true⟩]

private theorem replied_start : (start startTable).Replied := by
  constructor
  · simp [start]
  · rfl

theorem written_once_stopped :
    ∃ final : Recalled Calling Bool, Reaches (recalling (step fun _ _ => true) remember)
        (fun recalled action => recalled.state.OneCaller action ∧ TakesNew recalled action)
        ⟨start startTable, false⟩ final ∧
      final.state.mm.written = [[0, 0, 0, 0]] ∧ final.state.flow = .loop ∧
      final.state.mm.written <+: final.state.calls.filterMap Goroutine.frame := by
  have hstart : Reaches (recalling (step fun _ _ => true) remember)
      (fun recalled action => recalled.state.OneCaller action ∧ TakesNew recalled action)
      ⟨start startTable, false⟩ ⟨start startTable, false⟩ := .start
  have hcalled := (hstart.next (.call 0 []) ⟨replied_start, trivial⟩ rfl).next (.lock 0)
    ⟨trivial, trivial⟩ rfl
  have hwaits := hcalled.next .flow ⟨trivial, fun htakes => by cases htakes⟩ rfl
  have hstopped := (hwaits.next .stop ⟨trivial, trivial⟩ rfl).next .stop ⟨trivial, trivial⟩ rfl
  have htaken := (hstopped.next .flow ⟨trivial, fun htakes => by cases htakes⟩ rfl).next .flow
    ⟨trivial, fun _ _ => rfl⟩ rfl
  have hreaches := htaken.next .flow ⟨trivial, fun htakes => by cases htakes⟩ rfl
  exact ⟨_, hreaches, rfl, rfl, written_once hreaches⟩

/-- Stopped while it waits for a command, the flow sends the last one again. -/
theorem stopped_idle_resends :
    ¬ ∀ remoteProcedures writeOk final,
      Reaches (step writeOk) OneCaller (start remoteProcedures) final →
      final.mm.written <+: final.calls.filterMap Goroutine.frame := by
  intro honce
  obtain ⟨called, hcalled⟩ : ∃ called,
      step (fun _ _ => true) (start startTable) (.call 0 []) = some called := ⟨_, rfl⟩
  obtain ⟨final, hrun, hwritten, hframes⟩ :
      ∃ final, run (step fun _ _ => true) called
          [.lock 0, .flow, .signal 0, .flow, .flow, .deliver [0, 0, 0, 1], .flow, .flow,
            .flow, .stop, .stop, .flow, .flow, .flow] = some final ∧
        final.mm.written = [[0, 0, 0, 0], [0, 0, 0, 0]] ∧
        final.calls.filterMap Goroutine.frame = [[0, 0, 0, 0]] := by
    cases hcalled
    exact ⟨_, rfl, rfl, rfl⟩
  have hfirst : Reaches (step fun _ _ => true) OneCaller (start startTable) called :=
    Reaches.start.next (.call 0 []) replied_start hcalled
  have hrest : Reaches (step fun _ _ => true) OneCaller called final := by
    refine reaches_of_run ?_ hrun
    intro action hmem state
    simp only [List.mem_cons, List.not_mem_nil, or_false] at hmem
    rcases hmem with rfl | rfl | rfl | rfl | rfl | rfl | rfl | rfl | rfl | rfl | rfl | rfl |
      rfl | rfl
    all_goals trivial
  have hprefix := honce startTable (fun _ _ => true) final (hfirst.trans hrest)
  rw [hwritten, hframes] at hprefix
  exact absurd hprefix.length_le (by decide)

end Rpcmple.Go.Calling
