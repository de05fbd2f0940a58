import Rpcmple.Data.Waiting
import Rpcmple.Go.Stopping

namespace Rpcmple.Go

open Data DataSignature System

namespace DataPublisher

variable {signature : DataSignature} {writeOk : List Bytes → Bytes → Bool}
  {dp next : DataPublisher}

def Flow.result : Flow → Option Bool
  | .put _ _ result _ | .reset _ _ result _ | .done _ result _ | .write _ result _ => some result
  | _ => none

def Flow.unwritten : Flow → List Bytes
  | .put _ _ _ message | .reset _ _ _ message | .done _ _ message | .write _ _ message =>
      [message]
  | _ => []

/-- What was taken is written, or was refused by the connection, or is about to be written. -/
structure Given (writeOk : List Bytes → Bytes → Bool) (dp : DataPublisher) : Prop where
  taken : ∃ refused, dp.taken = dp.written ++ refused ++ dp.flow.unwritten ∧
    Refusal writeOk dp.written refused ∧ (refused ≠ [] → dp.flow = .closed)
  succeeds : dp.flow.result ≠ some false

theorem given_new : NewDataPublisher.Given writeOk :=
  ⟨⟨[], rfl, Or.inl rfl, fun hother => absurd rfl hother⟩, by simp [NewDataPublisher, Flow.result]⟩

theorem Given.open (hgiven : dp.Given writeOk) (hopen : dp.flow ≠ .closed) :
    dp.taken = dp.written ++ dp.flow.unwritten := by
  obtain ⟨refused, htaken, -, hclosed⟩ := hgiven.taken
  have hnone : refused = [] := by
    by_contra hrefused
    exact hopen (hclosed hrefused)
  rw [htaken, hnone, List.append_nil]

theorem given_open (htaken : dp.taken = dp.written ++ dp.flow.unwritten)
    (hsucceeds : dp.flow.result ≠ some false) : dp.Given writeOk :=
  ⟨⟨[], by rw [htaken, List.append_nil], Or.inl rfl, fun hother => absurd rfl hother⟩, hsucceeds⟩

theorem Given.same (hgiven : dp.Given writeOk) (htaken : next.taken = dp.taken)
    (hwritten : next.written = dp.written) (hflow : next.flow = dp.flow) : next.Given writeOk := by
  obtain ⟨⟨refused, hall, hrefusal, hclosed⟩, hsucceeds⟩ := hgiven
  refine ⟨⟨refused, ?_, ?_, ?_⟩, ?_⟩
  · rw [htaken, hwritten, hflow]
    exact hall
  · rw [hwritten]
    exact hrefusal
  · rw [hflow]
    exact hclosed
  · rw [hflow]
    exact hsucceeds

theorem transmit_frame {first : Bool} {message : Bytes} {written : List Bytes}
    (hlower : 4 ≤ message.length) (hupper : message.length ≤ 16777220) :
    MessageManager.transmit first writeOk true message written =
      if writeOk written message then some (written ++ [message]) else none := by
  have hempty : ¬ message.length = 0 := by omega
  have hmod : message.length % 2 ^ 32 = message.length := Nat.mod_eq_of_lt (by omega)
  have hlimit : ¬ message.length > 16777220 := by omega
  simp only [MessageManager.transmit, Bool.not_true, Bool.false_eq_true, if_false, hempty, hmod,
    hlimit]
  cases writeOk written message <;> rfl

theorem Framed.taken_length {message : Bytes} (hframed : Framed signature dp)
    (hmem : message ∈ dp.taken) : 4 ≤ message.length ∧ message.length ≤ 16777220 := by
  obtain ⟨index, -, goroutine, -, hframe⟩ :=
    exists_of_mem_right hframed (List.mem_append_left _ hmem)
  exact frame_length hframe

theorem Framed.transmits {first result : Bool} {message : Bytes} (hframed : Framed signature dp)
    (htaken : dp.taken = dp.written ++ [message])
    (hsucceeds : Flow.result (.write first result message) ≠ some false) :
    MessageManager.transmit first writeOk result message dp.written =
      if writeOk dp.written message then some (dp.written ++ [message]) else none := by
  cases result with
  | false => exact absurd rfl hsucceeds
  | true =>
      obtain ⟨hlower, hupper⟩ := hframed.taken_length (by rw [htaken]; simp : message ∈ dp.taken)
      exact transmit_frame hlower hupper

theorem given_flow (hframed : Framed signature dp) (hgiven : dp.Given writeOk)
    (hsend : dp.SendMessage writeOk = some next) : next.Given writeOk := by
  have hflows := SendMessage_flows hsend
  have hopen : dp.flow ≠ .closed := by
    intro hclosed
    rw [SendMessage, hclosed] at hsend
    cases hsend
  have htaken := hgiven.open hopen
  have hsucceeds := hgiven.succeeds
  generalize hflow : dp.flow = flow at hflows
  rw [hflow] at htaken hsucceeds
  cases hflows with
  | loop =>
      cases hstop : dp.stopRequest with
      | false | true => exact given_open htaken (by simp [Flow.result])
  | empty hempty =>
      obtain ⟨index, goroutine, -, hframe⟩ := hframed.received (Or.inl hflow)
      have hlength := (frame_length hframe).1
      rw [hempty, List.length_nil] at hlength
      omega
  | copy =>
      change dp.taken = dp.written ++ [] at htaken
      rw [List.append_nil] at htaken
      exact given_open (congrArg (· ++ _) htaken) (by simp [Flow.result])
  | panics => exact hgiven.same rfl rfl rfl
  | receive | filled | put | reset | done => exact given_open htaken hsucceeds
  | goesOn htransmit =>
      rw [hframed.transmits htaken hsucceeds] at htransmit
      split at htransmit
      · cases htransmit
        exact given_open (htaken.trans (List.append_nil _).symm) (by simp [Flow.result])
      · cases htransmit
  | @stops first result message htransmit =>
      rw [hframed.transmits htaken hsucceeds] at htransmit
      split at htransmit
      · cases htransmit
      · rename_i hrefused
        exact ⟨⟨[message], htaken.trans (List.append_nil _).symm,
          Or.inr ⟨message, rfl, Bool.eq_false_iff.mpr hrefused⟩, fun _ => rfl⟩,
          by simp [Flow.result]⟩

theorem given_publish {index : Nat} {choice : Option Nat} {count : Nat}
    (hgiven : dp.Given writeOk)
    (hpublish : dp.Publish signature index choice count = some next) : next.Given writeOk := by
  obtain ⟨data, place, -, hmoves⟩ := Publish_moves hpublish
  cases hmoves with
  | getBody hget | getMessage hget => cases hget <;> exact hgiven.same rfl rfl rfl
  | encodes | refuses | panics | writes | written | refused | tooLong | fits | bytes
  | writeHeader | writeBody | add | sends | sendPanics | put | reset =>
      exact hgiven.same rfl rfl rfl

theorem given_step {action : Action} (hframed : Framed signature dp) (hgiven : dp.Given writeOk)
    (hstep : dp.step signature writeOk action = some next) : next.Given writeOk := by
  unfold step at hstep
  split at hstep
  · cases hstep
  · cases action with
    | publish data =>
        cases hstep
        exact hgiven.same rfl rfl rfl
    | run index choice count => exact given_publish hgiven hstep
    | flow => exact given_flow hframed hgiven hstep
    | stop =>
        change dp.stop = some next at hstep
        unfold stop at hstep
        split at hstep
        · cases hstep
          exact hgiven.same rfl rfl rfl
        · cases hstep
          exact hgiven.same rfl rfl rfl
        · cases hstep

theorem succeeded_step {action : Action} {call : Nat}
    (hstep : dp.step signature writeOk action = some next)
    (hsucceeded : Succeeded dp.publishes call) : Succeeded next.publishes call := by
  unfold step at hstep
  split at hstep
  · cases hstep
  · cases action with
    | publish data =>
        cases hstep
        obtain ⟨goroutine, hget, hsucceeds⟩ := hsucceeded
        exact ⟨goroutine, getElem?_publish _ hget, hsucceeds⟩
    | run index choice count =>
        obtain ⟨data, place, hplace, hmoves⟩ := Publish_moves hstep
        have hgoto : ∀ {dp' : DataPublisher} {place' : Place},
            dp'.publishes = dp.publishes → (place.succeeds = true → place'.succeeds = true) →
            Succeeded (dp'.goto index data place').publishes call := by
          intro dp' place' hpublishes hkeeps
          rw [succeeded_goto (by rw [hpublishes]; exact hplace), hpublishes]
          by_cases hcall : call = index
          · subst hcall
            exact Or.inl ⟨rfl, hkeeps ((succeeded_iff hplace).mp hsucceeded)⟩
          · exact Or.inr ⟨hcall, hsucceeded⟩
        cases hmoves with
        | getBody hget | getMessage hget => exact hgoto hget.publishes id
        | panics | sendPanics => exact hsucceeded
        | encodes | refuses | writes | written | refused | tooLong | fits | bytes
        | writeHeader | writeBody | add | put | reset => exact hgoto rfl id
        | sends => exact hgoto rfl fun _ => rfl
    | flow =>
        have hflows := SendMessage_flows hstep
        generalize dp.flow = flow at hflows
        cases hflows <;> exact hsucceeded
    | stop =>
        change dp.stop = some next at hstep
        unfold stop at hstep
        split at hstep
        · cases hstep
          exact hsucceeded
        · cases hstep
          exact hsucceeded
        · cases hstep

def returned (dp : DataPublisher) : List Nat :=
  (List.range dp.publishes.length).filter fun index =>
    dp.publishes[index]?.any fun goroutine => goroutine.place == .returned true

def ready (dp : DataPublisher) : Bool := decide (dp.wg = 0) && !dp.panicked

theorem succeeded_of_returned {call : Nat} (hmem : call ∈ dp.returned) :
    Succeeded dp.publishes call := by
  obtain ⟨-, hany⟩ := List.mem_filter.mp hmem
  cases hget : dp.publishes[call]? with
  | none =>
      rw [hget] at hany
      cases hany
  | some goroutine =>
      rw [hget, Option.any_some, beq_iff_eq] at hany
      exact ⟨goroutine, hget, by rw [hany]; rfl⟩

/-- The wait does not end while the flow is between `SendMessage` and the connection. -/
def Waits (waiting : Waiting DataPublisher (List Nat)) : Waiting.Action Action → Prop
  | .other action => waiting.state.GetsReset action
  | .begin => True
  | .return _ => ∀ first result message, waiting.state.flow ≠ .write first result message

theorem given_of_ready (hsound : Sound signature dp) (hcounted : dp.Counted)
    (hgiven : dp.Given writeOk) (hready : dp.ready = true)
    (hwrite : ∀ first result message, dp.flow ≠ .write first result message) :
    ∃ refused, List.Forall₂ (FrameOf signature dp.publishes) dp.sent (dp.written ++ refused) ∧
      Refusal writeOk dp.written refused := by
  have hzero : dp.tally = 0 := by
    simp only [ready, Bool.and_eq_true, decide_eq_true_eq] at hready
    rw [Counted, hready.1] at hcounted
    exact_mod_cast hcounted.symm
  unfold tally at hzero
  have hstack : dp.messageStack = [] := List.eq_nil_of_length_eq_zero (by omega)
  have hframed := hsound.framed
  have hflow : dp.flow.unwritten = [] ∧ dp.flow.untaken = [] := by
    cases hplace : dp.flow with
    | loop | receive | closed => exact ⟨rfl, rfl⟩
    | checkLen | copy | put | reset | done =>
        rw [hplace] at hzero
        simp only [Flow.counts] at hzero
        omega
    | write first result message => exact absurd hplace (hwrite first result message)
  obtain ⟨refused, htaken, hrefusal, -⟩ := hgiven.taken
  refine ⟨refused, ?_, hrefusal⟩
  rw [Framed, htaken, hflow.1, hflow.2, hstack] at hframed
  simpa using hframed

theorem waited_given {waiting next : Waiting DataPublisher (List Nat)} {index : Nat}
    {calls : List Nat}
    (hreaches : Reaches (Waiting.step (step signature writeOk) returned ready) Waits
      ⟨NewDataPublisher, []⟩ waiting)
    (hwaits : Waits waiting (.return index))
    (hreturn : Waiting.step (step signature writeOk) returned ready waiting (.return index) =
      some next)
    (hcalls : waiting.waits[index]? = some calls) :
    ∃ refused, List.Forall₂ (FrameOf signature waiting.state.publishes) waiting.state.sent
        (waiting.state.written ++ refused) ∧
      Refusal writeOk waiting.state.written refused ∧
      ∀ call ∈ calls, call ∈ waiting.state.sent := by
  have hbase : Reaches (step signature writeOk) GetsReset NewDataPublisher waiting.state :=
    Waiting.reaches_base (fun _ _ hallowed => hallowed) hreaches
  have hsound := sound_reaches hbase
  have hrest : waiting.state.Counted ∧ waiting.state.Given writeOk := by
    clear hwaits hreturn hcalls
    generalize waiting.state = dp at hbase
    clear hsound
    induction hbase with
    | start => exact ⟨rfl, given_new⟩
    | step hbefore _ hstep ih =>
        exact ⟨counted_step ih.1 hstep, given_step (sound_reaches hbefore).framed ih.2 hstep⟩
  have hready := (Waiting.ready_of_return hreturn).1
  obtain ⟨refused, hframes, hrefusal⟩ := given_of_ready hsound hrest.1 hrest.2 hready hwaits
  refine ⟨refused, hframes, hrefusal, ?_⟩
  intro call hmem
  have hsucceeded : ∀ wait ∈ waiting.waits, ∀ call ∈ wait,
      Succeeded waiting.state.publishes call :=
    Waiting.reaches_waits
      (P := fun dp calls => ∀ call ∈ calls, Succeeded dp.publishes call)
      (fun _ _ hreturned => succeeded_of_returned hreturned)
      (fun _ _ _ _ hstep hbefore call hwait => succeeded_step hstep (hbefore call hwait))
      hreaches
  exact (hsound.once.2 call).mpr (hsucceeded calls (List.mem_of_getElem? hcalls) call hmem)

end DataPublisher

end Rpcmple.Go
