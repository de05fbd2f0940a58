import Rpcmple.Go.Calling

namespace Rpcmple.Go.Calling

open Data DataSignature System

variable {writeOk : List Bytes → Bytes → Bool} {state next : Calling} {action : Action}
  {index : Nat}

def Refused (state next : Calling) (index : Nat) : Prop :=
  next.calls[index]?.map (·.place) = some (.returned false) ∧
    state.calls[index]?.map (·.place) ≠ some (.returned false)

/-- The lock is free, and everything but the record of this call is as it was: so
whatever happens next happens as if the call had not been there. -/
structure Undone (state next : Calling) (index : Nat) : Prop where
  free : next.myLock = false
  command : next.rc.command = state.rc.command
  lastRemoteProc : next.rc.lastRemoteProc = state.rc.lastRemoteProc
  others : ∀ other, other ≠ index → next.calls[other]? = state.calls[other]?
  same : next = { state with calls := next.calls }

theorem not_refused_same (hcalls : next.calls = state.calls) : ¬ Refused state next index := by
  intro hrefused
  rw [Refused, hcalls] at hrefused
  exact hrefused.2 hrefused.1

theorem not_refused_goto {other : Nat} {place : Place} (hplace : place ≠ .returned false)
    (hcalls : next.calls = (state.goto other place).calls) : ¬ Refused state next index := by
  intro hrefused
  obtain ⟨hafter, hbefore⟩ := hrefused
  rw [hcalls, goto, List.getElem?_modify] at hafter
  cases hcall : state.calls[index]? with
  | none => simp [hcall] at hafter
  | some goroutine =>
      rw [hcall] at hafter hbefore
      by_cases hindex : other = index
      · simp only [hindex, if_true] at hafter
        exact hplace (Option.some.inj hafter)
      · simp only [hindex, if_false] at hafter
        exact hbefore hafter

theorem refused_enters {goroutine : Goroutine}
    (hrefused : Refused state (state.enters goroutine) index) :
    index = state.calls.length ∧ goroutine.place = .returned false := by
  obtain ⟨hafter, hbefore⟩ := hrefused
  rw [enters, List.getElem?_append] at hafter
  split at hafter
  · exact absurd hafter hbefore
  · rename_i hnew
    obtain ⟨found, hfound, hplace⟩ := Option.map_eq_some_iff.mp hafter
    obtain ⟨hindex, rfl⟩ := List.getElem?_eq_some_iff.mp hfound
    simp only [List.length_singleton] at hindex
    refine ⟨by omega, ?_⟩
    simpa using hplace

theorem undone_unknown {arguments : List Any} (hfree : state.myLock = false) :
    Undone state (state.enters ⟨none, arguments, .returned false⟩) state.calls.length where
  free := hfree
  command := rfl
  lastRemoteProc := rfl
  others := by
    intro other hother
    rw [enters, List.getElem?_append]
    split
    · rfl
    · rename_i hnew
      rw [List.getElem?_eq_none (by simp; omega), List.getElem?_eq_none (by omega)]
  same := rfl

/-- A `Call` that returns false changes nothing exactly when it did not find its name;
every other one keeps the lock. -/
theorem refused_undone_iff (hstep : step writeOk state action = some next)
    (hrefused : Refused state next index) :
    Undone state next index ↔
      state.myLock = false ∧ ∃ remoteProcedure arguments,
        action = .callName remoteProcedure arguments ∧
        state.rc.remoteProcedure remoteProcedure = none := by
  cases (step_moves hstep).2 with
  | calls | names => exact absurd (refused_enters hrefused).2 (by simp)
  | unknown hproc =>
      obtain ⟨rfl, -⟩ := refused_enters hrefused
      constructor
      · intro hundone
        exact ⟨hundone.free, _, _, rfl, hproc⟩
      · intro hcondition
        exact undone_unknown hcondition.1
  | panics => exact absurd hrefused (not_refused_same rfl)
  | locks => exact absurd hrefused (not_refused_goto (by simp) rfl)
  | fails =>
      constructor
      · intro hundone
        exact absurd hundone.free (by simp [Calling.fails])
      · intro hcondition
        obtain ⟨-, _, _, haction, -⟩ := hcondition
        cases haction
  | signals => exact absurd hrefused (not_refused_goto (by simp) rfl)
  | flows hflow => exact absurd hrefused (not_refused_same (flowStep_frame hflow).1)
  | delivers | hangsUp | requests | closes => exact absurd hrefused (not_refused_same rfl)

private def pingTable : List RemoteProcedureSignature :=
  [⟨0, "ping", [DataType.i.char], [], true⟩]

theorem refused_undone_pending :
    ∃ state unknown wrong, run (step fun _ _ => true) (start pingTable)
        [.call 0 [.value (.int 5)], .lock 0, .call 0 [.value (.string [])]] = some state ∧
      state.rc.command = [8, 0, 0, 0, 5, 0, 0, 0, 0, 0, 0, 0] ∧
      step (fun _ _ => true) state (.callName "pong" []) = some unknown ∧
      Undone state unknown 2 ∧
      step (fun _ _ => true) state (.lock 1) = some wrong ∧ ¬ Undone state wrong 1 := by
  obtain ⟨state, unknown, wrong, hrun, hcommand, hunknown, hrefused, hfree, hnone, hwrong,
      hfails⟩ : ∃ state unknown wrong, run (step fun _ _ => true) (start pingTable)
        [.call 0 [.value (.int 5)], .lock 0, .call 0 [.value (.string [])]] = some state ∧
      state.rc.command = [8, 0, 0, 0, 5, 0, 0, 0, 0, 0, 0, 0] ∧
      step (fun _ _ => true) state (.callName "pong" []) = some unknown ∧
      Refused state unknown 2 ∧ state.myLock = false ∧
      state.rc.remoteProcedure "pong" = none ∧
      step (fun _ _ => true) state (.lock 1) = some wrong ∧ Refused state wrong 1 :=
    ⟨_, _, _, rfl, rfl, rfl, ⟨rfl, by decide⟩, rfl, rfl, rfl, ⟨rfl, by decide⟩⟩
  refine ⟨state, unknown, wrong, hrun, hcommand, hunknown, ?_, hwrong, ?_⟩
  · exact (refused_undone_iff hunknown hrefused).mpr ⟨hfree, "pong", [], rfl, hnone⟩
  · intro hundone
    obtain ⟨-, _, _, haction, -⟩ := (refused_undone_iff hwrong hfails).mp hundone
    cases haction

/-- An argument of the wrong type keeps the lock. -/
theorem refused_not_undone :
    ¬ ∀ remoteProcedures writeOk state action next index,
      Reachable (step writeOk) (start remoteProcedures) state →
      step writeOk state action = some next → Refused state next index →
      Undone state next index := by
  intro hundone
  let argument : List Any := [.value (.string [])]
  have hcalled : step (fun _ _ => true) (start pingTable) (.call 0 argument) =
      some ((start pingTable).enters ⟨some ⟨0, "ping", [DataType.i.char], [], true⟩,
        argument, .lock⟩) := rfl
  have hrefuses := hundone pingTable (fun _ _ => true) _ (.lock 0) _ 0
    (Reachable.next .start _ hcalled) rfl ⟨rfl, by simp [enters, start]⟩
  exact absurd hrefuses.free (by decide)

/-! Behind a call that kept the lock nothing that needs it runs any more. -/

theorem parser_upToSend {mm : MessageManager RpcClient}
    (hwaits : ¬ (mm.loop = .inner ∧ 0 < mm.readBuffer.length ∧
      mm.transfer.messageMissingBytes = 0)) :
    (mm.upToSend RpcClient.parser).1.parser = mm.parser := by
  unfold MessageManager.upToSend
  cases hloop : mm.loop with
  | closed => rfl
  | outer =>
      simp only
      split
      · rfl
      · split
        · split
          · rfl
          · split
            all_goals rfl
        · rfl
  | inner =>
      simp only
      split
      · rename_i hmore
        rw [if_neg fun hfull => hwaits ⟨hloop, hmore, hfull⟩]
        rfl
      · rfl

theorem locked_flow (hlocked : state.myLock = true)
    (hflow : state.flowStep writeOk = some next) : next.rc = state.rc := by
  unfold flowStep at hflow
  cases hplace : state.flow with
  | loop =>
      simp only [hplace] at hflow
      split at hflow
      · cases hflow
      · rename_i hgoes
        cases hflow
        apply parser_upToSend
        rintro ⟨hloop, hmore, hfull⟩
        exact hgoes (by simp [blocked, hloop, hlocked, hfull, hmore])
  | send first =>
      simp only [hplace] at hflow
      split at hflow
      all_goals cases hflow
      all_goals rfl
  | receive first =>
      simp only [hplace] at hflow
      split at hflow
      all_goals cases hflow
      rfl
  | lock | measure => simp [hplace, hlocked] at hflow
  | write first replyOk message =>
      simp only [hplace] at hflow
      cases hflow
      unfold writes
      split
      · rfl
      · split
        all_goals rfl
  | returned => simp [hplace] at hflow

theorem locked_step (hlocked : state.myLock = true)
    (hstep : step writeOk state action = some next) :
    next.myLock = true ∧ next.rc = state.rc := by
  cases (step_moves hstep).2 with
  | flows hflow => exact ⟨(flowStep_frame hflow).2.1.trans hlocked, locked_flow hlocked hflow⟩
  | locks _ hfree | fails _ hfree =>
      rw [hlocked] at hfree
      cases hfree
  | calls | names | unknown | panics | signals | delivers | hangsUp | requests | closes =>
      exact ⟨hlocked, rfl⟩

theorem locked_forever {final : Calling} (hlocked : state.myLock = true)
    (hreaches : Reachable (step writeOk) state final) :
    final.myLock = true ∧ final.rc = state.rc := by
  apply hreaches.invariant (I := fun reached => reached.myLock = true ∧ reached.rc = state.rc)
  · exact ⟨hlocked, rfl⟩
  · intro reached action following hreached _ hstep
    obtain ⟨hstays, hsame⟩ := locked_step hreached.1 hstep
    exact ⟨hstays, hsame.trans hreached.2⟩

end Rpcmple.Go.Calling
