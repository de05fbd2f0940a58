import Rpcmple.Go.Publishing

namespace Rpcmple.Go

open Data DataSignature System

namespace DataPublisher

variable {signature : DataSignature} {writeOk : List Bytes → Bytes → Bool}
  {dp next : DataPublisher} {index : Nat} {data : List Any} {place old : Place}

def Place.counts : Place → Nat
  | .send _ _ => 1
  | _ => 0

def Flow.counts : Flow → Nat
  | .checkLen _ _ | .copy _ _ | .put _ _ _ _ | .reset _ _ _ _ | .done _ _ _ => 1
  | _ => 0

def tally (dp : DataPublisher) : Nat :=
  (dp.publishes.map fun goroutine => goroutine.place.counts).sum + dp.messageStack.length +
    dp.flow.counts

def Counted (dp : DataPublisher) : Prop := dp.wg = dp.tally

theorem counted_goto (hplace : dp.publishes[index]? = some ⟨data, old⟩)
    (hcounted : dp.wg + old.counts = dp.tally + place.counts) :
    (dp.goto index data place).Counted := by
  have hsum := Parties.sum_set (fun goroutine : Goroutine => goroutine.place.counts) hplace
    ⟨data, place⟩
  simp only [Counted, tally, goto] at hsum hcounted ⊢
  omega

theorem counted_same (hplace : dp.publishes[index]? = some ⟨data, old⟩)
    (hsame : place.counts = old.counts) (hcounted : dp.Counted) :
    (dp.goto index data place).Counted := by
  apply counted_goto hplace
  rw [hsame, hcounted]

theorem counted_publish {choice : Option Nat} {count : Nat} (hcounted : dp.Counted)
    (hpublish : dp.Publish signature index choice count = some next) : next.Counted := by
  obtain ⟨data, place, hplace, hmoves⟩ := Publish_moves hpublish
  cases hmoves with
  | getBody hget | getMessage hget => cases hget <;> exact counted_same hplace rfl hcounted
  | encodes | refuses | written | refused | tooLong | fits | bytes =>
      exact counted_same hplace rfl hcounted
  | panics | sendPanics => exact hcounted
  | @writes body front _ _ =>
      exact @counted_same (dp.append body front) _ _ _ _ hplace rfl hcounted
  | @writeHeader _ message bodyArr =>
      exact @counted_same (dp.append message (headerBytes bodyArr)) _ _ _ _ hplace rfl hcounted
  | @writeBody _ message bodyArr =>
      exact @counted_same (dp.append message bodyArr) _ _ _ _ hplace rfl hcounted
  | @add body message =>
      apply @counted_goto (dp.add 1) index data (.send body message) _ hplace
      change dp.wg + 1 + (0 : Nat) = dp.tally + (1 : Nat)
      rw [hcounted]
      omega
  | @sends body message =>
      apply @counted_goto (dp.push index message) index data (.put body true) _ hplace
      have htally : (dp.push index message).tally = dp.tally + 1 := by
        simp only [tally, push, List.length_append, List.length_singleton]
        omega
      rw [htally]
      change dp.wg + (1 : Nat) = (dp.tally + 1 : Nat) + (0 : Nat)
      rw [hcounted]
      omega
  | @put body _ => exact @counted_same (dp.put body) _ _ _ _ hplace rfl hcounted
  | @reset body _ => exact @counted_same (dp.store body []) _ _ _ _ hplace rfl hcounted

theorem counted_flow (hcounted : dp.Counted) (hsend : dp.SendMessage writeOk = some next) :
    next.Counted := by
  have hflows := SendMessage_flows hsend
  have hbefore := hcounted
  unfold Counted tally at hbefore ⊢
  generalize dp.flow = flow at hflows hbefore
  cases hflows with
  | loop => cases hstop : dp.stopRequest <;> exact hbefore
  | receive hstack =>
      simp only [hstack, List.length_cons, Flow.counts] at hbefore ⊢
      omega
  | panics => exact hcounted
  | empty | filled | copy | put | reset | goesOn | stops => exact hbefore
  | done =>
      simp only [DataPublisher.add, Flow.counts] at hbefore ⊢
      omega

theorem counted_step {action : Action} (hcounted : dp.Counted)
    (hstep : dp.step signature writeOk action = some next) : next.Counted := by
  unfold step at hstep
  split at hstep
  · cases hstep
  · cases action with
    | publish data =>
        cases hstep
        simp only [Counted, tally, List.map_append, List.sum_append] at hcounted ⊢
        exact hcounted
    | run index choice count => exact counted_publish hcounted hstep
    | flow => exact counted_flow hcounted hstep
    | stop =>
        change dp.stop = some next at hstep
        unfold stop at hstep
        split at hstep
        · cases hstep
          exact hcounted
        · cases hstep
          exact hcounted
        · cases hstep

def Place.sending : Place → Bool
  | .bytes _ | .getMessage _ _ | .writeHeader _ _ _ | .writeBody _ _ _ | .add _ _
  | .send _ _ => true
  | _ => false

/-- The channel is closed while the flow does not wait at it and no call is going to send
any more; and no data are passed that `ToBinary` cannot look at. -/
def StopsSafely (signature : DataSignature) (dp : DataPublisher) : Action → Prop
  | .stop => dp.stopping = .requested →
      (∀ first, dp.flow = .receive first → dp.messageStack ≠ []) ∧
        ∀ goroutine ∈ dp.publishes, goroutine.place.sending = false
  | .run index _ _ =>
      match dp.publishes[index]? with
      | some ⟨data, .toBinary _⟩ => ToBinary signature [] data ≠ .crash
      | some ⟨_, .checkLen body⟩ =>
          dp.stopping = .closed → 16777216 < (dp.buffers body).length
      | _ => True
  | .publish _ | .flow => True

instance (action : Action) : Decidable (StopsSafely signature dp action) := by
  unfold StopsSafely
  split
  · infer_instance
  · split <;> infer_instance
  · exact isTrue trivial
  · exact isTrue trivial

structure Calm (dp : DataPublisher) : Prop where
  goes : dp.panicked = false
  requested : dp.stopping ≠ .notCalled → dp.stopRequest = true
  served : dp.stopping = .closed → ∀ first, dp.flow = .receive first → dp.messageStack ≠ []
  sent : dp.stopping = .closed → ∀ goroutine ∈ dp.publishes, goroutine.place.sending = false

theorem calm_new : NewDataPublisher.Calm where
  goes := rfl
  requested hstopping := absurd rfl hstopping
  served hclosed := by cases hclosed
  sent hclosed := by cases hclosed

theorem calm_goto (hcalm : dp.Calm)
    (hsending : dp.stopping = .closed → place.sending = false) :
    (dp.goto index data place).Calm where
  goes := hcalm.goes
  requested := hcalm.requested
  served := hcalm.served
  sent hclosed := by
    intro goroutine hmem
    rcases List.mem_or_eq_of_mem_set hmem with hbefore | rfl
    · exact hcalm.sent hclosed goroutine hbefore
    · exact hsending hclosed

theorem calm_get {choice : Option Nat} {buffer : Nat} (hcalm : dp.Calm)
    (hget : Gets dp choice buffer next) : next.Calm ∧ next.stopping = dp.stopping := by
  cases hget with
  | fresh | pooled => exact ⟨⟨hcalm.goes, hcalm.requested, hcalm.served, hcalm.sent⟩, rfl⟩

theorem calm_publish {choice : Option Nat} {count : Nat} (hcalm : dp.Calm)
    (hsafe : dp.StopsSafely signature (.run index choice count))
    (hpublish : dp.Publish signature index choice count = some next) : next.Calm := by
  obtain ⟨data, place, hplace, hmoves⟩ := Publish_moves hpublish
  simp only [StopsSafely, hplace] at hsafe
  have hnot : dp.stopping = .closed → place.sending = false := fun hclosed =>
    hcalm.sent hclosed _ (List.mem_of_getElem? hplace)
  have hstays : ∀ {dp' : DataPublisher} {place' : Place}, dp'.Calm →
      dp'.stopping = dp.stopping → (place.sending = false → place'.sending = false) →
      (dp'.goto index data place').Calm := by
    intro dp' place' hcalm' hstopping hkeeps
    apply calm_goto hcalm'
    intro hclosed
    exact hkeeps (hnot (hstopping ▸ hclosed))
  have hsame : ∀ {buffers : Nat → Bytes} {messagePool : List Nat} {wg : Int},
      ({ dp with buffers, messagePool, wg } : DataPublisher).Calm :=
    ⟨hcalm.goes, hcalm.requested, hcalm.served, hcalm.sent⟩
  cases hmoves with
  | getBody hget | getMessage hget =>
      obtain ⟨hgot, hstopping⟩ := calm_get hcalm hget
      exact hstays hgot hstopping id
  | encodes | refuses | written | refused | tooLong =>
      exact hstays hcalm rfl fun _ => rfl
  | bytes => exact hstays hcalm rfl id
  | panics hcrash => exact absurd hcrash hsafe
  | @fits body hle =>
      apply calm_goto hcalm
      intro hclosed
      have hlong := hsafe hclosed
      omega
  | writes => exact hstays hsame rfl fun _ => rfl
  | writeHeader | writeBody | add => exact hstays hsame rfl id
  | @sends body message hopen =>
      have hpushed : (dp.push index message).Calm :=
        ⟨hcalm.goes, hcalm.requested, fun hclosed => absurd hclosed hopen, hcalm.sent⟩
      exact hstays hpushed rfl fun _ => rfl
  | sendPanics hclosed => cases hnot hclosed
  | put | reset => exact hstays hsame rfl fun _ => rfl

theorem calm_flow (hcalm : dp.Calm) (hcounted : dp.Counted)
    (hsend : dp.SendMessage writeOk = some next) : next.Calm := by
  have hflows := SendMessage_flows hsend
  have hmoves : next.stopping = dp.stopping → next.publishes = dp.publishes →
      next.panicked = false → (dp.stopRequest = true → next.stopRequest = true) →
      (∀ first, next.flow ≠ .receive first) → next.Calm := by
    intro hstopping hpublishes hgoes hrequest hother
    refine ⟨hgoes, fun hcalled => hrequest (hcalm.requested (hstopping ▸ hcalled)), ?_, ?_⟩
    · intro _ first hreceive
      exact absurd hreceive (hother first)
    · intro hclosed
      rw [hpublishes]
      exact hcalm.sent (hstopping ▸ hclosed)
  generalize hflow : dp.flow = flow at hflows
  cases hflows with
  | loop =>
      refine ⟨hcalm.goes, hcalm.requested, ?_, hcalm.sent⟩
      intro hclosed first hreceive
      have hstop : dp.stopRequest = true :=
        hcalm.requested fun hother => by
          rw [show dp.stopping = .closed from hclosed] at hother
          cases hother
      simp [hstop] at hreceive
  | panics hempty hclosed => exact absurd hempty (hcalm.served hclosed _ hflow)
  | receive | empty | filled | copy | put | reset | goesOn =>
      exact hmoves rfl rfl hcalm.goes id fun _ hother => by cases hother
  | stops => exact hmoves rfl rfl hcalm.goes (fun _ => rfl) fun _ hother => by cases hother
  | done =>
      refine hmoves rfl rfl ?_ id fun _ hother => by cases hother
      have hpositive : ¬ (dp.add (-1)).wg < 0 := by
        unfold Counted tally at hcounted
        rw [hflow] at hcounted
        simp only [DataPublisher.add, Flow.counts] at hcounted ⊢
        omega
      exact decide_eq_false hpositive

theorem calm_step {action : Action} (hcalm : dp.Calm) (hcounted : dp.Counted)
    (hsafe : dp.StopsSafely signature action)
    (hstep : dp.step signature writeOk action = some next) : next.Calm := by
  unfold step at hstep
  split at hstep
  · cases hstep
  · cases action with
    | publish data =>
        cases hstep
        refine ⟨hcalm.goes, hcalm.requested, hcalm.served, ?_⟩
        intro hclosed goroutine hmem
        rcases List.mem_append.mp hmem with hbefore | hnew
        · exact hcalm.sent hclosed goroutine hbefore
        · rw [List.mem_singleton.mp hnew]
          rfl
    | run index choice count => exact calm_publish hcalm hsafe hstep
    | flow => exact calm_flow hcalm hcounted hstep
    | stop =>
        change dp.stop = some next at hstep
        unfold stop at hstep
        split at hstep
        · cases hstep
          exact ⟨hcalm.goes, fun _ => rfl, fun hclosed => (by cases hclosed),
            fun hclosed => (by cases hclosed)⟩
        · rename_i hrequested
          cases hstep
          obtain ⟨hserved, hsent⟩ := hsafe hrequested
          have hrequest : dp.stopRequest = true :=
            hcalm.requested (by rw [hrequested]; exact StopDataFlow.noConfusion)
          exact ⟨hcalm.goes, fun _ => hrequest, fun _ => hserved, fun _ => hsent⟩
        · cases hstep

/-- Nothing panics in a run whose `StopDataFlow` closes the channel where nobody is going to
use it any more. -/
theorem stop_never_panics (signature : DataSignature) (writeOk : List Bytes → Bytes → Bool)
    {dp : DataPublisher}
    (hreaches : Reaches (step signature writeOk) (StopsSafely signature) NewDataPublisher dp) :
    dp.panicked = false ∧ 0 ≤ dp.wg := by
  have hboth : dp.Calm ∧ dp.Counted :=
    hreaches.invariant (I := fun dp => dp.Calm ∧ dp.Counted) ⟨calm_new, rfl⟩
      fun _ _ _ hboth hsafe hstep =>
        ⟨calm_step hboth.1 hboth.2 hsafe hstep, counted_step hboth.2 hstep⟩
  refine ⟨hboth.1.goes, ?_⟩
  rw [hboth.2]
  exact Int.natCast_nonneg _

theorem stop_never_panics_published :
    ∃ dp : DataPublisher, (dp.panicked = false ∧ 0 ≤ dp.wg) ∧ dp.stopping = .closed ∧
      dp.taken = [[8, 0, 0, 1, 5, 0, 0, 0, 0, 0, 0, 0]] := by
  have hrun : ∃ dp, run (guarded (step [DataType.u.char] allWrites)
        (StopsSafely [DataType.u.char])) NewDataPublisher
      (publishNumber 0 none none 5 ++ [.stop, .stop] ++ List.replicate 8 .flow) = some dp ∧
      dp.stopping = .closed ∧ dp.taken = [[8, 0, 0, 1, 5, 0, 0, 0, 0, 0, 0, 0]] :=
    ⟨_, rfl, rfl, rfl⟩
  obtain ⟨dp, hrun, hclosed, htaken⟩ := hrun
  exact ⟨dp, stop_never_panics _ _ (reaches_of_guarded hrun), hclosed, htaken⟩

/-- The channel is closed while the flow waits at it, or just before a call sends. -/
theorem stop_panics :
    (∃ dp, Reachable (step [] allWrites) NewDataPublisher dp ∧ dp.panicked = true) ∧
      ∃ dp, Reachable (step [DataType.u.char] allWrites) NewDataPublisher dp ∧
        dp.panicked = true := by
  constructor
  · have hrun : ∃ dp, run (step [] allWrites) NewDataPublisher [.stop, .stop, .flow] = some dp ∧
        dp.panicked = true := ⟨_, rfl, rfl⟩
    obtain ⟨dp, hrun, hpanicked⟩ := hrun
    exact ⟨dp, reaches_of_run (fun _ _ _ => trivial) hrun, hpanicked⟩
  · have hrun : ∃ dp, run (step [DataType.u.char] allWrites) NewDataPublisher
        ((publishNumber 0 none none 5).take 11 ++ [.stop, .stop, .run 0 none 0]) = some dp ∧
        dp.panicked = true := ⟨_, rfl, rfl⟩
    obtain ⟨dp, hrun, hpanicked⟩ := hrun
    exact ⟨dp, reaches_of_run (fun _ _ _ => trivial) hrun, hpanicked⟩

end DataPublisher

end Rpcmple.Go
