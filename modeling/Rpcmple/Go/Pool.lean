import Rpcmple.Go.Ownership

namespace Rpcmple.Go

open Data DataSignature

namespace DataPublisher

variable {signature : DataSignature} {writeOk : List Bytes → Bytes → Bool}
  {dp next : DataPublisher} {index buffer : Nat} {data : List Any} {place old : Place}

def Resetting (dp : DataPublisher) (buffer : Nat) : Prop :=
  (∃ goroutine ∈ dp.publishes, goroutine.place.resets = some buffer) ∨
    dp.flow.resets = some buffer

/-- A running operation still has a step to perform on the buffer. -/
def Uses (dp : DataPublisher) (buffer : Nat) : Prop :=
  (∃ goroutine ∈ dp.publishes, buffer ∈ goroutine.place.owns) ∨ buffer ∈ dp.flow.owns ∨
    dp.Resetting buffer

/-- Every buffer in the pool is empty and nobody's. -/
def PoolLaw (dp : DataPublisher) : Prop :=
  ∀ buffer ∈ dp.messagePool, dp.buffers buffer = [] ∧ ¬ dp.Uses buffer

def NoneBetween (dp : DataPublisher) : Prop :=
  (∀ goroutine ∈ dp.publishes, goroutine.place.resets = none) ∧ dp.flow.resets = none

def Pooled (dp : DataPublisher) : Prop :=
  ∀ buffer ∈ dp.messagePool, dp.buffers buffer = [] ∨ dp.Resetting buffer

def Parked (dp : DataPublisher) : Prop :=
  ∀ buffer, dp.Resetting buffer → buffer ∈ dp.messagePool

/-- `Get` does not take a buffer that is still going to be reset. -/
def GetsReset (dp : DataPublisher) (action : Action) : Prop :=
  ∀ index buffer count, action = .run index (some buffer) count → ¬ dp.Resetting buffer

theorem Resetting.goto (hplace : dp.publishes[index]? = some ⟨data, old⟩)
    (hother : old.resets ≠ some buffer) (hresetting : dp.Resetting buffer) :
    (dp.goto index data place).Resetting buffer := by
  rcases hresetting with ⟨goroutine, hmem, hresets⟩ | hflow
  · obtain ⟨other, hget⟩ := List.getElem?_of_mem hmem
    refine Or.inl ⟨goroutine, ?_, hresets⟩
    apply List.mem_of_getElem? (i := other)
    rw [DataPublisher.goto, List.getElem?_set_ne, hget]
    rintro rfl
    rw [hplace] at hget
    cases hget
    exact hother hresets
  · exact Or.inr hflow

theorem resetting_of_goto (hresetting : (dp.goto index data place).Resetting buffer) :
    dp.Resetting buffer ∨ place.resets = some buffer := by
  rcases hresetting with ⟨goroutine, hmem, hresets⟩ | hflow
  · rcases List.mem_or_eq_of_mem_set hmem with hbefore | rfl
    · exact Or.inl (Or.inl ⟨goroutine, hbefore, hresets⟩)
    · exact Or.inr hresets
  · exact Or.inl (Or.inr hflow)

theorem resetting_goto (hplace : dp.publishes[index]? = some ⟨data, old⟩)
    (hresets : place.resets = some buffer) : (dp.goto index data place).Resetting buffer := by
  have hlength := (List.getElem?_eq_some_iff.mp hplace).1
  exact Or.inl ⟨⟨data, place⟩, List.mem_set hlength _, hresets⟩

structure Private (dp : DataPublisher) (index buffer : Nat) : Prop where
  stack : buffer ∉ dp.messageStack
  flow : buffer ∉ dp.flow.owns
  others : ∀ other goroutine, other ≠ index → dp.publishes[other]? = some goroutine →
    buffer ∉ goroutine.place.owns

theorem Owned.owns_private (howned : dp.Owned)
    (hplace : dp.publishes[index]? = some ⟨data, place⟩) (hmem : buffer ∈ place.owns) :
    buffer ∉ dp.messagePool ∧ dp.Private index buffer := by
  have honce := (howned buffer).1
  have hcount := List.count_pos_iff.mpr hmem
  have hle := Parties.le_sum
    (fun goroutine : Goroutine => goroutine.place.owns.count buffer) hplace
  unfold held at honce
  simp only at hle
  refine ⟨?_, ?_, ?_, ?_⟩
  · rw [← List.count_eq_zero]
    omega
  · rw [← List.count_eq_zero]
    omega
  · rw [← List.count_eq_zero]
    omega
  · intro other goroutine hother hget
    have hboth := Parties.add_le_sum
      (fun goroutine : Goroutine => goroutine.place.owns.count buffer) hplace hget hother
    simp only at hboth
    rw [← List.count_eq_zero]
    omega

theorem Owned.pool_private (howned : dp.Owned) (hmem : buffer ∈ dp.messagePool)
    (index : Nat) : dp.Private index buffer := by
  have honce := (howned buffer).1
  have hcount := List.count_pos_iff.mpr hmem
  unfold held at honce
  refine ⟨?_, ?_, ?_⟩
  · rw [← List.count_eq_zero]
    omega
  · rw [← List.count_eq_zero]
    omega
  · intro other goroutine _ hget
    have hle := Parties.le_sum
      (fun goroutine : Goroutine => goroutine.place.owns.count buffer) hget
    rw [← List.count_eq_zero]
    omega

theorem Owned.fresh_private (howned : dp.Owned) (index : Nat) :
    dp.created ∉ dp.messagePool ∧ dp.Private index dp.created := by
  have hzero := (howned dp.created).2 le_rfl
  unfold held at hzero
  refine ⟨?_, ?_, ?_, ?_⟩
  · rw [← List.count_eq_zero]
    omega
  · rw [← List.count_eq_zero]
    omega
  · rw [← List.count_eq_zero]
    omega
  · intro other goroutine _ hget
    have hle := Parties.le_sum
      (fun goroutine : Goroutine => goroutine.place.owns.count dp.created) hget
    rw [← List.count_eq_zero]
    omega

theorem pooled_goto (hpooled : dp.Pooled)
    (hplace : dp.publishes[index]? = some ⟨data, old⟩) (hresets : old.resets = none) :
    (dp.goto index data place).Pooled := by
  intro buffer hmem
  refine (hpooled buffer hmem).imp_right fun hresetting => ?_
  apply hresetting.goto hplace
  simp [hresets]

theorem pooled_store {bytes : Bytes} (hpooled : dp.Pooled) (hfree : buffer ∉ dp.messagePool) :
    (dp.store buffer bytes).Pooled := by
  intro other hmem
  have hother : other ≠ buffer := by
    rintro rfl
    exact hfree hmem
  refine (hpooled other hmem).imp_left fun hempty => ?_
  rw [store_of_ne dp bytes hother]
  exact hempty

theorem pooled_get {choice : Option Nat} (howned : dp.Owned) (hpooled : dp.Pooled)
    (hget : Gets dp choice buffer next) : next.Pooled := by
  cases hget with
  | fresh => exact @pooled_store dp dp.created [] hpooled (howned.fresh_private 0).1
  | pooled =>
      intro other hmem
      exact hpooled other (List.mem_of_mem_erase hmem)

theorem pooled_publish {choice : Option Nat} {count : Nat} (howned : dp.Owned)
    (hpooled : dp.Pooled) (hpublish : dp.Publish signature index choice count = some next) :
    next.Pooled := by
  obtain ⟨data, place, hplace, hmoves⟩ := Publish_moves hpublish
  cases hmoves with
  | getBody hget | getMessage hget =>
      rw [← hget.publishes] at hplace
      exact pooled_goto (pooled_get howned hpooled hget) hplace rfl
  | encodes | refuses | written | refused | tooLong | fits | bytes =>
      exact pooled_goto hpooled hplace rfl
  | panics | sendPanics => exact hpooled
  | @writes body _ _ _ =>
      have hfree := (@Owned.owns_private _ _ body _ _ howned hplace (by simp [Place.owns])).1
      exact pooled_goto (pooled_store hpooled hfree) hplace rfl
  | @writeHeader _ message _ | @writeBody _ message _ =>
      have hfree := (@Owned.owns_private _ _ message _ _ howned hplace
        (by simp [Place.owns])).1
      exact pooled_goto (pooled_store hpooled hfree) hplace rfl
  | add => exact @pooled_goto (dp.add 1) _ _ _ _ hpooled hplace rfl
  | @sends _ message => exact @pooled_goto (dp.push index message) _ _ _ _ hpooled hplace rfl
  | @put body result =>
      intro buffer hmem
      rcases List.mem_cons.mp hmem with rfl | hmem
      · exact Or.inr (@resetting_goto (dp.put buffer) _ _ _ _ _ hplace rfl)
      · refine (hpooled buffer hmem).imp_right fun hresetting => ?_
        exact @Resetting.goto (dp.put body) _ _ _ _ (.put body result) hplace
          (by simp [Place.resets]) hresetting
  | @reset body result =>
      intro buffer hmem
      by_cases hbody : buffer = body
      · subst hbody
        exact Or.inl (Function.update_self _ _ _)
      · refine (hpooled buffer hmem).imp ?_ ?_
        · intro hempty
          exact (store_of_ne dp [] hbody).trans hempty
        · intro hresetting
          apply @Resetting.goto (dp.store body []) _ _ _ _ (.reset body result) hplace _
            hresetting
          intro heq
          exact hbody (Option.some.inj heq).symm

theorem Resetting.of_flow (hpublishes : next.publishes = dp.publishes)
    (hflow : dp.flow.resets ≠ some buffer) (hresetting : dp.Resetting buffer) :
    next.Resetting buffer := by
  rcases hresetting with hgoroutine | hother
  · rw [← hpublishes] at hgoroutine
    exact Or.inl hgoroutine
  · exact absurd hother hflow

theorem pooled_flow (hpooled : dp.Pooled) (hsend : dp.SendMessage writeOk = some next) :
    next.Pooled := by
  have hflows := SendMessage_flows hsend
  have hstays : dp.flow.resets = none → next.publishes = dp.publishes →
      next.messagePool = dp.messagePool → next.buffers = dp.buffers → next.Pooled := by
    intro hnone hpublishes hpool hbuffers buffer hmem
    rw [hpool] at hmem
    rw [hbuffers]
    refine (hpooled buffer hmem).imp_right fun hresetting => ?_
    exact hresetting.of_flow hpublishes (by simp [hnone])
  generalize hflow : dp.flow = flow at hflows
  cases hflows with
  | loop | receive | empty | filled | copy | done | goesOn | stops =>
      exact hstays (by rw [hflow]; rfl) rfl rfl rfl
  | panics => exact hpooled
  | @put first lastMessage result message =>
      intro buffer hmem
      rcases List.mem_cons.mp hmem with rfl | hmem
      · exact Or.inr (Or.inr rfl)
      · refine (hpooled buffer hmem).imp_right fun hresetting => ?_
        exact @Resetting.of_flow dp _ _ rfl (by simp [hflow, Flow.resets]) hresetting
  | @reset first lastMessage result message =>
      intro buffer hmem
      by_cases hlast : buffer = lastMessage
      · subst hlast
        exact Or.inl (store_self dp buffer [])
      · refine (hpooled buffer hmem).imp ?_ ?_
        · intro hempty
          exact (store_of_ne dp [] hlast).trans hempty
        · intro hresetting
          refine @Resetting.of_flow dp _ _ rfl ?_ hresetting
          rw [hflow]
          intro heq
          exact hlast (Option.some.inj heq).symm

theorem pooled_step {action : Action} (howned : dp.Owned) (hpooled : dp.Pooled)
    (hstep : dp.step signature writeOk action = some next) : next.Pooled := by
  unfold step at hstep
  split at hstep
  · cases hstep
  · cases action with
    | publish data =>
        cases hstep
        intro buffer hmem
        refine (hpooled buffer hmem).imp_right fun hresetting => ?_
        rcases hresetting with ⟨goroutine, hgoroutine, hresets⟩ | hflow
        · exact Or.inl ⟨goroutine, List.mem_append_left _ hgoroutine, hresets⟩
        · exact Or.inr hflow
    | run index choice count => exact pooled_publish howned hpooled hstep
    | flow => exact pooled_flow hpooled hstep
    | stop =>
        change dp.stop = some next at hstep
        unfold stop at hstep
        split at hstep
        · cases hstep
          exact hpooled
        · cases hstep
          exact hpooled
        · cases hstep

theorem poolLaw_iff (howned : dp.Owned) (hpooled : dp.Pooled) :
    dp.PoolLaw ↔ ∀ buffer ∈ dp.messagePool, ¬ dp.Resetting buffer := by
  constructor
  · intro hlaw buffer hmem hresetting
    exact (hlaw buffer hmem).2 (Or.inr (Or.inr hresetting))
  · intro hnone buffer hmem
    have hprivate := howned.pool_private hmem dp.publishes.length
    refine ⟨(hpooled buffer hmem).resolve_right (hnone buffer hmem), ?_⟩
    rintro (⟨goroutine, hgoroutine, howns⟩ | hflow | hresetting)
    · obtain ⟨index, hget⟩ := List.getElem?_of_mem hgoroutine
      have hindex := (List.getElem?_eq_some_iff.mp hget).1
      exact hprivate.others index goroutine (by omega) hget howns
    · exact hprivate.flow hflow
    · exact hnone buffer hmem hresetting

end DataPublisher

end Rpcmple.Go
