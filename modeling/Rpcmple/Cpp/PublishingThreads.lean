import Rpcmple.Cpp.Arguments
import Rpcmple.Cpp.PublishSubscribe
import Rpcmple.Cpp.Streams
import Rpcmple.Data.Completion
import Rpcmple.Data.Interleaving

namespace Rpcmple.Cpp

open Data System MessageManager
open RpcServer (takesAll)

/-- `todo` is what each thread is still going to publish. -/
structure PublishingThreads where
  system : PublishSubscribe
  todo : List (List VariantVector)

namespace PublishingThreads

inductive Action where
  | publish (thread : Nat)
  | take
  | write
  | deliver (size : Nat)
  | subscriber

variable (sender receiver : Platform) (mSignature : DataSignature)

def start (groupMessages : Bool) (threads : List (List VariantVector)) : PublishingThreads where
  system := PublishSubscribe.start sender receiver mSignature groupMessages
  todo := threads

def publish (state : PublishingThreads) (thread : Nat) : Option PublishingThreads :=
  match state.todo[thread]? with
  | some (data :: calls) =>
      (state.system.publishing.publish sender mSignature data).map fun publishing =>
        { system := { state.system with publishing }
          todo := state.todo.set thread calls }
  | some [] | none => none

def publisher (state : PublishingThreads) (action : Publishing.Action) :
    Option PublishingThreads :=
  (state.system.publishing.step sender mSignature takesAll action).map fun publishing =>
    { state with system := { state.system with publishing } }

def undelivered (state : PublishingThreads) : Bytes :=
  state.system.publishing.mm.written.flatten.drop state.system.received.length

def deliver (state : PublishingThreads) (size : Nat) : Option PublishingThreads :=
  if 0 < size ∧ size ≤ state.undelivered.length then
    (state.system.deliver (state.undelivered.take size)).map fun system => { state with system }
  else none

def subscribe (state : PublishingThreads) : Option PublishingThreads :=
  if state.system.subscriber.Ended then none
  else (state.system.subscribe receiver).map fun system => { state with system }

def step (state : PublishingThreads) : Action → Option PublishingThreads
  | .publish thread => state.publish sender mSignature thread
  | .take => state.publisher sender mSignature .take
  | .write => state.publisher sender mSignature .write
  | .deliver size => state.deliver size
  | .subscriber => state.subscribe receiver

def Accepts (data : VariantVector) : Prop :=
  data.length = mSignature.length ∧ DataSignature.Matches mSignature data

instance (data : VariantVector) : Decidable (Accepts mSignature data) :=
  inferInstanceAs (Decidable (_ ∧ _))

/-- The encoding is small, and in a group together with 1024 bytes. -/
def Bounded (groupMessages : Bool) (data : VariantVector) : Prop :=
  DataSignature.Small mSignature data ∧
    (groupMessages = true → DataSignature.encodedLength mSignature data + 1024 ≤ 16777216)

/-- The callback was called with all that the threads published, what each published in
its order. -/
structure Delivered (threads : List (List VariantVector)) (state : PublishingThreads) : Prop where
  all : state.system.called.Perm (threads.flatten.filter fun data => Accepts mSignature data)
  ordered : ∀ calls ∈ threads,
    (calls.filter fun data => Accepts mSignature data).Sublist state.system.called

variable {sender receiver mSignature} {state next : PublishingThreads}

def callCost (mSignature : DataSignature) (data : VariantVector) : Nat :=
  7 * (4 + DataSignature.encodedLength mSignature data) + 3

def stackCost (message : Bytes) : Nat := 7 * (4 + message.length) + 2

def handCost : Option (Bool × Bytes) → Nat
  | none => 0
  | some (_, message) => 7 * message.length + 1

def size (mSignature : DataSignature) (state : PublishingThreads) : Nat :=
  (state.todo.map fun calls => (calls.map (callCost mSignature)).sum).sum +
    (state.system.publishing.stack.map stackCost).sum +
    handCost state.system.publishing.hand + 7 * state.undelivered.length +
    state.system.subscriber.remaining

theorem sum_stackCost (messages : List Bytes) :
    (messages.map stackCost).sum = 7 * DataPublisher.size messages + 2 * messages.length := by
  induction messages with
  | nil => rfl
  | cons message messages ih =>
      have hsize : DataPublisher.size (message :: messages) =
          4 + message.length + DataPublisher.size messages := rfl
      rw [List.map_cons, List.sum_cons, ih, hsize, List.length_cons, stackCost]
      omega

theorem encoded_bounded (hnarrow : Narrow mSignature) {data : VariantVector}
    (hsmall : DataSignature.Small mSignature data) :
    DataPublisher.encoded sender mSignature data =
      .returns (if Accepts mSignature data then some (DataSignature.body mSignature data)
        else none) := by
  unfold DataPublisher.encoded
  by_cases hlength : data.length = mSignature.length
  · rw [if_neg (not_not.mpr hlength)]
    by_cases hmatches : DataSignature.Matches mSignature data
    · rw [if_pos ⟨hlength, hmatches⟩, DataSignature.toBinary_body hsmall hnarrow hlength hmatches]
      rfl
    · obtain ⟨buffer, hbuffer, hdefined⟩ := @DataSignature.toBinary_fails sender _ _ hsmall
        hnarrow hlength hmatches (List.replicate 1024 0)
      rw [if_neg fun haccepts => hmatches haccepts.2, hbuffer]
      simp only [hdefined, if_true]
  · rw [if_pos hlength, if_neg fun haccepts => hlength haccepts.1]

theorem publish_bounded (hnarrow : Narrow mSignature) {data : VariantVector}
    (hsmall : DataSignature.Small mSignature data) (publishing : Publishing) :
    publishing.publish sender mSignature data =
      some (if Accepts mSignature data then
        publishing.pushed data (DataSignature.body mSignature data) else publishing) := by
  have hencoded := @encoded_bounded sender mSignature hnarrow data hsmall
  by_cases haccepts : Accepts mSignature data
  · rw [if_pos haccepts] at hencoded ⊢
    exact Publishing.publish_of_encoded hencoded
  · rw [if_neg haccepts] at hencoded ⊢
    unfold Publishing.publish
    rw [hencoded]

theorem carries_body (hnarrow : Narrow mSignature) {data : VariantVector}
    (hsmall : DataSignature.Small mSignature data) (haccepts : Accepts mSignature data) :
    PublishSubscribe.Carries mSignature (data, DataSignature.body mSignature data) ∧
      (DataSignature.body mSignature data).length =
        DataSignature.encodedLength mSignature data := by
  obtain ⟨hdata, htyped, hfits, hshort⟩ := hsmall.values hnarrow haccepts.1 haccepts.2
  constructor
  · refine ⟨DataSignature.plain data, bodyFormat_valid_iff.mpr ⟨htyped, hfits⟩, ?_, hshort⟩
    rw [← hdata]
    rfl
  · have hlength := DataSignature.encodedLength_map hnarrow htyped
    rw [← hdata] at hlength
    rw [hlength, DataSignature.body, length_bodyFormat_emit htyped]

structure Kept (sender receiver : Platform) (mSignature : DataSignature) (groupMessages : Bool)
    (threads : List (List VariantVector)) (state : PublishingThreads) (sent held : List Bytes) :
    Prop where
  meets : PublishSubscribe.Meets sender receiver mSignature state.system sent held
  groups : state.system.publishing.mm.parser.groupMessages = groupMessages
  short : groupMessages = true →
    ∀ message ∈ state.system.publishing.stack, message.length + 1024 ≤ 16777216
  bounded : ∀ calls ∈ state.todo, ∀ data ∈ calls, Bounded mSignature groupMessages data
  published : Interleaves (Accepts mSignature) threads state.todo state.system.published

variable {groupMessages : Bool} {threads : List (List VariantVector)} {sent held : List Bytes}

theorem kept_start (hthreads : ∀ calls ∈ threads, ∀ data ∈ calls,
      Bounded mSignature groupMessages data) :
    Kept sender receiver mSignature groupMessages threads
      (start sender receiver mSignature groupMessages threads) [] [] where
  meets := PublishSubscribe.meets_start groupMessages
  groups := rfl
  short _ _ hmem := by cases hmem
  bounded := hthreads
  published := .start threads

theorem Kept.unpublished {system : PublishSubscribe} {after more : List Bytes}
    (hkept : Kept sender receiver mSignature groupMessages threads state sent held)
    (hmeets : PublishSubscribe.Meets sender receiver mSignature system after more)
    (hpublished : system.published = state.system.published)
    (hgroups : system.publishing.mm.parser.groupMessages =
      state.system.publishing.mm.parser.groupMessages)
    (hstack : system.publishing.stack ⊆ state.system.publishing.stack) :
    Kept sender receiver mSignature groupMessages threads { state with system } after more where
  meets := hmeets
  groups := hgroups.trans hkept.groups
  short hgroups message hmem := hkept.short hgroups message (hstack hmem)
  bounded := hkept.bounded
  published := by
    change Interleaves _ _ _ system.published
    rw [hpublished]
    exact hkept.published

theorem sum_todo {thread : Nat} {data : VariantVector} {calls : List VariantVector}
    (hthread : state.todo[thread]? = some (data :: calls)) :
    ((state.todo.set thread calls).map fun calls =>
        (calls.map (callCost mSignature)).sum).sum + callCost mSignature data =
      (state.todo.map fun calls => (calls.map (callCost mSignature)).sum).sum := by
  have hsum := Parties.sum_set (fun calls => (calls.map (callCost mSignature)).sum) hthread calls
  simp only [List.map_cons, List.sum_cons] at hsum
  omega

theorem Kept.pushed (hnarrow : Narrow mSignature) {data : VariantVector}
    (hkept : Kept sender receiver mSignature groupMessages threads state sent held)
    (hbounded : Bounded mSignature groupMessages data) (haccepts : Accepts mSignature data) :
    PublishSubscribe.Meets sender receiver mSignature
        { state.system with
          publishing := state.system.publishing.pushed data
            (DataSignature.body mSignature data) } sent held ∧
      (groupMessages = true → ∀ message ∈ state.system.publishing.stack ++
        [DataSignature.body mSignature data], message.length + 1024 ≤ 16777216) := by
  obtain ⟨hcarries, hlength⟩ := carries_body hnarrow hbounded.1 haccepts
  have hmeets := hkept.meets
  refine ⟨⟨?_, Publishing.flowing_pushed _ _ hmeets.flowing, hmeets.received, hmeets.streams,
    hmeets.recorded⟩, ?_⟩
  · exact List.forall_mem_append.mpr ⟨hmeets.carries, List.forall_mem_singleton.mpr hcarries⟩
  · intro hgroups
    refine List.forall_mem_append.mpr ⟨hkept.short hgroups, List.forall_mem_singleton.mpr ?_⟩
    rw [hlength]
    exact hbounded.2 hgroups

theorem Kept.publish (hnarrow : Narrow mSignature) {thread : Nat}
    (hkept : Kept sender receiver mSignature groupMessages threads state sent held)
    (hpublish : state.publish sender mSignature thread = some next) :
    Kept sender receiver mSignature groupMessages threads next sent held ∧
      next.size mSignature < state.size mSignature := by
  unfold PublishingThreads.publish at hpublish
  cases hthread : state.todo[thread]? with
  | none => simp [hthread] at hpublish
  | some calls =>
  cases calls with
  | nil => simp [hthread] at hpublish
  | cons data calls =>
      have hbounded := List.forall_mem_cons.mp
        (hkept.bounded _ (List.mem_of_getElem? hthread))
      have hsum := @sum_todo mSignature state thread data calls hthread
      have hcost : callCost mSignature data =
          7 * (4 + DataSignature.encodedLength mSignature data) + 3 := rfl
      have hnext := hkept.published.next hthread
      have hrest : ∀ others ∈ state.todo.set thread calls, ∀ other ∈ others,
          Bounded mSignature groupMessages other := by
        intro others hothers
        rcases List.mem_or_eq_of_mem_set hothers with hothers | rfl
        · exact hkept.bounded others hothers
        · exact hbounded.2
      simp only [hthread, publish_bounded hnarrow hbounded.1.1, Option.map_some,
        Option.some.injEq] at hpublish
      subst hpublish
      by_cases haccepts : Accepts mSignature data
      · obtain ⟨hmeets, hshort⟩ := hkept.pushed hnarrow hbounded.1 haccepts
        have hlength := (carries_body hnarrow hbounded.1.1 haccepts).2
        simp only [if_pos haccepts]
        refine ⟨⟨hmeets, hkept.groups, hshort, hrest, ?_⟩, ?_⟩
        · have hpublished : PublishSubscribe.published
              { state.system with
                publishing := state.system.publishing.pushed data
                  (DataSignature.body mSignature data) } =
              state.system.published ++ [data] := List.map_append
          rw [hpublished]
          simpa [haccepts] using hnext
        · have hstack : (state.system.publishing.pushed data
              (DataSignature.body mSignature data)).stack =
              state.system.publishing.stack ++ [DataSignature.body mSignature data] := rfl
          simp only [size, hstack, List.map_append, List.map_singleton, List.sum_append,
            List.sum_singleton, stackCost, hlength]
          change _ + _ + handCost state.system.publishing.hand +
            7 * state.undelivered.length + _ < _
          omega
      · simp only [if_neg haccepts]
        refine ⟨⟨hkept.meets, hkept.groups, hkept.short, hrest, ?_⟩, ?_⟩
        · simpa [haccepts] using hnext
        · simp only [size]
          change _ + _ + handCost state.system.publishing.hand +
            7 * state.undelivered.length + _ < _
          omega

theorem Kept.sends
    (hkept : Kept sender receiver mSignature groupMessages threads state sent held) :
    state.system.publishing.Sends := by
  intro hgroups front message rest hstack _ hroom
  have hmem : message ∈ state.system.publishing.stack := by
    rw [hstack]
    simp
  have hshort := hkept.short (hkept.groups.symm.trans hgroups) message hmem
  exact ⟨by omega, fun _ => by omega⟩

theorem Kept.fits
    (hkept : Kept sender receiver mSignature groupMessages threads state sent held) :
    ∀ message ∈ state.system.publishing.stack, message.length ≤ 16777216 := by
  intro message hmem
  have hbody : message ∈ state.system.publishing.bodies := by
    rw [hkept.meets.flowing.whole]
    exact List.mem_append_right _ hmem
  obtain ⟨entry, hentry, rfl⟩ := List.mem_map.mp hbody
  obtain ⟨-, -, -, hshort⟩ := hkept.meets.carries entry hentry
  omega

theorem Kept.take {publishing : Publishing}
    (hkept : Kept sender receiver mSignature groupMessages threads state sent held)
    (htake : state.system.publishing.take sender = some publishing) :
    ∃ more, more ≠ [] ∧ publishing.Flowing sender sent more ∧
      state.system.publishing.stack = more ++ publishing.stack ∧
      state.system.publishing.hand = none ∧
      publishing.hand = some (true, more.flatMap (DataPublisher.frame sender)) ∧
      publishing.published = state.system.publishing.published ∧
      publishing.mm.written = state.system.publishing.mm.written ∧
      publishing.mm.parser.groupMessages =
        state.system.publishing.mm.parser.groupMessages := by
  have hflowing := hkept.meets.flowing
  obtain ⟨hhand, hfull, -, success, message, rest, hloop, hnext⟩ :=
    Publishing.take_cases hflowing.running.waits htake
  have hsame : publishing.published = state.system.publishing.published ∧
      publishing.mm.written = state.system.publishing.mm.written ∧
      publishing.mm.parser.groupMessages =
        state.system.publishing.mm.parser.groupMessages := by
    rw [hnext]
    exact ⟨rfl, rfl, rfl⟩
  rcases Publishing.flowing_take hflowing hkept.sends htake with
    hgoes | ⟨bad, rest, hstack, hrefused⟩
  · have hheld : held = [] := by
      rcases hflowing.holds with ⟨-, hheld⟩ | ⟨hother, -⟩
      · exact hheld
      · cases hhand.symm.trans hother
    have hsplit : state.system.publishing.stack =
        state.system.publishing.taken ++ publishing.stack := by
      have hwhole := hgoes.whole
      rw [Publishing.bodies, hsame.1, ← Publishing.bodies, hflowing.whole, hheld,
        List.append_nil, List.append_assoc] at hwhole
      exact List.append_cancel_left hwhole
    refine ⟨_, ?_, hgoes, hsplit, hhand, ?_, hsame⟩
    · -- The first message is not too long.
      cases hstack : state.system.publishing.stack with
      | nil => exact absurd hstack hfull
      | cons first others =>
          have hfits := hkept.fits first (by rw [hstack]; exact List.mem_cons_self)
          rw [Publishing.taken, hstack, DataPublisher.group, if_pos ⟨by omega, hfits⟩]
          exact List.cons_ne_nil _ _
    · rcases hgoes.holds with ⟨hnone, -⟩ | ⟨hsome, -⟩
      · rw [hnext] at hnone
        cases hnone
      · exact hsome
  · have hfits := hkept.fits bad (by rw [hstack]; exact List.mem_cons_self)
    have hlong := hrefused.long
    omega

theorem undelivered_of_handed {system : PublishSubscribe}
    (hwritten : system.publishing.mm.written = state.system.publishing.mm.written)
    (hreceived : system.received = state.system.received) :
    undelivered { state with system } = state.undelivered := by
  rw [undelivered, hwritten, hreceived]
  rfl

theorem Kept.publisher {action : Publishing.Action}
    (hkept : Kept sender receiver mSignature groupMessages threads state sent held)
    (haction : action = .take ∨ action = .write)
    (hpublisher : state.publisher sender mSignature action = some next) :
    ∃ after more, Kept sender receiver mSignature groupMessages threads next after more ∧
      next.size mSignature < state.size mSignature := by
  obtain ⟨publishing, hstep, rfl⟩ := Option.map_eq_some_iff.mp hpublisher
  have hmeets := hkept.meets
  rcases haction with rfl | rfl
  · obtain ⟨more, hsome, hgoes, hstack, hhand, hholds, hpublished, hwritten, hgroups⟩ :=
      hkept.take hstep
    refine ⟨sent, more, hkept.unpublished ⟨hpublished ▸ hmeets.carries, hgoes,
      hwritten ▸ hmeets.received, hmeets.streams, hmeets.recorded⟩ ?_ hgroups ?_, ?_⟩
    · rw [PublishSubscribe.published, PublishSubscribe.published, hpublished]
    · rw [hstack]
      exact List.subset_append_right _ _
    · have hundelivered := @undelivered_of_handed state
        { state.system with publishing } hwritten rfl
      have hcount := List.length_pos_iff.mpr hsome
      simp only [size, hundelivered, hstack, hhand, hholds, List.map_append, List.sum_append,
        sum_stackCost, handCost, DataPublisher.length_frames]
      omega
  · rcases hmeets.flowing.holds with ⟨hnone, -⟩ | ⟨hsome, hfirst⟩
    · have hwrite : state.system.publishing.write sender takesAll = some publishing := hstep
      rw [Publishing.write, hnone] at hwrite
      cases hwrite
    · obtain ⟨hhand, hpublished, hparser, -⟩ :=
        Publishing.write_spec hmeets.flowing.running hsome hfirst hstep
      have hgoes : publishing.Flowing sender (sent ++ held) [] := by
        rcases Publishing.flowing_write hmeets.flowing hstep with hgoes | hbroken
        · exact hgoes
        · cases hbroken.refused
      have hstack : publishing.stack = state.system.publishing.stack := by
        rw [Publishing.stack, hparser, Publishing.stack]
      have hlonger : publishing.mm.written.flatten = state.system.publishing.mm.written.flatten ++
          held.flatMap (DataPublisher.frame sender) := by
        rw [hgoes.written, hmeets.flowing.written, List.flatMap_append]
      have hreceived : state.system.received <+: publishing.mm.written.flatten := by
        rw [hlonger]
        exact hmeets.received.trans (List.prefix_append _ _)
      have hle := hmeets.received.length_le
      refine ⟨sent ++ held, [], hkept.unpublished ⟨hpublished ▸ hmeets.carries, hgoes,
        hreceived, hmeets.streams, hmeets.recorded⟩ ?_ (by rw [hparser]) ?_, ?_⟩
      · rw [PublishSubscribe.published, PublishSubscribe.published, hpublished]
      · rw [hstack]
        exact List.Subset.refl _
      · simp only [size, undelivered, hstack, hhand, hsome, handCost, hlonger, List.length_drop,
          List.length_append]
        omega

theorem Kept.deliver {size : Nat}
    (hkept : Kept sender receiver mSignature groupMessages threads state sent held)
    (hdeliver : state.deliver size = some next) :
    Kept sender receiver mSignature groupMessages threads next sent held ∧
      next.size mSignature < state.size mSignature := by
  unfold PublishingThreads.deliver at hdeliver
  split at hdeliver
  · rename_i hsize
    obtain ⟨system, hsystem, rfl⟩ := Option.map_eq_some_iff.mp hdeliver
    have hmeets := PublishSubscribe.meets_deliver hkept.meets hsystem
    unfold PublishSubscribe.deliver at hsystem
    split at hsystem
    · cases hsystem
      refine ⟨hkept.unpublished hmeets rfl rfl (List.Subset.refl _), ?_⟩
      have hlength : (state.undelivered.take size).length = size := by
        rw [List.length_take]
        omega
      have hlater : undelivered
            { state with
              system := { state.system with
                received := state.system.received ++ state.undelivered.take size
                subscriber := state.system.subscriber.fed [state.undelivered.take size] } } =
          state.undelivered.drop size := by
        rw [undelivered, List.length_append, hlength, ← List.drop_drop]
        rfl
      simp only [PublishingThreads.size, hlater, MessageManager.remaining_fed, hlength,
        List.length_drop]
      omega
    · cases hsystem
  · cases hdeliver

theorem Kept.subscribe
    (hkept : Kept sender receiver mSignature groupMessages threads state sent held)
    (hsubscribe : state.subscribe receiver = some next) :
    Kept sender receiver mSignature groupMessages threads next sent held ∧
      next.size mSignature < state.size mSignature := by
  unfold PublishingThreads.subscribe at hsubscribe
  split at hsubscribe
  · cases hsubscribe
  · rename_i hgoes
    obtain ⟨system, hsystem, rfl⟩ := Option.map_eq_some_iff.mp hsubscribe
    have hmeets := PublishSubscribe.meets_subscribe hkept.meets hsystem
    unfold PublishSubscribe.subscribe at hsystem
    split at hsystem
    · cases hsystem
    · cases hsystem
      refine ⟨hkept.unpublished hmeets rfl rfl (List.Subset.refl _), ?_⟩
      have hrests : ¬ Rests (DataSubscriber.methods receiver) state.system.subscriber := by
        rintro (hloop | hloop | ⟨-, -, hwaits⟩ | ⟨-, hwaits⟩)
        · exact hgoes (Or.inl hloop)
        · exact hgoes (Or.inr hloop)
        · cases hwaits
        · cases hwaits
      have hless := @remaining_dataFlow _ _ takesAll _ _ hkept.meets.streams.ready hrests
      simp only [PublishingThreads.size]
      change _ + _ + _ + 7 * state.undelivered.length + _ < _
      omega

theorem Kept.step (hnarrow : Narrow mSignature) {action : Action}
    (hkept : Kept sender receiver mSignature groupMessages threads state sent held)
    (hstep : step sender receiver mSignature state action = some next) :
    ∃ after more, Kept sender receiver mSignature groupMessages threads next after more ∧
      next.size mSignature < state.size mSignature := by
  cases action with
  | publish thread => exact ⟨sent, held, hkept.publish hnarrow hstep⟩
  | take => exact hkept.publisher (Or.inl rfl) hstep
  | write => exact hkept.publisher (Or.inr rfl) hstep
  | deliver size => exact ⟨sent, held, hkept.deliver hstep⟩
  | subscriber => exact ⟨sent, held, hkept.subscribe hstep⟩

theorem Kept.through (hnarrow : Narrow mSignature)
    (hkept : Kept sender receiver mSignature groupMessages threads state sent held)
    (hstuck : Stuck (PublishingThreads.step sender receiver mSignature) state) :
    ∀ calls ∈ state.todo, calls = [] := by
  intro calls hmem
  cases calls with
  | nil => rfl
  | cons data calls =>
      obtain ⟨thread, hthread⟩ := List.mem_iff_getElem?.mp hmem
      have hbounded := hkept.bounded _ hmem data List.mem_cons_self
      have hnone : state.publish sender mSignature thread = none := hstuck (.publish thread)
      rw [PublishingThreads.publish, hthread] at hnone
      simp only [publish_bounded hnarrow hbounded.1, Option.map_some] at hnone
      cases hnone

theorem Kept.settled
    (hkept : Kept sender receiver mSignature groupMessages threads state sent held)
    (hstuck : Stuck (PublishingThreads.step sender receiver mSignature) state) :
    state.system.Settled receiver := by
  have hrunning := hkept.meets.flowing.running
  have hhand : state.system.publishing.hand = none :=
    Option.map_eq_none_iff.mp (Option.map_eq_none_iff.mp (hstuck .write))
  have hstack : state.system.publishing.stack = [] := by
    have hnone : state.system.publishing.take sender = none :=
      Option.map_eq_none_iff.mp (hstuck .take)
    have hready : state.system.publishing.hand = none ∧
        (state.system.publishing.mm.loop = .first ∨
          state.system.publishing.mm.loop = .outer ∧
            state.system.publishing.mm.stopRequested = false) :=
      ⟨hhand, hrunning.place.imp_right fun hloop => ⟨hloop, hrunning.goes⟩⟩
    rw [Publishing.take, if_pos hready, Option.map_eq_none_iff, DataPublisher.writeMessage,
      hrunning.waits] at hnone
    cases hempty : state.system.publishing.stack with
    | nil => rfl
    | cons message messages =>
        rw [Publishing.stack] at hempty
        rw [hempty] at hnone
        cases hnone
  have hdelivered : state.undelivered = [] := by
    by_contra hmore
    have hlength := List.length_pos_iff.mpr hmore
    have hnone : state.deliver 1 = none := hstuck (.deliver 1)
    have hbegins : state.system.received ++ state.undelivered.take 1 <+:
        state.system.publishing.mm.written.flatten := by
      obtain ⟨rest, hrest⟩ := hkept.meets.received
      rw [undelivered, ← hrest, List.drop_left]
      exact (List.prefix_append_right_inj _).mpr (List.take_prefix _ _)
    have hshort : (state.undelivered.take 1).length ≤ readBufferSize :=
      (List.length_take_le _ _).trans (by norm_num [readBufferSize])
    rw [PublishingThreads.deliver, if_pos ⟨Nat.one_pos, hlength⟩, PublishSubscribe.deliver,
      if_pos ⟨hshort, hbegins⟩] at hnone
    cases hnone
  refine ⟨hhand, hstack, ?_, ?_⟩
  · have hle := hkept.meets.received.length_le
    rw [undelivered, List.drop_eq_nil_iff] at hdelivered
    exact hkept.meets.received.eq_of_length_le hdelivered
  · have hnone : state.subscribe receiver = none := hstuck .subscriber
    rw [PublishingThreads.subscribe] at hnone
    split at hnone
    · rename_i hended
      exact Or.inl (hended.imp_right Or.inl)
    · rw [Option.map_eq_none_iff, PublishSubscribe.subscribe] at hnone
      split at hnone
      · rename_i hstarved
        exact Or.inr hstarved
      · cases hnone

/-- Whatever the threads, the flows and the connection do first, it comes to an end, and then
the callback was called with all that the threads published. -/
theorem published_delivered (sender receiver : Platform) (hnarrow : Narrow mSignature)
    (hthreads : ∀ calls ∈ threads, ∀ data ∈ calls, Bounded mSignature groupMessages data) :
    Completes (step sender receiver mSignature)
      (start sender receiver mSignature groupMessages threads) (Delivered mSignature threads) := by
  have hstart : ∃ sent held, Kept sender receiver mSignature groupMessages threads
      (start sender receiver mSignature groupMessages threads) sent held :=
    ⟨[], [], kept_start hthreads⟩
  have hstep : ∀ state action next,
      (∃ sent held, Kept sender receiver mSignature groupMessages threads state sent held) →
      step sender receiver mSignature state action = some next →
      (∃ sent held, Kept sender receiver mSignature groupMessages threads next sent held) ∧
        next.size mSignature < state.size mSignature := by
    intro state action next hbefore hnext
    obtain ⟨sent, held, hkept⟩ := hbefore
    obtain ⟨after, more, hmore, hless⟩ := hkept.step hnarrow hnext
    exact ⟨⟨after, more, hmore⟩, hless⟩
  refine completes_of_measure hstart hstep fun state hbefore hstuck => ?_
  obtain ⟨sent, held, hkept⟩ := hbefore
  have hall := (hkept.meets.called hnarrow).2 (hkept.settled hstuck)
  obtain ⟨hperm, hordered⟩ := hkept.published.finished (hkept.through hnarrow hstuck)
  exact ⟨hall ▸ hperm, hall ▸ hordered⟩

private def twoThreads : List (List VariantVector) :=
  [[[.value (.int 5)], [.value (.uint 5)], [.value (.int 7)]], [[.value (.int 9)]]]

private theorem bounded_one {content : Value} (hfits : content.Fits) (hsize : content.size < 9) :
    Bounded [DataType.char .i] true [.value content] := by
  have hshort : DataSignature.encodedLength [DataType.char .i] [.value content] < 10 := by
    simp only [DataSignature.encodedLength]
    split
    · split <;> omega
    · omega
  refine ⟨⟨?_, ?_, by omega⟩, fun _ => by omega⟩
  · intro field hmem hchar
    obtain rfl := List.mem_singleton.mp hmem
    cases (DataType.ofChar?_char .i).symm.trans hchar
  · intro other hmem
    cases List.mem_singleton.mp hmem
    exact hfits

theorem published_delivered_two :
    Completes (step plainPlatform plainPlatform [DataType.char .i])
      (start plainPlatform plainPlatform [DataType.char .i] true twoThreads) fun state =>
        state.system.called.Perm
            [[.value (.int 5)], [.value (.int 7)], [.value (.int 9)]] ∧
          [[Variant.value (.int 5)], [.value (.int 7)]].Sublist state.system.called := by
  have hnarrow : Narrow [DataType.char .i] := by
    intro char hmem dataType hchar
    obtain rfl := List.mem_singleton.mp hmem
    cases (DataType.ofChar?_char .i).symm.trans hchar
    rfl
  have hthreads : ∀ calls ∈ twoThreads, ∀ data ∈ calls,
      Bounded [DataType.char .i] true data := by
    simp only [twoThreads, List.forall_mem_cons]
    exact ⟨⟨bounded_one trivial (by decide), bounded_one trivial (by decide),
      bounded_one trivial (by decide), by simp⟩, ⟨bounded_one trivial (by decide), by simp⟩,
      by simp⟩
  obtain ⟨hbounded, hends⟩ := published_delivered plainPlatform plainPlatform hnarrow hthreads
  refine ⟨hbounded, fun state hreaches hstuck => ?_⟩
  obtain ⟨hall, hordered⟩ := hends state hreaches hstuck
  exact ⟨hall, hordered _ List.mem_cons_self⟩

end PublishingThreads

end Rpcmple.Cpp
