import Rpcmple.Codec
import Rpcmple.Cpp.Arrivals
import Rpcmple.Cpp.Grouping
import Rpcmple.Cpp.Invocations

namespace Rpcmple.Cpp

open Data System MessageManager
open RpcServer (takesAll)

/-- `received` are the bytes the subscriber's connection has delivered so far. -/
structure PublishSubscribe where
  publishing : Publishing
  received : Bytes
  subscriber : MessageManager DataSubscriber

namespace PublishSubscribe

inductive Action where
  | publisher (action : Publishing.Action)
  | deliver (chunk : Bytes)
  | subscriber

variable (sender receiver : Platform) (mSignature : DataSignature)

def start (groupMessages : Bool) : PublishSubscribe where
  publishing := Publishing.start sender groupMessages
  received := []
  subscriber := init (DataSubscriber.methods receiver) (DataSubscriber.new mSignature true) []

def deliver (state : PublishSubscribe) (chunk : Bytes) : Option PublishSubscribe :=
  if chunk.length ≤ readBufferSize ∧
      state.received ++ chunk <+: state.publishing.mm.written.flatten then
    some
      { state with
        received := state.received ++ chunk
        subscriber := state.subscriber.fed [chunk] }
  else none

/-- A step of the subscriber's flow, unless `mConn->read` waits for bytes. -/
def subscribe (state : PublishSubscribe) : Option PublishSubscribe :=
  if state.subscriber.Starved then none
  else
    some
      { state with
        subscriber := state.subscriber.dataFlow (DataSubscriber.methods receiver) takesAll }

def step (state : PublishSubscribe) : Action → Option PublishSubscribe
  | .publisher action =>
      (state.publishing.step sender mSignature takesAll action).map fun publishing =>
        { state with publishing }
  | .deliver chunk => state.deliver chunk
  | .subscriber => state.subscribe receiver

def called (state : PublishSubscribe) : List VariantVector := state.subscriber.parser.calls

def published (state : PublishSubscribe) : List VariantVector :=
  state.publishing.published.map Prod.fst

/-- The queue is written, what is written is delivered, and the subscriber has nothing left
to do. -/
def Settled (state : PublishSubscribe) : Prop :=
  state.publishing.hand = none ∧ state.publishing.stack = [] ∧
    state.received = state.publishing.mm.written.flatten ∧
    (Rests (DataSubscriber.methods receiver) state.subscriber ∨ state.subscriber.Starved)

/-- No wide strings, no count above 65535, and a body below 2^24 bytes. -/
def Plain (data : VariantVector) : Prop :=
  ∃ values : List Value, data = values.map .value ∧ (∀ value ∈ values, value.Fits) ∧
    (Typed mSignature values → bodySize mSignature values < 16777216)

def Publishes (_ : PublishSubscribe) : Action → Prop
  | .publisher (.publish data) => Plain mSignature data
  | .publisher .take | .publisher .write | .deliver _ | .subscriber => True

/-- What is published is plain, and the publisher's flow takes only what can be sent. -/
def PublishesSent (state : PublishSubscribe) (action : Action) : Prop :=
  Publishes mSignature state action ∧
    (action = .publisher .take → state.publishing.Sends)

variable {sender receiver mSignature} {state next : PublishSubscribe}

def Carries (mSignature : DataSignature) (entry : VariantVector × Bytes) : Prop :=
  ∃ values : List Value, (bodyFormat mSignature).Valid values ∧
    entry = (values.map .value, (bodyFormat mSignature).emit values) ∧
    entry.2.length < 16777216

theorem typed_of_toBinary {values : List Value} {message : Bytes} {buffer : OutBuffer}
    (hnarrow : Narrow mSignature) (hlength : values.length = mSignature.length)
    (hbuffer : DataSignature.toBinary sender mSignature (values.map .value) message =
      .next buffer) : Typed mSignature values := by
  have hvariants : DataSignature.NarrowVariants mSignature (values.map .value) := by
    intro field hmem _
    obtain ⟨value, -, hvalue⟩ := List.mem_map.mp (List.of_mem_zip hmem).2
    rw [← hvalue]
    cases value <;> rfl
  obtain ⟨others, surplus, hsplit, htyped⟩ := DataSignature.represents_of_matches
    hnarrow hvariants (DataSignature.toBinary_accepts sender hbuffer)
  have hothers : values.map Variant.value = others.map .value := by
    have hcount := congrArg List.length hsplit
    have hsame := htyped.length_eq
    rw [List.length_append, List.length_map, List.length_map] at hcount
    have hsurplus : surplus = [] := List.length_eq_zero_iff.mp (by omega)
    rw [hsplit, hsurplus, List.append_nil]
  rwa [List.map_injective_iff.mpr (fun _ _ hvalue => Variant.value.inj hvalue) hothers]

theorem carries_of_encoded {data : VariantVector} {message : Bytes}
    (hnarrow : Narrow mSignature) (hplain : Plain mSignature data)
    (hencoded : DataPublisher.encoded sender mSignature data = .returns (some message)) :
    Carries mSignature (data, message) := by
  obtain ⟨values, rfl, hfits, hsize⟩ := hplain
  have htyped : Typed mSignature values := by
    unfold DataPublisher.encoded at hencoded
    split at hencoded
    · cases hencoded
    · rename_i hlength
      rw [List.length_map, ne_eq, not_not] at hlength
      cases hbuffer : DataSignature.toBinary sender mSignature (values.map .value)
          (List.replicate 1024 0) with
      | next buffer => exact typed_of_toBinary hnarrow hlength hbuffer
      | fail buffer =>
          simp only [hbuffer] at hencoded
          split at hencoded <;> cases hencoded
      | crash =>
          simp only [hbuffer] at hencoded
          cases hencoded
  have hshort := hsize htyped
  rw [DataPublisher.encoded_of_typed hnarrow htyped hfits (by omega)] at hencoded
  cases hencoded
  refine ⟨values, bodyFormat_valid_iff.mpr ⟨htyped, hfits⟩, rfl, ?_⟩
  rw [length_bodyFormat_emit htyped]
  exact hshort

theorem Carries.length {entry : VariantVector × Bytes} (hcarries : Carries mSignature entry) :
    entry.2.length = 0 ↔ mSignature.length = 0 := by
  obtain ⟨values, hvalid, rfl, -⟩ := hcarries
  have htyped := (bodyFormat_valid_iff.mp hvalid).1
  rw [length_bodyFormat_emit htyped]
  constructor
  · intro hzero
    by_contra hsignature
    have hpositive := bodySize_pos htyped fun hempty => hsignature (by rw [hempty]; rfl)
    omega
  · intro hzero
    obtain rfl := List.length_eq_zero_iff.mp hzero
    rfl

theorem Carries.decodes {entry : VariantVector × Bytes} (hnarrow : Narrow mSignature)
    (hcarries : Carries mSignature entry) (args : VariantVector) :
    DataSignature.fromBinary receiver mSignature entry.2 args =
      .returns ⟨true, entry.2.length, entry.1⟩ := by
  obtain ⟨values, hvalid, rfl, hshort⟩ := hcarries
  exact Codec.cppDecodes_emit receiver hnarrow hvalid (lt_trans hshort (by norm_num)) args

theorem Carries.delivered {entry : VariantVector × Bytes} (hnarrow : Narrow mSignature)
    (hcarries : Carries mSignature entry) :
    DataSubscriber.delivered receiver mSignature true entry.2 = some (entry.2, entry.1) := by
  have hsizes := hcarries.length
  unfold DataSubscriber.delivered
  by_cases hempty : entry.2.length = 0
  · obtain rfl := List.length_eq_zero_iff.mp (hsizes.mp hempty)
    obtain ⟨values, hvalid, rfl, -⟩ := hcarries
    cases (bodyFormat_valid_iff.mp hvalid).1
    rfl
  · simp only [Bool.not_true, Bool.false_eq_true, if_false, if_neg hempty,
      hcarries.decodes hnarrow []]

theorem Carries.taken {entry : VariantVector × Bytes} (hnarrow : Narrow mSignature)
    (hcarries : Carries mSignature entry) {subscriber : DataSubscriber}
    (hsignature : subscriber.mSignature = mSignature) :
    ∃ following, subscriber.take receiver entry.2 = some following ∧
      following.mSignature = mSignature := by
  by_cases hempty : entry.2.length = 0
  · have hnone : ¬ subscriber.mSignature.length > 0 := by
      rw [hsignature, hcarries.length.mp hempty]
      exact lt_irrefl 0
    rw [DataSubscriber.take, if_pos hempty, if_neg hnone]
    exact ⟨_, rfl, (DataSubscriber.callback_records subscriber [] []).2.1.trans hsignature⟩
  · rw [DataSubscriber.take, if_neg hempty]
    have hlength : entry.1.length = mSignature.length := by
      obtain ⟨values, hvalid, rfl, -⟩ := hcarries
      rw [List.length_map]
      exact (bodyFormat_valid_iff.mp hvalid).1.length_eq.symm
    obtain ⟨-, hsame, -⟩ := DataSubscriber.callback_records
      (subscriber.expectBody entry.2.length) entry.2 entry.1
    have hsame := hsame.trans hsignature
    have hparse : (subscriber.expectBody entry.2.length).parseBody receiver entry.2 =
        .returns (true,
          ((subscriber.expectBody entry.2.length).callback entry.2 entry.1).expectHeader) := by
      have hbefore : (subscriber.expectBody entry.2.length).mSignature = mSignature := hsignature
      rw [DataSubscriber.parseBody, hbefore, hcarries.decodes hnarrow [], Parsed.after_returns]
      simp only [hsame, hlength, ne_eq, not_true_eq_false, if_false]
    rw [hparse]
    exact ⟨_, rfl, hsame⟩

theorem runs_carried {entries : List (VariantVector × Bytes)} (hnarrow : Narrow mSignature)
    (hcarries : ∀ entry ∈ entries, Carries mSignature entry) {subscriber : DataSubscriber}
    (hsignature : subscriber.mSignature = mSignature) (written : List Bytes) :
    ∃ visited final,
      Frame.Runs ((DataSubscriber.answers receiver).replying takesAll).handle
        (subscriber, written)
        ((entries.map Prod.snd).flatMap (DataPublisher.frame sender)) visited final ∧
      visited.map (fun visit => visit.2.body) = entries.map Prod.snd := by
  induction entries generalizing subscriber with
  | nil => exact ⟨[], _, .short rfl, rfl⟩
  | cons entry entries ih =>
      rw [List.forall_mem_cons] at hcarries
      obtain ⟨following, htaken, hfollowing⟩ :=
        @Carries.taken receiver _ _ hnarrow hcarries.1 subscriber hsignature
      obtain ⟨visited, final, hruns, hbodies⟩ := ih hcarries.2 hfollowing
      obtain ⟨-, -, -, hshort⟩ := hcarries.1
      refine ⟨((subscriber, written), ⟨1, entry.2⟩) :: visited, final, ?_, ?_⟩
      · rw [List.map_cons, List.flatMap_cons, DataPublisher.frame_eq]
        refine .next ⟨by norm_num, hshort⟩ ?_ hruns
        change (subscriber.take receiver entry.2).bind _ = _
        rw [htaken]
        rfl
      · rw [List.map_cons, List.map_cons, hbodies]

theorem handles_carried (sender receiver : Platform) {entries : List (VariantVector × Bytes)}
    (hnarrow : Narrow mSignature) (hcarries : ∀ entry ∈ entries, Carries mSignature entry) :
    ∃ pieces replies,
      HandlesAll (DataSubscriber.methods receiver) takesAll (DataSubscriber.new mSignature true)
        ((entries.map Prod.snd).flatMap (DataPublisher.frame sender)) pieces replies ∧
      pieces.filterMap (fun piece => piece.1.invocation receiver piece.2) =
        entries.map Prod.swap := by
  obtain ⟨visited, final, hruns, hbodies⟩ := @runs_carried sender receiver _ _ hnarrow hcarries
    (DataSubscriber.new mSignature true) rfl []
  obtain ⟨pieces, hhandles, hpieces, hobserved⟩ := handlesAll_frames
    (DataSubscriber.subscribed_sectional receiver mSignature true)
    (DataSubscriber.answers receiver) ⟨RpcServer.sectionFramed_header, rfl, rfl⟩ rfl hruns
  refine ⟨pieces, final.2, hhandles, ?_⟩
  rw [filterMap_invocation hpieces hobserved
    fun _ _ hsubscribed hlength => DataSubscriber.invocation_eq hsubscribed hlength]
  have hcalled : visited.filterMap (fun visit =>
        DataSubscriber.delivered receiver mSignature true visit.2.body) =
      (entries.map Prod.snd).filterMap
        (DataSubscriber.delivered receiver mSignature true) := by
    rw [← hbodies, List.filterMap_map]
    rfl
  refine hcalled.trans ?_
  rw [List.filterMap_map, ← List.filterMap_eq_map]
  exact List.filterMap_congr fun entry hmem => (hcarries entry hmem).delivered hnarrow

/-- What is published are plain values, the publisher's flow goes on, and the subscriber has
met the first bytes of those written. -/
structure Meets (sender receiver : Platform) (mSignature : DataSignature)
    (state : PublishSubscribe) (sent held : List Bytes) : Prop where
  carries : ∀ entry ∈ state.publishing.published, Carries mSignature entry
  flowing : state.publishing.Flowing sender sent held
  received : state.received <+: state.publishing.mm.written.flatten
  streams : Streams (DataSubscriber.methods receiver) takesAll
    (DataSubscriber.Subscribed mSignature true) (DataSubscriber.new mSignature true)
    state.received state.subscriber
  recorded : Recorded DataSubscriber.invocations (DataSubscriber.invocation receiver)
    state.subscriber

theorem meets_start (groupMessages : Bool) :
    Meets sender receiver mSignature (start sender receiver mSignature groupMessages) [] [] where
  carries _ hmem := by cases hmem
  flowing := Publishing.flowing_start groupMessages
  received := List.prefix_refl _
  streams := streams_init ⟨RpcServer.sectionFramed_header, rfl, rfl⟩
  recorded := rfl

theorem meets_deliver {sent held : List Bytes} {chunk : Bytes}
    (hmeets : Meets sender receiver mSignature state sent held)
    (hdeliver : state.deliver chunk = some next) :
    Meets sender receiver mSignature next sent held := by
  unfold deliver at hdeliver
  split at hdeliver
  · rename_i harrives
    cases hdeliver
    exact ⟨hmeets.carries, hmeets.flowing, harrives.2, hmeets.streams.arrives harrives.1,
      hmeets.recorded⟩
  · cases hdeliver

theorem meets_subscribe {sent held : List Bytes}
    (hmeets : Meets sender receiver mSignature state sent held)
    (hsubscribe : state.subscribe receiver = some next) :
    Meets sender receiver mSignature next sent held := by
  unfold subscribe at hsubscribe
  split at hsubscribe
  · cases hsubscribe
  · rename_i hfed
    cases hsubscribe
    exact ⟨hmeets.carries, hmeets.flowing, hmeets.received,
      hmeets.streams.flows (DataSubscriber.subscribed_sectional receiver mSignature true) hfed,
      (DataSubscriber.records receiver).dataFlow hmeets.recorded⟩

theorem meets_publisher {sent held : List Bytes} {action : Publishing.Action}
    (hnarrow : Narrow mSignature) (hmeets : Meets sender receiver mSignature state sent held)
    (hallowed : PublishesSent mSignature state (.publisher action)) {publishing : Publishing}
    (hstep : state.publishing.step sender mSignature takesAll action = some publishing) :
    ∃ sent held, Meets sender receiver mSignature { state with publishing } sent held := by
  obtain ⟨hcarries, hflowing, hreceived, hstreams, hrecorded⟩ := hmeets
  cases action with
  | publish data =>
      rcases Publishing.publish_cases hstep with rfl | ⟨message, hencoded, rfl⟩
      · exact ⟨sent, held, hcarries, hflowing, hreceived, hstreams, hrecorded⟩
      · refine ⟨sent, held, ?_, Publishing.flowing_pushed data message hflowing, hreceived,
          hstreams, hrecorded⟩
        refine List.forall_mem_append.mpr ⟨hcarries, List.forall_mem_singleton.mpr ?_⟩
        exact carries_of_encoded hnarrow hallowed.1 hencoded
  | take =>
      obtain ⟨-, -, -, success, message, rest, -, hnext⟩ :=
        Publishing.take_cases hflowing.running.waits hstep
      have hpublished : publishing.published = state.publishing.published := by rw [hnext]
      have hwritten : publishing.mm.written = state.publishing.mm.written := by rw [hnext]
      rcases Publishing.flowing_take hflowing (hallowed.2 rfl) hstep with
        hgoes | ⟨bad, rest, -, hrefused⟩
      · exact ⟨sent, _, hpublished ▸ hcarries, hgoes, hwritten ▸ hreceived, hstreams, hrecorded⟩
      · -- No body is too long.
        have hmem : bad ∈ publishing.bodies := by
          rw [hrefused.whole]
          simp
        rw [Publishing.bodies, hpublished] at hmem
        obtain ⟨entry, hentry, rfl⟩ := List.mem_map.mp hmem
        obtain ⟨-, -, -, hshort⟩ := hcarries entry hentry
        have hlong := hrefused.long
        omega
  | write =>
      rcases Publishing.flowing_write hflowing hstep with hgoes | hbroken
      · obtain ⟨hand, -, hnext⟩ := Option.map_eq_some_iff.mp hstep
        have hpublished : publishing.published = state.publishing.published := by rw [← hnext]
        have hlonger : state.publishing.mm.written.flatten <+: publishing.mm.written.flatten := by
          rw [hflowing.written, hgoes.written, List.flatMap_append]
          exact List.prefix_append _ _
        exact ⟨sent ++ held, [], hpublished ▸ hcarries, hgoes, hreceived.trans hlonger,
          hstreams, hrecorded⟩
      · cases hbroken.refused

theorem meets_step {sent held : List Bytes} {action : Action} (hnarrow : Narrow mSignature)
    (hmeets : Meets sender receiver mSignature state sent held)
    (hallowed : PublishesSent mSignature state action)
    (hstep : step sender receiver mSignature state action = some next) :
    ∃ sent held, Meets sender receiver mSignature next sent held := by
  cases action with
  | publisher action =>
      obtain ⟨publishing, hpublishing, rfl⟩ := Option.map_eq_some_iff.mp hstep
      exact meets_publisher hnarrow hmeets hallowed hpublishing
  | deliver chunk => exact ⟨sent, held, meets_deliver hmeets hstep⟩
  | subscriber => exact ⟨sent, held, meets_subscribe hmeets hstep⟩

theorem Meets.called {sent held : List Bytes} (hnarrow : Narrow mSignature)
    (hmeets : Meets sender receiver mSignature state sent held) :
    state.called <+: state.published ∧
      (state.Settled receiver → state.called = state.published) := by
  obtain ⟨hcarries, hflowing, hreceived, hstreams, hrecorded⟩ := hmeets
  have hwhole := hflowing.whole
  rw [Publishing.bodies, List.append_assoc] at hwhole
  obtain ⟨front, back, hentries, rfl, hback⟩ := List.map_eq_append_iff.mp hwhole
  have hfront : ∀ entry ∈ front, Carries mSignature entry := by
    intro entry hmem
    apply hcarries
    rw [hentries]
    exact List.mem_append_left _ hmem
  obtain ⟨pieces, replies, hhandles, hcalls⟩ := handles_carried sender receiver hnarrow hfront
  have hswap : (front.map Prod.swap).map Prod.snd = front.map Prod.fst := by
    rw [List.map_map]
    rfl
  rw [← hflowing.written] at hhandles
  have hcalled : state.called = (state.subscriber.parsed.filterMap fun piece =>
      piece.1.invocation receiver piece.2).map Prod.snd := congrArg (List.map Prod.snd) hrecorded
  have hpublished : state.published = front.map Prod.fst ++ back.map Prod.fst := by
    rw [published, hentries, List.map_append]
  constructor
  · obtain ⟨rest, hrest⟩ := hreceived
    rw [← hrest] at hhandles
    have hparsed := (hstreams.parsed_front hhandles).filterMap
      fun piece => piece.1.invocation receiver piece.2
    rw [hcalls] at hparsed
    have hfirst := hparsed.map Prod.snd
    rw [hswap] at hfirst
    rw [hcalled, hpublished]
    exact hfirst.trans (List.prefix_append _ _)
  · rintro ⟨hhand, hstack, hall, hrests⟩
    rw [← hall] at hhandles
    have hheld : held = [] := by
      rcases hflowing.holds with ⟨-, hheld⟩ | ⟨hother, -⟩
      · exact hheld
      · rw [hhand] at hother
        cases hother
    rw [hheld, hstack, List.append_nil, List.map_eq_nil_iff] at hback
    rw [hcalled, hpublished, hback, List.map_nil, List.append_nil, ← hswap, ← hcalls,
      ← (hstreams.done hrests hhandles).1]

/-- As long as the first group is not too long, the callback is called with what is
published, in the order of the queue, and in the end with all of it. -/
theorem called_published (sender receiver : Platform) {mSignature : DataSignature}
    (hnarrow : Narrow mSignature) (groupMessages : Bool) {state : PublishSubscribe}
    (hreaches : Reaches (step sender receiver mSignature) (PublishesSent mSignature)
      (start sender receiver mSignature groupMessages) state) :
    state.called <+: state.published ∧
      (state.Settled receiver → state.called = state.published) := by
  have hmeets : ∃ sent held, Meets sender receiver mSignature state sent held := by
    apply hreaches.invariant ⟨[], [], meets_start groupMessages⟩
    rintro _ _ _ ⟨sent, held, hmeets⟩ hallowed hstep
    exact meets_step hnarrow hmeets hallowed hstep
  obtain ⟨sent, held, hmeets⟩ := hmeets
  exact hmeets.called hnarrow

theorem reaches_step {allowed : PublishSubscribe → Action → Prop} {initial : PublishSubscribe}
    (hreaches : Reaches (step sender receiver mSignature) allowed initial state)
    (action : Publishing.Action) (hallowed : allowed state (.publisher action))
    {publishing : Publishing}
    (hstep : state.publishing.step sender mSignature takesAll action = some publishing) :
    Reaches (step sender receiver mSignature) allowed initial { state with publishing } :=
  hreaches.next (.publisher action) hallowed (by rw [step, hstep]; rfl)

theorem reaches_subscribe {allowed : PublishSubscribe → Action → Prop}
    {initial : PublishSubscribe} (hallowed : ∀ state, allowed state .subscriber)
    {publishing : Publishing} {received : Bytes} {mm : MessageManager DataSubscriber}
    (hreaches : Reaches (step sender receiver mSignature) allowed initial
      ⟨publishing, received, mm⟩) (n : Nat)
    (hfed : ∀ m < n,
      ¬ ((dataFlow (DataSubscriber.methods receiver) takesAll)^[m] mm).Starved) :
    Reaches (step sender receiver mSignature) allowed initial
      ⟨publishing, received, (dataFlow (DataSubscriber.methods receiver) takesAll)^[n] mm⟩ := by
  induction n with
  | zero => exact hreaches
  | succ n ih =>
      refine (ih fun m hlt => hfed m (by omega)).next .subscriber (hallowed _) ?_
      rw [step, subscribe, if_neg (hfed n (by omega)), Function.iterate_succ_apply']

theorem plain_note (number : UInt64) {text : Bytes} (htext : text.length ≤ 65535) :
    Plain Publishing.noteSignature ((Publishing.note number text).map .value) := by
  refine ⟨Publishing.note number text, rfl, ?_, fun _ => ?_⟩
  · simpa [Publishing.note, Value.Fits] using Nat.lt_succ_of_le htext
  · rw [Publishing.note_size]
    omega

private def fedNotes : MessageManager DataSubscriber :=
  ((start plainPlatform plainPlatform Publishing.noteSignature true).subscriber.fed
    [[11, 0, 0, 1, 5, 0, 0, 0, 0, 0, 0, 0, 1, 0, 65, 12, 0]]).fed
      [[0, 1, 7, 0, 0, 0, 0, 0, 0, 0, 2, 0, 66, 67]]

private theorem fedNotes_goes : ∀ m < 14,
    ¬ ((dataFlow (DataSubscriber.methods plainPlatform) takesAll)^[m] fedNotes).Starved := by
  decide

private theorem fedNotes_starved :
    ((dataFlow (DataSubscriber.methods plainPlatform) takesAll)^[14] fedNotes).Starved := by
  decide

private abbrev ReachesNotes (state : PublishSubscribe) : Prop :=
  Reaches (step plainPlatform plainPlatform Publishing.noteSignature)
    (PublishesSent Publishing.noteSignature)
    (start plainPlatform plainPlatform Publishing.noteSignature true) state

theorem called_published_notes :
    ∃ state, Reaches (step plainPlatform plainPlatform Publishing.noteSignature)
        (PublishesSent Publishing.noteSignature)
        (start plainPlatform plainPlatform Publishing.noteSignature true) state ∧
      state.Settled plainPlatform ∧ state.publishing.mm.written.length = 1 ∧
      state.published = [[.value (.uint 5), .value (.string [65])],
        [.value (.uint 7), .value (.string [66, 67])]] ∧
      state.called = state.published := by
  obtain ⟨taken, final, htake, hwrite, ⟨hhand, -⟩, hstack, hpublished, hbytes⟩ :=
    Publishing.twoNotes_written
  have hallowed : ∀ (state : PublishSubscribe) (number : UInt64) {text : Bytes},
      text.length ≤ 65535 → PublishesSent Publishing.noteSignature state
        (.publisher (.publish ((Publishing.note number text).map .value))) :=
    fun _ number _ htext => ⟨plain_note number htext, fun hother => by cases hother⟩
  have hstart : ReachesNotes (start plainPlatform plainPlatform Publishing.noteSignature true) :=
    .start
  have hboth := reaches_step (reaches_step hstart _ (hallowed _ 5 (by simp))
    (@Publishing.publish_note _ 5 [65] (by simp))) _ (hallowed _ 7 (by simp))
      (@Publishing.publish_note _ 7 [66, 67] (by simp))
  have hwritten : ReachesNotes
      ⟨final, [], (start plainPlatform plainPlatform Publishing.noteSignature true).subscriber⟩ :=
    reaches_step (reaches_step hboth .take ⟨trivial, fun _ => Publishing.twoNotes_sends⟩ htake)
      .write ⟨trivial, fun hother => by cases hother⟩ hwrite
  have hother : ∀ (state : PublishSubscribe) (chunk : Bytes),
      PublishesSent Publishing.noteSignature state (.deliver chunk) ∧
        PublishesSent Publishing.noteSignature state .subscriber :=
    fun _ _ => ⟨⟨trivial, fun hother => by cases hother⟩, trivial, fun hother => by cases hother⟩
  have hdelivered : ReachesNotes ⟨final, final.mm.written.flatten, fedNotes⟩ := by
    rw [hbytes]
    exact (hwritten.next (.deliver [11, 0, 0, 1, 5, 0, 0, 0, 0, 0, 0, 0, 1, 0, 65, 12, 0])
      (hother _ _).1 (if_pos ⟨by decide, by rw [hbytes]; exact ⟨_, rfl⟩⟩)).next
      (.deliver [0, 1, 7, 0, 0, 0, 0, 0, 0, 0, 2, 0, 66, 67])
      (hother _ _).1 (if_pos ⟨by decide, by rw [hbytes]; exact ⟨[], rfl⟩⟩)
  have hread := reaches_subscribe (fun state => (hother state []).2) hdelivered 14 fedNotes_goes
  have hsettled : Settled plainPlatform ⟨final, final.mm.written.flatten,
      (dataFlow (DataSubscriber.methods plainPlatform) takesAll)^[14] fedNotes⟩ :=
    ⟨hhand, hstack, rfl, Or.inr fedNotes_starved⟩
  refine ⟨_, hread, hsettled, by rw [hbytes]; rfl, ?_,
    (called_published plainPlatform plainPlatform Publishing.note_narrow true hread).2 hsettled⟩
  rw [PublishSubscribe.published, hpublished]
  rfl

theorem oversized_first {short long : VariantVector} {first second : Bytes}
    (hshort : first.length < 1000) (hlong : second.length ≤ 16777216)
    (hsum : 16777212 < first.length + second.length) :
    ∃ taken final,
      Publishing.step sender mSignature takesAll
          (((Publishing.start sender true).pushed short first).pushed long second) .take =
        some taken ∧
      Publishing.step sender mSignature takesAll taken .write = some final ∧
      final.hand = none ∧ final.stack = [] ∧ final.mm.written = [] ∧
      final.published = [(short, first), (long, second)] := by
  have hloop : DataPublisher.sendLoop sender true [first, second] [] 0 =
      (true, DataPublisher.frame sender first ++ DataPublisher.frame sender second, []) := by
    have hfits : ¬ first.length > 16777216 := by omega
    have hroom : (DataPublisher.frame sender first).length < 1024 := by
      rw [DataPublisher.length_frame]
      omega
    simp [DataPublisher.sendLoop, hfits, hroom, not_lt.mpr hlong]
  let published := ((Publishing.start sender true).pushed short first).pushed long second
  let message := DataPublisher.frame sender first ++ DataPublisher.frame sender second
  let taken : Publishing :=
    { published with
      mm := { published.mm with parser := { published.mm.parser with messageStack := [] } }
      hand := some (true, message) }
  have htake : published.take sender = some taken := by
    have hmethod : DataPublisher.writeMessage sender published.mm.parser [] =
        some (true, message, taken.mm.parser) :=
      DataPublisher.writeMessage_of_sendLoop rfl (List.cons_ne_nil _ _) hloop
    have hready : published.hand = none ∧ (published.mm.loop = .first ∨
        published.mm.loop = .outer ∧ published.mm.stopRequested = false) :=
      ⟨rfl, Or.inl rfl⟩
    rw [Publishing.take, if_pos hready, hmethod]
    rfl
  have hsize : readBufferSize < message.length := by
    rw [List.length_append, DataPublisher.length_frame, DataPublisher.length_frame,
      readBufferSize]
    omega
  have hfull : message.isEmpty = false := by
    rw [List.isEmpty_eq_false_iff, ← List.length_pos_iff]
    omega
  obtain ⟨final, hwrite⟩ : ∃ final, taken.write sender takesAll = some final := ⟨_, rfl⟩
  refine ⟨taken, final, htake, hwrite, ?_⟩
  rw [Publishing.write, Option.map_some] at hwrite
  cases hwrite
  have hopens := @dataFlow_opens _ ((DataPublisher.methods sender).holding (true, message))
    takesAll taken.mm rfl rfl (true, message, taken.mm.parser) rfl
  have hsend : send takesAll (true, message, taken.mm.parser) message.length taken.mm.written =
      none := by
    simp [send, hfull, hsize]
  rw [hsend] at hopens
  refine ⟨rfl, ?_, ?_, rfl⟩
  all_goals
    rw [hopens]
    rfl

def fullTexts : List Bytes :=
  List.replicate 36653 0 :: List.replicate 279 (List.replicate 60000 0)

theorem fullTexts_fits : (Value.strings fullTexts).Fits := by
  refine ⟨by rw [fullTexts, List.length_cons, List.length_replicate]; norm_num, ?_⟩
  refine List.forall_mem_cons.mpr ⟨by rw [List.length_replicate]; norm_num, ?_⟩
  intro text hmem
  rw [List.eq_of_mem_replicate hmem, List.length_replicate]
  norm_num

theorem fullTexts_size : 2 + (fullTexts.map fun text => 2 + text.length).sum = 16777215 := by
  rw [fullTexts, List.map_cons, List.map_replicate, List.sum_cons, List.sum_replicate,
    List.length_replicate, List.length_replicate]
  rfl

theorem plain_strings {texts : List Bytes} (hfits : (Value.strings texts).Fits)
    (hsize : 2 + (texts.map fun text => 2 + text.length).sum < 16777216) :
    Plain [DataType.S.char] [.value (.strings texts)] := by
  refine ⟨[.strings texts], rfl, List.forall_mem_singleton.mpr hfits, fun _ => ?_⟩
  have hchar : DataType.ofChar? DataType.S.char = some .S := DataType.ofChar?_char .S
  simp only [bodySize, hchar, Value.size]
  simpa using hsize

private def unfed : MessageManager DataSubscriber :=
  (start plainPlatform plainPlatform [DataType.S.char] true).subscriber

private theorem unfed_goes : ∀ m < 1,
    ¬ ((dataFlow (DataSubscriber.methods plainPlatform) takesAll)^[m] unfed).Starved := by
  decide

private theorem unfed_starved :
    ((dataFlow (DataSubscriber.methods plainPlatform) takesAll)^[1] unfed).Starved := by
  decide

/-- A body of 2^24 - 1 bytes, behind a short one in the first group. -/
theorem called_without_published :
    ∃ state, Reaches (step plainPlatform plainPlatform [DataType.S.char])
        (Publishes [DataType.S.char])
        (start plainPlatform plainPlatform [DataType.S.char] true) state ∧
      state.Settled plainPlatform ∧ state.called ≠ state.published := by
  have hempty : (Value.strings []).Fits := by simp [Value.Fits]
  have hsize := fullTexts_size
  obtain ⟨first, hfirst, hshort⟩ := @Publishing.encoded_strings plainPlatform [] hempty
    (by norm_num)
  obtain ⟨second, hsecond, hlong⟩ := Publishing.encoded_strings plainPlatform fullTexts_fits
    (by omega)
  rw [List.map_nil, List.sum_nil] at hshort
  rw [fullTexts_size] at hlong
  generalize hshortData : [Variant.value (.strings [])] = short at hfirst
  generalize hlongData : [Variant.value (.strings fullTexts)] = long at hsecond
  obtain ⟨taken, final, htake, hwrite, hhand, hstack, hnone, hpublished⟩ :=
    @oversized_first plainPlatform [DataType.S.char] short long first second (by omega)
      (by omega) (by omega)
  have hstart : Reaches (step plainPlatform plainPlatform [DataType.S.char])
      (Publishes [DataType.S.char])
      (start plainPlatform plainPlatform [DataType.S.char] true)
      (start plainPlatform plainPlatform [DataType.S.char] true) := .start
  have hone := reaches_step hstart (.publish short)
    (hshortData ▸ plain_strings hempty (by norm_num)) (Publishing.publish_of_encoded hfirst)
  have htwo := reaches_step hone (.publish long)
    (hlongData ▸ plain_strings fullTexts_fits (by omega))
    (Publishing.publish_of_encoded hsecond)
  have hwritten : Reaches (step plainPlatform plainPlatform [DataType.S.char])
      (Publishes [DataType.S.char])
      (start plainPlatform plainPlatform [DataType.S.char] true) ⟨final, [], unfed⟩ :=
    reaches_step (reaches_step htwo .take trivial htake) .write trivial hwrite
  -- The subscriber opens and waits.
  refine ⟨_, reaches_subscribe (fun _ => trivial) hwritten 1 unfed_goes, ?_, ?_⟩
  · refine ⟨hhand, hstack, ?_, Or.inr unfed_starved⟩
    rw [hnone]
    rfl
  · rw [PublishSubscribe.published, hpublished]
    intro hcalled
    cases hcalled

end PublishSubscribe

end Rpcmple.Cpp
