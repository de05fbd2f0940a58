import Rpcmple.Cpp.Publishing

namespace Rpcmple.Cpp

open Data System MessageManager
open RpcServer (takesAll)

namespace Publishing

variable {host : Platform} {mSignature : DataSignature}
  {writeOk : List Bytes → Bytes → Bool} {groupMessages : Bool} {state next : Publishing}

/-- The flow holds nothing, and has emptied the stack or stopped. -/
def Finished (state : Publishing) : Prop :=
  state.hand = none ∧ (state.stack = [] ∨ state.mm.loop = .closed)

def preceding (state : Publishing) : List Bytes :=
  state.bodies.takeWhile fun message => decide (message.length ≤ 16777216)

private theorem takeWhile_fits {sent rest : List Bytes}
    (hfits : ∀ message ∈ sent, message.length ≤ 16777216) :
    (sent ++ rest).takeWhile (fun message => decide (message.length ≤ 16777216)) =
      sent ++ rest.takeWhile fun message => decide (message.length ≤ 16777216) :=
  List.takeWhile_append_of_pos fun message hmem => decide_eq_true (hfits message hmem)

theorem balanced_reaches
    (hreaches : Reaches (step host mSignature writeOk) SendsAll (start host groupMessages)
      state) : state.Balanced host writeOk :=
  hreaches.invariant (.goes (flowing_start groupMessages))
    fun _ _ _ hbalanced hallowed hstep => balanced_step hbalanced hallowed hstep

theorem Balanced.written (hbalanced : state.Balanced host takesAll)
    (hfinished : state.Finished) :
    state.mm.written.flatten = state.preceding.flatMap (DataPublisher.frame host) := by
  unfold preceding
  cases hbalanced with
  | @goes sent held hflowing =>
      obtain ⟨hhand, hend⟩ := hfinished
      have hstack : state.stack = [] := by
        rcases hend with hempty | hclosed
        · exact hempty
        · rcases hflowing.running.place with hloop | hloop <;> rw [hloop] at hclosed <;>
            cases hclosed
      have hheld : held = [] := by
        rcases hflowing.holds with ⟨-, hheld⟩ | ⟨hother, -⟩
        · exact hheld
        · rw [hhand] at hother
          cases hother
      have hwhole := hflowing.whole
      have hfits := hflowing.fits
      rw [hstack, hheld, List.append_nil] at hwhole
      rw [hheld, List.append_nil] at hfits
      rw [hwhole, takeWhile_fits hfits, List.takeWhile_nil, List.append_nil]
      exact hflowing.written
  | @fails sent bad hrefused =>
      have hlong : ¬ decide (bad.length ≤ 16777216) = true := by
        simpa using hrefused.long
      rw [hrefused.whole, takeWhile_fits hrefused.fits, List.takeWhile_cons, if_neg hlong,
        List.append_nil]
      exact hrefused.written
  | breaks hbroken => cases hbroken.refused

theorem groups_step {action : Action} (hbalanced : state.Balanced host writeOk)
    (hstep : step host mSignature writeOk state action = some next) :
    next.mm.parser.groupMessages = state.mm.parser.groupMessages := by
  cases action with
  | publish data =>
      rcases publish_cases hstep with rfl | ⟨message, -, rfl⟩
      · rfl
      · rfl
  | take =>
      have hwaits : state.mm.parser.stopWait = false ∨ state.mm.loop = .closed := by
        cases hbalanced with
        | goes hflowing => exact Or.inl hflowing.running.waits
        | fails hrefused =>
            exact hrefused.place.imp (fun hplace => hplace.2.waits) And.right
        | breaks hbroken => exact Or.inr hbroken.closed
      rcases hwaits with hwaits | hclosed
      · obtain ⟨-, -, -, success, message, rest, -, rfl⟩ := take_cases hwaits hstep
        rfl
      · exact (take_idle (Or.inr hclosed) hstep).elim
  | write =>
      cases hbalanced with
      | goes hflowing =>
          rcases hflowing.holds with ⟨hhand, -⟩ | ⟨hhand, hfirst⟩
          · simp [step, write, hhand] at hstep
          · rw [(write_spec hflowing.running hhand hfirst hstep).2.2.1]
      | fails hrefused =>
          rcases hrefused.place with ⟨⟨message, hhand⟩, hrunning⟩ | ⟨hhand, -⟩
          · rw [(write_failed hrunning hhand hstep).2.2.1]
          · simp [step, write, hhand] at hstep
      | breaks hbroken => simp [step, write, hbroken.hand] at hstep

theorem sendsAll_single (hsingle : state.mm.parser.groupMessages = false) (action : Action) :
    SendsAll state action := by
  intro _ hgroups
  rw [hsingle] at hgroups
  cases hgroups

theorem reaches_single
    (hreaches : Reachable (step host mSignature writeOk) (start host false) state) :
    Reaches (step host mSignature writeOk) SendsAll (start host false) state := by
  have hboth : Reaches (step host mSignature writeOk) SendsAll (start host false) state ∧
      state.mm.parser.groupMessages = false := by
    induction hreaches with
    | start => exact ⟨.start, rfl⟩
    | step _ _ hstep ih =>
        obtain ⟨hbefore, hsingle⟩ := ih
        refine ⟨.step hbefore (sendsAll_single hsingle _) hstep, ?_⟩
        rw [groups_step (balanced_reaches hbefore) hstep]
        exact hsingle
  exact hboth.1

/-- As long as no group is cut off, or too long as the first one, grouping does not show in
what is written. -/
theorem groups_transparent (host : Platform) (mSignature : DataSignature) :
    (∀ state, Reaches (step host mSignature takesAll) SendsAll (start host true) state →
        state.Finished →
        state.mm.written.flatten = state.preceding.flatMap (DataPublisher.frame host)) ∧
      ∀ state, Reachable (step host mSignature takesAll) (start host false) state →
        state.Finished →
        state.mm.written.flatten = state.preceding.flatMap (DataPublisher.frame host) := by
  constructor
  · intro state hreaches hfinished
    exact (balanced_reaches hreaches).written hfinished
  · intro state hreaches hfinished
    exact (balanced_reaches (reaches_single hreaches)).written hfinished

theorem sends_short (hshort : ∀ message ∈ state.stack, message.length ≤ 16776192) :
    state.Sends := by
  intro _ front message rest hstack _ hsize
  have hlength := hshort message (by rw [hstack]; simp)
  omega

def noteSignature : DataSignature := [DataType.u.char, DataType.s.char]

def note (number : UInt64) (text : Bytes) : List Value := [.uint number, .string text]

def noteBody (number : UInt64) (text : Bytes) : Bytes :=
  (bodyFormat noteSignature).emit (note number text)

theorem note_narrow : Narrow noteSignature := by
  intro char hmem dataType hchar
  rcases List.mem_pair.mp hmem with rfl | rfl
  · cases (DataType.ofChar?_char .u).symm.trans hchar
    rfl
  · cases (DataType.ofChar?_char .s).symm.trans hchar
    rfl

theorem note_typed (number : UInt64) (text : Bytes) :
    Typed noteSignature (note number text) :=
  .cons ⟨.u, DataType.ofChar?_char .u, Or.inr rfl⟩
    (.cons ⟨.s, DataType.ofChar?_char .s, Or.inr rfl⟩ .nil)

theorem note_size (number : UInt64) (text : Bytes) :
    bodySize noteSignature (note number text) = 10 + text.length := by
  simp [bodySize, noteSignature, note, Value.size, DataType.ofChar?_char]
  omega

theorem length_noteBody (number : UInt64) (text : Bytes) :
    (noteBody number text).length = 10 + text.length := by
  rw [noteBody, length_bodyFormat_emit (note_typed number text), note_size]

theorem encoded_note (host : Platform) (number : UInt64) {text : Bytes}
    (htext : text.length ≤ 65535) :
    DataPublisher.encoded host noteSignature ((note number text).map .value) =
      .returns (some (noteBody number text)) := by
  refine DataPublisher.encoded_of_typed note_narrow (note_typed number text) ?_ ?_
  · simpa [note, Value.Fits] using Nat.lt_succ_of_le htext
  · rw [note_size]
    omega

theorem publish_note (state : Publishing) (number : UInt64) {text : Bytes}
    (htext : text.length ≤ 65535) :
    step plainPlatform noteSignature takesAll state (.publish ((note number text).map .value)) =
      some (state.pushed ((note number text).map .value) (noteBody number text)) :=
  publish_of_encoded (encoded_note plainPlatform number htext)

def twoNotes : Publishing :=
  ((start plainPlatform true).pushed ((note 5 [65]).map .value) (noteBody 5 [65])).pushed
    ((note 7 [66, 67]).map .value) (noteBody 7 [66, 67])

theorem twoNotes_sends : twoNotes.Sends := by
  refine sends_short ?_
  change ∀ message ∈ [noteBody 5 [65], noteBody 7 [66, 67]], message.length ≤ 16776192
  simp [length_noteBody]

theorem reaches_twoNotes {allowed : Publishing → Action → Prop}
    (hallowed : ∀ state number text, allowed state (.publish ((note number text).map .value))) :
    Reaches (step plainPlatform noteSignature takesAll) allowed (start plainPlatform true)
      twoNotes := by
  have hstart : Reaches (step plainPlatform noteSignature takesAll) allowed
      (start plainPlatform true) (start plainPlatform true) := .start
  have hfirst := hstart.next _ (hallowed _ 5 [65]) (publish_note _ 5 (by simp))
  exact hfirst.next _ (hallowed _ 7 [66, 67]) (publish_note _ 7 (by simp))

theorem twoNotes_written :
    ∃ taken final, step plainPlatform noteSignature takesAll twoNotes .take = some taken ∧
      step plainPlatform noteSignature takesAll taken .write = some final ∧ final.Finished ∧
      final.stack = [] ∧ final.published = twoNotes.published ∧
      final.mm.written =
        [[11, 0, 0, 1, 5, 0, 0, 0, 0, 0, 0, 0, 1, 0, 65,
          12, 0, 0, 1, 7, 0, 0, 0, 0, 0, 0, 0, 2, 0, 66, 67]] :=
  ⟨_, _, rfl, rfl, ⟨rfl, Or.inl rfl⟩, rfl, rfl, rfl⟩

theorem groups_transparent_notes :
    ∃ state, Reaches (step plainPlatform noteSignature takesAll) SendsAll
        (start plainPlatform true) state ∧
      state.Finished ∧ state.mm.written.length = 1 ∧
      state.mm.written.flatten =
        [11, 0, 0, 1, 5, 0, 0, 0, 0, 0, 0, 0, 1, 0, 65,
          12, 0, 0, 1, 7, 0, 0, 0, 0, 0, 0, 0, 2, 0, 66, 67] := by
  obtain ⟨taken, final, htake, hwrite, hfinished, -, hpublished, hwritten⟩ := twoNotes_written
  have hreaches := ((@reaches_twoNotes SendsAll fun _ _ _ hother => by cases hother).next
    .take (fun _ => twoNotes_sends) htake).next .write (fun hother => by cases hother) hwrite
  refine ⟨final, hreaches, hfinished, by rw [hwritten]; rfl, ?_⟩
  rw [(groups_transparent plainPlatform noteSignature).1 final hreaches hfinished, preceding,
    bodies, hpublished]
  decide

theorem reaches_cutoff {short long : VariantVector} {first second : Bytes}
    (hfirst : DataPublisher.encoded host mSignature short = .returns (some first))
    (hsecond : DataPublisher.encoded host mSignature long = .returns (some second))
    (hshort : first.length < 1000) (hlong : 16777216 < second.length) :
    ∃ state, Reachable (step host mSignature takesAll) (start host true) state ∧
      state.Finished ∧ state.bodies = [first, second] ∧ state.mm.written = [] := by
  have hloop : DataPublisher.sendLoop host true [first, second] [] 0 =
      (false, DataPublisher.frame host first, []) := by
    have hfits : ¬ first.length > 16777216 := by omega
    have hroom : (DataPublisher.frame host first).length < 1024 := by
      rw [DataPublisher.length_frame]
      omega
    simp [DataPublisher.sendLoop, hfits, hroom, hlong]
  let published := ((start host true).pushed short first).pushed long second
  let taken : Publishing :=
    { published with
      mm := { published.mm with parser := { published.mm.parser with messageStack := [] } }
      hand := some (false, DataPublisher.frame host first) }
  have htake : published.take host = some taken := by
    have hmethod : DataPublisher.writeMessage host published.mm.parser [] =
        some (false, DataPublisher.frame host first, taken.mm.parser) :=
      DataPublisher.writeMessage_of_sendLoop rfl (List.cons_ne_nil _ _) hloop
    have hready : published.hand = none ∧ (published.mm.loop = .first ∨
        published.mm.loop = .outer ∧ published.mm.stopRequested = false) :=
      ⟨rfl, Or.inl rfl⟩
    rw [take, if_pos hready, hmethod]
    rfl
  obtain ⟨final, hwrite⟩ : ∃ final, taken.write host takesAll = some final := ⟨_, rfl⟩
  have hrunning : taken.Running := ⟨Or.inl rfl, rfl, rfl, rfl⟩
  obtain ⟨hhand, hpublished, -, hwritten, hclosed⟩ := write_failed hrunning rfl hwrite
  refine ⟨final, ?_, ⟨hhand, Or.inr hclosed⟩, by rw [bodies, hpublished]; rfl, hwritten⟩
  have hstart : Reachable (step host mSignature takesAll) (start host true)
      (start host true) := .start
  have hpublished := (hstart.next (.publish short) (publish_of_encoded hfirst)).next
    (.publish long) (publish_of_encoded hsecond)
  exact (hpublished.next .take htake).next .write hwrite

theorem encoded_strings (host : Platform) {texts : List Bytes}
    (hfits : (Value.strings texts).Fits)
    (hsize : 2 + (texts.map fun text => 2 + text.length).sum < 2 ^ 31) :
    ∃ message, DataPublisher.encoded host [DataType.S.char] [.value (.strings texts)] =
        .returns (some message) ∧
      message.length = 2 + (texts.map fun text => 2 + text.length).sum := by
  have hnarrow : Narrow [DataType.S.char] := by
    intro char hmem dataType hchar
    rw [List.mem_singleton.mp hmem, DataType.ofChar?_char] at hchar
    cases hchar
    rfl
  have htyped : Typed [DataType.S.char] [.strings texts] :=
    .cons ⟨.S, DataType.ofChar?_char .S, Or.inr rfl⟩ .nil
  have hbody : bodySize [DataType.S.char] [.strings texts] =
      2 + (texts.map fun text => 2 + text.length).sum := by
    simp [bodySize, Value.size, DataType.ofChar?_char]
  refine ⟨(bodyFormat [DataType.S.char]).emit [.strings texts], ?_, ?_⟩
  · exact @DataPublisher.encoded_of_typed _ _ [.strings texts] hnarrow htyped
      (List.forall_mem_singleton.mpr hfits) (by rw [hbody]; exact hsize)
  · rw [length_bodyFormat_emit htyped, hbody]

def longTexts : List Bytes := List.replicate 300 (List.replicate 60000 0)

theorem longTexts_fits : (Value.strings longTexts).Fits := by
  refine ⟨by rw [longTexts, List.length_replicate]; decide, ?_⟩
  intro text hmem
  rw [List.eq_of_mem_replicate hmem, List.length_replicate]
  decide

theorem longTexts_size : (longTexts.map fun text => 2 + text.length).sum = 18000600 := by
  rw [longTexts, List.map_replicate, List.sum_replicate, List.length_replicate]
  rfl

/-- A message that is too long, behind a short one in its group. -/
theorem groups_lose_message :
    ∃ state, Reachable (step plainPlatform [DataType.S.char] takesAll)
        (start plainPlatform true) state ∧ state.Finished ∧
      state.mm.written.flatten ≠ state.preceding.flatMap (DataPublisher.frame plainPlatform) := by
  obtain ⟨first, hfirst, hshort⟩ := @encoded_strings plainPlatform []
    (by simp [Value.Fits]) (by norm_num)
  obtain ⟨second, hsecond, hlong⟩ := encoded_strings plainPlatform longTexts_fits
    (by rw [longTexts_size]; norm_num)
  rw [List.map_nil, List.sum_nil] at hshort
  rw [longTexts_size] at hlong
  obtain ⟨state, hreaches, hfinished, hbodies, hwritten⟩ :=
    reaches_cutoff hfirst hsecond (by omega) (by omega)
  refine ⟨state, hreaches, hfinished, ?_⟩
  have hfits : first.length ≤ 16777216 := by omega
  rw [hwritten, preceding, hbodies, List.takeWhile_cons, if_pos (decide_eq_true hfits)]
  intro hempty
  have hlength := congrArg List.length hempty
  rw [List.flatten_nil, List.flatMap_cons, List.length_append,
    DataPublisher.length_frame, List.length_nil] at hlength
  omega

end Publishing

end Rpcmple.Cpp
