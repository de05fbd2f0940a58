import Rpcmple.Cpp.Waiting
import Rpcmple.Go.Waiting

namespace Rpcmple

open Data System

namespace PublishComplete

/-- Where the wait does not end between the parser and the connection, all that was published
before it began has been given to the connection's write. -/
theorem waits_until_written (host : Cpp.Platform) (signature : DataSignature)
    (writeOk : List Bytes → Bytes → Bool) (groupMessages : Bool) :
    (∀ (waiting next : Waiting Cpp.Publishing Nat) (index published : Nat),
      Reaches (Waiting.step (Cpp.Publishing.step host signature writeOk) Cpp.Publishing.count
          Cpp.Publishing.drained) Cpp.Publishing.Waits
        ⟨Cpp.Publishing.start host groupMessages, []⟩ waiting →
      Cpp.Publishing.Waits waiting (.return index) →
      Waiting.step (Cpp.Publishing.step host signature writeOk) Cpp.Publishing.count
        Cpp.Publishing.drained waiting (.return index) = some next →
      waiting.waits[index]? = some published →
      ∃ refused, (waiting.state.mm.written ++ refused).flatten =
          waiting.state.bodies.flatMap (Cpp.DataPublisher.frame host) ∧
        Refusal writeOk waiting.state.mm.written refused ∧
        published ≤ waiting.state.bodies.length) ∧
    ∀ (waiting next : Waiting Go.DataPublisher (List Nat)) (index : Nat) (calls : List Nat),
      Reaches (Waiting.step (Go.DataPublisher.step signature writeOk) Go.DataPublisher.returned
          Go.DataPublisher.ready) Go.DataPublisher.Waits
        ⟨Go.DataPublisher.NewDataPublisher, []⟩ waiting →
      Go.DataPublisher.Waits waiting (.return index) →
      Waiting.step (Go.DataPublisher.step signature writeOk) Go.DataPublisher.returned
        Go.DataPublisher.ready waiting (.return index) = some next →
      waiting.waits[index]? = some calls →
      ∃ refused, List.Forall₂ (Go.DataPublisher.FrameOf signature waiting.state.publishes)
          waiting.state.sent (waiting.state.written ++ refused) ∧
        Refusal writeOk waiting.state.written refused ∧
        ∀ call ∈ calls, call ∈ waiting.state.sent :=
  ⟨fun _ _ _ _ hreaches hwaits hreturn hpublished =>
      Cpp.Publishing.waited_given hreaches hwaits hreturn hpublished,
    fun _ _ _ _ hreaches hwaits hreturn hcalls =>
      Go.DataPublisher.waited_given hreaches hwaits hreturn hcalls⟩

open Cpp (plainPlatform)

def cppStep : Waiting Cpp.Publishing Nat → Waiting.Action Cpp.Publishing.Action →
    Option (Waiting Cpp.Publishing Nat) :=
  Waiting.step (Cpp.Publishing.step plainPlatform Cpp.Publishing.noteSignature
    Cpp.RpcServer.takesAll) Cpp.Publishing.count Cpp.Publishing.drained

def goStep : Waiting Go.DataPublisher (List Nat) → Waiting.Action Go.DataPublisher.Action →
    Option (Waiting Go.DataPublisher (List Nat)) :=
  Waiting.step (Go.DataPublisher.step [DataType.u.char] Go.DataPublisher.allWrites)
    Go.DataPublisher.returned Go.DataPublisher.ready

open Cpp.Publishing (note noteBody twoNotes publish_note twoNotes_sends twoNotes_written) in
theorem reaches_notes {allowed : Waiting Cpp.Publishing Nat →
      Waiting.Action Cpp.Publishing.Action → Prop}
    (hother : ∀ waiting data, allowed waiting (.other (.publish data)))
    (hbegin : ∀ waiting, allowed waiting .begin) :
    Reaches cppStep allowed ⟨Cpp.Publishing.start plainPlatform true, []⟩ ⟨twoNotes, [2]⟩ := by
  have hstart : Reaches cppStep allowed ⟨Cpp.Publishing.start plainPlatform true, []⟩
      ⟨Cpp.Publishing.start plainPlatform true, []⟩ := .start
  have hpublish : ∀ (state : Cpp.Publishing) (number : UInt64) (text : Bytes),
      text.length ≤ 65535 →
      cppStep ⟨state, []⟩ (.other (.publish ((note number text).map .value))) =
        some ⟨state.pushed ((note number text).map .value) (noteBody number text), []⟩ := by
    intro state number text htext
    simp only [cppStep, Waiting.step, publish_note state number htext, Option.map_some]
  have hfirst := hstart.next _ (hother _ _) (hpublish _ 5 [65] (by decide))
  have hsecond := hfirst.next _ (hother _ _) (hpublish _ 7 [66, 67] (by decide))
  exact hsecond.next .begin (hbegin _) rfl

def waitForNumber : List (Waiting.Action Go.DataPublisher.Action) :=
  (Go.DataPublisher.publishNumber 0 none none 5).map .other ++
    [.other (.run 0 none 0), .begin]

def numberTaken : List (Waiting.Action Go.DataPublisher.Action) :=
  waitForNumber ++ List.replicate 6 (.other .flow)

def numberWritten : List (Waiting.Action Go.DataPublisher.Action) :=
  waitForNumber ++ List.replicate 7 (.other .flow)

def fresh : Waiting.Action Go.DataPublisher.Action → Bool
  | .other action => action.fresh
  | .begin => true
  | .return _ => false

theorem waits_of_fresh {action : Waiting.Action Go.DataPublisher.Action}
    (hfresh : fresh action = true) (waiting : Waiting Go.DataPublisher (List Nat)) :
    Go.DataPublisher.Waits waiting action := by
  cases action with
  | other action => exact Go.DataPublisher.getsReset_of_fresh hfresh waiting.state
  | begin => trivial
  | «return» index => cases hfresh

theorem waits_until_written_notes :
    (∃ waiting next, cppStep waiting (.return 0) = some next ∧ waiting.waits = [2] ∧
      waiting.state.mm.written.length = 1 ∧
      waiting.state.mm.written.flatten =
        waiting.state.bodies.flatMap (Cpp.DataPublisher.frame plainPlatform) ∧
      waiting.state.bodies.length = 2) ∧
    ∃ waiting next, goStep waiting (.return 0) = some next ∧ waiting.waits = [[0]] ∧
      waiting.state.written = [[8, 0, 0, 1, 5, 0, 0, 0, 0, 0, 0, 0]] ∧
      0 ∈ waiting.state.sent := by
  constructor
  · obtain ⟨taken, final, htake, hwrite, hfinished, hstack, hpublished, hwritten⟩ :=
      Cpp.Publishing.twoNotes_written
    have htaken : cppStep ⟨Cpp.Publishing.twoNotes, [2]⟩ (.other .take) = some ⟨taken, [2]⟩ := by
      simp only [cppStep, Waiting.step, htake, Option.map_some]
    have hfinal : cppStep ⟨taken, [2]⟩ (.other .write) = some ⟨final, [2]⟩ := by
      simp only [cppStep, Waiting.step, hwrite, Option.map_some]
    have hhead : ∀ message ∈ Cpp.Publishing.twoNotes.stack.head?, message.length ≤ 16777216 := by
      intro message hmem
      obtain rfl := Option.some.inj hmem
      simp [Cpp.Publishing.length_noteBody]
    have hreaches := ((@reaches_notes Cpp.Publishing.Waits (fun _ _ => trivial)
      fun _ => trivial).next (.other .take) ⟨Cpp.Publishing.twoNotes_sends, hhead⟩ htaken).next
        (.other .write) trivial hfinal
    have hreturn : cppStep ⟨final, [2]⟩ (.return 0) = some ⟨final, []⟩ := by
      simp [cppStep, Waiting.step, Cpp.Publishing.drained, hstack]
    obtain ⟨refused, hgiven, hrefusal, hle⟩ := (waits_until_written plainPlatform
      Cpp.Publishing.noteSignature Cpp.RpcServer.takesAll true).1 _ _ 0 2 hreaches
      hfinished.1 hreturn rfl
    have hnone : refused = [] := by
      rcases hrefusal with hnone | ⟨message, -, hrefused⟩
      · exact hnone
      · cases hrefused
    rw [hnone, List.append_nil] at hgiven
    refine ⟨⟨final, [2]⟩, _, hreturn, rfl, by rw [hwritten]; rfl, hgiven, ?_⟩
    rw [Cpp.Publishing.bodies, hpublished]
    rfl
  · have hrun : ∃ waiting next, run goStep ⟨Go.DataPublisher.NewDataPublisher, []⟩
        numberWritten = some waiting ∧
        goStep waiting (.return 0) = some next ∧ waiting.waits = [[0]] ∧
        waiting.state.flow = .loop ∧ waiting.state.written =
          [[8, 0, 0, 1, 5, 0, 0, 0, 0, 0, 0, 0]] := ⟨_, _, rfl, rfl, rfl, rfl, rfl⟩
    obtain ⟨waiting, next, hrun, hreturn, hwaits, hflow, hwritten⟩ := hrun
    have hall : ∀ action ∈ numberWritten, ∀ waiting, Go.DataPublisher.Waits waiting action := by
      intro action hmem
      have hfresh : numberWritten.all fresh = true := by decide
      exact waits_of_fresh (List.all_eq_true.mp hfresh action hmem)
    have hreaches := reaches_of_run hall hrun
    have hplace : Go.DataPublisher.Waits waiting (.return 0) := by
      intro first result message hother
      rw [hflow] at hother
      cases hother
    obtain ⟨-, -, -, hsent⟩ := (waits_until_written plainPlatform [DataType.u.char]
      Go.DataPublisher.allWrites false).2 waiting next 0 [0] hreaches hplace hreturn
      (by rw [hwaits]; rfl)
    exact ⟨waiting, next, hreturn, hwaits, hwritten, hsent 0 List.mem_cons_self⟩

/-- On both sides the wait ends as soon as the message is off the queue. -/
theorem wait_ends_before_write :
    (∃ waiting next, Reachable cppStep ⟨Cpp.Publishing.start plainPlatform true, []⟩ waiting ∧
      cppStep waiting (.return 0) = some next ∧ waiting.waits = [2] ∧
      waiting.state.published.length = 2 ∧ waiting.state.mm.written = []) ∧
    ∃ waiting next, Reachable goStep ⟨Go.DataPublisher.NewDataPublisher, []⟩ waiting ∧
      goStep waiting (.return 0) = some next ∧ waiting.waits = [[0]] ∧
      waiting.state.written = [] := by
  constructor
  · obtain ⟨taken, final, htake, -, -, -, -, -⟩ := Cpp.Publishing.twoNotes_written
    have htaken : cppStep ⟨Cpp.Publishing.twoNotes, [2]⟩ (.other .take) = some ⟨taken, [2]⟩ := by
      simp only [cppStep, Waiting.step, htake, Option.map_some]
    obtain rfl := Option.some.inj htake
    exact ⟨_, _, (reaches_notes (fun _ _ => trivial) fun _ => trivial).next _ trivial htaken,
      rfl, rfl, rfl, rfl⟩
  · have hrun : ∃ waiting next, run goStep ⟨Go.DataPublisher.NewDataPublisher, []⟩
        numberTaken = some waiting ∧
        goStep waiting (.return 0) = some next ∧ waiting.waits = [[0]] ∧
        waiting.state.written = [] := ⟨_, _, rfl, rfl, rfl, rfl⟩
    obtain ⟨waiting, next, hrun, hreturn⟩ := hrun
    exact ⟨waiting, next, reaches_of_run (fun _ _ _ => trivial) hrun, hreturn⟩

end PublishComplete

end Rpcmple
