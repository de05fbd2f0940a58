import Rpcmple.Cpp.FlowSteps
import Rpcmple.Cpp.Grouping
import Rpcmple.Cpp.Safety

namespace Rpcmple.Cpp

open Data System

namespace MessageManager

variable {σ : Type} (methods : Parser σ) (writeOk : List Bytes → Bytes → Bool)

/-- What `writeMessage` returns in this step, if the step calls it and it does not wait. -/
def made (mm : MessageManager σ) : Option (Bool × Bytes × σ) :=
  match mm.loop with
  | .first => if methods.isRequester then methods.writeMessage mm.parser [] else none
  | .outer =>
      if mm.stopRequested then none
      else if mm.messageLength > 0 then none
      else methods.writeMessage mm.parser []
  | .reply => methods.writeMessage mm.parser replyMessage
  | .inner | .closed | .terminated => none

/-- The size this place of the flow compares with the limit. -/
def checked (mm : MessageManager σ) (message : Bytes) : Nat :=
  match mm.loop with
  | .first => message.length
  | .reply => mm.message.length
  | .outer | .inner | .closed | .terminated => 0

/-- The result goes to `mConn->write`, which may still refuse it. -/
def hands (mm : MessageManager σ) (result : Bool × Bytes × σ) : Bool :=
  result.1 && !result.2.1.isEmpty && decide (mm.checked result.2.1 ≤ readBufferSize)

variable {methods writeOk} {mm : MessageManager σ} {result : Bool × Bytes × σ}

theorem dataFlow_made (hmade : mm.made methods = some result) :
    match send writeOk result (mm.checked result.2.1) mm.written with
    | none => mm.dataFlow methods writeOk = mm.stop
    | some sent =>
        (mm.dataFlow methods writeOk).parser = sent.1 ∧
          (mm.dataFlow methods writeOk).written = sent.2 ∧
          (mm.dataFlow methods writeOk).loop ≠ .closed := by
  cases hloop : mm.loop with
  | first =>
      simp only [made, hloop] at hmade
      split at hmade
      · rename_i hrequester
        rw [dataFlow_opens hloop hrequester hmade]
        simp only [checked, hloop]
        cases send writeOk result result.2.1.length mm.written with
        | none => rfl
        | some sent => exact ⟨rfl, rfl, by simp⟩
      · cases hmade
  | outer =>
      simp only [made, hloop] at hmade
      split at hmade
      · cases hmade
      · rename_i hrunning
        split at hmade
        · cases hmade
        · rename_i hzero
          rw [dataFlow_idles hloop (by simpa using hrunning) (by omega), idle_writes hmade]
          simp only [checked, hloop]
          cases send writeOk result 0 mm.written with
          | none => rfl
          | some sent => exact ⟨rfl, rfl, by simp⟩
  | reply =>
      simp only [made, hloop] at hmade
      have hnext : mm.dataFlow methods writeOk = mm.replyRound methods writeOk := by
        simp only [dataFlow, hloop]
      rw [hnext, replyRound, hmade]
      simp only [checked, hloop]
      cases send writeOk result mm.message.length mm.written with
      | none => rfl
      | some sent => exact ⟨rfl, rfl, by simp⟩
  | inner | closed | terminated =>
      simp only [made, hloop] at hmade
      cases hmade

theorem writeMessage_of_made (hmade : mm.made methods = some result) :
    ∃ buffer, methods.writeMessage mm.parser buffer = some result := by
  cases hloop : mm.loop with
  | first =>
      simp only [made, hloop] at hmade
      split at hmade
      · exact ⟨_, hmade⟩
      · cases hmade
  | outer =>
      simp only [made, hloop] at hmade
      split at hmade
      · cases hmade
      · split at hmade
        · cases hmade
        · exact ⟨_, hmade⟩
  | reply =>
      simp only [made, hloop] at hmade
      exact ⟨_, hmade⟩
  | inner | closed | terminated =>
      simp only [made, hloop] at hmade
      cases hmade

theorem dataFlow_unmade (hmade : mm.made methods = none) :
    (mm.dataFlow methods writeOk).written = mm.written ∧
      (mm.loop ≠ .inner → (mm.dataFlow methods writeOk).parser = mm.parser) := by
  cases hloop : mm.loop with
  | first =>
      simp only [made, hloop] at hmade
      split at hmade
      · rename_i hrequester
        have hnext : mm.dataFlow methods writeOk = mm := by
          simp only [dataFlow, hloop, firstMessage, if_pos hrequester, hmade]
        exact hnext.symm ▸ ⟨rfl, fun _ => rfl⟩
      · rename_i hother
        have hnext : mm.dataFlow methods writeOk = { mm with loop := .outer } := by
          simp only [dataFlow, hloop, firstMessage, if_neg hother]
        exact hnext.symm ▸ ⟨rfl, fun _ => rfl⟩
  | outer =>
      simp only [made, hloop] at hmade
      have hnext : mm.dataFlow methods writeOk = mm.outerRound methods writeOk := by
        simp only [dataFlow, hloop]
      rw [hnext, outerRound]
      split at hmade
      · rename_i hstopped
        rw [if_pos hstopped]
        exact ⟨rfl, fun _ => rfl⟩
      · rename_i hrunning
        rw [if_neg hrunning]
        split at hmade
        · rename_i hlength
          rw [if_pos hlength]
          cases mm.incoming with
          | nil | cons => exact ⟨rfl, fun _ => rfl⟩
        · rename_i hzero
          rw [if_neg hzero, idle, hmade]
          exact ⟨rfl, fun _ => rfl⟩
  | inner =>
      refine ⟨?_, fun hother => absurd rfl hother⟩
      simp only [dataFlow, hloop, innerRound]
      split
      · split
        · exact parse_cases.1
        · rfl
      · rfl
  | reply =>
      simp only [made, hloop] at hmade
      have hnext : mm.dataFlow methods writeOk = mm := by
        simp only [dataFlow, hloop, replyRound, hmade]
      exact hnext.symm ▸ ⟨rfl, fun _ => rfl⟩
  | closed | terminated =>
      have hnext : mm.dataFlow methods writeOk = mm := by simp only [dataFlow, hloop]
      exact hnext.symm ▸ ⟨rfl, fun _ => rfl⟩

/-- What is written is what was handed over and accepted, and a flow that hands over
nothing of what it has got was stopped, or there was nothing in it. -/
theorem dataFlow_hands (hmade : mm.made methods = some result) :
    (mm.dataFlow methods writeOk).written = mm.written ++
        (if mm.hands result && writeOk mm.written result.2.1 then [result.2.1] else []) ∧
      (mm.hands result = false → result.2.1 ≠ [] →
        (mm.dataFlow methods writeOk).loop = .closed) := by
  have hdata := @dataFlow_made _ _ writeOk _ _ hmade
  obtain ⟨success, message, parser⟩ := result
  rw [send] at hdata
  cases success with
  | false =>
      simp only [Bool.not_false, if_true] at hdata
      rw [hdata]
      simp [hands, stop]
  | true =>
      simp only [Bool.not_true, Bool.false_eq_true, if_false] at hdata
      by_cases hempty : message = []
      · subst hempty
        simp only [List.isEmpty_nil, if_true] at hdata
        rw [hdata.2.1]
        simp [hands]
      · have hfull : message.isEmpty = false := by simpa using hempty
        simp only [hfull, Bool.false_eq_true, if_false] at hdata
        by_cases hlong : mm.checked message > readBufferSize
        · simp only [if_pos hlong] at hdata
          rw [hdata]
          simp [hands, stop, not_le.mpr hlong]
        · simp only [if_neg hlong] at hdata
          have hhands : mm.hands (true, message, parser) = true := by
            simp [hands, hfull, not_lt.mp hlong]
          cases hok : writeOk mm.written message with
          | false =>
              simp only [hok, Bool.not_false, if_true] at hdata
              rw [hdata]
              simp [hhands, stop]
          | true =>
              simp only [hok, Bool.not_true, Bool.false_eq_true, if_false] at hdata
              rw [hdata.2.1]
              simp [hhands]

/-- An oversized vector is only made where its size is compared with the limit: as the
first message, or as the reply to a message that is oversized itself. -/
def Measured (methods : Parser σ) (mm : MessageManager σ) : Prop :=
  ∀ result, mm.made methods = some result → result.1 = true →
    readBufferSize < result.2.1.length →
      mm.loop = .first ∨ mm.loop = .reply ∧ readBufferSize < mm.message.length

theorem not_hands_iff (hlong : readBufferSize < result.2.1.length) :
    mm.hands result = false ↔
      (result.1 = true →
        mm.loop = .first ∨ mm.loop = .reply ∧ readBufferSize < mm.message.length) := by
  have hfull : result.2.1.isEmpty = false := by
    rw [List.isEmpty_eq_false_iff, ← List.length_pos_iff]
    omega
  have hchecked : readBufferSize < mm.checked result.2.1 ↔
      mm.loop = .first ∨ mm.loop = .reply ∧ readBufferSize < mm.message.length := by
    cases hloop : mm.loop with
    | first => simp [checked, hloop, hlong]
    | reply => simp [checked, hloop]
    | outer | inner | closed | terminated => simp [checked, hloop]
  rw [← hchecked, hands, hfull]
  cases result.1 with
  | false => simp
  | true => simp

end MessageManager

/-- A vector `writeMessage` returned, whether it was given to `mConn->write`, and whether
the flow stopped then. -/
structure Sent where
  message : Bytes
  handed : Bool
  stopped : Bool

structure Sending (σ : Type) where
  mm : MessageManager σ
  sent : List Sent

namespace Sending

inductive Action (σ : Type) where
  | flow
  | others (parser : σ)
  | stop

variable {σ : Type} (methods : Parser σ) (writeOk : List Bytes → Bytes → Bool)

def start (parser : σ) (incoming : List Bytes) : Sending σ where
  mm := MessageManager.init methods parser incoming
  sent := []

def sends (mm : MessageManager σ) : List Sent :=
  ((mm.made methods).map fun result =>
    { message := result.2.1
      handed := mm.hands result
      stopped := decide ((mm.dataFlow methods writeOk).loop = .closed) }).toList

def step (state : Sending σ) : Action σ → Option (Sending σ)
  | .flow =>
      some
        { mm := state.mm.dataFlow methods writeOk
          sent := state.sent ++ sends methods writeOk state.mm }
  | .others parser => some { state with mm := { state.mm with parser } }
  | .stop => some { state with mm := { state.mm with stopRequested := true } }

/-- Every vector given to `mConn->write` is small enough, and a larger one stopped the
flow. -/
def Limited (state : Sending σ) : Prop :=
  ∀ sent ∈ state.sent,
    (sent.handed = true → sent.message.length ≤ readBufferSize) ∧
      (readBufferSize < sent.message.length → sent.handed = false ∧ sent.stopped = true)

def Measured (state : Sending σ) : Action σ → Prop
  | .flow => state.mm.Measured methods
  | .others _ | .stop => True

variable {methods writeOk}

theorem sends_limited_iff {mm : MessageManager σ} :
    (∀ sent ∈ sends methods writeOk mm,
      (sent.handed = true → sent.message.length ≤ readBufferSize) ∧
        (readBufferSize < sent.message.length →
          sent.handed = false ∧ sent.stopped = true)) ↔ mm.Measured methods := by
  cases hmade : mm.made methods with
  | none => simp [sends, MessageManager.Measured, hmade]
  | some result =>
      have hstops := (@MessageManager.dataFlow_hands _ _ writeOk _ _ hmade).2
      simp only [sends, MessageManager.Measured, hmade, Option.map_some, Option.toList_some,
        List.forall_mem_singleton, Option.some.injEq, forall_eq', decide_eq_true_eq]
      by_cases hlong : readBufferSize < result.2.1.length
      · have hfull : result.2.1 ≠ [] := by
          rw [← List.length_pos_iff]
          omega
        rw [forall_comm]
        simp only [hlong, true_imp_iff]
        rw [← MessageManager.not_hands_iff hlong]
        constructor
        · exact fun hlimited => hlimited.2.1
        · intro hkept
          exact ⟨fun hhanded => absurd hhanded (by simp [hkept]), hkept, hstops hkept hfull⟩
      · simp only [hlong, false_imp_iff, implies_true, and_true, iff_true]
        exact fun _ => not_lt.mp hlong

theorem step_limited_iff {state next : Sending σ} {action : Action σ}
    (hstep : step methods writeOk state action = some next) :
    next.Limited ↔ state.Limited ∧ state.Measured methods action := by
  cases action with
  | flow =>
      cases hstep
      rw [Limited, List.forall_mem_append, sends_limited_iff]
      rfl
  | others | stop =>
      cases hstep
      exact (and_iff_left trivial).symm

/-- No oversized vector is given to `mConn->write` in the runs that make none in the
branches without a check. -/
theorem limited_iff {parser : σ} {incoming : List Bytes} {actions : List (Action σ)}
    {final : Sending σ}
    (hrun : run (step methods writeOk) (start methods parser incoming) actions = some final) :
    final.Limited ↔
      Meets (step methods writeOk) (Measured methods) (start methods parser incoming)
        actions := by
  rw [run_iff_meets (P := Limited) (fun _ _ _ hstep => step_limited_iff hstep) hrun]
  exact and_iff_right fun sent hmem => absurd hmem List.not_mem_nil

end Sending

namespace DataPublisher

variable {host : Platform} {mm : MessageManager DataPublisher}

theorem measured_iff (hloop : mm.loop = .outer) (hrunning : mm.stopRequested = false)
    (hzero : mm.messageLength = 0) (hwaits : mm.parser.stopWait = false) :
    mm.Measured (methods host) ↔
      size (group mm.parser.groupMessages 0 mm.parser.messageStack) ≤ readBufferSize := by
  have hmade : mm.made (methods host) = writeMessage host mm.parser [] := by
    simp [MessageManager.made, hloop, hrunning, hzero, methods]
  simp only [MessageManager.Measured, hmade, hloop, writeMessage, hwaits]
  have hspec := @sendLoop_spec host mm.parser.groupMessages mm.parser.messageStack []
  simp only [List.length_nil, List.nil_append] at hspec
  cases hstack : mm.parser.messageStack with
  | nil => simp [group, size]
  | cons stackMessage messageStack =>
      rw [hstack] at hspec
      rcases hspec with ⟨rest, -, hsent⟩ | ⟨bad, rest, -, -, hsmall, -, hsent⟩
      · rw [← @length_frames host]
        simp [hsent]
      · rw [length_frames] at hsmall
        have hfits : size (group mm.parser.groupMessages 0 (stackMessage :: messageStack)) ≤
            readBufferSize := by
          rw [readBufferSize]
          omega
        simp [hsent, hfits]

theorem measured_single (hloop : mm.loop = .outer) (hrunning : mm.stopRequested = false)
    (hzero : mm.messageLength = 0) (hwaits : mm.parser.stopWait = false)
    (hsingle : mm.parser.groupMessages = false) : mm.Measured (methods host) := by
  rw [measured_iff hloop hrunning hzero hwaits, hsingle]
  cases mm.parser.messageStack with
  | nil => simp [group, size]
  | cons stackMessage messageStack =>
      rw [group]
      split
      · rename_i hfits
        simp only [Bool.false_eq_true, if_false, size, List.map_cons, List.map_nil,
          List.sum_cons, List.sum_nil, readBufferSize]
        omega
      · simp [size]

def fullTexts : List Bytes :=
  List.replicate 255 (List.replicate 65535 0) ++ [List.replicate 65277 0]

theorem fullTexts_fits : (Value.strings fullTexts).Fits := by
  refine ⟨by rw [fullTexts, List.length_append, List.length_replicate]; decide, ?_⟩
  intro text hmem
  rcases List.mem_append.mp hmem with hmany | hlast
  · rw [List.eq_of_mem_replicate hmany, List.length_replicate]
    decide
  · rw [List.mem_singleton.mp hlast, List.length_replicate]
    decide

theorem fullTexts_size : (fullTexts.map fun text => 2 + text.length).sum = 16777214 := by
  rw [fullTexts, List.map_append, List.map_replicate, List.sum_append, List.sum_replicate,
    List.map_singleton, List.sum_singleton, List.length_replicate, List.length_replicate]
  rfl

theorem size_full_group {first second : Bytes} (hshort : first.length < 1000)
    (hlong : second.length = 16777216) :
    size (group true 0 [first, second]) = 16777224 + first.length := by
  have hfirst : (0 : Nat) < 1024 ∧ first.length ≤ 16777216 := by omega
  have hsecond : 0 + 4 + first.length < 1024 ∧ second.length ≤ 16777216 := by omega
  rw [group, if_pos hfirst, if_pos rfl, group, if_pos hsecond, if_pos rfl, group]
  simp only [size, List.map_cons, List.map_nil, List.sum_cons, List.sum_nil, hlong]
  omega

end DataPublisher

namespace Sending

open RpcServer (takesAll)

theorem limited_greeting :
    ∃ final, run (step greets fun _ _ => true) (start greets false []) [.flow, .flow] =
        some final ∧
      (final.Limited ↔
        Meets (step greets fun _ _ => true) (Measured greets) (start greets false [])
          [.flow, .flow]) :=
  ⟨_, rfl, limited_iff rfl⟩

private theorem group_unmeasured {second : Bytes} (hlong : second.length = 16777216) :
    ∃ middle, run (step (DataPublisher.methods plainPlatform) takesAll)
        (start (DataPublisher.methods plainPlatform) ⟨[[0, 0]], false, true⟩ [])
        [.flow, .others ⟨[[0, 0], second], false, true⟩] = some middle ∧
      ¬ middle.mm.Measured (DataPublisher.methods plainPlatform) := by
  refine ⟨_, rfl, ?_⟩
  rw [DataPublisher.measured_iff rfl rfl rfl rfl]
  change ¬ DataPublisher.size (DataPublisher.group true 0 [[0, 0], second]) ≤ readBufferSize
  rw [DataPublisher.size_full_group (by decide) hlong]
  decide

/-- Two messages that are small enough, in one vector that is not. -/
theorem group_written_oversized :
    ∃ second, DataPublisher.encoded plainPlatform [DataType.S.char] [.value (.strings [])] =
        .returns (some [0, 0]) ∧
      DataPublisher.encoded plainPlatform [DataType.S.char]
        [.value (.strings DataPublisher.fullTexts)] = .returns (some second) ∧
      ∃ final, run (step (DataPublisher.methods plainPlatform) takesAll)
          (start (DataPublisher.methods plainPlatform) ⟨[[0, 0]], false, true⟩ [])
          [.flow, .others ⟨[[0, 0], second], false, true⟩, .flow] = some final ∧
        ¬ final.Limited := by
  obtain ⟨second, hsecond, hlong⟩ :=
    Publishing.encoded_strings plainPlatform DataPublisher.fullTexts_fits
      (by rw [DataPublisher.fullTexts_size]; norm_num)
  rw [DataPublisher.fullTexts_size] at hlong
  obtain ⟨middle, hmiddle, hlarge⟩ := group_unmeasured hlong
  obtain ⟨final, hfinal⟩ :
      ∃ final, step (DataPublisher.methods plainPlatform) takesAll middle .flow = some final :=
    ⟨_, rfl⟩
  refine ⟨second, ?_, hsecond, final, ?_, ?_⟩
  · have hnarrow : Narrow [DataType.S.char] := by
      intro char hmem dataType hchar
      rw [List.mem_singleton.mp hmem, DataType.ofChar?_char] at hchar
      cases hchar
      rfl
    exact @DataPublisher.encoded_of_typed plainPlatform _ [.strings []] hnarrow
      (.cons ⟨.S, DataType.ofChar?_char .S, Or.inr rfl⟩ .nil) (by decide) (by decide)
  · exact run_append hmiddle ((bind_pure _).trans hfinal)
  · rw [step_limited_iff hfinal]
    exact fun hlimited => hlarge hlimited.2

end Sending

end Rpcmple.Cpp
