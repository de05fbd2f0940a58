import Rpcmple.Cpp.Framing
import Rpcmple.Cpp.Publishing

namespace Rpcmple.Cpp

open Data

namespace MessageManager

variable {σ : Type} {methods : Parser σ} {writeOk : List Bytes → Bytes → Bool} {I : σ → Prop}
  {mm : MessageManager σ}

/-! A flow that another thread may ask to stop. -/

def running (mm : MessageManager σ) : MessageManager σ := { mm with stopRequested := false }

theorem running_parse : (mm.parse methods).running = (mm.running.parse methods).running := by
  simp only [parse, running]
  cases methods.parseMessage mm.parser (mm.message.take mm.messageLength) with
  | returns result =>
      obtain ⟨success, parser⟩ := result
      cases success <;> rfl
  | dies parser => rfl

/-- Only at the head of the outer loop does the flow look whether it is to stop. -/
theorem running_dataFlow (hgoes : mm.loop = .outer → mm.stopRequested = false) :
    (mm.dataFlow methods writeOk).running = (mm.running.dataFlow methods writeOk).running := by
  have hloop : mm.running.loop = mm.loop := rfl
  unfold dataFlow
  rw [hloop]
  cases hplace : mm.loop with
  | first =>
      simp only [firstMessage, running, stop]
      split
      · split
        · rfl
        · rename_i result _
          cases send writeOk result result.2.1.length mm.written <;> rfl
      · rfl
  | outer =>
      have hsame : mm.running = mm := by rw [running, ← hgoes hplace]
      rw [hsame]
  | inner =>
      have htransfer : mm.running.transfer = mm.transfer.running := rfl
      have hmissing : mm.transfer.running.messageMissingBytes =
          mm.transfer.messageMissingBytes := rfl
      simp only [innerRound, htransfer, hmissing]
      by_cases hmore : mm.bytesParsed < mm.bytesRead
      · have hmore' : mm.running.bytesParsed < mm.running.bytesRead := hmore
        rw [if_pos hmore, if_pos hmore']
        split
        · exact running_parse
        · rfl
      · have hmore' : ¬ mm.running.bytesParsed < mm.running.bytesRead := hmore
        rw [if_neg hmore, if_neg hmore']
        rfl
  | reply =>
      simp only [replyRound, running, stop]
      split
      · rfl
      · rename_i result _
        cases send writeOk result mm.message.length mm.written <;> rfl
  | closed | terminated => rfl

theorem Ready.running (hready : Ready methods I mm) : Ready methods I mm.running := by
  refine ⟨hready.counted, hready.small, hready.chunks, ?_⟩
  have hplaced := hready.placed
  have hloop : mm.running.loop = mm.loop := rfl
  unfold Placed at hplaced ⊢
  rw [hloop]
  cases hplace : mm.loop with
  | first =>
      rw [hplace] at hplaced
      exact ⟨hplaced.1, rfl, hplaced.2.2⟩
  | outer | inner | reply =>
      rw [hplace] at hplaced
      exact ⟨hplaced.1, rfl, hplaced.2.2⟩
  | closed | terminated => trivial

theorem ready_dataFlow (hsectional : Sectional methods I) (hready : Ready methods I mm.running) :
    Ready methods I (mm.dataFlow methods writeOk).running := by
  by_cases hstops : mm.loop = .outer ∧ mm.stopRequested = true
  · obtain ⟨hloop, hstopped⟩ := hstops
    rw [dataFlow, hloop]
    simp only [outerRound, if_pos hstopped]
    exact ⟨hready.counted, hready.small, hready.chunks, trivial⟩
  · have hgoes : mm.loop = .outer → mm.stopRequested = false := by
      intro hloop
      simpa using fun hstopped => hstops ⟨hloop, hstopped⟩
    rw [running_dataFlow hgoes]
    exact (dataFlow_spec hsectional hready).1.running

def Asked (methods : Parser σ) (mm : MessageManager σ) : Prop :=
  mm.loop = .first ∨ mm.loop = .outer ∨ mm.loop = .inner →
    mm.messageLength = (methods.getMessageLen mm.parser).toNat

theorem parse_cases :
    (mm.parse methods).written = mm.written ∧
      (mm.parse methods).parsed =
        mm.parsed ++ [(mm.parser, mm.message.take mm.messageLength)] ∧
      (methods.parseMessage mm.parser (mm.message.take mm.messageLength) =
            .returns (true, (mm.parse methods).parser) ∧ (mm.parse methods).loop = .reply ∨
        (∀ following, methods.parseMessage mm.parser (mm.message.take mm.messageLength) ≠
            .returns (true, following)) ∧
          ((mm.parse methods).loop = .closed ∨ (mm.parse methods).loop = .terminated)) := by
  unfold parse
  simp only
  cases hparse : methods.parseMessage mm.parser (mm.message.take mm.messageLength) with
  | returns result =>
      obtain ⟨success, parser⟩ := result
      cases success with
      | true => exact ⟨rfl, rfl, Or.inl ⟨rfl, rfl⟩⟩
      | false => exact ⟨rfl, rfl, Or.inr ⟨fun _ => by simp, Or.inl rfl⟩⟩
  | dies parser =>
      exact ⟨rfl, rfl, Or.inr ⟨fun _ => by simp, Or.inr rfl⟩⟩

theorem dataFlow_reads (hready : Ready methods I mm.running) (hasked : mm.Asked methods)
    (hplace : mm.loop = .outer ∨ mm.loop = .inner) :
    let next := mm.dataFlow methods writeOk
    next.written = mm.written ∧
      ((next.parser = mm.parser ∧ next.parsed = mm.parsed ∧
          next.messageLength = mm.messageLength ∧
          (next.loop = .outer ∨ next.loop = .inner ∨ next.loop = .closed)) ∨
        ∃ piece, piece.length = (methods.getMessageLen mm.parser).toNat ∧
          next.parsed = mm.parsed ++ [(mm.parser, piece)] ∧
          (methods.parseMessage mm.parser piece = .returns (true, next.parser) ∧
              next.loop = .reply ∨
            (∀ following, methods.parseMessage mm.parser piece ≠ .returns (true, following)) ∧
              (next.loop = .closed ∨ next.loop = .terminated))) := by
  intro next
  have hplaced := hready.placed
  rcases hplace with hloop | hloop
  · have hrunning : mm.running.loop = .outer := hloop
    simp only [Placed, hrunning] at hplaced
    have hpositive : mm.messageLength > 0 := by
      have hsum := hready.counted.1
      have hmissing := hplaced.2.2
      change mm.messageLastIdx + mm.messageMissingBytes = mm.messageLength at hsum
      change 0 < mm.messageMissingBytes at hmissing
      omega
    have hnext : next = mm.outerRound methods writeOk := by
      simp only [next, dataFlow, hloop]
    rw [hnext, outerRound]
    split
    · exact ⟨rfl, Or.inl ⟨rfl, rfl, rfl, Or.inr (Or.inr rfl)⟩⟩
    · cases mm.incoming with
      | nil => exact ⟨rfl, Or.inl ⟨rfl, rfl, rfl, Or.inr (Or.inr rfl)⟩⟩
      | cons chunk incoming => exact ⟨rfl, Or.inl ⟨rfl, rfl, rfl, Or.inr (Or.inl rfl)⟩⟩
  · have hrunning : mm.running.loop = .inner := hloop
    simp only [Placed, hrunning] at hplaced
    have hnext : next = mm.innerRound methods := by simp only [next, dataFlow, hloop]
    rw [hnext, innerRound]
    split
    · split
      · -- The section is whole: its length is what was asked for.
        have hcounted := (@transfer_spec _ mm.running hready.counted hplaced.2.2.2 hready.small
          _ rfl).2.2.2.1
        have hlength : (mm.transfer.message.take mm.transfer.messageLength).length =
            (methods.getMessageLen mm.parser).toNat := by
          have hsize : mm.transfer.messageLength = mm.transfer.message.length := hcounted.2.1
          rw [hsize, List.take_length, ← hsize]
          exact hasked (Or.inr (Or.inr hloop))
        obtain ⟨hwritten, hparsed, hcases⟩ := @parse_cases _ methods mm.transfer
        exact ⟨hwritten, Or.inr ⟨_, hlength, hparsed, hcases⟩⟩
      · exact ⟨rfl, Or.inl ⟨rfl, rfl, rfl, Or.inr (Or.inl hloop)⟩⟩
    · exact ⟨rfl, Or.inl ⟨rfl, rfl, rfl, Or.inl rfl⟩⟩

theorem send_cases {result : Bool × Bytes × σ} {checked : Nat} {written : List Bytes}
    {sent : σ × List Bytes} (hsend : send writeOk result checked written = some sent) :
    result.1 = true ∧ sent.1 = result.2.2 ∧
      sent.2 = written ++ (if result.2.1.isEmpty then [] else [result.2.1]) := by
  obtain ⟨hsuccess, hparser⟩ := send_eq_some hsend
  refine ⟨hsuccess, hparser, ?_⟩
  obtain ⟨success, message, parser⟩ := result
  simp only [send] at hsend
  split at hsend
  · cases hsend
  · split at hsend
    · rename_i hempty
      cases hsend
      simp [hempty]
    · rename_i hfull
      split at hsend
      · cases hsend
      · split at hsend
        · cases hsend
        · cases hsend
          simp [hfull]

theorem dataFlow_writes {success : Bool} {message : Bytes}
    (hrequester : methods.isRequester = true) (hplace : mm.loop = .first ∨ mm.loop = .reply) :
    let next := mm.dataFlow (methods.holding (success, message)) writeOk
    next.parser = mm.parser ∧ next.parsed = mm.parsed ∧
      (next.loop = .closed ∧ next.written = mm.written ∨
        success = true ∧ (next.loop = .outer ∨ next.loop = .inner) ∧
          next.written = mm.written ++ (if message.isEmpty then [] else [message]) ∧
          (mm.Asked methods → next.messageLength = (methods.getMessageLen mm.parser).toNat)) := by
  intro next
  rcases hplace with hloop | hloop
  · have hnext : next = _ := @dataFlow_opens _ (methods.holding (success, message)) writeOk mm
      hloop hrequester (success, message, mm.parser) rfl
    rw [hnext]
    cases hsend : send writeOk (success, message, mm.parser) message.length mm.written with
    | none => exact ⟨rfl, rfl, Or.inl ⟨rfl, rfl⟩⟩
    | some sent =>
        obtain ⟨hsuccess, hparser, hwritten⟩ := send_cases hsend
        exact ⟨hparser, rfl, Or.inr ⟨hsuccess, Or.inl rfl, hwritten,
          fun hasked => hasked (Or.inl hloop)⟩⟩
  · have hnext : next = mm.replyRound (methods.holding (success, message)) writeOk := by
      simp only [next, dataFlow, hloop]
    rw [hnext]
    simp only [replyRound, Parser.holding]
    cases hsend : send writeOk (success, message, mm.parser) mm.message.length mm.written with
    | none => exact ⟨rfl, rfl, Or.inl ⟨rfl, rfl⟩⟩
    | some sent =>
        obtain ⟨hsuccess, hparser, hwritten⟩ := send_cases hsend
        have hlength : (methods.getMessageLen sent.1).toNat =
            (methods.getMessageLen mm.parser).toNat := by rw [hparser]
        exact ⟨hparser, rfl, Or.inr ⟨hsuccess, Or.inr rfl, hwritten, fun _ => hlength⟩⟩

end MessageManager

end Rpcmple.Cpp
