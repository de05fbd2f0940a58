import Rpcmple.Cpp.Arrivals

namespace Rpcmple.Cpp

open Data

namespace MessageManager

/-! The copies of `dataFlow`, for parsers that ask for sections of any length. -/

variable {σ : Type} (methods : Parser σ) (writeOk : List Bytes → Bytes → Bool)

def transferredBytes (mm : MessageManager σ) : Nat :=
  let left := (mm.bytesRead + 2 ^ 32 - mm.bytesParsed) % 2 ^ 32
  if left < mm.messageMissingBytes then left else mm.messageMissingBytes

/-- Where a copy is due, it stays inside both vectors, and a message it completes is
inside `message`. -/
def Safe (mm : MessageManager σ) : Prop :=
  mm.loop = .inner → mm.bytesParsed < mm.bytesRead →
    mm.messageLastIdx + mm.transferredBytes ≤ mm.message.length ∧
      mm.bytesParsed + mm.transferredBytes ≤ mm.bytesRead ∧
      (mm.transfer.messageMissingBytes = 0 →
        mm.transfer.messageLength ≤ mm.transfer.message.length)

/-- The branch that only sends leaves a length that `message` has room for. -/
def KeepsRoom (mm : MessageManager σ) : Prop :=
  mm.loop = .outer → mm.stopRequested = false → mm.messageLength = 0 →
    (mm.idle methods writeOk).messageLength ≤ mm.message.length

structure Roomy (mm : MessageManager σ) : Prop where
  sum : mm.messageLastIdx + mm.messageMissingBytes = mm.messageLength
  room : mm.messageLength ≤ mm.message.length
  small : mm.messageLength < 2 ^ 32
  chunks : ∀ chunk ∈ mm.incoming, chunk.length ≤ readBufferSize
  buffered : mm.loop = .inner ∨ mm.loop = .reply →
    mm.bytesRead = mm.readBuffer.length ∧ mm.bytesRead ≤ readBufferSize ∧
      mm.bytesParsed ≤ mm.bytesRead

variable {methods writeOk} {mm : MessageManager σ} {filled : Nat}

theorem transferredBytes_eq (hroomy : mm.Roomy) (hloop : mm.loop = .inner) :
    mm.transferredBytes = min (mm.bytesRead - mm.bytesParsed) mm.messageMissingBytes := by
  obtain ⟨-, hlimit, hparsed⟩ := hroomy.buffered (Or.inl hloop)
  have hcapacity : readBufferSize < 2 ^ 32 := by decide
  simp only [transferredBytes]
  split <;> omega

theorem transfer_length (hroom : mm.messageLastIdx + mm.transferredBytes ≤ mm.message.length)
    (hinside : mm.bytesParsed + mm.transferredBytes ≤ mm.readBuffer.length) :
    mm.transfer.message.length = mm.message.length := by
  change (overwrite mm.message ((mm.readBuffer.drop mm.bytesParsed).take
    mm.transferredBytes) mm.messageLastIdx).length = _
  simp only [overwrite, List.length_append, List.length_take, List.length_drop]
  omega

theorem Roomy.transfer (hroomy : mm.Roomy) (hloop : mm.loop = .inner) :
    mm.transfer.Roomy ∧ mm.transfer.message.length = mm.message.length := by
  obtain ⟨hread, hlimit, hparsed⟩ := hroomy.buffered (Or.inl hloop)
  have hmoved := transferredBytes_eq hroomy hloop
  have hcapacity : readBufferSize < 2 ^ 32 := by decide
  obtain ⟨hsum, hroom, hsmall, hchunks, -⟩ := hroomy
  have hlength := @transfer_length _ mm (by omega) (by omega)
  have hidx : mm.transfer.messageLastIdx = mm.messageLastIdx + mm.transferredBytes := by
    change (mm.messageLastIdx + mm.transferredBytes) % 2 ^ 32 = _
    omega
  have hmissing : mm.transfer.messageMissingBytes =
      mm.messageMissingBytes - mm.transferredBytes := by
    change (mm.messageMissingBytes + 2 ^ 32 - mm.transferredBytes) % 2 ^ 32 = _
    omega
  have hposition : mm.transfer.bytesParsed = mm.bytesParsed + mm.transferredBytes := by
    change (mm.bytesParsed + mm.transferredBytes) % 2 ^ 32 = _
    omega
  refine ⟨⟨?_, ?_, hsmall, hchunks, fun _ => ⟨hread, hlimit, ?_⟩⟩, hlength⟩
  · change _ = mm.messageLength
    omega
  · rw [hlength]
    exact hroom
  · change mm.transfer.bytesParsed ≤ mm.bytesRead
    omega

theorem Roomy.safe (hroomy : mm.Roomy) : mm.Safe := by
  intro hloop hmore
  obtain ⟨hread, hlimit, hparsed⟩ := hroomy.buffered (Or.inl hloop)
  have hmoved := transferredBytes_eq hroomy hloop
  have hsum := hroomy.sum
  have hroom := hroomy.room
  exact ⟨by omega, by omega, fun _ => (hroomy.transfer hloop).1.room⟩

theorem Roomy.moves {next : MessageManager σ} (hroomy : mm.Roomy)
    (hidx : next.messageLastIdx = mm.messageLastIdx)
    (hmissing : next.messageMissingBytes = mm.messageMissingBytes)
    (hlength : next.messageLength = mm.messageLength) (hmessage : next.message = mm.message)
    (hincoming : next.incoming = mm.incoming)
    (hbuffered : next.loop = .inner ∨ next.loop = .reply →
      next.bytesRead = next.readBuffer.length ∧ next.bytesRead ≤ readBufferSize ∧
        next.bytesParsed ≤ next.bytesRead) : next.Roomy where
  sum := by rw [hidx, hmissing, hlength, hroomy.sum]
  room := by rw [hlength, hmessage]; exact hroomy.room
  small := by rw [hlength]; exact hroomy.small
  chunks := by rw [hincoming]; exact hroomy.chunks
  buffered := hbuffered

theorem idle_roomy (hroomy : mm.Roomy) (hloop : mm.loop = .outer)
    (hkeeps : (mm.idle methods writeOk).messageLength ≤ mm.message.length) :
    (mm.idle methods writeOk).Roomy := by
  unfold idle at hkeeps ⊢
  cases hwrite : methods.writeMessage mm.parser [] with
  | none => exact hroomy
  | some result =>
      simp only [hwrite] at hkeeps ⊢
      cases hsend : send writeOk result 0 mm.written with
      | none =>
          exact hroomy.moves rfl rfl rfl rfl rfl (by rintro (hinner | hreply) <;> contradiction)
      | some sent =>
          simp only [hsend] at hkeeps ⊢
          refine ⟨Nat.zero_add _, hkeeps, (methods.getMessageLen sent.1).toNat_lt,
            hroomy.chunks, ?_⟩
          simp [hloop]

theorem dataFlow_roomy (hroomy : mm.Roomy) (hkeeps : mm.KeepsRoom methods writeOk) :
    (mm.dataFlow methods writeOk).Roomy := by
  unfold dataFlow
  cases hloop : mm.loop with
  | first =>
      simp only [firstMessage]
      split
      · split
        · exact hroomy
        · split
          · exact hroomy.moves rfl rfl rfl rfl rfl (by simp [stop])
          · exact hroomy.moves rfl rfl rfl rfl rfl (by simp)
      · exact hroomy.moves rfl rfl rfl rfl rfl (by simp)
  | outer =>
      simp only [outerRound]
      split
      · exact hroomy.moves rfl rfl rfl rfl rfl (by simp)
      · rename_i hstopped
        split
        · cases hincoming : mm.incoming with
          | nil => exact hroomy.moves rfl rfl rfl rfl hincoming.symm (by simp)
          | cons chunk incoming =>
              have hchunks := hroomy.chunks
              rw [hincoming, List.forall_mem_cons] at hchunks
              exact ⟨hroomy.sum, hroomy.room, hroomy.small, hchunks.2,
                fun _ => ⟨rfl, hchunks.1, Nat.zero_le _⟩⟩
        · rename_i hlength
          exact idle_roomy hroomy hloop (hkeeps hloop (by simpa using hstopped) (by omega))
  | inner =>
      obtain ⟨htransfer, -⟩ := hroomy.transfer hloop
      simp only [innerRound]
      split
      · split
        · unfold parse
          simp only
          split
          · exact htransfer.moves rfl rfl rfl rfl rfl
              fun _ => htransfer.buffered (Or.inl hloop)
          · exact htransfer.moves rfl rfl rfl rfl rfl (by simp [stop])
          all_goals exact htransfer.moves rfl rfl rfl rfl rfl (by simp)
        · exact htransfer
      · exact hroomy.moves rfl rfl rfl rfl rfl (by simp)
  | reply =>
      simp only [replyRound]
      split
      · exact hroomy
      · split
        · exact hroomy.moves rfl rfl rfl rfl rfl (by simp [stop])
        · rename_i sent _
          refine ⟨Nat.zero_add _, ?_, (methods.getMessageLen _).toNat_lt, hroomy.chunks,
            fun _ => hroomy.buffered (Or.inr hloop)⟩
          simp only [resize, List.length_append, List.length_take, List.length_replicate]
          omega
  | closed | terminated => exact hroomy

theorem init_roomy (parser : σ) {chunks : List Bytes}
    (hchunks : ∀ chunk ∈ chunks, chunk.length ≤ readBufferSize) :
    (init methods parser chunks).Roomy :=
  ⟨Nat.zero_add _, by simp [init], (methods.getMessageLen parser).toNat_lt, hchunks,
    by simp [init]⟩

/-- Between two reads, with `filled` bytes of a section that `message` is too short
for. -/
structure Cramped (filled : Nat) (mm : MessageManager σ) : Prop where
  outer : mm.loop = .outer
  running : mm.stopRequested = false
  idx : mm.messageLastIdx = filled
  sum : filled + mm.messageMissingBytes = mm.messageLength
  short : mm.message.length < mm.messageLength
  small : mm.messageLength < 2 ^ 32

theorem Cramped.reads (hcramped : mm.Cramped filled) {more : List Bytes}
    (hincoming : mm.incoming = [0] :: more) :
    ∃ next, mm.dataFlow methods writeOk = next ∧ next.loop = .inner ∧ next.bytesRead = 1 ∧
      next.bytesParsed = 0 ∧ next.readBuffer = [0] ∧ next.incoming = more ∧
      next.stopRequested = false ∧ next.message = mm.message ∧
      next.messageLength = mm.messageLength ∧ next.messageLastIdx = mm.messageLastIdx ∧
      next.messageMissingBytes = mm.messageMissingBytes := by
  obtain ⟨houter, hrunning, -, -, hshort, -⟩ := hcramped
  refine ⟨_, rfl, ?_⟩
  simp only [dataFlow, houter, outerRound, hrunning, Bool.false_eq_true, if_false,
    if_pos (Nat.zero_lt_of_lt hshort), hincoming]
  simp

theorem Cramped.overflows (hcramped : mm.Cramped mm.message.length) {more : List Bytes}
    (hincoming : mm.incoming = [0] :: more) : ¬ (mm.dataFlow methods writeOk).Safe := by
  obtain ⟨next, hnext, hloop, hread, hparsed, -, -, -, hmessage, -, hidx, hmissing⟩ :=
    @Cramped.reads _ methods writeOk _ _ hcramped _ hincoming
  have hsum := hcramped.sum
  have hshort := hcramped.short
  have hlast := hcramped.idx
  rw [hnext]
  intro hsafe
  have hmoved : next.transferredBytes = 1 := by
    simp only [transferredBytes, hread, hparsed]
    split <;> omega
  have hfirst := (hsafe hloop (by omega)).1
  rw [hmessage] at hfirst
  omega

theorem Cramped.fills (hcramped : mm.Cramped filled) (hroom : filled < mm.message.length)
    {more : List Bytes} (hincoming : mm.incoming = [0] :: more) :
    ∃ next, (dataFlow methods writeOk)^[3] mm = next ∧ next.Cramped (filled + 1) ∧
      next.message.length = mm.message.length ∧ next.incoming = more := by
  obtain ⟨next, hnext, hloop, hread, hparsed, hbuffer, hmore, hrunning, hmessage, hlength,
    hidx, hmissing⟩ := @Cramped.reads _ methods writeOk _ _ hcramped _ hincoming
  have hsum := hcramped.sum
  have hshort := hcramped.short
  have hlast := hcramped.idx
  have hsmall := hcramped.small
  have hmoved : next.transferredBytes = 1 := by
    simp only [transferredBytes, hread, hparsed]
    split <;> omega
  have hleft : next.transfer.messageMissingBytes = mm.messageMissingBytes - 1 := by
    change (next.messageMissingBytes + 2 ^ 32 - next.transferredBytes) % 2 ^ 32 = _
    omega
  have hplace : next.transfer.messageLastIdx = filled + 1 := by
    change (next.messageLastIdx + next.transferredBytes) % 2 ^ 32 = _
    omega
  have hdone : next.transfer.bytesParsed = 1 := by
    change (next.bytesParsed + next.transferredBytes) % 2 ^ 32 = _
    omega
  have hkept : next.transfer.message.length = mm.message.length := by
    rw [transfer_length _ _, hmessage]
    · rw [hidx, hlast, hmoved, hmessage]
      omega
    · rw [hparsed, hmoved, hbuffer]
      exact Nat.le.refl
  have hsecond : next.dataFlow methods writeOk = next.transfer := by
    rw [dataFlow, hloop]
    simp only [innerRound]
    rw [if_pos (by omega), if_neg (by omega)]
  have hthird : next.transfer.dataFlow methods writeOk =
      { next.transfer with loop := .outer } := by
    have hinner : next.transfer.loop = .inner := hloop
    have hend : ¬ next.transfer.bytesParsed < next.transfer.bytesRead := by
      change ¬ next.transfer.bytesParsed < next.bytesRead
      omega
    rw [dataFlow, hinner]
    simp only [innerRound, if_neg hend]
  refine ⟨{ next.transfer with loop := .outer }, ?_,
    ⟨rfl, hrunning, hplace, ?_, ?_, ?_⟩, hkept, hmore⟩
  · change ((mm.dataFlow methods writeOk).dataFlow methods writeOk).dataFlow methods writeOk = _
    rw [hnext, hsecond, hthird]
  · change filled + 1 + next.transfer.messageMissingBytes = next.messageLength
    omega
  · change next.transfer.message.length < next.messageLength
    omega
  · change next.messageLength < _
    omega

theorem Cramped.unsafe_fed {room : Nat} (hcramped : mm.Cramped filled)
    (hroom : filled + room = mm.message.length)
    (hincoming : mm.incoming = List.replicate (room + 1) [0]) :
    ∃ n, ¬ ((dataFlow methods writeOk)^[n] mm).Safe := by
  induction room generalizing mm filled with
  | zero =>
      obtain rfl : filled = mm.message.length := hroom
      exact ⟨1, hcramped.overflows hincoming⟩
  | succ room ih =>
      rw [List.replicate_succ] at hincoming
      obtain ⟨next, hnext, hcramped', hlength, hmore⟩ :=
        @Cramped.fills _ methods writeOk _ _ hcramped (by omega) _ hincoming
      obtain ⟨n, hn⟩ := ih hcramped' (by omega) hmore
      refine ⟨n + 3, ?_⟩
      rw [Function.iterate_add_apply, hnext]
      exact hn

theorem cramped_of_not_keepsRoom (hkeeps : ¬ mm.KeepsRoom methods writeOk) :
    (mm.dataFlow methods writeOk).Cramped 0 ∧
      (mm.dataFlow methods writeOk).message = mm.message := by
  unfold KeepsRoom at hkeeps
  push Not at hkeeps
  obtain ⟨hloop, hrunning, hzero, hshort⟩ := hkeeps
  have hstep : mm.dataFlow methods writeOk = mm.idle methods writeOk := by
    rw [dataFlow, hloop]
    simp only [outerRound, hrunning, Bool.false_eq_true, if_false, hzero, gt_iff_lt,
      lt_irrefl]
  rw [hstep]
  unfold idle at hshort ⊢
  cases hwrite : methods.writeMessage mm.parser [] with
  | none =>
      simp only [hwrite] at hshort
      omega
  | some result =>
      simp only [hwrite] at hshort ⊢
      cases hsend : send writeOk result 0 mm.written with
      | none =>
          simp only [hsend, stop] at hshort
          omega
      | some sent =>
          simp only [hsend] at hshort ⊢
          exact ⟨⟨hloop, hrunning, rfl, Nat.zero_add _, hshort,
            (methods.getMessageLen sent.1).toNat_lt⟩, trivial⟩

end MessageManager

/-- For a parser that asks for sections of any length, every copy of every run stays inside
its vectors exactly when in every run the branch that only sends is left for lengths that
the vector still has room for. -/
theorem dataFlow_safe_iff {σ : Type} (methods : Parser σ)
    (writeOk : List Bytes → Bytes → Bool) (parser : σ) :
    (∀ chunks : List Bytes, (∀ chunk ∈ chunks, chunk ≠ [] ∧ chunk.length ≤ readBufferSize) →
        Machine.Always (MessageManager.dataFlow methods writeOk) MessageManager.Safe
          (MessageManager.init methods parser chunks)) ↔
      ∀ chunks : List Bytes, (∀ chunk ∈ chunks, chunk ≠ [] ∧ chunk.length ≤ readBufferSize) →
        Machine.Always (MessageManager.dataFlow methods writeOk)
          (MessageManager.KeepsRoom methods writeOk)
          (MessageManager.init methods parser chunks) := by
  constructor
  · intro hsafe chunks hchunks n
    by_contra hkeeps
    obtain ⟨hcramped, hmessage⟩ := MessageManager.cramped_of_not_keepsRoom hkeeps
    have hnext := Function.iterate_succ_apply' (MessageManager.dataFlow methods writeOk) n
      (MessageManager.init methods parser chunks)
    rw [← hnext] at hcramped hmessage
    -- In place of what is still to come, one byte more than the vector holds.
    obtain ⟨consumed, hincoming, hrun⟩ := @MessageManager.iterate_expecting _ methods writeOk
      (MessageManager.init methods parser chunks) (n + 1) (by rw [hcramped.outer]; simp)
    generalize (MessageManager.dataFlow methods writeOk)^[n + 1]
      (MessageManager.init methods parser chunks) = mm at hcramped hincoming hrun
    have hbytes : ∀ chunk ∈ consumed ++ List.replicate (mm.message.length + 1) [0],
        chunk ≠ [] ∧ chunk.length ≤ readBufferSize := by
      intro chunk hmem
      rcases List.mem_append.mp hmem with hread | hbyte
      · apply hchunks
        rw [show chunks = consumed ++ mm.incoming from hincoming]
        exact List.mem_append_left _ hread
      · obtain rfl := List.eq_of_mem_replicate hbyte
        exact ⟨List.cons_ne_nil _ _, by decide⟩
    have hfed : (mm.expecting (List.replicate (mm.message.length + 1) [0])).Cramped 0 :=
      ⟨hcramped.outer, hcramped.running, hcramped.idx, hcramped.sum, hcramped.short,
        hcramped.small⟩
    obtain ⟨m, hm⟩ := @MessageManager.Cramped.unsafe_fed _ methods writeOk _ _ _ hfed
      (Nat.zero_add _) rfl
    apply hm
    rw [← hrun, ← Function.iterate_add_apply]
    exact hsafe _ hbytes _
  · intro hkeeps chunks hchunks n
    have hinit : (MessageManager.init methods parser chunks).Roomy :=
      MessageManager.init_roomy parser fun chunk hmem => (hchunks chunk hmem).2
    suffices hroomy : ((MessageManager.dataFlow methods writeOk)^[n]
        (MessageManager.init methods parser chunks)).Roomy from hroomy.safe
    have hall := hkeeps chunks hchunks
    induction n with
    | zero => exact hinit
    | succ n ih =>
        rw [Function.iterate_succ_apply']
        exact MessageManager.dataFlow_roomy ih (hall n)

def greets : Parser Bool where
  isRequester := false
  parseMessage greeted _ := .returns (true, greeted)
  getMessageLen greeted := if greeted then 8 else 0
  writeMessage _ _ := some (true, [1], true)

/-- Behind its greeting `message` is still empty, and the first byte read falls behind it. -/
theorem dataFlow_overruns :
    ¬ Machine.Always (MessageManager.dataFlow greets fun _ _ => true) MessageManager.Safe
      (MessageManager.init greets false [[7]]) := by
  intro hsafe
  obtain ⟨hroom, -⟩ := hsafe 3 rfl (by decide)
  revert hroom
  decide

end Rpcmple.Cpp
