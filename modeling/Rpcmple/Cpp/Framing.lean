import Rpcmple.Cpp.Sections
import Rpcmple.Data.Machine

namespace Rpcmple.Cpp

open Data

namespace MessageManager

variable {σ : Type} (methods : Parser σ) (writeOk : List Bytes → Bytes → Bool)

/-- A parser of sections: `getMessageLen` is positive wherever `I` holds, and
successful calls keep `I`. -/
structure Sectional (I : σ → Prop) : Prop where
  positive : ∀ parser, I parser → 0 < (methods.getMessageLen parser).toNat
  parses : ∀ parser piece next, I parser →
    methods.parseMessage parser piece = .returns (true, next) → I next
  writes : ∀ parser message reply next, I parser →
    methods.writeMessage parser message = some (true, reply, next) → I next

/-- The counters add up to the size of `message`, and no copy left its vectors. -/
def Counted (mm : MessageManager σ) : Prop :=
  mm.messageLastIdx + mm.messageMissingBytes = mm.messageLength ∧
    mm.messageLength = mm.message.length ∧ mm.inBounds = true

def filled (mm : MessageManager σ) : Bytes := mm.message.take mm.messageLastIdx

def unread (mm : MessageManager σ) : Bytes := mm.readBuffer.drop mm.bytesParsed

def Buffered (mm : MessageManager σ) : Prop :=
  mm.bytesRead = mm.readBuffer.length ∧ mm.bytesRead ≤ readBufferSize ∧
    mm.bytesParsed ≤ mm.bytesRead

def view (mm : MessageManager σ) : View σ where
  stage :=
    match mm.loop with
    | .first => .opening
    | .outer | .inner => .reading
    | .reply => .replying mm.message.length
    | .closed | .terminated => .closed
  parser := mm.parser
  len := mm.messageLength
  pending :=
    match mm.loop with
    | .inner => mm.filled ++ (mm.unread ++ mm.incoming.flatten)
    | .reply => mm.unread ++ mm.incoming.flatten
    | _ => mm.filled ++ mm.incoming.flatten
  parsed := mm.parsed
  written := mm.written

def Placed (I : σ → Prop) (mm : MessageManager σ) : Prop :=
  match mm.loop with
  | .first =>
      I mm.parser ∧ mm.stopRequested = false ∧ mm.messageLastIdx = 0 ∧
        mm.messageLength = (methods.getMessageLen mm.parser).toNat ∧ mm.written = []
  | .outer => I mm.parser ∧ mm.stopRequested = false ∧ 0 < mm.messageMissingBytes
  | .inner =>
      I mm.parser ∧ mm.stopRequested = false ∧ 0 < mm.messageMissingBytes ∧ mm.Buffered
  | .reply => I mm.parser ∧ mm.stopRequested = false ∧ mm.Buffered
  | .closed | .terminated => True

structure Ready (I : σ → Prop) (mm : MessageManager σ) : Prop where
  counted : mm.Counted
  small : mm.messageLength < 2 ^ 32
  chunks : ∀ chunk ∈ mm.incoming, chunk.length ≤ readBufferSize
  placed : mm.Placed methods I

variable {methods writeOk} {I : σ → Prop} {mm : MessageManager σ}

theorem send_eq_some {result : Bool × Bytes × σ} {checked : Nat} {written : List Bytes}
    {sent : σ × List Bytes} (hsend : send writeOk result checked written = some sent) :
    result.1 = true ∧ sent.1 = result.2.2 := by
  obtain ⟨writeOkay, message, parser⟩ := result
  simp only [send] at hsend
  cases writeOkay with
  | false => simp at hsend
  | true =>
      simp only [Bool.not_true, Bool.false_eq_true, if_false] at hsend
      split at hsend
      · cases hsend
        exact ⟨rfl, rfl⟩
      · split at hsend
        · cases hsend
        · split at hsend
          · cases hsend
          · cases hsend
            exact ⟨rfl, rfl⟩

inductive ParserStep (methods : Parser σ) (mm next : MessageManager σ) : Prop where
  | stays : next.parser = mm.parser → next.parsed = mm.parsed → ParserStep methods mm next
  | parses (piece : Bytes) :
      next.parser = (methods.parseMessage mm.parser piece).parser →
      next.parsed = mm.parsed ++ [(mm.parser, piece)] → ParserStep methods mm next
  | writes {buffer : Bytes} {result : Bool × Bytes × σ} :
      methods.writeMessage mm.parser buffer = some result → next.parser = result.2.2 →
      next.parsed = mm.parsed → ParserStep methods mm next

theorem parse_step : ParserStep methods mm (mm.parse methods) := by
  refine .parses (mm.message.take mm.messageLength) ?_ ?_
  all_goals
    unfold parse
    simp only
    rcases methods.parseMessage mm.parser (mm.message.take mm.messageLength) with
      ⟨success, parser⟩ | parser
    · cases success <;> rfl
    · rfl

theorem dataFlow_step : ParserStep methods mm (mm.dataFlow methods writeOk) := by
  unfold dataFlow
  cases hloop : mm.loop with
  | first =>
      simp only [firstMessage]
      split
      · cases hwrite : methods.writeMessage mm.parser [] with
        | none => exact .stays rfl rfl
        | some result =>
            simp only
            cases hsend : send writeOk result result.2.1.length mm.written with
            | none => exact .stays rfl rfl
            | some sent => exact .writes hwrite (send_eq_some hsend).2 rfl
      · exact .stays rfl rfl
  | outer =>
      simp only [outerRound, idle]
      split
      · exact .stays rfl rfl
      · split
        · cases mm.incoming <;> exact .stays rfl rfl
        · cases hwrite : methods.writeMessage mm.parser [] with
          | none => exact .stays rfl rfl
          | some result =>
              simp only
              cases hsend : send writeOk result 0 mm.written with
              | none => exact .stays rfl rfl
              | some sent => exact .writes hwrite (send_eq_some hsend).2 rfl
  | inner =>
      simp only [innerRound]
      split
      · split
        · cases @parse_step _ methods mm.transfer with
          | stays hparser hparsed => exact .stays hparser hparsed
          | parses piece hparser hparsed => exact .parses piece hparser hparsed
          | writes hwrite hparser hparsed => exact .writes hwrite hparser hparsed
        · exact .stays rfl rfl
      · exact .stays rfl rfl
  | reply =>
      simp only [replyRound]
      cases hwrite : methods.writeMessage mm.parser replyMessage with
      | none => exact .stays rfl rfl
      | some result =>
          simp only
          cases hsend : send writeOk result mm.message.length mm.written with
          | none => exact .stays rfl rfl
          | some sent => exact .writes hwrite (send_eq_some hsend).2 rfl
  | closed | terminated => exact .stays rfl rfl

theorem dataFlow_keeps {I : σ → Prop}
    (hparse : ∀ parser piece, I parser → I (methods.parseMessage parser piece).parser)
    (hwrite : ∀ parser buffer next, I parser →
      methods.writeMessage parser buffer = some next → I next.2.2)
    (hparser : I mm.parser) : I (mm.dataFlow methods writeOk).parser := by
  cases @dataFlow_step _ methods writeOk mm with
  | stays hsame => exact hsame ▸ hparser
  | parses piece hparses => exact hparses ▸ hparse _ piece hparser
  | writes hwrites hsame => exact hsame ▸ hwrite _ _ _ hparser hwrites

theorem Sectional.sent (hsectional : Sectional methods I) {parser : σ}
    {message : Bytes} {checked : Bytes → Nat} {written : List Bytes} {len : σ → Nat}
    {position : Position σ} (hparser : I parser)
    (hsend : Position.afterSend writeOk (methods.writeMessage parser message) checked
      written len = some position) :
    I position.parser ∧ position.len = len position.parser := by
  obtain ⟨⟨writeOkay, reply, next⟩, hwrite, hresult⟩ := Option.bind_eq_some_iff.mp hsend
  obtain ⟨sent, hsent, rfl⟩ := Option.map_eq_some_iff.mp hresult
  obtain ⟨hokay, hnext⟩ := send_eq_some hsent
  cases hokay
  refine ⟨?_, rfl⟩
  rw [hnext]
  exact hsectional.writes _ _ _ _ hparser hwrite

theorem Sectional.opened (hsectional : Sectional methods I) {parser : σ}
    {start : Position σ} (hparser : I parser)
    (hopening : Position.opening methods writeOk parser = some start) :
    I start.parser ∧ start.len = (methods.getMessageLen parser).toNat := by
  unfold Position.opening at hopening
  split at hopening
  · exact hsectional.sent hparser hopening
  · cases hopening
    exact ⟨hparser, rfl⟩

theorem transfer_spec (hcounted : mm.Counted) (hbuffered : mm.Buffered)
    (hsmall : mm.messageLength < 2 ^ 32) {count : Nat}
    (hcount : count = min mm.unread.length mm.messageMissingBytes) :
    mm.transfer.filled = mm.filled ++ mm.unread.take count ∧
      mm.transfer.unread = mm.unread.drop count ∧
      mm.transfer.messageMissingBytes = mm.messageMissingBytes - count ∧
      mm.transfer.Counted ∧ mm.transfer.Buffered := by
  obtain ⟨hsum, hsize, hbounds⟩ := hcounted
  obtain ⟨hread, hlimit, hparsed⟩ := hbuffered
  have hlength : mm.unread.length = mm.bytesRead - mm.bytesParsed := by
    rw [unread, List.length_drop, hread]
  have hcapacity : readBufferSize < 2 ^ 32 := by decide
  have hleft : (mm.bytesRead + 2 ^ 32 - mm.bytesParsed) % 2 ^ 32 = mm.unread.length := by
    omega
  have hmoved : (if mm.unread.length < mm.messageMissingBytes then mm.unread.length
      else mm.messageMissingBytes) = count := by
    rw [hcount]
    split <;> omega
  have hcopied : (mm.unread.take count).length = count := by
    rw [List.length_take]
    omega
  have hkept : (mm.message.take mm.messageLastIdx).length = mm.messageLastIdx := by
    rw [List.length_take]
    omega
  have htransfer : mm.transfer =
      { mm with
        message := overwrite mm.message (mm.unread.take count) mm.messageLastIdx
        messageLastIdx := mm.messageLastIdx + count
        messageMissingBytes := mm.messageMissingBytes - count
        bytesParsed := mm.bytesParsed + count } := by
    have hidx : (mm.messageLastIdx + count) % 2 ^ 32 = mm.messageLastIdx + count := by
      omega
    have hmissing : (mm.messageMissingBytes + 2 ^ 32 - count) % 2 ^ 32 =
        mm.messageMissingBytes - count := by
      omega
    have hposition : (mm.bytesParsed + count) % 2 ^ 32 = mm.bytesParsed + count := by
      omega
    have hinside : mm.bytesParsed + count ≤ mm.readBuffer.length ∧
        mm.messageLastIdx + count ≤ mm.message.length := by
      omega
    unfold transfer
    simp only [hleft, hmoved, hidx, hmissing, hposition, hbounds, hinside.1, hinside.2,
      decide_true, Bool.and_self]
    rfl
  rw [htransfer]
  refine ⟨?_, ?_, rfl, ⟨?_, ?_, hbounds⟩, hread, hlimit, ?_⟩
  · simp only [filled, overwrite]
    apply List.take_left'
    rw [List.length_append, hkept, hcopied]
  · simp only [unread, List.drop_drop]
  · simp only
    omega
  · simp only [overwrite, List.length_append, hkept, hcopied, List.length_drop]
    omega
  · simp only
    omega

theorem firstMessage_spec (hsectional : Sectional methods I)
    (hready : Ready methods I mm) (hloop : mm.loop = .first) :
    Ready methods I (mm.firstMessage methods writeOk) ∧
      View.Advance methods writeOk mm.view (mm.firstMessage methods writeOk).view := by
  obtain ⟨hcounted, hsmall, hchunks, hplaced⟩ := hready
  have hkeep := hplaced
  simp only [Placed, hloop] at hplaced
  obtain ⟨hparser, hstopped, hzero, hlen, hwritten⟩ := hplaced
  have hmissing : 0 < mm.messageMissingBytes := by
    have hpositive := hsectional.positive _ hparser
    have hsum := hcounted.1
    omega
  have hstage : mm.view.stage = .opening := by simp only [view, hloop]
  unfold firstMessage
  by_cases hrequester : methods.isRequester
  · rw [if_pos hrequester]
    cases hwrite : methods.writeMessage mm.parser [] with
    | none => exact ⟨⟨hcounted, hsmall, hchunks, hkeep⟩, .stays _⟩
    | some result =>
        have hopening : Position.opening methods writeOk mm.parser =
            (send writeOk result result.2.1.length []).map fun sent =>
              ⟨sent.1, sent.2, (methods.getMessageLen mm.parser).toNat⟩ := by
          rw [Position.opening, if_pos hrequester, hwrite]
          rfl
        simp only [hwritten]
        cases hsend : send writeOk result result.2.1.length [] with
        | none =>
            rw [hsend] at hopening
            exact ⟨⟨hcounted, hsmall, hchunks, trivial⟩,
              .fails (Or.inl ⟨hstage, hopening⟩) rfl rfl rfl⟩
        | some sent =>
            rw [hsend] at hopening
            refine ⟨⟨hcounted, hsmall, hchunks, (hsectional.opened hparser hopening).1,
              hstopped, hmissing⟩, ?_⟩
            have hadvance := View.Advance.opens hstage hopening
            simp only [View.resume, view, hloop, ← hlen] at hadvance
            simp only [view, hloop]
            exact hadvance
  · rw [if_neg hrequester]
    have hopening : Position.opening methods writeOk mm.parser =
        some ⟨mm.parser, [], (methods.getMessageLen mm.parser).toNat⟩ := by
      rw [Position.opening, if_neg hrequester]
    refine ⟨⟨hcounted, hsmall, hchunks, hparser, hstopped, hmissing⟩, ?_⟩
    have hadvance : View.Advance methods writeOk mm.view _ := .opens hstage hopening
    simp only [View.resume, view, hloop, ← hlen, ← hwritten] at hadvance
    simp only [view, hloop]
    exact hadvance

theorem outerRound_spec (hready : Ready methods I mm) (hloop : mm.loop = .outer) :
    Ready methods I (mm.outerRound methods writeOk) ∧
      View.Advance methods writeOk mm.view (mm.outerRound methods writeOk).view := by
  obtain ⟨⟨hsum, hsize, hbounds⟩, hsmall, hchunks, hplaced⟩ := hready
  simp only [Placed, hloop] at hplaced
  obtain ⟨hparser, hstopped, hmissing⟩ := hplaced
  unfold outerRound
  rw [if_neg (by simp [hstopped]), if_pos (by omega)]
  cases hincoming : mm.incoming with
  | nil =>
      refine ⟨⟨⟨hsum, hsize, hbounds⟩, hsmall, by simp, trivial⟩,
        .starves (by simp only [view, hloop]) ?_ rfl rfl rfl⟩
      simp only [view, hloop, filled, hincoming, List.flatten_nil, List.append_nil,
        List.length_take]
      omega
  | cons chunk incoming =>
      have hchunk : chunk.length ≤ readBufferSize := hchunks chunk (by simp [hincoming])
      refine ⟨⟨⟨hsum, hsize, by simp [hbounds, hchunk]⟩, hsmall,
        fun other hmem => hchunks other (by simp [hincoming, hmem]), hparser, hstopped,
        hmissing, rfl, hchunk, Nat.zero_le _⟩, ?_⟩
      have hadvance : View.Advance methods writeOk mm.view _ := .stays _
      simp only [view, hloop, hincoming] at hadvance ⊢
      exact hadvance

theorem parse_spec (hsectional : Sectional methods I) (hcounted : mm.Counted)
    (hsmall : mm.messageLength < 2 ^ 32)
    (hchunks : ∀ chunk ∈ mm.incoming, chunk.length ≤ readBufferSize)
    (hparser : I mm.parser) (hstopped : mm.stopRequested = false)
    (hbuffered : mm.Buffered) (hloop : mm.loop = .inner)
    (hdone : mm.messageMissingBytes = 0) :
    Ready methods I (mm.parse methods) ∧
      View.Advance methods writeOk mm.view (mm.parse methods).view := by
  have hsum := hcounted.1
  have hsize := hcounted.2.1
  have hwhole : mm.message.take mm.messageLength = mm.filled := by
    rw [filled, ← hsum, hdone, Nat.add_zero]
  have hlength : mm.filled.length = mm.messageLength := by
    rw [← hwhole, List.length_take]
    omega
  have hstage : mm.view.stage = .reading := by simp only [view, hloop]
  have hpending : mm.view.pending = mm.filled ++ (mm.unread ++ mm.incoming.flatten) := by
    simp only [view, hloop]
  unfold parse
  simp only [hwhole]
  cases hparse : methods.parseMessage mm.parser mm.filled with
  | returns result =>
      obtain ⟨success, next⟩ := result
      cases success with
      | false =>
          refine ⟨⟨hcounted, hsmall, hchunks, trivial⟩,
            .rejects hstage hlength hpending (fun _ => ?_) rfl rfl rfl⟩
          change methods.parseMessage mm.parser mm.filled ≠ _
          rw [hparse]
          simp
      | true =>
          refine ⟨⟨hcounted, hsmall, hchunks, hsectional.parses _ _ _ hparser hparse,
            hstopped, hbuffered⟩, ?_⟩
          have hadvance : View.Advance methods writeOk mm.view _ :=
            .parses hstage hlength hpending hparse
          rw [hlength.trans hsize] at hadvance
          exact hadvance
  | dies parser =>
      refine ⟨⟨hcounted, hsmall, hchunks, trivial⟩,
        .rejects hstage hlength hpending (fun _ => ?_) rfl rfl rfl⟩
      change methods.parseMessage mm.parser mm.filled ≠ _
      rw [hparse]
      simp

theorem innerRound_spec (hsectional : Sectional methods I) (hready : Ready methods I mm)
    (hloop : mm.loop = .inner) :
    Ready methods I (mm.innerRound methods) ∧
      View.Advance methods writeOk mm.view (mm.innerRound methods).view := by
  obtain ⟨hcounted, hsmall, hchunks, hplaced⟩ := hready
  simp only [Placed, hloop] at hplaced
  obtain ⟨hparser, hstopped, hmissing, hbuffered⟩ := hplaced
  unfold innerRound
  by_cases hmore : mm.bytesParsed < mm.bytesRead
  · rw [if_pos hmore]
    obtain ⟨hfilled, hunread, hleft, hcounted', hbuffered'⟩ :=
      transfer_spec hcounted hbuffered hsmall rfl
    generalize hcount : min mm.unread.length mm.messageMissingBytes = count at *
    have hloop' : mm.transfer.loop = .inner := hloop
    have hview : mm.view = mm.transfer.view := by
      simp only [view, hloop, hloop', hfilled, hunread]
      rw [List.append_assoc, ← List.append_assoc (mm.unread.take count),
        List.take_append_drop]
      rfl
    rw [hview]
    by_cases hdone : mm.transfer.messageMissingBytes = 0
    · rw [if_pos hdone]
      exact parse_spec hsectional hcounted' hsmall hchunks hparser hstopped hbuffered' hloop'
        hdone
    · rw [if_neg hdone]
      refine ⟨⟨hcounted', hsmall, hchunks, ?_⟩, .stays _⟩
      simp only [Placed, hloop']
      exact ⟨hparser, hstopped, Nat.pos_of_ne_zero hdone, hbuffered'⟩
  · rw [if_neg hmore]
    have hnone : mm.unread = [] := by
      obtain ⟨hread, -, hparsed⟩ := hbuffered
      exact List.drop_of_length_le (by omega)
    refine ⟨⟨hcounted, hsmall, hchunks, hparser, hstopped, hmissing⟩, ?_⟩
    have hadvance : View.Advance methods writeOk mm.view _ := .stays _
    simp only [view, hloop, hnone, List.nil_append] at hadvance ⊢
    exact hadvance

theorem replyRound_spec (hsectional : Sectional methods I) (hready : Ready methods I mm)
    (hloop : mm.loop = .reply) :
    Ready methods I (mm.replyRound methods writeOk) ∧
      View.Advance methods writeOk mm.view (mm.replyRound methods writeOk).view := by
  obtain ⟨hcounted, hsmall, hchunks, hplaced⟩ := hready
  have hkeep := hplaced
  simp only [Placed, hloop] at hplaced
  obtain ⟨hparser, hstopped, hbuffered⟩ := hplaced
  have hstage : mm.view.stage = .replying mm.message.length := by simp only [view, hloop]
  unfold replyRound
  cases hwrite : methods.writeMessage mm.parser replyMessage with
  | none => exact ⟨⟨hcounted, hsmall, hchunks, hkeep⟩, .stays _⟩
  | some result =>
      have hrespond : Position.respond methods writeOk mm.parser mm.message.length mm.written =
          (send writeOk result mm.message.length mm.written).map fun sent =>
            ⟨sent.1, sent.2, (methods.getMessageLen sent.1).toNat⟩ := by
        rw [Position.respond, hwrite]
        rfl
      simp only
      cases hsend : send writeOk result mm.message.length mm.written with
      | none =>
          rw [hsend] at hrespond
          exact ⟨⟨hcounted, hsmall, hchunks, trivial⟩,
            .fails (Or.inr ⟨_, hstage, hrespond⟩) rfl rfl rfl⟩
      | some sent =>
          rw [hsend] at hrespond
          have hnext := (hsectional.sent hparser hrespond).1
          have hresized : (resize 0 mm.message
              (methods.getMessageLen sent.1).toNat).length =
                (methods.getMessageLen sent.1).toNat := by
            simp only [resize, List.length_append, List.length_take, List.length_replicate]
            omega
          refine ⟨⟨⟨Nat.zero_add _, hresized.symm, hcounted.2.2⟩,
            (methods.getMessageLen sent.1).toNat_lt, hchunks, hnext, hstopped,
            hsectional.positive _ hnext, hbuffered⟩, ?_⟩
          have hadvance := View.Advance.replies hstage hrespond
          simp only [View.resume, view, hloop] at hadvance
          simp only [view, hloop, filled, List.take_zero, List.nil_append]
          exact hadvance

/-- Every step of `dataFlow` keeps the counters and does to the sections what it may. -/
theorem dataFlow_spec (hsectional : Sectional methods I) (hready : Ready methods I mm) :
    Ready methods I (mm.dataFlow methods writeOk) ∧
      View.Advance methods writeOk mm.view (mm.dataFlow methods writeOk).view := by
  unfold dataFlow
  cases hloop : mm.loop with
  | first => exact firstMessage_spec hsectional hready hloop
  | outer => exact outerRound_spec hready hloop
  | inner => exact innerRound_spec hsectional hready hloop
  | reply => exact replyRound_spec hsectional hready hloop
  | closed | terminated => exact ⟨hready, .stays _⟩

/-- The flow is over, or waits for ever. -/
def Rests (methods : Parser σ) (mm : MessageManager σ) : Prop :=
  mm.loop = .closed ∨ mm.loop = .terminated ∨
    (mm.loop = .first ∧ methods.isRequester = true ∧
      methods.writeMessage mm.parser [] = none) ∨
    (mm.loop = .reply ∧
      methods.writeMessage mm.parser replyMessage = none)

def remaining (mm : MessageManager σ) : Nat :=
  let place :=
    match mm.loop with
    | .first => 4
    | .reply => 3
    | .inner => 2
    | .outer => 1
    | .closed | .terminated => 0
  let buffered :=
    match mm.loop with
    | .inner | .reply => mm.unread.length
    | _ => 0
  4 * (buffered + mm.incoming.flatten.length) + 2 * mm.incoming.length + place

theorem dataFlow_of_rests (hrests : Rests methods mm) :
    mm.dataFlow methods writeOk = mm := by
  rcases hrests with hloop | hloop | ⟨hloop, hrequester, hwaits⟩ | ⟨hloop, hwaits⟩
  · rw [dataFlow, hloop]
  · rw [dataFlow, hloop]
  · rw [dataFlow, hloop]
    simp only [firstMessage, hrequester, if_true, hwaits]
  · rw [dataFlow, hloop]
    simp only [replyRound, hwaits]

theorem done_of_rests {pieces : List (σ × Bytes)} {replies : List Bytes}
    (howes : View.Owes methods writeOk pieces replies mm.view)
    (hrests : Rests methods mm) : mm.parsed = pieces ∧ mm.written = replies := by
  rcases hrests with hloop | hloop | ⟨hloop, hrequester, hwaits⟩ | ⟨hloop, hwaits⟩
  · simpa only [View.Owes, view, hloop] using howes
  · simpa only [View.Owes, view, hloop] using howes
  · have hnone : Position.opening methods writeOk mm.parser = none := by
      rw [Position.opening, if_pos hrequester, hwaits]
      rfl
    simp only [View.Owes, view, hloop, HandlesAll, hnone, true_and, reduceCtorEq, false_and,
      exists_false, or_false] at howes
    obtain ⟨hparsed, hwritten, rfl, rfl⟩ := howes
    exact ⟨hparsed, hwritten⟩
  · have hnone : Position.respond methods writeOk mm.parser mm.message.length mm.written =
        none := by
      rw [Position.respond, hwaits]
      rfl
    simpa [View.Owes, view, hloop, hnone] using howes

private theorem remaining_parse_le (methods : Parser σ) (mm : MessageManager σ) :
    (mm.parse methods).remaining ≤
      4 * (mm.unread.length + mm.incoming.flatten.length) + 2 * mm.incoming.length + 3 := by
  unfold parse
  simp only
  split <;> simp only [remaining, stop, unread] <;> omega

theorem remaining_dataFlow (hready : Ready methods I mm) (hrests : ¬ Rests methods mm) :
    (mm.dataFlow methods writeOk).remaining < mm.remaining := by
  obtain ⟨hcounted, hsmall, hchunks, hplaced⟩ := hready
  unfold dataFlow
  cases hloop : mm.loop with
  | first =>
      simp only [firstMessage]
      split
      · rename_i hrequester
        cases hwrite : methods.writeMessage mm.parser [] with
        | none =>
            exact absurd (Or.inr (Or.inr (Or.inl ⟨hloop, hrequester, hwrite⟩))) hrests
        | some result =>
            simp only
            split <;> simp [remaining, hloop, stop]
      · simp [remaining, hloop]
  | outer =>
      simp only [Placed, hloop] at hplaced
      obtain ⟨-, hstopped, hmissing⟩ := hplaced
      have hsum := hcounted.1
      simp only [outerRound]
      rw [if_neg (by simp [hstopped]), if_pos (by omega)]
      cases hincoming : mm.incoming with
      | nil => simp [remaining, hloop, hincoming]
      | cons chunk incoming =>
          simp only [remaining, hloop, hincoming, unread, List.drop_zero,
            List.flatten_cons, List.length_append, List.length_cons]
          omega
  | inner =>
      simp only [Placed, hloop] at hplaced
      obtain ⟨-, -, hmissing, hbuffered⟩ := hplaced
      simp only [innerRound]
      split
      · rename_i hmore
        obtain ⟨-, hunread, -, -, -⟩ := transfer_spec hcounted hbuffered hsmall rfl
        have hlength : mm.unread.length = mm.bytesRead - mm.bytesParsed := by
          rw [unread, List.length_drop, hbuffered.1]
        have hshrinks : mm.transfer.unread.length < mm.unread.length := by
          rw [hunread, List.length_drop]
          omega
        have hincoming : mm.transfer.incoming = mm.incoming := rfl
        split
        · have hparse := remaining_parse_le methods mm.transfer
          rw [hincoming] at hparse
          simp only [remaining, hloop] at hparse ⊢
          omega
        · have htransferLoop : mm.transfer.loop = .inner := hloop
          simp only [remaining, hloop, htransferLoop, hincoming]
          omega
      · simp [remaining, hloop]
  | reply =>
      cases hwrite : methods.writeMessage mm.parser replyMessage with
      | none => exact absurd (Or.inr (Or.inr (Or.inr ⟨hloop, hwrite⟩))) hrests
      | some result =>
          simp only [replyRound, hwrite]
          split <;> simp only [remaining, hloop, stop, unread] <;> omega
  | closed => exact absurd (Or.inl hloop) hrests
  | terminated => exact absurd (Or.inr (Or.inl hloop)) hrests

theorem init_ready {parser : σ} (hparser : I parser) {chunks : List Bytes}
    (hchunks : ∀ chunk ∈ chunks, chunk.length ≤ readBufferSize) :
    Ready methods I (init methods parser chunks) :=
  ⟨⟨Nat.zero_add _, by simp [init], rfl⟩, (methods.getMessageLen parser).toNat_lt, hchunks,
    hparser, rfl, rfl, rfl, rfl⟩

/-- From its start the flow keeps its counters, parses one section after another, comes
to rest, and has then done what the sections of the stream ask for. -/
theorem dataFlow_handlesAll (hsectional : Sectional methods I) {parser : σ}
    (hparser : I parser) {chunks : List Bytes}
    (hchunks : ∀ chunk ∈ chunks, chunk.length ≤ readBufferSize)
    {pieces : List (σ × Bytes)} {replies : List Bytes}
    (hhandles : HandlesAll methods writeOk parser chunks.flatten pieces replies) :
    Machine.Always (dataFlow methods writeOk) (fun mm => mm.Counted ∧ mm.parsed <+: pieces)
        (init methods parser chunks) ∧
      ∃ n, Rests methods ((dataFlow methods writeOk)^[n] (init methods parser chunks)) ∧
        ((dataFlow methods writeOk)^[n] (init methods parser chunks)).parsed = pieces ∧
        ((dataFlow methods writeOk)^[n] (init methods parser chunks)).written = replies := by
  have hinit : Ready methods I (init methods parser chunks) := init_ready hparser hchunks
  have hstep : ∀ mm, Ready methods I mm ∧ View.Owes methods writeOk pieces replies mm.view →
      Ready methods I (mm.dataFlow methods writeOk) ∧
        View.Owes methods writeOk pieces replies (mm.dataFlow methods writeOk).view := by
    rintro mm ⟨hready, howes⟩
    exact (dataFlow_spec hsectional hready).imp_right fun hadvance =>
      View.owes_advance hadvance howes
  have howes : View.Owes methods writeOk pieces replies (init methods parser chunks).view :=
    ⟨rfl, rfl, hhandles⟩
  have hreached := Machine.iterate_invariant hstep ⟨hinit, howes⟩
  obtain ⟨n, hn⟩ : ∃ n, Rests methods
      ((dataFlow methods writeOk)^[n] (init methods parser chunks)) :=
    Machine.exists_halted hstep (fun _ hinv hrests => remaining_dataFlow hinv.1 hrests)
      ⟨hinit, howes⟩
  exact ⟨fun m => ⟨(hreached m).1.counted, (hreached m).2.parsed_front⟩, n, hn,
    done_of_rests (hreached n).2 hn⟩

end MessageManager

end Rpcmple.Cpp
