import Rpcmple.Cpp.MessageManager
import Rpcmple.Data.Sections

namespace Rpcmple.Cpp

open Data

/-! The sections `dataFlow` is to parse, without its counters and vectors. -/

inductive Stage where
  | opening
  | reading
  | replying (received : Nat)
  | closed
  deriving DecidableEq, Repr

/-- What of a manager matters to the sections.  `pending` are the bytes behind the
last section, whether they are read already or still to come. -/
structure View (σ : Type) where
  stage : Stage
  parser : σ
  len : Nat
  pending : Bytes
  parsed : List (σ × Bytes)
  written : List Bytes

/-- Where the next section is read: the parser, everything written, and the length
that was asked for. -/
structure Position (σ : Type) where
  parser : σ
  written : List Bytes
  len : Nat

variable {σ : Type} (methods : Parser σ) (writeOk : List Bytes → Bytes → Bool)

def accepted : Parsed σ → Option σ
  | .returns (true, next) => some next
  | .returns (false, _) | .dies _ => none

theorem accepted_eq_some {result : Parsed σ} {next : σ} :
    accepted result = some next ↔ result = .returns (true, next) := by
  rcases result with ⟨success, parser⟩ | parser
  · cases success <;> simp [accepted]
  · simp [accepted]

def Parser.reads : Cutter σ where
  len parser := (methods.getMessageLen parser).toNat
  accept parser piece := accepted (methods.parseMessage parser piece)

namespace Position

/-- What is left when the parser's message is sent, and `none` when nothing is read
behind it: the parser fails or waits for ever, or the connection does not take it. -/
def afterSend (result : Option (Bool × Bytes × σ)) (checked : Bytes → Nat)
    (written : List Bytes) (len : σ → Nat) : Option (Position σ) :=
  result.bind fun result =>
    (MessageManager.send writeOk result (checked result.2.1) written).map fun sent =>
      ⟨sent.1, sent.2, len sent.1⟩

def respond (parser : σ) (received : Nat) (written : List Bytes) : Option (Position σ) :=
  afterSend writeOk (methods.writeMessage parser MessageManager.replyMessage)
    (fun _ => received) written fun next => (methods.getMessageLen next).toNat

/-- Before the first section, whose length is asked for before the first message is
written. -/
def opening (parser : σ) : Option (Position σ) :=
  if methods.isRequester then
    afterSend writeOk (methods.writeMessage parser []) List.length [] fun _ =>
      (methods.getMessageLen parser).toNat
  else some ⟨parser, [], (methods.getMessageLen parser).toNat⟩

/-- The sections a stream falls into: the parser says how long each is, and a
section is the last one when it is rejected or its reply is not written. -/
def sections : Cutter (Position σ) where
  len position := position.len
  accept position piece :=
    (accepted (methods.parseMessage position.parser piece)).bind fun parser =>
      respond methods writeOk parser piece.length position.written

@[simp] theorem sections_len (position : Position σ) :
    (sections methods writeOk).len position = position.len := rfl

variable {methods writeOk}

theorem sections_accept (position : Position σ) {piece : Bytes} {next : σ}
    (hparse : methods.parseMessage position.parser piece = .returns (true, next)) :
    (sections methods writeOk).accept position piece =
      respond methods writeOk next piece.length position.written := by
  simp only [sections, accepted_eq_some.mpr hparse, Option.bind_some]

theorem sections_accept_none (position : Position σ) {piece : Bytes}
    (hparse : ∀ next,
      methods.parseMessage position.parser piece ≠ .returns (true, next)) :
    (sections methods writeOk).accept position piece = none := by
  have hnone : accepted (methods.parseMessage position.parser piece) = none :=
    Option.eq_none_iff_forall_ne_some.mpr fun next hnext =>
      hparse next (accepted_eq_some.mp hnext)
  simp only [sections, hnone, Option.bind_none]

end Position

open Position

def visits (visited : List (Position σ × Bytes)) : List (σ × Bytes) :=
  visited.map fun visit => (visit.1.parser, visit.2)

@[simp] theorem visits_nil : visits ([] : List (Position σ × Bytes)) = [] := rfl

@[simp] theorem visits_cons (position : Position σ) (piece : Bytes)
    (visited : List (Position σ × Bytes)) :
    visits ((position, piece) :: visited) = (position.parser, piece) :: visits visited := rfl

/-- On this stream, from this position, these sections are parsed, and in the end
this is written. -/
def Handles (start : Position σ) (bytes : Bytes) (pieces : List (σ × Bytes))
    (replies : List Bytes) : Prop :=
  ∃ visited final, (sections methods writeOk).Runs start bytes visited final ∧
    visits visited = pieces ∧ final.written = replies

def HandlesAll (parser : σ) (bytes : Bytes) (pieces : List (σ × Bytes))
    (replies : List Bytes) : Prop :=
  (opening methods writeOk parser = none ∧ pieces = [] ∧ replies = []) ∨
    ∃ start, opening methods writeOk parser = some start ∧
      Handles methods writeOk start bytes pieces replies

namespace View

def resume (view : View σ) (position : Position σ) : View σ :=
  { view with
    stage := .reading
    parser := position.parser
    len := position.len
    written := position.written }

def position (view : View σ) : Position σ := ⟨view.parser, view.written, view.len⟩

/-- What a step of `dataFlow` does to the sections: nothing, as it moves bytes or
waits, or one of the six things that matter. -/
inductive Advance : View σ → View σ → Prop where
  | stays (view : View σ) : Advance view view
  | opens {view : View σ} {start : Position σ} :
      view.stage = .opening → opening methods writeOk view.parser = some start →
      Advance view (view.resume start)
  | parses {view : View σ} {piece rest : Bytes} {next : σ} :
      view.stage = .reading → piece.length = view.len → view.pending = piece ++ rest →
      methods.parseMessage view.parser piece = .returns (true, next) →
      Advance view
        { view with
          stage := .replying piece.length
          parser := next
          pending := rest
          parsed := view.parsed ++ [(view.parser, piece)] }
  | rejects {view closed : View σ} {piece rest : Bytes} :
      view.stage = .reading → piece.length = view.len → view.pending = piece ++ rest →
      (∀ next, methods.parseMessage view.parser piece ≠ .returns (true, next)) →
      closed.stage = .closed → closed.parsed = view.parsed ++ [(view.parser, piece)] →
      closed.written = view.written → Advance view closed
  | replies {view : View σ} {received : Nat} {following : Position σ} :
      view.stage = .replying received →
      respond methods writeOk view.parser received view.written = some following →
      Advance view (view.resume following)
  | fails {view closed : View σ} :
      (view.stage = .opening ∧ opening methods writeOk view.parser = none) ∨
        (∃ received, view.stage = .replying received ∧
          respond methods writeOk view.parser received view.written = none) →
      closed.stage = .closed → closed.parsed = view.parsed → closed.written = view.written →
      Advance view closed
  | starves {view closed : View σ} :
      view.stage = .reading → view.pending.length < view.len →
      closed.stage = .closed → closed.parsed = view.parsed → closed.written = view.written →
      Advance view closed

/-- All in all, these sections will have been parsed and this written. -/
def Owes (pieces : List (σ × Bytes)) (replies : List Bytes) (view : View σ) : Prop :=
  match view.stage with
  | .opening =>
      view.parsed = [] ∧ view.written = [] ∧
        HandlesAll methods writeOk view.parser view.pending pieces replies
  | .reading =>
      ∃ rest, Handles methods writeOk view.position view.pending rest replies ∧
        view.parsed ++ rest = pieces
  | .replying received =>
      (respond methods writeOk view.parser received view.written = none ∧
          view.parsed = pieces ∧ view.written = replies) ∨
        ∃ following rest,
          respond methods writeOk view.parser received view.written = some following ∧
            Handles methods writeOk following view.pending rest replies ∧
            view.parsed ++ rest = pieces
  | .closed => view.parsed = pieces ∧ view.written = replies

variable {methods writeOk} {view next : View σ} {pieces : List (σ × Bytes)}
  {replies : List Bytes}

theorem Owes.parsed_front (howes : Owes methods writeOk pieces replies view) :
    view.parsed <+: pieces := by
  unfold Owes at howes
  split at howes
  · rw [howes.1]
    exact List.nil_prefix
  · obtain ⟨rest, -, rfl⟩ := howes
    exact List.prefix_append _ rest
  · rcases howes with ⟨-, rfl, -⟩ | ⟨_, rest, -, -, rfl⟩
    · exact List.prefix_refl _
    · exact List.prefix_append _ rest
  · rw [howes.1]

theorem owes_advance (hadvance : Advance methods writeOk view next)
    (howes : Owes methods writeOk pieces replies view) :
    Owes methods writeOk pieces replies next := by
  cases hadvance with
  | stays => exact howes
  | @opens start hstage hopening =>
      simp only [Owes, hstage] at howes
      obtain ⟨hparsed, -, ⟨hnone, -⟩ | ⟨other, hother, hhandles⟩⟩ := howes
      · rw [hopening] at hnone
        cases hnone
      · cases Option.some.inj (hopening.symm.trans hother)
        refine ⟨pieces, hhandles, ?_⟩
        simp only [resume, hparsed, List.nil_append]
  | @parses piece rest next hstage hlength hpending hparse =>
      simp only [Owes, hstage] at howes
      obtain ⟨_, ⟨visited, final, hruns, rfl, hfinal⟩, hpieces⟩ := howes
      rw [hpending] at hruns
      rcases hruns.of_append hlength with
        ⟨hnone, rfl, rfl⟩ | ⟨following, tail, hsome, htail, rfl⟩
      · rw [sections_accept view.position hparse] at hnone
        exact Or.inl ⟨hnone, hpieces, hfinal⟩
      · rw [sections_accept view.position hparse] at hsome
        refine Or.inr ⟨following, visits tail, hsome, ⟨tail, final, htail, rfl, hfinal⟩, ?_⟩
        rw [← hpieces, visits_cons, List.append_assoc, List.singleton_append]
        rfl
  | @rejects closed piece rest hstage hlength hpending hparse hclosed hparsed hwritten =>
      simp only [Owes, hstage] at howes
      obtain ⟨_, ⟨visited, final, hruns, rfl, hfinal⟩, hpieces⟩ := howes
      rw [hpending] at hruns
      have hnone : (sections methods writeOk).accept view.position piece = none :=
        sections_accept_none view.position hparse
      rcases hruns.of_append hlength with
        ⟨-, rfl, rfl⟩ | ⟨following, tail, hsome, -, -⟩
      · simp only [Owes, hclosed]
        exact ⟨hparsed.trans hpieces, hwritten.trans hfinal⟩
      · rw [hnone] at hsome
        cases hsome
  | @replies received following hstage hrespond =>
      simp only [Owes, hstage] at howes
      rcases howes with ⟨hnone, -⟩ | ⟨other, rest, hother, hhandles, hpieces⟩
      · rw [hrespond] at hnone
        cases hnone
      · cases Option.some.inj (hrespond.symm.trans hother)
        exact ⟨rest, hhandles, hpieces⟩
  | fails hfails hclosed hparsed hwritten =>
      rcases hfails with ⟨hstage, hopening⟩ | ⟨received, hstage, hrespond⟩
      · simp only [Owes, hstage] at howes
        obtain ⟨hempty, hnothing, ⟨-, rfl, rfl⟩ | ⟨start, hsome, -⟩⟩ := howes
        · simp only [Owes, hclosed]
          exact ⟨hparsed.trans hempty, hwritten.trans hnothing⟩
        · rw [hopening] at hsome
          cases hsome
      · simp only [Owes, hstage] at howes
        rcases howes with ⟨-, hpieces, hreplies⟩ | ⟨following, rest, hsome, -⟩
        · simp only [Owes, hclosed]
          exact ⟨hparsed.trans hpieces, hwritten.trans hreplies⟩
        · rw [hrespond] at hsome
          cases hsome
  | starves hstage hshort hclosed hparsed hwritten =>
      simp only [Owes, hstage] at howes
      obtain ⟨_, ⟨visited, final, hruns, rfl, hfinal⟩, hpieces⟩ := howes
      obtain ⟨rfl, rfl⟩ := hruns.of_short hshort
      simp only [Owes, hclosed]
      rw [visits_nil, List.append_nil] at hpieces
      exact ⟨hparsed.trans hpieces, hwritten.trans hfinal⟩

end View

end Rpcmple.Cpp
