import Rpcmple.Cpp.FlowSteps
import Rpcmple.Cpp.Session

namespace Rpcmple.Cpp

open Data MessageManager

namespace View

variable {σ : Type} {methods : Parser σ} {writeOk : List Bytes → Bytes → Bool}
  {view next : View σ}

def read (view : View σ) : Bytes := view.parsed.flatMap Prod.snd

theorem Advance.conserves (hadvance : Advance methods writeOk view next)
    (hopen : next.stage ≠ .closed) : next.read ++ next.pending = view.read ++ view.pending := by
  cases hadvance with
  | stays | opens | replies => rfl
  | parses _ _ hpending =>
      rw [hpending, read, List.flatMap_append, List.append_assoc]
      simp [read]
  | rejects _ _ _ _ hclosed => exact absurd hclosed hopen
  | fails _ hclosed => exact absurd hclosed hopen
  | starves _ _ hclosed => exact absurd hclosed hopen

def Sized (view : View σ) : Prop :=
  view.len ≤ readBufferSize ∧ ∀ received, view.stage = .replying received →
    received ≤ readBufferSize

theorem Advance.sized {I : σ → Prop} (hsectional : Sectional methods I)
    (hsmall : ∀ parser, I parser → (methods.getMessageLen parser).toNat ≤ readBufferSize)
    (hparser : I view.parser) (hsized : view.Sized)
    (hadvance : Advance methods writeOk view next) (hopen : next.stage ≠ .closed) :
    next.Sized := by
  cases hadvance with
  | stays => exact hsized
  | opens _ hopening =>
      obtain ⟨-, hlen⟩ := hsectional.opened hparser hopening
      refine ⟨?_, by simp [resume]⟩
      simp only [resume, hlen]
      exact hsmall _ hparser
  | parses _ hlength _ hparse =>
      refine ⟨hsized.1, ?_⟩
      intro received hstage
      obtain rfl := Stage.replying.inj hstage
      rw [hlength]
      exact hsized.1
  | replies _ hrespond =>
      obtain ⟨hnext, hlen⟩ := hsectional.sent hparser hrespond
      refine ⟨?_, by simp [resume]⟩
      simp only [resume, hlen]
      exact hsmall _ hnext
  | rejects _ _ _ _ hclosed => exact absurd hclosed hopen
  | fails _ hclosed => exact absurd hclosed hopen
  | starves _ _ hclosed => exact absurd hclosed hopen

end View

namespace MessageManager

variable {σ : Type} {methods : Parser σ} {writeOk : List Bytes → Bytes → Bool} {I : σ → Prop}
  {mm : MessageManager σ}

theorem ended_iff : mm.Ended ↔ mm.view.stage = .closed := by
  unfold Ended view
  cases mm.loop <;> simp

theorem reads_on (hready : Ready methods I mm) (hgoes : ¬ mm.Starved)
    (hstage : mm.view.stage = .reading)
    (hclosed : (mm.dataFlow methods writeOk).view.stage = .closed) :
    (mm.dataFlow methods writeOk).parsed ≠ mm.parsed := by
  have hplaced := hready.placed
  have hsum := hready.counted.1
  unfold Placed at hplaced
  unfold dataFlow at hclosed ⊢
  cases hloop : mm.loop with
  | first | reply | closed | terminated => simp [view, hloop] at hstage
  | outer =>
      simp only [hloop] at hplaced hclosed
      obtain ⟨-, hruns, hmissing⟩ := hplaced
      have hpositive : mm.messageLength > 0 := by omega
      have hruns' : ¬ mm.stopRequested = true := by simp [hruns]
      cases hincoming : mm.incoming with
      | nil => exact absurd ⟨hloop, hruns, hpositive, hincoming⟩ hgoes
      | cons chunk incoming =>
          rw [outerRound, if_neg hruns', if_pos hpositive, hincoming] at hclosed
          simp [view] at hclosed
  | inner =>
      simp only [hloop] at hclosed ⊢
      unfold innerRound at hclosed ⊢
      split
      · rename_i hmore
        rw [if_pos hmore] at hclosed
        split
        · rw [parse_cases.2.1]
          simp [transfer]
        · rename_i hmissing
          rw [if_neg hmissing] at hclosed
          simp [view, transfer, hloop] at hclosed
      · rename_i hmore
        rw [if_neg hmore] at hclosed
        simp [view] at hclosed

theorem written_dataFlow (mm : MessageManager σ) :
    mm.written <+: (mm.dataFlow methods writeOk).written := by
  have hsend : ∀ {result : Bool × Bytes × σ} {checked : Nat} {parser : σ} {written : List Bytes},
      send writeOk result checked mm.written = some (parser, written) → mm.written <+: written := by
    intro result checked parser written hsend
    have hwritten : written = _ := (send_cases hsend).2.2
    rw [hwritten]
    exact List.prefix_append _ _
  unfold dataFlow
  split
  · unfold firstMessage
    split
    · split
      · exact List.prefix_rfl
      · split
        · exact List.prefix_rfl
        · rename_i hsent
          exact hsend hsent
    · exact List.prefix_rfl
  · unfold outerRound
    split
    · exact List.prefix_rfl
    · split
      · split <;> exact List.prefix_rfl
      · unfold idle
        split
        · exact List.prefix_rfl
        · split
          · exact List.prefix_rfl
          · rename_i hsent
            exact hsend hsent
  · unfold innerRound
    split
    · split
      · rw [parse_cases.1]
        exact List.prefix_rfl
      · exact List.prefix_rfl
    · exact List.prefix_rfl
  · unfold replyRound
    split
    · exact List.prefix_rfl
    · split
      · exact List.prefix_rfl
      · rename_i hsent
        exact hsend hsent
  · exact List.prefix_rfl
  · exact List.prefix_rfl

theorem flatten_sent {before after : MessageManager σ} (hgrows : before.written <+: after.written) :
    after.written.flatten = before.written.flatten ++ Session.sent before after := by
  obtain ⟨more, hmore⟩ := hgrows
  rw [Session.sent, ← hmore, List.drop_left, List.flatten_append]

theorem remaining_fed (chunk : Bytes) :
    (mm.fed [chunk]).remaining = mm.remaining + 4 * chunk.length + 2 := by
  have hloop : (mm.fed [chunk]).loop = mm.loop := rfl
  have hincoming : (mm.fed [chunk]).incoming = mm.incoming ++ [chunk] := rfl
  have hunread : (mm.fed [chunk]).unread = mm.unread := rfl
  rw [remaining, remaining, hloop, hincoming, hunread, List.flatten_append, List.length_append,
    List.length_append, List.flatten_singleton, List.length_singleton]
  omega

theorem starved_short (hready : Ready methods I mm) (hstarved : mm.Starved) :
    mm.view.stage = .reading ∧ mm.view.pending.length < mm.view.len := by
  obtain ⟨hloop, -, -, hincoming⟩ := hstarved
  have hplaced := hready.placed
  have hsum := hready.counted.1
  simp only [Placed, hloop] at hplaced
  refine ⟨by simp only [view, hloop], ?_⟩
  simp only [view, hloop, hincoming, List.flatten_nil, List.append_nil, filled, List.length_take]
  omega

theorem fed_view (chunk : Bytes) :
    (mm.fed [chunk]).view = { mm.view with pending := mm.view.pending ++ chunk } := by
  unfold view
  have hloop : (mm.fed [chunk]).loop = mm.loop := rfl
  have hincoming : (mm.fed [chunk]).incoming = mm.incoming ++ [chunk] := rfl
  have hfilled : (mm.fed [chunk]).filled = mm.filled := rfl
  have hunread : (mm.fed [chunk]).unread = mm.unread := rfl
  rw [hloop, hincoming, hfilled, hunread]
  cases mm.loop <;> simp [fed, expecting]

end MessageManager

end Rpcmple.Cpp
