import Rpcmple.Data.Bytes

namespace Rpcmple.Data

/-- A reader of sections: how long the next one is, and the state after it.
`accept` is `none` when nothing is read behind the section. -/
structure Cutter (σ : Type) where
  len : σ → Nat
  accept : σ → Bytes → Option σ

namespace Cutter

variable {σ : Type} (cutter : Cutter σ)

/-- The sections of a stream from a state on, each with the state it is read in, and
the state reading ends in.  The last section is the first that is not accepted,
if there is one. -/
inductive Runs : σ → Bytes → List (σ × Bytes) → σ → Prop where
  | short {state : σ} {bytes : Bytes} :
      bytes.length < cutter.len state → Runs state bytes [] state
  | last {state : σ} {piece rest : Bytes} :
      piece.length = cutter.len state → cutter.accept state piece = none →
      Runs state (piece ++ rest) [(state, piece)] state
  | next {state following final : σ} {piece rest : Bytes} {visited : List (σ × Bytes)} :
      piece.length = cutter.len state → cutter.accept state piece = some following →
      Runs following rest visited final →
      Runs state (piece ++ rest) ((state, piece) :: visited) final

def Cut (state : σ) (bytes : Bytes) (pieces : List Bytes) : Prop :=
  ∃ visited final, cutter.Runs state bytes visited final ∧
    visited.map Prod.snd = pieces

variable {cutter} {state final : σ} {bytes piece rest : Bytes}
  {visited : List (σ × Bytes)} {pieces : List Bytes}

theorem Runs.of_append (hruns : cutter.Runs state (piece ++ rest) visited final)
    (hlength : piece.length = cutter.len state) :
    (cutter.accept state piece = none ∧ visited = [(state, piece)] ∧ final = state) ∨
      ∃ following tail, cutter.accept state piece = some following ∧
        cutter.Runs following rest tail final ∧ visited = (state, piece) :: tail := by
  generalize hbytes : piece ++ rest = bytes at hruns
  cases hruns with
  | short hshort =>
      rw [← hbytes, List.length_append] at hshort
      omega
  | last hother hnone =>
      obtain ⟨rfl, -⟩ := List.append_inj hbytes (hlength.trans hother.symm)
      exact Or.inl ⟨hnone, rfl, rfl⟩
  | next hother hsome htail =>
      obtain ⟨rfl, rfl⟩ := List.append_inj hbytes (hlength.trans hother.symm)
      exact Or.inr ⟨_, _, hsome, htail, rfl⟩

theorem Runs.of_short (hruns : cutter.Runs state bytes visited final)
    (hshort : bytes.length < cutter.len state) : visited = [] ∧ final = state := by
  cases hruns with
  | short _ => exact ⟨rfl, rfl⟩
  | last hlength _ | next hlength _ _ =>
      rw [List.length_append] at hshort
      omega

theorem Runs.unique {other : List (σ × Bytes)} {last : σ}
    (hfirst : cutter.Runs state bytes visited final)
    (hsecond : cutter.Runs state bytes other last) : visited = other ∧ final = last := by
  induction hfirst generalizing other with
  | short hshort =>
      obtain ⟨rfl, rfl⟩ := hsecond.of_short hshort
      exact ⟨rfl, rfl⟩
  | last hlength hnone =>
      rcases hsecond.of_append hlength with ⟨-, rfl, rfl⟩ | ⟨_, _, hsome, -, -⟩
      · exact ⟨rfl, rfl⟩
      · rw [hnone] at hsome
        cases hsome
  | next hlength hsome _ ih =>
      rcases hsecond.of_append hlength with ⟨hnone, -, -⟩ | ⟨_, _, hother, htail, rfl⟩
      · rw [hsome] at hnone
        cases hnone
      · cases Option.some.inj (hsome.symm.trans hother)
        obtain ⟨rfl, rfl⟩ := ih htail
        exact ⟨rfl, rfl⟩

theorem Runs.length_eq (hruns : cutter.Runs state bytes visited final) :
    ∀ entry ∈ visited, entry.2.length = cutter.len entry.1 := by
  induction hruns with
  | short _ => simp
  | last hlength _ => simpa using hlength
  | next hlength _ _ ih =>
      rw [List.forall_mem_cons]
      exact ⟨hlength, ih⟩

def consumed (visited : List (σ × Bytes)) : Nat :=
  (visited.map fun visit => visit.2.length).sum

theorem Runs.consumed_le (hruns : cutter.Runs state bytes visited final) :
    consumed visited ≤ bytes.length := by
  induction hruns with
  | short _ => exact Nat.zero_le _
  | last _ _ => simp [consumed]
  | next _ _ _ ih =>
      rw [consumed] at ih ⊢
      rw [List.map_cons, List.sum_cons, List.length_append]
      exact Nat.add_le_add_left ih _

theorem Runs.of_consumed {front back : Bytes}
    (hruns : cutter.Runs state (front ++ back) visited final)
    (hconsumed : consumed visited ≤ front.length) :
    ∃ last, cutter.Runs state front visited last := by
  generalize hbytes : front ++ back = bytes at hruns
  induction hruns generalizing front with
  | short hshort =>
      rw [← hbytes, List.length_append] at hshort
      exact ⟨_, .short (by omega)⟩
  | @last state piece rest hlength hnone =>
      rw [consumed, List.map_singleton, List.sum_singleton] at hconsumed
      obtain ⟨tail, rfl⟩ := List.prefix_of_prefix_length_le
        (List.prefix_append piece rest) (hbytes ▸ List.prefix_append front back) hconsumed
      exact ⟨_, .last hlength hnone⟩
  | @next state following final piece rest visited hlength hsome _ ih =>
      rw [consumed, List.map_cons, List.sum_cons] at hconsumed
      obtain ⟨tail, rfl⟩ := List.prefix_of_prefix_length_le (List.prefix_append piece rest)
        (hbytes ▸ List.prefix_append front back) (by simp only at hconsumed; omega)
      rw [List.append_assoc] at hbytes
      rw [List.length_append] at hconsumed
      obtain ⟨last, hlast⟩ := ih (by rw [consumed]; simp only at hconsumed; omega)
        (List.append_cancel_left hbytes)
      exact ⟨last, .next hlength hsome hlast⟩

theorem Cut.short (hshort : bytes.length < cutter.len state) : cutter.Cut state bytes [] :=
  ⟨[], state, .short hshort, rfl⟩

theorem Cut.next {following : σ} (hlength : piece.length = cutter.len state)
    (hsome : cutter.accept state piece = some following)
    (htail : cutter.Cut following rest pieces) :
    cutter.Cut state (piece ++ rest) (piece :: pieces) := by
  obtain ⟨visited, final, hruns, rfl⟩ := htail
  exact ⟨(state, piece) :: visited, final, .next hlength hsome hruns, rfl⟩

theorem Cut.of_append (hcut : cutter.Cut state (piece ++ rest) pieces)
    (hlength : piece.length = cutter.len state) :
    (cutter.accept state piece = none ∧ pieces = [piece]) ∨
      ∃ following tail, cutter.accept state piece = some following ∧
        cutter.Cut following rest tail ∧ pieces = piece :: tail := by
  obtain ⟨visited, final, hruns, rfl⟩ := hcut
  rcases hruns.of_append hlength with ⟨hnone, rfl, -⟩ | ⟨following, tail, hsome, htail, rfl⟩
  · exact Or.inl ⟨hnone, rfl⟩
  · exact Or.inr ⟨following, _, hsome, ⟨tail, final, htail, rfl⟩, rfl⟩

theorem Cut.of_short (hcut : cutter.Cut state bytes pieces)
    (hshort : bytes.length < cutter.len state) : pieces = [] := by
  obtain ⟨visited, final, hruns, rfl⟩ := hcut
  rw [(hruns.of_short hshort).1, List.map_nil]

theorem Cut.head_length (hcut : cutter.Cut state bytes (piece :: pieces)) :
    piece.length = cutter.len state := by
  obtain ⟨visited, final, hruns, hpieces⟩ := hcut
  cases hruns with
  | short _ => cases hpieces
  | last hlength _ | next hlength _ _ =>
      obtain ⟨rfl, -⟩ := List.cons.inj hpieces
      exact hlength

theorem Cut.exists_cons (hcut : cutter.Cut state bytes pieces)
    (henough : cutter.len state ≤ bytes.length) :
    ∃ piece rest, pieces = piece :: rest ∧ piece.length = cutter.len state := by
  cases pieces with
  | cons piece rest => exact ⟨piece, rest, rfl, hcut.head_length⟩
  | nil =>
      obtain ⟨visited, final, hruns, hpieces⟩ := hcut
      cases hruns with
      | short hshort => omega
      | last _ _ | next _ _ _ => cases hpieces

/-- An empty section is never followed by another one. -/
def Progresses (cutter : Cutter σ) (I : σ → Prop) : Prop :=
  ∀ state piece following, I state → cutter.accept state piece = some following →
    I following ∧ (cutter.len state = 0 → 0 < cutter.len following)

theorem Progresses.exists_runs {I : σ → Prop} (hprogress : cutter.Progresses I)
    (hstate : I state) (bytes : Bytes) :
    ∃ visited final, cutter.Runs state bytes visited final := by
  -- An empty section leaves the bytes as they are, but only once.
  induction hsize : 2 * bytes.length + (if cutter.len state = 0 then 1 else 0)
    using Nat.strong_induction_on generalizing state bytes with
  | _ size ih =>
      by_cases hshort : bytes.length < cutter.len state
      · exact ⟨[], state, .short hshort⟩
      · have hlength : (bytes.take (cutter.len state)).length = cutter.len state :=
          List.length_take_of_le (by omega)
        rw [← List.take_append_drop (cutter.len state) bytes]
        cases haccept : cutter.accept state (bytes.take (cutter.len state)) with
        | none => exact ⟨_, _, .last hlength haccept⟩
        | some following =>
            obtain ⟨hfollowing, hpositive⟩ := hprogress _ _ _ hstate haccept
            obtain ⟨visited, final, hruns⟩ := ih _ (by
              rw [← hsize, List.length_drop]
              split <;> split <;> omega) hfollowing (bytes.drop (cutter.len state)) rfl
            exact ⟨_, _, .next hlength haccept hruns⟩

theorem Progresses.exists_cut {I : σ → Prop} (hprogress : cutter.Progresses I)
    (hstate : I state) (bytes : Bytes) : ∃ pieces, cutter.Cut state bytes pieces := by
  obtain ⟨visited, final, hruns⟩ := hprogress.exists_runs hstate bytes
  exact ⟨_, visited, final, hruns, rfl⟩

theorem Progresses.of_mem_visited {I : σ → Prop} (hprogress : cutter.Progresses I)
    (hstate : I state) (hruns : cutter.Runs state bytes visited final) :
    ∀ entry ∈ visited, I entry.1 := by
  induction hruns with
  | short _ => simp
  | last _ _ => simpa using hstate
  | next _ haccept _ ih =>
      rw [List.forall_mem_cons]
      exact ⟨hstate, ih (hprogress _ _ _ hstate haccept).1⟩

end Cutter

end Rpcmple.Data
