import Rpcmple.Go.Delivery

namespace Rpcmple.Go

open Data

/-- A chunk from `start` to `stop` begins inside a section and runs past its end. -/
def Overruns (start stop : Nat) (pieces : List Bytes) : Prop :=
  ∃ before piece after, pieces = before ++ piece :: after ∧
    before.flatten.length < start ∧ start < before.flatten.length + piece.length ∧
    before.flatten.length + piece.length < stop

def DueEmpty (stop : Nat) (pieces : List Bytes) : Prop :=
  ∃ before after, pieces = before ++ [] :: after ∧ before.flatten.length = stop

/-- One of the chunks, the first of which begins at `offset`, stops where an empty section
is due, and none up to it overruns a section. -/
def Stalls : Nat → List Bytes → List Bytes → Prop
  | _, [], _ => False
  | offset, chunk :: chunks, pieces =>
      ¬ Overruns offset (offset + chunk.length) pieces ∧
        (DueEmpty (offset + chunk.length) pieces ∨
          Stalls (offset + chunk.length) chunks pieces)

section Chunks

variable {start stop offset size : Nat} {filled buffer chunk piece : Bytes}
  {chunks pieces : List Bytes}

theorem not_overruns_empty : ¬ Overruns start start pieces := by
  rintro ⟨before, piece, after, -, hbefore, hinside, hpast⟩
  omega

theorem overruns_shift :
    Overruns (piece.length + start) (piece.length + stop) (piece :: pieces) ↔
      Overruns start stop pieces := by
  constructor
  · rintro ⟨before, other, after, hpieces, hbefore, hinside, hpast⟩
    cases before with
    | nil =>
        obtain ⟨rfl, -⟩ := List.cons.inj hpieces
        rw [List.flatten_nil, List.length_nil] at hinside
        omega
    | cons first before =>
        obtain ⟨rfl, rfl⟩ := List.cons.inj hpieces
        rw [List.flatten_cons, List.length_append] at hbefore hinside hpast
        exact ⟨before, other, after, rfl, by omega, by omega, by omega⟩
  · rintro ⟨before, other, after, rfl, hbefore, hinside, hpast⟩
    refine ⟨piece :: before, other, after, rfl, ?_⟩
    rw [List.flatten_cons, List.length_append]
    omega

theorem dueEmpty_shift (hstop : 0 < piece.length + stop) :
    DueEmpty (piece.length + stop) (piece :: pieces) ↔ DueEmpty stop pieces := by
  constructor
  · rintro ⟨before, after, hpieces, hbefore⟩
    cases before with
    | nil =>
        rw [List.flatten_nil, List.length_nil] at hbefore
        omega
    | cons first before =>
        obtain ⟨rfl, rfl⟩ := List.cons.inj hpieces
        rw [List.flatten_cons, List.length_append] at hbefore
        exact ⟨before, after, rfl, by omega⟩
  · rintro ⟨before, after, rfl, hbefore⟩
    refine ⟨piece :: before, after, rfl, ?_⟩
    rw [List.flatten_cons, List.length_append, hbefore]

theorem not_stalls_nil : ¬ Stalls offset chunks [] := by
  induction chunks generalizing offset with
  | nil => exact id
  | cons chunk chunks ih =>
      rintro ⟨-, ⟨before, after, hpieces, -⟩ | hlater⟩
      · simp at hpieces
      · exact ih hlater

theorem stalls_shift (hchunks : ∀ chunk ∈ chunks, chunk ≠ []) :
    Stalls (piece.length + offset) chunks (piece :: pieces) ↔ Stalls offset chunks pieces := by
  induction chunks generalizing offset with
  | nil => exact Iff.rfl
  | cons chunk chunks ih =>
      obtain ⟨hchunk, hothers⟩ := List.forall_mem_cons.mp hchunks
      have hpositive := List.length_pos_iff.mpr hchunk
      rw [Stalls, Stalls, Nat.add_assoc, overruns_shift, dueEmpty_shift (by omega), ih hothers]

theorem stalls_inside (hhead : ∀ piece ∈ pieces.head?, offset + chunk.length < piece.length) :
    Stalls offset (chunk :: chunks) pieces ↔ Stalls (offset + chunk.length) chunks pieces := by
  have hinside : ¬ Overruns offset (offset + chunk.length) pieces := by
    rintro ⟨before, piece, after, rfl, hbefore, -, hpast⟩
    cases before with
    | nil =>
        have hfirst := hhead piece rfl
        rw [List.flatten_nil, List.length_nil] at hpast
        omega
    | cons first before =>
        have hfirst := hhead first rfl
        rw [List.flatten_cons, List.length_append] at hbefore
        omega
  have hdue : ¬ DueEmpty (offset + chunk.length) pieces := by
    rintro ⟨before, after, rfl, hbefore⟩
    cases before with
    | nil => exact absurd (hhead [] rfl) (Nat.not_lt_zero _)
    | cons first before =>
        have hfirst := hhead first rfl
        rw [List.flatten_cons, List.length_append] at hbefore
        omega
  rw [Stalls, and_iff_right hinside, or_iff_right hdue]

theorem stalls_behind (hbuffer : buffer ≠ [])
    (hfull : (filled ++ buffer.take size).length = size)
    (hchunks : ∀ chunk ∈ chunks, chunk ≠ []) :
    Stalls filled.length (buffer :: chunks) ((filled ++ buffer.take size) :: pieces) ↔
      Stalls 0 (buffer.drop size :: chunks) pieces := by
  have hpositive := List.length_pos_iff.mpr hbuffer
  have hstop : filled.length + buffer.length =
      (filled ++ buffer.take size).length + (buffer.drop size).length := by
    rw [← List.length_append, ← List.length_append, List.append_assoc,
      List.take_append_drop]
  have hfirst : ¬ Overruns filled.length (filled.length + buffer.length)
      ((filled ++ buffer.take size) :: pieces) := by
    rintro ⟨before, other, after, hpieces, hbefore, hinside, hpast⟩
    rcases split_aligned hfull with rfl | hnone
    · exact Nat.not_lt_zero _ hbefore
    · rw [hstop, hnone, List.length_nil] at hpast
      cases before with
      | nil =>
          obtain ⟨rfl, -⟩ := List.cons.inj hpieces
          simp at hpast
      | cons first before =>
          obtain ⟨rfl, -⟩ := List.cons.inj hpieces
          rw [List.flatten_cons, List.length_append] at hpast
          omega
  have hrest : ¬ Overruns 0 (0 + (buffer.drop size).length) pieces :=
    fun ⟨_, _, _, _, hbefore, _⟩ => Nat.not_lt_zero _ hbefore
  rw [Stalls, Stalls, and_iff_right hfirst, and_iff_right hrest, hstop,
    dueEmpty_shift (by omega), stalls_shift hchunks, Nat.zero_add]

end Chunks

namespace MessageManager

variable {σ : Type} (methods : MessageParser σ) (writeOk : List Bytes → Bytes → Bool)

def Returns (mm : MessageManager σ) : Prop :=
  ∃ n, ((dataFlow methods writeOk)^[n] mm).loop = .closed

variable {methods writeOk} {mm : MessageManager σ} {state : σ × List Bytes}
  {parsed incoming : List Bytes}

theorem returns_closed (hloop : mm.loop = .closed) : Returns methods writeOk mm :=
  ⟨0, hloop⟩

theorem returns_step :
    Returns methods writeOk (dataFlow methods writeOk mm) ↔ Returns methods writeOk mm := by
  constructor
  · rintro ⟨n, hn⟩
    exact ⟨n + 1, hn⟩
  · rintro ⟨n, hn⟩
    cases n with
    | zero =>
        have hloop : mm.loop = .closed := hn
        refine ⟨0, ?_⟩
        rw [Function.iterate_zero_apply, dataFlow, hloop]
        exact hloop
    | succ n => exact ⟨n, hn⟩

theorem returns_end {filled : Bytes} (hlen : methods.GetMessageLen state.1 ≠ 0)
    (hend : ∀ chunk ∈ incoming.head?, chunk = []) :
    Returns methods writeOk (reading methods state parsed filled incoming) := by
  rw [← returns_step]
  apply returns_closed
  cases incoming with
  | nil => rw [dataFlow_end hlen]
  | cons chunk incoming =>
      obtain rfl := hend chunk rfl
      simp [dataFlow, outerRound, reading, awaiting, hlen]

theorem not_returns_idle (hlen : methods.GetMessageLen state.1 = 0)
    (hidle : methods.SendMessage state.1 = (true, [], state.1)) :
    ¬ Returns methods writeOk (awaiting methods state parsed [] [] incoming) := by
  rintro ⟨n, hn⟩
  have hgoes : ∀ mm, mm = awaiting methods state parsed [] [] incoming ∨
      mm = reading methods state parsed [] incoming →
      dataFlow methods writeOk mm = awaiting methods state parsed [] [] incoming ∨
        dataFlow methods writeOk mm = reading methods state parsed [] incoming := by
    rintro mm (rfl | rfl)
    · exact Or.inr dataFlow_awaiting_nil
    · exact Or.inl (dataFlow_idle hlen hidle)
  rcases Machine.iterate_invariant hgoes (Or.inl rfl) n with hmm | hmm
  · rw [hmm] at hn
    cases hn
  · rw [hmm] at hn
    cases hn

def Overrun (mm : MessageManager σ) : Prop :=
  mm.messageMissingBytes < 0 ∧ mm.messageLength ≠ 0

def remaining (mm : MessageManager σ) : Nat :=
  mm.readBuffer.length + mm.incoming.flatten.length + 2 * mm.incoming.length +
    match mm.loop with
    | .closed => 0
    | .outer => 1
    | .inner => 2

theorem overrun_dataFlow (hoverrun : mm.Overrun) :
    (dataFlow methods writeOk mm).Overrun ∧
      (mm.loop ≠ .closed → (dataFlow methods writeOk mm).remaining < mm.remaining) := by
  obtain ⟨hmissing, hlen⟩ := hoverrun
  cases hloop : mm.loop with
  | closed =>
      rw [dataFlow, hloop]
      exact ⟨⟨hmissing, hlen⟩, fun hgoes => absurd rfl hgoes⟩
  | outer =>
      simp only [dataFlow, hloop, outerRound, if_pos hlen]
      split
      · exact ⟨⟨hmissing, hlen⟩, fun _ => by simp [remaining, hloop]⟩
      · cases hincoming : mm.incoming with
        | nil => exact ⟨⟨hmissing, hlen⟩, fun _ => by simp [remaining, hloop, hincoming]⟩
        | cons chunk incoming =>
            simp only
            split
            · refine ⟨⟨hmissing, hlen⟩, fun _ => ?_⟩
              simp only [remaining, hloop, hincoming, List.flatten_cons, List.length_append,
                List.length_cons]
              omega
            · refine ⟨⟨hmissing, hlen⟩, fun _ => ?_⟩
              simp only [remaining, hloop, hincoming, List.flatten_cons, List.length_append,
                List.length_cons]
              omega
  | inner =>
      simp only [dataFlow, hloop, innerRound]
      split
      · rename_i hbuffer
        have hstill : mm.transfer.messageMissingBytes < 0 := by
          simp only [transfer]
          omega
        rw [if_neg (ne_of_lt hstill)]
        refine ⟨⟨hstill, hlen⟩, fun _ => ?_⟩
        simp only [remaining, transfer, hloop, List.length_drop]
        omega
      · exact ⟨⟨hmissing, hlen⟩, fun _ => by simp [remaining, hloop]⟩

theorem returns_overrun (hoverrun : mm.Overrun) : Returns methods writeOk mm :=
  @Machine.exists_halted _ (dataFlow methods writeOk) Overrun (fun mm => mm.loop = .closed)
    remaining (fun _ hother => (overrun_dataFlow hother).1)
    (fun _ hother => (overrun_dataFlow hother).2) _ hoverrun

theorem returns_iff {I : σ → Prop} (hserves : Serves methods writeOk I) (hstate : I state.1)
    {filled buffer : Bytes} {chunks pieces : List Bytes}
    (hchunks : ∀ chunk ∈ chunks, chunk ≠ []) (hend : ∀ chunk ∈ incoming.head?, chunk = [])
    (hfollows : Follows (sections methods writeOk) state filled buffer chunks pieces) :
    Returns methods writeOk
        (awaiting methods state parsed filled buffer (chunks ++ incoming)) ↔
      ¬ Stalls filled.length (buffer :: chunks) pieces := by
  have hinside : ∀ {state : σ × List Bytes} {filled buffer : Bytes}
      {chunks pieces : List Bytes} {stop : Nat},
      Follows (sections methods writeOk) state filled buffer chunks pieces →
      stop < methods.GetMessageLen state.1 →
      ∀ piece ∈ pieces.head?, stop < piece.length := by
    intro state filled buffer chunks pieces stop hfollows hshort piece hpiece
    obtain ⟨rest, rfl⟩ := List.head?_eq_some_iff.mp hpiece
    rw [hfollows.head_length]
    exact hshort
  induction hfollows generalizing parsed with
  | @ends state filled hfilled =>
      rw [← returns_step, List.nil_append, dataFlow_awaiting_nil]
      refine iff_of_true (returns_end (Nat.ne_zero_of_lt hfilled) hend) not_stalls_nil
  | @reads state filled chunk chunks pieces hfilled hchunk hrest ih =>
      have hlen : methods.GetMessageLen state.1 ≠ 0 := Nat.ne_zero_of_lt hfilled
      rw [stalls_inside (hinside hrest hfilled), ← returns_step, dataFlow_awaiting_nil,
        ← returns_step, List.cons_append, dataFlow_read hlen hchunk]
      exact ih hstate fun other hmem => hchunks other (List.mem_cons_of_mem _ hmem)
  | @unfilled state filled buffer chunks pieces hbuffer hshort hrest ih =>
      have hpartial : (filled ++ buffer).length < methods.GetMessageLen state.1 := by
        rw [List.length_append]
        exact hshort
      rw [← returns_step, dataFlow_unfilled hbuffer hshort,
        stalls_inside (hinside hrest hshort)]
      refine (ih hstate hchunks).trans ?_
      rw [stalls_inside (hinside hrest hpartial), List.length_append, List.length_nil,
        Nat.add_zero]
  | @overruns state filled buffer piece chunks pieces hpiece hfilled hless hlong =>
      rw [sections_len] at hpiece
      refine iff_of_true ?_ ?_
      · obtain ⟨hmissing, hlen⟩ := overrun_of_past hpiece hfilled hless hlong
        rw [← returns_step]
        refine returns_overrun ⟨hmissing, ?_⟩
        rw [hlen]
        omega
      · rintro ⟨hfits, -⟩
        exact hfits ⟨[], piece, pieces, rfl, hfilled, by simpa using hless, by simpa using hlong⟩
  | @last state filled buffer chunks hbuffer hfull hlast =>
      obtain ⟨mm, hmm, hloop, -⟩ :=
        @dataFlow_last _ _ _ _ parsed (chunks ++ incoming) _ _ hbuffer hfull hlast
      rw [← returns_step, hmm, stalls_behind hbuffer hfull hchunks]
      exact iff_of_true (returns_closed hloop) not_stalls_nil
  | @idles state following filled buffer chunks pieces hbuffer hfull hnext hnone hlen =>
      have hfollowing := (hserves.progresses _ _ _ hstate hnext).1
      have hidle := hserves.idles _ hfollowing hlen
      rw [← returns_step, dataFlow_next hbuffer hfull hnext,
        stalls_behind hbuffer hfull hchunks, hnone]
      rw [sections_len] at hnone
      rw [hnone]
      refine iff_of_false (not_returns_idle hlen hidle) ?_
      exact not_not.mpr ⟨not_overruns_empty, Or.inl ⟨[], pieces, rfl, rfl⟩⟩
  | @next state following filled buffer chunks pieces hbuffer hfull hnext hrest ih =>
      have hfollowing := (hserves.progresses _ _ _ hstate hnext).1
      rw [← returns_step, dataFlow_next hbuffer hfull hnext,
        stalls_behind hbuffer hfull hchunks]
      exact ih hfollowing hchunks

def chunksRead (chunks : List Bytes) : List Bytes :=
  chunks.takeWhile fun chunk => !chunk.isEmpty

theorem returns_new_iff {I : σ → Prop} (hserves : Serves methods writeOk I) {parser : σ}
    (hparser : I parser) (hlen : 0 < methods.GetMessageLen parser) {chunks pieces : List Bytes}
    (hcut : (sections methods writeOk).Cut (parser, []) (chunksRead chunks).flatten pieces) :
    Returns methods writeOk (NewMessageManager methods parser chunks) ↔
      ¬ Stalls 0 (chunksRead chunks) pieces := by
  have hchunks : ∀ chunk ∈ chunksRead chunks, chunk ≠ [] := by
    intro chunk hmem
    simpa using List.mem_takeWhile_imp hmem
  have hend : ∀ chunk ∈ (chunks.dropWhile fun chunk => !chunk.isEmpty).head?, chunk = [] := by
    intro chunk hmem
    have hfirst := List.head?_dropWhile_not (fun chunk : Bytes => !chunk.isEmpty) chunks
    rw [Option.mem_def.mp hmem] at hfirst
    simpa using hfirst
  have hfollows := @follows_of_cut _ _ (parser, []) [] [] _ _ _ hserves.progresses hparser
    hchunks (Or.inl hlen) (by simpa using hcut)
  have hhead : ∀ piece ∈ pieces.head?, 0 < piece.length := by
    intro piece hpiece
    obtain ⟨rest, rfl⟩ := List.head?_eq_some_iff.mp hpiece
    rw [hfollows.head_length]
    exact hlen
  have hreturns := @returns_iff _ _ _ (parser, []) [] _ _ hserves hparser [] [] _ pieces
    hchunks hend hfollows
  rw [chunksRead, List.takeWhile_append_dropWhile] at hreturns
  rw [@new_eq _ _ writeOk, returns_step, hreturns]
  exact not_congr (stalls_inside hhead)

end MessageManager

open MessageManager

/-- The flow of a subscriber returns exactly when no chunk that is read in step ends with a
header whose body is empty. -/
theorem dataSubscriber_returns_iff (writeOk : List Bytes → Bytes → Bool)
    (signature : DataSignature) (callback : Bool) (chunks : List Bytes) :
    ∃ pieces,
      (sections DataSubscriber.methods writeOk).Cut
          (DataSubscriber.NewDataSubscriber signature callback, [])
          (chunksRead chunks).flatten pieces ∧
        (Returns DataSubscriber.methods writeOk
            (NewMessageManager DataSubscriber.methods
              (DataSubscriber.NewDataSubscriber signature callback) chunks) ↔
          ¬ Stalls 0 (chunksRead chunks) pieces) := by
  have hframed := DataSubscriber.framed_new signature callback
  obtain ⟨pieces, hcut⟩ := @Cutter.Progresses.exists_cut _ _
    (DataSubscriber.NewDataSubscriber signature callback, []) _
    (@DataSubscriber.serves writeOk).progresses hframed (chunksRead chunks).flatten
  have hfour : 0 < (4 : UInt32).toNat := by decide
  exact ⟨pieces, hcut, returns_new_iff DataSubscriber.serves hframed hfour hcut⟩

/-- An empty signature, and the header of its only message at the end of a chunk. -/
theorem dataSubscriber_spins :
    ¬ Returns DataSubscriber.methods (fun _ _ => true)
      (NewMessageManager DataSubscriber.methods
        (DataSubscriber.NewDataSubscriber [] true) [[0, 0, 0, 1]]) := by
  have hcut : (sections DataSubscriber.methods fun _ _ => true).Cut
      (DataSubscriber.NewDataSubscriber [] true, []) (chunksRead [[0, 0, 0, 1]]).flatten
      [[0, 0, 0, 1], []] := by
    change Cutter.Cut _ _ ([0, 0, 0, 1] ++ ([] ++ [])) _
    exact .next rfl rfl (.next rfl rfl (.short (by decide)))
  rw [returns_new_iff DataSubscriber.serves (DataSubscriber.framed_new [] true) (by decide)
    hcut, not_not]
  refine ⟨?_, Or.inl ⟨[[0, 0, 0, 1]], [], rfl, rfl⟩⟩
  exact fun ⟨_, _, _, _, hbefore, _⟩ => Nat.not_lt_zero _ hbefore

end Rpcmple.Go
