import Rpcmple.Go.MessageManager

namespace Rpcmple.Go

open Data

/-- A chunk from `start` to `stop` begins inside a section and runs past its
end, or stops where an empty section is due. -/
def BadChunk (start stop : Nat) (pieces : List Bytes) : Prop :=
  ∃ before piece after, pieces = before ++ piece :: after ∧
    ((before.flatten.length < start ∧ start < before.flatten.length + piece.length ∧
        before.flatten.length + piece.length < stop) ∨
      (piece = [] ∧ before.flatten.length = stop))

def Misaligned (offset : Nat) (chunks pieces : List Bytes) : Prop :=
  ∃ front chunk back, chunks = front ++ chunk :: back ∧
    BadChunk (offset + front.flatten.length)
      (offset + front.flatten.length + chunk.length) pieces

theorem not_misaligned_nil (offset : Nat) (pieces : List Bytes) :
    ¬ Misaligned offset [] pieces := by
  rintro ⟨front, chunk, back, hchunks, -⟩
  simp at hchunks

theorem misaligned_cons {offset : Nat} {chunk : Bytes} {chunks pieces : List Bytes} :
    Misaligned offset (chunk :: chunks) pieces ↔
      BadChunk offset (offset + chunk.length) pieces ∨
        Misaligned (offset + chunk.length) chunks pieces := by
  constructor
  · rintro ⟨front, bad, back, hchunks, hbad⟩
    cases front with
    | nil =>
        obtain ⟨rfl, rfl⟩ := List.cons.inj hchunks
        exact Or.inl (by simpa using hbad)
    | cons first front =>
        obtain ⟨rfl, rfl⟩ := List.cons.inj hchunks
        refine Or.inr ⟨front, bad, back, rfl, ?_⟩
        simpa [Nat.add_assoc] using hbad
  · rintro (hbad | ⟨front, bad, back, rfl, hbad⟩)
    · exact ⟨[], chunk, chunks, rfl, by simpa using hbad⟩
    · exact ⟨chunk :: front, bad, back, rfl, by simpa [Nat.add_assoc] using hbad⟩

theorem not_badChunk_nil (start stop : Nat) : ¬ BadChunk start stop [] := by
  rintro ⟨before, piece, after, hpieces, -⟩
  simp at hpieces

theorem badChunk_cons {start stop : Nat} {piece : Bytes} {pieces : List Bytes} :
    BadChunk start stop (piece :: pieces) ↔
      (0 < start ∧ start < piece.length ∧ piece.length < stop) ∨
      (piece = [] ∧ stop = 0) ∨
      ∃ before next after, pieces = before ++ next :: after ∧
        ((piece.length + before.flatten.length < start ∧
            start < piece.length + before.flatten.length + next.length ∧
            piece.length + before.flatten.length + next.length < stop) ∨
          (next = [] ∧ piece.length + before.flatten.length = stop)) := by
  constructor
  · rintro ⟨before, bad, after, hpieces, hbad⟩
    cases before with
    | nil =>
        obtain ⟨rfl, rfl⟩ := List.cons.inj hpieces
        rcases hbad with hbad | ⟨rfl, hstop⟩
        · exact Or.inl (by simpa using hbad)
        · exact Or.inr (Or.inl ⟨rfl, by simpa using hstop.symm⟩)
    | cons first before =>
        obtain ⟨rfl, rfl⟩ := List.cons.inj hpieces
        refine Or.inr (Or.inr ⟨before, bad, after, rfl, ?_⟩)
        simpa [Nat.add_assoc] using hbad
  · rintro (hbad | ⟨rfl, rfl⟩ | ⟨before, bad, after, rfl, hbad⟩)
    · exact ⟨[], piece, pieces, rfl, Or.inl (by simpa using hbad)⟩
    · exact ⟨[], [], pieces, rfl, Or.inr ⟨rfl, rfl⟩⟩
    · exact ⟨piece :: before, bad, after, rfl, by simpa [Nat.add_assoc] using hbad⟩

theorem badChunk_shift {start stop : Nat} {piece : Bytes} {pieces : List Bytes}
    (hstop : 0 < piece.length + stop) :
    BadChunk (piece.length + start) (piece.length + stop) (piece :: pieces) ↔
      BadChunk start stop pieces := by
  rw [badChunk_cons]
  constructor
  · rintro (hbad | ⟨rfl, hzero⟩ | ⟨before, bad, after, rfl, hbad⟩)
    · omega
    · omega
    · refine ⟨before, bad, after, rfl, ?_⟩
      rcases hbad with hbad | ⟨rfl, hbad⟩
      · exact Or.inl (by omega)
      · exact Or.inr ⟨rfl, by omega⟩
  · rintro ⟨before, bad, after, rfl, hbad⟩
    refine Or.inr (Or.inr ⟨before, bad, after, rfl, ?_⟩)
    rcases hbad with hbad | ⟨rfl, hbad⟩
    · exact Or.inl (by omega)
    · exact Or.inr ⟨rfl, by omega⟩

theorem badChunk_first {start stop : Nat} {piece : Bytes} {pieces : List Bytes}
    (hstart : start = 0 ∨ stop = 0) (hinside : start ≤ piece.length)
    (hstop : 0 < piece.length + stop) :
    BadChunk start (piece.length + stop) (piece :: pieces) ↔ BadChunk 0 stop pieces := by
  rw [badChunk_cons]
  constructor
  · rintro (hbad | ⟨rfl, hzero⟩ | ⟨before, bad, after, rfl, hbad⟩)
    · omega
    · omega
    · refine ⟨before, bad, after, rfl, ?_⟩
      rcases hbad with hbad | ⟨rfl, hbad⟩
      · omega
      · exact Or.inr ⟨rfl, by omega⟩
  · rintro ⟨before, bad, after, rfl, hbad⟩
    refine Or.inr (Or.inr ⟨before, bad, after, rfl, ?_⟩)
    rcases hbad with hbad | ⟨rfl, hbad⟩
    · omega
    · exact Or.inr ⟨rfl, by omega⟩

theorem misaligned_shift {offset : Nat} {piece : Bytes} {chunks pieces : List Bytes}
    (hchunks : ∀ chunk ∈ chunks, chunk ≠ []) :
    Misaligned (piece.length + offset) chunks (piece :: pieces) ↔
      Misaligned offset chunks pieces := by
  induction chunks generalizing offset with
  | nil => exact iff_of_false (not_misaligned_nil _ _) (not_misaligned_nil _ _)
  | cons chunk chunks ih =>
      have hchunk := List.length_pos_iff.mpr (hchunks chunk List.mem_cons_self)
      rw [misaligned_cons, misaligned_cons, Nat.add_assoc,
        badChunk_shift (by omega), ih fun other hmem => hchunks other (List.mem_cons_of_mem _ hmem)]

theorem misaligned_complete {filled front rest : Bytes} {chunks pieces : List Bytes}
    (halign : filled = [] ∨ rest = []) (hnonempty : front ++ rest ≠ [])
    (hchunks : ∀ chunk ∈ chunks, chunk ≠ []) :
    Misaligned filled.length ((front ++ rest) :: chunks) ((filled ++ front) :: pieces) ↔
      Misaligned 0 (rest :: chunks) pieces := by
  have hpositive := List.length_pos_iff.mpr hnonempty
  have hstop : filled.length + (front ++ rest).length =
      (filled ++ front).length + rest.length := by
    simp [Nat.add_assoc]
  have hstart : filled.length = 0 ∨ rest.length = 0 :=
    halign.imp List.length_eq_zero_iff.mpr List.length_eq_zero_iff.mpr
  rw [misaligned_cons, misaligned_cons, hstop, badChunk_first hstart (by simp) (by omega),
    misaligned_shift hchunks, Nat.zero_add]

theorem length_le_of_full {filled buffer : Bytes} {size : Nat}
    (hfull : (filled ++ buffer.take size).length = size) : filled.length ≤ size := by
  rw [List.length_append] at hfull
  omega

theorem split_aligned {filled buffer : Bytes} {size : Nat}
    (hfull : (filled ++ buffer.take size).length = size) :
    filled = [] ∨ buffer.drop size = [] := by
  rw [← List.length_eq_zero_iff, ← List.length_eq_zero_iff, List.length_drop]
  rw [List.length_append, List.length_take] at hfull
  omega

theorem misaligned_behind {filled buffer : Bytes} {size : Nat} {chunks pieces : List Bytes}
    (hbuffer : buffer ≠ []) (hfull : (filled ++ buffer.take size).length = size)
    (hchunks : ∀ chunk ∈ chunks, chunk ≠ []) :
    Misaligned filled.length (buffer :: chunks) ((filled ++ buffer.take size) :: pieces) ↔
      Misaligned 0 (buffer.drop size :: chunks) pieces := by
  have hsplit := List.take_append_drop size buffer
  have hcomplete := @misaligned_complete _ _ _ _ pieces (split_aligned hfull)
    (by rw [hsplit]; exact hbuffer) hchunks
  rwa [hsplit] at hcomplete

theorem not_badChunk_inside {start stop : Nat} {piece : Bytes} {pieces : List Bytes}
    (hstop : stop < piece.length) : ¬ BadChunk start stop (piece :: pieces) := by
  rw [badChunk_cons]
  rintro (hbad | ⟨rfl, -⟩ | ⟨before, bad, after, -, hbad | ⟨rfl, hbad⟩⟩)
  · omega
  · simp at hstop
  · omega
  · omega

theorem not_misaligned_of_nil (offset : Nat) (chunks : List Bytes) :
    ¬ Misaligned offset chunks [] := by
  rintro ⟨front, chunk, back, -, hbad⟩
  exact not_badChunk_nil _ _ hbad

/-- How a flow that moves up to a whole section at a time comes through these chunks,
with `filled` of the next section and `buffer` of a chunk at hand. -/
inductive Follows {σ : Type} (cutter : Cutter σ) :
    σ → Bytes → Bytes → List Bytes → List Bytes → Prop where
  | ends {state : σ} {filled : Bytes} :
      filled.length < cutter.len state → Follows cutter state filled [] [] []
  | reads {state : σ} {filled chunk : Bytes} {chunks pieces : List Bytes} :
      filled.length < cutter.len state → chunk ≠ [] →
      Follows cutter state filled chunk chunks pieces →
      Follows cutter state filled [] (chunk :: chunks) pieces
  | unfilled {state : σ} {filled buffer : Bytes} {chunks pieces : List Bytes} :
      buffer ≠ [] → filled.length + buffer.length < cutter.len state →
      Follows cutter state (filled ++ buffer) [] chunks pieces →
      Follows cutter state filled buffer chunks pieces
  | overruns {state : σ} {filled buffer piece : Bytes} {chunks pieces : List Bytes} :
      piece.length = cutter.len state → 0 < filled.length → filled.length < piece.length →
      piece.length < filled.length + buffer.length →
      Follows cutter state filled buffer chunks (piece :: pieces)
  | last {state : σ} {filled buffer : Bytes} {chunks : List Bytes} :
      buffer ≠ [] →
      (filled ++ buffer.take (cutter.len state)).length = cutter.len state →
      cutter.accept state (filled ++ buffer.take (cutter.len state)) = none →
      Follows cutter state filled buffer chunks [filled ++ buffer.take (cutter.len state)]
  | idles {state following : σ} {filled buffer : Bytes} {chunks pieces : List Bytes} :
      buffer ≠ [] →
      (filled ++ buffer.take (cutter.len state)).length = cutter.len state →
      cutter.accept state (filled ++ buffer.take (cutter.len state)) = some following →
      buffer.drop (cutter.len state) = [] → cutter.len following = 0 →
      Follows cutter state filled buffer chunks
        ((filled ++ buffer.take (cutter.len state)) :: [] :: pieces)
  | next {state following : σ} {filled buffer : Bytes} {chunks pieces : List Bytes} :
      buffer ≠ [] →
      (filled ++ buffer.take (cutter.len state)).length = cutter.len state →
      cutter.accept state (filled ++ buffer.take (cutter.len state)) = some following →
      Follows cutter following [] (buffer.drop (cutter.len state)) chunks pieces →
      Follows cutter state filled buffer chunks
        ((filled ++ buffer.take (cutter.len state)) :: pieces)

section Following

variable {σ : Type} {cutter : Cutter σ} {state : σ} {filled buffer : Bytes}
  {chunks pieces : List Bytes}

theorem Follows.head_length {piece : Bytes}
    (hfollows : Follows cutter state filled buffer chunks (piece :: pieces)) :
    piece.length = cutter.len state := by
  generalize hall : piece :: pieces = all at hfollows
  induction hfollows with
  | ends _ => cases hall
  | reads _ _ _ ih | unfilled _ _ _ ih => exact ih hall
  | overruns hpiece _ _ _ =>
      obtain ⟨rfl, -⟩ := List.cons.inj hall
      exact hpiece
  | last _ hfull _ | idles _ hfull _ _ _ | next _ hfull _ _ _ =>
      obtain ⟨rfl, -⟩ := List.cons.inj hall
      exact hfull

theorem follows_of_cut {I : σ → Prop} (hprogresses : cutter.Progresses I) (hstate : I state)
    (hchunks : ∀ chunk ∈ chunks, chunk ≠ [])
    (hwaiting : filled.length < cutter.len state ∨ filled = [] ∧ buffer ≠ [])
    (hcut : cutter.Cut state (filled ++ buffer ++ chunks.flatten) pieces) :
    Follows cutter state filled buffer chunks pieces := by
  -- A section or a partial one uses up bytes, a read uses up a chunk, and an
  -- empty section is not followed by another.
  induction hsize : 2 * (buffer.length + chunks.flatten.length) + chunks.length +
      (if cutter.len state = 0 then 1 else 0)
    using Nat.strong_induction_on generalizing state filled buffer chunks pieces with
  | _ size ih =>
      by_cases hbuffer : buffer = []
      · subst hbuffer
        have hfilled : filled.length < cutter.len state :=
          hwaiting.resolve_right fun hboth => hboth.2 rfl
        cases chunks with
        | nil =>
            rw [hcut.of_short (by simpa using hfilled)]
            exact .ends hfilled
        | cons chunk chunks =>
            obtain ⟨hchunk, hothers⟩ := List.forall_mem_cons.mp hchunks
            refine .reads hfilled hchunk ?_
            refine ih _ ?_ hstate hothers (Or.inl hfilled) (by simpa using hcut) rfl
            simp only [List.flatten_cons, List.length_append, List.length_cons,
              List.length_nil] at hsize ⊢
            omega
      · have hpositive := List.length_pos_iff.mpr hbuffer
        by_cases hshort : filled.length + buffer.length < cutter.len state
        · -- The chunk ends inside the section.
          have hpartial : (filled ++ buffer).length < cutter.len state := by
            simpa using hshort
          refine .unfilled hbuffer hshort ?_
          refine ih _ ?_ hstate hchunks (Or.inl hpartial) (by simpa using hcut) rfl
          simp only [List.length_nil] at hsize ⊢
          omega
        · have henough : cutter.len state ≤ (filled ++ buffer ++ chunks.flatten).length := by
            rw [List.length_append, List.length_append]
            omega
          have hsplit := List.take_append_drop (cutter.len state) buffer
          have hcount : (filled ++ buffer.take (cutter.len state)).length =
              filled.length + min (cutter.len state) buffer.length := by
            rw [List.length_append, List.length_take]
          by_cases hfull : (filled ++ buffer.take (cutter.len state)).length =
              cutter.len state
          · have hbytes : filled ++ buffer ++ chunks.flatten =
                (filled ++ buffer.take (cutter.len state)) ++
                  (buffer.drop (cutter.len state) ++ chunks.flatten) := by
              simp only [List.append_assoc, List.append_cancel_left_eq]
              rw [← List.append_assoc, hsplit]
            rw [hbytes] at hcut
            rcases hcut.of_append hfull with ⟨hlast, rfl⟩ | ⟨following, tail, hnext, htail, rfl⟩
            · exact .last hbuffer hfull hlast
            · obtain ⟨hfollowing, hprogress⟩ := hprogresses _ _ _ hstate hnext
              by_cases hidle : buffer.drop (cutter.len state) = [] ∧ cutter.len following = 0
              · -- An empty section is due where the chunk ends.
                obtain ⟨piece, rest, rfl, hpiece⟩ := htail.exists_cons (by simp [hidle.2])
                obtain rfl : piece = [] :=
                  List.length_eq_zero_iff.mp (hpiece.trans hidle.2)
                exact .idles hbuffer hfull hnext hidle.1 hidle.2
              · have hready : ([] : Bytes).length < cutter.len following ∨
                    ([] : Bytes) = [] ∧ buffer.drop (cutter.len state) ≠ [] := by
                  rw [not_and_or] at hidle
                  rcases hidle with hmore | hlen
                  · exact Or.inr ⟨rfl, hmore⟩
                  · exact Or.inl (Nat.pos_of_ne_zero hlen)
                refine .next hbuffer hfull hnext ?_
                refine ih _ ?_ hfollowing hchunks hready (by simpa using htail) rfl
                rw [List.length_drop, ← hsize]
                split <;> split <;> omega
          · -- The chunk overruns the section it began in.
            obtain ⟨piece, rest, rfl, hpiece⟩ := hcut.exists_cons henough
            rcases hwaiting with hless | ⟨rfl, -⟩
            · exact .overruns hpiece (by omega) (by omega) (by omega)
            · simp only [List.nil_append, List.length_nil] at hcount hfull hshort
              omega

end Following

namespace MessageManager

variable {σ : Type} (methods : MessageParser σ) (writeOk : List Bytes → Bytes → Bool)

/-- The flow parses exactly these sections, and never counts below zero. -/
def Delivers (mm : MessageManager σ) (pieces : List Bytes) : Prop :=
  Machine.Settles (dataFlow methods writeOk) (fun mm => mm.parsed) mm pieces ∧
    Machine.Always (dataFlow methods writeOk) (fun mm => 0 ≤ mm.messageMissingBytes) mm

/-- What `delivers_iff` needs to know of a parser: an empty section is followed by
another one only after a non-empty one, and nothing is sent while one is due. -/
structure Serves (I : σ → Prop) : Prop where
  progresses : (sections methods writeOk).Progresses fun state => I state.1
  idles : ∀ parser, I parser → methods.GetMessageLen parser = 0 →
    methods.SendMessage parser = (true, [], parser)

variable {methods writeOk}

theorem delivers_step {mm : MessageManager σ} {pieces : List Bytes}
    (hmissing : 0 ≤ mm.messageMissingBytes) :
    Delivers methods writeOk (dataFlow methods writeOk mm) pieces ↔
      Delivers methods writeOk mm pieces := by
  unfold Delivers
  rw [Machine.settles_step, @Machine.always_step _ _ _ mm, and_iff_right hmissing]

theorem delivers_closed {mm : MessageManager σ} (hloop : mm.loop = .closed)
    (hmissing : 0 ≤ mm.messageMissingBytes) : Delivers methods writeOk mm mm.parsed := by
  have hstep : ∀ other, other = mm → dataFlow methods writeOk other = mm := by
    rintro other rfl
    rw [dataFlow, hloop]
  refine ⟨Machine.settles_of_constant (I := fun other => other = mm) hstep ?_ rfl, ?_⟩
  · rintro other rfl
    rfl
  · intro n
    rw [Machine.iterate_invariant (I := fun other => other = mm) hstep rfl n]
    exact hmissing

private theorem missing_nonneg {state : σ × List Bytes} {filled : Bytes}
    (parsed : List Bytes) (buffer : Bytes) (incoming : List Bytes)
    (hfilled : filled.length ≤ methods.GetMessageLen state.1) :
    0 ≤ (awaiting methods state parsed filled buffer incoming).messageMissingBytes := by
  simp only [awaiting]
  omega

theorem not_delivers_idle {I : σ → Prop} (hserves : Serves methods writeOk I)
    {state : σ × List Bytes} (hstate : I state.1)
    (hlen : methods.GetMessageLen state.1 = 0) {parsed pieces incoming : List Bytes}
    (hpieces : pieces ≠ []) :
    ¬ Delivers methods writeOk (awaiting methods state parsed [] [] incoming)
      (parsed ++ pieces) := by
  rintro ⟨hsettles, -⟩
  have hidle := hserves.idles state.1 hstate hlen
  have hconstant : Machine.Settles (dataFlow methods writeOk) (fun mm => mm.parsed)
      (awaiting methods state parsed [] [] incoming) parsed := by
    refine Machine.settles_of_constant
      (I := fun mm => mm = awaiting methods state parsed [] [] incoming ∨
        mm = reading methods state parsed [] incoming) ?_ ?_ (Or.inl rfl)
    · rintro mm (rfl | rfl)
      · exact Or.inr dataFlow_awaiting_nil
      · exact Or.inl (dataFlow_idle hlen hidle)
    · rintro mm (rfl | rfl) <;> rfl
  have hsame := hsettles.unique hconstant
  exact hpieces (List.append_right_eq_self.mp hsame)

theorem overrun_of_past {state : σ × List Bytes} {filled buffer piece : Bytes}
    {parsed incoming : List Bytes} (hpiece : piece.length = methods.GetMessageLen state.1)
    (hfilled : 0 < filled.length) (hinside : filled.length < piece.length)
    (hpast : piece.length < filled.length + buffer.length) :
    let next := dataFlow methods writeOk (awaiting methods state parsed filled buffer incoming)
    next.messageMissingBytes < 0 ∧ next.messageLength = methods.GetMessageLen state.1 := by
  have hbuffer : buffer ≠ [] := by
    rw [← List.length_pos_iff]
    omega
  apply dataFlow_overrun hbuffer
  rw [List.length_append, List.length_take]
  omega

theorem delivers_iff {I : σ → Prop} (hserves : Serves methods writeOk I)
    {state : σ × List Bytes} (hstate : I state.1) {filled buffer : Bytes}
    {chunks parsed pieces : List Bytes} (hchunks : ∀ chunk ∈ chunks, chunk ≠ [])
    (hwaiting : filled.length < methods.GetMessageLen state.1 ∨
      filled = [] ∧ buffer ≠ [])
    (hcut : (sections methods writeOk).Cut state
      (filled ++ buffer ++ chunks.flatten) pieces) :
    Delivers methods writeOk (awaiting methods state parsed filled buffer chunks)
        (parsed ++ pieces) ↔
      ¬ Misaligned filled.length (buffer :: chunks) pieces := by
  have hfollows := follows_of_cut hserves.progresses hstate hchunks hwaiting hcut
  clear hwaiting hcut
  have hinside : ∀ {state : σ × List Bytes} {filled buffer : Bytes}
      {chunks pieces : List Bytes} (start : Nat) {stop : Nat},
      Follows (sections methods writeOk) state filled buffer chunks pieces →
      stop < methods.GetMessageLen state.1 → ¬ BadChunk start stop pieces := by
    intro state filled buffer chunks pieces start stop hfollows hstop
    cases pieces with
    | nil => exact not_badChunk_nil _ _
    | cons piece pieces => exact not_badChunk_inside (hfollows.head_length.symm ▸ hstop)
  induction hfollows generalizing parsed with
  | @ends state filled hfilled =>
      have hlen : methods.GetMessageLen state.1 ≠ 0 := Nat.ne_zero_of_lt hfilled
      have hmissing := missing_nonneg parsed [] [] (le_of_lt hfilled)
      rw [← delivers_step hmissing, dataFlow_awaiting_nil,
        ← @delivers_step _ _ _ (reading methods state parsed filled []) _ hmissing,
        dataFlow_end hlen, List.append_nil]
      exact iff_of_true (delivers_closed rfl hmissing) (not_misaligned_of_nil _ _)
  | @reads state filled chunk chunks pieces hfilled hchunk hrest ih =>
      have hlen : methods.GetMessageLen state.1 ≠ 0 := Nat.ne_zero_of_lt hfilled
      have hmissing := missing_nonneg parsed [] (chunk :: chunks) (le_of_lt hfilled)
      rw [misaligned_cons, or_iff_right (hinside _ hrest (by simpa using hfilled)),
        ← delivers_step hmissing, dataFlow_awaiting_nil,
        ← @delivers_step _ _ _ (reading methods state parsed filled _) _ hmissing,
        dataFlow_read hlen hchunk]
      simpa using ih hstate fun other hmem => hchunks other (List.mem_cons_of_mem _ hmem)
  | @unfilled state filled buffer chunks pieces hbuffer hshort hrest ih =>
      have hfilled : filled.length ≤ methods.GetMessageLen state.1 :=
        le_of_lt (lt_of_le_of_lt (Nat.le_add_right _ _) hshort)
      have hpartial : (filled ++ buffer).length < methods.GetMessageLen state.1 := by
        simpa using hshort
      rw [← delivers_step (missing_nonneg parsed buffer chunks hfilled),
        dataFlow_unfilled hbuffer hshort]
      refine (ih hstate hchunks).trans ?_
      rw [misaligned_cons, misaligned_cons, or_iff_right (hinside _ hrest hshort),
        or_iff_right (hinside _ hrest (by simpa using hpartial))]
      simp
  | @overruns state filled buffer piece chunks pieces hpiece hfilled hless hlong =>
      rw [sections_len] at hpiece
      refine iff_of_false ?_ ?_
      · rintro ⟨-, halways⟩
        exact absurd (halways 1)
          (not_le.mpr (overrun_of_past hpiece hfilled hless hlong).1)
      · rw [not_not, misaligned_cons, badChunk_cons]
        exact Or.inl (Or.inl ⟨hfilled, hless, hlong⟩)
  | @last state filled buffer chunks hbuffer hfull hlast =>
      have hfilled := length_le_of_full hfull
      obtain ⟨mm, hmm, hloop, hzero, hparsed⟩ :=
        @dataFlow_last _ _ _ _ parsed chunks _ _ hbuffer hfull hlast
      rw [← delivers_step (missing_nonneg parsed buffer chunks hfilled), hmm,
        misaligned_behind hbuffer hfull hchunks]
      refine iff_of_true ?_ (not_misaligned_of_nil _ _)
      exact hparsed ▸ delivers_closed hloop hzero.ge
  | @idles state following filled buffer chunks pieces hbuffer hfull hnext hnone hlen =>
      have hfollowing := (hserves.progresses _ _ _ hstate hnext).1
      rw [sections_len] at hnone
      rw [← delivers_step (missing_nonneg parsed buffer chunks (length_le_of_full hfull)),
        dataFlow_next hbuffer hfull hnext, misaligned_behind hbuffer hfull hchunks,
        List.append_cons parsed (filled ++ buffer.take _) ([] :: pieces), sections_len, hnone]
      refine iff_of_false
        (not_delivers_idle hserves hfollowing hlen (List.cons_ne_nil _ _)) ?_
      rw [not_not, misaligned_cons]
      exact Or.inl ⟨[], [], pieces, rfl, Or.inr ⟨rfl, rfl⟩⟩
  | @next state following filled buffer chunks pieces hbuffer hfull hnext hrest ih =>
      have hfollowing := (hserves.progresses _ _ _ hstate hnext).1
      rw [← delivers_step (missing_nonneg parsed buffer chunks (length_le_of_full hfull)),
        dataFlow_next hbuffer hfull hnext, misaligned_behind hbuffer hfull hchunks,
        List.append_cons parsed (filled ++ buffer.take _) pieces]
      exact ih hfollowing hchunks

/-- From its start, the flow delivers the sections of the stream exactly when no
chunk is bad. -/
theorem delivers_new_iff {I : σ → Prop} (hserves : Serves methods writeOk I)
    {parser : σ} (hparser : I parser) (hlen : 0 < methods.GetMessageLen parser)
    {chunks pieces : List Bytes} (hchunks : ∀ chunk ∈ chunks, chunk ≠ [])
    (hcut : (sections methods writeOk).Cut (parser, []) chunks.flatten pieces) :
    Delivers methods writeOk (NewMessageManager methods parser chunks) pieces ↔
      ¬ Misaligned 0 chunks pieces := by
  have hdelivers := @delivers_iff _ _ _ _ hserves (parser, []) hparser [] [] chunks [] pieces
    hchunks (Or.inl hlen) (by simpa using hcut)
  have hfirst : ¬ BadChunk 0 0 pieces := by
    cases pieces with
    | nil => exact not_badChunk_nil _ _
    | cons piece pieces => exact not_badChunk_inside (hcut.head_length.symm ▸ hlen)
  rw [new_eq, delivers_step (missing_nonneg _ _ _ (Nat.zero_le _))]
  simpa [misaligned_cons, hfirst] using hdelivers

end MessageManager

end Rpcmple.Go
