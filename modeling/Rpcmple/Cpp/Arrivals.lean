import Rpcmple.Cpp.Framing

namespace Rpcmple.Cpp

open Data

namespace MessageManager

variable {σ : Type} {methods : Parser σ} {writeOk : List Bytes → Bytes → Bool}
  {mm : MessageManager σ}

def expecting (mm : MessageManager σ) (incoming : List Bytes) : MessageManager σ :=
  { mm with incoming }

theorem idle_expecting (tail : List Bytes) :
    (mm.expecting tail).idle methods writeOk = (mm.idle methods writeOk).expecting tail := by
  simp only [idle, expecting, stop]
  cases methods.writeMessage mm.parser [] with
  | none => rfl
  | some result =>
      simp only
      cases send writeOk result 0 mm.written <;> rfl

/-- Waiting for bytes of which none will come. -/
def Starved (mm : MessageManager σ) : Prop :=
  mm.loop = .outer ∧ mm.stopRequested = false ∧ 0 < mm.messageLength ∧ mm.incoming = []

instance : Decidable mm.Starved :=
  inferInstanceAs (Decidable (_ ∧ _ ∧ _ ∧ _))

theorem dataFlow_expecting (hgoes : ¬ mm.Starved) :
    ∃ consumed, mm.incoming = consumed ++ (mm.dataFlow methods writeOk).incoming ∧
      ∀ tail, (mm.expecting (consumed ++ tail)).dataFlow methods writeOk =
        (mm.dataFlow methods writeOk).expecting tail := by
  have hsame : ∀ tail, (mm.expecting tail).loop = mm.loop := fun _ => rfl
  unfold dataFlow
  simp only [hsame]
  cases hloop : mm.loop with
  | first =>
      refine ⟨[], ?_, fun tail => ?_⟩
      · simp only [firstMessage, stop]
        split
        · split
          · rfl
          · split <;> rfl
        · rfl
      · simp only [firstMessage, expecting, stop, List.nil_append]
        by_cases hrequester : methods.isRequester = true
        · simp only [if_pos hrequester]
          cases methods.writeMessage mm.parser [] with
          | none => rfl
          | some result =>
              simp only
              cases send writeOk result result.2.1.length mm.written <;> rfl
        · simp only [if_neg hrequester]
  | outer =>
      simp only [outerRound]
      by_cases hstopped : mm.stopRequested = true
      · exact ⟨[], by simp [hstopped], fun tail => by simp [expecting, hstopped]⟩
      · by_cases hlength : mm.messageLength > 0
        · simp only [if_neg hstopped, if_pos hlength]
          cases hincoming : mm.incoming with
          | nil => exact absurd ⟨hloop, by simpa using hstopped, hlength, hincoming⟩ hgoes
          | cons chunk incoming =>
              exact ⟨[chunk], rfl, fun tail => by simp [expecting, hstopped, hlength]⟩
        · simp only [if_neg hstopped, if_neg hlength]
          refine ⟨[], ?_, fun tail => ?_⟩
          · simp only [idle, stop]
            split
            · rfl
            · split <;> rfl
          · change (if mm.stopRequested = true then _ else if mm.messageLength > 0 then _
              else (mm.expecting tail).idle methods writeOk) = _
            rw [if_neg hstopped, if_neg hlength, idle_expecting]
  | inner =>
      refine ⟨[], ?_, fun tail => ?_⟩
      · simp only [innerRound, parse, stop]
        split
        · split
          · split <;> rfl
          · rfl
        · rfl
      · have htransfer : (mm.expecting tail).transfer = mm.transfer.expecting tail := rfl
        simp only [innerRound, List.nil_append, htransfer]
        by_cases hmore : mm.bytesParsed < mm.bytesRead
        · by_cases hdone : mm.transfer.messageMissingBytes = 0
          · simp only [expecting, hmore, hdone, if_true, parse, stop]
            split <;> rfl
          · simp only [expecting, hmore, hdone, if_true, if_false]
        · simp only [expecting, hmore, if_false]
  | reply =>
      refine ⟨[], ?_, fun tail => ?_⟩
      · simp only [replyRound, stop]
        split
        · rfl
        · split <;> rfl
      · simp only [replyRound, expecting, stop, List.nil_append]
        cases methods.writeMessage mm.parser replyMessage with
        | none => rfl
        | some result =>
            simp only
            cases send writeOk result mm.message.length mm.written <;> rfl
  | closed | terminated => exact ⟨[], rfl, fun _ => rfl⟩

theorem dataFlow_starved (hstarved : mm.Starved) :
    (mm.dataFlow methods writeOk).loop = .closed := by
  obtain ⟨hloop, hrunning, hlength, hincoming⟩ := hstarved
  rw [dataFlow, hloop]
  simp only [outerRound, hrunning, Bool.false_eq_true, if_false, if_pos hlength, hincoming]

theorem iterate_expecting {n : Nat}
    (hgoes : ((dataFlow methods writeOk)^[n] mm).loop ≠ .closed) :
    ∃ consumed, mm.incoming = consumed ++ ((dataFlow methods writeOk)^[n] mm).incoming ∧
      ∀ tail, (dataFlow methods writeOk)^[n] (mm.expecting (consumed ++ tail)) =
        ((dataFlow methods writeOk)^[n] mm).expecting tail := by
  induction n with
  | zero => exact ⟨[], rfl, fun _ => rfl⟩
  | succ n ih =>
      rw [Function.iterate_succ_apply'] at hgoes ⊢
      have hbefore : ((dataFlow methods writeOk)^[n] mm).loop ≠ .closed := by
        intro hclosed
        apply hgoes
        rw [dataFlow, hclosed]
        exact hclosed
      have hfed : ¬ ((dataFlow methods writeOk)^[n] mm).Starved := by
        intro hstarved
        apply hgoes
        exact dataFlow_starved hstarved
      obtain ⟨front, hfront, hrun⟩ := ih hbefore
      obtain ⟨back, hback, hstep⟩ := @dataFlow_expecting _ methods writeOk _ hfed
      refine ⟨front ++ back, ?_, fun tail => ?_⟩
      · rw [hfront, hback, List.append_assoc]
      · rw [Function.iterate_succ_apply', List.append_assoc, hrun, hstep]

def fed (mm : MessageManager σ) (more : List Bytes) : MessageManager σ :=
  mm.expecting (mm.incoming ++ more)

theorem dataFlow_fed (hfed : ¬ mm.Starved) (more : List Bytes) :
    (mm.fed more).dataFlow methods writeOk = (mm.dataFlow methods writeOk).fed more := by
  obtain ⟨consumed, hincoming, hstep⟩ := @dataFlow_expecting _ methods writeOk _ hfed
  rw [fed, hincoming, List.append_assoc, hstep]
  rfl

theorem Ready.fed {I : σ → Prop} (hready : Ready methods I mm) {more : List Bytes}
    (hmore : ∀ chunk ∈ more, chunk.length ≤ readBufferSize) : Ready methods I (mm.fed more) :=
  ⟨hready.counted, hready.small, List.forall_mem_append.mpr ⟨hready.chunks, hmore⟩,
    hready.placed⟩

/-- What has arrived is `got`: with anything more, the manager owes what the whole stream
asks for. -/
structure Streams (methods : Parser σ) (writeOk : List Bytes → Bytes → Bool) (I : σ → Prop)
    (start : σ) (got : Bytes) (mm : MessageManager σ) : Prop where
  ready : Ready methods I mm
  owes : ∀ more, (∀ chunk ∈ more, chunk.length ≤ readBufferSize) → ∀ pieces replies,
    HandlesAll methods writeOk start (got ++ more.flatten) pieces replies →
    View.Owes methods writeOk pieces replies (mm.fed more).view

variable {I : σ → Prop} {start : σ} {got : Bytes}

theorem streams_init (hstart : I start) :
    Streams methods writeOk I start [] (init methods start []) where
  ready := init_ready hstart (by simp)
  owes _ _ _ _ hhandles := ⟨rfl, rfl, hhandles⟩

theorem Streams.arrives (hstreams : Streams methods writeOk I start got mm) {chunk : Bytes}
    (hchunk : chunk.length ≤ readBufferSize) :
    Streams methods writeOk I start (got ++ chunk) (mm.fed [chunk]) where
  ready := hstreams.ready.fed (by simpa using hchunk)
  owes more hmore pieces replies hhandles := by
    have howes := hstreams.owes (chunk :: more) (List.forall_mem_cons.mpr ⟨hchunk, hmore⟩)
      pieces replies (by rwa [List.flatten_cons, ← List.append_assoc])
    have hsame : (mm.fed [chunk]).fed more = mm.fed (chunk :: more) := by
      simp [fed, expecting]
    rwa [hsame]

theorem Streams.flows (hsectional : Sectional methods I)
    (hstreams : Streams methods writeOk I start got mm) (hfed : ¬ mm.Starved) :
    Streams methods writeOk I start got (mm.dataFlow methods writeOk) where
  ready := (dataFlow_spec hsectional hstreams.ready).1
  owes more hmore pieces replies hhandles := by
    rw [← dataFlow_fed hfed]
    exact View.owes_advance (dataFlow_spec hsectional (hstreams.ready.fed hmore)).2
      (hstreams.owes more hmore pieces replies hhandles)

theorem Streams.parsed_front (hstreams : Streams methods writeOk I start got mm)
    {rest : Bytes} {pieces : List (σ × Bytes)} {replies : List Bytes}
    (hhandles : HandlesAll methods writeOk start (got ++ rest) pieces replies) :
    mm.parsed <+: pieces := by
  have hbytes : (rest.map fun byte => [byte]).flatten = rest := by
    rw [← List.flatMap_def, List.flatMap_singleton']
  have howes := hstreams.owes (rest.map fun byte => [byte])
    (by simp [readBufferSize]) pieces replies (by rwa [hbytes])
  exact howes.parsed_front

theorem Streams.done (hstreams : Streams methods writeOk I start got mm)
    (hrests : Rests methods mm ∨ mm.Starved) {pieces : List (σ × Bytes)}
    {replies : List Bytes} (hhandles : HandlesAll methods writeOk start got pieces replies) :
    mm.parsed = pieces ∧ mm.written = replies := by
  have howes : View.Owes methods writeOk pieces replies mm.view := by
    have hnone := hstreams.owes [] (by simp) pieces replies (by simpa using hhandles)
    simpa [fed, expecting] using hnone
  rcases hrests with hrests | ⟨hloop, hrunning, hlength, hincoming⟩
  · exact done_of_rests howes hrests
  · have hplaced := hstreams.ready.placed
    have hsum := hstreams.ready.counted.1
    simp only [Placed, hloop] at hplaced
    simp only [View.Owes, view, hloop, hincoming, List.flatten_nil, List.append_nil] at howes
    obtain ⟨rest, ⟨visited, final, hruns, rfl, hfinal⟩, hpieces⟩ := howes
    have hshort : mm.filled.length < mm.messageLength := by
      rw [filled, List.length_take]
      omega
    obtain ⟨rfl, rfl⟩ := hruns.of_short hshort
    rw [visits_nil, List.append_nil] at hpieces
    exact ⟨hpieces, hfinal⟩

end MessageManager

end Rpcmple.Cpp
