import Rpcmple.Data.Sections

namespace Rpcmple

open Data

/-! Frames: a body behind four bytes that hold its length, below a number or flag. -/

structure Frame where
  high : Nat
  body : Bytes
  deriving DecidableEq, Repr

namespace Frame

/-- The header, whose two parts add up in 32 bits. -/
def header (high size : Nat) : Bytes := leBytes 4 (high * 16777216 + size)

def bytes (frame : Frame) : Bytes := header frame.high frame.body.length ++ frame.body

/-- Both parts of the header fit their bits. -/
def Fits (frame : Frame) : Prop := frame.high < 256 ∧ frame.body.length < 16777216

instance (frame : Frame) : Decidable frame.Fits := by
  unfold Fits
  infer_instance

@[simp] theorem length_header (high size : Nat) : (header high size).length = 4 :=
  length_leBytes 4 _

theorem leValue_header {high size : Nat} (hhigh : high < 256) (hsize : size < 16777216) :
    leValue (header high size) = high * 16777216 + size :=
  leValue_leBytes (by omega)

theorem header_of_length {piece : Bytes} (hlength : piece.length = 4) :
    piece = header (leValue piece / 16777216) (leValue piece % 16777216) := by
  have hvalue : leValue piece / 16777216 * 16777216 + leValue piece % 16777216 =
      leValue piece := by omega
  rw [header, hvalue, leBytes_leValue_of_length hlength]

/-- The first frame of a stream, when all of it is there. -/
def split? (bytes : Bytes) : Option (Frame × Bytes) :=
  (splitBytes? 4 bytes).bind fun front =>
    (splitBytes? (leValue front.1 % 16777216) front.2).map fun back =>
      (⟨leValue front.1 / 16777216, back.1⟩, back.2)

theorem split?_eq_some {bytes rest : Bytes} {frame : Frame} :
    split? bytes = some (frame, rest) ↔ frame.Fits ∧ frame.bytes ++ rest = bytes := by
  constructor
  · intro hsplit
    obtain ⟨⟨piece, behind⟩, hfront, hback⟩ := Option.bind_eq_some_iff.mp hsplit
    obtain ⟨⟨body, tail⟩, hbody, hframe⟩ := Option.map_eq_some_iff.mp hback
    obtain ⟨hlength, rfl⟩ := splitBytes?_eq_some.mp hfront
    obtain ⟨hsize, rfl⟩ := splitBytes?_eq_some.mp hbody
    obtain ⟨rfl, rfl⟩ := Prod.mk.inj hframe
    have hbound : leValue piece < 256 ^ 4 := leValue_lt_of_length hlength
    refine ⟨⟨by simp only; omega, by simp only; omega⟩, ?_⟩
    rw [bytes, hsize, ← header_of_length hlength, List.append_assoc]
  · rintro ⟨⟨hhigh, hsize⟩, rfl⟩
    have hvalue := leValue_header hhigh hsize
    have hlow : leValue (header frame.high frame.body.length) % 16777216 =
        frame.body.length := by omega
    have hnumber : leValue (header frame.high frame.body.length) / 16777216 =
        frame.high := by omega
    rw [split?, bytes, List.append_assoc, splitBytes?_append _ (length_header _ _),
      Option.bind_some, splitBytes?_append rest hlow.symm, Option.map_some, hnumber]

theorem split?_bytes {frame : Frame} (hfits : frame.Fits) (rest : Bytes) :
    split? (frame.bytes ++ rest) = some (frame, rest) :=
  split?_eq_some.mpr ⟨hfits, rfl⟩

theorem length_bytes (frame : Frame) : frame.bytes.length = 4 + frame.body.length := by
  rw [bytes, List.length_append, length_header]

theorem prefix_of_bytes {first second : List Frame} (hfirst : ∀ frame ∈ first, frame.Fits)
    (hsecond : ∀ frame ∈ second, frame.Fits)
    (hfront : first.flatMap bytes <+: second.flatMap bytes) : first <+: second := by
  induction first generalizing second with
  | nil => exact List.nil_prefix
  | cons frame first ih =>
      rw [List.forall_mem_cons] at hfirst
      obtain ⟨rest, hrest⟩ := hfront
      rw [List.flatMap_cons, List.append_assoc] at hrest
      have hsplit := split?_bytes hfirst.1 (first.flatMap bytes ++ rest)
      rw [hrest] at hsplit
      cases second with
      | nil => cases hsplit
      | cons other second =>
          rw [List.forall_mem_cons] at hsecond
          rw [List.flatMap_cons, split?_bytes hsecond.1] at hsplit
          obtain ⟨rfl, htail⟩ := Prod.mk.inj (Option.some.inj hsplit)
          rw [List.cons_prefix_cons]
          exact ⟨rfl, ih hfirst.2 hsecond.2 ⟨rest, htail.symm⟩⟩

theorem split?_eq_none {bytes : Bytes} :
    split? bytes = none ↔ bytes.length < 4 ∨
      ∃ high size rest, high < 256 ∧ size < 16777216 ∧ bytes = header high size ++ rest ∧
        rest.length < size := by
  constructor
  · intro hsplit
    rw [split?, Option.bind_eq_none_iff] at hsplit
    by_cases hshort : bytes.length < 4
    · exact Or.inl hshort
    · refine Or.inr ?_
      have hfront : splitBytes? 4 bytes = some (bytes.take 4, bytes.drop 4) := by
        rw [splitBytes?, if_pos (by omega)]
      have hlength : (bytes.take 4).length = 4 := List.length_take_of_le (by omega)
      have hbound : leValue (bytes.take 4) < 256 ^ 4 := leValue_lt_of_length hlength
      have hback := hsplit _ hfront
      rw [Option.map_eq_none_iff, splitBytes?_eq_none] at hback
      refine ⟨leValue (bytes.take 4) / 16777216, leValue (bytes.take 4) % 16777216,
        bytes.drop 4, by omega, by omega, ?_, hback⟩
      rw [← header_of_length hlength, List.take_append_drop]
  · rintro (hshort | ⟨high, size, rest, hhigh, hsize, rfl, hrest⟩)
    · rw [split?, splitBytes?_eq_none.mpr hshort, Option.bind_none]
    · have hlow : leValue (header high size) % 16777216 = size := by
        rw [leValue_header hhigh hsize]
        omega
      rw [split?, splitBytes?_append _ (length_header _ _), Option.bind_some, hlow,
        splitBytes?_eq_none.mpr hrest, Option.map_none]

variable {τ β : Type}

/-- The frames of a stream, each with the state it is handled in, and the state handling
ends in.  The last frame is the first that is refused, if there is one. -/
inductive Runs (handle : τ → Frame → Option τ) : τ → Bytes → List (τ × Frame) → τ → Prop where
  | short {state : τ} {bytes : Bytes} :
      split? bytes = none → Runs handle state bytes [] state
  | last {state : τ} {frame : Frame} {rest : Bytes} :
      frame.Fits → handle state frame = none →
      Runs handle state (frame.bytes ++ rest) [(state, frame)] state
  | next {state following final : τ} {frame : Frame} {rest : Bytes}
      {frames : List (τ × Frame)} :
      frame.Fits → handle state frame = some following →
      Runs handle following rest frames final →
      Runs handle state (frame.bytes ++ rest) ((state, frame) :: frames) final

def taken (handle : τ → Frame → Option τ) : τ → List Frame → List (τ × Frame)
  | _, [] => []
  | state, frame :: frames =>
      (state, frame) :: (handle state frame).elim [] fun following =>
        taken handle following frames

variable {handle : τ → Frame → Option τ} {state final : τ}

theorem Runs.exists (handle : τ → Frame → Option τ) (state : τ) (bytes : Bytes) :
    ∃ frames final, Runs handle state bytes frames final := by
  induction hsize : bytes.length using Nat.strong_induction_on generalizing state bytes with
  | _ size ih =>
      cases hsplit : split? bytes with
      | none => exact ⟨[], state, .short hsplit⟩
      | some result =>
          obtain ⟨frame, rest⟩ := result
          obtain ⟨hfits, rfl⟩ := split?_eq_some.mp hsplit
          cases hhandle : handle state frame with
          | none => exact ⟨_, _, .last hfits hhandle⟩
          | some following =>
              obtain ⟨frames, final, hruns⟩ := ih rest.length (by
                rw [← hsize, bytes, List.length_append, List.length_append, length_header]
                omega) following rest rfl
              exact ⟨_, _, .next hfits hhandle hruns⟩

theorem Runs.of_append {frame : Frame} {rest : Bytes} {frames : List (τ × Frame)}
    (hruns : Runs handle state (frame.bytes ++ rest) frames final) (hfits : frame.Fits) :
    (handle state frame = none ∧ frames = [(state, frame)] ∧ final = state) ∨
      ∃ following tail, handle state frame = some following ∧
        Runs handle following rest tail final ∧ frames = (state, frame) :: tail := by
  have hsplit := split?_bytes hfits rest
  generalize frame.bytes ++ rest = bytes at hruns hsplit
  cases hruns with
  | short hnone =>
      rw [hnone] at hsplit
      cases hsplit
  | last hother hhandle =>
      rw [split?_bytes hother] at hsplit
      cases hsplit
      exact Or.inl ⟨hhandle, rfl, rfl⟩
  | next hother hhandle htail =>
      rw [split?_bytes hother] at hsplit
      cases hsplit
      exact Or.inr ⟨_, _, hhandle, htail, rfl⟩

theorem Runs.of_fits {sent : List Frame} {frames : List (τ × Frame)}
    (hfits : ∀ frame ∈ taken handle state sent, frame.2.Fits)
    (hruns : Runs handle state (sent.flatMap bytes) frames final) :
    frames = taken handle state sent := by
  induction sent generalizing state frames with
  | nil =>
      cases hruns with
      | short _ => rfl
  | cons frame sent ih =>
      rw [taken, List.forall_mem_cons] at hfits
      rw [List.flatMap_cons] at hruns
      rcases hruns.of_append hfits.1 with
        ⟨hhandle, rfl, -⟩ | ⟨following, tail, hhandle, htail, rfl⟩
      · rw [taken, hhandle, Option.elim_none]
      · rw [hhandle, Option.elim_some] at hfits
        rw [taken, hhandle, Option.elim_some, ih hfits.2 htail]

theorem Runs.of_handled {front : List Frame} {following : τ} {rest : Bytes}
    {frames : List (τ × Frame)} (hfits : ∀ frame ∈ front, frame.Fits)
    (hhandled : front.foldlM handle state = some following)
    (hruns : Runs handle following rest frames final) :
    ∃ visited, Runs handle state (front.flatMap bytes ++ rest) (visited ++ frames) final := by
  induction front generalizing state with
  | nil =>
      obtain rfl := Option.some.inj hhandled
      exact ⟨[], hruns⟩
  | cons frame front ih =>
      rw [List.forall_mem_cons] at hfits
      rw [List.foldlM_cons] at hhandled
      obtain ⟨middle, hframe, hfront⟩ := Option.bind_eq_some_iff.mp hhandled
      obtain ⟨visited, hvisited⟩ := ih hfits.2 hfront
      refine ⟨(state, frame) :: visited, ?_⟩
      rw [List.flatMap_cons, List.append_assoc]
      exact .next hfits.1 hframe hvisited

/-- What is observed of the frames of a stream is what was sent exactly when every frame
fits and none but the last is refused, for an observation that tells a frame from what else
its bytes may begin with. -/
theorem Runs.recovers_iff {observe : Frame → β} {P : Frame → Prop}
    (hobserve : ∀ frame seen rest behind, P frame → ¬ frame.Fits →
      split? (frame.bytes ++ rest) = some (seen, behind) → observe seen ≠ observe frame)
    {sent : List Frame} (hsent : ∀ frame ∈ sent, P frame) {frames : List (τ × Frame)}
    (hruns : Runs handle state (sent.flatMap bytes) frames final) :
    frames.map (fun frame => observe frame.2) = sent.map observe ↔
      (∀ frame ∈ sent, frame.Fits) ∧ (taken handle state sent).map Prod.snd = sent := by
  constructor
  · intro hsame
    induction sent generalizing state frames with
    | nil => simp [taken]
    | cons frame sent ih =>
        rw [List.forall_mem_cons] at hsent
        rw [List.flatMap_cons] at hruns
        by_cases hfits : frame.Fits
        · rcases hruns.of_append hfits with
            ⟨hhandle, rfl, -⟩ | ⟨following, tail, hhandle, htail, rfl⟩
          · have hlast := congrArg List.length hsame
            simp only [List.map_cons, List.length_cons, List.length_map, List.length_nil]
              at hlast
            obtain rfl := List.length_eq_zero_iff.mp (by omega : sent.length = 0)
            simp [taken, hhandle, hfits]
          · rw [List.map_cons, List.map_cons, List.cons.injEq] at hsame
            obtain ⟨hothers, htaken⟩ := ih hsent.2 htail hsame.2
            rw [List.forall_mem_cons, taken, hhandle, Option.elim_some, List.map_cons, htaken]
            exact ⟨⟨hfits, hothers⟩, rfl⟩
        · -- Whatever is seen first, it is not this frame.
          refine absurd hsame ?_
          rw [List.map_cons]
          generalize hbytes : frame.bytes ++ sent.flatMap bytes = stream at hruns
          cases hruns with
          | short _ => simp
          | last hother _ | next hother _ _ =>
              rw [List.map_cons, List.cons.injEq, not_and_or]
              exact Or.inl (hobserve frame _ _ _ hsent.1 hfits
                (split?_eq_some.mpr ⟨hother, hbytes.symm⟩))
  · rintro ⟨hfits, htaken⟩
    have hvisited : ∀ frame ∈ taken handle state sent, frame.2.Fits := by
      intro frame hmem
      exact hfits _ (htaken ▸ List.mem_map_of_mem hmem)
    rw [hruns.of_fits hvisited]
    conv_rhs => rw [← htaken]
    rw [List.map_map]
    rfl

theorem split?_of_full {frame seen : Frame} {rest behind : Bytes}
    (hfull : frame.body.length = 16777216)
    (hsplit : split? (frame.bytes ++ rest) = some (seen, behind)) : seen.body = [] := by
  obtain ⟨⟨hhigh, hsize⟩, hbytes⟩ := split?_eq_some.mp hsplit
  simp only [bytes, List.append_assoc] at hbytes
  obtain ⟨hheader, -⟩ := List.append_inj hbytes (by simp)
  have hvalue := congrArg leValue hheader
  rw [leValue_header hhigh hsize, header, leValue_leBytes_mod, hfull] at hvalue
  apply List.length_eq_zero_iff.mp
  omega

end Frame

/-- A receiver of sections that are frames taken apart: where it waits for a header,
where for a body, what it does with a frame, and what of it can be observed when a
section completes a frame.  `eager` receivers take an empty body with its header. -/
structure FrameReader {σ : Type} (cutter : Cutter σ) (τ β : Type) where
  atHeader : τ → σ
  atBody : τ → Nat → Nat → σ
  handle : τ → Frame → Option τ
  observe : τ → Frame → β
  observed : σ → Bytes → Option β
  eager : Bool
  len_header : ∀ state, cutter.len (atHeader state) = 4
  len_body : ∀ state high size, size < 16777216 → cutter.len (atBody state high size) = size
  header : ∀ state high size, high < 256 → size < 16777216 → ¬ (eager = true ∧ size = 0) →
    cutter.accept (atHeader state) (Frame.header high size) = some (atBody state high size) ∧
      observed (atHeader state) (Frame.header high size) = none
  empty : ∀ state high, high < 256 → eager = true →
    cutter.accept (atHeader state) (Frame.header high 0) =
        (handle state ⟨high, []⟩).map atHeader ∧
      observed (atHeader state) (Frame.header high 0) = some (observe state ⟨high, []⟩)
  body : ∀ state (frame : Frame), frame.Fits → ¬ (eager = true ∧ frame.body.length = 0) →
    cutter.accept (atBody state frame.high frame.body.length) frame.body =
        (handle state frame).map atHeader ∧
      observed (atBody state frame.high frame.body.length) frame.body =
        some (observe state frame)

namespace FrameReader

variable {σ τ β : Type} {cutter : Cutter σ} (reader : FrameReader cutter τ β)

def observations (visited : List (σ × Bytes)) : List β :=
  visited.filterMap fun visit => reader.observed visit.1 visit.2

theorem runs_frame {state : τ} {frame : Frame} (hfits : frame.Fits) (rest : Bytes) :
    ∃ pieces, reader.observations pieces = [reader.observe state frame] ∧
      (reader.handle state frame = none →
        ∃ last, cutter.Runs (reader.atHeader state) (frame.bytes ++ rest) pieces last ∧
          (last = reader.atHeader state ∨ ∃ high size, last = reader.atBody state high size)) ∧
      ∀ following visited last, reader.handle state frame = some following →
        cutter.Runs (reader.atHeader following) rest visited last →
        cutter.Runs (reader.atHeader state) (frame.bytes ++ rest) (pieces ++ visited) last := by
  obtain ⟨high, body⟩ := frame
  have hheader : (Frame.header high body.length).length =
      cutter.len (reader.atHeader state) := by
    rw [reader.len_header, Frame.length_header]
  by_cases hempty : reader.eager = true ∧ body.length = 0
  · obtain ⟨heager, hbody⟩ := hempty
    obtain rfl := List.length_eq_zero_iff.mp hbody
    obtain ⟨haccept, hobserved⟩ := reader.empty state high hfits.1 heager
    refine ⟨[(reader.atHeader state, Frame.header high 0)], ?_, ?_, ?_⟩
    · simp [observations, hobserved]
    · intro hhandle
      rw [hhandle, Option.map_none] at haccept
      refine ⟨_, ?_, Or.inl rfl⟩
      rw [Frame.bytes, List.append_nil]
      exact .last hheader haccept
    · intro following visited last hhandle hruns
      rw [hhandle, Option.map_some] at haccept
      rw [Frame.bytes, List.append_nil]
      exact .next hheader haccept hruns
  · obtain ⟨haccept, hobserved⟩ := reader.header state high body.length hfits.1 hfits.2 hempty
    obtain ⟨hbody, hdone⟩ := reader.body state ⟨high, body⟩ hfits hempty
    have hlength : body.length = cutter.len (reader.atBody state high body.length) :=
      (reader.len_body state high body.length hfits.2).symm
    refine ⟨[(reader.atHeader state, Frame.header high body.length),
      (reader.atBody state high body.length, body)], ?_, ?_, ?_⟩
    · simp [observations, hobserved, hdone]
    · intro hhandle
      rw [hhandle, Option.map_none] at hbody
      refine ⟨_, ?_, Or.inr ⟨high, body.length, rfl⟩⟩
      rw [Frame.bytes, List.append_assoc]
      exact .next hheader haccept (.last hlength hbody)
    · intro following visited last hhandle hruns
      rw [hhandle, Option.map_some] at hbody
      rw [Frame.bytes, List.append_assoc]
      exact .next hheader haccept (.next hlength hbody hruns)

theorem exists_runs {state final : τ} {bytes : Bytes} {frames : List (τ × Frame)}
    (hruns : Frame.Runs reader.handle state bytes frames final) :
    ∃ visited last, cutter.Runs (reader.atHeader state) bytes visited last ∧
      reader.observations visited = frames.map (fun frame => reader.observe frame.1 frame.2) ∧
      (last = reader.atHeader final ∨ ∃ high size, last = reader.atBody final high size) := by
  induction hruns with
  | @short state bytes hsplit =>
      rcases Frame.split?_eq_none.mp hsplit with
        hshort | ⟨high, size, rest, hhigh, hsize, rfl, hrest⟩
      · refine ⟨[], _, .short ?_, rfl, Or.inl rfl⟩
        rw [reader.len_header]
        exact hshort
      · obtain ⟨haccept, hobserved⟩ :=
          reader.header state high size hhigh hsize fun hboth => by omega
        refine ⟨[(reader.atHeader state, Frame.header high size)], _,
          .next ?_ haccept (.short ?_), ?_, Or.inr ⟨high, size, rfl⟩⟩
        · rw [reader.len_header, Frame.length_header]
        · rw [reader.len_body state high size hsize]
          exact hrest
        · simp [observations, hobserved]
  | @last state frame rest hfits hhandle =>
      obtain ⟨pieces, hobservations, hlast, -⟩ := reader.runs_frame hfits rest
      obtain ⟨last, hruns, hwhere⟩ := hlast hhandle
      exact ⟨pieces, last, hruns, hobservations, hwhere⟩
  | @next state following final frame rest frames hfits hhandle _ ih =>
      obtain ⟨visited, last, hruns, htail, hwhere⟩ := ih
      obtain ⟨pieces, hobservations, -, hnext⟩ := reader.runs_frame hfits rest
      refine ⟨pieces ++ visited, last, hnext following visited last hhandle hruns, ?_, hwhere⟩
      rw [observations, List.filterMap_append, ← observations, ← observations, hobservations,
        htail, List.singleton_append, List.map_cons]

theorem recovers_iff {observe : Frame → β} {P : Frame → Prop}
    (hreader : ∀ state frame, reader.observe state frame = observe frame)
    (hobserve : ∀ frame seen rest behind, P frame → ¬ frame.Fits →
      Frame.split? (frame.bytes ++ rest) = some (seen, behind) → observe seen ≠ observe frame)
    {sent : List Frame} (hsent : ∀ frame ∈ sent, P frame) (state : τ) :
    ∃ visited last,
      cutter.Runs (reader.atHeader state) (sent.flatMap Frame.bytes) visited last ∧
        (reader.observations visited = sent.map observe ↔
          (∀ frame ∈ sent, frame.Fits) ∧
            (Frame.taken reader.handle state sent).map Prod.snd = sent) := by
  obtain ⟨frames, final, hframes⟩ :=
    Frame.Runs.exists reader.handle state (sent.flatMap Frame.bytes)
  obtain ⟨visited, last, hruns, hobservations, -⟩ := reader.exists_runs hframes
  refine ⟨visited, last, hruns, ?_⟩
  rw [hobservations, ← hframes.recovers_iff hobserve hsent]
  simp only [hreader]

end FrameReader

end Rpcmple
