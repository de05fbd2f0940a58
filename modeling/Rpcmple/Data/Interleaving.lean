import Rpcmple.Data.Parties

namespace Rpcmple.Data

variable {α : Type} (keep : α → Prop) [DecidablePred keep]

/-- What the threads have taken so far of the entries to keep, when `left` is still to
come. -/
structure Interleaves (threads left : List (List α)) (taken : List α) : Prop where
  whole : (taken ++ left.flatten.filter fun entry => keep entry).Perm
    (threads.flatten.filter fun entry => keep entry)
  count : left.length = threads.length
  ordered : ∀ (thread : Nat) (rest : List α), left[thread]? = some rest →
    ∃ done, threads[thread]? = some (done ++ rest) ∧
      (done.filter fun entry => keep entry).Sublist taken

namespace Interleaves

variable {keep} {threads left : List (List α)} {taken : List α}

theorem start (threads : List (List α)) : Interleaves keep threads threads [] where
  whole := List.Perm.refl _
  count := rfl
  ordered _ _ hrest := ⟨[], hrest, List.Sublist.refl _⟩

theorem next {thread : Nat} {entry : α} {rest : List α}
    (hinterleaves : Interleaves keep threads left taken)
    (hthread : left[thread]? = some (entry :: rest)) :
    Interleaves keep threads (left.set thread rest)
      (taken ++ [entry].filter fun entry => keep entry) := by
  obtain ⟨front, back, hsplit, hset⟩ := Parties.exists_split hthread
  refine ⟨?_, ?_, ?_⟩
  · refine List.Perm.trans ?_ hinterleaves.whole
    have hentry : entry :: rest = [entry] ++ rest := rfl
    rw [hset, hsplit, List.append_assoc]
    apply List.Perm.append_left
    rw [List.flatten_append, List.flatten_cons, List.flatten_append, List.flatten_cons, hentry,
      List.append_assoc]
    simp only [List.filter_append]
    exact List.perm_append_comm_assoc _ _ _
  · rw [List.length_set]
    exact hinterleaves.count
  · intro other later hlater
    obtain ⟨hindex, -⟩ := List.getElem?_eq_some_iff.mp hthread
    by_cases hother : thread = other
    · subst hother
      rw [List.getElem?_set_self hindex] at hlater
      obtain rfl := Option.some.inj hlater
      obtain ⟨done, hplace, hdone⟩ := hinterleaves.ordered thread _ hthread
      refine ⟨done ++ [entry], by rw [hplace, List.append_assoc]; rfl, ?_⟩
      rw [List.filter_append]
      exact hdone.append (List.Sublist.refl _)
    · rw [List.getElem?_set_ne hother] at hlater
      obtain ⟨done, hplace, hdone⟩ := hinterleaves.ordered other later hlater
      exact ⟨done, hplace, hdone.trans (List.sublist_append_left _ _)⟩

theorem finished (hinterleaves : Interleaves keep threads left taken)
    (hdone : ∀ rest ∈ left, rest = []) :
    taken.Perm (threads.flatten.filter fun entry => keep entry) ∧
      ∀ entries ∈ threads, (entries.filter fun entry => keep entry).Sublist taken := by
  obtain ⟨hwhole, hcount, hordered⟩ := hinterleaves
  constructor
  · rwa [List.flatten_eq_nil_iff.mpr hdone, List.filter_nil, List.append_nil] at hwhole
  · intro entries hmem
    obtain ⟨thread, hindex, rfl⟩ := List.mem_iff_getElem.mp hmem
    obtain ⟨rest, hrest⟩ : ∃ rest, left[thread]? = some rest :=
      ⟨_, List.getElem?_eq_getElem (hcount.symm ▸ hindex)⟩
    obtain ⟨done, hplace, hsublist⟩ := hordered thread rest hrest
    obtain rfl := hdone rest (List.mem_of_getElem? hrest)
    rw [List.getElem?_eq_getElem hindex, List.append_nil] at hplace
    obtain rfl := Option.some.inj hplace
    exact hsublist

end Interleaves

end Rpcmple.Data
