import Mathlib

namespace Rpcmple.Data

namespace Parties

variable {α : Type} {parties : List α} {index other : Nat} {party third : α}

theorem sum_set (share : α → Nat) (hparty : parties[index]? = some party) (next : α) :
    ((parties.set index next).map share).sum + share party =
      (parties.map share).sum + share next := by
  induction parties generalizing index with
  | nil => simp at hparty
  | cons head tail ih =>
      cases index with
      | zero =>
          obtain rfl : head = party := by simpa using hparty
          simp only [List.set_cons_zero, List.map_cons, List.sum_cons]
          omega
      | succ index =>
          have hrest := @ih index (by simpa using hparty)
          simp only [List.set_cons_succ, List.map_cons, List.sum_cons]
          omega

theorem le_sum (share : α → Nat) (hparty : parties[index]? = some party) :
    share party ≤ (parties.map share).sum :=
  List.le_sum_of_mem (List.mem_map_of_mem (List.mem_of_getElem? hparty))

theorem add_le_sum (share : α → Nat) (hparty : parties[index]? = some party)
    (hthird : parties[other]? = some third) (hother : other ≠ index) :
    share party + share third ≤ (parties.map share).sum := by
  induction parties generalizing index other with
  | nil => simp at hparty
  | cons head tail ih =>
      rw [List.map_cons, List.sum_cons]
      cases index with
      | zero =>
          cases other with
          | zero => exact absurd rfl hother
          | succ other =>
              obtain rfl : head = party := by simpa using hparty
              have hle := @le_sum _ tail other third share (by simpa using hthird)
              omega
      | succ index =>
          cases other with
          | zero =>
              obtain rfl : head = third := by simpa using hthird
              have hle := @le_sum _ tail index party share (by simpa using hparty)
              omega
          | succ other =>
              have hle := @ih index other (by simpa using hparty) (by simpa using hthird)
                fun heq => hother (congrArg Nat.succ heq)
              omega

theorem exists_split (hparty : parties[index]? = some party) :
    ∃ front back, parties = front ++ party :: back ∧
      ∀ next, parties.set index next = front ++ next :: back := by
  obtain ⟨hindex, rfl⟩ := List.getElem?_eq_some_iff.mp hparty
  refine ⟨parties.take index, parties.drop (index + 1), ?_, fun next => ?_⟩
  · rw [List.cons_getElem_drop_succ, List.take_append_drop]
  · exact List.set_eq_take_cons_drop next hindex

end Parties

end Rpcmple.Data
