/-
A list cut into pieces of one size, of which only the last may be shorter.
-/

namespace MarketReplay

/-- The pieces of a list, in order; a size of zero gives none. -/
def pieces {α : Type} (size : Nat) (list : List α) : List (List α) :=
  if size = 0 ∨ list.length = 0 then []
  else list.take size :: pieces size (list.drop size)
termination_by list.length
decreasing_by
  rw [List.length_drop]
  omega

variable {α : Type}

theorem pieces_nil (size : Nat) : pieces size ([] : List α) = [] := by
  rw [pieces]
  simp

/-- Nothing is lost or reordered by cutting. -/
theorem flatten_pieces {size : Nat} (h : size ≠ 0) (list : List α) :
    (pieces size list).flatten = list := by
  fun_induction pieces size list with
  | case1 list h' =>
    have : list.length = 0 := h'.resolve_left h
    simp [List.eq_nil_of_length_eq_zero this]
  | case2 list _ ih => simp [ih]

/-- No piece is empty, and none is longer than the size. -/
theorem length_of_mem_pieces {size : Nat} {list piece : List α} (h : piece ∈ pieces size list) :
    0 < piece.length ∧ piece.length ≤ size := by
  fun_induction pieces size list with
  | case1 list h' => simp at h
  | case2 list h' ih =>
    rcases List.mem_cons.1 h with rfl | h
    · rw [List.length_take]
      omega
    · exact ih h

end MarketReplay
