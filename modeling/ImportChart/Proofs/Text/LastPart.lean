import Mathlib.Data.List.DropRight

/-!
# Behind the last mark

Some parts of a text are found from its end: the line that it ends in, behind its last line feed, or
the ending of a path, behind its last dot. `behindLast` is this part. It holds no mark and begins
the text or stands behind a mark, and it is the only part of the kind (`behindLast_append_cons`). A
text that grows at its end by one character grows the part by it, or starts the part anew
(`behindLast_concat`).
-/

namespace ImportChart

variable {mark : Char} {text : List Char}

/-- The part of a text behind the last occurrence of a character, or the whole text where there is
none. -/
def behindLast (mark : Char) (text : List Char) : List Char :=
  text.rtakeWhile fun c => decide (c ≠ mark)

theorem not_mem_behindLast (mark : Char) (text : List Char) : mark ∉ behindLast mark text := by
  intro hmark
  have hne := List.mem_rtakeWhile_imp hmark
  exact of_decide_eq_true hne rfl

theorem behindLast_concat (mark : Char) (text : List Char) (c : Char) :
    behindLast mark (text ++ [c]) = if c = mark then [] else behindLast mark text ++ [c] := by
  split
  · next h => exact List.rtakeWhile_concat_neg _ _ _ (not_not_intro h ∘ of_decide_eq_true)
  · next h => exact List.rtakeWhile_concat_pos _ _ _ (decide_eq_true h)

theorem behindLast_append_cons (before : List Char) {after : List Char} (h : mark ∉ after) :
    behindLast mark (before ++ mark :: after) = after := by
  induction after using List.reverseRecOn with
  | nil => rw [behindLast_concat, if_pos rfl]
  | append_singleton after c ih =>
    rw [List.mem_append, List.mem_singleton, not_or] at h
    rw [← List.cons_append, ← List.append_assoc, behindLast_concat, if_neg (Ne.symm h.2), ih h.1]

/-- A text with a mark is what stands before the last one, the mark, and the part behind it. -/
theorem exists_eq_append_behindLast (h : mark ∈ text) :
    ∃ before, text = before ++ mark :: behindLast mark text := by
  induction text using List.reverseRecOn with
  | nil => cases h
  | append_singleton text c ih =>
    rw [behindLast_concat]
    by_cases hc : c = mark
    · rw [if_pos hc, hc]
      exact ⟨text, rfl⟩
    · have hmem : mark ∈ text := by
        rw [List.mem_append, List.mem_singleton] at h
        exact h.resolve_right (Ne.symm hc)
      obtain ⟨before, hbefore⟩ := ih hmem
      refine ⟨before, ?_⟩
      rw [if_neg hc, ← List.cons_append, ← List.append_assoc, ← hbefore]

end ImportChart
