/-!
# First occurrences

`firstsBy key xs` keeps the elements of a list whose key has not occurred before, in order. Tokens
of a file, nodes and edges of a graph and targets of a listing are all deduplicated this way: the
first element with a key stands for every later one.

The definition removes the later elements of a key behind its first one. `firstsBy_append` says what
a list adds to the first occurrences of the list before it.
-/

namespace ImportChart

/-- The elements of a list whose key has not occurred before, in order. -/
def firstsBy [DecidableEq κ] (key : α → κ) : List α → List α
  | [] => []
  | a :: rest => a :: (firstsBy key rest).filter (fun b => decide (key b ≠ key a))

/-- The elements of a list that have not occurred before, in order. -/
def firsts [DecidableEq α] (xs : List α) : List α :=
  firstsBy id xs

section Laws

variable [DecidableEq κ] {key : α → κ}

@[simp] theorem firstsBy_nil : firstsBy key [] = [] := rfl

theorem firstsBy_cons (a : α) (rest : List α) :
    firstsBy key (a :: rest) = a :: (firstsBy key rest).filter (fun b => decide (key b ≠ key a)) :=
  rfl

/-- First occurrences stand in the list, in its order. -/
theorem firstsBy_sublist (xs : List α) : (firstsBy key xs).Sublist xs := by
  induction xs with
  | nil => exact .slnil
  | cons a rest ih => exact (List.filter_sublist.trans ih).cons_cons a

/-- No two first occurrences share a key. -/
theorem firstsBy_pairwise (xs : List α) :
    (firstsBy key xs).Pairwise (fun a b => key a ≠ key b) := by
  induction xs with
  | nil => exact .nil
  | cons a rest ih =>
    refine .cons (fun b hb => ?_) (ih.filter _)
    exact fun h => (of_decide_eq_true (List.mem_filter.mp hb).2) h.symm

/-- Every key of the list has a first occurrence. -/
theorem exists_mem_firstsBy {xs : List α} {a : α} (h : a ∈ xs) :
    ∃ b ∈ firstsBy key xs, key b = key a := by
  induction xs with
  | nil => exact absurd h List.not_mem_nil
  | cons c rest ih =>
    by_cases hc : key c = key a
    · exact ⟨c, List.mem_cons_self, hc⟩
    · rcases List.mem_cons.mp h with rfl | h
      · exact absurd rfl hc
      · obtain ⟨b, hb, hk⟩ := ih h
        refine ⟨b, List.mem_cons_of_mem _ (List.mem_filter.mpr ⟨hb,
          decide_eq_true fun he => hc ?_⟩), hk⟩
        exact (hk.symm.trans he).symm

/-- A first occurrence is what a search for its key finds. -/
theorem find?_of_mem_firstsBy {xs : List α} {a : α} (h : a ∈ firstsBy key xs) :
    xs.find? (fun b => decide (key b = key a)) = some a := by
  induction xs with
  | nil => exact absurd h List.not_mem_nil
  | cons c rest ih =>
    rcases List.mem_cons.mp h with rfl | h
    · exact List.find?_cons_of_pos (decide_eq_true rfl)
    · obtain ⟨hmem, hne⟩ := List.mem_filter.mp h
      refine (List.find?_cons_of_neg fun heq => ?_).trans (ih hmem)
      exact of_decide_eq_true hne (of_decide_eq_true heq).symm

/-- What a list adds to the first occurrences of the list before it: those of its own whose key is
new. -/
theorem firstsBy_append (xs ys : List α) :
    firstsBy key (xs ++ ys) =
      firstsBy key xs ++ (firstsBy key ys).filter (fun b => decide (∀ a ∈ xs, key b ≠ key a)) := by
  induction xs with
  | nil =>
    exact (List.filter_eq_self.mpr fun _ _ =>
      decide_eq_true fun _ h => absurd h List.not_mem_nil).symm
  | cons a rest ih =>
    rw [List.cons_append, firstsBy_cons, firstsBy_cons, ih, List.filter_append, List.filter_filter,
      List.cons_append]
    refine congrArg (fun t => a :: (_ ++ t)) (List.filter_congr fun b _ => ?_)
    simp only [List.mem_cons, forall_eq_or_imp, Bool.decide_and]

/-- An element with a new key is added at the end. -/
theorem firstsBy_concat_of_new {xs : List α} {a : α} (h : ∀ x ∈ xs, key x ≠ key a) :
    firstsBy key (xs ++ [a]) = firstsBy key xs ++ [a] := by
  rw [firstsBy_append]
  refine congrArg _ (List.filter_cons_of_pos (decide_eq_true fun x hx heq => ?_))
  exact h x hx heq.symm

/-- An element whose key has occurred adds nothing. -/
theorem firstsBy_concat_of_old {xs : List α} {a x : α} (hx : x ∈ xs) (h : key x = key a) :
    firstsBy key (xs ++ [a]) = firstsBy key xs := by
  have hnone : (firstsBy key [a]).filter (fun b => decide (∀ y ∈ xs, key b ≠ key y)) = [] :=
    List.filter_cons_of_neg fun hall => of_decide_eq_true hall x hx h.symm
  rw [firstsBy_append, hnone, List.append_nil]

/-- First occurrences by a key of what a map gives are the map of the first occurrences. -/
theorem map_firstsBy_comp (key : α → κ) (f : β → α) (xs : List β) :
    (firstsBy (fun b => key (f b)) xs).map f = firstsBy key (xs.map f) := by
  induction xs with
  | nil => rfl
  | cons a rest ih =>
    rw [firstsBy_cons, List.map_cons, List.map_cons, firstsBy_cons, ← ih, List.filter_map]
    rfl

/-- The keys of the first occurrences are the first occurrences of the keys. -/
theorem map_firstsBy (xs : List α) : (firstsBy key xs).map key = firstsBy id (xs.map key) :=
  map_firstsBy_comp id key xs

end Laws

theorem mem_firsts [DecidableEq α] {xs : List α} {a : α} : a ∈ firsts xs ↔ a ∈ xs := by
  refine ⟨fun h => (firstsBy_sublist xs).mem h, fun h => ?_⟩
  obtain ⟨b, hb, hk⟩ := @exists_mem_firstsBy _ _ _ id _ _ h
  exact (show b = a from hk) ▸ hb

theorem nodup_firsts [DecidableEq α] (xs : List α) : (firsts xs).Nodup :=
  firstsBy_pairwise xs

/-- A list without repetitions has only first occurrences. -/
theorem firsts_of_nodup [DecidableEq α] {xs : List α} (h : xs.Nodup) : firsts xs = xs := by
  induction xs with
  | nil => rfl
  | cons a rest ih =>
    obtain ⟨hnew, hrest⟩ := List.nodup_cons.mp h
    show a :: (firsts rest).filter (fun b => decide (b ≠ a)) = a :: rest
    rw [ih hrest]
    congr 1
    apply List.filter_eq_self.mpr
    rintro b hb
    exact decide_eq_true fun heq => hnew (heq ▸ hb)

end ImportChart
