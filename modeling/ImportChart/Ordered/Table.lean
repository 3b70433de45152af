/-!
# Tables in the order of their keys' first entry

A table pairs keys with values. Entering a key again keeps its place and replaces its value, so
`Table.ofPairs` shows each key once, where it was first entered, with the value entered last.
-/

namespace ImportChart

/-- Keys with their values, in the order in which the keys were first entered. -/
abbrev Table (κ α : Type _) := List (κ × α)

namespace Table

variable [DecidableEq κ]

/-- Enters a value under a key: in the key's place if it has one, otherwise at the end. -/
def enter (table : Table κ α) (key : κ) (value : α) : Table κ α :=
  match table with
  | [] => [(key, value)]
  | (k, v) :: rest => if k = key then (key, value) :: rest else (k, v) :: enter rest key value

/-- The table of a list of entries. -/
def ofPairs (pairs : List (κ × α)) : Table κ α :=
  pairs.foldl (fun table pair => table.enter pair.1 pair.2) []

/-- The value under a key. -/
def get? (table : Table κ α) (key : κ) : Option α :=
  match table with
  | [] => none
  | (k, v) :: rest => if k = key then some v else get? rest key

/-- The keys, in order. -/
def keys (table : Table κ α) : List κ :=
  table.map Prod.fst

@[simp] theorem get?_nil (key : κ) : get? ([] : Table κ α) key = none := rfl

/-- A value entered is found under its key, and no other key sees the entry. -/
theorem get?_enter (table : Table κ α) (key other : κ) (value : α) :
    (table.enter key value).get? other = if key = other then some value else table.get? other := by
  induction table with
  | nil => rfl
  | cons entry rest ih =>
    obtain ⟨k, v⟩ := entry
    by_cases hk : k = key
    · subst hk
      by_cases ho : k = other <;> simp [enter, get?, ho]
    · by_cases ho : k = other
      · subst ho
        simp [enter, get?, hk, Ne.symm hk]
      · simp [enter, get?, hk, ho, ih]

/-- Entering adds a key at the end only if it is new. -/
theorem keys_enter (table : Table κ α) (key : κ) (value : α) :
    (table.enter key value).keys =
      if key ∈ table.keys then table.keys else table.keys ++ [key] := by
  induction table with
  | nil => rfl
  | cons entry rest ih =>
    obtain ⟨k, v⟩ := entry
    by_cases hk : k = key
    · subst hk
      simp [enter, keys]
    · have hk' : ¬ key = k := fun h => hk h.symm
      have ih' : List.map Prod.fst (enter rest key value) =
          if key ∈ List.map Prod.fst rest then List.map Prod.fst rest
          else List.map Prod.fst rest ++ [key] := ih
      simp only [enter, keys, hk, if_false, List.map_cons, ih', List.mem_cons, hk', false_or]
      split <;> simp

/-- An entry under a new key comes last. -/
theorem enter_of_not_mem {table : Table κ α} {key : κ} (h : key ∉ table.keys) (value : α) :
    table.enter key value = table ++ [(key, value)] := by
  induction table with
  | nil => rfl
  | cons entry rest ih =>
    rw [keys, List.map_cons, List.mem_cons, not_or] at h
    obtain ⟨hne, hrest⟩ := h
    rw [enter, if_neg (Ne.symm hne), ih hrest]
    rfl

/-- Entries under distinct keys that are new to a table come behind it. -/
theorem foldl_enter_of_nodup {table : Table κ α} {pairs : List (κ × α)}
    (h : (keys (table ++ pairs)).Nodup) :
    pairs.foldl (fun table pair => table.enter pair.1 pair.2) table = table ++ pairs := by
  induction pairs generalizing table with
  | nil => exact (List.append_nil table).symm
  | cons pair rest ih =>
    have hnew : pair.1 ∉ table.keys := by
      rw [keys, List.map_append, List.nodup_append] at h
      exact fun hmem => h.2.2 _ hmem _ List.mem_cons_self rfl
    have happend : table ++ pair :: rest = (table ++ [pair]) ++ rest :=
      List.append_cons table pair rest
    rw [List.foldl_cons, enter_of_not_mem hnew, happend]
    exact ih (happend ▸ h)

/-- Entries under distinct keys are a table as they are. -/
theorem ofPairs_of_nodup {pairs : List (κ × α)} (h : (pairs.map Prod.fst).Nodup) :
    ofPairs pairs = pairs :=
  foldl_enter_of_nodup h

/-- Entries made into a table are found before what the table held, the last of them first. -/
theorem get?_foldl_enter (table : Table κ α) (pairs : List (κ × α)) (key : κ) :
    (pairs.foldl (fun table pair => table.enter pair.1 pair.2) table).get? key =
      ((pairs.reverse.find? fun pair => decide (pair.1 = key)).map Prod.snd).or
        (table.get? key) := by
  induction pairs generalizing table with
  | nil => rfl
  | cons pair rest ih =>
    rw [List.foldl_cons, ih, get?_enter, List.reverse_cons, List.find?_append]
    cases rest.reverse.find? fun pair => decide (pair.1 = key) with
    | some found => rfl
    | none =>
      by_cases hkey : pair.1 = key
      · simp [hkey]
      · simp [hkey]

/-- What a table of entries holds under a key is the value entered last. -/
theorem get?_ofPairs (pairs : List (κ × α)) (key : κ) :
    (ofPairs pairs).get? key =
      (pairs.reverse.find? fun pair => decide (pair.1 = key)).map Prod.snd := by
  rw [ofPairs, get?_foldl_enter, get?_nil, Option.or_none]

theorem mem_keys_foldl_enter {table : Table κ α} {pairs : List (κ × α)} {key : κ} :
    key ∈ keys (pairs.foldl (fun table pair => table.enter pair.1 pair.2) table) ↔
      key ∈ table.keys ∨ key ∈ pairs.map Prod.fst := by
  induction pairs generalizing table with
  | nil => exact (or_iff_left List.not_mem_nil).symm
  | cons pair rest ih =>
    rw [List.foldl_cons, ih, keys_enter, List.map_cons, List.mem_cons, ← or_assoc]
    refine or_congr_left ?_
    split
    · next hmem =>
      exact (or_iff_left_of_imp fun heq => heq ▸ hmem).symm
    · rw [List.mem_append, List.mem_singleton]

/-- The keys of a table of entries are those that were entered. -/
theorem mem_keys_ofPairs {pairs : List (κ × α)} {key : κ} :
    key ∈ (ofPairs pairs).keys ↔ key ∈ pairs.map Prod.fst :=
  mem_keys_foldl_enter.trans (or_iff_right List.not_mem_nil)

theorem mem_of_mem_enter {table : Table κ α} {key : κ} {value : α} {entry : κ × α}
    (h : entry ∈ table.enter key value) : entry ∈ table ∨ entry = (key, value) := by
  induction table with
  | nil => exact .inr (List.mem_singleton.mp h)
  | cons first rest ih =>
    rw [enter] at h
    split at h
    · rcases List.mem_cons.mp h with rfl | h
      · exact .inr rfl
      · exact .inl (List.mem_cons_of_mem _ h)
    · rcases List.mem_cons.mp h with rfl | h
      · exact .inl List.mem_cons_self
      · exact (ih h).imp_left (List.mem_cons_of_mem _)

theorem mem_of_mem_foldl_enter {table : Table κ α} {pairs : List (κ × α)} {entry : κ × α}
    (h : entry ∈ pairs.foldl (fun table pair => table.enter pair.1 pair.2) table) :
    entry ∈ table ∨ entry ∈ pairs := by
  induction pairs generalizing table with
  | nil => exact .inl h
  | cons pair rest ih =>
    rcases ih h with hmem | hmem
    · rcases mem_of_mem_enter hmem with hmem | rfl
      · exact .inl hmem
      · exact .inr List.mem_cons_self
    · exact .inr (List.mem_cons_of_mem _ hmem)

/-- A table of entries holds nothing else. -/
theorem mem_of_mem_ofPairs {pairs : List (κ × α)} {entry : κ × α}
    (h : entry ∈ ofPairs pairs) : entry ∈ pairs :=
  (mem_of_mem_foldl_enter h).resolve_left List.not_mem_nil

/-- Where no key has two entries, what is found under a key is what its entry holds. -/
theorem get?_eq_some_iff {table : Table κ α} (h : table.keys.Nodup) {key : κ} {value : α} :
    table.get? key = some value ↔ (key, value) ∈ table := by
  induction table with
  | nil => exact iff_of_false (fun hnone => by cases hnone) List.not_mem_nil
  | cons entry rest ih =>
    obtain ⟨k, v⟩ := entry
    obtain ⟨hnew, hrest⟩ := List.nodup_cons.mp h
    rw [get?, List.mem_cons, Prod.mk.injEq]
    by_cases hkey : k = key
    · subst hkey
      have hother : (k, value) ∉ rest := fun hmem => hnew (List.mem_map.mpr ⟨_, hmem, rfl⟩)
      rw [if_pos rfl, or_iff_left hother, Option.some_inj, eq_comm, and_iff_right rfl]
    · rw [if_neg hkey, ih hrest, or_iff_right fun heq => hkey heq.1.symm]

/-- The order of a table whose keys are distinct is of no matter to a search. -/
theorem get?_perm {table other : Table κ α} (hperm : table.Perm other)
    (h : table.keys.Nodup) (key : κ) :
    table.get? key = other.get? key := by
  have hother : other.keys.Nodup := (hperm.map Prod.fst).nodup h
  refine Option.ext fun value => ?_
  rw [get?_eq_some_iff h, get?_eq_some_iff hother]
  exact hperm.mem_iff

end Table

end ImportChart
