import ImportChart.Text.Path

/-!
# Names in paths

A name is a segment that a path can hold and that is not dropped as empty: it has a character and no
slash (`Path.IsName`). On lists of names, making a path and taking its segments undo each other
(`Path.namedSegments_ofSegments`), so a path made of names is known by them.
-/

namespace ImportChart

/-! ## Joining and splitting a list -/

theorem mem_intercalate_of_mem {sep part : List α} {parts : List (List α)}
    {b : α} (h : part ∈ parts) (hb : b ∈ part) : b ∈ sep.intercalate parts := by
  induction parts with
  | nil => exact absurd h List.not_mem_nil
  | cons first rest ih =>
    by_cases hrest : rest = []
    · rw [hrest, List.mem_singleton] at h
      rw [hrest, List.intercalate_singleton, ← h]
      exact hb
    · rw [List.intercalate_cons_of_ne_nil hrest]
      rcases List.mem_cons.mp h with rfl | h
      · exact List.mem_append_left _ (List.mem_append_left _ hb)
      · exact List.mem_append_right _ (ih h)

theorem of_mem_intercalate {sep : List α} {parts : List (List α)} {b : α}
    (h : b ∈ sep.intercalate parts) :
    b ∈ sep ∨ ∃ part ∈ parts, b ∈ part := by
  induction parts with
  | nil => exact absurd h List.not_mem_nil
  | cons first rest ih =>
    by_cases hrest : rest = []
    · rw [hrest, List.intercalate_singleton] at h
      exact .inr ⟨first, List.mem_cons_self, h⟩
    · rw [List.intercalate_cons_of_ne_nil hrest] at h
      rcases List.mem_append.mp h with h | h
      · rcases List.mem_append.mp h with h | h
        · exact .inr ⟨first, List.mem_cons_self, h⟩
        · exact .inl h
      · rcases ih h with h | ⟨part, hpart, h⟩
        · exact .inl h
        · exact .inr ⟨part, List.mem_cons_of_mem _ hpart, h⟩

theorem mem_of_mem_splitOn [BEq α] [LawfulBEq α] {a b : α} {xs part : List α}
    (h : part ∈ xs.splitOn a) (hb : b ∈ part) : b ∈ xs := by
  have hjoined : b ∈ [a].intercalate (xs.splitOn a) := mem_intercalate_of_mem h hb
  rw [List.intercalate_splitOn] at hjoined
  exact hjoined

theorem not_mem_of_mem_splitOn [BEq α] [LawfulBEq α] {a : α} {xs part : List α}
    (h : part ∈ xs.splitOn a) :
    a ∉ part := by
  induction xs generalizing part with
  | nil =>
    rw [List.splitOn_nil, List.mem_singleton] at h
    rw [h]
    exact List.not_mem_nil
  | cons x xs ih =>
    rw [List.splitOn_cons_eq_if_modifyHead] at h
    split at h
    · rcases List.mem_cons.mp h with rfl | h
      · exact List.not_mem_nil
      · exact ih h
    · next hx =>
      cases hparts : xs.splitOn a with
      | nil => exact absurd hparts (List.splitOn_ne_nil a xs)
      | cons first rest =>
        rw [hparts, List.modifyHead_cons] at h
        rcases List.mem_cons.mp h with rfl | h
        · intro hmem
          rcases List.mem_cons.mp hmem with rfl | hmem
          · exact hx (beq_self_eq_true _)
          · exact ih (hparts ▸ List.mem_cons_self) hmem
        · exact ih (hparts ▸ List.mem_cons_of_mem _ h)

theorem length_splitOn [BEq α] [LawfulBEq α] (a : α) (xs : List α) :
    (xs.splitOn a).length = xs.count a + 1 := by
  induction xs with
  | nil => rfl
  | cons x xs ih =>
    rw [List.splitOn_cons_eq_if_modifyHead, List.count_cons]
    split
    · rw [List.length_cons, ih]
    · rw [List.length_modifyHead, ih, Nat.add_zero]

/-- Joined texts have no characters but those of the texts and of what joins them. -/
theorem not_mem_toList_intercalate {sep : String} {texts : List String} {c : Char}
    (hsep : c ∉ sep.toList) (h : ∀ text ∈ texts, c ∉ text.toList) :
    c ∉ (sep.intercalate texts).toList := by
  rw [String.toList_intercalate]
  intro hjoined
  rcases of_mem_intercalate hjoined with hmem | ⟨part, hpart, hmem⟩
  · exact hsep hmem
  · obtain ⟨text, htext, rfl⟩ := List.mem_map.mp hpart
    exact h text htext hmem

/-- Texts joined by a mark that none of them holds are read back. -/
theorem splitOn_toList_intercalate {sep : String} {mark : Char} (hsep : sep.toList = [mark])
    {texts : List String} (hne : texts ≠ []) (h : ∀ text ∈ texts, mark ∉ text.toList) :
    (sep.intercalate texts).toList.splitOn mark = texts.map String.toList := by
  have hlists : ∀ letters ∈ texts.map String.toList, mark ∉ letters := by
    intro letters hletters
    obtain ⟨text, htext, rfl⟩ := List.mem_map.mp hletters
    exact h text htext
  rw [String.toList_intercalate, hsep]
  exact List.splitOn_intercalate mark hlists (by rwa [ne_eq, List.map_eq_nil_iff])

namespace Path

/-! ## Names -/

/-- A segment that is neither empty nor holds a slash. -/
def IsName (segment : String) : Prop :=
  segment ≠ "" ∧ '/' ∉ segment.toList

theorem slash_not_mem_of_mem_segments {path segment : String} (h : segment ∈ segments path) :
    '/' ∉ segment.toList := by
  obtain ⟨part, hpart, rfl⟩ := List.mem_map.mp h
  rw [String.toList_ofList]
  exact not_mem_of_mem_splitOn hpart

/-- The last segment holds nothing that the path does not hold. -/
theorem mem_of_mem_fileName {path : String} {c : Char} (h : c ∈ (fileName path).toList) :
    c ∈ path.toList := by
  rw [fileName] at h
  cases hlast : (segments path).getLast? with
  | none =>
    rw [hlast, Option.getD_none] at h
    exact h
  | some segment =>
    obtain ⟨part, hpart, rfl⟩ := List.mem_map.mp (List.mem_of_mem_getLast? hlast)
    rw [hlast, Option.getD_some, String.toList_ofList] at h
    exact mem_of_mem_splitOn hpart h

theorem isName_of_mem_namedSegments {path segment : String} (h : segment ∈ namedSegments path) :
    IsName segment := by
  obtain ⟨hmem, hne⟩ := List.mem_filter.mp h
  exact ⟨of_decide_eq_true hne, slash_not_mem_of_mem_segments hmem⟩

theorem isName_of_mem_directory {path segment : String} (h : segment ∈ directory path) :
    IsName segment := by
  obtain ⟨hmem, hne⟩ := List.mem_filter.mp h
  exact ⟨of_decide_eq_true hne, slash_not_mem_of_mem_segments (List.dropLast_subset _ hmem)⟩

/-- A path made of names has these names. -/
theorem namedSegments_ofSegments {parts : List String} (h : ∀ part ∈ parts, IsName part) :
    namedSegments (ofSegments parts) = parts := by
  by_cases hne : parts = []
  · rw [hne]
    decide
  · rw [namedSegments, segments_ofSegments (fun part hpart => (h part hpart).2) hne]
    exact List.filter_eq_self.mpr fun part hpart => decide_eq_true (h part hpart).1

/-- A path with one segment more has a slash and the segment behind it. -/
theorem ofSegments_concat {parts : List String} (h : parts ≠ []) (name : String) :
    ofSegments (parts ++ [name]) = ofSegments parts ++ ("/" ++ name) := by
  rw [ofSegments, ofSegments, String.intercalate_append_of_ne_nil h (List.cons_ne_nil _ _),
    String.intercalate_singleton, String.append_assoc]

/-- A path with one segment more at its beginning has this segment and a slash before it. -/
theorem ofSegments_cons {parts : List String} (h : parts ≠ []) (name : String) :
    ofSegments (name :: parts) = name ++ "/" ++ ofSegments parts :=
  String.intercalate_cons_of_ne_nil h

/-- The directory of a file, whatever the file is called. -/
theorem directory_ofSegments_concat {parts : List String} {name : String}
    (h : ∀ part ∈ parts, IsName part) (hname : '/' ∉ name.toList) :
    directory (ofSegments (parts ++ [name])) = parts := by
  have hparts : ∀ part ∈ parts ++ [name], '/' ∉ part.toList := by
    intro part hpart
    rcases List.mem_append.mp hpart with hpart | hpart
    · exact (h part hpart).2
    · rw [List.mem_singleton.mp hpart]
      exact hname
  rw [directory, segments_ofSegments hparts (List.concat_ne_nil name parts), List.dropLast_concat]
  exact List.filter_eq_self.mpr fun part hpart => decide_eq_true (h part hpart).1

theorem toList_append_slash (opening path : String) :
    (opening ++ "/" ++ path).toList = opening.toList ++ '/' :: path.toList := by
  simp only [String.toList_append, List.append_assoc]
  rfl

/-- A path behind a name and a slash has the name as one segment more. -/
theorem segments_append_slash {name : String} (h : '/' ∉ name.toList) (path : String) :
    segments (name ++ "/" ++ path) = name :: segments path := by
  rw [segments, toList_append_slash, List.splitOn_append_cons_self_of_not_mem h, List.map_cons,
    String.ofList_toList]
  rfl

/-- A path behind a name and a slash lies one directory deeper. -/
theorem directory_append_slash {name : String} (h : IsName name) (path : String) :
    directory (name ++ "/" ++ path) = name :: directory path := by
  rw [directory, segments_append_slash h.2, List.dropLast_cons_of_ne_nil (segments_ne_nil path)]
  exact List.filter_cons_of_pos (decide_eq_true h.1)

/-- Lists of names that make the same path are the same. -/
theorem ofSegments_inj {parts others : List String} (hparts : ∀ part ∈ parts, IsName part)
    (hothers : ∀ part ∈ others, IsName part) (h : ofSegments parts = ofSegments others) :
    parts = others := by
  rw [← namedSegments_ofSegments hparts, h, namedSegments_ofSegments hothers]

/-- A path has one slash fewer than it has segments. -/
theorem depth_add_one (path : String) : depth path + 1 = (segments path).length := by
  rw [segments, List.length_map, length_splitOn, depth]

/-- A path made of names has one slash fewer than names. -/
theorem depth_ofSegments {parts : List String} (h : ∀ part ∈ parts, IsName part)
    (hne : parts ≠ []) :
    depth (ofSegments parts) + 1 = parts.length := by
  rw [depth_add_one, segments_ofSegments (fun part hpart => (h part hpart).2) hne]

end Path

end ImportChart
