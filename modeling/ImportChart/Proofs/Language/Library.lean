import ImportChart.Reference.Classification
import ImportChart.Proofs.Text.Segments

/-!
# What belongs to a standard library

A registry is searched by cutting a token at each of its separators and looking each beginning up,
with the whole token as the last. An entry may hold separators itself, and a token may repeat them
or begin with one; still the search comes to what the registry is meant to say: a token belongs to
the library exactly if it is an entry, or continues one after the separator, or bears the scheme
(`Registry.contains_iff`).

So the builtin tokens of a language are those that belong to its library and do not start with a
dot, and a builtin token may be continued after the separator by any text
(`Language.library_contains_iff`). The latter needs that no entry is empty: else a separator that is
a dot could come to stand at the start.
-/

namespace ImportChart

theorem startsWith_iff {opening text : String} :
    startsWith opening text = true ↔ ∃ more, text = opening ++ more := by
  rw [startsWith, List.isPrefixOf_iff_prefix]
  constructor
  · rintro ⟨more, hmore⟩
    refine ⟨String.ofList more, String.toList_inj.mp ?_⟩
    rw [String.toList_append, String.toList_ofList, hmore]
  · rintro ⟨more, rfl⟩
    rw [String.toList_append]
    exact List.prefix_append _ _

/-! ## Registries -/

/-- A beginning that is looked up is the whole text or ends before a separator. -/
theorem mem_beginningsBefore_iff {sep : Char} {text beginning : List Char} :
    beginning ∈ beginningsBefore sep text ↔
      text = beginning ∨ ∃ more, text = beginning ++ sep :: more := by
  induction text generalizing beginning with
  | nil => simp [beginningsBefore, eq_comm]
  | cons c cs ih =>
    have hcut : beginning ∈ (if c = sep then [[]] else []) ↔ c = sep ∧ beginning = [] := by
      split
      · next h => simp [h]
      · next h => simp [h]
    rw [beginningsBefore, List.mem_append, List.mem_map, hcut]
    cases beginning with
    | nil => simp
    | cons d beginning =>
      -- what begins with a character of the text is cut from what stands behind the character
      simp only [List.cons_append, List.cons.injEq, reduceCtorEq, and_false, false_or,
        exists_eq_right_right, ih, exists_and_left]
      rw [and_comm, and_or_left]

/-- A token continues an entry after a separator. -/
def Registry.Continues (registry : Registry) (entry token : String) : Prop :=
  ∃ more, token = entry ++ String.singleton registry.separator ++ more

theorem Registry.continues_iff {registry : Registry} {entry token : String} :
    registry.Continues entry token ↔
    ∃ more, token.toList = entry.toList ++ registry.separator :: more := by
  constructor
  · rintro ⟨more, rfl⟩
    exact ⟨more.toList, by simp⟩
  · rintro ⟨more, hmore⟩
    refine ⟨String.ofList more, String.toList_inj.mp ?_⟩
    simp [hmore]

/-- What belongs to the library: an entry, what continues one, and what bears the scheme. -/
theorem Registry.contains_iff {registry : Registry} {token : String} :
    registry.contains token = true ↔
    (∃ entry ∈ registry.entries, token = entry ∨ registry.Continues entry token) ∨
      ∃ scheme ∈ registry.scheme, startsWith scheme token = true := by
  rw [contains, Bool.or_eq_true, Option.any_eq_true, List.any_eq_true, or_comm]
  refine or_congr ?_ Iff.rfl
  constructor
  · rintro ⟨beginning, hbeginning, hentry⟩
    refine ⟨String.ofList beginning, List.contains_iff_mem.mp hentry, ?_⟩
    rw [continues_iff, String.toList_ofList]
    refine (mem_beginningsBefore_iff.mp hbeginning).imp_left fun htoken => ?_
    rw [← htoken, String.ofList_toList]
  · rintro ⟨entry, hentry, htoken⟩
    refine ⟨entry.toList, mem_beginningsBefore_iff.mpr ?_, ?_⟩
    · exact htoken.imp (congrArg String.toList) continues_iff.mp
    · rw [String.ofList_toList]
      exact List.contains_iff_mem.mpr hentry

/-! ## The libraries of the languages -/

namespace Language

variable {language : Language} {token : String}

/-- A token belongs to the library of a language: it is an entry, it continues one after the
separator, or it bears the scheme of JavaScript. -/
def InLibrary (language : Language) (token : String) : Prop :=
  (∃ entry ∈ language.library.entries, token = entry ∨
      ∃ more, token = entry ++ String.singleton language.library.separator ++ more) ∨
    language = .javascript ∧ ∃ more, token = "node:" ++ more

theorem contains_library_iff :
    language.library.contains token = true ↔ language.InLibrary token := by
  rw [Registry.contains_iff]
  refine or_congr Iff.rfl ?_
  cases language <;> simp [library, startsWith_iff]

theorem InLibrary.ne_empty (h : language.InLibrary token) : token ≠ "" := by
  have hentries : "" ∉ language.library.entries := by cases language <;> decide
  rintro rfl
  rcases h with ⟨entry, hentry, hempty | ⟨more, hempty⟩⟩ | ⟨-, more, hempty⟩
  · exact hentries (hempty ▸ hentry)
  · simp [String.append_eq_empty_iff] at hempty
  · simp [String.append_eq_empty_iff] at hempty

/-- What belongs to the library may be continued after the separator. -/
theorem InLibrary.continued (h : language.InLibrary token) (more : String) :
    language.InLibrary (token ++ String.singleton language.library.separator ++ more) := by
  rcases h with ⟨entry, hentry, rfl | ⟨middle, rfl⟩⟩ | ⟨hlanguage, middle, rfl⟩
  · exact .inl ⟨token, hentry, .inr ⟨more, rfl⟩⟩
  · refine .inl ⟨entry, hentry,
      .inr ⟨middle ++ String.singleton language.library.separator ++ more, ?_⟩⟩
    simp only [String.append_assoc]
  · refine .inr ⟨hlanguage, middle ++ String.singleton language.library.separator ++ more, ?_⟩
    simp only [String.append_assoc]

theorem goOrigin_ne_builtin (token : String) : goOrigin token ≠ .builtin := by
  simp only [goOrigin]
  split
  · nofun
  · nofun

/-- A dot at the start comes before the library, and the library before what is left. -/
theorem classify_eq_builtin_iff :
    language.classify token = .builtin ↔
      language.InLibrary token ∧ startsWith "." token = false := by
  rw [← contains_library_iff]
  unfold classify
  split
  · next hdot => simp [hdot]
  · next hdot =>
    rw [Bool.not_eq_true] at hdot
    split
    · next hmember => simp [hdot, hmember]
    · next hmember => cases language <;> simp [hdot, hmember, goOrigin_ne_builtin]

/-- A text that is not empty keeps its first character, whatever is put behind it. -/
theorem startsWith_dot_append (h : token ≠ "") (more : String) :
    startsWith "." (token ++ more) = startsWith "." token := by
  obtain ⟨c, cs, htoken⟩ := List.exists_cons_of_ne_nil (mt String.toList_eq_nil_iff.mp h)
  rw [startsWith, startsWith, String.toList_append, htoken]
  rfl

/-- **What belongs to a standard library.** A token is found in the registry of a language exactly
if it is an entry, continues one after the separator, or bears the scheme of JavaScript. The builtin
tokens are those of them that do not start with a dot, and what continues a builtin token after the
separator is builtin. -/
theorem library_contains_iff (language : Language) (token : String) :
    (language.library.contains token = true ↔ language.InLibrary token) ∧
      (language.classify token = .builtin ↔
        language.InLibrary token ∧ startsWith "." token = false) ∧
      ∀ more, language.classify token = .builtin →
        language.classify (token ++ String.singleton language.library.separator ++ more) =
          .builtin := by
  refine ⟨contains_library_iff, classify_eq_builtin_iff, fun more hbuiltin => ?_⟩
  obtain ⟨hmember, hdot⟩ := classify_eq_builtin_iff.mp hbuiltin
  refine classify_eq_builtin_iff.mpr ⟨hmember.continued more, ?_⟩
  rw [String.append_assoc, startsWith_dot_append hmember.ne_empty, hdot]

/-- A package whose entry holds the separator, and what continues it by a text that begins with the
separator. -/
theorem library_contains_iff_nestedPackage :
    Language.java.classify "java.util" = .builtin ∧
      Language.java.classify
        ("java.util" ++ String.singleton Language.java.library.separator ++ ".List") =
          .builtin := by
  have hbuiltin : Language.java.classify "java.util" = .builtin := by decide
  exact ⟨hbuiltin, (library_contains_iff .java "java.util").2.2 ".List" hbuiltin⟩

end Language

end ImportChart
