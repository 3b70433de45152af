import ImportChart.Language
import ImportChart.Proofs.Text.LastPart
import ImportChart.Proofs.Text.Segments

/-!
# Which language a path selects

A path is tested for endings by their letters alone, language after language, and some endings are
the beginning of others. Yet each test comes to the same: an ending is a dot and letters without a
dot, so a path ends in it exactly if it is the part of the path from its last dot on
(`endsWith_iff_ending?`). A path has one such part at most, and no two languages share an ending, so
at most one language is selected and the order in which they are tried does not matter
(`Language.recognize_iff`). Nor do the directories that the path leads through, since no ending
holds a slash (`Language.recognize_append_slash`).
-/

namespace ImportChart

/-! ## The ending of a path -/

/-- The part of a path from its last dot to its end, if the path has a dot. -/
def Path.ending? (path : String) : Option String :=
  if '.' ∈ path.toList then some (String.ofList ('.' :: behindLast '.' path.toList)) else none

theorem Path.ending?_eq_some_iff {path ending : String} : ending? path = some ending ↔
    ∃ before after, path.toList = before ++ '.' :: after ∧ '.' ∉ after ∧
      ending.toList = '.' :: after := by
  rw [ending?]
  constructor
  · intro h
    obtain ⟨hdot, hending⟩ := Option.ite_none_right_eq_some.mp h
    obtain ⟨before, hpath⟩ := exists_eq_append_behindLast hdot
    refine ⟨before, _, hpath, not_mem_behindLast '.' path.toList, ?_⟩
    rw [← Option.some.inj hending, String.toList_ofList]
  · rintro ⟨before, after, hpath, hafter, hending⟩
    have hdot : '.' ∈ path.toList := by
      rw [hpath]
      exact List.mem_append_right _ List.mem_cons_self
    rw [if_pos hdot, hpath, behindLast_append_cons before hafter, ← hending, String.ofList_toList]

/-- A text that is its own ending ends a path exactly if it is the ending of the path. -/
theorem endsWith_iff_ending? {ending : String}
    (h : Path.ending? ending = some ending) (path : String) :
    endsWith ending path = true ↔ Path.ending? path = some ending := by
  obtain ⟨_, after, _, hafter, hending⟩ := Path.ending?_eq_some_iff.mp h
  rw [endsWith, List.isSuffixOf_iff_suffix, Path.ending?_eq_some_iff]
  constructor
  · rintro ⟨before, hpath⟩
    rw [hending] at hpath
    exact ⟨before, after, hpath.symm, hafter, hending⟩
  · rintro ⟨before, letters, hpath, -, hletters⟩
    rw [hpath, hletters]
    exact List.suffix_append _ _

/-- A text without a slash ends a path exactly if it ends the part behind a slash. -/
theorem endsWith_append_slash {ending : String} (h : '/' ∉ ending.toList) (opening path : String) :
    endsWith ending (opening ++ "/" ++ path) = endsWith ending path := by
  rw [endsWith, endsWith, Bool.eq_iff_iff, List.isSuffixOf_iff_suffix, List.isSuffixOf_iff_suffix,
    Path.toList_append_slash]
  constructor
  · intro hsuffix
    have hslash : '/' :: path.toList <:+ opening.toList ++ '/' :: path.toList :=
      List.suffix_append _ _
    rcases Nat.lt_or_ge path.toList.length ending.toList.length with hlong | hshort
    · -- an ending that is longer than the part behind the slash holds the slash
      exact absurd ((List.suffix_of_suffix_length_le hslash hsuffix hlong).subset
        List.mem_cons_self) h
    · exact List.suffix_of_suffix_length_le hsuffix ((List.suffix_cons _ _).trans hslash) hshort
  · intro hsuffix
    exact hsuffix.trans ((List.suffix_cons _ _).trans (List.suffix_append _ _))

namespace Language

/-! ## The endings of the languages -/

theorem ending?_of_mem_endings (language : Language) :
    ∀ ending ∈ language.endings, Path.ending? ending = some ending := by
  cases language <;> decide

theorem slash_not_mem_endings (language : Language) :
    ∀ ending ∈ language.endings, '/' ∉ ending.toList := by
  cases language <;> decide

/-- No two languages share an ending. -/
theorem eq_of_mem_endings {language other : Language} {ending : String}
    (h : ending ∈ language.endings) (hother : ending ∈ other.endings) : language = other := by
  have hall : ∀ language ∈ all, ∀ other ∈ all, language ≠ other →
      ∀ ending ∈ language.endings, ending ∉ other.endings := by decide
  by_contra hne
  exact hall language language.mem_all other other.mem_all hne ending h hother

/-- Whether a path ends in one of the endings of a language. -/
def isSelectedBy (path : String) (language : Language) : Bool :=
  language.endings.any (endsWith · path)

theorem isSelectedBy_iff {path : String} {language : Language} :
    isSelectedBy path language = true ↔
      ∃ ending ∈ language.endings, Path.ending? path = some ending := by
  rw [isSelectedBy, List.any_eq_true]
  refine exists_congr fun ending => and_congr_right fun hending => ?_
  exact endsWith_iff_ending? (language.ending?_of_mem_endings ending hending) path

/-- A path selects one language at most. -/
theorem eq_of_isSelectedBy {path : String} {language other : Language}
    (h : isSelectedBy path language = true) (hother : isSelectedBy path other = true) :
    language = other := by
  obtain ⟨ending, hmem, hending⟩ := isSelectedBy_iff.mp h
  obtain ⟨otherEnding, hmem', hending'⟩ := isSelectedBy_iff.mp hother
  rw [hending, Option.some.injEq] at hending'
  exact eq_of_mem_endings hmem (hending' ▸ hmem')

/-- The languages may be tried in any order. -/
theorem find?_isSelectedBy_eq_some_iff {order : List Language}
    (h : ∀ language, language ∈ order) {path : String} {language : Language} :
    order.find? (isSelectedBy path) = some language ↔
      isSelectedBy path language = true := by
  refine ⟨List.find?_some, fun hlanguage => ?_⟩
  obtain ⟨found, hfound⟩ :=
    Option.isSome_iff_exists.mp (List.find?_isSome.mpr ⟨language, h language, hlanguage⟩)
  rw [hfound, eq_of_isSelectedBy hlanguage (List.find?_some hfound)]

theorem recognize_eq_find? (path : String) : recognize path = all.find? (isSelectedBy path) := rfl

/-- The directories that a path leads through do not matter for its language. -/
theorem recognize_append_slash (opening path : String) :
    recognize (opening ++ "/" ++ path) = recognize path := by
  unfold recognize
  congr 1
  funext language
  rw [Bool.eq_iff_iff, List.any_eq_true, List.any_eq_true]
  apply exists_congr
  intro ending
  apply and_congr_right
  intro hending
  rw [endsWith_append_slash (language.slash_not_mem_endings ending hending)]

/-- **Which language a path selects.** It is the language that has the part of the path from its
last dot on among its endings. No path ends in endings of two languages, so the languages may be
tried in any order, and a directory put in front of the path changes nothing. -/
theorem recognize_iff (path : String) :
    (∀ language, recognize path = some language ↔
        ∃ ending, Path.ending? path = some ending ∧ ending ∈ language.endings) ∧
      (∀ language other : Language, language.endings.any (endsWith · path) = true →
        other.endings.any (endsWith · path) = true → language = other) ∧
      (∀ order : List Language, (∀ language, language ∈ order) →
        order.find? (fun language => language.endings.any (endsWith · path)) = recognize path) ∧
      ∀ opening, recognize (opening ++ "/" ++ path) = recognize path := by
  refine ⟨fun language => ?_, fun _ _ => eq_of_isSelectedBy, fun order horder => ?_,
    fun opening => recognize_append_slash opening path⟩
  · rw [recognize_eq_find?, find?_isSelectedBy_eq_some_iff mem_all, isSelectedBy_iff]
    exact exists_congr fun _ => and_comm
  · refine Option.ext fun language => ?_
    rw [recognize_eq_find?]
    exact (find?_isSelectedBy_eq_some_iff horder).trans
      (find?_isSelectedBy_eq_some_iff mem_all).symm

/-- A file in a directory with a dot in its name, with the languages tried in the opposite order.
Its ending begins with another ending of its language. -/
theorem recognize_iff_dottedDirectory :
    recognize ("lib.go" ++ "/" ++ "a.cc") = some .cpp ∧
      (∀ language, language ∈ all.reverse) ∧
      all.reverse.find? (fun language => language.endings.any (endsWith · "a.cc")) = some .cpp ∧
      cpp.endings.any (endsWith · "a.cc") = true := by
  have hselects := (recognize_iff "a.cc").1 .cpp
  have hcpp : recognize "a.cc" = some .cpp := hselects.mpr ⟨".cc", by decide, by decide⟩
  have horder : ∀ language, language ∈ all.reverse :=
    fun language => List.mem_reverse.mpr language.mem_all
  refine ⟨?_, horder, ?_, by decide⟩
  · rw [(recognize_iff "a.cc").2.2.2, hcpp]
  · rw [(recognize_iff "a.cc").2.2.1 _ horder, hcpp]

end Language

end ImportChart
