import ImportChart.Proofs.Text.Segments
import ImportChart.Reference.Resolution

/-!
# What a reference resolves to

The resolver walks the segments of a token over a stack of directories and then tries suffixes. This
module says what comes of it without the walk.

A token leaves the root when some beginning of its segments climbs higher than the directory of the
source is deep: it holds more double dots, less the segments that lead down again, than there are
directories (`ClimbsAbove`). The walk can fail in the middle of a token and what follows cannot mend
it, so the condition is on beginnings and not on the token as a whole (`joinSegments_eq_none_iff`).
A walk that does not fail ends as deep as the balance says (`length_joinSegments`), and adds only
segments that lead down (`mem_of_mem_joinSegments`). The path so joined is then completed by the
first suffix that makes a known path of it (`IsFirstKnown`).
-/

namespace ImportChart

/-! ## Climbing -/

/-- Whether a segment leads down: it is neither empty nor one or two dots. -/
def leadsDown (segment : String) : Bool :=
  decide (segment ≠ "" ∧ segment ≠ "." ∧ segment ≠ "..")

/-- How many levels segments lead up: their double dots, less the segments that lead down. -/
def climb (segments : List String) : Int :=
  segments.count ".." - segments.countP leadsDown

/-- Some beginning of the segments leads up more levels than a height. -/
def ClimbsAbove (height : Int) (segments : List String) : Prop :=
  ∃ beginning, beginning <+: segments ∧ height < climb beginning

/-- A segment stays, leads up or leads down. -/
theorem segment_cases (segment : String) :
    (segment = "" ∨ segment = ".") ∨ segment = ".." ∨ leadsDown segment = true := by
  by_cases hstay : segment = "" ∨ segment = "."
  · exact .inl hstay
  · by_cases hup : segment = ".."
    · exact .inr (.inl hup)
    · rw [not_or] at hstay
      exact .inr (.inr (decide_eq_true ⟨hstay.1, hstay.2, hup⟩))

theorem climb_nil : climb [] = 0 := rfl

/-- An empty segment and a dot do not climb. -/
theorem climb_stay {segment : String} (h : segment = "" ∨ segment = ".") (rest : List String) :
    climb (segment :: rest) = climb rest := by
  rcases h with rfl | rfl
  · simp [climb, leadsDown]
  · simp [climb, leadsDown]

/-- Two dots climb one level. -/
theorem climb_up (rest : List String) : climb (".." :: rest) = climb rest + 1 := by
  have hdown : leadsDown ".." = false := by decide
  simp only [climb, List.count_cons_self, List.countP_cons, hdown]
  push_cast
  omega

/-- A segment that leads down takes back one level. -/
theorem climb_down {segment : String} (h : leadsDown segment = true) (rest : List String) :
    climb (segment :: rest) = climb rest - 1 := by
  have hne : segment ≠ ".." := (of_decide_eq_true h).2.2
  simp only [climb, List.count_cons_of_ne hne, List.countP_cons, h]
  push_cast
  omega

theorem climbsAbove_nil {height : Int} : ClimbsAbove height [] ↔ height < 0 := by
  refine ⟨fun ⟨beginning, hprefix, h⟩ => ?_, fun h => ⟨[], List.nil_prefix, h⟩⟩
  rw [List.prefix_nil.mp hprefix, climb_nil] at h
  exact h

/-- A first segment that climbs by `levels` leaves that much less height for the rest. -/
theorem climbsAbove_cons {height levels : Int} {segment : String} {rest : List String}
    (hlevels : ∀ more, climb (segment :: more) = climb more + levels) :
    ClimbsAbove height (segment :: rest) ↔ height < 0 ∨ ClimbsAbove (height - levels) rest := by
  constructor
  · rintro ⟨beginning, hprefix, h⟩
    rcases List.prefix_cons_iff.mp hprefix with rfl | ⟨more, rfl, hmore⟩
    · exact .inl h
    · rw [hlevels] at h
      exact .inr ⟨more, hmore, by omega⟩
  · rintro (h | ⟨more, hmore, h⟩)
    · exact ⟨[], List.nil_prefix, h⟩
    · refine ⟨segment :: more, (List.prefix_cons_inj segment).mpr hmore, ?_⟩
      rw [hlevels]
      omega

/-! ## The walk -/

theorem joinSegments_stay {segment : String} (h : segment = "" ∨ segment = ".")
    (directory rest : List String) :
    joinSegments directory (segment :: rest) = joinSegments directory rest := by
  rw [joinSegments.eq_def]
  exact if_pos h

theorem joinSegments_up_nil (rest : List String) : joinSegments [] (".." :: rest) = none := by
  rw [joinSegments, if_neg (by decide), if_pos rfl]

theorem joinSegments_up_cons (inner : String) (outer rest : List String) :
    joinSegments (inner :: outer) (".." :: rest) = joinSegments outer rest := by
  rw [joinSegments, if_neg (by decide), if_pos rfl]

theorem joinSegments_down {segment : String} (h : leadsDown segment = true)
    (directory rest : List String) :
    joinSegments directory (segment :: rest) = joinSegments (segment :: directory) rest := by
  obtain ⟨hempty, hdot, hdots⟩ := of_decide_eq_true h
  rw [joinSegments.eq_def]
  exact (if_neg (not_or.mpr ⟨hempty, hdot⟩)).trans (if_neg hdots)

/-- A walk fails exactly if some beginning of it climbs above the root. -/
theorem joinSegments_eq_none_iff (directory segments : List String) :
    joinSegments directory segments = none ↔ ClimbsAbove directory.length segments := by
  induction segments generalizing directory with
  | nil =>
    rw [climbsAbove_nil]
    simp [joinSegments]
  | cons segment rest ih =>
    rcases segment_cases segment with hstay | rfl | hdown
    · have hlevels : ∀ more, climb (segment :: more) = climb more + 0 := fun more => by
        rw [climb_stay hstay, Int.add_zero]
      rw [joinSegments_stay hstay, ih, climbsAbove_cons hlevels, Int.sub_zero]
      exact ⟨.inr, fun h => h.resolve_left (by omega)⟩
    · rw [climbsAbove_cons climb_up]
      cases directory with
      | nil =>
        refine ⟨fun _ => .inr ⟨[], List.nil_prefix, ?_⟩, fun _ => joinSegments_up_nil rest⟩
        rw [climb_nil, List.length_nil]
        decide
      | cons inner outer =>
        have hlength : ((inner :: outer).length : Int) - 1 = outer.length := by
          rw [List.length_cons]
          omega
        rw [joinSegments_up_cons, ih, hlength]
        exact ⟨.inr, fun h => h.resolve_left (by omega)⟩
    · have hlevels : ∀ more, climb (segment :: more) = climb more + -1 := climb_down hdown
      have hlength : (directory.length : Int) - -1 = (segment :: directory).length := by
        rw [List.length_cons]
        omega
      rw [joinSegments_down hdown, ih, climbsAbove_cons hlevels, hlength]
      exact ⟨.inr, fun h => h.resolve_left (by omega)⟩

/-- A walk ends as much higher as its segments climb. -/
theorem length_joinSegments {directory segments result : List String}
    (h : joinSegments directory segments = some result) :
    (result.length : Int) = directory.length - climb segments := by
  induction segments generalizing directory with
  | nil =>
    cases h
    rw [climb_nil, Int.sub_zero]
  | cons segment rest ih =>
    rcases segment_cases segment with hstay | rfl | hdown
    · rw [joinSegments_stay hstay] at h
      rw [climb_stay hstay, ih h]
    · cases directory with
      | nil =>
        rw [joinSegments_up_nil] at h
        cases h
      | cons inner outer =>
        rw [joinSegments_up_cons] at h
        rw [climb_up, ih h, List.length_cons]
        omega
    · rw [joinSegments_down hdown] at h
      rw [climb_down hdown, ih h, List.length_cons]
      omega

/-- What a walk ends with was there or is a segment that leads down. -/
theorem mem_of_mem_joinSegments {directory segments result : List String} {segment : String}
    (h : joinSegments directory segments = some result) (hmem : segment ∈ result) :
    segment ∈ directory ∨ segment ∈ segments ∧ leadsDown segment = true := by
  induction segments generalizing directory with
  | nil =>
    cases h
    exact .inl hmem
  | cons first rest ih =>
    rcases segment_cases first with hstay | rfl | hdown
    · rw [joinSegments_stay hstay] at h
      exact (ih h).imp_right fun hrest => ⟨List.mem_cons_of_mem _ hrest.1, hrest.2⟩
    · cases directory with
      | nil =>
        rw [joinSegments_up_nil] at h
        cases h
      | cons inner outer =>
        rw [joinSegments_up_cons] at h
        exact (ih h).imp (List.mem_cons_of_mem _) fun hrest =>
          ⟨List.mem_cons_of_mem _ hrest.1, hrest.2⟩
    · rw [joinSegments_down hdown] at h
      rcases ih h with hmem | hrest
      · rcases List.mem_cons.mp hmem with rfl | hmem
        · exact .inr ⟨List.mem_cons_self, hdown⟩
        · exact .inl hmem
      · exact .inr ⟨List.mem_cons_of_mem _ hrest.1, hrest.2⟩

/-! ## The joined path -/

/-- A path is what a token joined to the directory of its source makes: it is made of its names
alone, as many as the climb of the token leaves of the directory, and no dots unless the directory
has some. -/
structure IsJoin (source token base : String) : Prop where
  joined : joinRelative source token = some base
  names : Path.ofSegments (Path.namedSegments base) = base
  count : ((Path.namedSegments base).length : Int) =
    (Path.directory source).length - climb (Path.segments token)
  dotless : (∀ segment ∈ Path.directory source, segment ≠ "." ∧ segment ≠ "..") →
    ∀ segment ∈ Path.namedSegments base, segment ≠ "." ∧ segment ≠ ".."

/-- A token cannot be joined exactly if it climbs above the root. -/
theorem joinRelative_eq_none_iff (source token : String) :
    joinRelative source token = none ↔
      ClimbsAbove (Path.directory source).length (Path.segments token) := by
  rw [joinRelative, Option.map_eq_none_iff, joinSegments_eq_none_iff, List.length_reverse]

/-- What a token is joined to is a join. -/
theorem isJoin_of_joinRelative {source token base : String}
    (h : joinRelative source token = some base) :
    IsJoin source token base := by
  obtain ⟨result, hresult, hbase⟩ := Option.map_eq_some_iff.mp h
  have hmem : ∀ segment ∈ result.reverse,
      segment ∈ Path.directory source ∨ segment ∈ Path.segments token ∧
      leadsDown segment = true := by
    intro segment hsegment
    have hcases := mem_of_mem_joinSegments hresult (List.mem_reverse.mp hsegment)
    rwa [List.mem_reverse] at hcases
  have hnames : ∀ segment ∈ result.reverse, Path.IsName segment := by
    intro segment hsegment
    rcases hmem segment hsegment with hdirectory | ⟨htoken, hdown⟩
    · exact Path.isName_of_mem_directory hdirectory
    · exact ⟨(of_decide_eq_true hdown).1, Path.slash_not_mem_of_mem_segments htoken⟩
  have hparts : Path.namedSegments base = result.reverse := by
    rw [← hbase, Path.namedSegments_ofSegments hnames]
  refine ⟨h, by rw [hparts, hbase], ?_, ?_⟩
  · rw [hparts, List.length_reverse, length_joinSegments hresult, List.length_reverse]
  · intro hdotless segment hsegment
    rw [hparts] at hsegment
    rcases hmem segment hsegment with hdirectory | ⟨_, hdown⟩
    · exact hdotless segment hdirectory
    · exact (of_decide_eq_true hdown).2

/-! ## The outcome -/

/-- A token starts with one or two dots and a slash. -/
def PathRelative (token : String) : Prop :=
  "./".toList <+: token.toList ∨ "../".toList <+: token.toList

theorem isPathRelative_iff (token : String) : isPathRelative token = true ↔ PathRelative token := by
  rw [isPathRelative, Bool.or_eq_true, startsWith, startsWith, List.isPrefixOf_iff_prefix,
    List.isPrefixOf_iff_prefix, PathRelative]

/-- A suffix is the first of a list that makes a known path of a base. -/
def IsFirstKnown (base : String) (known suffixes : List String) (suffix : String) : Prop :=
  ∃ earlier later, suffixes = earlier ++ suffix :: later ∧ base ++ suffix ∈ known ∧
    ∀ other ∈ earlier, base ++ other ∉ known

/-- The trial of suffixes ends with the first that makes a known path. -/
theorem find?_suffixes_eq_some_iff (base : String) (known suffixes : List String) (path : String) :
    (suffixes.map (base ++ ·)).find? known.contains = some path ↔
      ∃ suffix, IsFirstKnown base known suffixes suffix ∧ path = base ++ suffix := by
  rw [List.find?_eq_some_iff_append]
  constructor
  · rintro ⟨hknown, tried, untried, hsplit, htried⟩
    obtain ⟨earlier, more, rfl, rfl, hmore⟩ := List.map_eq_append_iff.mp hsplit
    obtain ⟨suffix, later, rfl, rfl, rfl⟩ := List.map_eq_cons_iff.mp hmore
    refine ⟨suffix, ⟨earlier, later, rfl, by simpa using hknown, fun other hother => ?_⟩, rfl⟩
    simpa using htried _ (List.mem_map_of_mem hother)
  · rintro ⟨suffix, ⟨earlier, later, rfl, hknown, hearlier⟩, rfl⟩
    refine ⟨by simpa using hknown, earlier.map (base ++ ·), later.map (base ++ ·), by simp, ?_⟩
    intro path hpath
    obtain ⟨other, hother, rfl⟩ := List.mem_map.mp hpath
    simpa using hearlier other hother

/-- The trial of suffixes fails exactly if none makes a known path. -/
theorem find?_suffixes_eq_none_iff (base : String) (known suffixes : List String) :
    (suffixes.map (base ++ ·)).find? known.contains = none ↔
      ∀ suffix ∈ suffixes, base ++ suffix ∉ known := by
  simp

section Outcome

variable {source token : String} {known : List String}

theorem Language.resolve_of_not_pathRelative (language : Language) (h : ¬ PathRelative token) :
    language.resolve source token known = .unresolved .notPathRelative := by
  have hguard : (!isPathRelative token) = true := by
    rw [Bool.not_eq_true', Bool.eq_false_iff]
    exact fun htrue => h ((isPathRelative_iff token).mp htrue)
  exact if_pos hguard

/-- The outcome for a token that is path-relative, from its joined path. -/
theorem Language.resolve_of_pathRelative (language : Language) (h : PathRelative token) :
    language.resolve source token known =
      match joinRelative source token with
      | none => .unresolved .escapesRoot
      | some base =>
        match (language.profile.suffixes.map (base ++ ·)).find? known.contains with
        | some path => .resolved path
        | none => .unresolved (.notFound base) := by
  have hguard : ¬ (!isPathRelative token) = true := by
    rw [(isPathRelative_iff token).mpr h]
    decide
  exact if_neg hguard

theorem resolve_of_not_pathRelative (h : ¬ PathRelative token) :
    resolve source token known = .unresolved .notPathRelative :=
  (Language.detect source).resolve_of_not_pathRelative h

/-- The outcome for a token that is path-relative, in the language of its source. -/
theorem resolve_of_pathRelative (h : PathRelative token) :
    resolve source token known =
      match joinRelative source token with
      | none => .unresolved .escapesRoot
      | some base =>
        match ((Language.detect source).profile.suffixes.map (base ++ ·)).find? known.contains with
        | some path => .resolved path
        | none => .unresolved (.notFound base) :=
  (Language.detect source).resolve_of_pathRelative h

/-- A reference is found not to be path-relative exactly if its token is not. -/
theorem resolve_eq_notPathRelative_iff :
    resolve source token known = .unresolved .notPathRelative ↔ ¬ PathRelative token := by
  refine ⟨fun h hrelative => ?_, resolve_of_not_pathRelative⟩
  rw [resolve_of_pathRelative hrelative] at h
  split at h
  · cases h
  · split at h
    · cases h
    · cases h

/-- A reference is found to leave the root exactly if its token is path-relative and cannot be
joined. -/
theorem resolve_eq_escapesRoot_iff :
    resolve source token known = .unresolved .escapesRoot ↔
      PathRelative token ∧ joinRelative source token = none := by
  by_cases hrelative : PathRelative token
  · rw [resolve_of_pathRelative hrelative]
    cases joinRelative source token with
    | none => simp [hrelative]
    | some base =>
      simp only [reduceCtorEq, and_false, iff_false]
      split
      · exact fun h => by cases h
      · exact fun h => by cases h
  · rw [resolve_of_not_pathRelative hrelative]
    simp [hrelative]

/-- A reference with any other outcome is path-relative and can be joined. -/
theorem exists_joinRelative_of_resolve (hpath : resolve source token known ≠
    .unresolved .notPathRelative)
    (hescapes : resolve source token known ≠ .unresolved .escapesRoot) :
    PathRelative token ∧ ∃ base, joinRelative source token = some base := by
  have hrelative : PathRelative token := by
    apply Classical.byContradiction
    intro hnot
    exact hpath (resolve_of_not_pathRelative hnot)
  refine ⟨hrelative, Option.ne_none_iff_exists'.mp fun hnone => ?_⟩
  exact hescapes (resolve_eq_escapesRoot_iff.mpr ⟨hrelative, hnone⟩)

/-- A path-relative token that can be joined resolves to the first known path or to nothing. -/
theorem Language.resolve_of_joinRelative (language : Language) {base : String}
    (h : PathRelative token) (hjoin : joinRelative source token = some base) :
    (∀ path, language.resolve source token known = .resolved path ↔
      ∃ suffix, IsFirstKnown base known language.profile.suffixes suffix ∧ path = base ++ suffix) ∧
    (∀ other, language.resolve source token known = .unresolved (.notFound other) ↔
      other = base ∧ ∀ suffix ∈ language.profile.suffixes, base ++ suffix ∉ known) := by
  have hresolve : language.resolve source token known = _ := language.resolve_of_pathRelative h
  simp only [hjoin] at hresolve
  simp only [← find?_suffixes_eq_some_iff, ← find?_suffixes_eq_none_iff, hresolve]
  cases (language.profile.suffixes.map (base ++ ·)).find? known.contains with
  | some hit => simp
  | none => simp [eq_comm]

/-- A path-relative token that can be joined resolves by the suffixes of the language of its
source. -/
theorem resolve_of_joinRelative {base : String} (h : PathRelative token)
    (hjoin : joinRelative source token = some base) :
    (∀ path, resolve source token known = .resolved path ↔
      ∃ suffix, IsFirstKnown base known (Language.detect source).profile.suffixes suffix ∧
        path = base ++ suffix) ∧
    (∀ other, resolve source token known = .unresolved (.notFound other) ↔
      other = base ∧ ∀ suffix ∈ (Language.detect source).profile.suffixes,
      base ++ suffix ∉ known) :=
  (Language.detect source).resolve_of_joinRelative h hjoin

end Outcome

/-- **What a reference resolves to.** A token that does not start with one or two dots and a slash
is not path-relative. Of the others, those leave the root of which some beginning climbs higher than
the directory of the source is deep. What is left is joined to one path, and resolves to that path
with the first suffix of the source's language that makes a known path, or to nothing found if none
does. -/
theorem resolve_eq_iff (source token : String) (known : List String) :
    (resolve source token known = .unresolved .notPathRelative ↔ ¬ PathRelative token) ∧
    (PathRelative token →
      (resolve source token known = .unresolved .escapesRoot ↔
        ClimbsAbove (Path.directory source).length (Path.segments token)) ∧
      (¬ ClimbsAbove (Path.directory source).length (Path.segments token) →
        ∃ base, IsJoin source token base ∧
          (∀ path, resolve source token known = .resolved path ↔
            ∃ suffix, IsFirstKnown base known (Language.detect source).profile.suffixes suffix ∧
              path = base ++ suffix) ∧
          (∀ other, resolve source token known = .unresolved (.notFound other) ↔
            other = base ∧ ∀ suffix ∈ (Language.detect source).profile.suffixes,
            base ++ suffix ∉ known))) := by
  refine ⟨resolve_eq_notPathRelative_iff, fun hrelative => ⟨?_, fun hclimb => ?_⟩⟩
  · rw [← joinRelative_eq_none_iff, resolve_eq_escapesRoot_iff]
    exact and_iff_right hrelative
  · rw [← joinRelative_eq_none_iff] at hclimb
    obtain ⟨base, hbase⟩ := Option.ne_none_iff_exists'.mp hclimb
    exact ⟨base, isJoin_of_joinRelative hbase, resolve_of_joinRelative hrelative hbase⟩

-- what follows a climb above the root does not mend it
example : resolve "src/a.js" "./b/../../../c" ["c"] = .unresolved .escapesRoot := by decide

end ImportChart
