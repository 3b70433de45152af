import ImportChart.Proofs.Reference.Resolution

/-!
# References to directories

Some suffixes begin with a slash. They stand for the file that speaks for a directory: `index.js`
and its kin, or `__init__.py`. A reference that is joined to the path of a directory resolves to
such a file through them (`resolve_index_iff`).

The suffix is written behind the joined path, and this makes the path of a file in the directory as
long as there are names to write it behind. The joined path of the root is empty, and what is
written behind it starts with a slash, as the path of a file in the root does not. So the root is
the one directory whose index file is not reached. A reference is joined to the root exactly if it
climbs as many levels as the directory of its source is deep.
-/

namespace ImportChart

/-! ## Suffixes with a slash -/

/-- No language has a suffix both with a slash before it and without. -/
theorem Language.slash_not_mem_suffixes (language : Language) :
    ∀ suffix ∈ language.profile.suffixes, "/" ++ suffix ∉ language.profile.suffixes := by
  cases language <;> decide

/-- The suffixes that begin with a slash are tried last. -/
theorem Language.pairwise_suffixes (language : Language) :
    language.profile.suffixes.Pairwise fun suffix later =>
      startsWith "/" suffix = true → startsWith "/" later = true := by
  cases language <;> decide

theorem startsWith_slash (name : String) : startsWith "/" ("/" ++ name) = true := by
  rw [startsWith, List.isPrefixOf_iff_prefix, String.toList_append]
  exact List.prefix_append _ _

section Index

variable {source token index : String} {known earlier later : List String}

/-- From the first suffix that begins with a slash on, all do. -/
theorem startsWith_of_mem_later {language : Language}
    (hsuffixes : language.profile.suffixes = earlier ++ ("/" ++ index) :: later) {suffix : String}
    (h : suffix ∈ ("/" ++ index) :: later) : startsWith "/" suffix = true := by
  have hpairwise := language.pairwise_suffixes
  rw [hsuffixes, List.pairwise_append, List.pairwise_cons] at hpairwise
  rcases List.mem_cons.mp h with rfl | hlater
  · exact startsWith_slash index
  · exact hpairwise.2.1.1 suffix hlater (startsWith_slash index)

/-! ## The two kinds of directories -/

section Joined

variable (hrelative : PathRelative token)
  (hsuffixes : (Language.detect source).profile.suffixes = earlier ++ ("/" ++ index) :: later)
include hrelative hsuffixes

/-- In a directory with names the index file is the first known path. -/
theorem resolve_index_of_names {directory : List String} (hnames : directory ≠ [])
    (hjoin : joinRelative source token = some (Path.ofSegments directory))
    (hindex : Path.ofSegments (directory ++ [index]) ∈ known)
    (hearlier : ∀ suffix ∈ earlier, Path.ofSegments directory ++ suffix ∉ known) :
    resolve source token known = .resolved (Path.ofSegments (directory ++ [index])) := by
  have hpath := Path.ofSegments_concat hnames index
  refine ((resolve_of_joinRelative hrelative hjoin).1 _).mpr ⟨"/" ++ index, ?_, hpath⟩
  exact ⟨earlier, later, hsuffixes, hpath ▸ hindex, hearlier⟩

/-- In the root the index file is not tried: behind the empty path a suffix stays what it is, and
the name of an index file is no suffix. -/
theorem resolve_ne_index_of_root (hjoin : joinRelative source token = some "") :
    resolve source token known ≠ .resolved index := by
  intro hpath
  obtain ⟨suffix, ⟨before, after, hsplit, -⟩, hsuffix⟩ :=
    ((resolve_of_joinRelative hrelative hjoin).1 _).mp hpath
  rw [String.empty_append] at hsuffix
  have hplain : suffix ∈ (Language.detect source).profile.suffixes := by
    rw [hsplit]
    exact List.mem_append_right _ List.mem_cons_self
  refine (Language.detect source).slash_not_mem_suffixes suffix hplain ?_
  rw [hsuffixes, hsuffix]
  exact List.mem_append_right _ List.mem_cons_self

/-- In the root nothing is found, unless an earlier suffix is a path or there are paths that start
with a slash. -/
theorem resolve_eq_notFound_of_root (hjoin : joinRelative source token = some "")
    (hearlier : ∀ suffix ∈ earlier, suffix ∉ known)
    (hslash : ∀ path ∈ known, startsWith "/" path = false) :
    resolve source token known = .unresolved (.notFound "") := by
  refine ((resolve_of_joinRelative hrelative hjoin).2 "").mpr ⟨rfl, fun suffix hsuffix hknown => ?_⟩
  rw [String.empty_append] at hknown
  rw [hsuffixes] at hsuffix
  rcases List.mem_append.mp hsuffix with hbefore | hafter
  · exact hearlier suffix hbefore hknown
  · have hstart := startsWith_of_mem_later hsuffixes hafter
    rw [hslash suffix hknown] at hstart
    cases hstart

end Joined

/-! ## The index file of a directory -/

/-- **Where a reference to a directory leads.** Let a path-relative token not leave the root, and
let a slash and the name of an index file be a suffix of the source's language. The token is then
joined to a directory, which lies as many levels below the root as the climb of the token leaves of
the source's directory. If the index file of this directory is known, and no earlier suffix makes a
known path, then the token resolves to the index file exactly if the directory is not the root. In
the root it resolves to nothing, unless there are paths that start with a slash. -/
theorem resolve_index_iff (known : List String) (hrelative : PathRelative token)
    (hclimb : ¬ ClimbsAbove (Path.directory source).length (Path.segments token))
    (hsuffixes : (Language.detect source).profile.suffixes = earlier ++ ("/" ++ index) :: later) :
    ∃ directory : List String,
      joinSegments (Path.directory source).reverse (Path.segments token) = some directory.reverse ∧
      (directory.length : Int) = (Path.directory source).length - climb (Path.segments token) ∧
      (Path.ofSegments (directory ++ [index]) ∈ known →
        (∀ suffix ∈ earlier, Path.ofSegments directory ++ suffix ∉ known) →
        (resolve source token known = .resolved (Path.ofSegments (directory ++ [index])) ↔
          directory ≠ []) ∧
        (directory = [] → (∀ path ∈ known, startsWith "/" path = false) →
          resolve source token known = .unresolved (.notFound ""))) := by
  rw [← joinRelative_eq_none_iff, joinRelative, Option.map_eq_none_iff] at hclimb
  obtain ⟨inward, hwalk⟩ := Option.ne_none_iff_exists'.mp hclimb
  have hjoin : joinRelative source token = some (Path.ofSegments inward.reverse) := by
    rw [joinRelative, hwalk]
    rfl
  refine ⟨inward.reverse, by rw [List.reverse_reverse, hwalk], ?_,
    fun hindex hearlier => ⟨⟨?_, ?_⟩, ?_⟩⟩
  · rw [List.length_reverse, length_joinSegments hwalk, List.length_reverse]
  · intro hpath hroot
    rw [hroot] at hjoin hpath
    exact resolve_ne_index_of_root hrelative hsuffixes hjoin hpath
  · intro hnames
    exact resolve_index_of_names hrelative hsuffixes hnames hjoin hindex hearlier
  · intro hroot hslash
    rw [hroot] at hjoin hearlier
    refine resolve_eq_notFound_of_root hrelative hsuffixes hjoin (fun suffix hsuffix => ?_) hslash
    rw [← String.empty_append (s := suffix)]
    exact hearlier suffix hsuffix

/-- The index files of two directories are reached, of the one by going up and of the other by going
down. -/
theorem resolve_index_iff_nested :
    resolve "src/ui/a.js" "../" ["src/index.js", "index.js"] = .resolved "src/index.js" ∧
      resolve "pkg/a.py" "./sub" ["pkg/sub/__init__.py"] = .resolved "pkg/sub/__init__.py" := by
  constructor
  · have hclimb : ¬ ClimbsAbove (Path.directory "src/ui/a.js").length (Path.segments "../") := by
      rw [← joinRelative_eq_none_iff]
      decide
    have hsuffixes : (Language.detect "src/ui/a.js").profile.suffixes =
        ["", ".js", ".jsx", ".ts", ".tsx", ".mjs", ".cjs"] ++
          ("/" ++ "index.js") :: ["/index.ts", "/index.jsx", "/index.tsx"] := by decide
    obtain ⟨directory, hwalk, -, hresolve⟩ :=
      resolve_index_iff ["src/index.js", "index.js"] (.inr (by decide)) hclimb hsuffixes
    have hjoined : joinSegments (Path.directory "src/ui/a.js").reverse (Path.segments "../") =
        some ["src"] := by decide
    rw [hjoined, Option.some.injEq] at hwalk
    obtain rfl : directory = ["src"] := List.reverse_eq_iff.mp hwalk.symm
    exact (hresolve (by decide) (by decide)).1.mpr (List.cons_ne_nil _ _)
  · have hclimb : ¬ ClimbsAbove (Path.directory "pkg/a.py").length (Path.segments "./sub") := by
      rw [← joinRelative_eq_none_iff]
      decide
    have hsuffixes : (Language.detect "pkg/a.py").profile.suffixes =
        ["", ".py"] ++ ("/" ++ "__init__.py") :: [] := by
      decide
    obtain ⟨directory, hwalk, -, hresolve⟩ :=
      resolve_index_iff ["pkg/sub/__init__.py"] (.inl (by decide)) hclimb hsuffixes
    have hjoined : joinSegments (Path.directory "pkg/a.py").reverse (Path.segments "./sub") =
        some ["sub", "pkg"] := by
      decide
    rw [hjoined, Option.some.injEq] at hwalk
    obtain rfl : directory = ["pkg", "sub"] := List.reverse_eq_iff.mp hwalk.symm
    exact (hresolve (by decide) (by decide)).1.mpr (List.cons_ne_nil _ _)

/-- The index file of the root is known, no earlier suffix makes a known path, and it is not
reached. -/
theorem resolve_index_iff_root :
    isPathRelative "../" = true ∧
      joinSegments (Path.directory "src/a.js").reverse (Path.segments "../") = some [] ∧
      (∀ suffix ∈ ["", ".js", ".jsx", ".ts", ".tsx", ".mjs", ".cjs"],
        Path.ofSegments [] ++ suffix ∉ ["index.js"]) ∧
      resolve "src/a.js" "../" ["index.js"] = .unresolved (.notFound "") ∧
      joinSegments (Path.directory "pkg/a.py").reverse (Path.segments "../") = some [] ∧
      (∀ suffix ∈ ["", ".py"], Path.ofSegments [] ++ suffix ∉ ["__init__.py"]) ∧
      resolve "pkg/a.py" "../" ["__init__.py"] = .unresolved (.notFound "") := by
  decide

end Index

end ImportChart
