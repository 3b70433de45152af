import ImportChart.Proofs.Reference.Resolution
import Mathlib.Data.List.Nodup

/-!
# More known paths

What a reference resolves to is found by a search among the known paths, so it depends on which
paths are known. This module says how far. Whether a token is path-relative and whether it leaves
the root do not depend on them. A reference that resolves by some suffix of its language resolves by
this suffix or an earlier one when more paths are known, and what nothing is found for is not found
among fewer paths either (`resolve_of_subset`). So a part of the known paths gives fewer answers,
and never an answer that all of them would take back.

An answer can change: a path that becomes known comes first if its suffix does. The new answer is
then one of the new paths.
-/

namespace ImportChart

/-- A known path that some suffix makes is found, or the path that an earlier suffix makes. -/
theorem exists_isFirstKnown_le {base suffix : String} {known suffixes : List String} {i : Nat}
    (hplace : suffixes[i]? = some suffix) (hknown : base ++ suffix ∈ known) :
    ∃ (j : Nat) (other : String),
    j ≤ i ∧ suffixes[j]? = some other ∧ IsFirstKnown base known suffixes other := by
  induction suffixes generalizing i with
  | nil => cases hplace
  | cons first rest ih =>
    by_cases hfirst : base ++ first ∈ known
    · exact ⟨0, first, Nat.zero_le i, rfl, [], rest, rfl, hfirst,
        fun other h => absurd h List.not_mem_nil⟩
    · cases i with
      | zero =>
        cases hplace
        exact absurd hknown hfirst
      | succ i =>
        obtain ⟨j, other, hle, hj, earlier, later, rfl, hother, hearlier⟩ := ih hplace
        refine ⟨j + 1, other, Nat.succ_le_succ hle, hj, first :: earlier, later, rfl, hother, ?_⟩
        exact List.forall_mem_cons.mpr ⟨hfirst, hearlier⟩

/-- No suffix before the first that makes a known path makes one. -/
theorem IsFirstKnown.not_mem_of_lt {base suffix other : String}
    {known suffixes : List String} {i j : Nat} (h : IsFirstKnown base known suffixes suffix)
    (hnodup : suffixes.Nodup) (hi : suffixes[i]? = some suffix) (hj : suffixes[j]? = some other)
    (hlt : j < i) : base ++ other ∉ known := by
  obtain ⟨earlier, later, rfl, -, hearlier⟩ := h
  have hplace : (earlier ++ suffix :: later)[earlier.length]? = some suffix := by
    rw [List.getElem?_append_right (Nat.le_refl _), Nat.sub_self, List.getElem?_cons_zero]
  have hlength : earlier.length = i := by
    apply (List.getElem?_inj (List.getElem?_eq_some_iff.mp hplace).1 hnodup).mp
    rw [hplace, hi]
  rw [List.getElem?_append_left (hlength ▸ hlt)] at hj
  exact hearlier other (List.mem_of_getElem? hj)

/-- No language tries a suffix twice. -/
theorem Language.nodup_suffixes (language : Language) : language.profile.suffixes.Nodup := by
  cases language <;> decide

section Growth

variable {source token : String} {known known' : List String}

/-- A reference that resolves by some suffix resolves by it or an earlier one among more known
paths. A new answer is a path that was not known before. -/
theorem resolve_resolved_of_subset (hsubset : known ⊆ known') {base suffix : String} {i : Nat}
    (hjoin : joinRelative source token = some base)
    (hplace : (Language.detect source).profile.suffixes[i]? = some suffix)
    (h : resolve source token known = .resolved (base ++ suffix)) :
    ∃ (j : Nat) (other : String),
    j ≤ i ∧ (Language.detect source).profile.suffixes[j]? = some other ∧
      resolve source token known' = .resolved (base ++ other) ∧
      (j = i ∨ base ++ other ∉ known) := by
  have hrelative : PathRelative token :=
    (exists_joinRelative_of_resolve (by rw [h]; simp) (by rw [h]; simp)).1
  obtain ⟨found, hfound, heq⟩ := ((resolve_of_joinRelative hrelative hjoin).1 _).mp h
  obtain rfl : suffix = found := (String.append_right_inj base).mp heq
  obtain ⟨-, -, -, hknown, -⟩ := id hfound
  obtain ⟨j, other, hle, hj, hother⟩ := exists_isFirstKnown_le hplace (hsubset hknown)
  refine ⟨j, other, hle, hj,
    ((resolve_of_joinRelative hrelative hjoin).1 _).mpr ⟨other, hother, rfl⟩, ?_⟩
  rcases Nat.eq_or_lt_of_le hle with heq | hlt
  · exact .inl heq
  · exact .inr (hfound.not_mem_of_lt (Language.detect source).nodup_suffixes hplace hj hlt)

/-- What is not found is not found among fewer known paths. -/
theorem resolve_notFound_of_subset (hsubset : known ⊆ known') {base : String}
    (h : resolve source token known' = .unresolved (.notFound base)) :
    resolve source token known = .unresolved (.notFound base) := by
  obtain ⟨hrelative, joined, hjoin⟩ :=
    exists_joinRelative_of_resolve (by rw [h]; simp) (by rw [h]; simp)
  obtain ⟨rfl, hnone⟩ := ((resolve_of_joinRelative hrelative hjoin).2 base).mp h
  apply ((resolve_of_joinRelative hrelative hjoin).2 base).mpr
  refine ⟨rfl, fun suffix hsuffix hmem => ?_⟩
  exact hnone suffix hsuffix (hsubset hmem)

/-- **What more known paths can change.** Let all known paths be known still, and perhaps more. A
token that is not path-relative or leaves the root does so as before. A reference that resolved to
its joined path with the suffix at some place of its language's list resolves to the joined path
with a suffix at this place or an earlier one, and if the place is earlier, to a path that was not
known. And if nothing is found now, then nothing was found before. -/
theorem resolve_of_subset (source token : String) (hsubset : known ⊆ known') :
    (resolve source token known = .unresolved .notPathRelative ↔
      resolve source token known' = .unresolved .notPathRelative) ∧
    (resolve source token known = .unresolved .escapesRoot ↔
      resolve source token known' = .unresolved .escapesRoot) ∧
    (∀ (base : String) (i : Nat) (suffix : String), joinRelative source token = some base →
      (Language.detect source).profile.suffixes[i]? = some suffix →
      resolve source token known = .resolved (base ++ suffix) →
      ∃ (j : Nat) (other : String),
      j ≤ i ∧ (Language.detect source).profile.suffixes[j]? = some other ∧
        resolve source token known' = .resolved (base ++ other) ∧ (j = i ∨ base ++ other ∉ known)) ∧
    (∀ base, resolve source token known' = .unresolved (.notFound base) →
      resolve source token known = .unresolved (.notFound base)) := by
  refine ⟨?_, ?_, ?_, ?_⟩
  · rw [resolve_eq_notPathRelative_iff, resolve_eq_notPathRelative_iff]
  · rw [resolve_eq_escapesRoot_iff, resolve_eq_escapesRoot_iff]
  · intro base i suffix hjoin hplace h
    exact resolve_resolved_of_subset hsubset hjoin hplace h
  · intro base h
    exact resolve_notFound_of_subset hsubset h

/-- A file that becomes known takes the place of one with a later suffix, and a token that leads
nowhere among them led nowhere before. -/
theorem resolve_of_subset_taken :
    resolve "src/a.js" "./b" ["src/b.ts"] = .resolved "src/b.ts" ∧
      (∃ (j : Nat) (other : String), j ≤ 3 ∧ Language.javascript.profile.suffixes[j]? = some other ∧
        resolve "src/a.js" "./b" ["src/b.ts", "src/b.js"] = .resolved ("src/b" ++ other) ∧
        (j = 3 ∨ "src/b" ++ other ∉ ["src/b.ts"])) ∧
      resolve "src/a.js" "./c" ["src/b.ts"] = .unresolved (.notFound "src/c") := by
  have hsubset : ["src/b.ts"] ⊆ ["src/b.ts", "src/b.js"] := by simp
  have hfound : resolve "src/a.js" "./b" ["src/b.ts"] = .resolved "src/b.ts" := by decide
  refine ⟨hfound, ?_, ?_⟩
  · exact (resolve_of_subset "src/a.js" "./b" hsubset).2.2.1 "src/b" 3 ".ts"
      (by decide) (by decide) hfound
  · exact (resolve_of_subset "src/a.js" "./c" hsubset).2.2.2 "src/c" (by decide)

end Growth

end ImportChart
