import ImportChart.Analysis
import ImportChart.Proofs.Reference.Resolution
import Mathlib.Data.List.Forall2

/-!
# Every reference is accounted for

The dependencies and the diagnostics of an analysis are two lists made side by side. This module
ties them together: each internal dependency leads to a file of the tree or has exactly one
diagnostic, and there are no other diagnostics (`Snapshot.analyze_accounts`).

The tie is made at one reference. `Accounted` says what may become of a dependency and of the
diagnostic made with it; resolving a reference keeps to it
(`ParsedFile.resolveReference_accounted`). A file and an analysis follow by collecting, in the order
of the references and of the files.

The tree may be any tree. Where it holds a path twice, the file is read twice and its references are
reported twice.
-/

namespace ImportChart

/-- The codes that tell why a token of a file leads to none of the known paths. -/
inductive FailureCode (known : List String) (source token : String) : String → Prop where
  | notPathRelative : ¬ PathRelative token → FailureCode known source token "E202"
  | escapesRoot : PathRelative token →
      ClimbsAbove (Path.directory source).length (Path.segments token) →
      FailureCode known source token "E201"
  | notFound {base : String} : PathRelative token →
      ¬ ClimbsAbove (Path.directory source).length (Path.segments token) →
      IsJoin source token base →
      (∀ suffix ∈ (Language.detect source).profile.suffixes, base ++ suffix ∉ known) →
      FailureCode known source token "E200"

/-- A diagnostic tells of a dependency of the file at a path: it names the file, has the place of
the dependency for its only label, and a code that says why the dependency leads nowhere. -/
structure Diagnostic.TellsOf (diagnostic : Diagnostic) (known : List String) (path : String)
    (dependency : Dependency) : Prop where
  file : diagnostic.file = some path
  span : diagnostic.labels.map Label.span = [dependency.span]
  code : ∃ code, diagnostic.code = some code ∧ FailureCode known path dependency.token code.text

/-- What may become of a dependency of the file at a path, and of the diagnostic that is made with
it. -/
inductive Accounted (known : List String) (path : String) (dependency : Dependency) :
    Option Diagnostic → Prop where
  | resolved {target : String} : dependency.origin = .internal →
      dependency.targetPath = some target →
      target ∈ known → Accounted known path dependency none
  | reported {diagnostic : Diagnostic} : dependency.origin = .internal →
      dependency.targetPath = none →
      diagnostic.TellsOf known path dependency → Accounted known path dependency (some diagnostic)
  | foreign : dependency.origin ≠ .internal → dependency.targetPath = none →
      Accounted known path dependency none

/-- An internal dependency that leads nowhere. -/
def Dependency.isUnresolved (dependency : Dependency) : Bool :=
  decide (dependency.origin = .internal ∧ dependency.targetPath = none)

/-- The internal dependencies of files that lead nowhere, each with the path of its file. -/
def unresolvedOf (files : List ResolvedFile) : List (String × Dependency) :=
  files.flatMap fun file =>
    (file.dependencies.filter Dependency.isUnresolved).map fun dependency => (file.path, dependency)

/-! ## One reference -/

section Reference

variable {known : List String} {source token : String}

/-- The outcome of a resolution that fails has a code of its own. -/
theorem failureCode_of_resolve {cause : Unresolved}
    (h : resolve source token known = .unresolved cause) (file : ParsedFile)
    (reference : ClassifiedReference) :
    ∃ code, (cause.warning file reference).code = some code ∧
      FailureCode known source token code.text := by
  by_cases hrelative : PathRelative token
  · cases hjoin : joinRelative source token with
    | none =>
      have hescapes : resolve source token known = .unresolved .escapesRoot := by
        rw [resolve_of_pathRelative hrelative, hjoin]
      rw [hescapes] at h
      cases h
      exact ⟨.escapesRoot, rfl,
        .escapesRoot hrelative ((joinRelative_eq_none_iff source token).mp hjoin)⟩
    | some base =>
      have hstays : ¬ ClimbsAbove (Path.directory source).length (Path.segments token) := by
        intro hclimbs
        rw [(joinRelative_eq_none_iff source token).mpr hclimbs] at hjoin
        cases hjoin
      obtain ⟨-, hnotFound⟩ := @resolve_of_joinRelative source token known base hrelative hjoin
      cases cause with
      | notFound other =>
        obtain ⟨-, hnone⟩ := (hnotFound other).mp h
        exact ⟨.fileNotFound, rfl, .notFound hrelative hstays (isJoin_of_joinRelative hjoin) hnone⟩
      | notPathRelative | escapesRoot =>
        rw [resolve_of_pathRelative hrelative, hjoin] at h
        dsimp only at h
        split at h
        · cases h
        · cases h
  · rw [resolve_of_not_pathRelative hrelative] at h
    cases h
    exact ⟨.notPathRelative, rfl, .notPathRelative hrelative⟩

/-- A resolution that succeeds ends at a known path. -/
theorem mem_of_resolve {path : String}
    (h : resolve source token known = .resolved path) : path ∈ known := by
  by_cases hrelative : PathRelative token
  · cases hjoin : joinRelative source token with
    | none =>
      rw [resolve_of_pathRelative hrelative, hjoin] at h
      cases h
    | some base =>
      obtain ⟨hresolved, -⟩ := @resolve_of_joinRelative source token known base hrelative hjoin
      obtain ⟨suffix, ⟨_, _, _, hmem, _⟩, rfl⟩ := (hresolved path).mp h
      exact hmem
  · rw [resolve_of_not_pathRelative hrelative] at h
    cases h

/-- The warning about a reference tells of the dependency made of it. -/
theorem Unresolved.warning_tellsOf {file : ParsedFile} {reference : ClassifiedReference}
    {cause : Unresolved} (h : resolve file.path reference.token known = .unresolved cause) :
    (cause.warning file reference).TellsOf known file.path (reference.resolve none) where
  file := by cases cause <;> rfl
  span := by cases cause <;> rfl
  code := failureCode_of_resolve h file reference

/-- Resolving a reference of a file keeps the reference, and accounts for the dependency made of
it. -/
theorem ParsedFile.resolveReference_accounted {file : ParsedFile}
    (hlanguage : file.language = .detect file.path) (known : List String)
    (reference : ClassifiedReference) :
    (file.resolveReference known reference).1.toClassifiedReference = reference ∧
      Accounted known file.path (file.resolveReference known reference).1
        (file.resolveReference known reference).2 := by
  by_cases horigin : reference.origin = .internal
  · rw [resolveReference, if_pos horigin, hlanguage]
    cases houtcome : (Language.detect file.path).resolve file.path reference.token known with
    | resolved path =>
      have htarget : (reference.resolve (some path)).targetPath = some path := if_pos horigin
      exact ⟨rfl, .resolved horigin htarget (mem_of_resolve houtcome)⟩
    | unresolved cause =>
      have htarget : (reference.resolve none).targetPath = none := if_pos horigin
      exact ⟨rfl, .reported horigin htarget (Unresolved.warning_tellsOf houtcome)⟩
  · have htarget : (reference.resolve none).targetPath = none := if_neg horigin
    rw [resolveReference, if_neg horigin]
    exact ⟨rfl, .foreign horigin htarget⟩

end Reference

/-! ## One file -/

namespace ParsedFile

variable {file : ParsedFile} {known : List String}

/-- The unresolved dependencies among references and the diagnostics made with them correspond. -/
theorem forall₂_unresolved (hlanguage : file.language = .detect file.path)
    (references : List ClassifiedReference) :
    List.Forall₂ (fun dependency diagnostic =>
      Diagnostic.TellsOf diagnostic known file.path dependency)
      ((references.map fun reference => (file.resolveReference known reference).1).filter
        Dependency.isUnresolved)
      (references.filterMap fun reference => (file.resolveReference known reference).2) := by
  induction references with
  | nil => exact .nil
  | cons reference rest ih =>
    obtain ⟨-, haccounted⟩ := resolveReference_accounted hlanguage known reference
    rw [List.map_cons, List.filter_cons, List.filterMap_cons]
    generalize file.resolveReference known reference = made at haccounted ⊢
    obtain ⟨dependency, diagnostic⟩ := made
    cases haccounted with
    | resolved _ htarget _ =>
      have hresolved : dependency.isUnresolved = false := decide_eq_false fun ⟨_, hnone⟩ => by
        rw [hnone] at htarget
        cases htarget
      simpa only [hresolved, Bool.false_eq_true, if_false] using ih
    | reported horigin hnone htells =>
      have hunresolved : dependency.isUnresolved = true := decide_eq_true ⟨horigin, hnone⟩
      rw [if_pos hunresolved]
      exact .cons htells ih
    | foreign horigin _ =>
      have hresolved : dependency.isUnresolved = false :=
        decide_eq_false fun ⟨hinternal, _⟩ => horigin hinternal
      simpa only [hresolved, Bool.false_eq_true, if_false] using ih

/-- The references of a resolved file are those of the parsed one. -/
theorem toClassifiedReference_resolve (hlanguage : file.language = .detect file.path) :
    (file.resolve known).dependencies.map Dependency.toClassifiedReference = file.references := by
  rw [resolve, List.map_map]
  exact List.map_id'' (fun reference => (resolveReference_accounted hlanguage known reference).1) _

/-- A dependency of a resolved file with a path is internal, and its path is known. -/
theorem of_targetPath_eq_some (hlanguage : file.language = .detect file.path)
    {dependency : Dependency} (hmem : dependency ∈ (file.resolve known).dependencies)
    {target : String} (htarget : dependency.targetPath = some target) :
    dependency.origin = .internal ∧ target ∈ known := by
  obtain ⟨reference, -, rfl⟩ := List.mem_map.mp hmem
  obtain ⟨-, haccounted⟩ := resolveReference_accounted hlanguage known reference
  generalize (file.resolveReference known reference).2 = diagnostic at haccounted
  cases haccounted with
  | resolved horigin hother hknown =>
    obtain rfl := Option.some.inj (htarget.symm.trans hother)
    exact ⟨horigin, hknown⟩
  | reported _ hnone _ | foreign _ hnone =>
    rw [hnone] at htarget
    cases htarget

end ParsedFile

/-! ## The whole analysis -/

/-- **An analysis accounts for every reference.** The references of its files are those that were
read from their texts, unchanged and in order. Only internal dependencies have a target path, and it
is the path of a file of the tree. The internal dependencies without one and the diagnostics
correspond one to one, in the order of the files and of the dependencies in them. -/
theorem Snapshot.analyze_accounts (snapshot : Snapshot) (settings : AnalysisSettings) :
    let analysis := snapshot.analyze settings
    let known := snapshot.tree.files.map Node.path
    analysis.files.map (fun file =>
        (file.path, file.dependencies.map Dependency.toClassifiedReference)) =
      (snapshot.analyzed settings).map (fun path =>
        (path, (ParsedFile.ofText path (snapshot.text path)).references)) ∧
      (∀ file ∈ analysis.files, ∀ dependency ∈ file.dependencies,
        (∀ target, dependency.targetPath = some target →
          dependency.origin = .internal ∧ target ∈ known) ∧
        (dependency.origin = .internal → dependency.targetPath = none →
          (file.path, dependency) ∈ unresolvedOf analysis.files)) ∧
      List.Forall₂ (fun entry diagnostic => Diagnostic.TellsOf diagnostic known entry.1 entry.2)
        (unresolvedOf analysis.files) analysis.diagnostics := by
  intro analysis known
  have hlanguage : ∀ path,
      (snapshot.parseFile path).language = .detect (snapshot.parseFile path).path :=
    fun _ => rfl
  have hfiles : analysis.files =
      (snapshot.analyzed settings).map fun path => (snapshot.parseFile path).resolve known :=
    List.map_map
  have hdiagnostics : analysis.diagnostics =
      (snapshot.analyzed settings).flatMap fun path => (snapshot.parseFile path).warnings known :=
    List.flatMap_map _ _ _
  refine ⟨?_, fun file hfile dependency hmem =>
    ⟨fun target htarget => ?_, fun horigin hnone => ?_⟩, ?_⟩
  · rw [hfiles, List.map_map]
    refine List.map_congr_left fun path _ => ?_
    rw [Function.comp_apply, ParsedFile.toClassifiedReference_resolve (hlanguage path)]
    rfl
  · rw [hfiles] at hfile
    obtain ⟨path, -, rfl⟩ := List.mem_map.mp hfile
    exact ParsedFile.of_targetPath_eq_some (hlanguage path) hmem htarget
  · have hunresolved : dependency.isUnresolved = true := decide_eq_true ⟨horigin, hnone⟩
    exact List.mem_flatMap.mpr ⟨file, hfile,
      List.mem_map_of_mem (List.mem_filter.mpr ⟨hmem, hunresolved⟩)⟩
  · rw [unresolvedOf, hfiles, hdiagnostics, List.flatMap_map]
    refine List.rel_flatMap (List.forall₂_same.mpr fun path _ => rfl) fun path other hpath => ?_
    subst hpath
    rw [List.forall₂_map_left_iff]
    exact ParsedFile.forall₂_unresolved (hlanguage path) _

end ImportChart
