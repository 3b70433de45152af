import ImportChart.Graph.Diagram
import ImportChart.Graph.Listing
import ImportChart.Proofs.Analysis.Account
import ImportChart.Proofs.Tree.Canonical
import ImportChart.Summary
import Mathlib.Data.List.Permutation

/-!
# Snapshots of lists of files

A snapshot of a list of files has two halves. Its tree is made of the paths without their empty
segments; its contents stay under the paths as they were given. An analysis finds a content by a
path of the tree.

So a content is found exactly if its path was given without empty segments, and then it is the one
given last (`Snapshot.contents_ofFiles`); under any other spelling of a path of the tree the file
counts as empty. The order in which files with distinct paths are given is of no matter
(`Snapshot.analyze_ofFiles_perm`): the tree is that of the set of the paths, and each path has one
content.
-/

namespace ImportChart

/-- The content given last for a path, spelled as it is. -/
def contentGiven? (files : List (String × String)) (path : String) : Option String :=
  (files.reverse.find? fun file => decide (file.1 = path)).map Prod.snd

section Given

variable {files : List (String × String)} {path content : String}

theorem isSome_contentGiven?_iff :
    (contentGiven? files path).isSome = true ↔ path ∈ files.map Prod.fst := by
  rw [contentGiven?, Option.isSome_map, List.find?_isSome, List.mem_map]
  simp only [List.mem_reverse, decide_eq_true_eq]

theorem mem_of_contentGiven? (h : contentGiven? files path = some content) :
    (path, content) ∈ files := by
  obtain ⟨file, hfound, rfl⟩ := Option.map_eq_some_iff.mp h
  have htrue := List.find?_some hfound
  have hpath : file.1 = path := of_decide_eq_true htrue
  rw [← hpath]
  exact List.mem_reverse.mp (List.mem_of_find?_eq_some hfound)

end Given

namespace Snapshot

theorem content?_ofFiles (files : List (String × String)) (path : String) :
    (ofFiles files).content? path = contentGiven? files path :=
  Table.get?_ofPairs files path

/-! ## What is kept of the contents -/

/-- The references of the files of an analysis are those of their texts, in order. -/
theorem map_references_files_analyze (snapshot : Snapshot) (settings : AnalysisSettings) :
    (snapshot.analyze settings).files.map (fun file =>
        (file.path, file.dependencies.map Dependency.toClassifiedReference)) =
      (snapshot.analyzed settings).map fun path =>
        (path, (ParsedFile.ofText path (snapshot.text path)).references) := by
  rw [analyze, List.map_map, List.map_map]
  refine List.map_congr_left fun path _ => ?_
  have hlanguage : (snapshot.parseFile path).language = .detect (snapshot.parseFile path).path :=
    rfl
  rw [Function.comp_apply, Function.comp_apply, ParsedFile.toClassifiedReference_resolve hlanguage]
  rfl

/-- **What becomes of the contents of a list of files.** Each file of the tree is one of those
given, empty segments left out. There is a content for it exactly if its path was given without
empty segments, and it is the content given last under this path. The references of the analysis are
those of the contents so found; a file without content has those of an empty text. -/
theorem contents_ofFiles (files : List (String × String)) (settings : AnalysisSettings) :
    let snapshot := ofFiles files
    (∀ path ∈ snapshot.tree.filePaths,
      (∃ file ∈ files, Path.ofSegments (Path.namedSegments file.1) = path) ∧
      ((snapshot.content? path).isSome = true ↔ path ∈ files.map Prod.fst) ∧
      ∀ content, snapshot.content? path = some content →
        contentGiven? files path = some content ∧
        ∃ file ∈ files, Path.ofSegments (Path.namedSegments file.1) = path ∧ file.2 = content) ∧
    (snapshot.analyze settings).files.map (fun file =>
        (file.path, file.dependencies.map Dependency.toClassifiedReference)) =
      (snapshot.analyzed settings).map fun path =>
        (path, (ParsedFile.ofText path ((contentGiven? files path).getD "")).references) := by
  intro snapshot
  refine ⟨fun path hpath => ⟨?_, ?_, fun content hcontent => ?_⟩, ?_⟩
  · obtain ⟨given, hgiven, -, hsegments⟩ := Tree.mem_filePaths_ofPaths.mp hpath
    obtain ⟨file, hfile, rfl⟩ := List.mem_map.mp (Table.mem_keys_ofPairs.mp hgiven)
    exact ⟨file, hfile, hsegments⟩
  · rw [content?_ofFiles]
    exact isSome_contentGiven?_iff
  · rw [content?_ofFiles] at hcontent
    exact ⟨hcontent, (path, content), mem_of_contentGiven? hcontent,
      Tree.ofSegments_namedSegments_of_mem hpath, rfl⟩
  · rw [map_references_files_analyze]
    refine List.map_congr_left fun path _ => ?_
    rw [text, content?_ofFiles]

/-- Two files in one directory, the path of the first with a doubled slash. -/
def doubledSlash : List (String × String) :=
  [("src//a.js", "import './b';"), ("src/b.js", "")]

/-- A file whose path was given with a doubled slash is in the tree, but its content is not found
there and its reference is not read. -/
theorem contents_ofFiles_doubledSlash :
    (ofFiles doubledSlash).tree.filePaths = ["src/a.js", "src/b.js"] ∧
      (ofFiles doubledSlash).content? "src/a.js" = none ∧
      ((ofFiles doubledSlash).analyze {}).files.map (fun file => (file.path, file.dependencies)) =
        [("src/a.js", []), ("src/b.js", [])] ∧
      (ParsedFile.ofText "src/a.js" "import './b';").references.map (·.token) = ["./b"] := by
  have hfiles : ofFiles doubledSlash =
      { tree :=
        [.directory "src" "src" [.file "a.js" "src/a.js" none, .file "b.js" "src/b.js" none]]
        contents := doubledSlash } := by
    cbv
  rw [hfiles]
  decide +kernel

/-! ## The order of the files -/

/-- An analysis depends on the tree of a snapshot and on the texts of the files that are read
alone. -/
theorem analyze_congr_of_analyzed {snapshot other : Snapshot} {settings : AnalysisSettings}
    (htree : snapshot.tree = other.tree)
    (htext : ∀ path ∈ snapshot.analyzed settings, snapshot.text path = other.text path) :
    snapshot.analyze settings = other.analyze settings := by
  have hanalyzed : snapshot.analyzed settings = other.analyzed settings := by
    rw [analyzed, analyzed, selected, selected, htree]
  have hparse : (snapshot.analyzed settings).map snapshot.parseFile =
      (snapshot.analyzed settings).map other.parseFile := by
    refine List.map_congr_left fun path hpath => ?_
    rw [parseFile, parseFile, htext path hpath]
  rw [analyze, analyze, hparse, htree, hanalyzed]

/-- An analysis depends on the tree and the texts of a snapshot alone. -/
theorem analyze_congr {snapshot other : Snapshot} (htree : snapshot.tree = other.tree)
    (htext : ∀ path, snapshot.text path = other.text path) (settings : AnalysisSettings) :
    snapshot.analyze settings = other.analyze settings :=
  analyze_congr_of_analyzed htree fun path _ => htext path

section Order

variable {files others : List (String × String)}

/-- Files with distinct paths make one tree in any order. -/
theorem tree_ofFiles_perm (hperm : files.Perm others) :
    (ofFiles files).tree = (ofFiles others).tree := by
  refine Tree.ofPaths_congr fun route _ => ?_
  simp only [List.mem_map, Table.mem_keys_ofPairs, hperm.mem_iff]

/-- Files with distinct paths have their contents in any order. -/
theorem content?_ofFiles_perm (hperm : files.Perm others)
    (hnodup : (files.map Prod.fst).Nodup) (path : String) :
    (ofFiles files).content? path = (ofFiles others).content? path := by
  have hother : (others.map Prod.fst).Nodup := (hperm.map Prod.fst).nodup hnodup
  rw [content?, content?, ofFiles, ofFiles, Table.ofPairs_of_nodup hnodup,
    Table.ofPairs_of_nodup hother]
  exact Table.get?_perm hperm hnodup path

/-- **The order of the files given is of no matter.** Two lists of the same files, with distinct
paths, have one analysis, and with it the same diagrams, listing and summary. -/
theorem analyze_ofFiles_perm (hperm : files.Perm others) (hnodup : (files.map Prod.fst).Nodup)
    (settings : AnalysisSettings) :
    let analysis := (ofFiles files).analyze settings
    let other := (ofFiles others).analyze settings
    analysis = other ∧
      (∀ options, Diagram.render (.tree analysis.tree) options =
        Diagram.render (.tree other.tree) options) ∧
      (∀ path direction,
        Diagram.renderFile (.tree analysis.tree) path direction =
          Diagram.renderFile (.tree other.tree) path direction) ∧
      Listing.ofFiles analysis.files = Listing.ofFiles other.files ∧
      Summary.ofFiles analysis.files = Summary.ofFiles other.files := by
  intro analysis other
  have heq : analysis = other := analyze_congr (tree_ofFiles_perm hperm) (fun path => by
    rw [text, text, content?_ofFiles_perm hperm hnodup]) settings
  rw [heq]
  exact ⟨rfl, fun _ => rfl, fun _ _ => rfl, rfl, rfl⟩

/-- Files of which two are one file in two spellings, and one has the name of a directory. -/
def overlappingFiles : List (String × String) :=
  [("src//a.js", "import 'x';"), ("lib", ""), ("src/a.js", "import '../lib/b';"),
    ("lib/b.js", "import '../src/a';")]

theorem analyze_ofFiles_perm_overlapping :
    overlappingFiles.Perm overlappingFiles.reverse ∧ (overlappingFiles.map Prod.fst).Nodup ∧
      (ofFiles overlappingFiles).analyze {} = (ofFiles overlappingFiles.reverse).analyze {} ∧
      (ofFiles overlappingFiles.reverse).tree.filePaths = ["lib/b.js", "src/a.js", "lib"] := by
  have hperm : overlappingFiles.Perm overlappingFiles.reverse := overlappingFiles.reverse_perm.symm
  have hnodup : (overlappingFiles.map Prod.fst).Nodup := by decide
  exact ⟨hperm, hnodup, (analyze_ofFiles_perm hperm hnodup {}).1, by cbv⟩

end Order

end Snapshot

end ImportChart
