import ImportChart.Proofs.Analysis.Files
import ImportChart.Proofs.Walk
import Mathlib.Control.Monad.Basic

/-!
# What is not read while a directory is loaded

Loading a directory leaves the contents of some files unread: those that select no language, unless
all files are to be analyzed. Whether a file is read is decided by the path on which it was found;
whether it is analyzed is decided later, by a path of the tree that was built of these paths.
Contents are looked up by their path, so whatever text an analysis sees at a path was found at this
very path, and the two decisions agree on it (`Snapshot.text_ofBytes`).

So nothing is lost: the analysis is that of the same files with every content read
(`Snapshot.analyze_ofBytes`). This holds of whatever files a walk through the directory finds, in
whatever order, and of several with one path. It is relied on that the walk does not fail and that
the files can be read (`FileSystem.Finds`).
-/

namespace ImportChart

/-- Files with their bytes read as text, whatever they are. -/
def decodedFiles (files : List (String × List UInt8)) : List (String × String) :=
  files.map fun file => (file.1, Utf8.lossyText file.2)

namespace Snapshot

/-- The snapshot of files given as bytes. -/
def ofBytes (includeUnrecognized : Bool) (files : List (String × List UInt8)) : Snapshot :=
  .ofLoaded (FileSystem.loadedTexts includeUnrecognized files)

variable {files : List (String × List UInt8)} {settings : AnalysisSettings} {path : String}

/-- A file that is analyzed is one that is read while the directory is loaded. -/
theorem isRead_of_mem_analyzed {snapshot : Snapshot} (h : path ∈ snapshot.analyzed settings) :
    isRead settings.includeUnrecognized path = true :=
  (List.mem_filter.mp (List.mem_of_mem_take h)).2

/-- The tree is the same whether contents are read or not. -/
theorem tree_ofBytes (includeUnrecognized : Bool) (files : List (String × List UInt8)) :
    (ofBytes includeUnrecognized files).tree = (ofFiles (decodedFiles files)).tree := by
  refine Tree.ofPaths_congr fun route _ => ?_
  have hpaths : (FileSystem.loadedTexts includeUnrecognized files).map Prod.fst =
      (decodedFiles files).map Prod.fst := by
    rw [FileSystem.loadedTexts, decodedFiles, List.map_map, List.map_map]
    rfl
  simp only [List.mem_map, Table.mem_keys_ofPairs, ← hpaths]

/-- What was found at a path, if it is read, and nothing otherwise. -/
theorem content?_ofBytes (includeUnrecognized : Bool)
    (files : List (String × List UInt8)) (path : String) :
    (ofBytes includeUnrecognized files).content? path =
      ((ofFiles (decodedFiles files)).content? path).map fun text =>
        if isRead includeUnrecognized path then text else "" := by
  rw [content?, content?, ofBytes, ofLoaded, FileSystem.loadedTexts, ofFiles, decodedFiles,
    Table.get?_ofPairs, Table.get?_ofPairs, ← List.map_reverse, ← List.map_reverse, List.find?_map,
    List.find?_map, Option.map_map, Option.map_map, Option.map_map]
  -- both look for the last file with this path
  refine Option.map_congr fun file hfile => ?_
  have htrue := List.find?_some hfile
  have hpath : file.1 = path := of_decide_eq_true htrue
  rw [← hpath]
  rfl

/-- At a path that is read the text is that of the bytes. -/
theorem text_ofBytes {includeUnrecognized : Bool} (h : isRead includeUnrecognized path = true) :
    (ofBytes includeUnrecognized files).text path = (ofFiles (decodedFiles files)).text path := by
  rw [text, text, content?_ofBytes]
  simp only [h, if_true, Option.map_id']

/-- Analyzing what was loaded is analyzing all files with all their contents. -/
theorem analyze_ofBytes (files : List (String × List UInt8)) (settings : AnalysisSettings) :
    (ofBytes settings.includeUnrecognized files).analyze settings =
      (ofFiles (decodedFiles files)).analyze settings :=
  analyze_congr_of_analyzed (tree_ofBytes _ files) fun _ hpath =>
    text_ofBytes (isRead_of_mem_analyzed hpath)

end Snapshot

/-! ## Loading a directory -/

namespace FileSystem

theorem snapshot_eq_ofBytes {system : FileSystem} {walk : Walk} {root : String} {directory : Place}
    {files : List (String × List UInt8)} (hdirectory : system.directoryAt? root = some directory)
    (hfinds : system.Finds directory (walk system root) files) (includeUnrecognized : Bool) :
    system.snapshot walk root includeUnrecognized = .ok (.ofBytes includeUnrecognized files) := by
  have hloaded : system.loadFiles walk root includeUnrecognized =
      .ok (loadedTexts includeUnrecognized files) := by
    rw [loadFiles, hdirectory]
    exact hfinds.loadVisits includeUnrecognized
  exact snapshot_of_loadFiles hloaded

/-- **Nothing is lost by what is not read.** Whatever files are given, the analysis of what is
loaded of them is that of the same files with every content read: the tree, the files and the
warnings are the same. So it is for every directory whose files a walk finds: its snapshot can be
loaded, it has the tree and the paths of all these files, each with its text if it is read and with
an empty one otherwise, and its analysis is that of all their texts. Without ignore files, these are
all the files that are not hidden. -/
theorem analyze_snapshot_eq (system : FileSystem) (root : String) (settings : AnalysisSettings) :
    (∀ files : List (String × List UInt8),
      (Snapshot.ofBytes settings.includeUnrecognized files).analyze settings =
        (Snapshot.ofFiles (decodedFiles files)).analyze settings) ∧
    (∀ walk directory files, system.directoryAt? root = some directory →
      system.Finds directory (walk system root) files →
      ∃ snapshot, system.snapshot walk root settings.includeUnrecognized = .ok snapshot ∧
        let full := Snapshot.ofFiles (decodedFiles files)
        snapshot.tree = full.tree ∧
        (∀ path, snapshot.content? path = (full.content? path).map fun text =>
          if isRead settings.includeUnrecognized path then text else "") ∧
        snapshot.analyze settings = full.analyze settings) ∧
    (∀ directory, system.directoryAt? root = some directory →
      (∀ names, isHidden names = false → directory ++ names ∉ system.unreadable) →
      system.Finds directory (Walk.plain system root) (system.visibleFiles root)) := by
  refine ⟨fun files => Snapshot.analyze_ofBytes files settings,
    fun walk directory files hdirectory hfinds => ?_,
    fun directory hdirectory hreadable => finds_visibleFiles hdirectory hreadable⟩
  refine ⟨_, snapshot_eq_ofBytes hdirectory hfinds _, ?_, ?_, ?_⟩
  · exact Snapshot.tree_ofBytes _ _
  · exact Snapshot.content?_ofBytes _ _
  · exact Snapshot.analyze_ofBytes _ settings

/-- A directory with a script, a note that is no text and begins as a script would, and a hidden
script that cannot be read. -/
def withUnreadNote : FileSystem where
  entries :=
    [(["repo"], .directory),
     (["repo", ".cache.js"], .file (Utf8.encode "import './lib/a.js';")),
     (["repo", "NOTES"], .file (Utf8.encode "import './lib/a.js';" ++ [0xFF])),
     (["repo", "lib"], .directory),
     (["repo", "lib", "a.js"], .file (Utf8.encode "import '../NOTES';"))]
  workingDirectory := []
  unreadable := [["repo", ".cache.js"]]

theorem analyze_snapshot_eq_withUnreadNote :
    withUnreadNote.directoryAt? "repo" = some ["repo"] ∧
      withUnreadNote.Finds ["repo"] (Walk.plain withUnreadNote "repo")
        (withUnreadNote.visibleFiles "repo") ∧
      ∃ snapshot, withUnreadNote.snapshot .plain "repo" false = .ok snapshot ∧
        snapshot.content? "NOTES" = some "" ∧
        (Snapshot.ofFiles (decodedFiles (withUnreadNote.visibleFiles "repo"))).content? "NOTES" =
          some "import './lib/a.js';�" ∧
        snapshot.analyze {} =
          (Snapshot.ofFiles (decodedFiles (withUnreadNote.visibleFiles "repo"))).analyze {} := by
  have hroot : withUnreadNote.directoryAt? "repo" = some ["repo"] := by decide +kernel
  have hreadable : ∀ names, isHidden names = false →
      ["repo"] ++ names ∉ withUnreadNote.unreadable := by
    intro names hshown hmem
    cases List.mem_singleton.mp hmem
    revert hshown
    decide
  have hfinds := (analyze_snapshot_eq withUnreadNote "repo" {}).2.2 ["repo"] hroot hreadable
  have hfull :
      (Snapshot.ofFiles (decodedFiles (withUnreadNote.visibleFiles "repo"))).content? "NOTES" =
      some "import './lib/a.js';�" := by decide +kernel
  obtain ⟨snapshot, hsnapshot, -, hcontent, hanalysis⟩ :=
    (analyze_snapshot_eq withUnreadNote "repo" {}).2.1 .plain ["repo"] _ hroot hfinds
  refine ⟨hroot, hfinds, snapshot, hsnapshot, ?_, hfull, hanalysis⟩
  rw [hcontent, hfull]
  decide +kernel

end FileSystem

end ImportChart
