import ImportChart.Document
import ImportChart.Ordered.Distinct
import ImportChart.Reference

/-!
# Summary of the dependencies

A summary lists every dependency of a set of files once, with the files that use it, most used
first. Dependencies go by what they lead to, and by their token when they lead nowhere. A use is
counted for every record, so a file that names a target in two ways uses it twice.
-/

namespace ImportChart

/-- A dependency and its uses. -/
structure Usage where
  name : String
  /-- The origin of the first record of the name. -/
  origin : Origin
  /-- The path of the file of each record, in order. -/
  usedIn : List String
  deriving DecidableEq, Repr

/-- The dependencies of a set of files. -/
structure Summary where
  totalFiles : Nat
  /-- The number of records. -/
  totalImports : Nat
  /-- Most used first; the order of first records among equals. -/
  usages : List Usage
  deriving DecidableEq, Repr

/-- The name a dependency goes by. -/
def Dependency.summaryName (dependency : Dependency) : String :=
  dependency.target?.getD dependency.token

namespace Summary

/-- The dependencies of files, each with the path of its file. -/
def records (files : List ResolvedFile) : List (String × Dependency) :=
  files.flatMap fun file => file.dependencies.map fun dependency => (file.path, dependency)

/-- The uses of each name, in the order of the first records. -/
def usagesOf (records : List (String × Dependency)) : List Usage :=
  (firstsBy (fun record => record.2.summaryName) records).map fun first =>
    { name := first.2.summaryName
      origin := first.2.origin
      usedIn :=
        (records.filter fun record => record.2.summaryName = first.2.summaryName).map Prod.fst }

/-- The summary of files. -/
def ofFiles (files : List ResolvedFile) : Summary :=
  let records := records files
  { totalFiles := files.length
    totalImports := records.length
    usages := (usagesOf records).mergeSort fun a b => decide (b.usedIn.length ≤ a.usedIn.length) }

/-- The number of dependencies. -/
def totalDependencies (summary : Summary) : Nat :=
  summary.usages.length

/-- The number of dependencies of an origin. -/
def countOf (summary : Summary) (origin : Origin) : Nat :=
  summary.usages.countP fun usage => usage.origin = origin

/-- A summary as a document. -/
def toDocument (summary : Summary) : Document :=
  .table
    [("total_files", .integer summary.totalFiles),
     ("total_dependencies", .integer summary.totalDependencies),
     ("total_imports", .integer summary.totalImports),
     ("by_class", .table
        [("internal", .integer (summary.countOf .internal)),
         ("external", .integer (summary.countOf .external)),
         ("builtin", .integer (summary.countOf .builtin))]),
     ("dependencies", .list (summary.usages.map fun usage =>
        .table
          [("name", .text usage.name), ("class", .text usage.origin.name),
           ("used_in", .list (usage.usedIn.map .text))]))]

end Summary

end ImportChart
