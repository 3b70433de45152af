import ImportChart.Document
import ImportChart.Ordered.Distinct
import ImportChart.Ordered.Table
import ImportChart.Reference

/-!
# Listing a graph

A listing names every file and every package once, and gives each the targets of its dependencies.
The files come first, in order; targets that are no such file follow in the order in which they are
met. A listing keeps its nodes and its lists of targets under the same names.
-/

namespace ImportChart

/-- What a name in a listing stands for. -/
inductive ListingKind where
  | file
  | external
  | builtin
  deriving DecidableEq, Repr

/-- The name of a kind in documents. -/
def ListingKind.name : ListingKind → String
  | .file => "file"
  | .external => "external"
  | .builtin => "builtin"

/-- The kind of what a dependency of an origin leads to. -/
def ListingKind.ofOrigin : Origin → ListingKind
  | .internal => .file
  | .external => .external
  | .builtin => .builtin

/-- Names with their kinds, and the targets under each name. -/
structure Listing where
  nodes : List (String × ListingKind)
  targets : Table String (List String)
  deriving DecidableEq, Repr

namespace Listing

/-- No names. -/
def empty : Listing := { nodes := [], targets := [] }

/-- A listing with a name. A name that is there keeps its kind. -/
def addNode (listing : Listing) (name : String) (kind : ListingKind) : Listing :=
  if name ∈ listing.targets.keys then listing
  else { nodes := listing.nodes ++ [(name, kind)], targets := listing.targets ++ [(name, [])] }

/-- A listing with more targets under a name, if it has the name. -/
def addTargets (listing : Listing) (name : String) (more : List String) : Listing :=
  { listing with
    targets := listing.targets.map fun entry =>
      if entry.1 = name then (entry.1, entry.2 ++ more) else entry }

/-- A listing with a name for what a dependency leads to, if it leads anywhere. -/
def addTarget (listing : Listing) (dependency : Dependency) : Listing :=
  match dependency.target? with
  | none => listing
  | some target => listing.addNode target (.ofOrigin dependency.origin)

/-- A listing with the targets of a file, each once. -/
def addFile (listing : Listing) (file : ResolvedFile) : Listing :=
  (file.dependencies.foldl addTarget listing).addTargets file.path
    (firsts (file.dependencies.filterMap Dependency.target?))

/-- The listing of files. -/
def ofFiles (files : List ResolvedFile) : Listing :=
  files.foldl addFile (files.foldl (fun listing file => listing.addNode file.path .file) empty)

/-- A listing as a document. -/
def toDocument (listing : Listing) : Document :=
  .table
    [("nodes", .list (listing.nodes.map fun node =>
        .table [("name", .text node.1), ("type", .text node.2.name)])),
     ("dependencies", .table (listing.targets.map fun entry =>
        (entry.1, .list (entry.2.map .text))))]

end Listing

end ImportChart
