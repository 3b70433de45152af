import ImportChart.Document.Record
import ImportChart.Tree

/-!
# Trees as documents

How dependencies and nodes are written into documents and read from them. A dependency is written
without its span, so a dependency read has the empty span; its path is left out when it has none. A
file's dependencies are left out when it is not annotated, and an empty list is written as such.

A node is written with its `kind`, under its name; a directory may also be called `dir`, and the
kinds may be numbered. Only the entry that belongs to the kind is read.
-/

namespace ImportChart

/-- The origin of a name in a document. -/
def Origin.ofDocument? (document : Document) : Option Origin :=
  match document.variant? with
  | some "internal" => some .internal
  | some "external" => some .external
  | some "builtin" => some .builtin
  | _ => none

/-- The language of a name in a document. -/
def Language.ofDocument? (document : Document) : Option Language :=
  match document.variant? with
  | some name => Language.all.find? (·.name = name)
  | none => none

/-- A dependency as a document. -/
def Dependency.toDocument (dependency : Dependency) : Document :=
  .table ([("token", .text dependency.token), ("class", .text dependency.origin.name),
      ("line", .integer dependency.line)] ++
    match dependency.targetPath with
    | some path => [("target_path", .text path)]
    | none => [])

/-- The dependency of a document, without a place in a text. -/
def Dependency.ofDocument? (document : Document) : Option Dependency :=
  match document.fields? ["token", "class", "line", "target_path"] with
  | some [token, origin, line, path] =>
    (Document.required? Document.text? token).bind fun token =>
    (Document.required? Origin.ofDocument? origin).bind fun origin =>
    (Document.field? 0 Document.natural? line).bind fun line =>
    (Document.field? none (Document.nullable? Document.text?) path).map fun path =>
      { token, span := ⟨0, 0⟩, line, origin, targetPath := path }
  | _ => none

/-- The kind of node that a document names. -/
inductive NodeKind where
  | file
  | directory
  deriving DecidableEq, Repr

/-- The kind of a name or a number. -/
def NodeKind.ofDocument? : Document → Option NodeKind
  | .text "file" | .integer 0 => some .file
  | .text "directory" | .text "dir" | .integer 1 => some .directory
  | _ => none

mutual
/-- A node as a document. -/
def Node.toDocument : Node → Document
  | .file name path dependencies =>
    .table ([("name", .text name), ("path", .text path), ("kind", .text "file")] ++
      match dependencies with
      | some dependencies => [("dependencies", .list (dependencies.map Dependency.toDocument))]
      | none => [])
  | .directory name path children =>
    .table [("name", .text name), ("path", .text path), ("kind", .text "directory"),
      ("children", .list (Tree.toDocuments children))]
/-- The nodes of a tree as documents. -/
def Tree.toDocuments : Tree → List Document
  | [] => []
  | node :: rest => node.toDocument :: Tree.toDocuments rest
end

/-- The dependencies of a file, among the entries of its document. -/
def fileDependencies? (entries : List (String × Document)) : Option (Option (List Dependency)) :=
  Document.field? none (Document.nullable? (Document.list? Dependency.ofDocument?))
    (Document.lookup? "dependencies" entries)

mutual
/-- The node of a document. -/
def Node.ofDocument? : Document → Option Node
  | .table entries =>
    (Document.required? Document.text? (Document.lookup? "name" entries)).bind fun name =>
    (Document.required? Document.text? (Document.lookup? "path" entries)).bind fun path =>
      match Document.required? NodeKind.ofDocument? (Document.lookup? "kind" entries) with
      | none => none
      | some .file =>
        (fileDependencies? entries).map fun dependencies => .file name path dependencies
      | some .directory => (childrenOf? entries).map fun children => .directory name path children
  | _ => none
/-- The nodes of a list of documents. -/
def Tree.ofDocuments? : List Document → Option Tree
  | [] => some []
  | document :: rest =>
    match Node.ofDocument? document, Tree.ofDocuments? rest with
    | some node, some nodes => some (node :: nodes)
    | _, _ => none
/-- The children of a directory, among the entries of its document; none if it names none. -/
def childrenOf? : List (String × Document) → Option Tree
  | [] => some []
  | (name, value) :: rest =>
    if name = "children" then
      match value with
      | .list documents => Tree.ofDocuments? documents
      | _ => none
    else childrenOf? rest
end

/-- The tree of a document, a list of nodes. -/
def Tree.ofDocument? : Document → Option Tree
  | .list documents => Tree.ofDocuments? documents
  | _ => none

/-- A tree as a document. -/
def Tree.toDocument (tree : Tree) : Document :=
  .list (Tree.toDocuments tree)

end ImportChart
