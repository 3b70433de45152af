import ImportChart.Tree.Record

/-!
# Trees survive their documents

The place of a dependency in a text is not written into documents, so a node read from its document
is the node without these places (`Node.withoutSpans`). All else is kept: the kinds, the order of
the children, the fields of each dependency, and the difference between a file without dependencies
and one that is not annotated.

A document is not known by the node that is read from it. A directory may be called `dir`, a record
may be a list of its fields, and entries of other names are passed over. But what is read is a node
of a form that its own document keeps: no dependency has a place, and each line is a machine number
(`Dependency.Plain`). So reading, writing and reading again ends where the first reading did
(`Node.ofDocument?_roundtrip`).
-/

namespace ImportChart

/-- The number of a line is a machine number, as the lines of texts in memory are. -/
def Dependency.LineFits (dependency : Dependency) : Prop :=
  dependency.line < UInt64.size

instance (dependency : Dependency) : Decidable dependency.LineFits :=
  inferInstanceAs (Decidable (_ < _))

/-- A dependency without its place in a text. -/
def Dependency.withoutSpan (dependency : Dependency) : Dependency :=
  { dependency with span := ⟨0, 0⟩ }

/-- A dependency as documents can hold it. -/
structure Dependency.Plain (dependency : Dependency) : Prop where
  withoutSpan_eq : dependency.withoutSpan = dependency
  lineFits : dependency.LineFits

mutual
/-- A node whose dependencies are without their places in texts. -/
def Node.withoutSpans : Node → Node
  | .file name path dependencies =>
    .file name path (dependencies.map fun list => list.map Dependency.withoutSpan)
  | .directory name path children => .directory name path (Tree.withoutSpans children)
/-- A tree whose dependencies are without their places in texts. -/
def Tree.withoutSpans : Tree → Tree
  | [] => []
  | node :: rest => node.withoutSpans :: Tree.withoutSpans rest
end

/-- The dependencies of the files of a tree, in its order. -/
def Tree.allDependencies (tree : Tree) : List Dependency :=
  tree.files.flatMap fun file => file.dependencies?.getD []

/-- The dependencies of the files at and below a node, in the order of the tree. -/
def Node.allDependencies (node : Node) : List Dependency :=
  node.files.flatMap fun file => file.dependencies?.getD []

section Dependencies

variable {name path : String}

@[simp] theorem Node.allDependencies_file (listed : Option (List Dependency)) :
    (Node.file name path listed).allDependencies = listed.getD [] :=
  List.append_nil _

@[simp] theorem Tree.allDependencies_cons (node : Node) (rest : Tree) :
    Tree.allDependencies (node :: rest) = node.allDependencies ++ Tree.allDependencies rest :=
  List.flatMap_append

end Dependencies

/-! ## What is written is read -/

namespace Document

theorem natural?_integer {n : Nat} (h : n < UInt64.size) : natural? (.integer n) = some n := by
  have hrange : (0 : Int) ≤ n ∧ (n : Int) < Int.pow 2 64 :=
    ⟨Int.natCast_nonneg n, Int.ofNat_lt.mpr h⟩
  rw [natural?, if_pos hrange, Int.toNat_natCast]

theorem field?_natural?_integer {n default : Nat} (h : n < UInt64.size) :
    field? default natural? (some (.integer n)) = some n := by
  rw [field?, natural?_integer h]

theorem field?_nullable?_text (value : Option String) :
    field? none (nullable? text?) (value.map text) = some value := by
  cases value with
  | none => rfl
  | some value => rfl

/-- A list of documents is read item by item. -/
theorem list?_map {write : α → Document} {read : Document → Option β}
    {image : α → β} {items : List α} (h : ∀ a ∈ items, read (write a) = some (image a)) :
    list? read (.list (items.map write)) = some (items.map image) := by
  induction items with
  | nil => rfl
  | cons a rest ih =>
    have hrest : (rest.map write).mapM read = some (rest.map image) :=
      ih fun b hb => h b (List.mem_cons_of_mem _ hb)
    rw [list?, List.map_cons, List.mapM_cons, h a List.mem_cons_self, hrest]
    rfl

end Document

theorem Origin.ofDocument?_name (origin : Origin) :
    ofDocument? (.text origin.name) = some origin := by
  cases origin with
  | internal => rfl
  | external => rfl
  | builtin => rfl

namespace Dependency

theorem fields?_toDocument (dependency : Dependency) :
    dependency.toDocument.fields? ["token", "class", "line", "target_path"] =
      some [some (.text dependency.token), some (.text dependency.origin.name),
        some (.integer dependency.line), dependency.targetPath.map .text] := by
  rw [toDocument]
  cases dependency.targetPath with
  | none => rfl
  | some path => rfl

/-- A dependency is read from its document, without its place in a text. -/
theorem ofDocument?_toDocument {dependency : Dependency} (h : dependency.LineFits) :
    ofDocument? dependency.toDocument = some dependency.withoutSpan := by
  have horigin := dependency.origin.ofDocument?_name
  have hline : Document.field? 0 Document.natural? (some (.integer dependency.line)) =
      some dependency.line :=
    Document.field?_natural?_integer h
  have hpath := Document.field?_nullable?_text dependency.targetPath
  rw [ofDocument?, fields?_toDocument]
  simp only [Document.required?, Document.text?, Option.bind_some, horigin, hline, hpath,
    Option.map_some]
  rfl

end Dependency

/-- The dependencies of a file are read from the entry for them. -/
theorem fileDependencies?_toDocument {name path : Document} {dependencies : List Dependency}
    (h : ∀ dependency ∈ dependencies, dependency.LineFits) :
    fileDependencies? [("name", name), ("path", path), ("kind", .text "file"),
        ("dependencies", .list (dependencies.map Dependency.toDocument))] =
      some (some (dependencies.map Dependency.withoutSpan)) := by
  have hlist :
      Document.list? Dependency.ofDocument? (.list (dependencies.map Dependency.toDocument)) =
      some (dependencies.map Dependency.withoutSpan) :=
    Document.list?_map fun dependency hmem => Dependency.ofDocument?_toDocument (h dependency hmem)
  exact congrArg (Option.map some) hlist

mutual
/-- A node is read from its document, without the places of its dependencies. -/
theorem Node.ofDocument?_toDocument :
    (node : Node) → (∀ dependency ∈ node.allDependencies, dependency.LineFits) →
    Node.ofDocument? node.toDocument = some node.withoutSpans
  | .file _ _ none, _ => rfl
  | .file name path (some dependencies), h => by
    rw [Node.allDependencies_file] at h
    exact congrArg (Option.map fun listed => Node.file name path listed)
      (fileDependencies?_toDocument h)
  | .directory name path children, h => by
    have hchildren := Tree.ofDocuments?_toDocuments children h
    exact congrArg (Option.map fun children => Node.directory name path children) hchildren
/-- The nodes of a tree are read from their documents, in order. -/
theorem Tree.ofDocuments?_toDocuments :
    (tree : Tree) → (∀ dependency ∈ tree.allDependencies, dependency.LineFits) →
    Tree.ofDocuments? (Tree.toDocuments tree) = some (Tree.withoutSpans tree)
  | [], _ => rfl
  | node :: rest, h => by
    rw [Tree.allDependencies_cons] at h
    have hnode :=
      node.ofDocument?_toDocument fun dependency hmem => h dependency (List.mem_append_left _ hmem)
    have hrest := Tree.ofDocuments?_toDocuments rest fun dependency hmem =>
      h dependency (List.mem_append_right _ hmem)
    rw [Tree.toDocuments, Tree.ofDocuments?, hnode, hrest, Tree.withoutSpans]
end

/-! ## What is read can be written -/

namespace Document

theorem lt_of_natural? {document : Document} {n : Nat} (h : natural? document = some n) :
    n < UInt64.size := by
  rw [natural?.eq_def] at h
  split at h
  · split at h
    · next hrange =>
      cases h
      have hlt : _ < (UInt64.size : Int) := hrange.2
      omega
    · cases h
  · cases h

/-- What is read from a list is read from its items. -/
theorem forall_mem_of_list? {read : Document → Option α} {p : α → Prop}
    (hread : ∀ {item a}, read item = some a → p a) {document : Document} {as : List α}
    (h : list? read document = some as) : ∀ a ∈ as, p a := by
  rw [list?.eq_def] at h
  split at h
  · next items =>
    induction items generalizing as with
    | nil =>
      cases h
      exact fun a hmem => absurd hmem List.not_mem_nil
    | cons item rest ih =>
      rw [List.mapM_cons] at h
      obtain ⟨a, ha, h⟩ := Option.bind_eq_some_iff.mp h
      obtain ⟨rest, hrest, h⟩ := Option.bind_eq_some_iff.mp h
      cases h
      exact List.forall_mem_cons.mpr ⟨hread ha, ih hrest⟩
  · cases h

end Document

/-- A dependency that was read is plain. -/
theorem Dependency.plain_of_ofDocument? {document : Document} {dependency : Dependency}
    (h : ofDocument? document = some dependency) : dependency.Plain := by
  rw [ofDocument?] at h
  split at h
  · next line _ _ =>
    obtain ⟨token, -, h⟩ := Option.bind_eq_some_iff.mp h
    obtain ⟨origin, -, h⟩ := Option.bind_eq_some_iff.mp h
    obtain ⟨number, hline, h⟩ := Option.bind_eq_some_iff.mp h
    obtain ⟨path, -, rfl⟩ := Option.map_eq_some_iff.mp h
    refine ⟨rfl, ?_⟩
    show number < UInt64.size
    cases line with
    | none =>
      cases hline
      decide
    | some document => exact Document.lt_of_natural? hline
  · cases h

/-- The dependencies that were read for a file are plain. -/
theorem plain_of_fileDependencies? {entries : List (String × Document)}
    {listed : Option (List Dependency)} (h : fileDependencies? entries = some listed) :
    ∀ dependency ∈ listed.getD [], dependency.Plain := by
  rw [fileDependencies?] at h
  cases hentry : Document.lookup? "dependencies" entries with
  | none =>
    rw [hentry] at h
    cases h
    exact fun dependency hmem => absurd hmem List.not_mem_nil
  | some document =>
    rw [hentry, Document.field?, Document.nullable?.eq_def] at h
    split at h
    · cases h
      exact fun dependency hmem => absurd hmem List.not_mem_nil
    · obtain ⟨dependencies, hlist, rfl⟩ := Option.map_eq_some_iff.mp h
      exact Document.forall_mem_of_list? Dependency.plain_of_ofDocument? hlist

mutual
/-- The dependencies of a node that was read are plain. -/
theorem Node.plain_of_ofDocument? :
    (document : Document) → {node : Node} → Node.ofDocument? document = some node →
    ∀ dependency ∈ node.allDependencies, dependency.Plain
  | .table entries, node, h => by
    rw [Node.ofDocument?] at h
    obtain ⟨name, -, h⟩ := Option.bind_eq_some_iff.mp h
    obtain ⟨path, -, h⟩ := Option.bind_eq_some_iff.mp h
    split at h
    · cases h
    · obtain ⟨listed, hlisted, rfl⟩ := Option.map_eq_some_iff.mp h
      rw [Node.allDependencies_file]
      exact plain_of_fileDependencies? hlisted
    · obtain ⟨children, hchildren, rfl⟩ := Option.map_eq_some_iff.mp h
      exact Tree.plain_of_childrenOf? entries hchildren
  | .null, _, h | .flag _, _, h | .integer _, _, h | .decimal _, _, h | .text _, _,
      h | .list _, _, h => nomatch h
/-- The dependencies of the nodes that were read from a list of documents are plain. -/
theorem Tree.plain_of_ofDocuments? : (documents : List Document) → {tree : Tree} →
    Tree.ofDocuments? documents = some tree → ∀ dependency ∈ tree.allDependencies, dependency.Plain
  | [], tree, h => by
    cases h
    exact fun dependency hmem => absurd hmem List.not_mem_nil
  | document :: rest, tree, h => by
    rw [Tree.ofDocuments?] at h
    split at h
    · next node nodes hnode hnodes =>
      cases h
      rw [Tree.allDependencies_cons]
      exact List.forall_mem_append.mpr
        ⟨Node.plain_of_ofDocument? document hnode, Tree.plain_of_ofDocuments? rest hnodes⟩
    · cases h
/-- The dependencies of the children that the entries of a document name are plain. -/
theorem Tree.plain_of_childrenOf? : (entries : List (String × Document)) → {children : Tree} →
    childrenOf? entries = some children → ∀ dependency ∈ children.allDependencies, dependency.Plain
  | [], children, h => by
    cases h
    exact fun dependency hmem => absurd hmem List.not_mem_nil
  | (name, value) :: rest, children, h => by
    unfold childrenOf? at h
    split at h
    · split at h
      · next documents => exact Tree.plain_of_ofDocuments? documents h
      · cases h
    · exact Tree.plain_of_childrenOf? rest h
end

mutual
/-- A node whose dependencies are plain has no places of dependencies to lose. -/
theorem Node.withoutSpans_of_plain :
    (node : Node) → (∀ dependency ∈ node.allDependencies, dependency.Plain) →
    node.withoutSpans = node
  | .file _ _ none, _ => rfl
  | .file name path (some dependencies), h => by
    rw [Node.allDependencies_file] at h
    have hmap : dependencies.map Dependency.withoutSpan = dependencies :=
      (List.map_congr_left fun dependency hmem => (h dependency hmem).withoutSpan_eq).trans
        (List.map_id' _)
    exact congrArg (fun list => Node.file name path (some list)) hmap
  | .directory name path children, h =>
    congrArg (Node.directory name path) (Tree.withoutSpans_of_plain children h)
/-- A tree whose dependencies are plain has no places of dependencies to lose. -/
theorem Tree.withoutSpans_of_plain :
    (tree : Tree) → (∀ dependency ∈ tree.allDependencies, dependency.Plain) →
    Tree.withoutSpans tree = tree
  | [], _ => rfl
  | node :: rest, h => by
    rw [Tree.allDependencies_cons] at h
    obtain ⟨hnode, hrest⟩ := List.forall_mem_append.mp h
    rw [Tree.withoutSpans, node.withoutSpans_of_plain hnode, Tree.withoutSpans_of_plain rest hrest]
end

/-! ## There and back -/

/-- **A node survives its document.** A node of any depth, annotated or not, whose lines are machine
numbers is read from its document as it is, only that its dependencies have lost their places in
texts. A node read from any document is read again from the document written for it. -/
theorem Node.ofDocument?_roundtrip :
    (∀ node : Node, (∀ dependency ∈ node.allDependencies, dependency.LineFits) →
      Node.ofDocument? node.toDocument = some node.withoutSpans) ∧
    ∀ (document : Document) (node : Node), Node.ofDocument? document = some node →
      Node.ofDocument? node.toDocument = some node := by
  refine ⟨Node.ofDocument?_toDocument, fun document node h => ?_⟩
  have hplain := Node.plain_of_ofDocument? document h
  rw [node.ofDocument?_toDocument fun dependency hmem => (hplain dependency hmem).lineFits,
    node.withoutSpans_of_plain hplain]

/-- A directory with a file and its dependencies, a deeper file without any, and a file that is not
annotated. -/
def mixedDirectory : Node :=
  .directory "src" "src"
    [.file "a.js" "src/a.js" (some
      [{ token := "./b", span := ⟨8, 11⟩, line := 1, origin := .internal,
         targetPath := some "src/b.js" },
       { token := "./none", span := ⟨22, 28⟩, line := 2, origin := .internal, targetPath := none },
       { token := "fs", span := ⟨39, 41⟩, line := 3, origin := .builtin, targetPath := none }]),
     .directory "lib" "src/lib" [.file "c.js" "src/lib/c.js" (some [])],
     .file "b.js" "src/b.js" none]

/-- A directory in another form than that in which it is written: under its other name, with its
entries in another order and one too many, and with a dependency as a list of its fields. -/
def looseDirectory : Document :=
  .table [("kind", .text "dir"), ("note", .null), ("path", .text "src"), ("name", .text "src"),
    ("children", .list [.table [("dependencies", .list [.list [.text "./b", .text "internal"]]),
      ("kind", .text "file"), ("path", .text "src/a.js"), ("name", .text "a.js")]])]

theorem Node.ofDocument?_roundtrip_mixedDirectory :
    let read := Node.directory "src" "src" [.file "a.js" "src/a.js" (some
      [{ token := "./b", span := ⟨0, 0⟩, line := 0, origin := .internal, targetPath := none }])]
    (∀ dependency ∈ mixedDirectory.allDependencies, dependency.LineFits) ∧
      Node.ofDocument? mixedDirectory.toDocument = some mixedDirectory.withoutSpans ∧
      Node.ofDocument? looseDirectory = some read ∧ Node.ofDocument?
        read.toDocument = some read := by
  intro read
  have hfits : ∀ dependency ∈ mixedDirectory.allDependencies, dependency.LineFits := by decide
  have hread : Node.ofDocument? looseDirectory = some read := rfl
  obtain ⟨hwritten, hagain⟩ := Node.ofDocument?_roundtrip
  exact ⟨hfits, hwritten _ hfits, hread, hagain _ _ hread⟩

end ImportChart
