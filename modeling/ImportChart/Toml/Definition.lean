import ImportChart.Document
import ImportChart.Ordered.Table

/-!
# Definitions of a TOML text

A TOML text is a list of statements: headers, which open a table, and entries, whose dotted keys
start from the table that is open. A header may also add a table to a list of tables; a key that
leads on from such a list leads on from its last table. `Toml.assemble` puts the statements together
as one document and refuses a text that defines something twice.

A table comes about in one of three ways (`TableKind`). A header may open a table that other headers
only passed through. A dotted key may lead through any table without a header of its own, but its
value goes into a table that dotted keys made, or into the open table itself.
-/

namespace ImportChart.Toml

/-- One statement. -/
inductive Statement where
  | header (path : List String)
  /-- The header of one more table in a list of tables. -/
  | elementHeader (path : List String)
  | entry (path : List String) (value : Document)

/-- How a table came about. -/
inductive TableKind where
  /-- It has a header. -/
  | headed
  /-- It lies on the way to a table with a header. -/
  | implied
  /-- It lies on the way of a dotted key. -/
  | dotted
  deriving DecidableEq, Repr

/-- What has been defined under a name. -/
inductive Definition where
  | value (document : Document)
  | table (kind : TableKind) (entries : List (String × Definition))
  /-- A list of tables: those before the last, and the entries of the last. -/
  | tables (earlier : List Definition) (entries : List (String × Definition))

/-- The definitions of one table. -/
abbrev Entries := Table String Definition

/-- Opens what the last name of a path stands for, by `opened` from what is defined there, in a
table that headers lead to. -/
def openAt (opened : Option Definition → Option Definition) : List String → Entries → Option Entries
  | [], _ => none
  | [name], entries => (opened (entries.get? name)).map (entries.enter name)
  | name :: rest, entries =>
    match entries.get? name with
    | none => (openAt opened rest []).map fun below => entries.enter name (.table .implied below)
    | some (.table kind below) =>
      (openAt opened rest below).map fun below => entries.enter name (.table kind below)
    | some (.tables earlier below) =>
      (openAt opened rest below).map fun below => entries.enter name (.tables earlier below)
    | some (.value _) => none

/-- A table opened by its header, if it may have one. -/
def openedTable : Option Definition → Option Definition
  | none => some (.table .headed [])
  | some (.table .implied entries) => some (.table .headed entries)
  | some _ => none

/-- A list of tables with one more table in it. -/
def openedElement : Option Definition → Option Definition
  | none => some (.tables [] [])
  | some (.tables earlier entries) => some (.tables (earlier ++ [.table .headed entries]) [])
  | some _ => none

/-- Enters a value at a dotted key. -/
def enterValue (value : Document) : List String → Entries → Option Entries
  | [], _ => none
  | [name], entries =>
    match entries.get? name with
    | none => some (entries.enter name (.value value))
    | some _ => none
  | name :: rest, entries =>
    match entries.get? name with
    | none => (enterValue value rest []).map fun below => entries.enter name (.table .dotted below)
    | some (.table kind below) =>
      if kind = .dotted ∨ (kind = .implied ∧ 1 < rest.length) then
        (enterValue value rest below).map fun below => entries.enter name (.table kind below)
      else none
    | some (.tables earlier below) =>
      if 1 < rest.length then
        (enterValue value rest below).map fun below => entries.enter name (.tables earlier below)
      else none
    | some (.value _) => none

/-- Changes the entries of the open table, given by the path of its header. -/
def within (change : Entries → Option Entries) : List String → Entries → Option Entries
  | [], entries => change entries
  | name :: rest, entries =>
    match entries.get? name with
    | some (.table kind below) =>
      (within change rest below).map fun below => entries.enter name (.table kind below)
    | some (.tables earlier below) =>
      (within change rest below).map fun below => entries.enter name (.tables earlier below)
    | _ => none

mutual
/-- What was defined, as a document. -/
def Definition.toDocument : Definition → Document
  | .value document => document
  | .table _ entries => .table (entriesToDocument entries)
  | .tables earlier entries =>
    .list (definitionsToDocument earlier ++ [.table (entriesToDocument entries)])
/-- A list of definitions, as documents. -/
def definitionsToDocument : List Definition → List Document
  | [] => []
  | definition :: rest => definition.toDocument :: definitionsToDocument rest
/-- The entries of a table, as those of a document. -/
def entriesToDocument : List (String × Definition) → List (String × Document)
  | [] => []
  | (name, definition) :: rest => (name, definition.toDocument) :: entriesToDocument rest
end

/-- The statements read so far: the path of the open table, and all that is defined. -/
structure Assembly where
  openPath : List String
  entries : Entries

/-- Adds a statement. -/
def Assembly.add (assembly : Assembly) : Statement → Option Assembly
  | .header path => (openAt openedTable path assembly.entries).map fun entries => ⟨path, entries⟩
  | .elementHeader path =>
    (openAt openedElement path assembly.entries).map fun entries => ⟨path, entries⟩
  | .entry path value =>
    (within (enterValue value path) assembly.openPath assembly.entries).map fun entries =>
      { assembly with entries }

/-- The document that statements define. -/
def assemble (statements : List Statement) : Option Document :=
  (statements.foldlM Assembly.add ⟨[], []⟩).map fun assembly =>
    .table (entriesToDocument assembly.entries)

/-- The table that entries define within braces. -/
def assembleInline (entries : List (List String × Document)) : Option Document :=
  (entries.foldlM (fun table entry => enterValue entry.2 entry.1 table) ([] : Entries)).map
    fun table => .table (entriesToDocument table)

end ImportChart.Toml
