import ImportChart.Document

/-!
# Records in documents

A record is written as a table with an entry for each field, or as a list with the fields in order.
A field that is left out is given to the reader as missing, and the reader decides whether it has a
default. Entries of other names are passed over.

A variant without data is written as its name, or as a table with its name and null.
-/

namespace ImportChart.Document

/-- The first entry of a name. -/
def lookup? (name : String) : List (String × Document) → Option Document
  | [] => none
  | (own, value) :: rest => if own = name then some value else lookup? name rest

/-- The fields of a record in the order of their names, each with its value if it has one. -/
def fields? (names : List String) : Document → Option (List (Option Document))
  | table entries => some (names.map fun name => lookup? name entries)
  | list items =>
    if items.length ≤ names.length then
      some (items.map some ++ List.replicate (names.length - items.length) none)
    else none
  | _ => none

/-- The name of a variant without data. -/
def variant? : Document → Option String
  | text name => some name
  | table [(name, null)] => some name
  | _ => none

def text? : Document → Option String
  | text value => some value
  | _ => none

def flag? : Document → Option Bool
  | flag value => some value
  | _ => none

/-- A natural number of at most sixty-four bits. -/
def natural? : Document → Option Nat
  | integer value => if 0 ≤ value ∧ value < Int.pow 2 64 then some value.toNat else none
  | _ => none

/-- A signed number of at most sixty-four bits. -/
def signed? : Document → Option Int
  | integer value => if -Int.pow 2 63 ≤ value ∧ value < Int.pow 2 63 then some value else none
  | _ => none

/-- Null as none, and anything else as its own value. -/
def nullable? (read : Document → Option α) : Document → Option (Option α)
  | null => some none
  | document => (read document).map some

/-- The items of a list, each read. -/
def list? (read : Document → Option α) : Document → Option (List α)
  | list items => items.mapM read
  | _ => none

/-- Pairs of a name and a value, each a list of two. -/
def pairs? (read : Document → Option α) : Document → Option (List (String × α)) :=
  list? fun
    | list [text name, value] => (read value).map fun value => (name, value)
    | _ => none

/-- A field that has a default. -/
def field? (default : α) (read : Document → Option α) : Option Document → Option α
  | none => some default
  | some document => read document

/-- A field that must be there. -/
def required? (read : Document → Option α) : Option Document → Option α
  | none => none
  | some document => read document

end ImportChart.Document
