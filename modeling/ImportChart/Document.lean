/-!
# Documents

A document is plain data: the values that JSON and TOML texts are written for. `Document.toJson`
writes a document as indented JSON text.

A table is a list of named entries. Of entries with the same name the first counts; the readers and
writers of this library make no other kind of table than one with distinct names.
-/

namespace ImportChart

/-- Plain data. -/
inductive Document where
  | null
  | flag (value : Bool)
  | integer (value : Int)
  /-- A number not written as an integer, as it was written. -/
  | decimal (literal : String)
  | text (value : String)
  | list (items : List Document)
  | table (entries : List (String × Document))

namespace Document

instance : Inhabited Document := ⟨.null⟩

/-- A hexadecimal digit. -/
def hexDigit (n : Nat) : Char :=
  if n < 10 then Char.ofNat ('0'.toNat + n) else Char.ofNat ('a'.toNat + (n - 10))

/-- A character inside of a JSON string. -/
def escaped (c : Char) : List Char :=
  if c = '\x22' then ['\\', '\x22']
  else if c = '\\' then ['\\', '\\']
  else if c = '\n' then ['\\', 'n']
  else if c = '\r' then ['\\', 'r']
  else if c = '\t' then ['\\', 't']
  else if c = '\x08' then ['\\', 'b']
  else if c = '\x0c' then ['\\', 'f']
  else if c.toNat < 0x20 then
    ['\\', 'u', '0', '0', hexDigit (c.toNat / 16), hexDigit (c.toNat % 16)]
  else [c]

/-- A JSON string. -/
def jsonString (text : String) : String :=
  "\"" ++ String.ofList (text.toList.flatMap escaped) ++ "\""

/-- A line break and the indentation of a level, two spaces for each. -/
def lineAt (level : Nat) : String :=
  "\n" ++ String.ofList (List.replicate (2 * level) ' ')

/-- Items of a list or a table at a level, between its brackets. -/
def bracketed (opening closing : String) (level : Nat) (items : List String) : String :=
  match items with
  | [] => opening ++ closing
  | _ =>
    opening ++ ",".intercalate (items.map (lineAt (level + 1) ++ ·)) ++ lineAt level ++ closing

mutual
/-- A document as JSON at a level of indentation. -/
def toJsonAt (level : Nat) : Document → String
  | null => "null"
  | flag value => if value then "true" else "false"
  | integer value => toString value
  | decimal literal => literal
  | text value => jsonString value
  | list items => bracketed "[" "]" level (itemsToJson (level + 1) items)
  | table entries => bracketed "\x7b" "\x7d" level (entriesToJson (level + 1) entries)
/-- The items of a list. -/
def itemsToJson (level : Nat) : List Document → List String
  | [] => []
  | item :: rest => toJsonAt level item :: itemsToJson level rest
/-- The entries of a table. -/
def entriesToJson (level : Nat) : List (String × Document) → List String
  | [] => []
  | (name, value) :: rest =>
    (jsonString name ++ ": " ++ toJsonAt level value) :: entriesToJson level rest
end

/-- A document as JSON text, indented by two spaces. -/
def toJson (document : Document) : String :=
  document.toJsonAt 0

end Document

end ImportChart
