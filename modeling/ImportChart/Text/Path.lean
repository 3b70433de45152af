/-!
# Slash-separated paths

A path is a text whose segments are separated by slashes. Paths are relative to the root of the
tree whose files they name. `Path.segments` and `Path.ofSegments` undo each other on segments
without a slash (`Path.segments_ofSegments`).
-/

namespace ImportChart

/-- Whether a text starts with another. -/
def startsWith (opening text : String) : Bool :=
  opening.toList.isPrefixOf text.toList

/-- Whether a text ends with another. -/
def endsWith (ending text : String) : Bool :=
  ending.toList.isSuffixOf text.toList

/-- Whether a text occurs in another, as lists of characters. -/
def occursIn (part : List Char) : List Char → Bool
  | [] => part.isEmpty
  | c :: cs => part.isPrefixOf (c :: cs) || occursIn part cs

theorem occursIn_iff {part text : List Char} : occursIn part text = true ↔ part <:+: text := by
  induction text with
  | nil => rw [occursIn, List.isEmpty_iff, List.infix_nil]
  | cons c cs ih =>
    rw [occursIn, Bool.or_eq_true, List.isPrefixOf_iff_prefix, ih, List.infix_cons_iff]

namespace Path

/-- The segments of a path, empty ones included. -/
def segments (path : String) : List String :=
  (path.toList.splitOn '/').map String.ofList

/-- The segments that are not empty. -/
def namedSegments (path : String) : List String :=
  (segments path).filter (· ≠ "")

/-- The path with the given segments. -/
def ofSegments (parts : List String) : String :=
  "/".intercalate parts

/-- The last segment. -/
def fileName (path : String) : String :=
  (segments path).getLast?.getD path

/-- The segments before the last slash that are not empty. -/
def directory (path : String) : List String :=
  (segments path).dropLast.filter (· ≠ "")

/-- The number of slashes. -/
def depth (path : String) : Nat :=
  path.toList.count '/'

/-- A path has at least one segment. -/
theorem segments_ne_nil (path : String) : segments path ≠ [] := by
  simp [segments, List.splitOn_ne_nil]

/-- A path made of segments without a slash has those segments. -/
theorem segments_ofSegments {parts : List String} (h : ∀ s ∈ parts, '/' ∉ s.toList)
    (hne : parts ≠ []) :
    segments (ofSegments parts) = parts := by
  unfold segments ofSegments
  rw [String.toList_intercalate, show "/".toList = ['/'] from rfl,
    List.splitOn_intercalate '/' (by simpa using h) (by simpa using hne), List.map_map]
  simp [Function.comp_def]

end Path

end ImportChart
