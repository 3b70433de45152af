import ImportChart.Proofs.Text.LastPart
import ImportChart.Reference.Scan.Laws

/-!
# Looking back from a stop

Where a statement may start depends on the text before it, but a scan does not look back: it carries
a position along and moves it over whatever it reads at once, a comment of several lines as well as
a single character. This module says what the position is in terms of the text: its lines are
counted there, its last character is the last one there, and its line is blank exactly if only
blanks stand behind the last line feed (`Position.LooksBackOn`). A position moved over a text looks
back on it, by induction from the end of the text, and so does one moved over any pieces of it.

A stop of a scan therefore looks back on the text read before it, and a statement may start there
exactly if looking back allows it (`Scan.looksBackOn_stops`).
-/

namespace ImportChart

/-! ## Positions -/

/-- A position agrees with what is seen when looking back on the text before it. -/
structure Position.LooksBackOn (position : Position) (before : List Char) : Prop where
  offset : position.offset = byteSize before
  /-- One line, and one more for each line feed. -/
  line : position.line = 1 + before.count '\n'
  last : position.last = before.getLast?
  /-- Only blanks stand behind the last line feed, or behind the start of the text. -/
  blankLine : position.blankLine = true ↔ ∀ c ∈ behindLast '\n' before, c = ' ' ∨ c = '\t'

theorem isBlank_iff {c : Char} : isBlank c = true ↔ c = ' ' ∨ c = '\t' := by
  rw [isBlank, decide_eq_true_eq]

namespace Position

theorem afterText_concat (position : Position) (text : List Char) (c : Char) :
    position.afterText (text ++ [c]) = (position.afterText text).after c := by
  rw [afterText_append, afterText_cons, afterText_nil]

theorem last_afterText_start (text : List Char) : (start.afterText text).last = text.getLast? := by
  induction text using List.reverseRecOn with
  | nil => rfl
  | append_singleton text c => rw [afterText_concat, List.getLast?_concat, after]

/-- A line feed starts a blank line, and any other character leaves it blank if it is one itself. -/
theorem blankLine_afterText_start (text : List Char) :
    (start.afterText text).blankLine = true ↔ ∀ c ∈ behindLast '\n' text, c = ' ' ∨ c = '\t' := by
  induction text using List.reverseRecOn with
  | nil => simp [start, behindLast]
  | append_singleton text c ih =>
    rw [afterText_concat, behindLast_concat, after, blankAfter]
    split
    · simp
    · rw [Bool.and_eq_true, ih, isBlank_iff, List.forall_mem_append, List.forall_mem_singleton,
        and_comm]

/-- A position moved over a text from the start looks back on the text. -/
theorem looksBackOn_afterText (text : List Char) : (start.afterText text).LooksBackOn text where
  offset := by rw [offset_afterText, start, Nat.zero_add]
  line := line_afterText start text
  last := last_afterText_start text
  blankLine := blankLine_afterText_start text

/-- Moving over pieces one by one is moving over the text that they make. -/
theorem foldl_afterText (position : Position) (pieces : List (List Char)) :
    pieces.foldl afterText position = position.afterText pieces.flatten := by
  induction pieces generalizing position with
  | nil => rfl
  | cons piece pieces ih => rw [List.foldl_cons, ih, List.flatten_cons, afterText_append]

end Position

/-! ## Anchors -/

/-- Whether a statement so anchored may start behind a text, seen by looking back. -/
def Anchor.AdmitsBehind (before : List Char) : Anchor → Prop
  | .word => ∀ c ∈ before.getLast?, ¬ (isAlphanumeric c = true ∨ c = '_' ∨ c = '$' ∨ c = '.')
  | .lineStart => ∀ c ∈ behindLast '\n' before, c = ' ' ∨ c = '\t'

theorem isWordChar_iff {c : Char} :
    isWordChar c = true ↔ isAlphanumeric c = true ∨ c = '_' ∨ c = '$' ∨ c = '.' := by
  simp only [isWordChar, isIdentifierChar, Bool.or_eq_true, decide_eq_true_eq, or_assoc]

theorem Position.LooksBackOn.admits_iff {position : Position} {before : List Char}
    (h : position.LooksBackOn before) (anchor : Anchor) :
    anchor.admits position = true ↔ anchor.AdmitsBehind before := by
  cases anchor with
  | word =>
    rw [Anchor.admits, Anchor.AdmitsBehind, h.last, Option.all_eq_true]
    refine forall₂_congr fun c _ => ?_
    rw [Bool.not_eq_true', ← Bool.not_eq_true, isWordChar_iff]
  | lineStart => exact h.blankLine

/-! ## Stops -/

/-- **A stop looks back on the text before it.** However a text is cut into pieces, the position
moved over them one by one agrees with what is seen when looking back on the text. So does the
position of every stop of a scan, with the text read at the stops before, and a rule may start there
exactly if looking back allows it. -/
theorem Scan.looksBackOn_stops (language : Language) (text : String) :
    (∀ pieces : List (List Char),
      (pieces.foldl Position.afterText .start).LooksBackOn pieces.flatten) ∧
      ∀ earlier stop later, stops language.profile text.toList = earlier ++ stop :: later →
        text.toList = textOfStops earlier ++ textOfStops (stop :: later) ∧
          stop.state.position.LooksBackOn (textOfStops earlier) ∧
          ∀ rule ∈ language.profile.rules, rule.anchor.admits stop.state.position = true ↔
            rule.anchor.AdmitsBehind (textOfStops earlier) := by
  constructor
  · intro pieces
    rw [Position.foldl_afterText]
    exact Position.looksBackOn_afterText pieces.flatten
  · intro earlier stop later hstops
    have htext := text_stops language text.toList
    rw [hstops, textOfStops, List.flatMap_append] at htext
    have hbehind : stop.state.position.LooksBackOn (textOfStops earlier) := by
      rw [position_of_mem_stops language.profile text.toList hstops]
      exact Position.looksBackOn_afterText (textOfStops earlier)
    exact ⟨htext.symm, hbehind, fun rule _ => hbehind.admits_iff rule.anchor⟩

/-- An import in Java behind a comment that ends on its line. -/
def importBehindComment : String :=
  "/*\n*/ import a.B;"

/-- Where the scan stands when it comes to the import. It reads no statement there. -/
def importBehindCommentStop : Scan.Stop where
  state :=
    { position := { offset := 6, line := 2, last := some ' ', blankLine := false },
      interpolations := [] }
  read := { lexemes := [.plain 'i'], rest := "mport a.B;".toList, interpolations := [] }

/-- The comment was read at once. Its second line is the line of the import, and it is not blank. -/
theorem Scan.looksBackOn_stops_importBehindComment : ∃ earlier later,
    Scan.stops Language.java.profile importBehindComment.toList =
      earlier ++ importBehindCommentStop :: later ∧
      importBehindCommentStop.state.position.LooksBackOn "/*\n*/ ".toList ∧
      ¬ Anchor.lineStart.AdmitsBehind "/*\n*/ ".toList ∧
      Anchor.word.AdmitsBehind "/*\n*/ ".toList := by
  have hstops : Scan.stops Language.java.profile importBehindComment.toList =
      (Scan.stops Language.java.profile importBehindComment.toList).take 2 ++
        importBehindCommentStop ::
          (Scan.stops Language.java.profile importBehindComment.toList).drop 3 := by
    decide +kernel
  have hbefore :
      textOfStops ((Scan.stops Language.java.profile importBehindComment.toList).take 2) =
      "/*\n*/ ".toList := by
    decide +kernel
  obtain ⟨-, hbehind, -⟩ := (looksBackOn_stops .java importBehindComment).2 _ _ _ hstops
  rw [hbefore] at hbehind
  refine ⟨_, _, hstops, hbehind, ?_, ?_⟩
  · rw [← hbehind.admits_iff]
    decide
  · rw [← hbehind.admits_iff]
    decide

end ImportChart
