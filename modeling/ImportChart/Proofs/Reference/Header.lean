import ImportChart.Proofs.Language.Comment
import ImportChart.Proofs.Reference.Passage

/-!
# Comments before a text

A header of comments, each with a line end behind it, changes nothing about the references of the
text that follows but their places (`Language.extract_header`).

A scan knows the text before a place only by its position and by the interpolations around it. What
it reads there depends on less than the position: on the statements that may start, which two states
may agree on while the offset and the line differ (`State.Alike`). Alike states read the same and
lead to alike states (`Passes.of_alike`), so the scan of a text goes in the same way from both, and
its tokens are moved by the difference of the positions (`locate_movedBy`). A header leads from the
start of a text to a state like the start.
-/

namespace ImportChart

/-- A reference that stands further on by a number of bytes and of lines. -/
def Reference.movedBy (bytes lines : Nat) (reference : Reference) : Reference :=
  { reference with
    span := { start := reference.span.start + bytes, stop := reference.span.stop + bytes }
    line := reference.line + lines }

namespace Scan

variable {profile : Profile} {state other final : State} {input left rest : List Char}
  {lexemes : List Lexeme}

/-! ## States that scan alike -/

/-- The same statements may start at two states, and the same interpolations are around them. -/
structure State.Alike (state other : State) : Prop where
  interpolations : state.interpolations = other.interpolations
  admits : ∀ anchor : Anchor, anchor.admits state.position = anchor.admits other.position

/-- What may start behind a text depends only on what may start before it. -/
theorem admits_afterText {position other : Position}
    (h : ∀ anchor : Anchor, anchor.admits position = anchor.admits other)
    (text : List Char) (anchor : Anchor) :
    anchor.admits (position.afterText text) = anchor.admits (other.afterText text) := by
  induction text generalizing position other with
  | nil => exact h anchor
  | cons c cs ih =>
    have hblank : position.blankLine = other.blankLine := h .lineStart
    refine ih fun anchor => ?_
    cases anchor with
    | word => rfl
    | lineStart => simp only [Anchor.admits, Position.after, hblank]

namespace State.Alike

theorem advance (h : Alike state other) (profile : Profile) (c : Char) (rest : List Char) :
    Scan.advance profile state c rest = Scan.advance profile other c rest := by
  have hstatement : readStatement profile.rules state.position (c :: rest) =
      readStatement profile.rules other.position (c :: rest) := by
    simp only [readStatement, h.admits]
  rw [Scan.advance, Scan.advance, hstatement, h.interpolations]

theorem after (h : Alike state other) (read : Advance) :
    Alike (state.after read) (other.after read) :=
  ⟨rfl, admits_afterText h.admits read.text⟩

end State.Alike

/-- A scan goes the same way from a state that is alike. -/
theorem Passes.of_alike (h : Passes profile state input lexemes final left)
    (halike : state.Alike other) :
    ∃ otherFinal, Passes profile other input lexemes otherFinal left := by
  induction h generalizing other with
  | done => exact ⟨other, .done⟩
  | @step state final c rest left read lexemes hread _ ih =>
    have hother : Scan.advance profile other c rest = read :=
      (halike.advance profile c rest).symm.trans hread
    obtain ⟨otherFinal, hrest⟩ := ih (halike.after read)
    exact ⟨otherFinal, .step hother hrest⟩

/-- Every scan passes to the end of its text. -/
theorem exists_passes (language : Language) (state : State) (input : List Char) :
    ∃ lexemes final, Passes language.profile state input lexemes final [] := by
  induction hlength : input.length using Nat.strongRecOn generalizing state input with
  | ind length ih =>
    cases input with
    | nil => exact ⟨[], state, .done⟩
    | cons c rest =>
      have hlt := rest_length_lt language state c rest
      rw [hlength] at hlt
      obtain ⟨lexemes, final, hpasses⟩ := ih _ hlt (state.after _) _ rfl
      exact ⟨_, final, .step rfl hpasses⟩

/-- The same lexemes further on hold the same references further on. -/
theorem locate_movedBy {position other : Position} {bytes lines : Nat}
    (hoffset : other.offset = position.offset + bytes) (hline : other.line = position.line + lines)
    (lexemes : List Lexeme) :
    locate other lexemes = (locate position lexemes).map (Reference.movedBy bytes lines) := by
  induction lexemes generalizing position other with
  | nil => rfl
  | cons lexeme lexemes ih =>
    have hrest : locate (other.afterText lexeme.text) lexemes =
        (locate (position.afterText lexeme.text) lexemes).map (Reference.movedBy bytes lines) := by
      apply ih
      · rw [Position.offset_afterText, Position.offset_afterText]
        omega
      · rw [Position.line_afterText, Position.line_afterText]
        omega
    cases lexeme with
    | plain c => exact hrest
    | token text =>
      rw [locate, locate, List.map_cons, Reference.movedBy, hoffset, hline,
        Nat.add_right_comm position.offset bytes]
      exact congrArg _ hrest

end Scan

/-! ## Headers -/

section

variable {language : Language}

/-- Comments, each with a line end behind it. -/
def headerText (header : List (Comment language)) : List Char :=
  header.flatMap fun comment => comment.text ++ ['\n']

theorem Comment.collects (comment : Comment language) {state : Scan.State} (rest : List Char) :
    Scan.Collects language.profile state (comment.text ++ ['\n']) [] state.interpolations rest := by
  obtain ⟨c, text, htext⟩ := List.exists_cons_of_ne_nil comment.text_ne_nil
  have hread := comment.reads (endsLine_newline rest)
  rw [htext] at hread ⊢
  exact (Scan.Collects.of_hidden hread).append .of_lineEnd

theorem collects_header (header : List (Comment language)) (state : Scan.State) (rest : List Char) :
    Scan.Collects language.profile state (headerText header) [] state.interpolations rest := by
  induction header generalizing state with
  | nil => exact .nil state rest
  | cons comment more ih => exact (comment.collects (headerText more ++ rest)).append (ih _)

/-- Any statement may start at the start of a text. -/
theorem Position.admits_start (anchor : Anchor) : anchor.admits .start = true := by
  cases anchor with
  | word => rfl
  | lineStart => rfl

/-- Any statement may start behind a header if it may before. -/
theorem admits_header (header : List (Comment language)) {position : Position}
    (h : ∀ anchor : Anchor, anchor.admits position = true) (anchor : Anchor) :
    anchor.admits (position.afterText (headerText header)) = true := by
  induction header generalizing position with
  | nil => exact h anchor
  | cons comment more ih =>
    rw [headerText, List.flatMap_cons, Position.afterText_append]
    refine ih fun anchor => ?_
    cases anchor with
    | word => exact Anchor.admits_word rfl (by decide)
    | lineStart => exact Anchor.admits_lineStart_concat position comment.text

/-- **A header of comments moves the references of a text**, by its own bytes and lines, and changes
nothing else: no comment gives a reference, and none of the text's is lost or read otherwise. -/
theorem Language.extract_header (header : List (Comment language)) (text : String) :
    language.extract (String.ofList (headerText header) ++ text) =
      (language.extract text).map
        (Reference.movedBy (byteSize (headerText header)) ((headerText header).count '\n')) := by
  obtain ⟨lexemes, final, hpasses⟩ := Scan.exists_passes language .start text.toList
  obtain ⟨headerLexemes, hheader, hnone⟩ := collects_header header .start text.toList
  have halike : Scan.State.Alike .start ⟨Position.start.afterText (headerText header), []⟩ := by
    refine ⟨rfl, fun anchor => ?_⟩
    rw [admits_header header Position.admits_start]
    exact Position.admits_start anchor
  -- the scan behind the header is the scan of the text alone, from a state like its start
  obtain ⟨_, hrest⟩ := hpasses.of_alike halike
  have hread : textOf headerLexemes = headerText header :=
    List.append_cancel_right hheader.textOf_append
  have hlocate : Scan.locate .start (headerLexemes ++ lexemes) =
      (Scan.locate .start lexemes).map
        (Reference.movedBy (byteSize (headerText header)) ((headerText header).count '\n')) := by
    rw [Scan.locate_append, Scan.locate_eq_nil hnone, List.nil_append, hread]
    exact Scan.locate_movedBy (Position.offset_afterText _ _) (Position.line_afterText _ _) lexemes
  calc language.extract (String.ofList (headerText header) ++ text)
      = language.extract (String.ofList (headerText header ++ text.toList)) := by
        rw [String.ofList_append, String.ofList_toList]
    _ = firstsBy Reference.token (Scan.locate .start (headerLexemes ++ lexemes)) :=
        extract_of_passes (hheader.trans hrest)
    _ = (firstsBy Reference.token (Scan.locate .start lexemes)).map
          (Reference.movedBy (byteSize (headerText header)) ((headerText header).count '\n')) := by
        rw [hlocate]
        exact (map_firstsBy_comp Reference.token (Reference.movedBy _ _) _).symm
    _ = _ := by
        rw [← extract_of_passes hpasses, String.ofList_toList]

end

end ImportChart
