import ImportChart.Proofs.Reference.Passage

/-!
# Scanning line by line

A scan counts lines as it goes, and a statement may stand on several of them. `Scan.Finds` is what
`Scan.Collects` is, with the line of each token beside it. The lines come for free where a part of
the text stays on one line (`Scan.Finds.of_collects`): whatever is collected there stands on the
line of the state before it. Parts are put together as they are for tokens alone, and a scan that
finds tokens on lines in a whole text gives the text these references
(`Language.map_lined_extract`).
-/

namespace ImportChart

/-- The token of a reference and its line. -/
def Reference.lined (reference : Reference) : String × Nat :=
  (reference.token, reference.line)

namespace Scan

variable {profile : Profile} {state : State} {text more rest : List Char}
  {tokens : List (List Char)} {found others : List (String × Nat)} {interpolations inner : List Nat}

theorem line_of_mem_locate {position : Position} {lexemes : List Lexeme} {reference : Reference}
    (h : reference ∈ locate position lexemes) (hline : '\n' ∉ textOf lexemes) :
    reference.line = position.line := by
  induction lexemes generalizing position with
  | nil => cases h
  | cons lexeme lexemes ih =>
    rw [textOf_cons, List.mem_append, not_or] at hline
    obtain ⟨hfirst, hmore⟩ := hline
    have hafter : (position.afterText lexeme.text).line = position.line := by
      rw [Position.line_afterText, List.count_eq_zero_of_not_mem hfirst, Nat.add_zero]
    rw [← hafter]
    cases lexeme with
    | plain c => exact ih h hmore
    | token token =>
      rcases List.mem_cons.mp h with rfl | h
      · exact hafter.symm
      · exact ih h hmore

/-- Part of a scan: from a state and over a text, where a rest follows, it reads the given tokens,
each on the given line, and ends with the given interpolations around it. -/
def Finds (profile : Profile) (state : State) (text : List Char) (found : List (String × Nat))
    (interpolations : List Nat) (rest : List Char) : Prop :=
  ∃ lexemes,
    Passes profile state (text ++ rest) lexemes
      ⟨state.position.afterText text, interpolations⟩ rest ∧
    (locate state.position lexemes).map Reference.lined = found

namespace Finds

theorem append (first : Finds profile state text found inner (more ++ rest))
    (second : Finds profile ⟨state.position.afterText text, inner⟩ more others interpolations
      rest) :
    Finds profile state (text ++ more) (found ++ others) interpolations rest := by
  obtain ⟨lexemes, hfirst, rfl⟩ := first
  obtain ⟨otherLexemes, hsecond, rfl⟩ := second
  have htext : textOf lexemes = text := List.append_cancel_right hfirst.textOf_append
  have hpasses := hfirst.trans hsecond
  rw [← Position.afterText_append] at hpasses
  refine ⟨lexemes ++ otherLexemes, ?_, ?_⟩
  · rw [List.append_assoc]
    exact hpasses
  · rw [locate_append, List.map_append, htext]

/-- What is collected on one line is found on the line of the state before it. -/
theorem of_collects (h : Collects profile state text tokens interpolations rest)
    (hline : '\n' ∉ text) :
    Finds profile state text (tokens.map fun token => (String.ofList token, state.position.line))
      interpolations rest := by
  obtain ⟨lexemes, hpasses, rfl⟩ := h
  have htext : textOf lexemes = text := List.append_cancel_right hpasses.textOf_append
  rw [← htext] at hline
  refine ⟨lexemes, hpasses, ?_⟩
  calc (locate state.position lexemes).map Reference.lined
      = (locate state.position lexemes).map fun reference =>
        (reference.token, state.position.line) := by
        refine List.map_congr_left fun reference hmem => ?_
        rw [Reference.lined, line_of_mem_locate hmem hline]
    _ = (tokensOf lexemes).map fun token => (String.ofList token, state.position.line) := by
        have htokens := congrArg (List.map fun token => (token, state.position.line))
          (map_token_locate state.position lexemes)
        rw [List.map_map, List.map_map] at htokens
        exact htokens

theorem of_collects_nil (h : Collects profile state text [] interpolations rest) :
    Finds profile state text [] interpolations rest := by
  obtain ⟨lexemes, hpasses, hnone⟩ := h
  refine ⟨lexemes, hpasses, ?_⟩
  rw [locate_eq_nil hnone]
  rfl

end Finds

end Scan

/-- A scan that finds tokens on lines in a whole text gives the text these references, each token on
the line where it first occurs. -/
theorem Language.map_lined_extract {language : Language} {text : List Char}
    {found : List (String × Nat)} {interpolations : List Nat}
    (h : Scan.Finds language.profile .start text found interpolations []) :
    (language.extract (String.ofList text)).map Reference.lined = firstsBy Prod.fst found := by
  obtain ⟨lexemes, hpasses, rfl⟩ := h
  rw [List.append_nil] at hpasses
  rw [extract_of_passes hpasses]
  exact map_firstsBy_comp Prod.fst Reference.lined (Scan.locate .start lexemes)

end ImportChart
