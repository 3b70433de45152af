import ImportChart.Proofs.Language.Lexical
import ImportChart.Proofs.Reference.Placement

/-!
# Scanning part of a text

`Scan.Passes` relates two places of one scan: the state and the text ahead at the first, the same at
the second, and what is read in between. It is a sequence of steps of the scan, and sequences are
put together where one ends as the other begins. A scan that passes to the end of a text has read
the text (`Scan.Passes.walk`).

`Scan.Collects` keeps the tokens of what is read and names the text read, so that a scan of a text
composed of parts is composed in the same way. Each part comes with the rest of the text, since a
step may look beyond what it reads. Three kinds of step are collected here: a statement, by the rule
that reads it, text that hides statements, and a character of code with the template text behind it.
In every language blanks and line ends are code that starts nothing (`Scan.Collects.of_gap`).
-/

namespace ImportChart

/-- Whether hidden text or a statement may start with a character. -/
def Profile.starts (profile : Profile) (c : Char) : Bool :=
  profile.hidden.starts c || profile.rules.any fun rule => rule.statement.starts c

/-- Nothing starts with a blank or a line end, in any language. -/
theorem Language.starts_of_isGap (language : Language) {c : Char} (h : isGap c = true) :
    language.profile.starts c = false := by
  refine eq_false_of_isGap language.profile.starts h ?_
  cases language with
  | javascript => decide
  | python => decide
  | cpp => decide
  | java => decide
  | go => decide

theorem Language.refuses_hidden (language : Language) {c : Char}
    (hs : language.profile.hidden.starts c = false) (rest : List Char) :
    language.profile.hidden.Refuses (c :: rest) :=
  Pattern.refuses_of_starts (Bool.and_eq_true_iff.mp language.patterns_productive.1).1 hs

theorem Language.refuses_statement (language : Language) {rule : Rule}
    (hrule : rule ∈ language.profile.rules) {c : Char} (hs : rule.statement.starts c = false)
    (rest : List Char) :
    rule.statement.Refuses (c :: rest) :=
  Pattern.refuses_of_starts
    (Bool.and_eq_true_iff.mp (language.patterns_productive.2 rule hrule)).1 hs

/-! ## Rules -/

/-- A rule without a lead reads its keyword and what its tail reads. -/
theorem Rule.reads {rule : Rule} {text rest : List Char} {tokens : List (List Char)}
    (hlead : rule.lead = .nothing) (h : rule.tail.Reads text tokens rest) :
    rule.statement.Reads (rule.keyword.toList ++ text) tokens rest := by
  rw [statement, hlead]
  have hkeyword := (Pattern.reads_nothing _).seq (Pattern.reads_keyword rule.keyword (text ++ rest))
  exact hkeyword.seq h

/-- A rule is refused where its lead reads nothing and its keyword and tail are refused. -/
theorem Rule.refuses {rule : Rule} {input : List Char} (hlead : rule.lead.Reads [] [] input)
    (h : (Pattern.keyword rule.keyword ++ rule.tail).Refuses input) :
    rule.statement.Refuses input :=
  Pattern.refuses_seq_assoc.mp (hlead.seq_refuses h)

/-- A statement may start behind a text that ends in no word character. -/
theorem Anchor.admits_word {position : Position} {text before : List Char} {c : Char}
    (htext : text = before ++ [c]) (hc : isWordChar c = false) :
    Anchor.word.admits (position.afterText text) = true := by
  rw [htext, Position.afterText_append, Position.afterText_cons, Position.afterText_nil]
  simp only [admits, Position.after, Option.all_some, hc, Bool.not_false]

/-- A statement may start at the start of a line behind blanks. -/
theorem Anchor.admits_lineStart {position : Position} {text : List Char}
    (h : Anchor.lineStart.admits position = true) (htext : ∀ c ∈ text, isBlank c = true) :
    Anchor.lineStart.admits (position.afterText text) = true := by
  induction text generalizing position with
  | nil => exact h
  | cons c cs ih =>
    have hc := htext c List.mem_cons_self
    have hafter : Anchor.lineStart.admits (position.after c) = true := by
      simp only [admits] at h
      simp [admits, Position.after, Position.blankAfter, h, hc]
    exact ih hafter fun d hd => htext d (List.mem_cons_of_mem c hd)

/-- No statement starts a line that something stands on already. -/
theorem Anchor.lineStart_eq_false {position : Position} {text : List Char}
    (h : Anchor.lineStart.admits position = false) (htext : '\n' ∉ text) :
    Anchor.lineStart.admits (position.afterText text) = false := by
  induction text generalizing position with
  | nil => exact h
  | cons c cs ih =>
    rw [List.mem_cons, not_or] at htext
    have hafter : Anchor.lineStart.admits (position.after c) = false := by
      simp only [admits] at h
      simp [admits, Position.after, Position.blankAfter, h, Ne.symm htext.1]
    exact ih hafter htext.2

theorem Anchor.lineStart_cons_eq_false (position : Position) {c : Char} {text : List Char}
    (hc : isBlank c = false) (htext : '\n' ∉ c :: text) :
    Anchor.lineStart.admits (position.afterText (c :: text)) = false := by
  rw [List.mem_cons, not_or] at htext
  have hafter : Anchor.lineStart.admits (position.after c) = false := by
    simp [admits, Position.after, Position.blankAfter, hc, Ne.symm htext.1]
  rw [Position.afterText_cons]
  exact lineStart_eq_false hafter htext.2

theorem Anchor.admits_lineStart_concat (position : Position) (text : List Char) :
    Anchor.lineStart.admits (position.afterText (text ++ ['\n'])) = true := by
  rw [Position.afterText_append, Position.afterText_cons, Position.afterText_nil]
  rfl

namespace Scan

/-- A scan passes from a state, with a text ahead of it, to a later state with what is left of the
text, and reads lexemes in between. -/
inductive Passes (profile : Profile) :
    State → List Char → List Lexeme → State → List Char → Prop where
  | done {state : State} {input : List Char} : Passes profile state input [] state input
  | step {state final : State} {c : Char} {rest left : List Char} {read : Advance}
      {lexemes : List Lexeme} :
      advance profile state c rest = read →
      Passes profile (state.after read) read.rest lexemes final left →
      Passes profile state (c :: rest) (read.lexemes ++ lexemes) final left

variable {profile : Profile} {state middle final : State} {input left rest text more : List Char}
  {lexemes others : List Lexeme} {tokens otherTokens : List (List Char)}
  {interpolations inner : List Nat}

theorem Passes.trans (first : Passes profile state input lexemes middle left)
    (second : Passes profile middle left others final rest) :
    Passes profile state input (lexemes ++ others) final rest := by
  induction first with
  | done => exact second
  | step hread _ ih =>
    rw [List.append_assoc]
    exact .step hread (ih second)

/-- What a scan reads on its way is the text between the two places. -/
theorem Passes.textOf_append (h : Passes profile state input lexemes final left) :
    textOf lexemes ++ left = input := by
  induction h with
  | done => rfl
  | @step state final c rest left read lexemes hread _ ih =>
    have hadvance := text_advance profile state c rest
    rw [hread] at hadvance
    rw [ImportChart.textOf_append, List.append_assoc, ih]
    exact hadvance

/-- A scan that passes to the end of a text reads these lexemes and ends in this state. -/
theorem Passes.walk {language : Language} (h : Passes language.profile state input lexemes final [])
    {limit : Nat} (hlimit : input.length ≤ limit) :
    lexemesOfStops (walk language.profile limit state input) = lexemes ∧
      finalState (Scan.walk language.profile limit state input) state = final := by
  generalize hleft : ([] : List Char) = left at h
  induction h generalizing limit with
  | done =>
    subst hleft
    cases limit with
    | zero => exact ⟨rfl, rfl⟩
    | succ limit => exact ⟨rfl, rfl⟩
  | @step state final c rest left read lexemes hread _ ih =>
    have hlt := rest_length_lt language state c rest
    rw [hread] at hlt
    cases limit with
    | zero => exact absurd hlimit (Nat.not_succ_le_zero _)
    | succ limit =>
      rw [List.length_cons] at hlimit hlt
      obtain ⟨hlexemes, hfinal⟩ := @ih limit (by omega) hleft
      rw [Scan.walk, hread]
      refine ⟨?_, hfinal⟩
      rw [lexemesOfStops_cons, hlexemes]

/-- Part of a scan: from a state and over a text, where a rest follows, it reads the given tokens
and ends with the given interpolations around it. -/
def Collects (profile : Profile) (state : State) (text : List Char) (tokens : List (List Char))
    (interpolations : List Nat) (rest : List Char) : Prop :=
  ∃ lexemes,
    Passes profile state (text ++ rest) lexemes
      ⟨state.position.afterText text, interpolations⟩ rest ∧
    tokensOf lexemes = tokens

namespace Collects

theorem nil (state : State) (rest : List Char) :
    Collects profile state [] [] state.interpolations rest :=
  ⟨[], .done, rfl⟩

theorem append (first : Collects profile state text tokens inner (more ++ rest))
    (second : Collects profile ⟨state.position.afterText text, inner⟩ more otherTokens
      interpolations rest) :
    Collects profile state (text ++ more) (tokens ++ otherTokens) interpolations rest := by
  obtain ⟨lexemes, hfirst, rfl⟩ := first
  obtain ⟨others, hsecond, rfl⟩ := second
  refine ⟨lexemes ++ others, ?_, tokensOf_append lexemes others⟩
  have hpasses := hfirst.trans hsecond
  rw [← Position.afterText_append] at hpasses
  rw [List.append_assoc]
  exact hpasses

theorem of_advance {c : Char}
    (hread : advance profile state c (text ++ rest) = ⟨lexemes, rest, interpolations⟩)
    (htokens : tokensOf lexemes = tokens) :
    Collects profile state (c :: text) tokens interpolations rest := by
  have hsplit : textOf lexemes ++ rest = (c :: text) ++ rest := by
    rw [List.cons_append, ← text_advance profile state c (text ++ rest), hread]
    rfl
  have htext : textOf lexemes = c :: text := List.append_cancel_right hsplit
  -- the position after the step is known from the text read, however it was cut into lexemes
  have hdone : Passes profile (state.after ⟨lexemes, rest, interpolations⟩) rest []
      ⟨state.position.afterText (c :: text), interpolations⟩ rest := by
    rw [State.after, Advance.text, htext]
    exact .done
  have hstep := Passes.step hread hdone
  rw [List.append_nil] at hstep
  exact ⟨lexemes, hstep, htokens⟩

end Collects

/-! ## Which rule reads a statement -/

variable {rules : List Rule} {position : Position}

theorem readStatement_eq_none
    (h : ∀ rule ∈ rules, rule.anchor.admits position = true → rule.statement.Refuses input) :
    readStatement rules position input = none := by
  refine List.findSome?_eq_none_iff.mpr fun rule hrule => ?_
  split
  · next hadmits => exact h rule hrule hadmits
  · rfl

/-- The first rule that may start there and matches reads the statement. -/
theorem exists_readStatement {before after : List Rule} {rule : Rule}
    (hrules : rules = before ++ rule :: after)
    (hbefore : ∀ other ∈ before, other.statement.Refuses (text ++ rest))
    (hanchor : rule.anchor.admits position = true) (h : rule.statement.Reads text tokens rest) :
    ∃ lexemes, readStatement rules position (text ++ rest) = some ⟨lexemes, rest⟩ ∧
      tokensOf lexemes = tokens := by
  obtain ⟨lexemes, hconsume, htokens⟩ := h
  refine ⟨lexemes, ?_, htokens⟩
  have hnone : readStatement before position (text ++ rest) = none :=
    readStatement_eq_none fun other hother _ => hbefore other hother
  rw [readStatement] at hnone ⊢
  rw [hrules, List.findSome?_append, hnone, Option.none_or, List.findSome?_cons, if_pos hanchor,
    hconsume]

/-- A statement is collected in one step, by the first rule that may start with its first
character. -/
theorem Collects.of_rule {language : Language} {rule : Rule} {c : Char} (before after : List Rule)
    (hrules : language.profile.rules = before ++ rule :: after)
    (hhidden : language.profile.hidden.starts c = false)
    (hbefore : ∀ other ∈ before, other.statement.starts c = false)
    (hadmits : rule.anchor.admits state.position = true)
    (h : rule.statement.Reads (c :: text) tokens rest) :
    Collects language.profile state (c :: text) tokens state.interpolations rest := by
  have hnone := language.refuses_hidden hhidden (text ++ rest)
  have hrefuses : ∀ other ∈ before, other.statement.Refuses (c :: text ++ rest) := by
    intro other hother
    have hmem : other ∈ language.profile.rules := by
      rw [hrules]
      exact List.mem_append_left _ hother
    exact language.refuses_statement hmem (hbefore other hother) (text ++ rest)
  obtain ⟨lexemes, hstatement, htokens⟩ := exists_readStatement hrules hrefuses hadmits h
  rw [Pattern.Refuses] at hnone
  rw [List.cons_append] at hstatement
  have hadvance :
      advance language.profile state c (text ++ rest) = ⟨lexemes, rest, state.interpolations⟩ := by
    simp only [advance, hnone, hstatement]
  exact of_advance hadvance htokens

/-! ## Hidden text -/

/-- Text that hides statements is collected in one step. -/
theorem Collects.of_hidden {c : Char} (h : profile.hidden.Reads (c :: text) tokens rest) :
    Collects profile state (c :: text) tokens state.interpolations rest := by
  obtain ⟨lexemes, hconsume, htokens⟩ := h
  rw [List.cons_append] at hconsume
  have hadvance :
      advance profile state c (text ++ rest) = ⟨lexemes, rest, state.interpolations⟩ := by
    simp only [advance, hconsume]
  exact of_advance hadvance htokens

/-! ## Characters of code -/

/-- A character is code where neither hidden text nor a statement that may start there is read, and
is collected with the template text behind it. -/
theorem Collects.of_refusals {c : Char} (hhidden : profile.hidden.Refuses (c :: (text ++ rest)))
    (hrules : ∀ rule ∈ profile.rules, rule.anchor.admits state.position = true →
      rule.statement.Refuses (c :: (text ++ rest)))
    (hread : readCode profile.templates state.interpolations c (text ++ rest) =
      ⟨lexemes, rest, interpolations⟩)
    (htokens : tokensOf lexemes = tokens) :
    Collects profile state (c :: text) tokens interpolations rest := by
  have hstatement : readStatement profile.rules state.position (c :: (text ++ rest)) = none :=
    readStatement_eq_none hrules
  rw [Pattern.Refuses] at hhidden
  have hadvance : advance profile state c (text ++ rest) = ⟨lexemes, rest, interpolations⟩ := by
    simp only [advance, hhidden, hstatement, hread]
  exact of_advance hadvance htokens

/-- A character with which nothing else starts is code, and is collected with the template text
behind it. -/
theorem Collects.of_code {language : Language} {c : Char} (hs : language.profile.starts c = false)
    (hread : readCode language.profile.templates state.interpolations c (text ++ rest) =
      ⟨lexemes, rest, interpolations⟩) (htokens : tokensOf lexemes = tokens) :
    Collects language.profile state (c :: text) tokens interpolations rest := by
  rw [Profile.starts, Bool.or_eq_false_iff, List.any_eq_false] at hs
  have hnone := language.refuses_hidden hs.1 (text ++ rest)
  refine of_refusals hnone (fun rule hrule _ => ?_) hread htokens
  exact language.refuses_statement hrule (Bool.eq_false_iff.mpr (hs.2 rule hrule)) (text ++ rest)

/-- A character of code opens and closes nothing in a language without templates. -/
theorem readCode_of_not_templates (h : profile.templates = false) (c : Char) (rest : List Char) :
    readCode profile.templates interpolations c rest = ⟨[.plain c], rest, interpolations⟩ := by
  simp [readCode, h]

/-- Only a backtick and the braces may open or close something. -/
theorem readCode_of_not_mem {c : Char} (h : c ∉ [backtick, '{', '}']) (templates : Bool)
    (rest : List Char) :
    readCode templates interpolations c rest = ⟨[.plain c], rest, interpolations⟩ := by
  simp only [List.mem_cons, List.not_mem_nil, or_false, not_or] at h
  simp [readCode, h]

/-- Blanks and line ends are passed over. -/
theorem Collects.of_gap {language : Language} (htext : ∀ c ∈ text, isGap c = true) :
    Collects language.profile state text [] state.interpolations rest := by
  induction text generalizing state with
  | nil => exact nil state rest
  | cons c cs ih =>
    have hc := htext c List.mem_cons_self
    have hcode : c ∉ [backtick, '{', '}'] :=
      of_decide_eq_false (eq_false_of_isGap (fun d => decide (d ∈ [backtick, '{', '}'])) hc rfl)
    have hfirst : Collects language.profile state [c] [] state.interpolations (cs ++ rest) :=
      of_code (language.starts_of_isGap hc) (readCode_of_not_mem hcode _ ([] ++ (cs ++ rest))) rfl
    have hmore := @ih ⟨state.position.afterText [c], state.interpolations⟩ fun d hd =>
      htext d (List.mem_cons_of_mem c hd)
    exact hfirst.append hmore

theorem Collects.of_lineEnd {language : Language} :
    Collects language.profile state ['\n'] [] state.interpolations rest :=
  of_gap (List.all_eq_true.mp rfl)

end Scan

/-! ## The references of a text -/

theorem Scan.map_token_locate (position : Position) (lexemes : List Lexeme) :
    (Scan.locate position lexemes).map Reference.token = (tokensOf lexemes).map String.ofList := by
  induction lexemes generalizing position with
  | nil => rfl
  | cons lexeme rest ih =>
    cases lexeme with
    | plain c => exact ih (position.after c)
    | token text => exact congrArg (String.ofList text :: ·) (ih _)

theorem Scan.locate_eq_nil {lexemes : List Lexeme} (h : tokensOf lexemes = [])
    (position : Position) :
    Scan.locate position lexemes = [] := by
  have htokens := map_token_locate position lexemes
  rw [h, List.map_nil] at htokens
  exact List.map_eq_nil_iff.mp htokens

/-- A scan that passes to the end of a text gives the text the references that it reads, each token
once. -/
theorem Language.extract_of_passes {language : Language} {text : List Char} {lexemes : List Lexeme}
    {final : Scan.State} (h : Scan.Passes language.profile .start text lexemes final []) :
    language.extract (String.ofList text) =
      firstsBy Reference.token (Scan.locate .start lexemes) := by
  obtain ⟨hlexemes, -⟩ := h.walk (Nat.le_refl _)
  rw [extract, mentions, String.toList_ofList, Scan.stops, Scan.stopsFrom, Scan.references_walk,
    hlexemes]
  rfl

/-- A scan that collects tokens from a whole text gives the text these references, each token once,
and ends with the interpolations collected. -/
theorem Language.map_token_extract {language : Language} {text : List Char}
    {tokens : List (List Char)} {interpolations : List Nat}
    (h : Scan.Collects language.profile .start text tokens interpolations []) :
    (language.extract (String.ofList text)).map Reference.token =
      firsts (tokens.map String.ofList) ∧
      (Scan.finalState (Scan.stops language.profile text) .start).interpolations =
        interpolations := by
  obtain ⟨lexemes, hpasses, rfl⟩ := h
  rw [List.append_nil] at hpasses
  constructor
  · rw [extract_of_passes hpasses, map_firstsBy, Scan.map_token_locate]
    rfl
  · rw [Scan.stops, Scan.stopsFrom, (hpasses.walk (Nat.le_refl _)).2]

end ImportChart
