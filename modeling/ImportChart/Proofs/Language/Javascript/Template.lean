import ImportChart.Proofs.Language.Javascript.Step

/-!
# Templates in JavaScript

Code and template text contain each other: a template stands in code, and an interpolation of a
template holds code. `Code` and `Template` are the two kinds of text, each with the proof that its
characters are of its kind.

A scan keeps a count of open braces for each interpolation around it. Code leaves the counts as they
were, since each brace that it opens it also closes; template text, which starts where a backtick
opens a template or a brace ends an interpolation, leaves the counts around the template. Both hold
from every state, by one induction over the two kinds of text (`Code.collects`,
`Template.collects`). So a whole text of code gives the tokens of its calls and ends outside of
every interpolation (`Code.extract`).
-/

namespace ImportChart.Javascript

open Pattern Scan

/-! ## Texts -/

/-- A character of a template, or a character that a backslash takes with it. -/
inductive TemplateChar where
  | plain (c : Char) (h : c ∉ [backtick, '$', '\\'])
  | escaped (c : Char)

def TemplateChar.text : TemplateChar → List Char
  | .plain c _ => [c]
  | .escaped c => ['\\', c]

def chunkText (chunk : List TemplateChar) : List Char :=
  chunk.flatMap TemplateChar.text

/-- The characters that stand between the parts of code. -/
def separators : List Char :=
  [' ', '\t', '\n', ';', ',', '+', '=']

mutual

/-- Code made of separators, calls of `require`, brace groups and templates. -/
inductive Code where
  | nil
  | separator (c : Char) (h : c ∈ separators) (rest : Code)
  | braces (inner rest : Code)
  | require (call : Call) (rest : Code)
  | template (template : Template) (rest : Code)

/-- Template text up to the backtick that ends the template, interpolations included. -/
inductive Template where
  | ends (chunk : List TemplateChar)
  | interpolation (chunk : List TemplateChar) (code : Code) (more : Template)

end

mutual

def Code.text : Code → List Char
  | .nil => []
  | .separator c _ rest => [c] ++ rest.text
  | .braces inner rest => ['{'] ++ inner.text ++ ['}'] ++ rest.text
  | .require call rest => "require".toList ++ call.text ++ rest.text
  | .template template rest => backtick :: template.text ++ rest.text

def Template.text : Template → List Char
  | .ends chunk => chunkText chunk ++ [backtick]
  | .interpolation chunk code more => chunkText chunk ++ ['$', '{'] ++ code.text ++ '}' :: more.text

end

mutual

/-- The tokens of the calls in code, in the order of the text. -/
def Code.tokens : Code → List (List Char)
  | .nil => []
  | .separator _ _ rest => rest.tokens
  | .braces inner rest => inner.tokens ++ rest.tokens
  | .require call rest => call.quoted.token :: rest.tokens
  | .template template rest => template.tokens ++ rest.tokens

/-- The tokens of the calls in the interpolations of a template. -/
def Template.tokens : Template → List (List Char)
  | .ends _ => []
  | .interpolation _ code more => code.tokens ++ more.tokens

end

/-! ## Template text -/

/-- One step of template text. -/
def templatePiece : Pattern :=
  (only '\\' ++ anyChar) <|> noneOf [backtick, '$', '\\'] <|> (only '$' ++ notBefore ['{'])

theorem templateText_eq : templateText = many templatePiece := rfl

theorem TemplateChar.reads (piece : TemplateChar) (rest : List Char) :
    templatePiece.Reads piece.text [] rest := by
  cases piece with
  | plain c h =>
    have hclass : (!List.contains [backtick, '$', '\\'] c) = true := by simpa using h
    have hbackslash : c ≠ '\\' := by
      intro hc
      exact h (by simp [hc])
    have hescape : (only '\\' ++ anyChar).Refuses ([c] ++ rest) :=
      (refuses_char (stopsAt_cons.mpr (decide_eq_false hbackslash))).seq anyChar
    exact ((reads_char hclass rest).left _).right hescape
  | escaped c => exact ((reads_only '\\' ([c] ++ rest)).seq (reads_char rfl rest)).left _

/-- Template characters are read up to where no other step of template text is possible. -/
theorem reads_templateText (chunk : List TemplateChar) {rest : List Char}
    (h : templatePiece.Refuses rest) :
    templateText.Reads (chunkText chunk) [] rest := by
  rw [templateText_eq]
  induction chunk with
  | nil => exact h.many rfl
  | cons piece chunk ih => exact (piece.reads (chunkText chunk ++ rest)).many ih rfl

theorem refuses_backtick (rest : List Char) : templatePiece.Refuses (backtick :: rest) :=
  refuses_of_starts rfl rfl

theorem refuses_interpolation (rest : List Char) : templatePiece.Refuses ('$' :: '{' :: rest) := by
  have hescape : (only '\\' ++ anyChar).Refuses ('$' :: '{' :: rest) := refuses_of_starts rfl rfl
  have hplain : (noneOf [backtick, '$', '\\']).Refuses ('$' :: '{' :: rest) :=
    refuses_of_starts rfl rfl
  have hdollar : (only '$' ++ notBefore ['{']).Refuses (['$'] ++ '{' :: rest) :=
    (reads_only '$' ('{' :: rest)).seq_refuses rfl
  exact hescape.either (hplain.either hdollar)

section

variable {text rest : List Char} (interpolations : List Nat)

theorem readTemplate_of_end (h : templateText.Reads text [] ([backtick] ++ rest)) :
    ∃ lexemes, readTemplate interpolations (text ++ [backtick] ++ rest) =
      ⟨lexemes, rest, interpolations⟩ ∧
      tokensOf lexemes = [] := by
  have hends : templateEnd.Reads (text ++ [backtick]) [] rest := h.seq (reads_only backtick rest)
  obtain ⟨lexemes, hconsume, htokens⟩ := hends
  refine ⟨lexemes, ?_, htokens⟩
  simp only [readTemplate, hconsume]

-- the braces of an interpolation are counted from none
theorem readTemplate_of_interpolation (h : templateText.Reads text [] (['$', '{'] ++ rest)) :
    ∃ lexemes, readTemplate interpolations (text ++ ['$', '{'] ++ rest) =
      ⟨lexemes, rest, 0 :: interpolations⟩ ∧
      tokensOf lexemes = [] := by
  have hends : templateEnd.Refuses (text ++ ['$', '{'] ++ rest) := by
    rw [List.append_assoc]
    exact h.seq_refuses (refuses_of_starts rfl rfl)
  have hopens : templateInterpolation.Reads (text ++ ['$', '{']) [] rest :=
    h.seq (reads_word ['$', '{'] rest)
  obtain ⟨lexemes, hconsume, htokens⟩ := hopens
  refine ⟨lexemes, ?_, htokens⟩
  rw [Refuses] at hends
  simp only [readTemplate, hends, hconsume]

end

theorem readTemplate_ends (chunk : List TemplateChar) (interpolations : List Nat)
    (rest : List Char) :
    ∃ lexemes, readTemplate interpolations (chunkText chunk ++ [backtick] ++ rest) =
        ⟨lexemes, rest, interpolations⟩ ∧ tokensOf lexemes = [] :=
  readTemplate_of_end interpolations
    (@reads_templateText chunk ([backtick] ++ rest) (refuses_backtick rest))

theorem readTemplate_interpolation (chunk : List TemplateChar) (interpolations : List Nat)
    (rest : List Char) :
    ∃ lexemes, readTemplate interpolations (chunkText chunk ++ ['$', '{'] ++ rest) =
        ⟨lexemes, rest, 0 :: interpolations⟩ ∧ tokensOf lexemes = [] :=
  readTemplate_of_interpolation interpolations
    (@reads_templateText chunk (['$', '{'] ++ rest) (refuses_interpolation rest))

/-! ## Where template text starts -/

/-- A character leads from code, with interpolations around it, into the text of a template with
others. -/
inductive LeadsIn : List Nat → Char → List Nat → Prop where
  | opens (interpolations : List Nat) : LeadsIn interpolations backtick interpolations
  | closes (outer : List Nat) : LeadsIn (0 :: outer) '}' outer

namespace LeadsIn

variable {state : State} {c : Char} {interpolations outer : List Nat} {rest : List Char}

theorem starts (h : LeadsIn interpolations c outer) :
    Language.javascript.profile.starts c = false := by
  cases h with
  | opens => decide
  | closes => decide

theorem readCode (h : LeadsIn interpolations c outer) (input : List Char) :
    Scan.readCode true interpolations c input = (readTemplate outer input).behind c := by
  cases h with
  | opens => rfl
  | closes => rfl

theorem collects_ends (h : LeadsIn state.interpolations c outer) (chunk : List TemplateChar) :
    Collects Language.javascript.profile state (c :: (chunkText chunk ++ [backtick]))
    [] outer rest := by
  obtain ⟨lexemes, hread, htokens⟩ := readTemplate_ends chunk outer rest
  have hcode := h.readCode (chunkText chunk ++ [backtick] ++ rest)
  rw [hread] at hcode
  exact Collects.of_code h.starts hcode htokens

theorem collects_interpolation (h : LeadsIn state.interpolations c outer)
    (chunk : List TemplateChar) :
    Collects Language.javascript.profile state (c :: (chunkText chunk ++ ['$', '{'])) []
    (0 :: outer) rest := by
  obtain ⟨lexemes, hread, htokens⟩ := readTemplate_interpolation chunk outer rest
  have hcode := h.readCode (chunkText chunk ++ ['$', '{'] ++ rest)
  rw [hread] at hcode
  exact Collects.of_code h.starts hcode htokens

end LeadsIn

/-! ## Braces -/

/-- The counts with one more open brace in the innermost interpolation. -/
def opened : List Nat → List Nat
  | [] => []
  | braces :: outer => (braces + 1) :: outer

theorem collects_openingBrace {state : State} {rest : List Char} :
    Collects Language.javascript.profile state ['{'] [] (opened state.interpolations) rest := by
  have hread : readCode true state.interpolations '{' ([] ++ rest) =
      ⟨[.plain '{'], rest, opened state.interpolations⟩ := by
    cases state.interpolations with
    | nil => rfl
    | cons braces outer => rfl
  exact Collects.of_code (by decide) hread rfl

/-- The brace that closes an open one leaves the counts from before it was opened. -/
theorem collects_closingBrace {position : Position} {interpolations : List Nat} {rest : List Char} :
    Collects Language.javascript.profile ⟨position, opened interpolations⟩ ['}']
    [] interpolations rest := by
  have hread : readCode true (opened interpolations) '}' ([] ++ rest) =
      ⟨[.plain '}'], rest, interpolations⟩ := by
    cases interpolations with
    | nil => rfl
    | cons braces outer => rfl
  exact Collects.of_code (by decide) hread rfl

/-! ## Nested texts -/

/-- Template text ends with a backtick, so code may go on behind it with a call. -/
theorem Template.exists_text_eq :
    ∀ template : Template, ∃ before, template.text = before ++ [backtick]
  | .ends chunk => ⟨chunkText chunk, rfl⟩
  | .interpolation chunk code more => by
    obtain ⟨before, hmore⟩ := more.exists_text_eq
    refine ⟨chunkText chunk ++ ['$', '{'] ++ code.text ++ '}' :: before, ?_⟩
    rw [Template.text, hmore, List.append_assoc _ ('}' :: before), List.cons_append]

theorem separator_passes {c : Char} (h : c ∈ separators) :
    Language.javascript.profile.starts c = false ∧
    c ∉ [backtick, '{', '}'] ∧ isWordChar c = false := by
  simp only [separators, List.mem_cons, List.not_mem_nil, or_false] at h
  rcases h with rfl | rfl | rfl | rfl | rfl | rfl | rfl
  all_goals decide

-- One induction over both kinds of text, for every state. A call may stand anywhere in code, so the
-- state is one behind which a word may start; template text leads on to such a state by itself.
mutual

/-- Code gives the tokens of its calls and leaves the interpolations around it as they were. -/
theorem Code.collects : ∀ (code : Code) (state : State) (rest : List Char),
    Anchor.word.admits state.position = true →
      Collects Language.javascript.profile state code.text code.tokens state.interpolations rest
  | .nil, state, rest, _ => .nil state rest
  | .separator c h code, state, rest, _ => by
    obtain ⟨hstarts, hcode, hword⟩ := separator_passes h
    have hfirst := @collects_char state (code.text ++ rest) c hstarts hcode
    have hpassed := @Anchor.admits_word state.position [c] [] c rfl hword
    exact hfirst.append (code.collects ⟨_, state.interpolations⟩ rest hpassed)
  | .braces inner code, state, rest, _ => by
    have hopening := @collects_openingBrace state (inner.text ++ (['}'] ++ (code.text ++ rest)))
    have hopened := @Anchor.admits_word state.position ['{'] [] '{' rfl rfl
    have hinner :=
      inner.collects ⟨_, opened state.interpolations⟩ (['}'] ++ (code.text ++ rest)) hopened
    have hgroup := (hopening.append hinner).append collects_closingBrace
    have hclosed := @Anchor.admits_word state.position (['{'] ++ inner.text ++ ['}']) _ '}' rfl rfl
    have hcode := hgroup.append (code.collects ⟨_, state.interpolations⟩ rest hclosed)
    rw [List.nil_append, List.append_nil] at hcode
    exact hcode
  | .require call code, state, rest, hadmits => by
    have hcall :=
      collects_rule (mem_rules_iff.mpr (.inr (.inr rfl))) hadmits
        (reads_call call (code.text ++ rest))
    have hcalled := @Anchor.admits_word state.position ("require".toList ++ call.text) _ ')'
      (List.append_assoc _ _ [')']).symm rfl
    exact hcall.append (code.collects ⟨_, state.interpolations⟩ rest hcalled)
  | .template template code, state, rest, _ => by
    have htemplate :=
      template.collects state backtick state.interpolations (code.text ++ rest) (.opens _)
    obtain ⟨before, htext⟩ := template.exists_text_eq
    have hended :=
      @Anchor.admits_word state.position (backtick :: template.text) (backtick :: before) backtick
      (congrArg (backtick :: ·) htext) rfl
    exact htemplate.append (code.collects ⟨_, state.interpolations⟩ rest hended)

/-- Template text gives the tokens of the calls in its interpolations and leaves the interpolations
around the template. -/
theorem Template.collects : ∀ (template : Template) (state : State) (c : Char)
    (outer : List Nat) (rest : List Char), LeadsIn state.interpolations c outer →
      Collects Language.javascript.profile state (c :: template.text) template.tokens outer rest
  | .ends chunk, state, c, outer, rest, h => h.collects_ends chunk
  | .interpolation chunk code more, state, c, outer, rest, h => by
    have hchunk :=
      @LeadsIn.collects_interpolation state c outer
        (code.text ++ ('}' :: more.text ++ rest)) h chunk
    have hopened := @Anchor.admits_word state.position (c :: (chunkText chunk ++ ['$', '{']))
      (c :: (chunkText chunk ++ ['$'])) '{' (by simp) rfl
    have hcode := code.collects ⟨_, 0 :: outer⟩ ('}' :: more.text ++ rest) hopened
    have hhead := hchunk.append hcode
    exact hhead.append (more.collects ⟨_, 0 :: outer⟩ '}' outer rest (.closes outer))

end

/-- The tokens of the calls in code are found, each where it first occurs and with none from
template text, and the scan ends outside of every interpolation. -/
theorem extract_code (code : Code) :
    (Language.javascript.extract (String.ofList code.text)).map Reference.token =
        firsts (code.tokens.map String.ofList) ∧
      (finalState (stops Language.javascript.profile code.text) .start).interpolations = [] :=
  Language.map_token_extract (code.collects .start [] rfl)

end ImportChart.Javascript
