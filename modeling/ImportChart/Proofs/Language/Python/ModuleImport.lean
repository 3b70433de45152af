import ImportChart.Proofs.Language.Python.CommaList
import ImportChart.Proofs.Reference.Lines

/-!
# Import lines in Python

A file of lines that each import modules, hold a comment, or are blank. A line imports a list of
modules behind `import`, or names from one module behind `from`. The words of these statements may
be names in them as well.

What stands on a line behind the module of a `from` statement is read as code. There the start of a
line has passed, so no such statement may start again, but one that imports by calling a function
may start at each word: it needs a parenthesis, and none stands on the line (`collects_words`).
Every line ends where it is written to end, so the next one may start, and what a line gives stands
on it (`finds_lines`).
-/

namespace ImportChart.Python

open Pattern Statement Scan

variable {state : State} {rest : List Char}

/-! ## Rules -/

def importRule : Rule where
  anchor := .lineStart
  keyword := "import"
  tail := afterModuleImport

def fromRule : Rule where
  anchor := .lineStart
  keyword := "from"
  tail := afterFrom

def functionRule : Rule where
  anchor := .word
  keyword := "__import__"
  tail := afterImportFunction

def libraryRule : Rule where
  anchor := .word
  lead := optional (keyword "importlib.")
  keyword := "import_module"
  tail := afterImportFunction

theorem mem_rules_iff {rule : Rule} : rule ∈ Language.python.profile.rules ↔
    rule = importRule ∨ rule = fromRule ∨ rule = functionRule ∨ rule = libraryRule := by
  change rule ∈ [importRule, fromRule, functionRule, libraryRule] ↔ _
  simp only [List.mem_cons, List.not_mem_nil, or_false]

/-! ## Words of code -/

/-- A character that may stand on a line behind a `from` statement: part of a name, a comma, a blank
or a carriage return. -/
def isWordListChar (c : Char) : Bool :=
  isIdentifierChar c || isBlank c || decide (c = ',' ∨ c = '\r')

/-- A function is not called where no parenthesis stands up to the end of the line. -/
theorem refuses_call {name words : List Char} (hname : ∀ c ∈ name, isIdentifierChar c = true)
    (hwords : ∀ c ∈ words, isWordListChar c = true) (hrest : EndsLine rest) :
    (word name ++ afterImportFunction).Refuses (words ++ rest) := by
  by_cases hprefix : name <+: words ++ rest
  · have hstop : StopsBehindBlanks isIdentifierChar rest := .of_endsLine rfl hrest
    obtain ⟨more, rfl⟩ :=
      (hstop.stopsAt fun _ => isIdentifierChar_of_isBlank).prefix_of_append hname hprefix
    have hparenthesis : StopsBehindBlanks (only '(').starts (more ++ rest) := by
      refine .append (fun c hc => .inr ?_) (.of_endsLine rfl hrest)
      have hc := hwords c (List.mem_append_right name hc)
      exact decide_eq_false (ne_of_class hc rfl)
    have hopening : (blanks ++ only '(').Refuses (more ++ rest) :=
      hparenthesis.refuses_blanks_seq rfl
    have hcall := (((hopening.seq blanks).seq quoted).seq blanks).seq (only ')' <|> only ',')
    have hread := (reads_word name (more ++ rest)).seq_refuses hcall
    rw [← List.append_assoc] at hread
    exact hread
  · exact (refuses_word hprefix).seq afterImportFunction

theorem starts_hidden {c : Char} (h : isWordListChar c = true) :
    Language.python.profile.hidden.starts c = false := by
  have hhash : c ≠ '#' := ne_of_class h rfl
  have hquotationMark : c ≠ quotationMark := ne_of_class h rfl
  have happostrophe : c ≠ apostrophe := ne_of_class h rfl
  simp [Language.profile, pythonProfile, starts, hashComment, tripleQuoted, tripled, stringLiteral,
    stringLiteralIn, keyword, only, isProductive, hhash, Ne.symm hquotationMark,
    Ne.symm happostrophe, hquotationMark, happostrophe]

/-- Names, commas and blanks up to the end of a line are passed over if the line does not start with
them. -/
theorem collects_words {words : List Char} (hwords : ∀ c ∈ words, isWordListChar c = true)
    (hrest : EndsLine rest) (hline : Anchor.lineStart.admits state.position = false) :
    Collects Language.python.profile state words [] state.interpolations rest := by
  induction words generalizing state with
  | nil => exact .nil state rest
  | cons c cs ih =>
    have hc := hwords c List.mem_cons_self
    have hhidden := Language.python.refuses_hidden (starts_hidden hc) (cs ++ rest)
    have hrules : ∀ rule ∈ Language.python.profile.rules, rule.anchor.admits state.position = true →
        rule.statement.Refuses (c :: (cs ++ rest)) := by
      intro rule hrule hadmits
      rcases mem_rules_iff.mp hrule with rfl | rfl | rfl | rfl
      · exact absurd (hline.symm.trans hadmits) nofun
      · exact absurd (hline.symm.trans hadmits) nofun
      · exact Rule.refuses (reads_nothing _) (refuses_call (List.all_eq_true.mp rfl) hwords hrest)
      · have hdot : ¬ "importlib.".toList <+: (c :: cs) ++ rest := by
          intro hprefix
          have hword : "importlib.".toList <+: c :: cs :=
            StopsAt.prefix_of_append hrest (List.all_eq_true.mp rfl) hprefix
          exact ne_of_class (hwords '.' (hword.subset (by decide))) rfl rfl
        exact Rule.refuses (refuses_word hdot).optional
          (refuses_call (List.all_eq_true.mp rfl) hwords hrest)
    have hfirst : Collects Language.python.profile state [c] [] state.interpolations (cs ++ rest) :=
      .of_refusals hhidden hrules (readCode_of_not_templates rfl c (cs ++ rest)) rfl
    have hnewline : c ≠ '\n' := ne_of_class hc rfl
    have hpassed : Anchor.lineStart.admits (state.position.afterText [c]) = false :=
      Anchor.lineStart_eq_false hline (by simpa using Ne.symm hnewline)
    exact hfirst.append (@ih ⟨_, state.interpolations⟩
      (fun d hd => hwords d (List.mem_cons_of_mem c hd)) hpassed)

/-! ## Lines -/

/-- The names that a `from` statement imports, with the blanks before them. -/
structure ImportedNames where
  before : SomeChars isBlank
  names : CommaList Identifier

/-- What stands behind a `from` statement: imported names, or nothing. -/
def importedText : Option ImportedNames → List Char
  | none => []
  | some imported => imported.before.text ++ imported.names.text Identifier.text

theorem isWordListChar_of_isBlank {c : Char} (h : isBlank c = true) : isWordListChar c = true := by
  simp [isWordListChar, h]

theorem isWordListChar_importedText (names : Option ImportedNames) :
    ∀ c ∈ importedText names, isWordListChar c = true := by
  intro c hc
  cases names with
  | none => cases hc
  | some imported =>
    rcases List.mem_append.mp hc with hc | hc
    · exact isWordListChar_of_isBlank (imported.before.isOf c hc)
    · refine CommaList.forall_mem_text (fun _ => isWordListChar_of_isBlank) rfl
        (fun name d hd => ?_) c hc
      simp [isWordListChar, name.isIdentifierChar d hd]

/-- A blank or a carriage return, which may stand before the end of a line. -/
def isTrailing (c : Char) : Bool :=
  isBlank c || decide (c = '\r')

/-- What stands on a line. -/
inductive Content where
  | moduleList (before : SomeChars isBlank) (modules : CommaList ImportedModule)
  | fromModule (before : SomeChars isBlank) (name : ModuleName) (between : SomeChars isBlank)
      (names : Option ImportedNames)
  | comment (body : LineText)
  | nothing

namespace Content

def text : Content → List Char
  | .moduleList before modules =>
    "import".toList ++ (before.text ++ modules.text ImportedModule.text)
  | .fromModule before name between names =>
    "from".toList ++ (before.text ++ name.text ++ between.text ++ "import".toList) ++
      importedText names
  | .comment body => ['#'] ++ body.text
  | .nothing => []

/-- The modules that a line names. -/
def modules : Content → List (List Char)
  | .moduleList _ modules => modules.items.map fun imported => imported.name.text
  | .fromModule _ name _ _ => [name.text]
  | .comment _ | .nothing => []

end Content

theorem isTrailing_cases {c : Char} (h : isTrailing c = true) : c = ' ' ∨ c = '\t' ∨ c = '\r' := by
  simpa [isTrailing, isBlank, or_assoc] using h

theorem collects_trailing (trailing : Chars isTrailing) :
    Collects Language.python.profile state trailing.text [] state.interpolations rest := by
  refine .of_gap fun c hc => ?_
  rcases isTrailing_cases (trailing.isOf c hc) with rfl | rfl | rfl
  · rfl
  · rfl
  · rfl

theorem endsList_trailing (trailing : Chars isTrailing) (h : EndsLine rest) :
    EndsList (trailing.text ++ rest) := by
  refine .append (fun c hc => ?_) (.of_endsLine rfl h)
  rcases isTrailing_cases (trailing.isOf c hc) with rfl | rfl | rfl
  · exact .inl rfl
  · exact .inl rfl
  · exact .inr rfl

theorem collects_moduleList (before : SomeChars isBlank) (modules : CommaList ImportedModule)
    (hadmits : Anchor.lineStart.admits state.position = true) (h : EndsList rest) :
    Collects Language.python.profile state
      ("import".toList ++ (before.text ++ modules.text ImportedModule.text))
      (modules.items.map fun imported => imported.name.text) state.interpolations rest := by
  have hstatement := @Rule.reads importRule _ rest _ rfl (reads_modules before modules h)
  exact .of_rule [] [fromRule, functionRule, libraryRule] rfl rfl nofun hadmits hstatement

theorem collects_fromModule (before : SomeChars isBlank) (name : ModuleName)
    (between : SomeChars isBlank) (hadmits : Anchor.lineStart.admits state.position = true) :
    Collects Language.python.profile state
      ("from".toList ++ (before.text ++ name.text ++ between.text ++ "import".toList)) [name.text]
      state.interpolations rest := by
  have himport : StopsAt isBlank ("import".toList ++ rest) := stopsAt_cons.mpr rfl
  have hdotted : StopsAt isDottedChar (between.text ++ ("import".toList ++ rest)) :=
    between.stopsAt (fun _ => isDottedChar_of_isBlank) _
  have hblank : StopsAt isBlank (name.text ++ (between.text ++ ("import".toList ++ rest))) :=
    name.stopsAt (fun _ => isBlank_of_isDottedChar) _
  have hname := (reads_someChars before.isOf before.ne_nil hblank).seq (name.reads hdotted)
  have hbetween := hname.seq (reads_someChars between.isOf between.ne_nil himport)
  have htail :
      afterFrom.Reads (before.text ++ name.text ++ between.text ++ "import".toList)
      [name.text] rest :=
    hbetween.seq (reads_keyword "import" rest)
  have hstatement := @Rule.reads fromRule _ rest _ rfl htail
  exact .of_rule [importRule] [functionRule, libraryRule] rfl rfl (by decide) hadmits hstatement

theorem no_lineEnd_fromModule (before : SomeChars isBlank) (name : ModuleName)
    (between : SomeChars isBlank) :
    '\n' ∉ "from".toList ++ (before.text ++ name.text ++ between.text ++ "import".toList) := by
  have hbefore : '\n' ∉ before.text := before.not_mem rfl
  have hname : '\n' ∉ name.text := name.not_mem rfl
  have hbetween : '\n' ∉ between.text := between.not_mem rfl
  simp [hbefore, hname, hbetween]

theorem Content.no_lineEnd (content : Content) : '\n' ∉ content.text := by
  cases content with
  | moduleList before modules =>
    have hbefore : '\n' ∉ before.text := before.not_mem rfl
    have hmodules : ∀ c ∈ modules.text ImportedModule.text, decide (c ≠ '\n') = true := by
      refine CommaList.forall_mem_text (fun c hc => decide_eq_true (ne_of_class hc rfl)) rfl
        fun imported c hc => ?_
      exact decide_eq_true (ne_of_mem_of_not_mem hc imported.no_lineEnd)
    have hlist : '\n' ∉ modules.text ImportedModule.text :=
      fun hmem => of_decide_eq_true (hmodules _ hmem) rfl
    have hkeyword : '\n' ∉ "import".toList := by decide
    exact List.not_mem_append hkeyword (List.not_mem_append hbefore hlist)
  | fromModule before name between names =>
    have hnames : '\n' ∉ importedText names := by
      intro hmem
      exact ne_of_class (isWordListChar_importedText names _ hmem) rfl rfl
    exact List.not_mem_append (no_lineEnd_fromModule before name between) hnames
  | comment body =>
    have hhash : '\n' ∉ ['#'] := by decide
    exact List.not_mem_append hhash body.no_lineEnd
  | nothing => exact List.not_mem_nil

/-- What a line holds gives the modules that it names, where the end of the line follows. -/
theorem Content.collects (content : Content) (trailing : Chars isTrailing) (h : EndsLine rest)
    (hadmits : Anchor.lineStart.admits state.position = true) :
    Collects Language.python.profile state (content.text ++ trailing.text) content.modules
      state.interpolations
      rest := by
  cases content with
  | moduleList before modules =>
    have hlist := collects_moduleList before modules hadmits (endsList_trailing trailing h)
    have hline := hlist.append (collects_trailing trailing)
    rw [List.append_nil] at hline
    exact hline
  | fromModule before name between names =>
    have hwords : ∀ c ∈ importedText names ++ trailing.text, isWordListChar c = true := by
      intro c hc
      rcases List.mem_append.mp hc with hc | hc
      · exact isWordListChar_importedText names c hc
      · rcases isTrailing_cases (trailing.isOf c hc) with rfl | rfl | rfl
        · rfl
        · rfl
        · rfl
    have hstatement :=
      @collects_fromModule state (importedText names ++ trailing.text ++ rest) before name between
      hadmits
    have hpassed :=
      Anchor.lineStart_cons_eq_false state.position rfl (no_lineEnd_fromModule before name between)
    have hline := hstatement.append (collects_words hwords h hpassed)
    show Collects Language.python.profile state
        ("from".toList ++ (before.text ++ name.text ++ between.text ++
      "import".toList) ++ importedText names ++ trailing.text) [name.text] state.interpolations rest
    rw [List.append_assoc]
    exact hline
  | comment body =>
    have hbody : '\n' ∉ body.text ++ trailing.text :=
      List.not_mem_append body.no_lineEnd (trailing.not_mem rfl)
    have hcomment := (Comment.hash ⟨_, hbody⟩).reads h
    exact .of_hidden hcomment
  | nothing => exact collects_trailing trailing

/-- A line, without its end. -/
structure Line where
  indent : Chars isBlank
  content : Content
  trailing : Chars isTrailing

namespace Line

def text (line : Line) : List Char :=
  line.indent.text ++ (line.content.text ++ line.trailing.text)

def modules (line : Line) : List (List Char) :=
  line.content.modules

theorem collects (line : Line) (h : EndsLine rest)
    (hadmits : Anchor.lineStart.admits state.position = true) :
    Collects Language.python.profile state line.text line.modules state.interpolations rest := by
  have hindent : ∀ c ∈ line.indent.text, isGap c = true :=
    fun c hc => isGap_of_isBlank (line.indent.isOf c hc)
  have hblanks : Collects Language.python.profile state line.indent.text [] state.interpolations
      (line.content.text ++ line.trailing.text ++ rest) := .of_gap hindent
  exact hblanks.append (line.content.collects line.trailing h
    (Anchor.admits_lineStart hadmits line.indent.isOf))

theorem no_lineEnd (line : Line) : '\n' ∉ line.text :=
  List.not_mem_append (line.indent.not_mem rfl)
    (List.not_mem_append line.content.no_lineEnd (line.trailing.not_mem rfl))

end Line

/-! ## Files -/

/-- Lines with line ends between them. -/
def fileText (lines : List Line) : List Char :=
  ['\n'].intercalate (lines.map Line.text)

/-- The modules that lines name, each with the number of its line, where the first line has a given
number. -/
def numberedModules (lines : List Line) (number : Nat) : List (String × Nat) :=
  (lines.zipIdx number).flatMap fun (line, number) => line.modules.map fun name =>
    (String.ofList name, number)

theorem finds_lines (lines : List Line) (state : State)
    (hadmits : Anchor.lineStart.admits state.position = true) :
    Finds Language.python.profile state (fileText lines) (numberedModules lines state.position.line)
      state.interpolations [] := by
  induction lines generalizing state with
  | nil => exact .of_collects_nil (.nil state [])
  | cons first more ih =>
    cases more with
    | nil =>
      have hfirst := Finds.of_collects (first.collects endsLine_nil hadmits) first.no_lineEnd
      rw [fileText, List.map_singleton, List.intercalate_singleton, numberedModules,
        List.zipIdx_singleton, List.flatMap_singleton]
      exact hfirst
    | cons second more =>
      have htext :
          fileText (first :: second :: more) = first.text ++ ['\n'] ++ fileText (second :: more) :=
        List.intercalate_cons_cons
      have hcollected := first.collects (endsLine_newline (fileText (second :: more) ++ [])) hadmits
      have hfirst := Finds.of_collects hcollected first.no_lineEnd
      have hline := hfirst.append (Finds.of_collects_nil Collects.of_lineEnd)
      have hmore := ih ⟨state.position.afterText (first.text ++ ['\n']), state.interpolations⟩
        (Anchor.admits_lineStart_concat state.position first.text)
      have hnumber :
          (state.position.afterText (first.text ++ ['\n'])).line = state.position.line + 1 := by
        rw [Position.line_afterText, List.count_append,
          List.count_eq_zero_of_not_mem first.no_lineEnd]
        rfl
      simp only [hnumber] at hmore
      have hlines := hline.append hmore
      rw [List.append_nil] at hlines
      rw [htext, numberedModules, List.zipIdx_cons, List.flatMap_cons]
      exact hlines

/-- The modules that lines name are found, each on the line where it first occurs. -/
theorem extract_lines (lines : List Line) :
    (Language.python.extract (String.ofList (fileText lines))).map Reference.lined =
      firstsBy Prod.fst (numberedModules lines 1) :=
  Language.map_lined_extract (finds_lines lines .start rfl)

-- `as` and `from` are names in the first line, the second is a comment, and the third calls nothing
example :
    (Language.python.extract
      "import as as as, from\n# import a\n\tfrom . import import_module\n").map
    Reference.lined = [("as", 1), ("from", 1), (".", 3)] := by
  decide +kernel

end ImportChart.Python
