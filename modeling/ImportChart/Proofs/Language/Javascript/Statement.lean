import ImportChart.Proofs.Language.Javascript.Step

/-!
# Import and export statements in JavaScript

The statements that name a module, in every form and with any names, gaps and bindings. `type`,
`from` and `as` are words of the statements and may be names in them as well, and the reader knows
neither. It tries one form of a statement after another.

Only one of these choices needs an argument. Behind `import`, the word `type` is tried as a part of
the statement before it is tried as a name. A statement without that part may still bind a name
which is `type` or starts with it, and then no clause with a module follows the word: a longer name
goes on with another character, and a name that ends there is followed by a comma, or by `from` and
a quoted token, where `from` would be the name and the token stands in place of a second `from`
(`Clause.refuses_typeForm`).
-/

namespace ImportChart.Javascript

open Pattern Statement Scan

variable {rest : List Char}

/-! ## Bindings -/

/-- Bindings in braces, or everything bound to one name. -/
inductive Bindings where
  | braces (body : List Char) (h : '}' ∉ body)
  | star (before : Gap) (after : SomeGap) (name : Identifier)

namespace Bindings

def text : Bindings → List Char
  | .braces body _ => ['{'] ++ body ++ ['}']
  | .star before after name => ['*'] ++ before.text ++ "as".toList ++ after.text ++ name.text

theorem stopsAt {p : Char → Bool} (bindings : Bindings) (h : p '{' = false ∧ p '*' = false) :
    StopsAt p (bindings.text ++ rest) := by
  cases bindings with
  | braces => exact stopsAt_cons.mpr h.1
  | star => exact stopsAt_cons.mpr h.2

end Bindings

theorem reads_braces {body : List Char} (h : '}' ∉ body) (rest : List Char) :
    namedBindings.Reads (['{'] ++ body ++ ['}']) [] rest := by
  have hbody : ∀ c ∈ body, decide (c ≠ '}') = true := by
    intro c hc
    refine decide_eq_true ?_
    rintro rfl
    exact h hc
  have hclosing : StopsAt (fun c => decide (c ≠ '}')) (['}'] ++ rest) := stopsAt_cons.mpr rfl
  exact ((reads_only '{' _).seq (reads_chars hbody hclosing)).seq (reads_only '}' rest)

theorem Bindings.reads (bindings : Bindings) (hrest : StopsAt isIdentifierChar rest) :
    (namedBindings <|> namespaceBinding).Reads bindings.text [] rest := by
  cases bindings with
  | braces body h => exact (reads_braces h rest).left namespaceBinding
  | star before after name =>
    have hname := name.stopsAt_isGap rest
    have has : StopsAt isGap ("as".toList ++ (after.text ++ (name.text ++ rest))) :=
      stopsAt_cons.mpr rfl
    have hstar := ((reads_only '*' _).seq (reads_gap before has)).seq (reads_keyword "as" _)
    have hbound := (hstar.seq (reads_someGap after hname)).seq (reads_identifier name hrest)
    exact hbound.right (refuses_of_starts rfl rfl)

/-! ## The module -/

/-- The word `from` with the module behind it, and the gap before it. -/
structure Source where
  before : SomeGap
  between : Gap
  quoted : QuotedToken

namespace Source

def text (source : Source) : List Char :=
  source.before.text ++ "from".toList ++ source.between.text ++ source.quoted.text

variable (source : Source)

theorem reads (rest : List Char) : fromClause.Reads source.text [source.quoted.token] rest := by
  have hquoted : StopsAt isGap (source.quoted.text ++ rest) := source.quoted.stopsAt ⟨rfl, rfl⟩ rest
  have hfrom :
      StopsAt isGap ("from".toList ++ (source.between.text ++ (source.quoted.text ++ rest))) :=
    stopsAt_cons.mpr rfl
  have hword := (reads_gap source.before.toGap hfrom).seq (reads_keyword "from" _)
  exact (hword.seq (reads_gap source.between hquoted)).seq (reads_quoted source.quoted rest)

theorem stopsAt_isIdentifierChar (rest : List Char) :
    StopsAt isIdentifierChar (source.text ++ rest) := by
  simp only [text, List.append_assoc]
  exact source.before.stopsAt (fun _ => isIdentifierChar_of_isGap) _

/-- No pattern reads a module behind a gap that does not start with the word there. -/
theorem refuses_gap_seq {p : Pattern} (hp : p.isProductive = true) (hs : p.starts 'f' = false)
    (rest : List Char) :
    (gap ++ p).Refuses (source.text ++ rest) := by
  simp only [text, List.append_assoc]
  exact Refuses.gap_seq (refuses_of_starts hp hs) source.before.toGap (stopsAt_cons.mpr rfl)

end Source

/-! ## Clauses -/

/-- A comma and the bindings that it leads in. -/
structure CommaBindings where
  before : Gap
  after : Gap
  bindings : Bindings

def CommaBindings.text (comma : CommaBindings) : List Char :=
  comma.before.text ++ [','] ++ comma.after.text ++ comma.bindings.text

/-- What an import binds, with the gap before it. -/
inductive Clause where
  | bound (before : Gap) (bindings : Bindings)
  | named (before : SomeGap) (name : Identifier)
  | namedAnd (before : SomeGap) (name : Identifier) (comma : CommaBindings)

def Clause.text : Clause → List Char
  | .bound before bindings => before.text ++ bindings.text
  | .named before name => before.text ++ name.text
  | .namedAnd before name comma => before.text ++ name.text ++ comma.text

theorem starts_bindings {c : Char} (h : isIdentifierChar c = true) :
    (namedBindings <|> namespaceBinding).starts c = false := by
  have hbrace : c ≠ '{' := ne_of_class h (by decide)
  have hstar : c ≠ '*' := ne_of_class h (by decide)
  simp [starts, namedBindings, namespaceBinding, only, isProductive, hbrace, hstar]

/-- A clause does not start with a name, which a gap sets off from the word before it. -/
theorem starts_importClause {c : Char} (h : isIdentifierChar c = true) :
    importClause.starts c = false := by
  have hgap := isGap_of_isIdentifierChar h
  have hbindings := starts_bindings h
  simp only [orElse_eq, starts] at hbindings
  simp [starts, importClause, gap, chars, someGap, someChars, atLeastOnce, isProductive, hgap,
    hbindings]

namespace CommaBindings

variable (comma : CommaBindings)

theorem stopsAt_isIdentifierChar (rest : List Char) :
    StopsAt isIdentifierChar (comma.text ++ rest) := by
  simp only [text, List.append_assoc]
  exact comma.before.stopsAt (fun _ => isIdentifierChar_of_isGap) (stopsAt_cons.mpr rfl)

theorem reads (hrest : StopsAt isIdentifierChar rest) :
    (gap ++ only ',' ++ gap ++ (namedBindings <|> namespaceBinding)).Reads comma.text [] rest := by
  have hbindings : StopsAt isGap (comma.bindings.text ++ rest) := comma.bindings.stopsAt ⟨rfl, rfl⟩
  have hcomma : StopsAt isGap ([','] ++ (comma.after.text ++ (comma.bindings.text ++ rest))) :=
    stopsAt_cons.mpr rfl
  have hopening := (reads_gap comma.before hcomma).seq (reads_only ',' _)
  exact (hopening.seq (reads_gap comma.after hbindings)).seq (comma.bindings.reads hrest)

theorem refuses_importClause (rest : List Char) : importClause.Refuses (comma.text ++ rest) := by
  have hcomma : StopsAt isGap ([','] ++ (comma.after.text ++ (comma.bindings.text ++ rest))) :=
    stopsAt_cons.mpr rfl
  simp only [text, List.append_assoc]
  refine Refuses.either ?_ (Refuses.seq ?_ _)
  · exact Refuses.gap_seq (refuses_of_starts rfl rfl) comma.before hcomma
  · exact Refuses.someGap_seq (refuses_of_starts rfl rfl) comma.before hcomma

end CommaBindings

/-- A name with what a comma leads in behind it, if anything, is a clause. -/
theorem reads_clause_name (before : SomeGap) (name : Identifier) {more : List Char}
    (hstop : StopsAt isIdentifierChar (more ++ rest))
    (hmore :
      (optional (gap ++ only ',' ++ gap ++ (namedBindings <|> namespaceBinding))).Reads more []
        rest) :
    importClause.Reads (before.text ++ name.text ++ more) [] rest := by
  have hname := name.stopsAt_isGap (more ++ rest)
  have hclause := ((reads_someGap before hname).seq (reads_identifier name hstop)).seq hmore
  have hbindings : (gap ++ (namedBindings <|> namespaceBinding)).Refuses
      (before.text ++ (name.text ++ (more ++ rest))) := by
    refine Refuses.gap_seq (refuses_of_stopsAt rfl ?_) before.toGap hname
    exact name.stopsAt (fun _ => starts_bindings) (more ++ rest)
  refine hclause.right ?_
  simp only [List.append_assoc]
  exact hbindings

theorem reads_clause_named (before : SomeGap) (name : Identifier)
    (hstop : StopsAt isIdentifierChar rest) (hcomma : (gap ++ only ',').Refuses rest) :
    importClause.Reads (before.text ++ name.text) [] rest := by
  have hnone := ((hcomma.seq gap).seq (namedBindings <|> namespaceBinding)).optional
  have hclause := @reads_clause_name rest before name [] hstop hnone
  rw [List.append_nil] at hclause
  exact hclause

/-- A clause is read as it is in front of a module. -/
theorem Clause.reads (clause : Clause) (source : Source) (rest : List Char) :
    importClause.Reads clause.text [] (source.text ++ rest) := by
  have hsource := source.stopsAt_isIdentifierChar rest
  cases clause with
  | bound before bindings =>
    have hbindings : StopsAt isGap (bindings.text ++ (source.text ++ rest)) :=
      bindings.stopsAt ⟨rfl, rfl⟩
    exact ((reads_gap before hbindings).seq (bindings.reads hsource)).left _
  | named before name =>
    exact reads_clause_named before name hsource (source.refuses_gap_seq rfl rfl rest)
  | namedAnd before name comma =>
    exact reads_clause_name before name (comma.stopsAt_isIdentifierChar _)
      (comma.reads hsource).optional

/-! ## The word `type` -/

/-- The form of an import in which `type` is a word of the statement. -/
def typeForm : Pattern :=
  someGap ++ keyword "type" ++ importClause ++ fromClause

/-- `type` is no word of a statement where it is a name, or the start of one, and no clause with a
module follows the name. -/
theorem refuses_typeForm_name (before : SomeGap) (name : Identifier)
    (hstop : StopsAt isIdentifierChar rest) (hrest : (importClause ++ fromClause).Refuses rest) :
    typeForm.Refuses (before.text ++ name.text ++ rest) := by
  by_cases hprefix : "type".toList <+: name.text
  · obtain ⟨more, hmore⟩ := hprefix
    have hword : StopsAt isGap ("type".toList ++ (more ++ rest)) := stopsAt_cons.mpr rfl
    have htype := (reads_someGap before hword).seq (reads_keyword "type" (more ++ rest))
    have hclause : (importClause ++ fromClause).Refuses (more ++ rest) := by
      cases more with
      | nil => exact hrest
      | cons c cs =>
        -- a longer name: no gap sets a clause off from the word
        have hc : isIdentifierChar c = true :=
          name.isIdentifierChar c
            (by rw [← hmore]; exact List.mem_append_right _ List.mem_cons_self)
        exact (refuses_of_starts rfl (starts_importClause hc)).seq fromClause
    have hform := refuses_seq_assoc.mp (htype.seq_refuses hclause)
    rw [← hmore]
    simp only [List.append_assoc] at hform ⊢
    exact hform
  · have hname := name.stopsAt_isGap rest
    have hword : ¬ "type".toList <+: name.text ++ rest := by
      intro h
      exact hprefix (hstop.prefix_of_append (List.all_eq_true.mp rfl) h)
    rw [List.append_assoc]
    exact (((reads_someGap before hname).seq_refuses (refuses_word hword)).seq importClause).seq
      fromClause

/-- The word `from` may be the name of a clause, and then no other `from` stands before the quoted
token. -/
theorem Source.refuses_clause (source : Source) (rest : List Char) :
    (importClause ++ fromClause).Refuses (source.text ++ rest) := by
  have hquoted : StopsAt isGap (source.quoted.text ++ rest) := source.quoted.stopsAt ⟨rfl, rfl⟩ rest
  have hstop : StopsAt isIdentifierChar (source.between.text ++ (source.quoted.text ++ rest)) :=
    source.between.stopsAt (fun _ => isIdentifierChar_of_isGap)
      (source.quoted.stopsAt ⟨rfl, rfl⟩ rest)
  have hcomma : (gap ++ only ',').Refuses (source.between.text ++ (source.quoted.text ++ rest)) :=
    Refuses.gap_seq (refuses_of_stopsAt rfl (source.quoted.stopsAt ⟨rfl, rfl⟩ rest))
      source.between hquoted
  have hword :
      (gap ++ keyword "from").Refuses (source.between.text ++ (source.quoted.text ++ rest)) :=
    Refuses.gap_seq (refuses_of_stopsAt rfl (source.quoted.stopsAt ⟨rfl, rfl⟩ rest))
      source.between hquoted
  -- the clause takes `from` for its name
  have hname :=
    reads_clause_named source.before ⟨"from".toList, by decide, List.all_eq_true.mp rfl⟩
      hstop hcomma
  have hclause := hname.seq_refuses ((hword.seq gap).seq Pattern.quoted)
  simp only [text, List.append_assoc] at hclause ⊢
  exact hclause

theorem Clause.refuses_typeForm (clause : Clause) (source : Source) (rest : List Char) :
    typeForm.Refuses (clause.text ++ (source.text ++ rest)) := by
  cases clause with
  | bound before bindings =>
    have hword : (keyword "type").Refuses (bindings.text ++ (source.text ++ rest)) :=
      refuses_of_stopsAt rfl (bindings.stopsAt ⟨rfl, rfl⟩)
    have hform := hword.someGap_seq before (bindings.stopsAt ⟨rfl, rfl⟩)
    rw [text, List.append_assoc]
    exact (hform.seq importClause).seq fromClause
  | named before name =>
    exact refuses_typeForm_name before name (source.stopsAt_isIdentifierChar rest)
      (source.refuses_clause rest)
  | namedAnd before name comma =>
    have hcomma := (comma.refuses_importClause (source.text ++ rest)).seq fromClause
    have hform := refuses_typeForm_name before name (comma.stopsAt_isIdentifierChar _) hcomma
    rw [text, List.append_assoc]
    exact hform

/-! ## Imports -/

theorem refuses_call {input : List Char} (h : (gap ++ only '(').Refuses input) :
    afterRequire.Refuses input :=
  (((h.seq gap).seq Pattern.quoted).seq gap).seq (only ')')

/-- The forms with a clause are tried after a call and a module alone. -/
theorem reads_afterImport {text : List Char} {tokens : List (List Char)}
    (hcall : (gap ++ only '(').Refuses (text ++ rest))
    (hmodule : (gap ++ Pattern.quoted).Refuses (text ++ rest))
    (h : (typeForm <|> (importClause ++ fromClause)).Reads text tokens rest) :
    afterImport.Reads text tokens rest :=
  (h.right hmodule).right (refuses_call hcall)

theorem reads_importModule (before : Gap) (target : QuotedToken) (rest : List Char) :
    afterImport.Reads (before.text ++ target.text) [target.token] rest := by
  have hquoted : StopsAt isGap (target.text ++ rest) := target.stopsAt ⟨rfl, rfl⟩ rest
  have hcall : (gap ++ only '(').Refuses (before.text ++ (target.text ++ rest)) :=
    Refuses.gap_seq (refuses_of_stopsAt rfl (target.stopsAt ⟨rfl, rfl⟩ rest)) before hquoted
  have hmodule := ((reads_gap before hquoted).seq (reads_quoted target rest)).left
    (typeForm <|> (importClause ++ fromClause))
  refine hmodule.right (refuses_call ?_)
  rw [List.append_assoc]
  exact hcall

/-- Behind its gap, a clause starts with a name or with bindings. -/
theorem Clause.refuses_gap_seq {p : Pattern} (clause : Clause) (hp : p.isProductive = true)
    (hname : ∀ c, isIdentifierChar c = true → p.starts c = false)
    (hbindings : p.starts '{' = false ∧ p.starts '*' = false) (rest : List Char) :
    (gap ++ p).Refuses (clause.text ++ rest) := by
  cases clause with
  | bound before bindings =>
    have hstarts : p.Refuses (bindings.text ++ rest) :=
      refuses_of_stopsAt hp (bindings.stopsAt hbindings)
    rw [text, List.append_assoc]
    exact hstarts.gap_seq before (bindings.stopsAt ⟨rfl, rfl⟩)
  | named before name =>
    have hstarts := refuses_of_stopsAt hp (name.stopsAt hname rest)
    rw [text, List.append_assoc]
    exact hstarts.gap_seq before.toGap (name.stopsAt_isGap rest)
  | namedAnd before name comma =>
    have hstarts := refuses_of_stopsAt hp (name.stopsAt hname (comma.text ++ rest))
    rw [text, List.append_assoc, List.append_assoc]
    exact hstarts.gap_seq before.toGap (name.stopsAt_isGap _)

theorem starts_parenthesis {c : Char} (h : isIdentifierChar c = true) :
    (only '(').starts c = false :=
  decide_eq_false (ne_of_class h (by decide))

theorem starts_quoted {c : Char} (h : isIdentifierChar c = true) :
    Pattern.quoted.starts c = false := by
  have hapostrophe : c ≠ apostrophe := ne_of_class h (by decide)
  have hquotationMark : c ≠ quotationMark := ne_of_class h (by decide)
  simp [Pattern.quoted, tokenBetween, starts, only, isProductive, hapostrophe, hquotationMark]

theorem reads_importFrom (clause : Clause) (source : Source) (rest : List Char) :
    afterImport.Reads (clause.text ++ source.text) [source.quoted.token] rest := by
  have hfrom := (clause.reads source rest).seq (source.reads rest)
  refine reads_afterImport ?_ ?_ (hfrom.right ?_)
  · rw [List.append_assoc]
    exact clause.refuses_gap_seq rfl (fun _ => starts_parenthesis) ⟨rfl, rfl⟩ (source.text ++ rest)
  · rw [List.append_assoc]
    exact clause.refuses_gap_seq rfl (fun _ => starts_quoted) ⟨rfl, rfl⟩ (source.text ++ rest)
  · rw [List.append_assoc]
    exact clause.refuses_typeForm source rest

theorem reads_importTypeFrom (before : SomeGap) (clause : Clause) (source : Source)
    (rest : List Char) :
    afterImport.Reads (before.text ++ "type".toList ++ clause.text ++ source.text)
    [source.quoted.token] rest := by
  have hword : StopsAt isGap ("type".toList ++ (clause.text ++ (source.text ++ rest))) :=
    stopsAt_cons.mpr rfl
  have htype := (reads_someGap before hword).seq (reads_keyword "type" _)
  have hfrom := (htype.seq (clause.reads source rest)).seq (source.reads rest)
  refine reads_afterImport ?_ ?_ (hfrom.left (importClause ++ fromClause))
  · simp only [List.append_assoc]
    exact Refuses.gap_seq (refuses_of_starts rfl rfl) before.toGap hword
  · simp only [List.append_assoc]
    exact Refuses.gap_seq (refuses_of_starts rfl rfl) before.toGap hword

/-! ## Exports -/

/-- What an export passes on. -/
inductive Exported where
  | everything
  | bound (bindings : Bindings)

namespace Exported

def text : Exported → List Char
  | .everything => ['*']
  | .bound bindings => bindings.text

theorem stopsAt {p : Char → Bool} (exported : Exported) (h : p '{' = false ∧ p '*' = false) :
    StopsAt p (exported.text ++ rest) := by
  cases exported with
  | everything => exact stopsAt_cons.mpr h.2
  | bound bindings => exact bindings.stopsAt h

theorem reads (exported : Exported) (source : Source) (rest : List Char) :
    ((only '*' ++ optional (gap ++ keyword "as" ++ someGap ++ identifier)) <|> namedBindings).Reads
      exported.text []
      (source.text ++ rest) := by
  cases exported with
  | everything =>
    have has : (gap ++ keyword "as").Refuses (source.text ++ rest) :=
      source.refuses_gap_seq rfl rfl rest
    exact ((reads_only '*' _).seq ((has.seq someGap).seq identifier).optional).left namedBindings
  | bound bindings =>
    cases bindings with
    | braces body h =>
      exact (reads_braces h (source.text ++ rest)).right (refuses_of_starts rfl rfl)
    | star before after name =>
      have hsource := source.stopsAt_isIdentifierChar rest
      have hname := name.stopsAt_isGap (source.text ++ rest)
      have has :
          StopsAt isGap ("as".toList ++ (after.text ++ (name.text ++ (source.text ++ rest)))) :=
        stopsAt_cons.mpr rfl
      have hword := (reads_gap before has).seq (reads_keyword "as" _)
      have hbound := (hword.seq (reads_someGap after hname)).seq (reads_identifier name hsource)
      exact ((reads_only '*' _).seq hbound.optional).left namedBindings

end Exported

/-- The word `type` with the gap before it, or nothing. -/
def typeText : Option SomeGap → List Char
  | none => []
  | some before => before.text ++ "type".toList

theorem reads_typeText (typeGap : Option SomeGap) {before : Gap}
    (hgap : StopsAt isGap rest) (htype : StopsAt (keyword "type").starts rest) :
    (optional (someGap ++ keyword "type")).Reads (typeText typeGap) [] (before.text ++ rest) := by
  cases typeGap with
  | none =>
    have hnone : (keyword "type").Refuses rest := refuses_of_stopsAt rfl htype
    exact (hnone.someGap_seq before hgap).optional
  | some first =>
    have hword : StopsAt isGap ("type".toList ++ (before.text ++ rest)) := stopsAt_cons.mpr rfl
    exact ((reads_someGap first hword).seq (reads_keyword "type" _)).optional

theorem reads_exportFrom (typeGap : Option SomeGap) (before : Gap)
    (exported : Exported) (source : Source) (rest : List Char) :
    afterExport.Reads (typeText typeGap ++ before.text ++ exported.text ++ source.text)
      [source.quoted.token] rest := by
  have hgap : StopsAt isGap (exported.text ++ (source.text ++ rest)) := exported.stopsAt ⟨rfl, rfl⟩
  have htype := @reads_typeText _ typeGap before hgap (exported.stopsAt ⟨rfl, rfl⟩)
  exact ((htype.seq (reads_gap before hgap)).seq (exported.reads source rest)).seq
    (source.reads rest)

/-! ## Statements -/

/-- A statement that names a module. -/
inductive ModuleStatement where
  | importCall (call : Call)
  | importModule (before : Gap) (quoted : QuotedToken)
  | importFrom (clause : Clause) (source : Source)
  | importTypeFrom (before : SomeGap) (clause : Clause) (source : Source)
  | exportFrom (typeGap : Option SomeGap) (before : Gap) (exported : Exported) (source : Source)
  | requireCall (call : Call)

namespace ModuleStatement

def text : ModuleStatement → List Char
  | .importCall call => "import".toList ++ call.text
  | .importModule before quoted => "import".toList ++ (before.text ++ quoted.text)
  | .importFrom clause source => "import".toList ++ (clause.text ++ source.text)
  | .importTypeFrom before clause source =>
    "import".toList ++ (before.text ++ "type".toList ++ clause.text ++ source.text)
  | .exportFrom typeGap before exported source =>
    "export".toList ++ (typeText typeGap ++ before.text ++ exported.text ++ source.text)
  | .requireCall call => "require".toList ++ call.text

def token : ModuleStatement → List Char
  | .importCall call | .requireCall call => call.quoted.token
  | .importModule _ quoted => quoted.token
  | .importFrom _ source | .importTypeFrom _ _ source | .exportFrom _ _ _ source =>
    source.quoted.token

/-- Every statement is collected as the module it names. -/
theorem collects (statement : ModuleStatement) {state : State} (rest : List Char)
    (hadmits : Anchor.word.admits state.position = true) :
    Collects Language.javascript.profile state statement.text [statement.token]
      state.interpolations rest := by
  have himport := mem_rules_iff.mpr (.inl rfl : importRule = importRule ∨ _)
  have hexport := mem_rules_iff.mpr (.inr (.inl rfl) : _ ∨ exportRule = exportRule ∨ _)
  have hrequire := mem_rules_iff.mpr (.inr (.inr rfl) : _ ∨ _ ∨ requireRule = requireRule)
  cases statement with
  | importCall call =>
    have hread := collects_rule himport hadmits ((reads_call call rest).left _)
    exact hread
  | importModule before quoted =>
    have hread := collects_rule himport hadmits (reads_importModule before quoted rest)
    exact hread
  | importFrom clause source =>
    have hread := collects_rule himport hadmits (reads_importFrom clause source rest)
    exact hread
  | importTypeFrom before clause source =>
    have hread := collects_rule himport hadmits (reads_importTypeFrom before clause source rest)
    exact hread
  | exportFrom typeGap before exported source =>
    have hread :=
      collects_rule hexport hadmits (reads_exportFrom typeGap before exported source rest)
    exact hread
  | requireCall call =>
    have hread := collects_rule hrequire hadmits (reads_call call rest)
    exact hread

end ModuleStatement

/-- Statements with a semicolon and a line end between them. -/
def programText (statements : List ModuleStatement) : List Char :=
  [';', '\n'].intercalate (statements.map ModuleStatement.text)

theorem collects_separator {state : State} (rest : List Char) :
    Collects Language.javascript.profile state [';', '\n'] [] state.interpolations rest := by
  have hsemicolon := @collects_char state (['\n'] ++ rest) ';' (by decide) (by decide)
  exact hsemicolon.append (collects_char (by decide) (by decide))

theorem collects_program (statements : List ModuleStatement) (state : State)
    (hadmits : Anchor.word.admits state.position = true) :
    Collects Language.javascript.profile state (programText statements)
      (statements.map ModuleStatement.token)
      state.interpolations [] := by
  induction statements generalizing state with
  | nil => exact .nil state []
  | cons first more ih =>
    cases more with
    | nil =>
      rw [programText, List.map_singleton, List.intercalate_singleton]
      exact first.collects [] hadmits
    | cons second more =>
      have hrest : programText (first :: second :: more) =
          first.text ++ [';', '\n'] ++ programText (second :: more) := List.intercalate_cons_cons
      have hfirst :=
        @first.collects state ([';', '\n'] ++ (programText (second :: more) ++ [])) hadmits
      have hline := hfirst.append (collects_separator _)
      have hadmitted :=
        @Anchor.admits_word state.position (first.text ++ [';', '\n']) (first.text ++ [';']) '\n'
        (List.append_assoc _ [';'] ['\n']).symm (by decide)
      rw [hrest]
      exact hline.append (ih ⟨_, state.interpolations⟩ hadmitted)

/-- The modules that statements name are found, each where it first occurs. -/
theorem extract_statements (statements : List ModuleStatement) :
    (Language.javascript.extract (String.ofList (programText statements))).map Reference.token =
      firsts ((statements.map ModuleStatement.token).map String.ofList) :=
  (Language.map_token_extract (collects_program statements .start rfl)).1

-- `type` is the name in the first statement and a word in the second, where `from` is the name
example :
    (Language.javascript.extract "import type from 'a';\nimport type from from 'b'").map
      Reference.token =
    ["a", "b"] := by
  decide +kernel

end ImportChart.Javascript
