import ImportChart.Language.Statement
import ImportChart.Proofs.Language.Comment

/-!
# Lists with commas in Python

The list of modules behind `import`: names with commas between them, each with the name that it is
bound to, if any, and with blanks around the words and the commas. A name goes on as far as its
characters do. What the reader tries behind it, the word `as` and a comma, may stand behind blanks,
so a name ends where blanks lead to a comma or to the end of the line (`EndsItem`), and a list where
they lead to the end of the line (`EndsList`).
-/

namespace ImportChart.Python

open Pattern Statement

variable {p : Char → Bool} {c : Char} {rest input : List Char}

/-! ## What follows blanks -/

/-- No character of a class stands at the start of a text or behind the blanks there. -/
def StopsBehindBlanks (p : Char → Bool) (input : List Char) : Prop :=
  StopsAt p (input.dropWhile isBlank)

namespace StopsBehindBlanks

theorem cons (hblank : isBlank c = false) (hc : p c = false) (rest : List Char) :
    StopsBehindBlanks p (c :: rest) := by
  have hnot : ¬ isBlank c = true := by simp [hblank]
  rw [StopsBehindBlanks, List.dropWhile_cons_of_neg hnot]
  exact stopsAt_cons.mpr hc

theorem append {text : List Char} (htext : ∀ c ∈ text, isBlank c = true ∨ p c = false)
    (h : StopsBehindBlanks p rest) : StopsBehindBlanks p (text ++ rest) := by
  induction text with
  | nil => exact h
  | cons c cs ih =>
    cases hblank : isBlank c with
    | true =>
      rw [StopsBehindBlanks, List.cons_append, List.dropWhile_cons_of_pos hblank]
      exact ih fun d hd => htext d (List.mem_cons_of_mem c hd)
    | false =>
      have hc : p c = false := (htext c List.mem_cons_self).resolve_left (by simp [hblank])
      exact cons hblank hc (cs ++ rest)

theorem of_endsLine (hp : p '\n' = false) (h : EndsLine rest) : StopsBehindBlanks p rest := by
  cases rest with
  | nil => exact stopsAt_nil p
  | cons c cs =>
    have hc : c = '\n' := by simpa using stopsAt_cons.mp h
    rw [hc]
    exact cons rfl hp cs

/-- What stops a class behind blanks stops it at the start, if blanks stop it. -/
theorem stopsAt (h : StopsBehindBlanks p input) (hblank : ∀ c, isBlank c = true → p c = false) :
    StopsAt p input := by
  cases input with
  | nil => exact stopsAt_nil p
  | cons c cs =>
    rw [stopsAt_cons]
    cases hc : isBlank c with
    | true => exact hblank c hc
    | false =>
      have hnot : ¬ isBlank c = true := by simp [hc]
      rw [StopsBehindBlanks, List.dropWhile_cons_of_neg hnot] at h
      exact stopsAt_cons.mp h

theorem refuses_blanks_seq {q : Pattern} (h : StopsBehindBlanks q.starts input)
    (hq : q.isProductive = true) :
    (blanks ++ q).Refuses input :=
  (refuses_of_stopsAt hq h).chars_seq

theorem refuses_someBlanks_seq {q : Pattern} (h : StopsBehindBlanks q.starts input)
    (hq : q.isProductive = true) :
    (someBlanks ++ q).Refuses input :=
  (refuses_of_stopsAt hq h).someChars_seq

end StopsBehindBlanks

/-- Nothing but blanks stands before the end of the line. -/
def EndsList (rest : List Char) : Prop :=
  StopsBehindBlanks (fun c => decide (c ≠ '\r' ∧ c ≠ '\n')) rest

/-- Nothing but blanks stands before a comma or the end of the line. -/
def EndsItem (rest : List Char) : Prop :=
  StopsBehindBlanks (fun c => decide (c ≠ ',' ∧ c ≠ '\r' ∧ c ≠ '\n')) rest

theorem EndsList.stopsBehindBlanks (h : EndsList rest) (hp : p '\r' = false ∧ p '\n' = false) :
    StopsBehindBlanks p rest := by
  intro c hc
  have hend : c ≠ '\r' → c = '\n' := by simpa using h c hc
  by_cases hreturn : c = '\r'
  · rw [hreturn]
    exact hp.1
  · rw [hend hreturn]
    exact hp.2

theorem EndsList.endsItem (h : EndsList rest) : EndsItem rest :=
  h.stopsBehindBlanks ⟨rfl, rfl⟩

theorem EndsItem.stopsBehindBlanks (h : EndsItem rest)
    (hp : p ',' = false ∧ p '\r' = false ∧ p '\n' = false) :
    StopsBehindBlanks p rest := by
  intro c hc
  have hend : c ≠ ',' → c ≠ '\r' → c = '\n' := by simpa using h c hc
  by_cases hcomma : c = ','
  · rw [hcomma]
    exact hp.1
  · by_cases hreturn : c = '\r'
    · rw [hreturn]
      exact hp.2.1
    · rw [hend hcomma hreturn]
      exact hp.2.2

/-! ## Lists -/

/-- A comma with the blanks around it. -/
structure Comma where
  before : Chars isBlank
  after : Chars isBlank

def Comma.text (comma : Comma) : List Char :=
  comma.before.text ++ [','] ++ comma.after.text

/-- At least one item, with commas between the items. -/
structure CommaList (α : Type) where
  first : α
  more : List (Comma × α)

namespace CommaList

variable {α : Type}

def items (list : CommaList α) : List α :=
  list.first :: list.more.map Prod.snd

/-- What stands behind the first item, given how an item is written. -/
def moreText (write : α → List Char) (more : List (Comma × α)) : List Char :=
  more.flatMap fun next => next.1.text ++ write next.2

def text (write : α → List Char) (list : CommaList α) : List Char :=
  write list.first ++ moreText write list.more

/-- An item of a list ends, be it the last one or not. -/
theorem endsItem_moreText (write : α → List Char) (more : List (Comma × α)) (h : EndsItem rest) :
    EndsItem (moreText write more ++ rest) := by
  cases more with
  | nil => exact h
  | cons next more =>
    obtain ⟨comma, item⟩ := next
    simp only [moreText, List.flatMap_cons, Comma.text, List.append_assoc]
    exact .append (fun c hc => .inl (comma.before.isOf c hc)) (.cons rfl rfl _)

/-- The characters of a list are those of its items, blanks and commas. -/
theorem forall_mem_text {write : α → List Char} {list : CommaList α}
    (hblank : ∀ c, isBlank c = true → p c = true) (hcomma : p ',' = true)
    (hitem : ∀ item, ∀ c ∈ write item, p c = true) :
    ∀ c ∈ list.text write, p c = true := by
  intro c hc
  rcases List.mem_append.mp hc with hc | hc
  · exact hitem list.first c hc
  · obtain ⟨next, -, hc⟩ := List.mem_flatMap.mp hc
    rcases List.mem_append.mp hc with hc | hc
    · rw [Comma.text, List.append_assoc, List.mem_append, List.mem_append, List.mem_singleton] at hc
      rcases hc with hc | rfl | hc
      · exact hblank c (next.1.before.isOf c hc)
      · exact hcomma
      · exact hblank c (next.1.after.isOf c hc)
    · exact hitem next.2 c hc

end CommaList

/-! ## Modules -/

theorem isDottedChar_of_isBlank (h : isBlank c = true) : isDottedChar c = false :=
  eq_false_of_isGap isDottedChar (isGap_of_isBlank h) (by decide)

theorem isBlank_of_isDottedChar (h : isDottedChar c = true) : isBlank c = false :=
  eq_false_of_disjoint (fun _ => isDottedChar_of_isBlank) c h

/-- A module name: letters, digits, underscores and dots, in any order. -/
structure ModuleName extends SomeChars isDottedChar

theorem ModuleName.reads (name : ModuleName) (h : StopsAt isDottedChar rest) :
    dottedName.Reads name.text [name.text] rest :=
  (reads_someChars name.isOf name.ne_nil h).token

/-- The word `as` with the name that a module is bound to. -/
structure Binding where
  before : SomeChars isBlank
  between : SomeChars isBlank
  name : Identifier

def Binding.text (binding : Binding) : List Char :=
  binding.before.text ++ "as".toList ++ binding.between.text ++ binding.name.text

theorem Binding.reads (binding : Binding) (h : StopsAt isIdentifierChar rest) :
    (someBlanks ++ keyword "as" ++ someBlanks ++ identifier).Reads binding.text [] rest := by
  have hname : StopsAt isBlank (binding.name.text ++ rest) :=
    binding.name.stopsAt (fun _ => isBlank_of_isIdentifierChar) rest
  have has :
      StopsAt isBlank ("as".toList ++ (binding.between.text ++ (binding.name.text ++ rest))) :=
    stopsAt_cons.mpr rfl
  have hword :=
    (reads_someChars binding.before.isOf binding.before.ne_nil has).seq (reads_keyword "as" _)
  have hbound := hword.seq (reads_someChars binding.between.isOf binding.between.ne_nil hname)
  exact hbound.seq (reads_identifier binding.name h)

/-- A module in a list, with the name that it is bound to, if any. -/
structure ImportedModule where
  name : ModuleName
  binding : Option Binding

namespace ImportedModule

def text (imported : ImportedModule) : List Char :=
  match imported.binding with
  | none => imported.name.text
  | some binding => imported.name.text ++ binding.text

theorem reads (imported : ImportedModule) (h : EndsItem rest) :
    aliasedName.Reads imported.text [imported.name.text] rest := by
  obtain ⟨name, binding⟩ := imported
  cases binding with
  | none =>
    have hdotted : StopsBehindBlanks isDottedChar rest := h.stopsBehindBlanks ⟨rfl, rfl, rfl⟩
    have hname := name.reads (hdotted.stopsAt fun _ => isDottedChar_of_isBlank)
    have has : (someBlanks ++ keyword "as").Refuses rest :=
      (h.stopsBehindBlanks ⟨rfl, rfl, rfl⟩).refuses_someBlanks_seq rfl
    have hread := hname.seq ((has.seq someBlanks).seq identifier).optional
    rw [List.append_nil] at hread
    exact hread
  | some binding =>
    have hidentifier : StopsBehindBlanks isIdentifierChar rest :=
      h.stopsBehindBlanks ⟨rfl, rfl, rfl⟩
    have hbinding := binding.reads (hidentifier.stopsAt fun _ => isIdentifierChar_of_isBlank)
    have hdotted : StopsAt isDottedChar (binding.text ++ rest) := by
      simp only [Binding.text, List.append_assoc]
      exact binding.before.stopsAt (fun _ => isDottedChar_of_isBlank) _
    exact (name.reads hdotted).seq hbinding.optional

theorem stopsAt_isBlank (imported : ImportedModule) (rest : List Char) :
    StopsAt isBlank (imported.text ++ rest) := by
  obtain ⟨name, binding⟩ := imported
  cases binding with
  | none => exact name.stopsAt (fun _ => isBlank_of_isDottedChar) rest
  | some binding =>
    rw [text, List.append_assoc]
    exact name.stopsAt (fun _ => isBlank_of_isDottedChar) _

theorem no_lineEnd (imported : ImportedModule) : '\n' ∉ imported.text := by
  obtain ⟨name, binding⟩ := imported
  have hname : '\n' ∉ name.text := name.not_mem rfl
  cases binding with
  | none => exact hname
  | some binding =>
    have hidentifier : '\n' ∉ binding.name.text :=
      (Chars.mk _ binding.name.isIdentifierChar).not_mem rfl
    simp only [text, Binding.text, List.mem_append, not_or]
    exact ⟨hname, ⟨⟨binding.before.not_mem rfl, by decide⟩, binding.between.not_mem rfl⟩,
      hidentifier⟩

end ImportedModule

/-- What stands behind the first module of a list is read as the names of the modules there. -/
theorem reads_moreModules (more : List (Comma × ImportedModule)) (h : EndsList rest) :
    (many (blanks ++ only ',' ++ blanks ++ aliasedName)).Reads
      (CommaList.moreText ImportedModule.text more)
      (more.map fun next => next.2.name.text) rest := by
  induction more with
  | nil =>
    have hcomma : (blanks ++ only ',').Refuses rest :=
      (h.stopsBehindBlanks ⟨rfl, rfl⟩).refuses_blanks_seq rfl
    exact Refuses.many ((hcomma.seq blanks).seq aliasedName) rfl
  | cons next more ih =>
    obtain ⟨comma, imported⟩ := next
    have hends := CommaList.endsItem_moreText ImportedModule.text more h.endsItem
    have hblanks := imported.stopsAt_isBlank (CommaList.moreText ImportedModule.text more ++ rest)
    have hmark : StopsAt isBlank ([','] ++ (comma.after.text ++ (imported.text ++
        (CommaList.moreText ImportedModule.text more ++ rest)))) := stopsAt_cons.mpr rfl
    have hcomma := (reads_chars comma.before.isOf hmark).seq (reads_only ',' _)
    have hitem := (hcomma.seq (reads_chars comma.after.isOf hblanks)).seq (imported.reads hends)
    exact hitem.many ih rfl

theorem reads_modules (before : SomeChars isBlank) (modules : CommaList ImportedModule)
    (h : EndsList rest) :
    afterModuleImport.Reads (before.text ++ modules.text ImportedModule.text)
      (modules.items.map fun imported => imported.name.text) rest := by
  obtain ⟨first, more⟩ := modules
  have hends := CommaList.endsItem_moreText ImportedModule.text more h.endsItem
  have hblanks := first.stopsAt_isBlank (CommaList.moreText ImportedModule.text more ++ rest)
  have hfirst := (reads_someChars before.isOf before.ne_nil hblanks).seq (first.reads hends)
  have hread := hfirst.seq (reads_moreModules more h)
  rw [List.append_assoc] at hread
  rw [CommaList.items, List.map_cons, List.map_map]
  exact hread

end ImportChart.Python
