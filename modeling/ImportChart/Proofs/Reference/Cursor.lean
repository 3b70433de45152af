import ImportChart.Reference.Scan.Laws

/-!
# Reading with a cursor

A scan in steps moves a cursor through the text. A pattern that does not match may have moved it
some way before it failed, so whoever tries a pattern remembers where the cursor stood and puts it
back. `Cursor.iterate` is one stop of a scan in these terms, as a computation on the text ahead.

How far a failing pattern strays is left open: it may depend on the pattern and the text in any way.
Patterns tried in turn find what the first of them that matches finds, each from the same place, and
leave the cursor there if none does (`Cursor.run_attemptAll`). So going back makes the stop the one
that `Scan.advance` computes without a cursor (`Cursor.run_iterate`).
-/

namespace ImportChart

/-! ## Alternatives -/

/-- The patterns among which a pattern chooses, in order. -/
def Pattern.alternatives : Pattern → List Pattern
  | either p q => p.alternatives ++ q.alternatives
  | p => [p]

theorem Pattern.consume_eq_findSome? (p : Pattern) (input : List Char) :
    p.consume input = p.alternatives.findSome? (·.consume input) := by
  induction p with
  | either p q ihp ihq =>
    rw [alternatives, List.findSome?_append, ← ihp, ← ihq, consume]
    cases p.consume input <;> rfl
  | nothing | char _ | word _ | notBefore _ | seq _ _ | many _ | token _ =>
    exact List.findSome?_singleton.symm

/-- The rules that may start at a position are tried in turn. -/
theorem Scan.readStatement_eq_findSome? (rules : List Rule) (position : Position)
    (input : List Char) :
    readStatement rules position input =
      ((rules.filter fun rule => rule.anchor.admits position).map Rule.statement).findSome?
        (·.consume input) := by
  induction rules with
  | nil => rfl
  | cons rule rules ih =>
    rw [readStatement] at ih ⊢
    rw [List.findSome?_cons, List.filter_cons, ih]
    by_cases hadmits : rule.anchor.admits position = true
    · rw [if_pos hadmits, if_pos hadmits, List.map_cons, List.findSome?_cons]
    · rw [if_neg hadmits, if_neg hadmits]

/-- A stop as a computation with a cursor gives it: what was read with the interpolations behind it,
and the text ahead afterwards. -/
def Scan.Advance.outcome (read : Advance) : (List Lexeme × List Nat) × List Char :=
  ((read.lexemes, read.interpolations), read.rest)

theorem Scan.Advance.outcome_inj {read : Advance} (other : Advance) :
    read.outcome = other.outcome ↔ read = other := by
  obtain ⟨lexemes, rest, interpolations⟩ := read
  obtain ⟨lexemes', rest', interpolations'⟩ := other
  simp only [outcome, Prod.mk.injEq, Advance.mk.injEq]
  rw [and_right_comm, and_assoc]

/-- A computation with a cursor in a text. Its state is the text ahead of the cursor. -/
abbrev Cursor := StateM (List Char)

namespace Cursor

open Scan

/-- What a computation gives from a place, and the text ahead afterwards. -/
def run (cursor : Cursor α) (ahead : List Char) : α × List Char :=
  Id.run (StateT.run cursor ahead)

@[simp] theorem run_pure (a : α) (ahead : List Char) : run (pure a) ahead = (a, ahead) := rfl

@[simp] theorem run_bind (cursor : Cursor α) (next : α → Cursor β) (ahead : List Char) :
    run (cursor >>= next) ahead = run (next (run cursor ahead).1) (run cursor ahead).2 := rfl

@[simp] theorem run_map (f : α → β) (cursor : Cursor α) (ahead : List Char) :
    run (f <$> cursor) ahead = (f (run cursor ahead).1, (run cursor ahead).2) := rfl

@[simp] theorem run_get (ahead : List Char) : run get ahead = (ahead, ahead) := rfl

@[simp] theorem run_set (rest ahead : List Char) : run (set rest) ahead = (⟨⟩, rest) := rfl

/-- Where a cursor stands after a pattern has failed from a place. -/
abbrev Straying := Pattern → List Char → List Char

section

variable (stray : Straying)

/-- Tries a pattern. Behind a match the cursor stands where the match ends. -/
def attempt (p : Pattern) : Cursor (Option (List Lexeme)) := do
  let ahead ← get
  match p.consume ahead with
  | some m =>
    set m.rest
    return some m.lexemes
  | none =>
    set (stray p ahead)
    return none

/-- Tries patterns in turn and goes back behind each that fails. -/
def attemptAll : List Pattern → Cursor (Option (List Lexeme))
  | [] => return none
  | p :: ps => do
    let start ← get
    match ← attempt stray p with
    | some lexemes => return some lexemes
    | none =>
      set start
      attemptAll ps

/-- Reads template text, or goes back to where it starts. -/
def template (interpolations : List Nat) : Cursor (List Lexeme × List Nat) := do
  match ← attemptAll stray [Pattern.templateEnd] with
  | some lexemes => return (lexemes, interpolations)
  | none =>
    match ← attemptAll stray [Pattern.templateInterpolation] with
    | some lexemes => return (lexemes, 0 :: interpolations)
    | none => return ([], interpolations)

/-- Reads a character of code and the template text that it leads into. -/
def code (templates : Bool) (interpolations : List Nat) : Cursor (List Lexeme × List Nat) := do
  match ← get with
  | [] => return ([], interpolations)
  | c :: rest =>
    set rest
    if !templates then return ([.plain c], interpolations)
    else if c = backtick then
      let (lexemes, interpolations) ← template stray interpolations
      return (.plain c :: lexemes, interpolations)
    else if c = '{' then
      match interpolations with
      | [] => return ([.plain c], [])
      | braces :: outer => return ([.plain c], (braces + 1) :: outer)
    else if c = '}' then
      match interpolations with
      | [] => return ([.plain c], [])
      | 0 :: outer =>
        let (lexemes, interpolations) ← template stray outer
        return (.plain c :: lexemes, interpolations)
      | (braces + 1) :: outer => return ([.plain c], braces :: outer)
    else return ([.plain c], interpolations)

/-- One stop of a scan: hidden text, else a statement, else code. -/
def iterate (profile : Profile) (state : State) : Cursor (List Lexeme × List Nat) := do
  match ← attemptAll stray profile.hidden.alternatives with
  | some lexemes => return (lexemes, state.interpolations)
  | none =>
    let admitted := profile.rules.filter fun rule => rule.anchor.admits state.position
    match ← attemptAll stray (admitted.map Rule.statement) with
    | some lexemes => return (lexemes, state.interpolations)
    | none => code stray profile.templates state.interpolations

end

/-! ## Going back -/

variable (stray : Straying)

theorem run_attempt (p : Pattern) (ahead : List Char) : run (attempt stray p) ahead =
    match p.consume ahead with
    | some m => (some m.lexemes, m.rest)
    | none => (none, stray p ahead) := by
  cases hm : p.consume ahead with
  | none => simp [attempt, hm]
  | some m => simp [attempt, hm]

theorem run_attemptAll (patterns : List Pattern) (ahead : List Char) :
    run (attemptAll stray patterns) ahead =
    match patterns.findSome? (·.consume ahead) with
    | some m => (some m.lexemes, m.rest)
    | none => (none, ahead) := by
  induction patterns with
  | nil => rfl
  | cons p patterns ih =>
    rw [List.findSome?_cons]
    cases hm : p.consume ahead with
    | none => simp [attemptAll, run_attempt, hm, ih]
    | some m => simp [attemptAll, run_attempt, hm]

theorem run_template (interpolations : List Nat) (ahead : List Char) :
    run (template stray interpolations) ahead = (readTemplate interpolations ahead).outcome := by
  unfold readTemplate
  cases hend : Pattern.templateEnd.consume ahead with
  | some m => simp [template, run_attemptAll, hend, Advance.outcome]
  | none =>
    cases hopen : Pattern.templateInterpolation.consume ahead with
    | some m => simp [template, run_attemptAll, hend, hopen, Advance.outcome]
    | none => simp [template, run_attemptAll, hend, hopen, Advance.outcome]

theorem run_code (templates : Bool) (interpolations : List Nat) (c : Char) (rest : List Char) :
    run (code stray templates interpolations)
    (c :: rest) = (readCode templates interpolations c rest).outcome := by
  simp only [code, readCode, run_bind, run_get, run_set]
  split
  · rfl
  split
  · simp [run_template, Advance.behind, Advance.outcome]
  split
  · cases interpolations with
    | nil => rfl
    | cons braces outer => rfl
  split
  · cases interpolations with
    | nil => rfl
    | cons braces outer =>
      cases braces with
      | zero => simp [run_template, Advance.behind, Advance.outcome]
      | succ braces => rfl
  · rfl

/-- A stop with a cursor reads what the stop reads, however far failing patterns stray. -/
theorem run_iterate (profile : Profile) (state : State) (c : Char) (rest : List Char) :
    run (iterate stray profile state) (c :: rest) = (advance profile state c rest).outcome := by
  rw [advance, Pattern.consume_eq_findSome?, readStatement_eq_findSome?]
  cases hhidden : profile.hidden.alternatives.findSome? (·.consume (c :: rest)) with
  | some m => simp [iterate, run_attemptAll, hhidden, Advance.outcome]
  | none =>
    cases hstatement : ((profile.rules.filter fun rule => rule.anchor.admits state.position).map
        Rule.statement).findSome? (·.consume (c :: rest)) with
    | some m => simp [iterate, run_attemptAll, hhidden, hstatement, Advance.outcome]
    | none => simp [iterate, run_attemptAll, hhidden, hstatement, run_code]

end Cursor

end ImportChart
