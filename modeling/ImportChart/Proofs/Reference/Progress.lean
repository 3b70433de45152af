import ImportChart.Proofs.Language.Javascript.OpenTemplate
import ImportChart.Proofs.Reference.Cursor

/-!
# Progress of a scan

A scan gets to the end of every text, from every state, whatever interpolations it is inside of and
however malformed the text is. `Cursor.Scans` is the loop of a scan with a cursor, without a bound
on its turns; it collects the slices of the text between the stops.

Three things could keep the loop from ending, and `Scan.Progresses` rules out each of them. A
pattern, or one that it repeats, could match without reading
(`Language.rest_length_lt_of_mem_patterns`); this is a property of the patterns of the five
languages, so it is decided. A pattern that fails could leave the cursor elsewhere, which going back
prevents (`Cursor.run_attemptAll`). And template text could be taken up and never end, also behind a
brace that has closed an interpolation already; then it is left to be read as code
(`Javascript.readTemplate_eq_iff`).

So the loop ends, in one way only, and its turns are the stops that `Scan.walk` finds within the
length of the text (`Cursor.scans_iff`).
-/

namespace ImportChart

open Scan

/-! ## What a scan tries -/

/-- The patterns that a pattern repeats, at any depth. -/
def Pattern.repeated : Pattern → List Pattern
  | nothing | char _ | word _ | notBefore _ => []
  | seq p q | either p q => p.repeated ++ q.repeated
  | many p => p :: p.repeated
  | token p => p.repeated

theorem Pattern.isProductive_of_mem_repeated {p part : Pattern} (hp : p.hasProductiveLoops = true)
    (h : part ∈ p.repeated) : part.isProductive = true := by
  induction p with
  | nothing | char _ | word _ | notBefore _ => cases h
  | seq p q ihp ihq | either p q ihp ihq =>
    obtain ⟨hpp, hpq⟩ := Bool.and_eq_true_iff.mp hp
    rcases List.mem_append.mp h with h | h
    · exact ihp hpp h
    · exact ihq hpq h
  | many p ih =>
    obtain ⟨hproductive, hloops⟩ := Bool.and_eq_true_iff.mp hp
    rcases List.mem_cons.mp h with rfl | h
    · exact hproductive
    · exact ih hloops h
  | token p ih => exact ih hp h

/-- The patterns that a scan tries: those of hidden text, of statements and of template text. -/
def Profile.patterns (profile : Profile) : List Pattern :=
  profile.hidden.alternatives ++ profile.rules.map Rule.statement ++
    [Pattern.templateEnd, Pattern.templateInterpolation]

theorem Language.isProductive_of_mem_patterns (language : Language) :
    ∀ p ∈ language.profile.patterns, p.isProductive = true ∧ p.hasProductiveLoops = true := by
  cases language with
  | javascript => decide
  | python => decide
  | cpp => decide
  | java => decide
  | go => decide

/-- Whatever a scan tries reads something where it matches, and so does each turn of a repetition in
it. -/
theorem Language.rest_length_lt_of_mem_patterns (language : Language) {p part : Pattern}
    (hp : p ∈ language.profile.patterns) (hpart : part ∈ p :: p.repeated)
    {input : List Char} {m : Match} (h : part.consume input = some m) :
    m.rest.length < input.length := by
  obtain ⟨hproductive, hloops⟩ := language.isProductive_of_mem_patterns p hp
  rcases List.mem_cons.mp hpart with rfl | hpart
  · exact Pattern.rest_length_lt hproductive h
  · exact Pattern.rest_length_lt (Pattern.isProductive_of_mem_repeated hloops hpart) h

/-! ## The loop -/

namespace Cursor

/-- A scan with a cursor, from a state to the end of the text ahead. It gives the slices of the text
between its stops and the state in which it ends. -/
inductive Scans (stray : Straying) (profile : Profile) :
    State → List Char → List (List Char) → State → Prop where
  | done (state : State) : Scans stray profile state [] [] state
  | turn {state final : State} {c : Char} {rest slice left : List Char} {lexemes : List Lexeme}
      {interpolations : List Nat} {slices : List (List Char)} :
      run (iterate stray profile state) (c :: rest) = ((lexemes, interpolations), left) →
      slice ++ left = c :: rest →
      Scans stray profile ⟨state.position.afterText slice, interpolations⟩ left slices final →
      Scans stray profile state (c :: rest) (slice :: slices) final

variable {stray : Straying} {profile : Profile} {state final : State} {input : List Char}
  {slices : List (List Char)}

theorem Scans.flatten_eq (h : Scans stray profile state input slices final) :
    slices.flatten = input := by
  induction h with
  | done => rfl
  | turn _ hslice _ ih => rw [List.flatten_cons, ih, hslice]

/-- A scan can end in one way only. -/
theorem Scans.unique {slices' : List (List Char)} {final' : State}
    (h : Scans stray profile state input slices final)
    (h' : Scans stray profile state input slices' final') : slices = slices' ∧ final = final' := by
  induction h generalizing slices' final' with
  | done =>
    cases h'
    exact ⟨rfl, rfl⟩
  | turn hrun hslice _ ih =>
    cases h' with
    | turn hrun' hslice' hmore' =>
      obtain ⟨hread, rfl⟩ := Prod.ext_iff.mp (hrun.symm.trans hrun')
      obtain ⟨-, rfl⟩ := Prod.ext_iff.mp hread
      obtain rfl := List.append_cancel_right (hslice.trans hslice'.symm)
      obtain ⟨rfl, rfl⟩ := ih hmore'
      exact ⟨rfl, rfl⟩

/-- A walk that is long enough is a scan to the end of the text. -/
theorem scans_walk (stray : Straying) (language : Language) (limit : Nat)
    (state : State) (input : List Char) (hlimit : input.length ≤ limit) :
    Scans stray language.profile state input
      ((walk language.profile limit state input).map fun stop => stop.read.text)
      (finalState (walk language.profile limit state input) state) := by
  -- the limit suffices behind each stop too, since the stop leaves a shorter text
  induction limit generalizing state input with
  | zero =>
    obtain rfl := List.eq_nil_of_length_eq_zero (Nat.le_zero.mp hlimit)
    exact .done state
  | succ limit ih =>
    cases input with
    | nil => exact .done state
    | cons c rest =>
      have hshorter := rest_length_lt language state c rest
      exact .turn (run_iterate stray language.profile state c rest)
        (text_advance _ _ _ _) (ih _ _ (by omega))

/-- A scan ends exactly as its stops say. -/
theorem scans_iff {language : Language} : Scans stray language.profile state input slices final ↔
    slices = (stopsFrom language.profile state input).map (fun stop => stop.read.text) ∧
      final = finalState (stopsFrom language.profile state input) state := by
  have hwalk := scans_walk stray language input.length state input (Nat.le_refl _)
  constructor
  · intro h
    exact h.unique hwalk
  · rintro ⟨rfl, rfl⟩
    exact hwalk

end Cursor

/-! ## Open templates -/

/-- Open template text stays ahead of the character that leads into it. -/
theorem Scan.rest_readCode_of_meetsEnd (templates : Bool) (interpolations : List Nat)
    (c : Char) {rest : List Char} (h : Javascript.meetsEnd rest = false) :
    (readCode templates interpolations c rest).rest = rest := by
  have hopen : ∀ outer, readTemplate outer rest = ⟨[], rest, outer⟩ :=
    fun _ => Javascript.readTemplate_eq_iff.mpr h
  simp only [readCode, hopen]
  split
  · rfl
  split
  · rfl
  split
  · rfl
  split
  · split <;> rfl
  · rfl

-- a brace closes its interpolation also if the template text behind it is open
example : readCode true [0, 1] '}' ['x'] = ⟨[.plain '}'], ['x'], [1]⟩ := by decide

/-! ## Progress -/

open Cursor in
/-- A scan gets on from a state, wherever the patterns that fail leave its cursor. -/
structure Scan.Progresses (stray : Straying) (profile : Profile) (state : State) : Prop where
  /-- What is tried reads something where it matches, and so does each turn of a repetition in
  it. -/
  consumes : ∀ p ∈ profile.patterns, ∀ part ∈ p :: p.repeated, ∀ input m,
    part.consume input = some m →
    m.rest.length < input.length
  /-- Patterns tried in turn are all tried at one place, and the cursor is back there if none of
  them matches. -/
  goesBack : ∀ patterns input, run (attemptAll stray patterns) input =
    match patterns.findSome? (·.consume input) with
    | some m => (some m.lexemes, m.rest)
    | none => (none, input)
  /-- Template text is left as it is exactly if it comes to neither a backtick nor an
  interpolation. -/
  leavesOpen : ∀ interpolations input,
    run (template stray interpolations) input = (([], interpolations), input) ↔
    Javascript.meetsEnd input = false
  /-- Then only the character before it is read. -/
  passesOpen : ∀ c rest, Javascript.meetsEnd rest = false →
    (run (code stray profile.templates state.interpolations) (c :: rest)).2 = rest
  /-- A turn of the loop is a stop of the scan. -/
  iterates :
    ∀ c rest, run (iterate stray profile state) (c :: rest) = (advance profile state c rest).outcome
  /-- It leaves less text ahead. -/
  shortens : ∀ c rest, (run (iterate stray profile state) (c :: rest)).2.length < (c :: rest).length
  /-- The loop ends. -/
  ends : ∀ input, ∃ slices final, Scans stray profile state input slices final
  /-- The slices between its stops are the text, cut as the walk cuts it. -/
  covers : ∀ input slices final, Scans stray profile state input slices final →
    slices.flatten = input ∧ slices = (stopsFrom profile state input).map fun stop => stop.read.text

/-- **A scan progresses.** In every language, from every state, each turn shortens the text, what
fails leaves the cursor where it was, open template text is not read, and the loop ends with the
whole text read. -/
theorem Language.scan_progresses (language : Language) (stray : Cursor.Straying) (state : State) :
    Scan.Progresses stray language.profile state where
  consumes p hp part hpart input m h := language.rest_length_lt_of_mem_patterns hp hpart h
  goesBack := Cursor.run_attemptAll stray
  leavesOpen interpolations input := by
    rw [Cursor.run_template]
    exact (Advance.outcome_inj ⟨[], input, interpolations⟩).trans Javascript.readTemplate_eq_iff
  passesOpen c rest h := by
    rw [Cursor.run_code]
    exact rest_readCode_of_meetsEnd _ _ c h
  iterates := Cursor.run_iterate stray language.profile state
  shortens c rest := by
    rw [Cursor.run_iterate]
    exact rest_length_lt language state c rest
  ends input := ⟨_, _, Cursor.scans_iff.mpr ⟨rfl, rfl⟩⟩
  covers input slices final h := ⟨h.flatten_eq, (Cursor.scans_iff.mp h).1⟩

end ImportChart
