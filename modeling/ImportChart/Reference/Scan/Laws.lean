import ImportChart.Pattern.Laws
import ImportChart.Reference.Scan

/-!
# Laws of scanning

One step of a scan splits the text before it: what it read followed by what it left is the text
given (`Scan.text_advance`), and it leaves less than it was given (`Scan.rest_length_lt`). So the
walk of a text reads all of it (`Scan.text_stops`), and every stop stands where the text read before
it ends (`Scan.position_of_mem_stops`), however that text was cut into pieces.
-/

namespace ImportChart.Scan

@[simp] theorem text_behind (c : Char) (read : Advance) : (read.behind c).text = c :: read.text :=
  rfl

@[simp] theorem rest_behind (c : Char) (read : Advance) : (read.behind c).rest = read.rest := rfl

/-! ## One step -/

/-- Template text and what follows it are the text given. -/
theorem text_readTemplate (interpolations : List Nat) (input : List Char) :
    (readTemplate interpolations input).text ++
      (readTemplate interpolations input).rest = input := by
  unfold readTemplate
  split
  · next m hm => exact Pattern.text_append_rest hm
  · split
    · next m hm => exact Pattern.text_append_rest hm
    · rfl

/-- A character of code, the template text after it and what follows are the text given. -/
theorem text_readCode (templates : Bool) (interpolations : List Nat) (c : Char) (rest : List Char) :
    (readCode templates interpolations c rest).text ++
      (readCode templates interpolations c rest).rest =
      c :: rest := by
  unfold readCode
  split
  · rfl
  split
  · simpa using text_readTemplate interpolations rest
  split
  · rfl
  split
  · split
    · rfl
    · simpa using text_readTemplate _ rest
    · rfl
  · rfl

/-- A statement is read by a pattern of one of the rules that may start there. -/
theorem exists_rule_of_readStatement {rules : List Rule} {position : Position}
    {input : List Char} {m : Match} (h : readStatement rules position input = some m) :
    ∃ rule ∈ rules, rule.anchor.admits position = true ∧ rule.statement.consume input = some m := by
  obtain ⟨rule, hrule, hm⟩ := List.exists_of_findSome?_eq_some h
  split at hm
  · next ha => exact ⟨rule, hrule, ha, hm⟩
  · cases hm

/-- What a step read and what it left are the text given. -/
theorem text_advance (profile : Profile) (state : State) (c : Char) (rest : List Char) :
    (advance profile state c rest).text ++ (advance profile state c rest).rest = c :: rest := by
  unfold advance
  split
  · next m hm => exact Pattern.text_append_rest hm
  · split
    · next m hm =>
      obtain ⟨rule, _, _, hc⟩ := exists_rule_of_readStatement hm
      exact Pattern.text_append_rest hc
    · exact text_readCode _ _ _ _

/-- Template text leaves no more than was given. -/
theorem rest_readTemplate_length_le (interpolations : List Nat) (input : List Char) :
    (readTemplate interpolations input).rest.length ≤ input.length := by
  conv => rhs; rw [← text_readTemplate interpolations input]
  rw [List.length_append]
  exact Nat.le_add_left _ _

/-- Code is read at least one character at a time. -/
theorem rest_readCode_length_le (templates : Bool) (interpolations : List Nat) (c : Char)
    (rest : List Char) :
    (readCode templates interpolations c rest).rest.length ≤ rest.length := by
  unfold readCode
  split
  · exact Nat.le_refl _
  split
  · exact rest_readTemplate_length_le _ _
  split
  · exact Nat.le_refl _
  split
  · split
    · exact Nat.le_refl _
    · exact rest_readTemplate_length_le _ _
    · exact Nat.le_refl _
  · exact Nat.le_refl _

/-- A step leaves less than it was given. -/
theorem rest_length_lt (language : Language) (state : State) (c : Char) (rest : List Char) :
    (advance language.profile state c rest).rest.length < (c :: rest).length := by
  obtain ⟨hhidden, hrules⟩ := language.patterns_productive
  unfold advance
  split
  · next m hm => exact Pattern.rest_length_lt (Bool.and_eq_true_iff.mp hhidden).1 hm
  · split
    · next m hm =>
      obtain ⟨rule, hrule, _, hc⟩ := exists_rule_of_readStatement hm
      exact Pattern.rest_length_lt (Bool.and_eq_true_iff.mp (hrules rule hrule)).1 hc
    · exact Nat.lt_succ_of_le (rest_readCode_length_le _ _ _ _)

/-! ## The whole walk -/

/-- The text read at a list of stops. -/
def textOfStops (stops : List Stop) : List Char :=
  stops.flatMap fun stop => stop.read.text

/-- A walk that is long enough reads the whole text. -/
theorem text_walk (language : Language) (limit : Nat) (state : State) (input : List Char)
    (h : input.length ≤ limit) : textOfStops (walk language.profile limit state input) = input := by
  induction limit generalizing state input with
  | zero =>
    obtain rfl := List.eq_nil_of_length_eq_zero (Nat.le_zero.mp h)
    rfl
  | succ limit ih =>
    cases input with
    | nil => rfl
    | cons c rest =>
      have hlt := rest_length_lt language state c rest
      have hwalk := ih (state.after (advance language.profile state c rest))
        (advance language.profile state c rest).rest (by omega)
      simp only [walk, textOfStops, List.flatMap_cons] at hwalk ⊢
      rw [hwalk]
      exact text_advance _ _ _ _

/-- A scan reads the whole text. -/
theorem text_stops (language : Language) (input : List Char) :
    textOfStops (stops language.profile input) = input :=
  text_walk language input.length .start input (Nat.le_refl _)

/-- Each stop of a walk stands where the text read before it ends. -/
theorem position_of_mem_walk (profile : Profile) (limit : Nat) (state : State) (input : List Char)
    {before after : List Stop} {stop : Stop}
    (h : walk profile limit state input = before ++ stop :: after) :
    stop.state.position = state.position.afterText (textOfStops before) := by
  induction limit generalizing state input before with
  | zero => simp [walk] at h
  | succ limit ih =>
    cases input with
    | nil => simp [walk] at h
    | cons c rest =>
      cases before with
      | nil =>
        simp only [walk, List.nil_append, List.cons.injEq] at h
        obtain ⟨rfl, _⟩ := h
        rfl
      | cons first before =>
        simp only [walk, List.cons_append, List.cons.injEq] at h
        obtain ⟨rfl, hrest⟩ := h
        rw [ih _ _ hrest]
        simp only [textOfStops, List.flatMap_cons, State.after, Position.afterText_append]

/-- Each stop of a scan stands where the text read before it ends. -/
theorem position_of_mem_stops (profile : Profile) (input : List Char)
    {before after : List Stop} {stop : Stop} (h : stops profile input = before ++ stop :: after) :
    stop.state.position = Position.start.afterText (textOfStops before) :=
  position_of_mem_walk profile input.length .start input h

/-- What a walk that is long enough reads at a stop is what a step reads of the text ahead of it. -/
theorem read_of_mem_walk (language : Language) (limit : Nat) (state : State) (input : List Char)
    (hlimit : input.length ≤ limit) {before after : List Stop} {stop : Stop}
    (h : walk language.profile limit state input = before ++ stop :: after) :
    ∃ c rest, textOfStops (stop :: after) = c :: rest ∧
      stop.read = advance language.profile stop.state c rest := by
  induction limit generalizing state input before with
  | zero => simp [walk] at h
  | succ limit ih =>
    cases input with
    | nil => simp [walk] at h
    | cons c rest =>
      cases before with
      | nil =>
        have htext := text_walk language (limit + 1) state (c :: rest) hlimit
        rw [h, List.nil_append] at htext
        simp only [walk, List.nil_append, List.cons.injEq] at h
        obtain ⟨rfl, _⟩ := h
        exact ⟨c, rest, htext, rfl⟩
      | cons first before =>
        have hlt := rest_length_lt language state c rest
        simp only [walk, List.cons_append, List.cons.injEq] at h
        exact ih _ _ (by omega) h.2

/-- What a scan reads at a stop is what a step reads of the text ahead of it. -/
theorem read_of_mem_stops (language : Language) (input : List Char)
    {before after : List Stop} {stop : Stop}
    (h : stops language.profile input = before ++ stop :: after) :
    ∃ c rest, textOfStops (stop :: after) = c :: rest ∧
      stop.read = advance language.profile stop.state c rest :=
  read_of_mem_walk language input.length .start input (Nat.le_refl _) h

end ImportChart.Scan
