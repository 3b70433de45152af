import ImportChart.Pattern.Laws

/-!
# What a token is read by

A pattern marks some of its parts as tokens, and each token that it finds is the text read by one of
these parts (`Pattern.readBy_of_mem_lexemes`). So what the texts of the marked parts have in common,
the tokens have as well, and whether all marked parts pass a test is seen from the form of the
pattern (`Pattern.marksOnly`).

One such test is `Pattern.avoids`: no text that the pattern reads holds a given character
(`Pattern.not_mem_text_of_avoids`).

Both are checks on the form of a pattern which say something of each lexeme that it reads. What such
a check has to do at each form is `Pattern.Governs`, and the induction over patterns is made once,
for every check that does it (`Pattern.Governs.forall_mem_lexemes`).
-/

namespace ImportChart

/-- Repeated reading keeps what holds of the lexemes of each reading. -/
theorem forall_mem_readRepeatedly {step : List Char → Option Match} {P : Lexeme → Prop}
    (h : ∀ input m, step input = some m → ∀ lexeme ∈ m.lexemes, P lexeme)
    (bound input : List Char) :
    ∀ lexeme ∈ (readRepeatedly step bound input).lexemes, P lexeme := by
  induction bound generalizing input with
  | nil => exact fun _ hmem => absurd hmem List.not_mem_nil
  | cons _ bound ih =>
    unfold readRepeatedly
    split
    · exact fun _ hmem => absurd hmem List.not_mem_nil
    · next first hfirst =>
      intro lexeme hmem
      rcases List.mem_append.mp hmem with hmem | hmem
      · exact h input first hfirst lexeme hmem
      · exact ih first.rest lexeme hmem

namespace Pattern

/-! ## Checks on the form of a pattern -/

/-- A check on patterns passes from a pattern to the parts that are read in its place, and forces a
property of the lexemes that the other forms read. -/
structure Governs (check : Pattern → Bool) (P : Lexeme → Prop) : Prop where
  char : ∀ {p : Char → Bool} {c : Char}, check (.char p) = true → p c = true → P (.plain c)
  word : ∀ {text : List Char} {c : Char}, check (.word text) = true → c ∈ text → P (.plain c)
  seq : ∀ {p q : Pattern}, check (.seq p q) = true → check p = true ∧ check q = true
  either : ∀ {p q : Pattern}, check (.either p q) = true → check p = true ∧ check q = true
  many : ∀ {p : Pattern}, check (.many p) = true → check p = true
  /-- A check of a token may look at the marked part as a whole, or pass to it. -/
  token : ∀ {p : Pattern} {input : List Char} {m : Match}, check (.token p) = true →
    p.consume input = some m →
    (check p = true → ∀ lexeme ∈ m.lexemes, P lexeme) → P (.token m.text)

/-- Every lexeme that a pattern reads has the property that a check of the pattern forces. -/
theorem Governs.forall_mem_lexemes {check : Pattern → Bool} {P : Lexeme → Prop}
    (governs : Governs check P) {p : Pattern} {input : List Char} {m : Match} (hp : check p = true)
    (h : p.consume input = some m) :
    ∀ lexeme ∈ m.lexemes, P lexeme := by
  induction p generalizing input m with
  | nothing =>
    cases h
    exact fun _ hmem => absurd hmem List.not_mem_nil
  | char p =>
    cases input with
    | nil => cases h
    | cons c rest =>
      simp only [consume] at h
      split at h
      · next hc =>
        cases h
        intro lexeme hmem
        rw [List.mem_singleton.mp hmem]
        exact governs.char hp hc
      · cases h
  | word text =>
    simp only [consume] at h
    split at h
    · cases h
      intro lexeme hmem
      obtain ⟨c, hc, rfl⟩ := List.mem_map.mp hmem
      exact governs.word hp hc
    · cases h
  | notBefore text =>
    simp only [consume] at h
    split at h
    · cases h
    · cases h
      exact fun _ hmem => absurd hmem List.not_mem_nil
  | seq p q ihp ihq =>
    obtain ⟨hpp, hpq⟩ := governs.seq hp
    simp only [consume] at h
    split at h
    · cases h
    · next first hfirst =>
      split at h
      · cases h
      · next second hsecond =>
        cases h
        intro lexeme hmem
        rcases List.mem_append.mp hmem with hmem | hmem
        · exact ihp hpp hfirst lexeme hmem
        · exact ihq hpq hsecond lexeme hmem
  | either p q ihp ihq =>
    obtain ⟨hpp, hpq⟩ := governs.either hp
    simp only [consume] at h
    split at h
    · exact ihq hpq h
    · next hm =>
      cases h
      exact ihp hpp hm
  | many p ih =>
    cases h
    exact forall_mem_readRepeatedly (fun _ _ => ih (governs.many hp)) _ _
  | token p ih =>
    simp only [consume] at h
    split at h
    · cases h
    · next m' hm =>
      cases h
      intro lexeme hmem
      rw [List.mem_singleton.mp hmem]
      exact governs.token hp hm fun hp => ih hp hm

/-! ## The parts that are marked -/

/-- Whether every part of a pattern that is marked as a token passes a test. -/
def marksOnly (test : Pattern → Bool) : Pattern → Bool
  | nothing | char _ | word _ | notBefore _ => true
  | seq p q | either p q => p.marksOnly test && q.marksOnly test
  | many p => p.marksOnly test
  | token p => test p

end Pattern

/-- A lexeme is a character passed over, or a token read by a pattern that passes a test. -/
inductive Lexeme.ReadBy (test : Pattern → Bool) : Lexeme → Prop where
  | plain (c : Char) : ReadBy test (.plain c)
  | token {p : Pattern} {input : List Char} {m : Match} :
      test p = true → p.consume input = some m → ReadBy test (.token m.text)

namespace Pattern

variable {p : Pattern} {input : List Char} {m : Match} {c : Char}

/-- The tokens that a pattern finds are read by parts that it marks. -/
theorem readBy_of_mem_lexemes {test : Pattern → Bool} (hp : p.marksOnly test = true)
    (h : p.consume input = some m) : ∀ lexeme ∈ m.lexemes, lexeme.ReadBy test := by
  have governs : Governs (marksOnly test) (Lexeme.ReadBy test) :=
    { char := fun _ _ => .plain _
      word := fun _ _ => .plain _
      seq := Bool.and_eq_true_iff.mp
      either := Bool.and_eq_true_iff.mp
      many := id
      token := fun hp hm _ => .token hp hm }
  exact governs.forall_mem_lexemes hp h

/-! ## Characters that a pattern does not read -/

/-- Whether a pattern reads no text with a character. The test follows the form of the pattern. -/
def avoids (c : Char) : Pattern → Bool
  | nothing | notBefore _ => true
  | char p => !p c
  | word text => !text.contains c
  | seq p q | either p q => p.avoids c && q.avoids c
  | many p | token p => p.avoids c

/-- What a pattern reads does not hold a character that it avoids. -/
theorem not_mem_text_of_avoids (hp : p.avoids c = true)
    (h : p.consume input = some m) : c ∉ m.text := by
  have not_mem_text : ∀ {m : Match}, (∀ lexeme ∈ m.lexemes, c ∉ lexeme.text) → c ∉ m.text := by
    intro m hm hc
    obtain ⟨lexeme, hlexeme, hc⟩ := List.mem_flatMap.mp hc
    exact hm lexeme hlexeme hc
  have governs : Governs (avoids c) fun lexeme => c ∉ lexeme.text :=
    { char := fun {p d} hp hd hc => by
        obtain rfl := List.mem_singleton.mp hc
        rw [avoids, hd] at hp
        cases hp
      word := fun {text d} hp hd hc => by
        obtain rfl := List.mem_singleton.mp hc
        rw [avoids, List.contains_iff_mem.mpr hd] at hp
        cases hp
      seq := Bool.and_eq_true_iff.mp
      either := Bool.and_eq_true_iff.mp
      many := id
      token := fun hp _ hm => not_mem_text (hm hp) }
  exact not_mem_text (governs.forall_mem_lexemes hp h)

/-- A token read by a pattern that avoids a character does not hold it. -/
theorem not_mem_of_readBy_avoids {text : List Char}
    (h : Lexeme.ReadBy (avoids c) (.token text)) : c ∉ text := by
  cases h with
  | token hp hm => exact not_mem_text_of_avoids hp hm

end Pattern

end ImportChart
