import ImportChart.Pattern.Laws

/-!
# What a pattern reads

`Pattern.Reads p text tokens rest` says that a pattern reads a text and finds the given tokens in
it, where a given rest follows; `Pattern.Refuses p input` says that it does not match at all. There
is a rule of either kind for each form of pattern, so that a reading is put together in the shape of
its pattern. The rest is there from the start: a choice or a repetition may look beyond the text
that it reads, and a judgement about the text alone would not compose. In the other direction a
reading by a form is taken apart into readings by its parts (`Pattern.reads_seq_iff` and the like),
so that what has been read is known from the pattern.

Most refusals are decided by the first character. `Pattern.starts` says which characters a reading
of at least one character may start with, by the form of the pattern, and a productive pattern
refuses what starts with another (`Pattern.refuses_of_starts`).
-/

namespace ImportChart

/-- The token of a lexeme. -/
def Lexeme.token? : Lexeme → Option (List Char)
  | .plain _ => none
  | .token text => some text

/-- The tokens among lexemes. -/
def tokensOf (lexemes : List Lexeme) : List (List Char) :=
  lexemes.filterMap Lexeme.token?

@[simp] theorem tokensOf_nil : tokensOf [] = [] := rfl

@[simp] theorem tokensOf_plain_cons (c : Char) (rest : List Lexeme) :
    tokensOf (.plain c :: rest) = tokensOf rest := rfl

@[simp] theorem tokensOf_append (xs ys : List Lexeme) :
    tokensOf (xs ++ ys) = tokensOf xs ++ tokensOf ys :=
  List.filterMap_append

@[simp] theorem tokensOf_plain (text : List Char) : tokensOf (text.map .plain) = [] := by
  induction text with
  | nil => rfl
  | cons c cs ih => exact ih

/-- No character of a class stands at the start of a text. -/
def StopsAt (p : Char → Bool) (input : List Char) : Prop :=
  ∀ c ∈ input.head?, p c = false

theorem stopsAt_nil (p : Char → Bool) : StopsAt p [] :=
  fun _ hc => by cases hc

@[simp] theorem stopsAt_cons {p : Char → Bool} {c : Char} {rest : List Char} :
    StopsAt p (c :: rest) ↔ p c = false := by
  simp [StopsAt]

/-- A word of a class does not reach into a rest that stops the class. -/
theorem StopsAt.prefix_of_append {p : Char → Bool} {word text rest : List Char}
    (hrest : StopsAt p rest) (hword : ∀ c ∈ word, p c = true) (h : word <+: text ++ rest) :
    word <+: text := by
  induction word generalizing text with
  | nil => exact List.nil_prefix
  | cons c word ih =>
    cases text with
    | nil =>
      obtain ⟨after, rfl⟩ := h
      have hc := stopsAt_cons.mp hrest
      rw [hword c List.mem_cons_self] at hc
      cases hc
    | cons d text =>
      obtain ⟨rfl, hprefix⟩ := List.cons_prefix_cons.mp h
      exact List.cons_prefix_cons.mpr ⟨rfl,
        ih (fun d hd => hword d (List.mem_cons_of_mem c hd)) hprefix⟩

namespace Pattern

/-- A pattern reads a text with the given tokens, where a rest follows. -/
def Reads (p : Pattern) (text : List Char) (tokens : List (List Char)) (rest : List Char) : Prop :=
  ∃ lexemes, p.consume (text ++ rest) = some ⟨lexemes, rest⟩ ∧ tokensOf lexemes = tokens

/-- A pattern does not match. -/
def Refuses (p : Pattern) (input : List Char) : Prop :=
  p.consume input = none

variable {p q : Pattern} {text more rest input : List Char} {tokens others : List (List Char)}

/-- The lexemes of a reading hold the text read. -/
theorem Reads.exists_lexemes (h : p.Reads text tokens rest) :
    ∃ lexemes, p.consume (text ++ rest) = some ⟨lexemes, rest⟩ ∧ tokensOf lexemes = tokens ∧
      textOf lexemes = text := by
  obtain ⟨lexemes, hconsume, htokens⟩ := h
  have htext : textOf lexemes ++ rest = text ++ rest := text_append_rest hconsume
  exact ⟨lexemes, hconsume, htokens, List.append_cancel_right htext⟩

/-! ## Readings -/

theorem reads_nothing (rest : List Char) : nothing.Reads [] [] rest :=
  ⟨[], rfl, rfl⟩

theorem reads_char {class' : Char → Bool} {c : Char} (h : class' c = true) (rest : List Char) :
    (char class').Reads [c] [] rest :=
  ⟨[.plain c], if_pos h, rfl⟩

theorem reads_only (c : Char) (rest : List Char) : (only c).Reads [c] [] rest :=
  reads_char (decide_eq_true rfl) rest

theorem reads_word (text rest : List Char) : (word text).Reads text [] rest := by
  refine ⟨text.map .plain, ?_, tokensOf_plain text⟩
  have hprefix : text.isPrefixOf (text ++ rest) = true :=
    List.isPrefixOf_iff_prefix.mpr (List.prefix_append text rest)
  rw [consume, if_pos hprefix, List.drop_left]

theorem reads_keyword (text : String) (rest : List Char) :
    (keyword text).Reads text.toList [] rest :=
  reads_word text.toList rest

theorem Reads.seq (hp : p.Reads text tokens (more ++ rest)) (hq : q.Reads more others rest) :
    (p ++ q).Reads (text ++ more) (tokens ++ others) rest := by
  obtain ⟨first, hfirst, rfl⟩ := hp
  obtain ⟨second, hsecond, rfl⟩ := hq
  refine ⟨first ++ second, ?_, tokensOf_append first second⟩
  simp only [append_eq, consume, List.append_assoc, hfirst, hsecond]

theorem Reads.left (h : p.Reads text tokens rest) (q : Pattern) :
    (p <|> q).Reads text tokens rest := by
  obtain ⟨lexemes, hconsume, htokens⟩ := h
  refine ⟨lexemes, ?_, htokens⟩
  simp only [orElse_eq, consume, hconsume]

theorem Reads.right (h : q.Reads text tokens rest) (hp : p.Refuses (text ++ rest)) :
    (p <|> q).Reads text tokens rest := by
  obtain ⟨lexemes, hconsume, htokens⟩ := h
  refine ⟨lexemes, ?_, htokens⟩
  rw [Refuses] at hp
  simp only [orElse_eq, consume, hp, hconsume]

theorem Reads.optional (h : p.Reads text tokens rest) : (optional p).Reads text tokens rest :=
  h.left nothing

theorem Refuses.optional (h : p.Refuses rest) : (optional p).Reads [] [] rest :=
  (reads_nothing rest).right h

theorem Reads.token (h : p.Reads text tokens rest) : (token p).Reads text [text] rest := by
  obtain ⟨lexemes, hconsume, -, htext⟩ := h.exists_lexemes
  refine ⟨[.token text], ?_, rfl⟩
  simp only [consume, hconsume, Match.text, htext]

theorem Refuses.many (h : p.Refuses rest) (hp : p.isProductive = true) :
    (many p).Reads [] [] rest := by
  refine ⟨[], ?_, rfl⟩
  rw [Refuses] at h
  rw [List.nil_append, consume_many hp, h]

theorem Reads.many (h : p.Reads text tokens (more ++ rest))
    (hmore : (many p).Reads more others rest) (hp : p.isProductive = true) :
    (many p).Reads (text ++ more) (tokens ++ others) rest := by
  obtain ⟨first, hfirst, rfl⟩ := h
  obtain ⟨second, hsecond, rfl⟩ := hmore
  refine ⟨first ++ second, ?_, tokensOf_append first second⟩
  rw [consume_many hp, List.append_assoc, hfirst]
  simp only [hsecond, Option.map_some]

theorem Reads.atLeastOnce (h : p.Reads text tokens (more ++ rest))
    (hmore : (Pattern.many p).Reads more others rest) :
    (atLeastOnce p).Reads (text ++ more) (tokens ++ others) rest :=
  h.seq hmore

theorem refuses_char {class' : Char → Bool} (h : StopsAt class' input) :
    (char class').Refuses input := by
  cases input with
  | nil => rfl
  | cons c cs =>
    rw [stopsAt_cons] at h
    simp [Refuses, consume, h]

/-- The characters of a class are read as far as they go. -/
theorem reads_chars {class' : Char → Bool} (h : ∀ c ∈ text, class' c = true)
    (hrest : StopsAt class' rest) :
    (chars class').Reads text [] rest := by
  induction text with
  | nil => exact (refuses_char hrest).many rfl
  | cons c cs ih =>
    have hc := reads_char (h c List.mem_cons_self) (cs ++ rest)
    exact hc.many (ih fun d hd => h d (List.mem_cons_of_mem c hd)) rfl

theorem reads_someChars {class' : Char → Bool} (h : ∀ c ∈ text, class' c = true) (hne : text ≠ [])
    (hrest : StopsAt class' rest) : (someChars class').Reads text [] rest := by
  obtain ⟨c, cs, rfl⟩ := List.exists_cons_of_ne_nil hne
  have hc := reads_char (h c List.mem_cons_self) (cs ++ rest)
  exact hc.atLeastOnce (reads_chars (fun d hd => h d (List.mem_cons_of_mem c hd)) hrest)

/-! ## Refusals -/

theorem Refuses.seq (h : p.Refuses input) (q : Pattern) : (p ++ q).Refuses input := by
  rw [Refuses] at h
  simp only [Refuses, append_eq, consume, h]

theorem Reads.seq_refuses (h : p.Reads text tokens rest) (hq : q.Refuses rest) :
    (p ++ q).Refuses (text ++ rest) := by
  obtain ⟨lexemes, hconsume, -⟩ := h
  rw [Refuses] at hq
  simp only [Refuses, append_eq, consume, hconsume, hq]

theorem Refuses.either (hp : p.Refuses input) (hq : q.Refuses input) : (p <|> q).Refuses input := by
  rw [Refuses] at hp hq
  simp only [Refuses, orElse_eq, consume, hp, hq]

/-- A refusal does not depend on how a sequence is put together. -/
theorem refuses_seq_assoc {r : Pattern} :
    (p ++ (q ++ r)).Refuses input ↔ (p ++ q ++ r).Refuses input := by
  simp only [Refuses, append_eq, consume]
  cases p.consume input with
  | none => rfl
  | some first =>
    cases hq : q.consume first.rest with
    | none => simp [hq]
    | some second => cases hr : r.consume second.rest <;> simp [hq, hr]

/-- What is left behind the characters of a class stops the class. -/
theorem stopsAt_dropWhile (class' : Char → Bool) (input : List Char) :
    StopsAt class' (input.dropWhile class') := by
  intro c hc
  have hhead := List.head?_dropWhile_not class' input
  rw [Option.mem_def.mp hc] at hhead
  exact hhead

/-- A pattern is refused behind the characters of a class if it is refused where they end. -/
theorem Refuses.chars_seq {class' : Char → Bool} (h : q.Refuses (input.dropWhile class')) :
    (chars class' ++ q).Refuses input := by
  have hall : ∀ c ∈ input.takeWhile class', class' c = true :=
    List.all_eq_true.mp List.all_takeWhile
  have hchars := reads_chars hall (stopsAt_dropWhile class' input)
  have hseq := hchars.seq_refuses h
  rw [List.takeWhile_append_dropWhile] at hseq
  exact hseq

theorem Refuses.someChars_seq {class' : Char → Bool} (h : q.Refuses (input.dropWhile class')) :
    (someChars class' ++ q).Refuses input := by
  cases input with
  | nil => exact (Refuses.seq (refuses_char (stopsAt_nil class')) _).seq q
  | cons c cs =>
    cases hc : class' c with
    | false => exact (Refuses.seq (refuses_char (stopsAt_cons.mpr hc)) _).seq q
    | true =>
      rw [List.dropWhile_cons_of_pos hc] at h
      have hseq := (reads_char hc cs).seq_refuses h.chars_seq
      exact refuses_seq_assoc.mp hseq

theorem refuses_word (h : ¬ text <+: input) : (word text).Refuses input :=
  if_neg fun hprefix => h (List.isPrefixOf_iff_prefix.mp hprefix)

/-- The characters that a reading of at least one character may start with. -/
def starts : Pattern → Char → Bool
  | nothing, _ | notBefore _, _ => false
  | char p, c => p c
  | word text, c => text.head?.any fun d => decide (d = c)
  | seq p q, c => p.starts c || (!p.isProductive && q.starts c)
  | either p q, c => p.starts c || q.starts c
  | many p, c => p.starts c
  | token p, c => p.starts c

/-- Repeated reading reads nothing where one reading reads nothing. -/
theorem rest_readRepeatedly_of_fixed {step : List Char → Option Match}
    (h : ∀ m, step input = some m → m.rest = input) (bound : List Char) :
    (readRepeatedly step bound input).rest = input := by
  induction bound with
  | nil => rfl
  | cons _ bound ih =>
    unfold readRepeatedly
    split
    · rfl
    · next first hfirst =>
      rw [h first hfirst]
      exact ih

/-- A pattern reads nothing of a text that starts with a character which it does not start with. -/
theorem rest_eq_of_starts {c : Char} {cs : List Char} {m : Match} (hs : p.starts c = false)
    (h : p.consume (c :: cs) = some m) : m.rest = c :: cs := by
  induction p generalizing m with
  | nothing => cases h; rfl
  | char p =>
    simp only [consume, starts] at h hs
    simp [hs] at h
  | word text =>
    cases text with
    | nil => cases h; rfl
    | cons d text =>
      have hd : d ≠ c := by simpa [starts] using hs
      simp [consume, hd] at h
  | notBefore text =>
    simp only [consume] at h
    split at h
    · cases h
    · cases h; rfl
  | seq p q ihp ihq =>
    rw [starts, Bool.or_eq_false_iff, Bool.and_eq_false_iff] at hs
    simp only [consume] at h
    split at h
    · cases h
    · next first hfirst =>
      have hrest := ihp hs.1 hfirst
      split at h
      · cases h
      · next second hsecond =>
        cases h
        have hp : p.isProductive ≠ true := by
          intro hp
          have hlt := rest_length_lt hp hfirst
          rw [hrest] at hlt
          exact Nat.lt_irrefl _ hlt
        rw [hrest] at hsecond
        have hq : q.starts c = false := hs.2.resolve_left (by simp [hp])
        exact @ihq second hq hsecond
  | either p q ihp ihq =>
    rw [starts, Bool.or_eq_false_iff] at hs
    simp only [consume] at h
    split at h
    · exact ihq hs.2 h
    · next hm =>
      cases h
      exact ihp hs.1 hm
  | many p ih =>
    cases h
    exact rest_readRepeatedly_of_fixed (fun _ hm => ih hs hm) _
  | token p ih =>
    simp only [consume] at h
    split at h
    · cases h
    · next m' hm =>
      cases h
      exact @ih m' hs hm

/-- A productive pattern refuses a text that starts with a character which it does not start
with. -/
theorem refuses_of_starts {c : Char} {cs : List Char} (hp : p.isProductive = true)
    (hs : p.starts c = false) :
    p.Refuses (c :: cs) := by
  cases hm : p.consume (c :: cs) with
  | none => exact hm
  | some m =>
    have hlt := rest_length_lt hp hm
    rw [rest_eq_of_starts hs hm] at hlt
    exact absurd hlt (Nat.lt_irrefl _)

/-- A productive pattern refuses a text that stops what it starts with. -/
theorem refuses_of_stopsAt (hp : p.isProductive = true) (h : StopsAt p.starts input) :
    p.Refuses input := by
  cases input with
  | nil =>
    cases hm : p.consume [] with
    | none => exact hm
    | some m => exact absurd (rest_length_lt hp hm) (Nat.not_lt_zero _)
  | cons c cs => exact refuses_of_starts hp (stopsAt_cons.mp h)

/-! ## Readings taken apart -/

/-- What a pattern consumes is a reading of the text before the rest. -/
theorem reads_of_consume {m : Match} (h : p.consume input = some m) :
    input = m.text ++ m.rest ∧ p.Reads m.text (tokensOf m.lexemes) m.rest := by
  have htext := text_append_rest h
  refine ⟨htext.symm, m.lexemes, ?_, rfl⟩
  rw [htext]
  exact h

/-- A pattern reads a text in one way. -/
theorem Reads.unique {text' rest' : List Char} {tokens' : List (List Char)}
    (h : p.Reads text tokens rest) (h' : p.Reads text' tokens' rest')
    (hinput : text ++ rest = text' ++ rest') :
    text = text' ∧ tokens = tokens' ∧ rest = rest' := by
  obtain ⟨lexemes, hconsume, rfl⟩ := h
  obtain ⟨lexemes', hconsume', rfl⟩ := h'
  rw [hinput, hconsume', Option.some.injEq, Match.mk.injEq] at hconsume
  obtain ⟨rfl, rfl⟩ := hconsume
  exact ⟨List.append_cancel_right hinput, rfl, rfl⟩

theorem Reads.not_refuses (h : p.Reads text tokens rest) : ¬ p.Refuses (text ++ rest) := by
  obtain ⟨lexemes, hconsume, -⟩ := h
  rw [Refuses, hconsume]
  exact Option.some_ne_none _

theorem reads_seq_iff : (p ++ q).Reads text tokens rest ↔ ∃ first second found others,
    text = first ++ second ∧ tokens = found ++ others ∧ p.Reads first found (second ++ rest) ∧
      q.Reads second others rest := by
  constructor
  · rintro ⟨lexemes, hconsume, rfl⟩
    simp only [append_eq, consume] at hconsume
    split at hconsume
    · cases hconsume
    · next first hfirst =>
      split at hconsume
      · cases hconsume
      · next second hsecond =>
        obtain ⟨rfl, rfl⟩ := Match.mk.inj (Option.some.inj hconsume)
        obtain ⟨hinput, hp⟩ := reads_of_consume hfirst
        obtain ⟨hrest, hq⟩ := reads_of_consume hsecond
        rw [hrest] at hinput hp
        rw [← List.append_assoc] at hinput
        exact ⟨first.text, second.text, _, _, List.append_cancel_right hinput,
          tokensOf_append _ _, hp, hq⟩
  · rintro ⟨first, second, found, others, rfl, rfl, hp, hq⟩
    exact hp.seq hq

theorem reads_either_iff : (p <|> q).Reads text tokens rest ↔
    p.Reads text tokens rest ∨ p.Refuses (text ++ rest) ∧ q.Reads text tokens rest := by
  constructor
  · rintro ⟨lexemes, hconsume, rfl⟩
    simp only [orElse_eq, consume] at hconsume
    split at hconsume
    · next hp => exact .inr ⟨hp, lexemes, hconsume, rfl⟩
    · next m hp =>
      obtain rfl := Option.some.inj hconsume
      exact .inl ⟨lexemes, hp, rfl⟩
  · rintro (hp | ⟨hp, hq⟩)
    · exact hp.left q
    · exact hq.right hp

theorem reads_nothing_iff : nothing.Reads text tokens rest ↔ text = [] ∧ tokens = [] := by
  constructor
  · intro h
    obtain ⟨lexemes, hconsume, rfl, htext⟩ := h.exists_lexemes
    obtain ⟨rfl, -⟩ := Match.mk.inj (Option.some.inj hconsume)
    exact ⟨htext.symm, rfl⟩
  · rintro ⟨rfl, rfl⟩
    exact reads_nothing rest

theorem reads_word_iff {word' : List Char} :
    (word word').Reads text tokens rest ↔ text = word' ∧ tokens = [] := by
  constructor
  · intro h
    obtain ⟨lexemes, hconsume, rfl, htext⟩ := h.exists_lexemes
    simp only [consume] at hconsume
    split at hconsume
    · obtain ⟨rfl, -⟩ := Match.mk.inj (Option.some.inj hconsume)
      exact ⟨htext.symm.trans (textOf_plain word'), tokensOf_plain word'⟩
    · cases hconsume
  · rintro ⟨rfl, rfl⟩
    exact reads_word text rest

theorem reads_char_iff {class' : Char → Bool} :
    (char class').Reads text tokens rest ↔ ∃ c, class' c = true ∧ text = [c] ∧ tokens = [] := by
  constructor
  · intro h
    cases hinput : text ++ rest with
    | nil =>
      exact absurd (hinput ▸ h.not_refuses) (not_not_intro (refuses_char (stopsAt_nil class')))
    | cons c cs =>
      cases hc : class' c with
      | false =>
        exact absurd (hinput ▸ h.not_refuses) (not_not_intro (refuses_char (stopsAt_cons.mpr hc)))
      | true =>
        obtain ⟨htext, htokens, -⟩ := h.unique (reads_char hc cs) hinput
        exact ⟨c, hc, htext, htokens⟩
  · rintro ⟨c, hc, rfl, rfl⟩
    exact reads_char hc rest

theorem reads_token_iff :
    (token p).Reads text tokens rest ↔ tokens = [text] ∧ ∃ found, p.Reads text found rest := by
  constructor
  · rintro ⟨lexemes, hconsume, rfl⟩
    simp only [consume] at hconsume
    split at hconsume
    · cases hconsume
    · next m hm =>
      obtain ⟨rfl, rfl⟩ := Match.mk.inj (Option.some.inj hconsume)
      obtain ⟨hinput, hp⟩ := reads_of_consume hm
      rw [← List.append_cancel_right hinput] at hp
      exact ⟨congrArg (fun text => [text]) (List.append_cancel_right hinput).symm, _, hp⟩
  · rintro ⟨rfl, found, hp⟩
    exact hp.token

/-- The characters of a class are read as far as they go, and no further. -/
theorem reads_chars_iff {class' : Char → Bool} : (chars class').Reads text tokens rest ↔
    tokens = [] ∧ (∀ c ∈ text, class' c = true) ∧ StopsAt class' rest := by
  constructor
  · intro h
    have hall : ∀ c ∈ (text ++ rest).takeWhile class', class' c = true :=
      List.all_eq_true.mp List.all_takeWhile
    have hstop := stopsAt_dropWhile class' (text ++ rest)
    obtain ⟨htext, htokens, hrest⟩ :=
      h.unique (reads_chars hall hstop) List.takeWhile_append_dropWhile.symm
    rw [← htext] at hall
    rw [← hrest] at hstop
    exact ⟨htokens, hall, hstop⟩
  · rintro ⟨rfl, hall, hstop⟩
    exact reads_chars hall hstop

theorem reads_someChars_iff {class' : Char → Bool} : (someChars class').Reads text tokens rest ↔
    tokens = [] ∧ text ≠ [] ∧ (∀ c ∈ text, class' c = true) ∧ StopsAt class' rest := by
  constructor
  · intro h
    obtain ⟨first, more, found, others, rfl, rfl, hfirst, hmore⟩ := reads_seq_iff.mp h
    obtain ⟨c, hc, rfl, rfl⟩ := reads_char_iff.mp hfirst
    obtain ⟨rfl, hall, hstop⟩ := reads_chars_iff.mp hmore
    exact ⟨rfl, List.cons_ne_nil c more, List.forall_mem_cons.mpr ⟨hc, hall⟩, hstop⟩
  · rintro ⟨rfl, hne, hall, hstop⟩
    exact reads_someChars hall hne hstop

end Pattern

end ImportChart
