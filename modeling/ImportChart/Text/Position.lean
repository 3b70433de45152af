import ImportChart.Text.Blank

/-!
# Positions in a text

A `Position` sums up the text before a place: its length in bytes, its number of lines, its last
character, and whether the line so far holds only blanks. `Position.after` moves over one more
character and `Position.afterText` over a text, so a position depends on the text before it alone
and not on how that text was cut into pieces (`Position.afterText_append`).

Lengths and offsets count the bytes of the UTF-8 form of the text.
-/

namespace ImportChart

/-- A half-open range of bytes of a text. -/
structure Span where
  start : Nat
  stop : Nat
  deriving DecidableEq, Repr

/-- The number of bytes in a span. -/
def Span.size (span : Span) : Nat :=
  span.stop - span.start

/-- The number of bytes of a text. -/
def byteSize : List Char → Nat
  | [] => 0
  | c :: cs => c.utf8Size + byteSize cs

@[simp] theorem byteSize_append (s t : List Char) :
    byteSize (s ++ t) = byteSize s + byteSize t := by
  induction s with
  | nil => simp [byteSize]
  | cons c cs ih => simp [byteSize, ih, Nat.add_assoc]

/-- The bytes of characters are the bytes of the text made of them. -/
theorem byteSize_eq_utf8ByteSize (s : List Char) : byteSize s = (String.ofList s).utf8ByteSize := by
  induction s with
  | nil => rfl
  | cons c cs ih =>
    rw [String.ofList_cons, String.utf8ByteSize_append, String.utf8ByteSize_singleton, ← ih,
      byteSize]

/-- The bytes of the characters of a text are the bytes of the text. -/
theorem byteSize_toList (text : String) : byteSize text.toList = text.utf8ByteSize := by
  rw [byteSize_eq_utf8ByteSize, String.ofList_toList]

/-- A place in a text, known by the text before it. -/
structure Position where
  /-- The bytes before the place. -/
  offset : Nat
  /-- The line of the place, counted from one. -/
  line : Nat
  /-- The character before the place. -/
  last : Option Char
  /-- Only blanks stand between the start of the line and the place. -/
  blankLine : Bool
  deriving DecidableEq, Repr

namespace Position

/-- The start of a text. -/
def start : Position :=
  { offset := 0, line := 1, last := none, blankLine := true }

/-- Whether the line holds only blanks after one more character. -/
def blankAfter (blank : Bool) (c : Char) : Bool :=
  if c = '\n' then true else isBlank c && blank

/-- The place after one more character. -/
def after (p : Position) (c : Char) : Position :=
  { offset := p.offset + c.utf8Size
    line := if c = '\n' then p.line + 1 else p.line
    last := some c
    blankLine := blankAfter p.blankLine c }

/-- The place after a text. -/
def afterText (p : Position) (text : List Char) : Position :=
  text.foldl after p

@[simp] theorem afterText_nil (p : Position) : p.afterText [] = p := rfl

@[simp] theorem afterText_cons (p : Position) (c : Char) (cs : List Char) :
    p.afterText (c :: cs) = (p.after c).afterText cs := rfl

/-- Moving over two texts is moving over their concatenation. -/
theorem afterText_append (p : Position) (s t : List Char) :
    p.afterText (s ++ t) = (p.afterText s).afterText t :=
  List.foldl_append

/-- The offset grows by the bytes moved over. -/
theorem offset_afterText (p : Position) (text : List Char) :
    (p.afterText text).offset = p.offset + byteSize text := by
  induction text generalizing p with
  | nil => rfl
  | cons c cs ih => simp [ih, after, byteSize, Nat.add_assoc]

/-- The line grows by the line feeds moved over. -/
theorem line_afterText (p : Position) (text : List Char) :
    (p.afterText text).line = p.line + text.count '\n' := by
  induction text generalizing p with
  | nil => rfl
  | cons c cs ih =>
    rw [afterText_cons, ih, List.count_cons]
    by_cases h : c = '\n'
    · simp only [after, h, if_true, beq_self_eq_true]
      omega
    · simp only [after, h, if_false, beq_iff_eq]
      omega

end Position

end ImportChart
