/-!
# UTF-8

Reading bytes as text. The bytes of one character begin with a byte that tells how many follow, and
the first of those is limited to a range, so that no character has two forms and none is a
surrogate.

`Utf8.decode` reads any bytes: where they go wrong it gives one `none` for the longest stretch that
begins a character, or for the one byte that begins none. `Utf8.text?` reads well-formed bytes only,
`Utf8.lossyText` puts a replacement character for each `none`.
-/

namespace ImportChart.Utf8

/-- The part of a character that has been read. -/
structure Begun where
  /-- The bits read so far. -/
  bits : Nat
  /-- The range of the next byte. -/
  lowest : Nat
  highest : Nat
  /-- The number of bytes after the next one. -/
  further : Nat
  deriving DecidableEq, Repr

/-- What a byte stands for where a character may begin. -/
inductive First where
  | whole (c : Char)
  | begun (state : Begun)
  | malformed
  deriving DecidableEq, Repr

/-- Reads the first byte of a character. -/
def first (byte : Nat) : First :=
  if byte < 0x80 then .whole (Char.ofNat byte)
  else if byte < 0xC2 then .malformed
  else if byte < 0xE0 then .begun ⟨byte - 0xC0, 0x80, 0xBF, 0⟩
  else if byte = 0xE0 then .begun ⟨0, 0xA0, 0xBF, 1⟩
  else if byte = 0xED then .begun ⟨0xD, 0x80, 0x9F, 1⟩
  else if byte < 0xF0 then .begun ⟨byte - 0xE0, 0x80, 0xBF, 1⟩
  else if byte = 0xF0 then .begun ⟨0, 0x90, 0xBF, 2⟩
  else if byte < 0xF4 then .begun ⟨byte - 0xF0, 0x80, 0xBF, 2⟩
  else if byte = 0xF4 then .begun ⟨4, 0x80, 0x8F, 2⟩
  else .malformed

/-- Reads a byte where a character may begin: what it completes, and what it begins. -/
def stepFirst (byte : Nat) : List (Option Char) × Option Begun :=
  match first byte with
  | .whole c => ([some c], none)
  | .begun state => ([], some state)
  | .malformed => ([none], none)

/-- Reads one byte. A byte out of range ends the character begun, and may begin another. -/
def step : Option Begun → Nat → List (Option Char) × Option Begun
  | none, byte => stepFirst byte
  | some state, byte =>
    if state.lowest ≤ byte ∧ byte ≤ state.highest then
      let bits := state.bits * 64 + (byte - 0x80)
      match state.further with
      | 0 => ([some (Char.ofNat bits)], none)
      | further + 1 => ([], some ⟨bits, 0x80, 0xBF, further⟩)
    else
      let (completed, next) := stepFirst byte
      (none :: completed, next)

/-- Reads bytes with part of a character before them. -/
def decodeFrom : Option Begun → List UInt8 → List (Option Char)
  | none, [] => []
  | some _, [] => [none]
  | state, byte :: rest =>
    let (completed, next) := step state byte.toNat
    completed ++ decodeFrom next rest

/-- The characters of bytes, with none for each stretch that is no part of a character. -/
def decode (bytes : List UInt8) : List (Option Char) :=
  decodeFrom none bytes

/-- The text of well-formed bytes. -/
def text? (bytes : List UInt8) : Option String :=
  ((decode bytes).mapM id).map String.ofList

/-- The text of any bytes, with a replacement character for each stretch that is malformed. -/
def lossyText (bytes : List UInt8) : String :=
  String.ofList ((decode bytes).map fun c => c.getD '\uFFFD')

/-- The bytes of a text. -/
def encode (text : String) : List UInt8 :=
  text.toUTF8.toList

/-- Well-formed bytes are read without loss. -/
theorem lossyText_eq_of_text? {bytes : List UInt8} {text : String} (h : text? bytes = some text) :
    lossyText bytes = text := by
  obtain ⟨cs, hcs, rfl⟩ := Option.map_eq_some_iff.mp h
  have key : ∀ (l : List (Option Char)) (cs : List Char), l.mapM id = some cs →
      l.map (fun c => c.getD '\uFFFD') = cs := by
    intro l
    induction l with
    | nil => intro cs h; simpa using h
    | cons c l ih =>
      intro cs h
      cases c with
      | none => simp at h
      | some c =>
        simp only [List.mapM_cons, id, Option.bind_eq_bind, Option.bind_some] at h
        cases hl : List.mapM id l with
        | none => simp [hl] at h
        | some rest =>
          simp only [hl, Option.bind_some] at h
          cases h
          simp [ih rest hl]
  simp only [lossyText, key _ _ hcs]

/-- Two bytes cut off before a third make one replacement. -/
example : lossyText [0x78, 0xE2, 0x82, 0x79] = "x\uFFFDy" := by decide +kernel

/-- A byte that begins no character stands for itself alone. -/
example : lossyText [0xC0, 0x80] = "\uFFFD\uFFFD" := by decide +kernel

/-- A character of three bytes is read as one. -/
example : text? [0xE2, 0x82, 0xAC] = some "€" := by decide +kernel

end ImportChart.Utf8
