import Mathlib.Data.List.Basic

/-!
# The order of texts and the order of their bytes

Texts are compared character by character, and their UTF-8 forms would be compared byte by byte. The
two orders are one (`bytesOf_lt_iff`): the encodings of two characters differ, and where they first
differ the encoding of the smaller character is smaller, whatever follows it.

A character is encoded as its number, in a form that depends on how large the number is
(`encodeNumber`): a first byte with a mark for the form, and behind it a byte for each further six
bits. Each form keeps the order of the numbers, since six bits more at the end decide only between
numbers that are equal without them (`Ascending.withSixBits`). Of two forms the longer has the
larger first byte.
-/

namespace ImportChart

/-- The bytes of the UTF-8 form of a text. -/
def bytesOf (text : String) : List UInt8 :=
  text.toByteArray.data.toList

theorem bytesOf_eq_flatMap (text : String) :
    bytesOf text = text.toList.flatMap String.utf8EncodeChar := by
  rw [bytesOf, ← String.utf8Encode_toList, List.utf8Encode, List.toList_data_toByteArray]

/-! ## Forms of numbers -/

/-- A number in one byte, behind the bits of a mark. -/
def markedByte (mark value : Nat) : List UInt8 :=
  [UInt8.ofNat (value + mark)]

/-- A number whose last six bits have a byte of their own. -/
def withSixBits (encode : Nat → List UInt8) (value : Nat) : List UInt8 :=
  encode (value / 64) ++ markedByte 128 (value % 64)

/-- A number in the shortest form that holds it. -/
def encodeNumber (value : Nat) : List UInt8 :=
  if value < 128 then markedByte 0 value
  else if value < 2048 then withSixBits (markedByte 192) value
  else if value < 65536 then withSixBits (withSixBits (markedByte 224)) value
  else withSixBits (withSixBits (withSixBits (markedByte 240))) value

theorem toNat_lt_of_char (c : Char) : c.val.toNat < 2097152 := by
  rcases c.valid with hlow | hhigh
  · exact Nat.lt_trans hlow (by decide)
  · exact Nat.lt_trans hhigh.2 (by decide)

theorem utf8EncodeChar_eq (c : Char) : String.utf8EncodeChar c = encodeNumber c.val.toNat := by
  have hvalue := toNat_lt_of_char c
  simp only [String.utf8EncodeChar, encodeNumber, withSixBits, markedByte, ← Nat.lt_add_one_iff,
    Nat.reduceAdd]
  generalize c.val.toNat = value at hvalue ⊢
  split_ifs
  · rfl
  · have htop : value / 64 % 32 = value / 64 := by omega
    rw [htop]
    rfl
  · have htop : value / 4096 % 16 = value / 64 / 64 := by omega
    rw [htop]
    rfl
  · have htop : value / 262144 % 8 = value / 64 / 64 / 64 := by omega
    have hsecond : value / 4096 % 64 = value / 64 / 64 % 64 := by omega
    rw [htop, hsecond]
    rfl

/-- Below a bound, a larger number has a larger form, whatever follows it. -/
def Ascending (bound : Nat) (encode : Nat → List UInt8) : Prop :=
  ∀ ⦃m n : Nat⦄, m < n → n < bound → ∀ xs ys : List UInt8, encode m ++ xs < encode n ++ ys

/-- Different first bytes decide. -/
theorem ofNat_cons_lt {m n : Nat} (h : m < n) (hn : n < 256) (xs ys : List UInt8) :
    UInt8.ofNat m :: xs < UInt8.ofNat n :: ys := by
  refine List.cons_lt_cons_iff.mpr (.inl ?_)
  rw [UInt8.lt_iff_toNat_lt, UInt8.toNat_ofNat', UInt8.toNat_ofNat', Nat.mod_eq_of_lt hn,
    Nat.mod_eq_of_lt (Nat.lt_trans h hn)]
  exact h

namespace Ascending

variable {bound larger : Nat} {encode encode' : Nat → List UInt8}

theorem markedByte {mark : Nat} (h : bound + mark ≤ 256) : Ascending bound (markedByte mark) :=
  fun _ _ hlt hbound => ofNat_cons_lt (Nat.add_lt_add_right hlt mark) (by omega)

theorem withSixBits (h : Ascending bound encode) : Ascending (64 * bound) (withSixBits encode) := by
  intro m n hlt hbound xs ys
  rw [ImportChart.withSixBits, ImportChart.withSixBits, List.append_assoc, List.append_assoc]
  rcases Nat.lt_or_eq_of_le (Nat.div_le_div_right (Nat.le_of_lt hlt) : m / 64 ≤ n / 64)
    with hdiv | hdiv
  · exact h hdiv (by omega) _ _
  · rw [hdiv]
    exact List.append_left_lt (ofNat_cons_lt (by omega) (by omega) xs ys)

/-- A form for the numbers below a bound and a larger form for the others. -/
theorem ite (h : Ascending bound encode) (h' : Ascending larger encode')
    (hforms : ∀ m < bound, ∀ n < larger, bound ≤ n → ∀ xs ys, encode m ++ xs < encode' n ++ ys) :
    Ascending larger fun value => if value < bound then encode value else encode' value := by
  intro m n hlt hbound xs ys
  by_cases hn : n < bound
  · simp only [hn, Nat.lt_trans hlt hn, if_true]
    exact h hlt hn xs ys
  · simp only [hn, if_false]
    split
    · next hm => exact hforms m hm n hbound (Nat.le_of_not_lt hn) xs ys
    · exact h' hlt hbound xs ys

end Ascending

theorem ascending_encodeNumber : Ascending 2097152 encodeNumber := by
  have one : Ascending 128 (markedByte 0) := .markedByte (by decide)
  have two : Ascending (64 * 32) (withSixBits (markedByte 192)) :=
    .withSixBits (.markedByte (by decide))
  have three : Ascending (64 * (64 * 16)) (withSixBits (withSixBits (markedByte 224))) :=
    .withSixBits (.withSixBits (.markedByte (by decide)))
  have four :
      Ascending (64 * (64 * (64 * 8))) (withSixBits (withSixBits (withSixBits (markedByte 240)))) :=
    .withSixBits (.withSixBits (.withSixBits (.markedByte (by decide))))
  -- of two forms the longer has the larger first byte
  have hthree := three.ite four fun m hm n hn _ xs ys => by
    simp only [withSixBits, markedByte, List.cons_append]
    exact ofNat_cons_lt (by omega) (by omega) _ _
  have htwo := two.ite hthree fun m hm n hn _ xs ys => by
    simp only [withSixBits, markedByte, List.cons_append]
    split
    · exact ofNat_cons_lt (by omega) (by omega) _ _
    · exact ofNat_cons_lt (by omega) (by omega) _ _
  exact one.ite htwo fun m hm n hn _ xs ys => by
    simp only [withSixBits, markedByte, List.cons_append]
    split
    · exact ofNat_cons_lt (by omega) (by omega) _ _
    · split
      · exact ofNat_cons_lt (by omega) (by omega) _ _
      · exact ofNat_cons_lt (by omega) (by omega) _ _

/-! ## Texts -/

/-- The encoding of a smaller character is smaller, whatever follows it. -/
theorem utf8EncodeChar_append_lt {c d : Char} (h : c < d) (xs ys : List UInt8) :
    String.utf8EncodeChar c ++ xs < String.utf8EncodeChar d ++ ys := by
  rw [utf8EncodeChar_eq, utf8EncodeChar_eq]
  exact ascending_encodeNumber h (toNat_lt_of_char d) xs ys

/-- A smaller text has smaller bytes. -/
theorem bytesOf_lt {text other : String} (h : text < other) : bytesOf text < bytesOf other := by
  rw [bytesOf_eq_flatMap, bytesOf_eq_flatMap]
  have hlex : List.Lex (· < ·) text.toList other.toList := List.lex_lt.mpr (String.lt_iff.mp h)
  generalize text.toList = letters at hlex
  generalize other.toList = others at hlex
  induction hlex with
  | @nil c _ =>
    obtain ⟨first, more, hencoded⟩ :=
      List.exists_cons_of_ne_nil (String.utf8EncodeChar_ne_nil (c := c))
    rw [List.flatMap_cons, hencoded]
    exact List.nil_lt_cons _ _
  | cons _ ih =>
    rw [List.flatMap_cons, List.flatMap_cons]
    exact List.append_left_lt ih
  | rel hlt =>
    rw [List.flatMap_cons, List.flatMap_cons]
    exact utf8EncodeChar_append_lt hlt _ _

/-- Texts and their bytes are in one order. -/
theorem bytesOf_lt_iff {text other : String} : bytesOf text < bytesOf other ↔ text < other := by
  refine ⟨fun h => String.not_le.mp fun hle => ?_, bytesOf_lt⟩
  by_cases heq : other = text
  · rw [heq] at h
    exact List.lt_irrefl _ h
  · exact List.lt_asymm h (bytesOf_lt (Std.lt_of_le_of_ne hle heq))

end ImportChart
