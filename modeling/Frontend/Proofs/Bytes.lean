import Frontend.Proofs.Lexemes
import Frontend.Proofs.Scanning
import Frontend.Token.Cursor

/-!
# Bytes of a text

All that scanning looks for are characters of one byte. Such a byte is the character itself, and the
bytes of all other characters are greater than it: neither their first byte nor one inside them is
taken for a character of one byte.
-/
namespace Frontend

/-! ### Characters of one byte -/

/-- Only characters of one byte pass the test. -/
def Narrow (test : Char → Bool) : Prop := ∀ c, test c = true → c.toNat < 128

theorem narrow_isLayout : Narrow isLayout := by
  intro c layout
  simp only [isLayout, Bool.or_eq_true, beq_iff_eq] at layout
  rcases layout with ((rfl | rfl) | rfl) | rfl <;> decide

theorem narrow_isDigit : Narrow Char.isDigit := by
  intro c digit
  change (decide (48 ≤ c.val) && decide (c.val ≤ 57)) = true at digit
  simp only [Bool.and_eq_true, decide_eq_true_eq, UInt32.le_iff_toNat_le] at digit
  exact Nat.lt_of_le_of_lt digit.2 (by decide)

theorem narrow_isLetter : Narrow isLetter := by
  intro c letter
  change ((decide (65 ≤ c.val ∧ c.val ≤ 90) || (decide (97 ≤ c.val) && decide (c.val ≤ 122))) ||
    c == '_') = true at letter
  simp only [Bool.or_eq_true, Bool.and_eq_true, decide_eq_true_eq, beq_iff_eq,
    UInt32.le_iff_toNat_le] at letter
  rcases letter with (upper | lower) | rfl
  · exact Nat.lt_of_le_of_lt upper.2 (by decide)
  · exact Nat.lt_of_le_of_lt lower.2 (by decide)
  · decide

theorem narrow_ofSymbol? : Narrow fun c => (Kind.ofSymbol? c).isSome := by
  intro c symbol
  obtain ⟨kind, found⟩ := Option.isSome_iff_exists.mp symbol
  obtain ⟨_, _, split, -⟩ := List.lookup_eq_some_iff.mp found
  have entries : ∀ entry ∈ Kind.symbols, entry.1.toNat < 128 := by decide
  exact entries (c, kind) (by simp [split])

theorem narrow_ofPair? (first : Char) :
    Narrow fun second => (Kind.ofPair? first second).isSome := by
  intro second pair
  obtain ⟨kind, found⟩ := Option.isSome_iff_exists.mp pair
  obtain ⟨rfl, -⟩ := Kind.ofPair?_eq_some_iff.mp found
  decide

theorem ofPair?_of_wide {first second : Char} (wide : 128 ≤ first.toNat) :
    Kind.ofPair? first second = none := by
  refine Kind.ofPair?_eq_none_iff.mpr fun _ => ⟨?_, ?_⟩
  · rintro rfl
    exact absurd wide (by decide)
  · rintro rfl
    exact absurd wide (by decide)

theorem Narrow.eq_false {test : Char → Bool} (narrow : Narrow test) {c : Char}
    (wide : 128 ≤ c.toNat) : test c = false := by
  rw [← Bool.not_eq_true]
  exact fun passes => absurd (narrow c passes) (Nat.not_lt.mpr wide)

theorem Narrow.eq_none {α : Type} {lookup : Char → Option α}
    (narrow : Narrow fun c => (lookup c).isSome) {c : Char} (wide : 128 ≤ c.toNat) :
    lookup c = none := by
  rw [← Option.not_isSome_iff_eq_none, narrow.eq_false wide]
  exact Bool.false_ne_true

/-! ### Bytes -/

theorem le_toNat_or {x y : UInt8} (wide : 128 ≤ y.toNat) : 128 ≤ (x ||| y).toNat := by
  rw [UInt8.toNat_or]
  exact Nat.le_trans wide Nat.right_le_or

theorem utf8Size_of_lt {c : Char} (narrow : c.toNat < 128) : c.utf8Size = 1 := by
  rw [Char.utf8Size_eq_one_iff, UInt32.le_iff_toNat_le]
  exact Nat.le_of_lt_succ narrow

theorem byteLength_singleton {c : Char} (narrow : c.toNat < 128) : Text.byteLength [c] = 1 :=
  utf8Size_of_lt narrow

theorem isUTF8FirstByte_of_lt {b : UInt8} (narrow : b.toNat < 128) : b.IsUTF8FirstByte := by
  have clear : ∀ n : Fin 128, n.val &&& 128 = 0 := by decide
  exact .inl (UInt8.toNat_inj.mp (clear ⟨b.toNat, narrow⟩))

/-- All bytes of a character that takes more than one are greater than those of the others. -/
theorem le_of_mem_utf8EncodeChar {c : Char} (wide : 128 ≤ c.toNat) {b : UInt8}
    (member : b ∈ String.utf8EncodeChar c) : 128 ≤ b.toNat := by
  have notNarrow : ¬ c.val ≤ 0x7f := by
    rw [UInt32.le_iff_toNat_le]
    exact Nat.not_le.mpr wide
  rw [String.utf8EncodeChar_eq_utf8EncodeCharFast] at member
  simp only [String.utf8EncodeCharFast, if_neg notNarrow] at member
  split at member
  · simp only [List.mem_cons, List.not_mem_nil, or_false] at member
    rcases member with rfl | rfl <;> exact le_toNat_or (by decide)
  · split at member
    · simp only [List.mem_cons, List.not_mem_nil, or_false] at member
      rcases member with rfl | rfl | rfl <;> exact le_toNat_or (by decide)
    · simp only [List.mem_cons, List.not_mem_nil, or_false] at member
      rcases member with rfl | rfl | rfl | rfl <;> exact le_toNat_or (by decide)

/-- The first byte of a character: the character itself, or a byte that is none. -/
theorem utf8EncodeChar_cases (c : Char) :
    c.toNat < 128 ∧ String.utf8EncodeChar c = [c.val.toUInt8] ∨
      128 ≤ c.toNat ∧ ∃ lead others, String.utf8EncodeChar c = lead :: others ∧
        128 ≤ lead.toNat := by
  by_cases narrow : c.toNat < 128
  · exact .inl ⟨narrow, String.utf8EncodeChar_eq_singleton (utf8Size_of_lt narrow)⟩
  · have wide := Nat.not_lt.mp narrow
    obtain ⟨lead, others, bytes⟩ :=
      List.exists_cons_of_ne_nil (String.utf8EncodeChar_ne_nil (c := c))
    have member : lead ∈ String.utf8EncodeChar c := by
      rw [bytes]
      exact List.mem_cons_self
    exact .inr ⟨wide, lead, others, bytes, le_of_mem_utf8EncodeChar wide member⟩

theorem ofUInt8_toUInt8 {c : Char} (narrow : c.toNat < 128) : Char.ofUInt8 c.val.toUInt8 = c := by
  apply Char.ext
  apply UInt32.toNat_inj.mp
  change c.val.toNat % 256 = c.val.toNat
  exact Nat.mod_eq_of_lt (Nat.lt_trans narrow (by decide))

namespace Cursor

theorem byteAt_of_le {source : String} {offset : Nat} (behind : source.utf8ByteSize ≤ offset) :
    byteAt source offset = 0 := by
  have none : source.toByteArray[offset]? = none := by
    rw [getElem?_eq_none_iff]
    exact Nat.not_lt.mpr behind
  rw [byteAt, none, Option.getD_none]

theorem byteAt_of_lt {source : String} {offset : Nat} (inside : offset < source.toByteArray.size) :
    byteAt source offset = source.toByteArray[offset] := by
  rw [byteAt, getElem?_pos source.toByteArray offset inside, Option.getD_some]

/-- The byte at the beginning of a character. -/
theorem byteAt_byteLength {source : String} {before rest : List Char} {c : Char}
    {lead : UInt8} {others : List UInt8} (text : source.toList = before ++ c :: rest)
    (bytes : String.utf8EncodeChar c = lead :: others) :
    byteAt source (Text.byteLength before) = lead := by
  have width : before.utf8Encode.size = Text.byteLength before := by
    rw [← String.toByteArray_ofList, String.size_toByteArray, ← byteLength_toList,
      String.toList_ofList]
  have all : source.toByteArray =
      before.utf8Encode ++ ((lead :: others).toByteArray ++ rest.utf8Encode) := by
    rw [← String.utf8Encode_toList, text, List.utf8Encode_append, List.utf8Encode_cons,
      List.utf8Encode_singleton, bytes]
  have inside : before.utf8Encode.size < source.toByteArray.size := by
    simp only [all, ByteArray.size_append, List.size_toByteArray, List.length_cons]
    omega
  rw [← width, byteAt_of_lt inside]
  simp only [all, ByteArray.getElem_append_right (Nat.le_refl _), Nat.sub_self]
  rw [ByteArray.getElem_append_left (by simp), List.getElem_toByteArray, List.getElem_cons_zero]

/-- What a byte between two characters tells of the character behind it. -/
theorem byteAt_cases {source : String} {before rest : List Char} {c : Char}
    (text : source.toList = before ++ c :: rest) :
    c.toNat < 128 ∧ Char.ofUInt8 (byteAt source (Text.byteLength before)) = c ∨
      128 ≤ c.toNat ∧ 128 ≤ (byteAt source (Text.byteLength before)).toNat := by
  rcases utf8EncodeChar_cases c with ⟨narrow, bytes⟩ | ⟨wide, lead, others, bytes, wideLead⟩
  · rw [byteAt_byteLength text bytes]
    exact .inl ⟨narrow, ofUInt8_toUInt8 narrow⟩
  · rw [byteAt_byteLength text bytes]
    exact .inr ⟨wide, wideLead⟩

/-- Inside a character, there are no bytes that are characters. -/
theorem le_byteAt_of_not_isValid {source : String} {offset : Nat}
    (inside : offset < source.utf8ByteSize)
    (notBoundary : ¬ (⟨offset⟩ : String.Pos.Raw).IsValid source) :
    128 ≤ (byteAt source offset).toNat := by
  apply Nat.not_lt.mp
  intro narrow
  apply notBoundary
  rw [byteAt_of_lt inside] at narrow
  exact String.Pos.Raw.isValid_iff_isUTF8FirstByte.mpr (.inr ⟨inside, isUTF8FirstByte_of_lt narrow⟩)

end Cursor

end Frontend
