import Frontend.Proofs.Lines

/-!
# The place of an offset

An offset lies on a line, and `LineAround` says which: the line begins behind a newline, or where
the text begins, and it goes on up to the next newline. `Place.find` counts the lines before it,
whether the offset is inside a character, on a newline or behind the end of the text
(`LineAround.find_eq`). In bytes, this is a formula in the newlines on the two sides of the offset
(`find_around_newlines`).
-/
namespace Frontend.Text

/-! ### The line around an offset -/

/-- The offset lies on the line that has `body` in front of its newline. This begins `behind`,
unless the text ends there; then all offsets from the beginning of the line on lie on it. -/
structure LineAround (text : List Char) (offset : Nat) (before body behind : List Char) : Prop where
  split : text = before ++ (body ++ behind)
  begins : Terminated '\n' before
  plain : '\n' ∉ body
  ends : ∀ next ∈ behind.head?, next = '\n'
  reached : byteLength before ≤ offset
  within : offset ≤ byteLength before + byteLength body ∨ behind = []

theorem exists_lineAround (text : List Char) (offset : Nat) :
    ∃ before body behind, LineAround text offset before body behind := by
  induction text using piece_induction '\n' generalizing offset with
  | nil => exact ⟨[], [], [], rfl, by simp [Terminated], by simp, by simp, Nat.zero_le _, .inr rfl⟩
  | piece body rest plain ih =>
    by_cases first : offset ≤ byteLength body
    · exact ⟨[], body, '\n' :: rest, rfl, by simp [Terminated], plain, by simp, Nat.zero_le _,
        .inl (by simpa using first)⟩
    · -- the line lies behind the newline, which is one byte
      have newline : '\n'.utf8Size = 1 := by decide
      obtain ⟨before, line, behind, around⟩ := ih (offset - (byteLength body + 1))
      have reached := around.reached
      refine ⟨body ++ '\n' :: before, line, behind, by simp [around.split],
        around.begins.append_cons body, around.plain, around.ends, ?_,
        around.within.imp_left fun within => ?_⟩
      · simp only [byteLength_append, byteLength_cons, newline]
        omega
      · simp only [byteLength_append, byteLength_cons, newline]
        omega
  | last body plain some_left =>
    exact ⟨[], body, [], by simp, by simp [Terminated], plain, by simp, Nat.zero_le _, .inr rfl⟩

/-- A text ends in a line, which is empty behind a newline. -/
theorem exists_last_line (text : List Char) :
    ∃ before line, text = before ++ line ∧ Terminated '\n' before ∧ '\n' ∉ line := by
  induction text using piece_induction '\n' with
  | nil => exact ⟨[], [], rfl, by simp [Terminated], by simp⟩
  | piece body rest plain ih =>
    obtain ⟨before, line, rfl, begins, single⟩ := ih
    exact ⟨body ++ '\n' :: before, line, by simp, begins.append_cons body, single⟩
  | last body plain => exact ⟨[], body, rfl, by simp [Terminated], plain⟩

namespace Place

/-- Among lines, a place is on the line around the offset. -/
theorem among_of_lineAround {text before body behind : List Char} {offset : Nat}
    (around : LineAround text offset before body behind) (number : Nat) :
    among number (splitAfter '\n' text) offset =
      ⟨number + before.count '\n', String.ofList (body ++ behind.take 1),
        min offset (byteLength text) - byteLength before⟩ := by
  obtain ⟨rfl, begins, plain, ends, reached, within⟩ := around
  induction before using piece_induction '\n' generalizing number offset with
  | nil =>
    cases behind with
    | nil =>
      by_cases empty : body = []
      · simp [empty, splitAfter, among]
      · have unended : body.getLast? ≠ some '\n' := fun last => plain (List.mem_of_getLast? last)
        simp [splitAfter_of_not_mem plain empty, among, unended]
    | cons next rest =>
      obtain rfl := ends next rfl
      have inside : offset ≤ byteLength body := by simpa using within
      have newline : '\n'.utf8Size = 1 := by decide
      have held : offset < byteLength (body ++ ['\n']) := by
        simp only [byteLength_append, byteLength_cons, newline]
        omega
      rw [List.nil_append, splitAfter_piece plain, among, if_pos (.inl held), mk.injEq]
      refine ⟨rfl, rfl, ?_⟩
      simp only [byteLength_append, byteLength_cons, byteLength_nil, newline]
      omega
  | piece piece rest plainPiece ih =>
    -- the first line ends ahead of the offset
    have width (more : List Char) : byteLength (piece ++ '\n' :: more) =
        byteLength (piece ++ ['\n']) + byteLength more := by
      rw [← List.singleton_append, ← List.append_assoc, byteLength_append]
    have counted : (piece ++ '\n' :: rest).count '\n' = 1 + rest.count '\n' := by
      rw [List.count_append, List.count_eq_zero.mpr plainPiece, List.count_cons_self]
      omega
    rw [width] at reached within
    have passed : ¬ (offset < byteLength (piece ++ ['\n']) ∨
        (piece ++ ['\n']).getLast? ≠ some '\n') := not_or.mpr ⟨by omega, by simp⟩
    rw [List.append_assoc, List.cons_append, splitAfter_piece plainPiece, among, if_neg passed,
      ih (number + 1) begins.of_append_cons (by omega) (within.imp_left fun within => by omega),
      width rest, width (rest ++ (body ++ behind)), counted, mk.injEq]
    exact ⟨by omega, rfl, by omega⟩
  | last piece plainPiece some_left => exact absurd (begins.eq_nil plainPiece) some_left

end Place

/-! ### Newlines on the two sides of an offset -/

/-- The offset behind the last newline of the bytes; their beginning, if there is none. -/
def behindNewline (bytes : List UInt8) : Nat :=
  bytes.length - bytes.reverse.findIdx (· == '\n'.toUInt8)

/-- The bytes up to and including the first newline; all of them, if there is none. -/
def throughNewline (bytes : List UInt8) : List UInt8 :=
  bytes.take (bytes.findIdx (· == '\n'.toUInt8) + 1)

theorem findIdx_newline {bytes : List UInt8} (plain : '\n'.toUInt8 ∉ bytes) :
    bytes.findIdx (· == '\n'.toUInt8) = bytes.length := by
  rw [List.findIdx_eq_length]
  intro byte member
  exact beq_eq_false_iff_ne.mpr fun same => plain (same ▸ member)

theorem findIdx_append_newline {bytes : List UInt8} (plain : '\n'.toUInt8 ∉ bytes)
    (more : List UInt8) :
    (bytes ++ '\n'.toUInt8 :: more).findIdx (· == '\n'.toUInt8) = bytes.length := by
  rw [List.findIdx_append, findIdx_newline plain, if_neg (Nat.lt_irrefl _), List.findIdx_cons,
    beq_self_eq_true, cond_true, Nat.zero_add]

/-- The bytes of a text ahead of an offset. -/
def bytesAhead (source : String) (offset : Nat) : List UInt8 :=
  source.toByteArray.data.toList.take offset

theorem length_bytesAhead (source : String) (offset : Nat) :
    (bytesAhead source offset).length = min offset source.utf8ByteSize := by
  rw [bytesAhead, ← bytesOf_toList, List.length_take, length_bytesOf, byteLength_toList]

theorem throughNewline_of_not_mem {bytes : List UInt8} (plain : '\n'.toUInt8 ∉ bytes) :
    throughNewline bytes = bytes := by
  rw [throughNewline, findIdx_newline plain, List.take_of_length_le (Nat.le_succ _)]

theorem throughNewline_append {bytes : List UInt8} (plain : '\n'.toUInt8 ∉ bytes)
    (more : List UInt8) :
    throughNewline (bytes ++ '\n'.toUInt8 :: more) = bytes ++ ['\n'.toUInt8] := by
  rw [throughNewline, findIdx_append_newline plain, List.take_length_add_append,
    List.take_succ_cons, List.take_zero]

theorem behindNewline_append {bytes more : List UInt8}
    (terminated : Terminated '\n'.toUInt8 bytes) (plain : '\n'.toUInt8 ∉ more) :
    behindNewline (bytes ++ more) = bytes.length := by
  have plainReverse : '\n'.toUInt8 ∉ more.reverse := by rwa [List.mem_reverse]
  rcases terminated.eq_nil_or_concat with rfl | ⟨earlier, rfl⟩
  · rw [behindNewline, List.nil_append, findIdx_newline plainReverse, List.length_reverse,
      Nat.sub_self]
    rfl
  · have longer : (earlier ++ ['\n'.toUInt8] ++ more).length =
        (earlier ++ ['\n'.toUInt8]).length + more.length := List.length_append
    rw [behindNewline, List.reverse_append, List.reverse_append, List.reverse_singleton,
      List.singleton_append, findIdx_append_newline plainReverse, List.length_reverse, longer,
      Nat.add_sub_cancel]

namespace LineAround

variable {before body behind : List Char} {offset : Nat} {source : String}

theorem find_eq (around : LineAround source.toList offset before body behind) :
    Place.find source offset =
      ⟨1 + before.count '\n', String.ofList (body ++ behind.take 1),
        min offset (byteLength source.toList) - byteLength before⟩ :=
  Place.among_of_lineAround around 1

/-- The lines before the one that an offset lies on are all that stands before this line. -/
theorem join_take_lines (around : LineAround source.toList offset before body behind) :
    String.join ((lines source).take (before.count '\n')) = String.ofList before := by
  rw [← length_splitAfter around.begins, lines, around.split, splitAfter_append around.begins,
    List.map_append, List.take_append_of_le_length (by simp), List.take_of_length_le (by simp)]
  apply String.toList_inj.mp
  rw [String.toList_join, List.flatMap_map, String.toList_ofList]
  simp only [String.toList_ofList]
  rw [List.flatMap_id', flatten_splitAfter]

/-- The bytes ahead of the offset: those before its line, and a part of the line without its
newline. -/
theorem take_bytesOf (around : LineAround source.toList offset before body behind) :
    ∃ part, (bytesOf source.toList).take offset = bytesOf before ++ part ∧
      '\n'.toUInt8 ∉ part := by
  have reached := around.reached
  rw [← length_bytesOf] at reached
  refine ⟨(bytesOf body ++ bytesOf behind).take (offset - (bytesOf before).length), ?_, ?_⟩
  · rw [around.split, bytesOf_append, bytesOf_append, List.take_append,
      List.take_of_length_le reached]
  · have plain := newline_not_mem_bytesOf around.plain
    intro member
    rcases around.within with within | rfl
    · rw [← length_bytesOf, ← length_bytesOf] at within
      rw [List.take_append_of_le_length (by omega)] at member
      exact plain (List.mem_of_mem_take member)
    · rw [bytesOf_nil, List.append_nil] at member
      exact plain (List.mem_of_mem_take member)

/-- The bytes of the line, which go on through its newline. -/
theorem throughNewline_drop (around : LineAround source.toList offset before body behind) :
    throughNewline ((bytesOf source.toList).drop (bytesOf before).length) =
      bytesOf (body ++ behind.take 1) := by
  have plain := newline_not_mem_bytesOf around.plain
  rw [around.split, bytesOf_append, List.drop_left, bytesOf_append, bytesOf_append]
  cases behind with
  | nil => rw [List.take_nil, bytesOf_nil, List.append_nil, throughNewline_of_not_mem plain]
  | cons next rest =>
    obtain rfl := around.ends next rfl
    rw [List.take_succ_cons, List.take_zero, ← List.singleton_append, bytesOf_append,
      bytesOf_newline, List.singleton_append, throughNewline_append plain]

end LineAround

/-- A place is not further into its line than the text is long. -/
theorem offset_find_le (source : String) (offset : Nat) :
    (Place.find source offset).offset ≤ source.utf8ByteSize := by
  obtain ⟨before, body, behind, around⟩ := exists_lineAround source.toList offset
  rw [around.find_eq, byteLength_toList]
  exact Nat.le_trans (Nat.sub_le _ _) (Nat.min_le_right _ _)

/-- The place of an offset is told by the newlines among the bytes ahead of the offset and behind
it, also where the offset is inside a character, on a newline or behind the end of the text.
The lines before it and the offset into the line add up to the offset, or to the whole text. -/
theorem find_around_newlines (source : String) (offset : Nat) :
    (Place.find source offset).line = 1 + (bytesAhead source offset).count '\n'.toUInt8 ∧
    (Place.find source offset).text.toByteArray.data.toList =
      throughNewline
        (source.toByteArray.data.toList.drop (behindNewline (bytesAhead source offset))) ∧
    (Place.find source offset).offset =
      min offset source.utf8ByteSize - behindNewline (bytesAhead source offset) ∧
    (String.join ((lines source).take ((Place.find source offset).line - 1))).utf8ByteSize +
      (Place.find source offset).offset = min offset source.utf8ByteSize := by
  obtain ⟨before, body, behind, around⟩ := exists_lineAround source.toList offset
  obtain ⟨part, taken, plain⟩ := around.take_bytesOf
  have found := around.find_eq
  rw [byteLength_toList] at found
  have ahead : bytesAhead source offset = bytesOf before ++ part := by
    rw [bytesAhead, ← bytesOf_toList, taken]
  have start : behindNewline (bytesAhead source offset) = (bytesOf before).length := by
    rw [ahead, behindNewline_append (terminated_bytesOf around.begins) plain]
  have reached : byteLength before ≤ min offset source.utf8ByteSize := by
    rw [← length_bytesOf, ← start, ← length_bytesAhead]
    exact Nat.sub_le _ _
  refine ⟨?_, ?_, ?_, ?_⟩
  · rw [found, ahead, List.count_append, count_newline_bytesOf, List.count_eq_zero.mpr plain,
      Nat.add_zero]
  · rw [found, start, ← bytesOf_toList source, around.throughNewline_drop, ← bytesOf_toList,
      String.toList_ofList]
  · rw [found, start, length_bytesOf]
  · rw [found, Nat.add_sub_cancel_left, around.join_take_lines, ← byteLength_toList,
      String.toList_ofList]
    exact Nat.add_sub_cancel' reached

/-- An offset inside a character of the second line. -/
example : Place.find "é\nü" 4 = ⟨2, "ü", 1⟩ := by decide +kernel

end Frontend.Text
