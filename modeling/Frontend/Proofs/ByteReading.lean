import Frontend.Proofs.SettledCursor

/-!
# Reading tokens byte by byte

`Cursor.next?` takes a token off the text in front of the cursor, character by character. Here a
token is read with nothing but single bytes: the byte under the cursor is tested, the cursor moves
one byte on, and words and integers are cut out of the source between two offsets, which is
impossible inside a character (`Cursor.slice?`). From a settled cursor both are the same
(`Cursor.Settled.readToken?_eq`): all that is tested for are characters of one byte.
-/
namespace Frontend

namespace Cursor

/-- The byte under the cursor, taken for a character. -/
def lead (c : Cursor) : Char := Char.ofUInt8 c.byte

/-- The part of a text between two offsets; `none` if one of them is inside a character. -/
def slice? (source : String) (start finish : Nat) : Option (List Char) :=
  (Text.dropBytes? source.toList start).bind fun text =>
    (Text.dropBytes? source.toList finish).bind fun behind =>
      if start ≤ finish then some (text.take (text.length - behind.length)) else none

/-- A test on where a cursor is that fails at the latest behind the end of the text. -/
structure Test where
  holds : Cursor → Bool
  stops : ∀ c : Cursor, c.source.utf8ByteSize < c.nextPosition → holds c.advance = false

namespace Test

def layout : Test where
  holds c := isLayout c.lead
  stops c behind := by
    -- the NUL behind the end is no layout
    have nul : c.advance.byte = 0 := byteAt_of_le (Nat.le_of_lt behind)
    rw [lead, nul]
    decide

/-- The cursor is before the end of the text, on a byte that passes. -/
def run (passes : Char → Bool) : Test where
  holds c := !c.atEnd && passes c.lead
  stops c behind := by
    have ended : c.advance.atEnd = true := by
      rw [atEnd, decide_eq_true_eq]
      exact Nat.le_min.mpr ⟨Nat.le_of_lt behind, Nat.le_refl _⟩
    rw [ended, Bool.not_true, Bool.false_and]

theorem holds_layout (c : Cursor) : layout.holds c = isLayout c.lead := rfl

theorem holds_run (passes : Char → Bool) (c : Cursor) :
    (run passes).holds c = (!c.atEnd && passes c.lead) := rfl

/-- How far moving on while the test holds can lead at most: steps to the end of the text, and one
more, which is the last since the test then fails. -/
def weight (test : Test) (c : Cursor) : Nat :=
  2 * (c.source.utf8ByteSize + 1 - c.nextPosition) + (test.holds c).toNat

theorem weight_advance_lt (test : Test) {c : Cursor} (holds : test.holds c = true) :
    test.weight c.advance < test.weight c := by
  have size : c.advance.source = c.source := rfl
  have next : c.advance.nextPosition =
    if c.nextPosition ≤ c.source.utf8ByteSize then c.nextPosition + 1 else c.nextPosition := rfl
  rw [weight, weight, size, next]
  by_cases behind : c.source.utf8ByteSize < c.nextPosition
  · rw [test.stops c behind, holds, Bool.toNat_false, Bool.toNat_true,
      if_neg (Nat.not_le.mpr behind)]
    omega
  · have bound := Bool.toNat_le (test.holds c.advance)
    rw [if_pos (Nat.not_lt.mp behind)]
    omega

end Test

/-- Moves on while the test holds. -/
def passWhile (test : Test) (c : Cursor) : Cursor :=
  if test.holds c then c.advance.passWhile test else c
termination_by test.weight c
decreasing_by exact test.weight_advance_lt ‹_›

/-- Reads the longest run of characters that pass; `none` inside a character. -/
def readRun? (passes : Char → Bool) (c : Cursor) : Option (List Char × Cursor) :=
  let behind := c.passWhile (.run passes)
  (slice? c.source c.position behind.position).map fun text => (text, behind)

/-- Reads a character that begins no lexeme; `none` inside a character. -/
def readIllegal? (c : Cursor) : Option (Lexeme × Cursor) :=
  c.text?.map fun text =>
    let literal := text.take 1
    -- the cursor is left on the last byte of the character and then moves past it
    (⟨.illegal, literal⟩, (c.advanceBy (Text.byteLength literal - 1)).advance)

/-- Reads the lexeme under the cursor, which is on no layout and not at the end. -/
def readLexeme? (c : Cursor) : Option (Lexeme × Cursor) :=
  match Kind.ofPair? c.lead (Char.ofUInt8 c.peekByte) with
  | some kind => some (⟨kind, [c.lead, c.advance.lead]⟩, c.advance.advance)
  | none =>
    if isLetter c.lead then
      (c.readRun? isLetter).map fun (word, behind) =>
        (⟨Kind.ofWord (String.ofList word), word⟩, behind)
    else if c.lead.isDigit then
      (c.readRun? Char.isDigit).map fun (digits, behind) => (⟨.integer, digits⟩, behind)
    else
      match Kind.ofSymbol? c.lead with
      | some kind => some (⟨kind, [c.lead]⟩, c.advance)
      | none => c.readIllegal?

/-- Reads the next token; `none` inside a character. -/
def readToken? (c : Cursor) : Option (Token × Cursor) :=
  let first := c.passWhile .layout
  let place := Position.ofOffset first.position
  if first.atEnd then some (.endOfInput place, first)
  else
    first.readLexeme?.map fun (lexeme, behind) =>
      (⟨lexeme.kind, String.ofList lexeme.text, place⟩, behind)

/-! ### Between two characters -/

variable {c : Cursor} {before rest : List Char} {ch : Char}

theorem advanceBy_add (c : Cursor) (m n : Nat) :
    c.advanceBy (m + n) = (c.advanceBy m).advanceBy n := by
  induction m generalizing c with
  | zero => rw [Nat.zero_add, advanceBy]
  | succ m ih => rw [Nat.succ_add, advanceBy, advanceBy, ih]

/-- What the byte under the cursor tells of the character there. -/
theorem Settled.lead_cases (settled : c.Settled) (between : c.Between before (ch :: rest)) :
    ch.toNat < 128 ∧ c.lead = ch ∨ 128 ≤ ch.toNat ∧ 128 ≤ c.lead.toNat := by
  rw [lead, settled.byte, between.position]
  exact byteAt_cases between.text

theorem Settled.lead_eq (settled : c.Settled) (between : c.Between before (ch :: rest))
    (narrow : ch.toNat < 128) : c.lead = ch := by
  rcases settled.lead_cases between with ⟨-, same⟩ | ⟨wide, -⟩
  · exact same
  · omega

theorem Settled.test_lead (settled : c.Settled) (between : c.Between before (ch :: rest))
    {test : Char → Bool} (narrow : Narrow test) : test c.lead = test ch := by
  rcases settled.lead_cases between with ⟨-, same⟩ | ⟨wide, wideLead⟩
  · rw [same]
  · rw [narrow.eq_false wide, narrow.eq_false wideLead]

theorem Settled.lookup_lead {α : Type} (settled : c.Settled)
    (between : c.Between before (ch :: rest)) {lookup : Char → Option α}
    (narrow : Narrow fun other => (lookup other).isSome) : lookup c.lead = lookup ch := by
  rcases settled.lead_cases between with ⟨-, same⟩ | ⟨wide, wideLead⟩
  · rw [same]
  · rw [narrow.eq_none wide, narrow.eq_none wideLead]

theorem Between.atEnd_eq (between : c.Between before rest) : c.atEnd = rest.isEmpty := by
  have total := between.position_add
  rw [atEnd]
  cases rest with
  | nil =>
    rw [Text.byteLength_nil] at total
    simp [← total]
  | cons ch rest =>
    have positive := Text.byteLength_pos (List.cons_ne_nil ch rest)
    exact decide_eq_false (by omega)

theorem Between.lead_of_nil (settled : c.Settled) (between : c.Between before []) :
    c.lead = Char.ofUInt8 0 := by
  have ended := between.position_add
  rw [Text.byteLength_nil, Nat.add_zero] at ended
  rw [lead, settled.byte, byteAt_of_le (Nat.le_of_eq ended.symm)]

theorem Between.advance (between : c.Between before (ch :: rest)) (narrow : ch.toNat < 128) :
    c.advance.Between (before ++ [ch]) rest := by
  have moved : (c.advanceBy (Text.byteLength [ch])).Between (before ++ [ch]) rest :=
    between.advanceBy
  rwa [byteLength_singleton narrow] at moved

/-! ### Runs -/

/-- A test that is one of the character under the cursor leads behind the characters that pass. -/
theorem passWhile_eq {test : Test} {passes : Char → Bool} (narrow : Narrow passes)
    (inside : ∀ {c : Cursor} {before : List Char} {ch : Char} {rest : List Char},
      c.Settled → c.Between before (ch :: rest) → test.holds c = passes ch)
    (ended : ∀ {c : Cursor} {before : List Char},
      c.Settled → c.Between before [] → test.holds c = false)
    (settled : c.Settled) (between : c.Between before rest) :
    c.passWhile test = c.advanceBy (Text.byteLength (rest.takeWhile passes)) := by
  induction rest generalizing c before with
  | nil =>
    rw [passWhile, ended settled between, if_neg Bool.false_ne_true]
    rfl
  | cons ch rest ih =>
    rw [passWhile, inside settled between, List.takeWhile_cons]
    split
    next passed =>
      have within := narrow ch passed
      rw [ih settled.advance (between.advance within), Text.byteLength_cons, advanceBy_add,
        utf8Size_of_lt within]
      rfl
    next => rfl

theorem Settled.passLayout_eq (settled : c.Settled) (between : c.Between before rest) :
    c.passWhile .layout = c.advanceBy (Text.byteLength (rest.takeWhile isLayout)) := by
  refine passWhile_eq narrow_isLayout ?_ ?_ settled between
  · exact fun settled between => settled.test_lead between narrow_isLayout
  · intro c before settled between
    rw [Test.holds_layout, between.lead_of_nil settled]
    decide

theorem Settled.passRun_eq {passes : Char → Bool} (narrow : Narrow passes) (settled : c.Settled)
    (between : c.Between before rest) :
    c.passWhile (.run passes) = c.advanceBy (Text.byteLength (rest.takeWhile passes)) := by
  refine passWhile_eq narrow ?_ ?_ settled between
  · intro c before ch rest settled between
    rw [Test.holds_run, between.atEnd_eq, settled.test_lead between narrow]
    rfl
  · intro c before settled between
    rw [Test.holds_run, between.atEnd_eq]
    rfl

theorem slice?_eq {source : String} {part behind : List Char}
    (text : source.toList = before ++ (part ++ behind)) :
    slice? source (Text.byteLength before) (Text.byteLength (before ++ part)) = some part := by
  have front : Text.dropBytes? source.toList (Text.byteLength before) = some (part ++ behind) := by
    rw [text, Text.dropBytes?_append]
  have back : Text.dropBytes? source.toList (Text.byteLength (before ++ part)) = some behind := by
    rw [text, ← List.append_assoc, Text.dropBytes?_append]
  rw [slice?, front, Option.bind_some, back, Option.bind_some, Text.byteLength_append,
    if_pos (Nat.le_add_right _ _), List.length_append, Nat.add_sub_cancel, List.take_left']
  rfl

theorem Settled.readRun?_eq {passes : Char → Bool} (narrow : Narrow passes) (settled : c.Settled)
    (between : c.Between before rest) :
    c.readRun? passes = some (rest.takeWhile passes,
      c.advanceBy (Text.byteLength (rest.takeWhile passes))) := by
  have split : c.Between before (rest.takeWhile passes ++ rest.dropWhile passes) := by
    rwa [List.takeWhile_append_dropWhile]
  have moved := split.advanceBy
  rw [readRun?, settled.passRun_eq narrow between, moved.position, between.position,
    slice?_eq split.text]
  rfl

/-! ### Lexemes -/

theorem Between.readIllegal?_eq (between : c.Between before (ch :: rest)) :
    c.readIllegal? = some (⟨.illegal, [ch]⟩, c.advanceBy (Text.byteLength [ch])) := by
  have positive : 0 < Text.byteLength [ch] := Text.byteLength_pos (List.cons_ne_nil ch [])
  have last : (c.advanceBy (Text.byteLength [ch] - 1)).advance =
      c.advanceBy (Text.byteLength [ch] - 1 + 1) := (advanceBy_add c _ 1).symm
  rw [readIllegal?, between.text?_eq, Option.map_some]
  simp only [List.take_succ_cons, List.take_zero]
  rw [last, Nat.sub_add_cancel positive]

theorem Settled.ofPair?_lead (settled : c.Settled) (between : c.Between before (ch :: rest)) :
    Kind.ofPair? c.lead (Char.ofUInt8 c.peekByte) = rest.head?.bind (Kind.ofPair? ch) := by
  rcases settled.lead_cases between with ⟨narrow, same⟩ | ⟨wide, wideLead⟩
  · have moved := between.advance narrow
    change Kind.ofPair? c.lead c.advance.lead = _
    rw [same]
    cases rest with
    | nil =>
      rw [moved.lead_of_nil settled.advance]
      exact Kind.ofPair?_eq_none_iff.mpr fun equal => absurd equal (by decide)
    | cons second rest => exact settled.advance.lookup_lead moved (narrow_ofPair? ch)
  · rw [ofPair?_of_wide wideLead]
    exact (Option.bind_eq_none_iff.mpr fun _ _ => ofPair?_of_wide wide).symm

/-- The lexeme at the front of the text is read, and passed. -/
theorem Settled.readLexeme?_eq (settled : c.Settled) (between : c.Between before (ch :: rest)) :
    c.readLexeme? = some (Lexeme.first ch rest,
      c.advanceBy (Text.byteLength (Lexeme.first ch rest).text)) := by
  rw [readLexeme?, Lexeme.first, settled.ofPair?_lead between,
    settled.test_lead between narrow_isLetter, settled.test_lead between narrow_isDigit,
    settled.lookup_lead between narrow_ofSymbol?]
  cases paired : rest.head?.bind (Kind.ofPair? ch) with
  | some kind =>
    obtain ⟨second, tail, rfl, pair⟩ : ∃ second tail, rest = second :: tail ∧
        Kind.ofPair? ch second = some kind := by
      cases rest with
      | nil => cases paired
      | cons second tail => exact ⟨second, tail, rfl, paired⟩
    have narrow : ch.toNat < 128 := by
      apply Nat.not_le.mp
      intro wide
      rw [ofPair?_of_wide wide] at pair
      cases pair
    have narrowSecond := narrow_ofPair? ch second (Option.isSome_of_eq_some pair)
    have moved := between.advance narrow
    dsimp only
    rw [settled.lead_eq between narrow, settled.advance.lead_eq moved narrowSecond]
    simp only [List.take_succ_cons, List.take_zero, Text.byteLength_cons, Text.byteLength_nil,
      utf8Size_of_lt narrow, utf8Size_of_lt narrowSecond]
    rfl
  | none =>
    dsimp only
    split
    next letter =>
      rw [settled.readRun?_eq narrow_isLetter between]
      rfl
    · split
      next digit =>
        rw [settled.readRun?_eq narrow_isDigit between]
        rfl
      · cases symbol : Kind.ofSymbol? ch with
        | some kind =>
          have narrow := narrow_ofSymbol? ch (Option.isSome_of_eq_some symbol)
          dsimp only
          rw [settled.lead_eq between narrow, byteLength_singleton narrow]
          rfl
        | none => exact between.readIllegal?_eq

/-! ### Tokens -/

theorem Settled.readToken?_of_between (settled : c.Settled) (between : c.Between before rest) :
    c.readToken? = c.next? := by
  have split : c.Between before (rest.takeWhile isLayout ++ rest.dropWhile isLayout) := by
    rwa [List.takeWhile_append_dropWhile]
  have moved := split.advanceBy
  have place : (c.advanceBy (Text.byteLength (rest.takeWhile isLayout))).position =
      c.position + Text.byteLength (rest.takeWhile isLayout) := by
    rw [moved.position, Text.byteLength_append, between.position]
  rw [readToken?, settled.passLayout_eq between, moved.atEnd_eq, next?, between.text?_eq,
    Option.map_some, Step.next?, place]
  cases body : rest.dropWhile isLayout with
  | nil =>
    -- only layout was left
    have all := List.takeWhile_append_dropWhile (p := isLayout) (l := rest)
    rw [body, List.append_nil] at all
    rw [all]
    rfl
  | cons ch tail =>
    rw [body] at moved
    rw [(settled.advanceBy _).readLexeme?_eq moved, ← advanceBy_add]
    rfl

/-- Inside a character, the byte under the cursor begins no lexeme. -/
theorem Settled.readToken?_of_not_onBoundary (settled : c.Settled) (inside : ¬ c.OnBoundary) :
    c.readToken? = none := by
  have before : c.position < c.source.utf8ByteSize :=
    Nat.lt_of_le_of_ne settled.inside fun ended => inside (onBoundary_of_end ended)
  have wide : 128 ≤ c.lead.toNat := by
    rw [lead, settled.byte]
    exact le_byteAt_of_not_isValid before inside
  have stays : c.passWhile .layout = c := by
    rw [passWhile, Test.holds_layout, narrow_isLayout.eq_false wide, if_neg Bool.false_ne_true]
  have goesOn : c.atEnd = false := decide_eq_false (Nat.not_le.mpr before)
  have noText : c.text? = none := by
    rwa [← Option.not_isSome_iff_eq_none, isSome_text?_iff]
  rw [readToken?, stays, goesOn, if_neg Bool.false_ne_true, readLexeme?, ofPair?_of_wide wide,
    narrow_isLetter.eq_false wide, narrow_isDigit.eq_false wide, narrow_ofSymbol?.eq_none wide,
    readIllegal?, noText]
  rfl

/-- Byte by byte, a settled cursor reads what it reads character by character. -/
theorem Settled.readToken?_eq (settled : c.Settled) : c.readToken? = c.next? := by
  by_cases boundary : c.OnBoundary
  · obtain ⟨before, rest, between⟩ := settled.exists_between boundary
    exact settled.readToken?_of_between between
  · rw [settled.readToken?_of_not_onBoundary boundary, next?_eq_none_iff.mpr boundary]

end Cursor

end Frontend
