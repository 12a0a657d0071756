import Frontend.Proofs.Bytes
import Frontend.Text.Line

/-!
# Cutting a text into lines

Cutting a list after each separator remembers nothing from one piece to the next, so it makes no
difference whether what ends in a separator is cut together with what follows (`splitAfter_append`).
Nor does it make a difference whether a text is cut into lines as characters or as bytes
(`splitAfter_bytesOf`), since only a newline has the byte of a newline.
-/
namespace Frontend.Text

variable {α : Type}

/-- Induction over the pieces of a list: all of them end in the separator, but perhaps the last. -/
@[elab_as_elim]
theorem piece_induction [DecidableEq α] (separator : α) {motive : List α → Prop} (xs : List α)
    (nil : motive [])
    (piece : ∀ body rest, separator ∉ body → motive rest → motive (body ++ separator :: rest))
    (last : ∀ body, separator ∉ body → body ≠ [] → motive body) : motive xs := by
  -- with the beginning of a piece in front, that has been passed already
  have behind (body : List α) (plain : separator ∉ body) : motive (body ++ xs) := by
    induction xs generalizing body with
    | nil =>
      rw [List.append_nil]
      by_cases empty : body = []
      · exact empty ▸ nil
      · exact last body plain empty
    | cons x xs ih =>
      by_cases same : x = separator
      · exact same ▸ piece body xs plain (ih [] List.not_mem_nil)
      · have longer : separator ∉ body ++ [x] := by simp [plain, Ne.symm same]
        simpa using ih (body ++ [x]) longer
  exact behind [] List.not_mem_nil

/-! ### Lists that end in a separator -/

/-- The list is empty or ends in the separator. -/
def Terminated (separator : α) (xs : List α) : Prop := ∀ last ∈ xs.getLast?, last = separator

theorem Terminated.of_append {separator : α} {xs ys : List α}
    (terminated : Terminated separator (xs ++ ys)) : Terminated separator ys := by
  intro last isLast
  apply terminated
  rw [List.getLast?_append, Option.mem_def.mp isLast]
  rfl

theorem Terminated.of_append_cons {separator : α} {body rest : List α}
    (terminated : Terminated separator (body ++ separator :: rest)) : Terminated separator rest := by
  rw [← List.singleton_append, ← List.append_assoc] at terminated
  exact terminated.of_append

theorem Terminated.append_cons {separator : α} {rest : List α}
    (terminated : Terminated separator rest) (body : List α) :
    Terminated separator (body ++ separator :: rest) := by
  intro last isLast
  rw [List.getLast?_append, List.getLast?_cons, Option.some_or, Option.mem_some] at isLast
  cases ended : rest.getLast? with
  | none => rw [← isLast, ended, Option.getD_none]
  | some other => rw [← isLast, ended, Option.getD_some, terminated other ended]

/-- What has no separator and is empty or ends in one is empty. -/
theorem Terminated.eq_nil {separator : α} {xs : List α}
    (terminated : Terminated separator xs) (plain : separator ∉ xs) : xs = [] := by
  cases ended : xs.getLast? with
  | none => exact List.getLast?_eq_none_iff.mp ended
  | some last => exact absurd (terminated last ended ▸ List.mem_of_getLast? ended) plain

theorem Terminated.eq_nil_or_concat {separator : α} {xs : List α}
    (terminated : Terminated separator xs) : xs = [] ∨ ∃ earlier, xs = earlier ++ [separator] := by
  rcases List.eq_nil_or_concat xs with empty | ⟨earlier, last, rfl⟩
  · exact .inl empty
  · rw [List.concat_eq_append] at terminated ⊢
    exact .inr ⟨earlier, by rw [terminated last (by simp)]⟩

/-! ### Piece by piece -/

variable [DecidableEq α] {separator : α}

instance : DecidablePred (Terminated separator) := fun xs =>
  inferInstanceAs (Decidable (∀ last ∈ xs.getLast?, last = separator))

/-- Up to its first separator, a list is a piece. -/
theorem splitAfter_piece {body : List α} (plain : separator ∉ body) (rest : List α) :
    splitAfter separator (body ++ separator :: rest) =
      (body ++ [separator]) :: splitAfter separator rest := by
  induction body with
  | nil => rw [List.nil_append, splitAfter, if_pos rfl, List.nil_append]
  | cons x body ih =>
    rw [List.mem_cons, not_or] at plain
    rw [List.cons_append, splitAfter, if_neg (Ne.symm plain.1), ih plain.2]
    rfl

/-- Without a separator, a list is all one piece. -/
theorem splitAfter_of_not_mem {body : List α} (plain : separator ∉ body) (some_left : body ≠ []) :
    splitAfter separator body = [body] := by
  induction body with
  | nil => exact absurd rfl some_left
  | cons x body ih =>
    rw [List.mem_cons, not_or] at plain
    rw [splitAfter, if_neg (Ne.symm plain.1)]
    cases body with
    | nil => rfl
    | cons y body => rw [ih plain.2 (List.cons_ne_nil y body)]

/-- What ends in a separator is cut as it would be by itself. -/
theorem splitAfter_append {xs : List α} (terminated : Terminated separator xs) (ys : List α) :
    splitAfter separator (xs ++ ys) = splitAfter separator xs ++ splitAfter separator ys := by
  induction xs using piece_induction separator with
  | nil => rfl
  | piece body rest plain ih =>
    rw [List.append_assoc, List.cons_append, splitAfter_piece plain, splitAfter_piece plain,
      ih terminated.of_append_cons, List.cons_append]
  | last body plain some_left =>
    -- a piece that ends in a separator has one
    exact absurd (terminated.eq_nil plain) some_left

/-- What ends in a separator is cut into as many pieces as there are separators. -/
theorem length_splitAfter {xs : List α} (terminated : Terminated separator xs) :
    (splitAfter separator xs).length = xs.count separator := by
  induction xs using piece_induction separator with
  | nil => rfl
  | piece body rest plain ih =>
    rw [splitAfter_piece plain, List.length_cons, ih terminated.of_append_cons, List.count_append,
      List.count_eq_zero.mpr plain, List.count_cons_self, Nat.zero_add]
  | last body plain some_left => exact absurd (terminated.eq_nil plain) some_left

/-- The pieces before any of the pieces, joined, are cut into these pieces again. -/
theorem splitAfter_flatten {xs piece : List α} {before after : List (List α)}
    (cut : splitAfter separator xs = before ++ piece :: after) :
    splitAfter separator before.flatten = before := by
  induction xs using piece_induction separator generalizing before with
  | nil => simp [splitAfter] at cut
  | piece body rest plain ih =>
    rw [splitAfter_piece plain] at cut
    cases before with
    | nil => rfl
    | cons first before =>
      obtain ⟨rfl, later⟩ := List.cons.inj cut
      rw [List.flatten_cons, List.append_assoc, List.singleton_append, splitAfter_piece plain,
        ih later]
  | last body plain some_left =>
    rw [splitAfter_of_not_mem plain some_left] at cut
    cases before with
    | nil => rfl
    | cons first before => simp at cut

/-- Bodies that are written one after the other, each with a separator behind it, are cut there. -/
theorem splitAfter_flatMap_concat {γ : Type} {body : γ → List α} {entries : List γ}
    (plain : ∀ entry ∈ entries, separator ∉ body entry) :
    splitAfter separator (entries.flatMap fun entry => body entry ++ [separator]) =
      entries.map fun entry => body entry ++ [separator] := by
  induction entries with
  | nil => rfl
  | cons entry entries ih =>
    obtain ⟨first, later⟩ := List.forall_mem_cons.mp plain
    rw [List.flatMap_cons, List.append_assoc, List.singleton_append, splitAfter_piece first,
      ih later, List.map_cons]

/-! ### Characters and bytes -/

/-- The bytes of a text in UTF-8. -/
def bytesOf (text : List Char) : List UInt8 := text.flatMap String.utf8EncodeChar

@[simp] theorem bytesOf_nil : bytesOf [] = [] := rfl

@[simp] theorem bytesOf_append (text more : List Char) :
    bytesOf (text ++ more) = bytesOf text ++ bytesOf more := List.flatMap_append

theorem length_bytesOf (text : List Char) : (bytesOf text).length = byteLength text := by
  induction text with
  | nil => rfl
  | cons c text ih =>
    rw [← List.singleton_append, bytesOf_append, List.length_append, ih, byteLength_append]
    simp [bytesOf, String.length_utf8EncodeChar]

theorem toByteArray_bytesOf (text : List Char) :
    (bytesOf text).toByteArray = (String.ofList text).toByteArray :=
  String.toByteArray_ofList.symm

theorem bytesOf_toList (source : String) :
    bytesOf source.toList = source.toByteArray.data.toList := by
  rw [← String.ofList_toList (s := source), ← toByteArray_bytesOf, List.toList_data_toByteArray,
    String.ofList_toList]

/-- Bytes are decoded to a text exactly if they are the bytes of that text. -/
theorem fromUTF8?_eq_some_iff {bytes : ByteArray} {source : String} :
    String.fromUTF8? bytes = some source ↔ bytes = source.toByteArray := by
  constructor
  · intro decoded
    rw [String.fromUTF8?] at decoded
    split at decoded
    · obtain rfl := Option.some.inj decoded
      rfl
    · cases decoded
  · rintro rfl
    rw [String.fromUTF8?, dif_pos source.isValidUTF8]
    rfl

theorem bytesOf_join {γ : Type} (text : γ → String) (entries : List γ) :
    bytesOf (String.join (entries.map text)).toList =
      entries.flatMap fun entry => bytesOf (text entry).toList := by
  rw [String.toList_join, bytesOf, List.flatMap_assoc, List.flatMap_map]
  rfl

theorem bytesOf_newline : bytesOf ['\n'] = ['\n'.toUInt8] := by decide

theorem newline_not_mem_utf8EncodeChar {c : Char} (other : c ≠ '\n') :
    '\n'.toUInt8 ∉ String.utf8EncodeChar c := by
  intro member
  rcases utf8EncodeChar_cases c with ⟨narrow, bytes⟩ | ⟨wide, -⟩
  · rw [bytes, List.mem_singleton] at member
    apply other
    rw [← ofUInt8_toUInt8 narrow, ← member]
    rfl
  · exact absurd (le_of_mem_utf8EncodeChar wide member) (by decide)

theorem newline_not_mem_bytesOf {text : List Char} (plain : '\n' ∉ text) :
    '\n'.toUInt8 ∉ bytesOf text := by
  intro member
  obtain ⟨c, inText, inside⟩ := List.mem_flatMap.mp member
  exact newline_not_mem_utf8EncodeChar (fun same => plain (same ▸ inText)) inside

theorem count_newline_bytesOf (text : List Char) :
    (bytesOf text).count '\n'.toUInt8 = text.count '\n' := by
  induction text using piece_induction '\n' with
  | nil => rfl
  | piece body rest plain ih =>
    rw [← List.singleton_append, bytesOf_append, bytesOf_append, bytesOf_newline, List.count_append,
      List.count_append, List.count_append, List.count_append, ih,
      List.count_eq_zero.mpr (newline_not_mem_bytesOf plain), List.count_eq_zero.mpr plain]
    simp
  | last body plain =>
    rw [List.count_eq_zero.mpr (newline_not_mem_bytesOf plain), List.count_eq_zero.mpr plain]

theorem terminated_bytesOf {text : List Char} (terminated : Terminated '\n' text) :
    Terminated '\n'.toUInt8 (bytesOf text) := by
  rcases terminated.eq_nil_or_concat with rfl | ⟨earlier, rfl⟩
  · exact fun byte last => nomatch last
  · rw [bytesOf_append, bytesOf_newline]
    intro byte last
    simpa using last.symm

/-- The lines of the bytes of a text are the bytes of its lines. -/
theorem splitAfter_bytesOf (text : List Char) :
    splitAfter '\n'.toUInt8 (bytesOf text) = (splitAfter '\n' text).map bytesOf := by
  induction text using piece_induction '\n' with
  | nil => rfl
  | piece body rest plain ih =>
    rw [splitAfter_piece plain, List.map_cons, ← ih, ← List.singleton_append, bytesOf_append,
      bytesOf_append, bytesOf_append, bytesOf_newline, List.singleton_append,
      splitAfter_piece (newline_not_mem_bytesOf plain)]
  | last body plain some_left =>
    have some_bytes : bytesOf body ≠ [] := by
      obtain ⟨c, rest, rfl⟩ := List.exists_cons_of_ne_nil some_left
      exact List.append_ne_nil_of_left_ne_nil String.utf8EncodeChar_ne_nil _
    rw [splitAfter_of_not_mem plain some_left, List.map_singleton,
      splitAfter_of_not_mem (newline_not_mem_bytesOf plain) some_bytes]

/-! ### The lines of a source text -/

/-- The lines of a text, each with its newline; the last one may lack it. -/
def lines (source : String) : List String := (splitAfter '\n' source.toList).map String.ofList

theorem splitAfter_toByteArray (source : String) :
    splitAfter '\n'.toUInt8 source.toByteArray.data.toList =
      (lines source).map fun line => line.toByteArray.data.toList := by
  rw [← bytesOf_toList, splitAfter_bytesOf, lines, List.map_map]
  refine List.map_congr_left fun line _ => ?_
  rw [Function.comp_apply, ← bytesOf_toList, String.toList_ofList]

end Frontend.Text
