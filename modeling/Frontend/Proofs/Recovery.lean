import Frontend.Proofs.Items
import Frontend.Proofs.Scanning

/-!
# Where reading goes on

Behind a broken statement, reading goes on where its tokens alone say (`afterBroken`), whatever the
failure was and wherever it was noticed. So an account of all statements can be given on the tokens
alone (`Account`). It determines the items of a program, and is determined by them
(`Handlers.account_readItems`, `Handlers.readItems_eq_of_account`).
-/
namespace Frontend

/-- The tokens behind the next semicolon, or from the next keyword on that begins a statement. -/
def toBoundary : List Token → List Token
  | [] => []
  | token :: rest =>
    if token.kind = .semicolon then rest
    else if token.kind.IsBoundary then token :: rest
    else toBoundary rest

/-- The tokens behind a broken statement at the front. A keyword that begins it does not end it. -/
def afterBroken : List Token → List Token
  | [] => []
  | first :: rest => if first.kind = .semicolon then rest else toBoundary rest

theorem toBoundary_suffix (tokens : List Token) : toBoundary tokens <:+ tokens := by
  induction tokens with
  | nil => exact List.suffix_refl _
  | cons token rest ih =>
    rw [toBoundary]
    split
    · exact List.suffix_cons token rest
    · split
      · exact List.suffix_refl _
      · exact ih.trans (List.suffix_cons token rest)

theorem afterBroken_suffix (tokens : List Token) : afterBroken tokens <:+ tokens := by
  cases tokens with
  | nil => exact List.suffix_refl _
  | cons first rest =>
    rw [afterBroken]
    split
    · exact List.suffix_cons first rest
    · exact (toBoundary_suffix rest).trans (List.suffix_cons first rest)

theorem toBoundary_of_inside {inside : List Token} (rest : List Token)
    (noBoundary : ∀ token ∈ inside, ¬ token.kind.IsBoundary) :
    toBoundary (inside ++ rest) = toBoundary rest := by
  induction inside with
  | nil => rfl
  | cons token inside ih =>
    obtain ⟨first, later⟩ := List.forall_mem_cons.mp noBoundary
    rw [List.cons_append, toBoundary, if_neg (fun semicolon => first (.inl semicolon)),
      if_neg first, ih later]

theorem toBoundary_append {tokens : List Token} (more : List Token)
    (boundary : ∃ token ∈ tokens, token.kind.IsBoundary) :
    toBoundary (tokens ++ more) = toBoundary tokens ++ more := by
  induction tokens with
  | nil => simp at boundary
  | cons token rest ih =>
    rw [List.cons_append, toBoundary, toBoundary]
    split
    · rfl
    · split
      · rfl
      next inside =>
        obtain ⟨other, member, ends⟩ := boundary
        rcases List.mem_cons.mp member with rfl | later
        · exact absurd ends inside
        · exact ih ⟨other, later, ends⟩

theorem afterBroken_append {tokens : List Token} {semicolon : Token} (more : List Token)
    (member : semicolon ∈ tokens) (kind : semicolon.kind = .semicolon) :
    afterBroken (tokens ++ more) = afterBroken tokens ++ more := by
  obtain ⟨first, rest, rfl⟩ := List.exists_cons_of_ne_nil (List.ne_nil_of_mem member)
  rw [List.cons_append, afterBroken, afterBroken]
  split
  · rfl
  next other =>
    rcases List.mem_cons.mp member with rfl | later
    · exact absurd kind other
    · exact toBoundary_append more ⟨semicolon, later, .inl kind⟩

theorem skipBroken_eq_toBoundary {start : Position} {tokens : List Token}
    (elsewhere : ∀ token ∈ tokens, token.position ≠ start) :
    skipBroken start tokens = toBoundary tokens := by
  induction tokens with
  | nil => rfl
  | cons token rest ih =>
    obtain ⟨first, later⟩ := List.forall_mem_cons.mp elsewhere
    rw [skipBroken, toBoundary, ih later]
    split
    next semicolon => rw [if_pos semicolon]
    next keyword => simp [keyword, Kind.IsBoundary, first]
    next keyword => simp [keyword, Kind.IsBoundary, first]
    next noSemicolon noLet noReturn =>
      rw [if_neg noSemicolon, if_neg]
      rintro (semicolon | isLet | isReturn)
      · exact noSemicolon semicolon
      · exact noLet isLet
      · exact noReturn isReturn

theorem position_ne_of_pairwise {first : Token} {rest : List Token}
    (ordered : (first :: rest).Pairwise Token.Precedes) :
    ∀ token ∈ rest, token.position ≠ first.position :=
  fun token member => ((List.pairwise_cons.mp ordered).1 token member).position_ne.symm

theorem skipBroken_first {first : Token} {rest : List Token}
    (ordered : (first :: rest).Pairwise Token.Precedes) :
    skipBroken first.position (first :: rest) = afterBroken (first :: rest) := by
  -- only the keyword of the broken statement itself stands where that statement began
  have later := skipBroken_eq_toBoundary (position_ne_of_pairwise ordered)
  rw [skipBroken, afterBroken, if_pos rfl, later]
  split
  next semicolon => rw [if_pos semicolon]
  next keyword => rw [if_neg (by rw [keyword]; decide)]
  next keyword => rw [if_neg (by rw [keyword]; decide)]
  next noSemicolon _ _ => rw [if_neg noSemicolon]

namespace Handlers

variable {w : Window}

/-- Wherever reading stopped, it goes on behind the broken statement as its tokens say. -/
theorem BrokenBy.ahead_resume {gap : Gap} {found : List Token} (broken : BrokenBy w gap found)
    (ordered : w.ahead.Pairwise Token.Precedes) :
    (standard.readStatement w).resume.ahead = afterBroken w.ahead := by
  obtain ⟨passed, split⟩ := (standard.readStatement w).reached.1
  obtain ⟨extra, behind⟩ := broken.behind
  obtain ⟨before, tokens, noSemicolon, inside⟩ := broken.breaks.exists_before
  -- reading has passed no more than what stands before the gap
  obtain rfl : before = passed ++ extra := by
    rw [← split, ← behind, ← List.append_assoc] at tokens
    exact (List.append_cancel_right tokens).symm
  rw [Reading.resume_of_error broken.result, Window.recover]
  dsimp only
  generalize (standard.readStatement w).window.ahead = left at split behind ⊢
  cases passed with
  | nil =>
    -- reading is still on the first token, which is told from later ones by its position
    rw [List.nil_append] at split
    rw [split]
    cases ahead : w.ahead with
    | nil => rfl
    | cons first rest =>
      rw [ahead] at ordered
      rw [Window.current_of_ahead ahead, skipBroken_first ordered]
  | cons first tail =>
    -- the first token has been passed, and nothing behind it stands where it does
    rw [← split] at ordered
    have elsewhere := position_ne_of_pairwise ordered
    have tailInside : ∀ token ∈ tail, ¬ token.kind.IsBoundary :=
      fun token member => inside token (List.mem_append_left extra member)
    rw [Window.current_of_ahead split.symm, ← split,
      skipBroken_eq_toBoundary fun token member =>
        elsewhere token (List.mem_append_right tail member),
      List.cons_append, afterBroken, if_neg (noSemicolon first List.mem_cons_self),
      toBoundary_of_inside _ tailInside]

end Handlers

/-! ### The account of all statements -/

/-- What becomes of the tokens ahead, up to the end of the text at `finish`: a sound statement is
taken off the front with its semicolon, a broken one with all that is skipped behind it. -/
inductive Account (finish : Position) : List Token → List Item → Prop
  | nil : Account finish [] []
  | sound {s : Statement} {own following rest : List Token} {items : List Item} :
      s.SpelledBy own → s.value.Grouped → Ends following rest → Account finish rest items →
      Account finish (own ++ following) (.ok s :: items)
  | broken {tokens found : List Token} {gap : Gap} {items : List Item} :
      Breaks tokens gap found → Account finish (afterBroken tokens) items →
      Account finish tokens
        (.error (gap.diagnostic (found.headD (.endOfInput finish))) :: items)

theorem Ends.suffix {following rest : List Token} (ends : Ends following rest) :
    rest <:+ following := by
  cases ends with
  | closed => exact List.suffix_cons _ _
  | unclosed => exact List.suffix_refl _

theorem Statement.SpelledBy.ne_nil {s : Statement} {own : List Token} (spelled : s.SpelledBy own) :
    own ≠ [] := by
  cases spelled with
  | binding => exact List.cons_ne_nil _ _
  | returning => exact List.cons_ne_nil _ _
  | bare => exact Expression.tokens_ne_nil _

theorem Breaks.ne_nil {tokens found : List Token} {gap : Gap} (breaks : Breaks tokens gap found) :
    tokens ≠ [] := by
  cases breaks with
  | name => exact List.cons_ne_nil _ _
  | sign => exact List.cons_ne_nil _ _
  | operand opens => cases opens <;> exact List.cons_ne_nil _ _

namespace Handlers

/-- The items of a program account for all of its tokens. -/
theorem account_readItems (w : Window) (ordered : w.ahead.Pairwise Token.Precedes) :
    Account w.finish w.ahead (standard.readItems w).1 := by
  -- statement by statement, as they are read; the order of the tokens is kept
  induction w using readItems.induct standard with
  | case1 w some_left r _ ih =>
    rw [readItems_of_left some_left]
    have remains := r.reaches_resume
    have later := ih (ordered.sublist remains.1.sublist)
    rw [remains.2] at later
    rcases readStatement_outcome some_left with
      ⟨s, own, following, sound⟩ | ⟨gap, found, broken⟩
    · rw [sound.result, sound.ahead]
      have ends := sound.ends
      rw [← Reading.resume_of_ok sound.result] at ends
      exact .sound sound.spelled sound.grouped ends later
    · rw [broken.result]
      rw [broken.ahead_resume ordered] at later
      exact .broken broken.breaks later
  | case2 w none_left =>
    have empty : w.ahead = [] := List.length_eq_zero_iff.mp (Nat.eq_zero_of_not_pos none_left)
    rw [readItems_of_ahead_nil empty, empty]
    exact .nil

/-- No other items do. -/
theorem readItems_eq_of_account {w : Window} {items : List Item}
    (account : Account w.finish w.ahead items) (ordered : w.ahead.Pairwise Token.Precedes) :
    (standard.readItems w).1 = items := by
  -- on the account, which says at each place how reading goes on
  generalize ends : w.finish = finish, ahead : w.ahead = tokens at account
  induction account generalizing w with
  | nil => exact readItems_of_ahead_nil ahead
  | @sound s own following rest items spelled grouped behind _ ih =>
    obtain ⟨result, rest⟩ := readStatement_of_spelledBy spelled grouped ahead behind
    have some_left : 0 < w.left := by
      rw [Window.left, ahead]
      exact List.length_pos_iff.mpr (List.append_ne_nil_of_left_ne_nil spelled.ne_nil following)
    have remains := (standard.readStatement w).reaches_resume
    rw [← Reading.resume_of_ok result] at rest
    rw [readItems_of_left some_left, result,
      ih (ordered.sublist remains.1.sublist) (remains.2.trans ends) rest]
  | @broken tokens found gap items breaks _ ih =>
    rw [← ahead] at breaks
    have broken := broken_of_breaks breaks
    have remains := (standard.readStatement w).reaches_resume
    have rest := broken.ahead_resume ordered
    rw [ahead] at rest
    rw [readItems_of_left (List.length_pos_iff.mpr breaks.ne_nil), broken.result, Window.final,
      ends, ih (ordered.sublist remains.1.sublist) (remains.2.trans ends) rest]

end Handlers

theorem pairwise_ahead_ofSource {source : String} (fits : source.utf8ByteSize ≤ Position.limit) :
    (Window.ofSource source).ahead.Pairwise Token.Precedes :=
  pairwise_scan (by rwa [byteLength_toList, Nat.zero_add])

theorem account_itemsOf {source : String} (fits : source.utf8ByteSize ≤ Position.limit) :
    Account (Window.ofSource source).finish (Window.ofSource source).ahead (itemsOf source) :=
  Handlers.account_readItems _ (pairwise_ahead_ofSource fits)

theorem itemsOf_eq_of_account {source : String} {items : List Item}
    (account : Account (Window.ofSource source).finish (Window.ofSource source).ahead items)
    (fits : source.utf8ByteSize ≤ Position.limit) : itemsOf source = items :=
  Handlers.readItems_eq_of_account account (pairwise_ahead_ofSource fits)

end Frontend
