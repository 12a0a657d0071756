import Frontend.Proofs.Recovery
import Mathlib.Data.List.Forall2

/-!
# Replacing tokens

What is read depends on the kinds of the tokens and on which integers are within the limit, and on
nothing else. Where each token is replaced by another one that is alike in this, statements remain
statements and broken ones remain broken, in the same places.
-/
namespace Frontend

/-- A replacement that keeps all that reading looks at. -/
structure Token.Alike (g : Token → Token) : Prop where
  kind : ∀ token, (g token).kind = token.kind
  atom : ∀ token, (g token).IsAtom ↔ token.IsAtom

/-! ### Trees over other tokens -/

/-- The same tree over other tokens, with the names and values of those. -/
def Expression.replace (g : Token → Token) : Expression → Expression
  | identifier name => identifier ⟨g name.token, (g name.token).literal⟩
  | integer token value => integer (g token) ((integerValue? (g token).literal).getD value)
  | unary token _ operand => unary (g token) (g token).literal (operand.replace g)
  | binary token left _ right =>
    binary (g token) (left.replace g) (g token).literal (right.replace g)

/-- The same statement over other tokens. -/
def Statement.replace (g : Token → Token) : Statement → Statement
  | binding token name value =>
    binding (g token) ⟨g name.token, (g name.token).literal⟩ (value.replace g)
  | returning token value => returning (g token) (value.replace g)
  | bare token value => bare (g token) (value.replace g)

section Alike

variable {g : Token → Token}

@[simp] theorem Expression.tokens_replace (e : Expression) :
    (e.replace g).tokens = e.tokens.map g := by
  induction e with
  | identifier name => rfl
  | integer token value => rfl
  | unary token operator operand ih => simp [replace, tokens, ih]
  | binary token left operator right leftIh rightIh => simp [replace, tokens, leftIh, rightIh]

@[simp] theorem Statement.value_replace (s : Statement) :
    (s.replace g).value = s.value.replace g := by
  cases s <;> rfl

theorem Expression.Faithful.replace (alike : Token.Alike g) {e : Expression}
    (faithful : e.Faithful) : (e.replace g).Faithful := by
  induction e with
  | identifier name => exact ⟨(alike.kind _).trans faithful.1, rfl⟩
  | integer token value =>
    -- the other integer is within the limit too, so it has a value
    have kind := (alike.kind token).trans faithful.1
    have atom := (alike.atom token).mpr (Token.isAtom_of_integerValue? faithful.1 faithful.2)
    have fits : Text.decimalValue (g token).literal.toList ≤ integerLimit := by
      rcases atom with name | ⟨-, fits⟩
      · rw [kind] at name
        cases name
      · exact fits
    obtain ⟨other, valued⟩ :=
      Option.isSome_iff_exists.mp ((integerValue?_isSome_iff (g token).literal).mpr fits)
    refine ⟨kind, ?_⟩
    rw [valued, Option.getD_some]
  | unary token operator operand ih =>
    obtain ⟨sign, -, inner⟩ := faithful
    exact ⟨by rwa [alike.kind], rfl, ih inner⟩
  | binary token left operator right leftIh rightIh =>
    obtain ⟨joins, -, leftInner, rightInner⟩ := faithful
    exact ⟨by rwa [alike.kind], rfl, leftIh leftInner, rightIh rightInner⟩

theorem Expression.power?_replace (alike : Token.Alike g) (e : Expression) :
    (e.replace g).power? = e.power? := by
  cases e <;> simp [replace, power?, alike.kind]

theorem Expression.Grouped.replace (alike : Token.Alike g) {e : Expression}
    (grouped : e.Grouped) : (e.replace g).Grouped := by
  induction e with
  | identifier name => trivial
  | integer token value => trivial
  | unary token operator operand ih =>
    obtain ⟨outer, inner⟩ := grouped
    exact ⟨(power?_replace alike operand).trans outer, ih inner⟩
  | binary token left operator right leftIh rightIh =>
    obtain ⟨looser, tighter, leftInner, rightInner⟩ := grouped
    refine ⟨?_, ?_, leftIh leftInner, rightIh rightInner⟩
    · rwa [power?_replace alike, alike.kind]
    · rwa [power?_replace alike, alike.kind]

theorem Statement.SpelledBy.replace (alike : Token.Alike g) {s : Statement} {own : List Token}
    (spelled : s.SpelledBy own) : (s.replace g).SpelledBy (own.map g) := by
  cases spelled with
  | binding isLet isName isSign faithful =>
    simp only [List.map_cons, ← Expression.tokens_replace]
    exact .binding ((alike.kind _).trans isLet) ((alike.kind _).trans isName)
      ((alike.kind _).trans isSign) (faithful.replace alike)
  | returning isReturn faithful =>
    simp only [List.map_cons, ← Expression.tokens_replace]
    exact .returning ((alike.kind _).trans isReturn) (faithful.replace alike)
  | bare head faithful =>
    rw [← Expression.tokens_replace]
    refine .bare ?_ (faithful.replace alike)
    rw [Expression.tokens_replace, List.head?_map, head]
    rfl

/-! ### What the tokens say -/

theorem forall_mem_head?_map {P Q : Token → Prop} {tokens : List Token}
    (holds : ∀ token ∈ tokens.head?, P token) (carries : ∀ token, P token → Q (g token)) :
    ∀ token ∈ (tokens.map g).head?, Q token := by
  cases tokens with
  | nil => simp
  | cons first rest => simpa using carries first (holds first rfl)

theorem Token.Alike.continues_iff (alike : Token.Alike g) {minimum : BindingPower}
    {token : Token} : (g token).Continues minimum ↔ token.Continues minimum := by
  rw [Token.Continues, Token.Continues, alike.kind]

theorem chainEnd_map (alike : Token.Alike g) (minimum : BindingPower) (awaited : Awaited)
    (tokens : List Token) :
    chainEnd minimum awaited (tokens.map g) =
      ((chainEnd minimum awaited tokens).mapError (List.map g)).map (List.map g) := by
  induction tokens generalizing awaited with
  | nil => cases awaited <;> rfl
  | cons token rest ih =>
    rw [List.map_cons]
    cases awaited with
    | operand =>
      rw [chainEnd, chainEnd, alike.kind, ih, ih]
      simp only [alike.atom]
      split
      · rfl
      · split <;> rfl
    | operator =>
      rw [chainEnd, chainEnd, ih]
      simp only [alike.continues_iff]
      split <;> rfl

theorem Opens.map (alike : Token.Alike g) {opening following : List Token}
    (opens : Opens opening following) : Opens (opening.map g) (following.map g) := by
  cases opens with
  | binding isLet isName isSign =>
    exact .binding ((alike.kind _).trans isLet) ((alike.kind _).trans isName)
      ((alike.kind _).trans isSign)
  | returning isReturn => exact .returning ((alike.kind _).trans isReturn)
  | bare noLet noReturn => exact .bare (by rwa [alike.kind]) (by rwa [alike.kind])

theorem Ends.map (alike : Token.Alike g) {following rest : List Token}
    (ends : Ends following rest) : Ends (following.map g) (rest.map g) := by
  cases ends with
  | closed semicolon => exact .closed ((alike.kind _).trans semicolon)
  | unclosed stops =>
    exact .unclosed (forall_mem_head?_map stops fun token stop => by rwa [alike.kind])

theorem Breaks.map (alike : Token.Alike g) {tokens found : List Token} {gap : Gap}
    (breaks : Breaks tokens gap found) : Breaks (tokens.map g) gap (found.map g) := by
  cases breaks with
  | name isLet noName =>
    exact .name ((alike.kind _).trans isLet)
      (forall_mem_head?_map noName fun token other => by rwa [alike.kind])
  | sign isLet isName noSign =>
    exact .sign ((alike.kind _).trans isLet) ((alike.kind _).trans isName)
      (forall_mem_head?_map noSign fun token other => by rwa [alike.kind])
  | operand opens walk =>
    rw [List.map_append]
    refine .operand (opens.map alike) ?_
    rw [chainEnd_map alike, walk]
    rfl

theorem toBoundary_map (alike : Token.Alike g) (tokens : List Token) :
    toBoundary (tokens.map g) = (toBoundary tokens).map g := by
  induction tokens with
  | nil => rfl
  | cons token rest ih =>
    rw [List.map_cons, toBoundary, toBoundary, alike.kind, ih]
    split
    · rfl
    · split <;> rfl

theorem afterBroken_map (alike : Token.Alike g) (tokens : List Token) :
    afterBroken (tokens.map g) = (afterBroken tokens).map g := by
  cases tokens with
  | nil => rfl
  | cons first rest =>
    rw [List.map_cons, afterBroken, afterBroken, alike.kind, toBoundary_map alike]
    split <;> rfl

/-! ### What becomes of the tokens -/

/-- What becomes of an item when its tokens, which are `among` some, are replaced. -/
inductive Item.Replaced (g : Token → Token) (among : List Token) : Item → Item → Prop
  | sound {s : Statement} {own : List Token} :
      s.SpelledBy own → Replaced g among (.ok s) (.ok (s.replace g))
  | broken {gap : Gap} {token : Token} :
      token ∈ among →
      Replaced g among (.error (gap.diagnostic token)) (.error (gap.diagnostic (g token)))

/-- An account of the tokens is one of the tokens that replace them. -/
theorem Account.replace (alike : Token.Alike g) {finish final : Position}
    (ended : g (.endOfInput finish) = .endOfInput final) {tokens among : List Token}
    {items : List Item} (account : Account finish tokens items) (inside : tokens ⊆ among)
    (endInside : .endOfInput finish ∈ among) :
    ∃ images, Account final (tokens.map g) images ∧
      List.Forall₂ (Item.Replaced g among) items images := by
  induction account with
  | nil => exact ⟨[], .nil, .nil⟩
  | @sound s own following rest items spelled grouped ends _ ih =>
    have later : rest ⊆ own ++ following :=
      (ends.suffix.trans (List.suffix_append own following)).subset
    obtain ⟨images, account, replaced⟩ := ih (List.Subset.trans later inside)
    refine ⟨.ok (s.replace g) :: images, ?_, .cons (.sound spelled) replaced⟩
    rw [List.map_append]
    refine .sound (spelled.replace alike) ?_ (ends.map alike) account
    rw [Statement.value_replace]
    exact grouped.replace alike
  | @broken tokens found gap items breaks _ ih =>
    obtain ⟨images, account, replaced⟩ :=
      ih (List.Subset.trans (afterBroken_suffix tokens).subset inside)
    obtain ⟨before, split, -⟩ := breaks.exists_before
    -- the token that is found, or else the end of the text, is replaced like the others
    have moved : (found.map g).headD (.endOfInput final) =
        g (found.headD (.endOfInput finish)) := by
      cases found with
      | nil => exact ended.symm
      | cons token found => rfl
    have member : found.headD (.endOfInput finish) ∈ among := by
      cases found with
      | nil => exact endInside
      | cons token found => exact inside (by simp [split])
    refine ⟨.error (gap.diagnostic (g (found.headD (.endOfInput finish)))) :: images, ?_,
      .cons (.broken member) replaced⟩
    rw [← moved]
    refine .broken (breaks.map alike) ?_
    rwa [afterBroken_map alike]

end Alike

end Frontend
