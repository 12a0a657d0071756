import Frontend.Proofs.Items
import Mathlib.Computability.Language

/-!
# The texts without diagnostics

A text has no diagnostics exactly if its tokens are a program of the grammar
(`diagnostics_eq_nil_iff_mem_program`).

The grammar is ambiguous: a dash behind an operand goes on with the expression or begins the next
statement. Reading always goes on. This loses no text, since the dash is a sign in the other
reading and an operand has to follow it in both (`leavesProgram_of_mem_program`).
-/
namespace Frontend

open scoped Computability

/-! ### The grammar -/

namespace Grammar

/-- One token, of one of the given kinds. -/
def ofKinds (kinds : List Kind) : Language Token :=
  {tokens | ∃ token : Token, token.kind ∈ kinds ∧ tokens = [token]}

/-- A name, or an integer within the limit. -/
def atom : Language Token := {tokens | ∃ token : Token, token.IsAtom ∧ tokens = [token]}

/-- An atom behind any number of signs. -/
def operand : Language Token := (ofKinds [.not, .dash])∗ * atom

/-- Operands with operators between them. -/
def chain : Language Token := operand * (ofKinds Handlers.standardJoining * operand)∗

/-- What stands in a statement before its expression. -/
def opening : Language Token :=
  ofKinds [.letKeyword] * ofKinds [.identifier] * ofKinds [.assignment] +
    ofKinds [.returnKeyword] + 1

/-- A statement. Its semicolon is optional. -/
def statement : Language Token := opening * chain * (ofKinds [.semicolon] + 1)

/-- Statements, one after the other. -/
def program : Language Token := statement∗

variable {tokens rest : List Token} {token : Token} {kinds : List Kind}

theorem append_mem_kstar {l : Language Token} (first : tokens ∈ l) (later : rest ∈ l∗) :
    tokens ++ rest ∈ l∗ :=
  (mul_kstar_le_kstar : l * l∗ ≤ l∗) (Language.append_mem_mul first later)

theorem singleton_mem_ofKinds (kind : token.kind ∈ kinds) : [token] ∈ ofKinds kinds :=
  ⟨token, kind, rfl⟩

/-! ### The tokens of a statement are in the grammar -/

theorem singleton_mem_operand (isAtom : token.IsAtom) : [token] ∈ operand :=
  Language.append_mem_mul (Language.nil_mem_kstar _) ⟨token, isAtom, rfl⟩

theorem singleton_mem_chain (isAtom : token.IsAtom) : [token] ∈ chain :=
  Language.append_mem_mul (singleton_mem_operand isAtom) (Language.nil_mem_kstar _)

theorem singleton_mem_signs (sign : token.kind.IsSign) : [token] ∈ ofKinds [.not, .dash] :=
  singleton_mem_ofKinds (by simpa [Kind.IsSign] using sign)

/-- A sign in front of a first operand becomes part of it. -/
theorem sign_cons_mem_operand_mul {l : Language Token} (sign : token.kind.IsSign)
    (begins : rest ∈ operand * l) : token :: rest ∈ operand * l := by
  obtain ⟨_, ⟨signs, areSigns, last, isAtom, rfl⟩, more, areMore, rfl⟩ := begins
  exact Language.append_mem_mul
    (Language.append_mem_mul (append_mem_kstar (singleton_mem_signs sign) areSigns) isAtom) areMore

theorem append_mem_chain (left : tokens ∈ chain) (joins : token.kind ∈ Handlers.standardJoining)
    (right : rest ∈ chain) : tokens ++ token :: rest ∈ chain := by
  obtain ⟨first, isFirst, more, areMore, rfl⟩ := left
  obtain ⟨second, isSecond, others, areOthers, rfl⟩ := right
  have link : [token] ++ second ∈ ofKinds Handlers.standardJoining * operand :=
    Language.append_mem_mul (singleton_mem_ofKinds joins) isSecond
  have tail := append_mem_kstar link areOthers
  have both : more ++ ([token] ++ second ++ others) ∈
      (ofKinds Handlers.standardJoining * operand)∗ := by
    rw [← kstar_mul_kstar]
    exact Language.append_mem_mul areMore tail
  have whole : first ++ (more ++ ([token] ++ second ++ others)) ∈ chain :=
    Language.append_mem_mul isFirst both
  simpa only [List.append_assoc, List.cons_append, List.nil_append] using whole

theorem tokens_mem_chain {e : Expression} (faithful : e.Faithful) : e.tokens ∈ chain := by
  induction e with
  | identifier name => exact singleton_mem_chain (.inl faithful.1)
  | integer token value =>
    exact singleton_mem_chain (Token.isAtom_of_integerValue? faithful.1 faithful.2)
  | unary token operator operand ih => exact sign_cons_mem_operand_mul faithful.1 (ih faithful.2.2)
  | binary token left operator right leftIh rightIh =>
    exact append_mem_chain (leftIh faithful.2.2.1) faithful.1 (rightIh faithful.2.2.2)

/-- Whether a statement ends depends on the next token only. -/
theorem exists_closing_of_ends {following : List Token} (ends : Ends following rest) :
    ∃ closing, following = closing ++ rest ∧ closing ∈ ofKinds [.semicolon] + 1 ∧
      ∀ other : List Token, other.head? = rest.head? → Ends (closing ++ other) other := by
  cases ends with
  | @closed semicolon _ kind =>
    exact ⟨[semicolon], rfl, .inl (singleton_mem_ofKinds (by simp [kind])), fun _ _ => .closed kind⟩
  | unclosed stops =>
    exact ⟨[], rfl, .inr rfl, fun other first => .unclosed (first ▸ stops)⟩

theorem closing_append_mem_program {closing : List Token} (isBody : tokens ∈ opening * chain)
    (isClosing : closing ∈ ofKinds [.semicolon] + 1) (later : rest ∈ program) :
    tokens ++ (closing ++ rest) ∈ program := by
  have isStatement : tokens ++ closing ∈ statement := Language.append_mem_mul isBody isClosing
  rw [← List.append_assoc]
  exact append_mem_kstar isStatement later

theorem ends_append_mem_program {following : List Token} (isBody : tokens ∈ opening * chain)
    (ends : Ends following rest) (later : rest ∈ program) : tokens ++ following ∈ program := by
  obtain ⟨closing, rfl, isClosing, -⟩ := exists_closing_of_ends ends
  exact closing_append_mem_program isBody isClosing later

theorem spelledBy_mem_body {s : Statement} (spelled : s.SpelledBy tokens) :
    tokens ∈ opening * chain := by
  cases spelled with
  | @binding keyword name sign value isLet isName isSign faithful =>
    have isOpening : [keyword] ++ [name] ++ [sign] ∈ opening :=
      .inl (.inl (Language.append_mem_mul
        (Language.append_mem_mul (singleton_mem_ofKinds (by simp [isLet]))
          (singleton_mem_ofKinds (by simp [isName])))
        (singleton_mem_ofKinds (by simp [isSign]))))
    exact Language.append_mem_mul isOpening (tokens_mem_chain faithful)
  | @returning keyword value isReturn faithful =>
    have isOpening : [keyword] ∈ opening :=
      .inl (.inr (singleton_mem_ofKinds (by simp [isReturn])))
    exact Language.append_mem_mul isOpening (tokens_mem_chain faithful)
  | bare head faithful =>
    have isOpening : [] ∈ opening := .inr rfl
    exact Language.append_mem_mul isOpening (tokens_mem_chain faithful)

/-! ### The walk passes over what is in the grammar -/

theorem mem_kstar_ofKinds_iff :
    tokens ∈ (ofKinds kinds)∗ ↔ ∀ token ∈ tokens, token.kind ∈ kinds := by
  constructor
  · rintro ⟨parts, rfl, inside⟩ token member
    obtain ⟨part, isPart, inPart⟩ := List.mem_flatten.mp member
    obtain ⟨other, kind, rfl⟩ := inside part isPart
    rwa [List.mem_singleton.mp inPart]
  · intro inside
    induction tokens with
    | nil => exact Language.nil_mem_kstar _
    | cons token tokens ih =>
      have first := singleton_mem_ofKinds (inside token List.mem_cons_self)
      exact append_mem_kstar first (ih fun other member => inside other (.tail _ member))

theorem chainEnd_of_mem_signs {minimum : BindingPower}
    (areSigns : tokens ∈ (ofKinds [.not, .dash])∗) :
    chainEnd minimum .operand (tokens ++ rest) = chainEnd minimum .operand rest := by
  rw [mem_kstar_ofKinds_iff] at areSigns
  induction tokens with
  | nil => rfl
  | cons sign signs ih =>
    have isSign : sign.kind.IsSign := by simpa [Kind.IsSign] using areSigns sign List.mem_cons_self
    rw [← ih fun other member => areSigns other (.tail _ member)]
    exact chainEnd_sign isSign _

theorem chainEnd_of_mem_operand {minimum : BindingPower} (isOperand : tokens ∈ operand) :
    chainEnd minimum .operand (tokens ++ rest) = chainEnd minimum .operator rest := by
  obtain ⟨signs, areSigns, last, ⟨token, isAtom, rfl⟩, rfl⟩ := Language.mem_mul.mp isOperand
  rw [List.append_assoc, chainEnd_of_mem_signs areSigns]
  exact chainEnd_atom isAtom rest

/-- The walk passes over operators that bind tightly enough, each with the operand behind it. -/
theorem chainEnd_of_mem_links {minimum : BindingPower} {joining : Language Token}
    (continuing : ∀ join ∈ joining, ∃ token : Token, token.Continues minimum ∧ join = [token])
    (linked : tokens ∈ (joining * operand)∗) :
    chainEnd minimum .operator (tokens ++ rest) = chainEnd minimum .operator rest := by
  obtain ⟨links, rfl, areLinks⟩ := Language.mem_kstar.mp linked
  clear linked
  induction links with
  | nil => rfl
  | cons link links ih =>
    obtain ⟨join, isJoin, second, isSecond, rfl⟩ :=
      Language.mem_mul.mp (areLinks link List.mem_cons_self)
    obtain ⟨operator, continues, rfl⟩ := continuing join isJoin
    rw [List.flatten_cons, List.append_assoc, List.append_assoc, List.singleton_append,
      chainEnd_continue continues, chainEnd_of_mem_operand isSecond]
    exact ih fun other member => areLinks other (.tail _ member)

theorem chainEnd_of_mem_chain (isChain : tokens ∈ chain) :
    chainEnd .default .operand (tokens ++ rest) = chainEnd .default .operator rest := by
  obtain ⟨first, isFirst, more, areMore, rfl⟩ := Language.mem_mul.mp isChain
  rw [List.append_assoc, chainEnd_of_mem_operand isFirst]
  refine chainEnd_of_mem_links ?_ areMore
  rintro join ⟨operator, joins, rfl⟩
  exact ⟨operator, ⟨(bindingPower_of_mem_standardJoining joins).1, joins⟩, rfl⟩

theorem exists_cons_of_mem_chain (isChain : tokens ∈ chain) :
    ∃ first more, tokens = first :: more ∧ (first.kind.IsSign ∨ first.IsAtom) := by
  obtain ⟨isFirst, isOperand, others, -, rfl⟩ := Language.mem_mul.mp isChain
  obtain ⟨signs, areSigns, last, ⟨token, isAtom, rfl⟩, rfl⟩ := Language.mem_mul.mp isOperand
  rw [mem_kstar_ofKinds_iff] at areSigns
  cases signs with
  | nil => exact ⟨token, others, rfl, .inr isAtom⟩
  | cons sign signs =>
    have isSign : sign.kind.IsSign := by simpa [Kind.IsSign] using areSigns sign List.mem_cons_self
    exact ⟨sign, signs ++ [token] ++ others, by simp, .inl isSign⟩

theorem exists_cons_of_mem_opening (isOpening : tokens ∈ opening) (nonempty : tokens ≠ []) :
    ∃ keyword more, tokens = keyword :: more ∧
      (keyword.kind = .letKeyword ∨ keyword.kind = .returnKeyword) := by
  rcases isOpening with (isBinding | ⟨keyword, kind, rfl⟩) | empty
  · obtain ⟨start, isStart, sign, -, rfl⟩ := Language.mem_mul.mp isBinding
    obtain ⟨start, ⟨keyword, kind, rfl⟩, name, -, rfl⟩ := Language.mem_mul.mp isStart
    exact ⟨keyword, name ++ sign, by simp, .inl (List.mem_singleton.mp kind)⟩
  · exact ⟨keyword, [], rfl, .inr (List.mem_singleton.mp kind)⟩
  · exact absurd empty nonempty

theorem opens_of_mem_opening {following : List Token} (isOpening : tokens ∈ opening)
    (isChain : rest ∈ chain) : Opens tokens (rest ++ following) := by
  rcases isOpening with (isBinding | ⟨keyword, kind, rfl⟩) | empty
  · obtain ⟨start, isStart, last, ⟨sign, isSign, rfl⟩, rfl⟩ := Language.mem_mul.mp isBinding
    obtain ⟨first, ⟨keyword, isLet, rfl⟩, second, ⟨name, isName, rfl⟩, rfl⟩ :=
      Language.mem_mul.mp isStart
    exact .binding (List.mem_singleton.mp isLet) (List.mem_singleton.mp isName)
      (List.mem_singleton.mp isSign)
  · exact .returning (List.mem_singleton.mp kind)
  · obtain rfl : tokens = [] := empty
    obtain ⟨first, more, rfl, begins⟩ := exists_cons_of_mem_chain isChain
    have inside : ¬ first.kind.IsBoundary := begins.elim (·.not_isBoundary) (·.not_isBoundary)
    exact .bare (fun kind => inside (.inr (.inl kind))) (fun kind => inside (.inr (.inr kind)))

theorem exists_cons_of_mem_body (isBody : tokens ∈ opening * chain) :
    ∃ first more, tokens = first :: more ∧ first.kind ≠ .semicolon ∧
      (first.Continues .default → ∀ following,
        chainEnd .default .operand (more ++ following) =
          chainEnd .default .operator following) := by
  obtain ⟨start, isOpening, tail, isChain, rfl⟩ := Language.mem_mul.mp isBody
  by_cases empty : start = []
  -- a chain begins with a sign or an atom; of these only the dash also joins, and what follows it
  -- is a chain in either reading
  · obtain ⟨first, more, rfl, begins⟩ := exists_cons_of_mem_chain isChain
    have inside : ¬ first.kind.IsBoundary := begins.elim (·.not_isBoundary) (·.not_isBoundary)
    refine ⟨first, more, by simp [empty], fun kind => inside (.inl kind), ?_⟩
    rintro ⟨-, joins⟩ following
    have sign : first.kind.IsSign := begins.resolve_right fun isAtom => by
      rcases isAtom with kind | ⟨kind, -⟩ <;> rw [kind] at joins <;> revert joins <;> decide
    rw [← chainEnd_of_mem_chain isChain, List.cons_append, chainEnd_sign sign]
  -- a keyword joins nothing
  · obtain ⟨keyword, more, rfl, kind⟩ := exists_cons_of_mem_opening isOpening empty
    refine ⟨keyword, more ++ tail, by simp, ?_, ?_⟩
    · rcases kind with kind | kind <;> rw [kind] <;> decide
    · rintro ⟨-, joins⟩
      exact absurd (.inr kind) (not_isBoundary_of_mem_standardJoining joins)

/-- Ahead of these tokens, an expression ends where statements are left. -/
def LeavesProgram (tokens : List Token) : Prop :=
  ∃ rest, chainEnd .default .operator tokens = .ok rest ∧ ∀ next, Ends rest next → next ∈ program

theorem leavesProgram_append {tail : List Token} (isTail : tail ∈ ofKinds [.semicolon] + 1)
    (later : rest ∈ program) (leaves : LeavesProgram rest) : LeavesProgram (tail ++ rest) := by
  rcases isTail with ⟨semicolon, kind, rfl⟩ | empty
  · have isSemicolon : semicolon.kind = .semicolon := List.mem_singleton.mp kind
    refine ⟨semicolon :: rest, chainEnd_stop ?_, fun next ends => ?_⟩
    · rintro token first ⟨-, joins⟩
      obtain rfl := Option.some.inj first
      exact absurd (.inl isSemicolon) (not_isBoundary_of_mem_standardJoining joins)
    · cases ends with
      | closed => exact later
      | unclosed stops => exact absurd isSemicolon (stops semicolon rfl).1
  · obtain rfl : tail = [] := empty
    exact leaves

/-- Ahead of more statements an expression goes on as far as it can, and this loses none. -/
theorem leavesProgram_of_mem_program (isProgram : tokens ∈ program) : LeavesProgram tokens := by
  obtain ⟨parts, rfl, areStatements⟩ := Language.mem_kstar.mp isProgram
  clear isProgram
  induction parts with
  | nil =>
    refine ⟨[], rfl, fun next ends => ?_⟩
    cases ends
    exact Language.nil_mem_kstar _
  | cons part parts ih =>
    have later := fun other member => areStatements other (List.mem_cons_of_mem part member)
    have whole : (part :: parts).flatten ∈ program := Language.join_mem_kstar areStatements
    obtain ⟨body, isBody, tail, isTail, rfl⟩ :=
      Language.mem_mul.mp (areStatements part List.mem_cons_self)
    obtain ⟨first, more, rfl, noSemicolon, goesOn⟩ := exists_cons_of_mem_body isBody
    by_cases continues : first.Continues .default
    · -- the expression goes on through this statement, up to its semicolon if it has one
      have through : chainEnd .default .operator ((first :: more ++ tail) :: parts).flatten =
          chainEnd .default .operator (tail ++ parts.flatten) := by
        rw [List.flatten_cons, List.append_assoc, List.cons_append, chainEnd_continue continues,
          goesOn continues]
      rw [LeavesProgram, through]
      exact leavesProgram_append isTail (Language.join_mem_kstar later) (ih later)
    · refine ⟨_, chainEnd_stop (by simpa using continues), fun next ends => ?_⟩
      cases ends with
      | closed kind => exact absurd kind noSemicolon
      | unclosed => exact whole

theorem sound_of_mem_program {w : Window} (isProgram : w.ahead ∈ program) (some_left : 0 < w.left) :
    ∃ s own following, Handlers.SoundAs w s own following ∧
      ∀ next, Ends following next → next ∈ program := by
  obtain ⟨parts, ahead, areStatements⟩ := Language.mem_kstar.mp isProgram
  cases parts with
  | nil => simp [Window.left, ahead] at some_left
  | cons part parts =>
    have later := fun other member => areStatements other (List.mem_cons_of_mem part member)
    have isLater : parts.flatten ∈ program := Language.join_mem_kstar later
    obtain ⟨body, isBody, tail, isTail, rfl⟩ :=
      Language.mem_mul.mp (areStatements part List.mem_cons_self)
    obtain ⟨start, isOpening, links, isChain, rfl⟩ := Language.mem_mul.mp isBody
    obtain ⟨following, walk, leaves⟩ :=
      leavesProgram_append isTail isLater (leavesProgram_of_mem_program isLater)
    have split : w.ahead = start ++ (links ++ (tail ++ parts.flatten)) := by
      rw [ahead, List.flatten_cons, List.append_assoc, List.append_assoc]
    rw [← chainEnd_of_mem_chain isChain] at walk
    obtain ⟨s, own, sound⟩ :=
      Handlers.sound_of_opens (opens_of_mem_opening isOpening isChain) split walk
    exact ⟨s, own, following, sound, leaves⟩

end Grammar

open Grammar

theorem diagnostics_readItems_eq_nil_iff (w : Window) :
    diagnosticsOfItems (Handlers.standard.readItems w).1 = [] ↔ w.ahead ∈ program := by
  constructor
  -- what has been read without a diagnostic is a program, statement by statement
  · induction w using Handlers.readItems.induct Handlers.standard with
    | case1 w some_left r _ ih =>
      rw [Handlers.readItems_of_left some_left]
      intro none
      rcases Handlers.readStatement_outcome some_left with
        ⟨s, own, following, sound⟩ | ⟨gap, found, broken⟩
      · rw [sound.result, diagnosticsOfItems_cons_ok] at none
        have later := ih none
        rw [Reading.resume_of_ok sound.result] at later
        rw [sound.ahead]
        exact ends_append_mem_program (spelledBy_mem_body sound.spelled) sound.ends later
      · rw [broken.result, diagnosticsOfItems_cons_error] at none
        cases none
    | case2 w none_left =>
      intro _
      rw [List.length_eq_zero_iff.mp (Nat.eq_zero_of_not_pos none_left)]
      exact Language.nil_mem_kstar _
  -- a program is read without one; its first statement may take in some of the later ones
  · induction w using Handlers.readItems.induct Handlers.standard with
    | case1 w some_left r _ ih =>
      intro isProgram
      obtain ⟨s, own, following, sound, leaves⟩ := sound_of_mem_program isProgram some_left
      rw [Handlers.readItems_of_left some_left, sound.result, diagnosticsOfItems_cons_ok]
      apply ih
      rw [Reading.resume_of_ok sound.result]
      exact leaves _ sound.ends
    | case2 w none_left =>
      intro _
      have empty := List.length_eq_zero_iff.mp (Nat.eq_zero_of_not_pos none_left)
      rw [Handlers.readItems_of_ahead_nil empty]
      rfl

/-- A text has no diagnostics exactly if its tokens, but for the end of the text, are statements
of the grammar one after the other. No reading of an ambiguous text is lost. -/
theorem diagnostics_eq_nil_iff_mem_program (source : String) :
    (parse source).2 = [] ↔ (tokenize source).dropLast ∈ program := by
  rw [parse_eq, ← ahead_ofSource]
  exact diagnostics_readItems_eq_nil_iff _

end Frontend
