import Frontend.Proofs.ChainsAbove
import Frontend.Proofs.SlidingWindow

/-!
# How far an expression reaches

Where reading an expression ends, or fails, is said by the tokens alone (`parseExpression_extent`).
It ends on the last token of a chain that the next token does not go on with (`EndsAt`), and it
fails on a token that is no operand where one is required (`FailsAt`). For each start and minimum,
there is exactly one such index, of one kind or the other. Behind the last token the end of the text
stands for ever, so no index is too large.
-/
namespace Frontend

/-! ### The tokens between two places -/

/-- The tokens of a text from the index on, but for the end of the text. -/
def tokensFrom (source : String) (index : Nat) : List Token := (scan 0 source.toList).drop index

/-- The tokens of a text from the index `first` on, up to the index `behind`. -/
def tokensBetween (source : String) (first behind : Nat) : List Token :=
  (List.range' first (behind - first)).map (tokenAt source)

section

variable {source : String} {first behind : Nat} {run rest : List Token} {token : Token}

theorem ahead_iterate_advance (source : String) (index : Nat) :
    (Window.advance^[index] (.ofSource source)).ahead = tokensFrom source index := by
  rw [Window.iterate_advance]
  rfl

theorem tokenAt_eq_headD (source : String) (index : Nat) :
    tokenAt source index =
      (tokensFrom source index).headD (Cursor.finalToken source) := by
  rw [← Window.current_iterate_advance, ← ahead_iterate_advance, ← Window.final_ofSource,
    Window.current, Window.iterate_advance]
  rfl

theorem tokensFrom_succ (split : tokensFrom source first = token :: rest) :
    tokensFrom source (first + 1) = rest := by
  rw [tokensFrom] at split ⊢
  rw [← List.tail_drop, split, List.tail_cons]

theorem length_tokensFrom (source : String) (index : Nat) :
    (tokensFrom source index).length = (scan 0 source.toList).length - index :=
  List.length_drop

theorem tokensBetween_self (source : String) (index : Nat) :
    tokensBetween source index index = [] := by
  rw [tokensBetween, Nat.sub_self]
  rfl

theorem length_tokensBetween (source : String) (first behind : Nat) :
    (tokensBetween source first behind).length = behind - first := by
  rw [tokensBetween, List.length_map, List.length_range']

theorem tokensBetween_add_succ (source : String) (first length : Nat) :
    tokensBetween source first (first + (length + 1)) =
      tokenAt source first :: tokensBetween source (first + 1) (first + 1 + length) := by
  rw [tokensBetween, tokensBetween, Nat.add_sub_cancel_left, Nat.add_sub_cancel_left,
    List.range'_succ, List.map_cons]

/-- Tokens that stand in the text in front of others are those from there on, so many. -/
theorem tokensBetween_of_tokensFrom (split : tokensFrom source first = run ++ rest) :
    tokensBetween source first (first + run.length) = run ∧
      tokensFrom source (first + run.length) = rest := by
  induction run generalizing first with
  | nil => exact ⟨tokensBetween_self source first, split⟩
  | cons token run ih =>
    obtain ⟨tokens, behind⟩ := ih (tokensFrom_succ split)
    rw [List.length_cons, tokensBetween_add_succ, tokens, tokenAt_eq_headD, split]
    refine ⟨rfl, ?_⟩
    rw [← behind, Nat.add_right_comm]
    rfl

/-- Where none of them is the end of the text, the tokens from an index on stand in the text. -/
theorem tokensFrom_eq_append (ordered : first ≤ behind)
    (inner : ∀ token ∈ tokensBetween source first behind, token.kind ≠ .endOfInput) :
    tokensFrom source first =
      tokensBetween source first behind ++ tokensFrom source behind := by
  obtain ⟨length, rfl⟩ := Nat.exists_eq_add_of_le ordered
  clear ordered
  induction length generalizing first with
  | zero => rw [Nat.add_zero, tokensBetween_self, List.nil_append]
  | succ length ih =>
    rw [tokensBetween_add_succ] at inner ⊢
    obtain ⟨isInner, later⟩ := List.forall_mem_cons.mp inner
    rw [tokenAt_eq_headD] at isInner ⊢
    cases split : tokensFrom source first with
    | nil =>
      rw [split] at isInner
      exact absurd rfl isInner
    | cons token rest =>
      have shifted := ih later
      rw [tokensFrom_succ split] at shifted
      rw [shifted]
      simp only [List.headD_cons, List.cons_append]
      rw [Nat.add_right_comm first 1 length]
      rfl

/-! ### Where an expression ends or fails -/

/-- The tokens from the index `first` to the index `last` are a chain of the operators above the
minimum, and the one behind them does not go on with it. -/
structure EndsAt (source : String) (minimum : BindingPower) (first last : Nat) : Prop where
  ordered : first ≤ last
  isChain : tokensBetween source first (last + 1) ∈ Grammar.chainAbove minimum
  stops : ¬ (tokenAt source (last + 1)).Continues minimum

/-- An operand is required at the index `place`, where neither an operand nor a sign stands. -/
structure FailsAt (source : String) (minimum : BindingPower) (first place : Nat) : Prop where
  ordered : first ≤ place
  isUnfinished : tokensBetween source first place ∈ Grammar.unfinishedAbove minimum
  noSign : ¬ (tokenAt source place).kind.IsSign
  noAtom : ¬ (tokenAt source place).IsAtom

/-- What is wrong with a token that stands where an operand has to and is none. -/
def Token.operandCause (token : Token) : Cause :=
  match token.kind with
  | .illegal => .illegalToken token.literal
  | .integer => .integerOutOfRange token.literal
  | kind => .missingOperand kind

theorem operandDiagnostic_eq (token : Token) :
    operandDiagnostic token = ⟨token.operandCause, token.position⟩ := by
  rcases token with ⟨kind, literal, position⟩
  cases kind <;> rfl

/-- What holds of the end of the text, and of a first token that is left at an index, holds of the
token there. -/
theorem tokenAt_of_tokensFrom {p : Token → Prop} {index : Nat}
    (split : tokensFrom source index = rest)
    (empty : p (Cursor.finalToken source)) (holds : ∀ token ∈ rest.head?, p token) :
    p (tokenAt source index) := by
  rw [tokenAt_eq_headD, split]
  cases rest with
  | nil => exact empty
  | cons token rest => exact holds token rfl

/-- Where the same tokens are left behind them, there are as many tokens between two places. -/
theorem eq_of_tokensFrom_eq {other : Nat} (ordered : first ≤ behind) (orderedToo : first ≤ other)
    (split : tokensFrom source first =
      tokensBetween source first behind ++ tokensFrom source behind)
    (splitToo : tokensFrom source first =
      tokensBetween source first other ++ tokensFrom source other)
    (same : tokensFrom source other = tokensFrom source behind) :
    other = behind := by
  have lengths := congrArg List.length (splitToo.symm.trans split)
  rw [List.length_append, List.length_append, same, length_tokensBetween,
    length_tokensBetween] at lengths
  omega

/-- A window that is reached and has as many tokens ahead as at an index is the window there. -/
theorem eq_iterate_advance_of_reaches {v : Window} {index : Nat}
    (reached : (Window.advance^[first] (.ofSource source)).Reaches v)
    (same : v.ahead.length = (tokensFrom source index).length) :
    v = Window.advance^[index] (.ofSource source) := by
  obtain ⟨n, rfl⟩ := reached.exists_iterate
  rw [← Function.iterate_add_apply] at same ⊢
  rw [ahead_iterate_advance, length_tokensFrom, length_tokensFrom] at same
  have left : tokensFrom source (n + first) = tokensFrom source index := by
    rw [tokensFrom, tokensFrom, List.drop_eq_drop_iff]
    omega
  rw [← ahead_iterate_advance, ← ahead_iterate_advance] at left
  rw [Window.iterate_advance, Window.iterate_advance] at left ⊢
  rw [Window.mk.injEq]
  exact ⟨left, rfl⟩

namespace EndsAt

variable {minimum : BindingPower} {last other : Nat}

theorem split (ends : EndsAt source minimum first last) :
    tokensFrom source first =
      tokensBetween source first (last + 1) ++ tokensFrom source (last + 1) :=
  tokensFrom_eq_append (Nat.le_succ_of_le ends.ordered)
    (Grammar.endFree_chainAbove minimum _ ends.isChain)

theorem chainEnd_eq (ends : EndsAt source minimum first last) :
    chainEnd minimum .operand (tokensFrom source first) =
      .ok (tokensFrom source (last + 1)) := by
  rw [ends.split, Grammar.chainEnd_of_mem_chainAbove ends.isChain]
  refine chainEnd_stop fun token member => ?_
  have stops := ends.stops
  rw [tokenAt_eq_headD, List.headD_eq_head?_getD, Option.mem_def.mp member] at stops
  exact stops

theorem unique (ends : EndsAt source minimum first last)
    (endsToo : EndsAt source minimum first other) : other = last := by
  have same := Except.ok.inj (endsToo.chainEnd_eq.symm.trans ends.chainEnd_eq)
  have behind := eq_of_tokensFrom_eq (Nat.le_succ_of_le ends.ordered)
    (Nat.le_succ_of_le endsToo.ordered) ends.split endsToo.split same
  exact Nat.succ.inj behind

end EndsAt

namespace FailsAt

variable {minimum : BindingPower} {place other : Nat}

theorem split (fails : FailsAt source minimum first place) :
    tokensFrom source first =
      tokensBetween source first place ++ tokensFrom source place :=
  tokensFrom_eq_append fails.ordered
    (Grammar.endFree_unfinishedAbove minimum _ fails.isUnfinished)

theorem chainEnd_eq (fails : FailsAt source minimum first place) :
    chainEnd minimum .operand (tokensFrom source first) =
      .error (tokensFrom source place) := by
  rw [fails.split, Grammar.chainEnd_of_mem_unfinishedAbove fails.isUnfinished]
  refine chainEnd_stuck fun token member => ?_
  have stuck := And.intro fails.noSign fails.noAtom
  rw [tokenAt_eq_headD, List.headD_eq_head?_getD, Option.mem_def.mp member] at stuck
  exact stuck

theorem unique (fails : FailsAt source minimum first place)
    (failsToo : FailsAt source minimum first other) : other = place := by
  have same := Except.error.inj (failsToo.chainEnd_eq.symm.trans fails.chainEnd_eq)
  exact eq_of_tokensFrom_eq fails.ordered failsToo.ordered fails.split failsToo.split same

end FailsAt

theorem exists_endsAt_or_failsAt (source : String) (minimum : BindingPower) (first : Nat) :
    (∃ last, EndsAt source minimum first last) ∨ ∃ place, FailsAt source minimum first place := by
  have walked := Grammar.walked_chainEnd minimum .operand (tokensFrom source first)
  cases outcome : chainEnd minimum .operand (tokensFrom source first) with
  | ok rest =>
    rw [outcome] at walked
    obtain ⟨stops, run, isChain, split⟩ := walked
    obtain ⟨tokens, behind⟩ := tokensBetween_of_tokensFrom split
    have some_read := List.length_pos_iff.mpr (Grammar.ne_nil_of_mem_chainAbove isChain)
    obtain ⟨length, longer⟩ := Nat.exists_eq_add_of_lt some_read
    rw [Nat.zero_add] at longer
    rw [longer, ← Nat.add_assoc] at tokens behind
    refine .inl ⟨first + length, Nat.le_add_right _ _, tokens ▸ isChain, ?_⟩
    exact tokenAt_of_tokensFrom behind (fun continues => by cases continues.1) stops
  | error rest =>
    rw [outcome] at walked
    obtain ⟨stuck, run, isUnfinished, split⟩ := walked
    obtain ⟨tokens, behind⟩ := tokensBetween_of_tokensFrom split
    have member : tokensBetween source first (first + run.length) ∈
        Grammar.unfinishedAbove minimum := tokens.symm ▸ isUnfinished
    refine .inr ⟨first + run.length, Nat.le_add_right _ _, member, ?_, ?_⟩
    · refine tokenAt_of_tokensFrom behind ?_ fun token member => (stuck token member).1
      exact (by decide : ¬ Kind.IsSign .endOfInput)
    · refine tokenAt_of_tokensFrom behind ?_ fun token member => (stuck token member).2
      rintro (name | ⟨integer, -⟩)
      · cases name
      · cases integer

end

namespace Parser

/-- A parser with the standard handlers, at an index of the tokens of a text. -/
def atIndex (source : String) (recorded : List Diagnostic) (index : Nat) : Parser :=
  ⟨Window.advance^[index] (.ofSource source), .standard, recorded⟩

variable {source : String} {recorded : List Diagnostic} {minimum : BindingPower} {first : Nat}

theorem current_atIndex (source : String) (recorded : List Diagnostic) (index : Nat) :
    (Parser.atIndex source recorded index).current = tokenAt source index :=
  Window.current_iterate_advance source index

theorem parseExpression_atIndex {result : Except Diagnostic Expression} {index : Nat}
    (read : (Handlers.standard.readExpression minimum
      (Window.advance^[first] (.ofSource source))).result = result)
    (left : (Handlers.standard.readExpression minimum
      (Window.advance^[first] (.ofSource source))).window.ahead.length =
        (tokensFrom source index).length) :
    (Parser.atIndex source recorded first).parseExpression minimum =
      (result, Parser.atIndex source recorded index) := by
  have stopped := eq_iterate_advance_of_reaches (Reading.reached _) left
  rw [parseExpression, take, Parser.atIndex, Parser.atIndex, ← read, ← stopped]

end Parser

theorem EndsAt.exists_parsed {source : String} {minimum : BindingPower} {first last : Nat}
    (ends : EndsAt source minimum first last) (recorded : List Diagnostic) :
    ∃ e, e.Faithful ∧ e.tokens = tokensBetween source first (last + 1) ∧
      (Parser.atIndex source recorded first).parseExpression minimum =
        (.ok e, Parser.atIndex source recorded last) := by
  have agrees := readExpression_agrees minimum (Window.advance^[first] (.ofSource source))
  rw [ahead_iterate_advance, ends.chainEnd_eq] at agrees
  obtain ⟨e, read, faithful, spelled, token, ahead⟩ := agrees
  have split := ends.split
  refine ⟨e, faithful, ?_, Parser.parseExpression_atIndex read ?_⟩
  · rwa [split, List.append_cancel_right_eq] at spelled
  · -- as many tokens are left as stand behind the last one, and the last one itself
    have ordered := ends.ordered
    have lengths := congrArg List.length split
    rw [List.length_append, length_tokensBetween, length_tokensFrom, length_tokensFrom] at lengths
    rw [ahead, List.length_cons, length_tokensFrom, length_tokensFrom]
    omega

theorem FailsAt.parsed {source : String} {minimum : BindingPower} {first place : Nat}
    (fails : FailsAt source minimum first place) (recorded : List Diagnostic) :
    (Parser.atIndex source recorded first).parseExpression minimum =
      (.error ⟨(tokenAt source place).operandCause, (tokenAt source place).position⟩,
        Parser.atIndex source recorded place) := by
  have agrees := readExpression_agrees minimum (Window.advance^[first] (.ofSource source))
  rw [ahead_iterate_advance, fails.chainEnd_eq] at agrees
  obtain ⟨failed, ahead⟩ := agrees
  refine Parser.parseExpression_atIndex ?_ (congrArg List.length ahead)
  rw [failed, ← operandDiagnostic_eq, tokenAt_eq_headD, ← Window.final_ofSource,
    Window.iterate_advance]
  rfl

/-- With the standard handlers, an expression is read from an index of the tokens exactly if they
are a chain of the operators above the minimum up to some later index, and do not go on behind it.
There is one such index at most; the expression is made of the tokens up to there, and the parser
stops on the last one. If there is none, there is exactly one index at which an operand is required
and missing. The parser stops there, with a diagnostic for this token according to its kind. -/
theorem parseExpression_extent (source : String) (recorded : List Diagnostic)
    (minimum : BindingPower) (first : Nat) :
    (∀ index, (Parser.atIndex source recorded index).current = tokenAt source index) ∧
    ((∃ e, ((Parser.atIndex source recorded first).parseExpression minimum).1 = .ok e) ↔
      ∃ last, EndsAt source minimum first last) ∧
    (∀ last, EndsAt source minimum first last →
      (∀ other, EndsAt source minimum first other → other = last) ∧
        ∃ e, e.Faithful ∧ e.tokens = tokensBetween source first (last + 1) ∧
          (Parser.atIndex source recorded first).parseExpression minimum =
            (.ok e, Parser.atIndex source recorded last)) ∧
    ((¬ ∃ last, EndsAt source minimum first last) →
      ∃ place, FailsAt source minimum first place ∧
        (∀ other, FailsAt source minimum first other → other = place) ∧
        (Parser.atIndex source recorded first).parseExpression minimum =
          (.error ⟨(tokenAt source place).operandCause, (tokenAt source place).position⟩,
            Parser.atIndex source recorded place)) := by
  refine ⟨Parser.current_atIndex source recorded, ⟨fun ⟨e, read⟩ => ?_, fun ⟨last, ends⟩ => ?_⟩,
    fun last ends => ⟨fun _ => ends.unique, ends.exists_parsed recorded⟩, fun endless => ?_⟩
  · rcases exists_endsAt_or_failsAt source minimum first with ends | ⟨place, fails⟩
    · exact ends
    · rw [fails.parsed] at read
      cases read
  · obtain ⟨e, -, -, parsed⟩ := ends.exists_parsed recorded
    exact ⟨e, by rw [parsed]⟩
  · obtain ⟨place, fails⟩ := (exists_endsAt_or_failsAt source minimum first).resolve_left endless
    exact ⟨place, fails, fun _ => fails.unique, fails.parsed recorded⟩

/-- Above the sum, the expression is the product in front of it. From there on, an operand is
missing. -/
theorem parseExpression_extent_of_open_parenthesis :
    let source := "a * -1 + (b"
    EndsAt source .additive 0 3 ∧
      (∃ e, e.Faithful ∧ e.tokens = tokensBetween source 0 4 ∧
        (Parser.atIndex source [] 0).parseExpression .additive =
          (.ok e, Parser.atIndex source [] 3)) ∧
      (¬ ∃ last, EndsAt source .default 0 last) ∧ FailsAt source .default 0 5 ∧
      (Parser.atIndex source [] 0).parseExpression .default =
        (.error ⟨.missingOperand .openParen, ⟨9⟩⟩, Parser.atIndex source [] 5) := by
  intro source
  let name : Token := ⟨.identifier, "a", ⟨0⟩⟩
  let star : Token := ⟨.star, "*", ⟨2⟩⟩
  let dash : Token := ⟨.dash, "-", ⟨4⟩⟩
  let one : Token := ⟨.integer, "1", ⟨5⟩⟩
  let plus : Token := ⟨.plus, "+", ⟨7⟩⟩
  have isFirst : [name] ∈ Grammar.operand := Grammar.singleton_mem_operand (by decide)
  have isSecond : [dash] ++ [one] ∈ Grammar.operand :=
    Language.append_mem_mul (Grammar.append_mem_kstar (Grammar.singleton_mem_signs (by decide))
      (Language.nil_mem_kstar _)) ⟨one, by decide, rfl⟩
  have ends : EndsAt source .additive 0 3 := by
    refine ⟨by decide, ?_, by decide +kernel⟩
    have tokens : tokensBetween source 0 4 = [name, star, dash, one] := by decide +kernel
    have isJoin : [star] ∈ Grammar.joiningAbove .additive := ⟨star, by decide, rfl⟩
    rw [tokens]
    exact Language.append_mem_mul isFirst
      (Grammar.append_mem_kstar (Language.append_mem_mul isJoin isSecond)
        (Language.nil_mem_kstar _))
  have fails : FailsAt source .default 0 5 := by
    refine ⟨by decide, ?_, by decide +kernel, by decide +kernel⟩
    have tokens : tokensBetween source 0 5 = [name, star, dash, one, plus] := by decide +kernel
    have isJoin : [star] ∈ Grammar.joiningAbove .default := ⟨star, by decide, rfl⟩
    have isLast : [plus] ∈ Grammar.joiningAbove .default := ⟨plus, by decide, rfl⟩
    rw [tokens]
    exact Language.append_mem_mul
      (Grammar.append_mem_kstar (Language.append_mem_mul isFirst isJoin)
        (Grammar.append_mem_kstar (Language.append_mem_mul isSecond isLast)
          (Language.nil_mem_kstar _)))
      (Language.nil_mem_kstar _)
  obtain ⟨-, -, read, -⟩ := parseExpression_extent source [] .additive 0
  obtain ⟨-, succeeds, -, failed⟩ := parseExpression_extent source [] .default 0
  have endless : ¬ ∃ last, EndsAt source .default 0 last := by
    rw [← succeeds, fails.parsed]
    rintro ⟨e, read⟩
    cases read
  obtain ⟨place, -, only, parsed⟩ := failed endless
  obtain rfl := only 5 fails
  have cause : (tokenAt source 5).operandCause = .missingOperand .openParen := by decide +kernel
  have position : (tokenAt source 5).position = ⟨9⟩ := by decide +kernel
  rw [cause, position] at parsed
  exact ⟨ends, (read 3 ends).2, endless, fails, parsed⟩

end Frontend
