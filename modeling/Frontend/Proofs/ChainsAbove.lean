import Frontend.Proofs.Acceptance

/-!
# Chains above a minimum

The walk over an expression, given in terms of the grammar (`walked_chainEnd`). What it passes over
is a chain of operands with operators between them that bind more tightly than the minimum
(`chainAbove`), up to a token that does not go on with it. Or else it is the beginning of such a
chain (`unfinishedAbove`), up to a token that is no operand where one has to follow.
-/
namespace Frontend

open scoped Computability

namespace Grammar

/-! ### Chains and their beginnings -/

/-- Operators that bind more tightly than `minimum`. -/
def joiningAbove (minimum : BindingPower) : Language Token :=
  {tokens | ∃ token : Token, token.Continues minimum ∧ tokens = [token]}

/-- Operands with such operators between them. -/
def chainAbove (minimum : BindingPower) : Language Token :=
  operand * (joiningAbove minimum * operand)∗

/-- What stands in front of a required operand: operands with such an operator behind each of them,
and then any number of signs. -/
def unfinishedAbove (minimum : BindingPower) : Language Token :=
  (operand * joiningAbove minimum)∗ * (ofKinds [.not, .dash])∗

variable {minimum : BindingPower} {tokens rest : List Token} {token : Token}

theorem nil_mem_unfinishedAbove : [] ∈ unfinishedAbove minimum :=
  Language.append_mem_mul (Language.nil_mem_kstar _) (Language.nil_mem_kstar _)

theorem sign_cons_mem_unfinishedAbove (sign : token.kind.IsSign)
    (isUnfinished : rest ∈ unfinishedAbove minimum) : token :: rest ∈ unfinishedAbove minimum := by
  obtain ⟨_, ⟨links, rfl, areLinks⟩, signs, areSigns, rfl⟩ := isUnfinished
  cases links with
  | nil =>
    exact Language.append_mem_mul (Language.nil_mem_kstar _)
      (append_mem_kstar (singleton_mem_signs sign) areSigns)
  | cons link links =>
    have isLink := sign_cons_mem_operand_mul sign (areLinks link List.mem_cons_self)
    have later := fun other member => areLinks other (List.mem_cons_of_mem link member)
    exact Language.append_mem_mul (append_mem_kstar isLink (Language.join_mem_kstar later)) areSigns

theorem atom_cons_mem_unfinishedAbove (isAtom : token.IsAtom)
    (goesOn : rest ∈ joiningAbove minimum * unfinishedAbove minimum) :
    token :: rest ∈ unfinishedAbove minimum := by
  obtain ⟨join, isJoin, _, ⟨links, areLinks, signs, areSigns, rfl⟩, rfl⟩ := goesOn
  have isLink : [token] ++ join ∈ operand * joiningAbove minimum :=
    Language.append_mem_mul (singleton_mem_operand isAtom) isJoin
  have whole := Language.append_mem_mul (append_mem_kstar isLink areLinks) areSigns
  rw [unfinishedAbove]
  simpa only [List.append_assoc, List.cons_append, List.nil_append] using whole

/-! ### What the walk passes over -/

/-- What is walked over up to where an expression ends. -/
def finishedFrom (minimum : BindingPower) : Awaited → Language Token
  | .operand => chainAbove minimum
  | .operator => (joiningAbove minimum * operand)∗

/-- What is walked over up to where an operand is missing. -/
def unfinishedFrom (minimum : BindingPower) : Awaited → Language Token
  | .operand => unfinishedAbove minimum
  | .operator => joiningAbove minimum * unfinishedAbove minimum

/-- The outcome of a walk over `tokens` in terms of the grammar. -/
def Walked (minimum : BindingPower) (awaited : Awaited) (tokens : List Token) :
    Except (List Token) (List Token) → Prop
  | .ok rest => (∀ token ∈ rest.head?, ¬ token.Continues minimum) ∧
    ∃ run ∈ finishedFrom minimum awaited, tokens = run ++ rest
  | .error rest => (∀ token ∈ rest.head?, ¬ token.kind.IsSign ∧ ¬ token.IsAtom) ∧
    ∃ run ∈ unfinishedFrom minimum awaited, tokens = run ++ rest

theorem Walked.cons {first next : Awaited} {outcome : Except (List Token) (List Token)}
    (walked : Walked minimum next tokens outcome)
    (finished : ∀ run ∈ finishedFrom minimum next, token :: run ∈ finishedFrom minimum first)
    (unfinished :
      ∀ run ∈ unfinishedFrom minimum next, token :: run ∈ unfinishedFrom minimum first) :
    Walked minimum first (token :: tokens) outcome := by
  cases outcome with
  | ok rest =>
    obtain ⟨stops, run, isRun, rfl⟩ := walked
    exact ⟨stops, token :: run, finished run isRun, rfl⟩
  | error rest =>
    obtain ⟨stuck, run, isRun, rfl⟩ := walked
    exact ⟨stuck, token :: run, unfinished run isRun, rfl⟩

/-- The walk ends, or is stuck, where the grammar says. -/
theorem walked_chainEnd (minimum : BindingPower) (awaited : Awaited) (tokens : List Token) :
    Walked minimum awaited tokens (chainEnd minimum awaited tokens) := by
  induction tokens generalizing awaited with
  | nil =>
    cases awaited with
    | operand => exact ⟨by simp, [], nil_mem_unfinishedAbove, rfl⟩
    | operator => exact ⟨by simp, [], Language.nil_mem_kstar _, rfl⟩
  | cons token rest ih =>
    cases awaited with
    | operand =>
      by_cases sign : token.kind.IsSign
      · rw [chainEnd_sign sign]
        exact (ih .operand).cons (fun _ => sign_cons_mem_operand_mul sign)
          (fun _ => sign_cons_mem_unfinishedAbove sign)
      by_cases atom : token.IsAtom
      · rw [chainEnd_atom atom]
        exact (ih .operator).cons
          (fun _ => Language.append_mem_mul (singleton_mem_operand atom))
          (fun _ => atom_cons_mem_unfinishedAbove atom)
      · have stuck : ∀ other ∈ (token :: rest).head?, ¬ other.kind.IsSign ∧ ¬ other.IsAtom := by
          simpa using ⟨sign, atom⟩
        rw [chainEnd_stuck stuck]
        exact ⟨stuck, [], nil_mem_unfinishedAbove, rfl⟩
    | operator =>
      by_cases continues : token.Continues minimum
      · have isJoin : [token] ∈ joiningAbove minimum := ⟨token, continues, rfl⟩
        rw [chainEnd_continue continues]
        refine (ih .operand).cons (fun run isRun => ?_) (fun _ => Language.append_mem_mul isJoin)
        obtain ⟨first, isFirst, more, areMore, rfl⟩ := isRun
        exact append_mem_kstar (Language.append_mem_mul isJoin isFirst) areMore
      · have stops : ∀ other ∈ (token :: rest).head?, ¬ other.Continues minimum := by
          simpa using continues
        rw [chainEnd_stop stops]
        exact ⟨stops, [], Language.nil_mem_kstar _, rfl⟩

theorem chainEnd_of_mem_chainAbove (isChain : tokens ∈ chainAbove minimum) :
    chainEnd minimum .operand (tokens ++ rest) = chainEnd minimum .operator rest := by
  obtain ⟨first, isFirst, more, areMore, rfl⟩ := Language.mem_mul.mp isChain
  rw [List.append_assoc, chainEnd_of_mem_operand isFirst]
  exact chainEnd_of_mem_links (fun _ isJoin => isJoin) areMore

theorem ne_nil_of_mem_chainAbove (isChain : tokens ∈ chainAbove minimum) : tokens ≠ [] := by
  obtain ⟨_, ⟨signs, -, last, ⟨token, -, rfl⟩, rfl⟩, more, -, rfl⟩ := isChain
  simp

theorem chainEnd_of_mem_unfinishedAbove (isUnfinished : tokens ∈ unfinishedAbove minimum) :
    chainEnd minimum .operand (tokens ++ rest) = chainEnd minimum .operand rest := by
  obtain ⟨_, ⟨links, rfl, areLinks⟩, signs, areSigns, rfl⟩ := isUnfinished
  rw [List.append_assoc]
  induction links with
  | nil => exact chainEnd_of_mem_signs areSigns
  | cons link links ih =>
    obtain ⟨first, isFirst, join, ⟨operator, continues, rfl⟩, rfl⟩ :=
      Language.mem_mul.mp (areLinks link List.mem_cons_self)
    rw [List.flatten_cons, List.append_assoc, List.append_assoc, chainEnd_of_mem_operand isFirst,
      List.singleton_append, chainEnd_continue continues]
    exact ih fun other member => areLinks other (.tail _ member)

/-! ### The end of the text is in none of them -/

/-- The end of the text is in none of the token lists. -/
def EndFree (l : Language Token) : Prop :=
  ∀ tokens ∈ l, ∀ token ∈ tokens, token.kind ≠ .endOfInput

section

variable {l m : Language Token}

theorem endFree_single {P : Token → Prop} (inner : ∀ token, P token → token.kind ≠ .endOfInput) :
    EndFree {tokens | ∃ token, P token ∧ tokens = [token]} := by
  rintro tokens ⟨token, holds, rfl⟩ other member
  rw [List.mem_singleton.mp member]
  exact inner token holds

theorem EndFree.mul (first : EndFree l) (second : EndFree m) : EndFree (l * m) := by
  rintro tokens ⟨front, inFirst, back, inSecond, rfl⟩ token member
  exact (List.mem_append.mp member).elim (first front inFirst token) (second back inSecond token)

theorem EndFree.kstar (inner : EndFree l) : EndFree l∗ := by
  rintro tokens ⟨parts, rfl, inside⟩ token member
  obtain ⟨part, isPart, inPart⟩ := List.mem_flatten.mp member
  exact inner part (inside part isPart) token inPart

end

theorem endFree_signs : EndFree (ofKinds [.not, .dash]) :=
  endFree_single fun token sign ends => by simp [ends] at sign

theorem endFree_operand : EndFree operand :=
  endFree_signs.kstar.mul <| endFree_single fun token isAtom ends => by
    simp [Token.IsAtom, ends] at isAtom

theorem endFree_joiningAbove (minimum : BindingPower) : EndFree (joiningAbove minimum) :=
  endFree_single fun token continues ends => by
    have joins := continues.2
    rw [ends] at joins
    revert joins
    decide

theorem endFree_chainAbove (minimum : BindingPower) : EndFree (chainAbove minimum) :=
  endFree_operand.mul ((endFree_joiningAbove minimum).mul endFree_operand).kstar

theorem endFree_unfinishedAbove (minimum : BindingPower) : EndFree (unfinishedAbove minimum) :=
  (endFree_operand.mul (endFree_joiningAbove minimum)).kstar.mul endFree_signs.kstar

end Grammar

end Frontend
