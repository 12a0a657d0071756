import Frontend.Proofs.Relocation
import Frontend.Proofs.Rendering

/-!
# A text shows its tree

Two trees that were read, be it from different texts, are written as the same text exactly if they
are the same tree but for its positions (`text_eq_iff_unplaced_eq`). The text gives back the tokens
that a tree was read from, since the punctuation can be told from them, and a tree is determined by
its tokens.
-/
namespace Frontend

/-! ### Trees without their positions -/

/-- The expression with all its tokens moved to the start. -/
def Expression.unplaced (e : Expression) : Expression := e.relocate fun _ => .start

/-- The statement with all its tokens moved to the start. -/
def Statement.unplaced (s : Statement) : Statement := s.relocate fun _ => .start

/-- A text does not show positions. -/
@[simp] theorem Expression.text_relocate (f : Position → Position) (e : Expression) :
    (e.relocate f).text = e.text := by
  induction e with
  | identifier name => rfl
  | integer token value => rfl
  | unary token operator operand ih => rw [relocate, text, text, ih]
  | binary token left operator right leftIh rightIh =>
    rw [relocate, text, text, leftIh, rightIh]

@[simp] theorem Statement.text_relocate (f : Position → Position) (s : Statement) :
    (s.relocate f).text = s.text := by
  cases s <;> simp [relocate, text]

theorem map_relocate_eq {tokens others : List Token}
    (same : tokens.map Token.lexeme = others.map Token.lexeme) (p : Position) :
    tokens.map (Token.relocate fun _ => p) = others.map (Token.relocate fun _ => p) := by
  have factors : (Token.relocate fun _ => p) =
      (fun lexeme : Lexeme => Token.mk lexeme.kind (String.ofList lexeme.text) p) ∘
        Token.lexeme := by
    funext token
    simp [Token.relocate, Token.lexeme]
  rw [factors, ← List.map_map, same, List.map_map]

theorem Expression.Faithful.relocate {e : Expression} (faithful : e.Faithful)
    (f : Position → Position) : (e.relocate f).Faithful := by
  rw [← faithful.replace_relocate]
  exact faithful.replace (Token.alike_relocate f)

theorem Expression.Faithful.tokens_relocate {e : Expression} (faithful : e.Faithful)
    (f : Position → Position) : (e.relocate f).tokens = e.tokens.map (Token.relocate f) := by
  rw [← faithful.replace_relocate, tokens_replace]

theorem Expression.Grouped.relocate {e : Expression} (grouped : e.Grouped)
    (faithful : e.Faithful) (f : Position → Position) : (e.relocate f).Grouped := by
  rw [← faithful.replace_relocate]
  exact grouped.replace (Token.alike_relocate f)

/-! ### Trees that were read -/

/-- A tree as reading makes it, over tokens as scanning makes them. -/
structure Expression.Sound (e : Expression) : Prop where
  faithful : e.Faithful
  grouped : e.Grouped
  formed : ∀ token ∈ e.tokens, token.lexeme.Formed

/-- A statement as reading makes it from some tokens, which scanning has made. -/
structure Statement.ReadFrom (s : Statement) (own : List Token) : Prop where
  spelled : s.SpelledBy own
  grouped : s.value.Grouped
  formed : ∀ token ∈ own, token.lexeme.Formed

theorem exists_readFrom {source : String} {s : Statement}
    (member : s ∈ (parse source).1.statements) : ∃ own, s.ReadFrom own := by
  obtain ⟨own, stands, spelled, grouped⟩ := exists_spelledBy_of_mem member
  exact ⟨own, spelled, grouped, fun token inOwn => formed_of_mem_scan (stands.mem inOwn)⟩

theorem Statement.ReadFrom.sound_value {s : Statement} {own : List Token}
    (read : s.ReadFrom own) : s.value.Sound := by
  obtain ⟨-, -, faithful, -⟩ := read.spelled.exists_opens
  exact ⟨faithful, read.grouped, fun token member =>
    read.formed token (read.spelled.mem_of_mem_value member)⟩

/-- The expression with all the expressions inside it. -/
def Expression.nodes : Expression → List Expression
  | identifier name => [identifier name]
  | integer token value => [integer token value]
  | unary token operator operand => unary token operator operand :: operand.nodes
  | binary token left operator right =>
    binary token left operator right :: (left.nodes ++ right.nodes)

/-- The expressions of the statement, the name of a binding among them. -/
def Statement.expressions : Statement → List Expression
  | binding _ name value => .identifier name :: value.nodes
  | returning _ value => value.nodes
  | bare _ value => value.nodes

theorem Expression.mem_nodes (e : Expression) : e ∈ e.nodes := by
  cases e <;> exact List.mem_cons_self

theorem Statement.value_mem_expressions (s : Statement) : s.value ∈ s.expressions := by
  cases s with
  | binding token name e => exact List.mem_cons_of_mem _ e.mem_nodes
  | returning token e => exact e.mem_nodes
  | bare token e => exact e.mem_nodes

def Program.expressions (program : Program) : List Expression :=
  program.statements.flatMap Statement.expressions

theorem Expression.Sound.of_mem_nodes {e f : Expression} (sound : e.Sound)
    (member : f ∈ e.nodes) : f.Sound := by
  induction e with
  | identifier name => rwa [List.mem_singleton.mp member]
  | integer token value => rwa [List.mem_singleton.mp member]
  | unary token operator operand ih =>
    rcases List.mem_cons.mp member with rfl | inner
    · exact sound
    · obtain ⟨⟨-, -, faithful⟩, ⟨-, grouped⟩, formed⟩ := sound
      exact ih ⟨faithful, grouped, fun other later => formed other (.tail _ later)⟩ inner
  | binary token left operator right leftIh rightIh =>
    rcases List.mem_cons.mp member with rfl | inner
    · exact sound
    · obtain ⟨⟨-, -, leftFaithful, rightFaithful⟩, ⟨-, -, leftGrouped, rightGrouped⟩, formed⟩ :=
        sound
      rcases List.mem_append.mp inner with inLeft | inRight
      · exact leftIh ⟨leftFaithful, leftGrouped, fun other first =>
          formed other (List.mem_append_left _ first)⟩ inLeft
      · exact rightIh ⟨rightFaithful, rightGrouped, fun other later =>
          formed other (List.mem_append_right _ (.tail _ later))⟩ inRight

theorem Statement.ReadFrom.sound_of_mem {s : Statement} {own : List Token} {e : Expression}
    (read : s.ReadFrom own) (member : e ∈ s.expressions) : e.Sound := by
  have value := read.sound_value
  cases s with
  | binding token name value =>
    rcases List.mem_cons.mp member with rfl | inner
    · cases read.spelled with
      | binding isLet isName isSign faithful =>
        refine ⟨⟨isName, rfl⟩, trivial, fun token member => read.formed token ?_⟩
        rw [List.mem_singleton.mp member]
        simp
    · exact value.of_mem_nodes inner
  | returning token value => exact value.of_mem_nodes member
  | bare token value => exact value.of_mem_nodes member

/-! ### The same text -/

/-- Trees over the same lexemes are the same but for their positions. -/
theorem Expression.Sound.unplaced_eq {e f : Expression} (sound : e.Sound) (other : f.Sound)
    (same : e.tokens.map Token.lexeme = f.tokens.map Token.lexeme) :
    e.unplaced = f.unplaced := by
  apply eq_of_tokens_eq (sound.faithful.relocate _) (sound.grouped.relocate sound.faithful _)
    (other.faithful.relocate _) (other.grouped.relocate other.faithful _)
  rw [sound.faithful.tokens_relocate, other.faithful.tokens_relocate, map_relocate_eq same]

theorem Statement.ReadFrom.unplaced_eq {s t : Statement} {own others : List Token}
    (read : s.ReadFrom own) (again : t.ReadFrom others)
    (same : own.map Token.lexeme = others.map Token.lexeme) : s.unplaced = t.unplaced := by
  have moved {s : Statement} {own : List Token} (read : s.ReadFrom own) :
      s.unplaced.SpelledBy (own.map (Token.relocate fun _ => .start)) ∧
        s.unplaced.value.Grouped := by
    rw [unplaced, ← read.spelled.replace_relocate, value_replace]
    exact ⟨read.spelled.replace (Token.alike_relocate _),
      read.grouped.replace (Token.alike_relocate _)⟩
  obtain ⟨spelled, grouped⟩ := moved read
  obtain ⟨otherSpelled, otherGrouped⟩ := moved again
  exact spelled.unique otherSpelled (map_relocate_eq same _) grouped otherGrouped

theorem Expression.Sound.text_eq_iff {e f : Expression} (sound : e.Sound) (other : f.Sound) :
    e.text = f.text ↔ e.unplaced = f.unplaced := by
  constructor
  · intro same
    -- the same text has the same lexemes, and without the punctuation these are the tokens'
    have lexemes : e.lexemes = f.lexemes := by
      rw [← lexemesOf_text sound.faithful sound.formed, same,
        lexemesOf_text other.faithful other.formed]
    apply sound.unplaced_eq other
    rw [← withoutPunctuation_lexemes sound.faithful.not_isPunctuation, lexemes,
      withoutPunctuation_lexemes other.faithful.not_isPunctuation]
  · intro same
    rw [← text_relocate (fun _ => .start) e, ← text_relocate (fun _ => .start) f]
    exact congrArg text same

theorem Statement.ReadFrom.text_eq_iff {s t : Statement} {own others : List Token}
    (read : s.ReadFrom own) (again : t.ReadFrom others) :
    s.text = t.text ↔ s.unplaced = t.unplaced := by
  constructor
  · intro same
    have lexemes : s.lexemes = t.lexemes := by
      rw [← read.spelled.lexemesOf_text read.formed, same,
        again.spelled.lexemesOf_text again.formed]
    apply read.unplaced_eq again
    rw [← read.spelled.withoutPunctuation_lexemes read.formed, lexemes,
      again.spelled.withoutPunctuation_lexemes again.formed]
  · intro same
    rw [← text_relocate (fun _ => .start) s, ← text_relocate (fun _ => .start) t]
    exact congrArg text same

/-- Two statements that were read, and likewise two expressions anywhere inside such statements,
have the same text exactly if they are the same tree but for the positions of its tokens. -/
theorem text_eq_iff_unplaced_eq (a b : String) :
    (∀ s ∈ (parse a).1.statements, ∀ t ∈ (parse b).1.statements,
        s.text = t.text ↔ s.unplaced = t.unplaced) ∧
      ∀ e ∈ (parse a).1.expressions, ∀ f ∈ (parse b).1.expressions,
        e.text = f.text ↔ e.unplaced = f.unplaced := by
  have sound {source : String} {e : Expression} (member : e ∈ (parse source).1.expressions) :
      e.Sound := by
    obtain ⟨s, inProgram, inside⟩ := List.mem_flatMap.mp member
    obtain ⟨own, read⟩ := exists_readFrom inProgram
    exact read.sound_of_mem inside
  refine ⟨fun s first t second => ?_, fun e first f second => ?_⟩
  · obtain ⟨own, read⟩ := exists_readFrom first
    obtain ⟨others, again⟩ := exists_readFrom second
    exact read.text_eq_iff again
  · exact (sound first).text_eq_iff (sound second)

theorem text_eq_iff_unplaced_eq_of_negations :
    ∃ s t, (parse "let x = -y * 07").1.statements = [s] ∧
      (parse "5 + ; let x\n=  -y*07;").1.statements = [t] ∧
        (s.text = t.text ↔ s.unplaced = t.unplaced) ∧
          (s.value.text = t.value.text ↔ s.value.unplaced = t.value.unplaced) := by
  have firstRead : ∃ s, (parse "let x = -y * 07").1.statements = [s] :=
    List.length_eq_one_iff.mp (by decide +kernel)
  have secondRead : ∃ t, (parse "5 + ; let x\n=  -y*07;").1.statements = [t] :=
    List.length_eq_one_iff.mp (by decide +kernel)
  obtain ⟨s, first⟩ := firstRead
  obtain ⟨t, second⟩ := secondRead
  obtain ⟨statements, expressions⟩ :=
    text_eq_iff_unplaced_eq "let x = -y * 07" "5 + ; let x\n=  -y*07;"
  refine ⟨s, t, first, second, statements s (by simp [first]) t (by simp [second]),
    expressions _ ?_ _ ?_⟩
  · simp [Program.expressions, first, s.value_mem_expressions]
  · simp [Program.expressions, second, t.value_mem_expressions]

end Frontend
