import Frontend.Proofs.Items

/-!
# Precedence

The expression of a statement is the one grouped expression that is spelled by its run of tokens,
and the run goes on as far as operators do (`value_spells_maximal_run`).
-/
namespace Frontend

/-- The expression is a grouping of the tokens, of which none is lost, repeated or moved. -/
structure Expression.Spells (e : Expression) (run : List Token) : Prop where
  tokens : e.tokens = run
  faithful : e.Faithful
  grouped : e.Grouped

theorem Expression.Spells.unique {e f : Expression} {run : List Token} (spells : e.Spells run)
    (again : f.Spells run) : f = e :=
  eq_of_tokens_eq again.faithful again.grouped spells.faithful spells.grouped
    (again.tokens.trans spells.tokens.symm)

/-- What follows the end of an expression does not join it. -/
theorem Ends.exists_head {following rest : List Token} (ends : Ends following rest)
    (finish : Token) (isEnd : finish.kind = .endOfInput) :
    ∃ next ∈ (following ++ [finish]).head?, next.kind ∉ Handlers.standardJoining := by
  cases ends with
  | @closed token rest semicolon => exact ⟨token, rfl, by rw [semicolon]; decide⟩
  | unclosed stops =>
    cases following with
    | nil => exact ⟨finish, rfl, by rw [isEnd]; decide⟩
    | cons token following => exact ⟨token, rfl, (stops token rfl).2⟩

/-- Whatever is broken elsewhere in the text, the expression of each statement of its program is
the only grouping of a run of its tokens, which ends ahead of no operator. -/
theorem value_spells_maximal_run (source : String) (s : Statement)
    (member : s ∈ (parse source).1.statements) :
    ∃ before run after, tokenize source = before ++ run ++ after ∧
      s.value.Spells run ∧ (∀ e : Expression, e.Spells run → e = s.value) ∧
      ∃ next ∈ after.head?, next.kind ∉ Handlers.standardJoining := by
  rw [mem_statements_iff] at member
  obtain ⟨v, ⟨⟨before, split⟩, -⟩, some_left, read⟩ := Handlers.exists_of_mem_readItems member
  -- the statement was read somewhere on the way, where it was a sound one
  rcases Handlers.readStatement_outcome some_left with
    ⟨t, own, following, sound⟩ | ⟨gap, found, broken⟩
  · obtain rfl : s = t := Except.ok.inj (read.trans sound.result)
    obtain ⟨opening, ownSplit, faithful, -⟩ := sound.spelled.exists_opens
    have spells : s.value.Spells s.value.tokens := ⟨rfl, faithful, sound.grouped⟩
    refine ⟨before ++ opening, s.value.tokens, following ++ [(Window.ofSource source).final], ?_,
      spells, fun e again => spells.unique again, sound.ends.exists_head _ rfl⟩
    rw [tokenize_eq, ← split, sound.ahead, ownSplit]
    simp only [List.append_assoc]
  · rw [broken.result] at read
    cases read

theorem value_spells_maximal_run_behind_broken :
    ∃ s, (parse "let 5; x - -y * z").1.statements = [s] ∧
      ∃ before run after, tokenize "let 5; x - -y * z" = before ++ run ++ after ∧
        s.value.Spells run ∧ (∀ e : Expression, e.Spells run → e = s.value) ∧
        ∃ next ∈ after.head?, next.kind ∉ Handlers.standardJoining := by
  have read : ∃ s, (parse "let 5; x - -y * z").1.statements = [s] :=
    List.length_eq_one_iff.mp (by decide +kernel)
  obtain ⟨s, only⟩ := read
  exact ⟨s, only, value_spells_maximal_run _ s (by rw [only]; exact List.mem_cons_self)⟩

end Frontend
