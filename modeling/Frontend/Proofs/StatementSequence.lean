import Frontend.Proofs.Acceptance
import Frontend.Proofs.Relocation

/-!
# Statements one behind the other

A text without diagnostics is its statements, one behind the other, and nothing else
(`parse_eq_iff_sequence`). Here positions play no part, so this holds of texts of any length.
-/
namespace Frontend

/-- The tokens are those of the statements, one behind the other, with or without semicolons. -/
inductive Statement.Sequence : List Token → List Statement → Prop
  | nil : Sequence [] []
  | cons {s : Statement} {own following rest : List Token} {statements : List Statement} :
      s.SpelledBy own → s.value.Grouped → Ends following rest → Sequence rest statements →
      Sequence (own ++ following) (s :: statements)

namespace Statement.Sequence

variable {tokens : List Token} {statements : List Statement}

/-- The statements of the sequence are what is read off its tokens. -/
theorem readItems_eq {w : Window} (sequence : Sequence w.ahead statements) :
    (Handlers.standard.readItems w).1 = statements.map Except.ok := by
  generalize ahead : w.ahead = tokens at sequence
  induction sequence generalizing w with
  | nil => exact Handlers.readItems_of_ahead_nil ahead
  | @cons s own following rest statements spelled grouped ends _ ih =>
    obtain ⟨result, behind⟩ := Handlers.readStatement_of_spelledBy spelled grouped ahead ends
    have some_left : 0 < w.left := by
      rw [Window.left, ahead]
      exact List.length_pos_iff.mpr (List.append_ne_nil_of_left_ne_nil spelled.ne_nil following)
    rw [← Reading.resume_of_ok result] at behind
    rw [Handlers.readItems_of_left some_left, result, ih behind, List.map_cons]

theorem unique {others : List Statement} (sequence : Sequence tokens statements)
    (again : Sequence tokens others) : statements = others := by
  have first := readItems_eq (w := ⟨tokens, .start⟩) sequence
  have second := readItems_eq (w := ⟨tokens, .start⟩) again
  exact List.map_injective_iff.mpr (fun _ _ => Except.ok.inj) (first.symm.trans second)

/-- What is read without a diagnostic is a sequence of statements. -/
theorem of_readItems {w : Window}
    (clean : diagnosticsOfItems (Handlers.standard.readItems w).1 = []) :
    Sequence w.ahead (Program.ofItems (Handlers.standard.readItems w).1).statements := by
  induction w using Handlers.readItems.induct Handlers.standard with
  | case1 w some_left r _ ih =>
    rw [Handlers.readItems_of_left some_left] at clean ⊢
    rcases Handlers.readStatement_outcome some_left with
      ⟨s, own, following, sound⟩ | ⟨gap, found, broken⟩
    · rw [sound.result, diagnosticsOfItems_cons_ok] at clean
      rw [sound.result, sound.ahead]
      exact .cons sound.spelled sound.grouped sound.ends_resume (ih clean)
    · rw [broken.result, diagnosticsOfItems_cons_error] at clean
      cases clean
  | case2 w none_left =>
    have empty := List.length_eq_zero_iff.mp (Nat.eq_zero_of_not_pos none_left)
    rw [Handlers.readItems_of_ahead_nil empty, empty]
    exact .nil

/-- A sequence of statements is a program of the grammar, and the other way round. -/
theorem exists_iff_mem_program :
    (∃ statements, Sequence tokens statements) ↔ tokens ∈ Grammar.program := by
  have decided := diagnostics_readItems_eq_nil_iff ⟨tokens, .start⟩
  constructor
  · rintro ⟨statements, sequence⟩
    apply decided.mp
    rw [readItems_eq sequence, diagnosticsOfItems, List.filterMap_map]
    simp [Function.comp_def, Item.diagnostic?]
  · exact fun isProgram => ⟨_, of_readItems (decided.mpr isProgram)⟩

theorem relocate (f : Position → Position) (sequence : Sequence tokens statements) :
    Sequence (tokens.map (Token.relocate f)) (statements.map (Statement.relocate f)) := by
  induction sequence with
  | nil => exact .nil
  | @cons s own following rest statements spelled grouped ends _ ih =>
    rw [List.map_append, List.map_cons, ← spelled.replace_relocate]
    refine .cons (spelled.replace (Token.alike_relocate f)) ?_
      (ends.map (Token.alike_relocate f)) ih
    rw [Statement.value_replace]
    exact grouped.replace (Token.alike_relocate f)

end Statement.Sequence

theorem parse_eq_iff_sequence (source : String) (statements : List Statement) :
    parse source = (⟨statements⟩, []) ↔
      Statement.Sequence (Window.ofSource source).ahead statements := by
  constructor
  · intro same
    have clean : diagnosticsOfItems (itemsOf source) = [] := congrArg Prod.snd same
    have sequence := Statement.Sequence.of_readItems clean
    have kept : (Program.ofItems (itemsOf source)).statements = statements :=
      congrArg (fun result => result.1.statements) same
    rwa [← kept]
  · intro sequence
    rw [parse_eq, itemsOf, sequence.readItems_eq]
    simp [Program.ofItems, diagnosticsOfItems, Function.comp_def, Item.statement?,
      Item.diagnostic?]

end Frontend
