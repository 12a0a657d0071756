import Frontend.Proofs.Operations
import Frontend.Proofs.Readers

/-!
# Idle registrations

A registration is idle if it gives a kind the handler that stands for having none: a kind without a
handler begins a bare expression, and as an operand it is missing in either case; a kind that does
not bind is never tried as an operator. Idle registrations may be put in anywhere among the
operations on a parser, and nothing that the others do shows it
(`idle_registrations_unobserved`). The tables of the two runs are then different, but no reader
tells them apart (`Handlers.PaddedBy`).
-/
namespace Frontend

namespace Handlers

/-- `g` treats every kind as `h` does: what it has in addition is what is done without it. -/
structure PaddedBy (h g : Handlers) : Prop where
  statement : ∀ kind, (g.statement kind).getD .bare = (h.statement kind).getD .bare
  leading : ∀ kind, g.leading kind = h.leading kind ∨
    h.leading kind = none ∧ g.leading kind = some .operand
  joining : ∀ kind, kind.bindingPower ≠ .default → g.joining kind = h.joining kind
  /-- Names and integers have handlers of their own. -/
  atoms : ∀ kind, h.leading kind = none → kind ≠ .identifier ∧ kind ≠ .integer

namespace PaddedBy

variable {h g : Handlers}

/-! ### Reading -/

theorem joins_iff (padded : h.PaddedBy g) {minimum : BindingPower} {kind : Kind} :
    minimum < kind.bindingPower ∧ g.joining kind = true ↔
      minimum < kind.bindingPower ∧ h.joining kind = true := by
  refine and_congr_right fun tighter => ?_
  rw [padded.joining kind]
  intro loosest
  rw [loosest] at tighter
  exact BindingPower.not_lt_default minimum tighter

/-- No reader of expressions tells the tables apart. -/
theorem readers_eq (padded : h.PaddedBy g) :
    (∀ minimum w, g.readExpression minimum w = h.readExpression minimum w) ∧
    (∀ minimum left w, g.readFurther minimum left w = h.readFurther minimum left w) ∧
    (∀ left power w, g.readBinary left power w = h.readBinary left power w) ∧
    (∀ handler w, g.readLeading handler w = h.readLeading handler w) := by
  apply readExpression.mutual_induct h
  case case1 =>
    -- an operand is missing, and found to be so with or without a handler
    intro minimum w missing
    rw [readExpression_of_none missing]
    rcases padded.leading w.current.kind with same | ⟨-, operand⟩
    · rw [readExpression_of_none (same.trans missing)]
    · obtain ⟨noName, noInteger⟩ := padded.atoms _ missing
      rw [readExpression_of_some operand, readLeading_operand,
        readOperand_of_other noName noInteger,
        Reading.andThen_of_error (Reading.result_fail w _)]
      rfl
  case case2 =>
    intro minimum w handler found leading further
    have same : g.leading w.current.kind = some handler := by
      rcases padded.leading w.current.kind with same | ⟨missing, -⟩
      · exact same.trans found
      · rw [found] at missing
        cases missing
    rw [readExpression_of_some found, readExpression_of_some same, leading]
    refine congrArg _ ?_
    funext left v reached
    exact further left v reached
  case case3 =>
    intro minimum left w joins binary further
    obtain ⟨tighter, joining⟩ := padded.joins_iff.mpr joins
    rw [readFurther_of_joining joins.1 joins.2, readFurther_of_joining tighter joining, binary]
    refine congrArg _ (congrArg _ ?_)
    funext joined v reached
    exact further joined v reached
  case case4 =>
    intro minimum left w stops
    rw [readFurther_of_not stops, readFurther_of_not (mt padded.joins_iff.mp stops)]
  case case5 =>
    intro left power w right
    rw [readBinary_eq, readBinary_eq, right]
  case case6 =>
    intro w
    rw [readLeading_operand, readLeading_operand]
  case case7 =>
    intro w some_left operand
    rw [readLeading_unary some_left, readLeading_unary some_left, operand]
  case case8 =>
    intro w none_left
    rw [readLeading, readLeading, if_neg none_left, if_neg none_left]

theorem readValue_eq (padded : h.PaddedBy g) (w : Window) : g.readValue w = h.readValue w := by
  rw [readValue, readValue, padded.readers_eq.1]

theorem readStatementAs_eq (padded : h.PaddedBy g) (handler : StatementHandler) (w : Window) :
    g.readStatementAs handler w = h.readStatementAs handler w := by
  cases handler with
  | binding => simp only [readStatementAs, readBinding, padded.readValue_eq]
  | returning => simp only [readStatementAs, readReturning, padded.readValue_eq]
  | bare => simp only [readStatementAs, readBare, padded.readValue_eq]

theorem readStatement_eq (padded : h.PaddedBy g) (w : Window) :
    g.readStatement w = h.readStatement w := by
  rw [readStatement, readStatement, padded.statement, padded.readStatementAs_eq]

theorem readItems_eq (padded : h.PaddedBy g) (w : Window) : g.readItems w = h.readItems w := by
  induction w using readItems.induct h with
  | case1 w some_left r _ ih =>
    rw [readItems, dif_pos some_left, readItems, dif_pos some_left]
    simp only [padded.readStatement_eq]
    rw [ih]
  | case2 w none_left => rw [readItems, dif_neg none_left, readItems, dif_neg none_left]

/-! ### Registering -/

theorem refl (atoms : ∀ kind, h.leading kind = none → kind ≠ .identifier ∧ kind ≠ .integer) :
    h.PaddedBy h := ⟨fun _ => rfl, fun _ => .inl rfl, fun _ _ => rfl, atoms⟩

theorem standard : Handlers.standard.PaddedBy Handlers.standard := by
  refine refl fun kind missing => ?_
  obtain ⟨noName, noInteger, -⟩ := (standard_leading_eq_none_iff kind).mp missing
  exact ⟨noName, noInteger⟩

/-- What is registered in both tables makes no difference. -/
theorem withStatement (padded : h.PaddedBy g) (kind : Kind) (handler : StatementHandler) :
    (h.withStatement kind handler).PaddedBy (g.withStatement kind handler) := by
  refine ⟨fun other => ?_, padded.leading, padded.joining, padded.atoms⟩
  simp only [Handlers.withStatement]
  split
  · rfl
  · exact padded.statement other

theorem withLeading (padded : h.PaddedBy g) (kind : Kind) (handler : LeadingHandler) :
    (h.withLeading kind handler).PaddedBy (g.withLeading kind handler) := by
  refine ⟨padded.statement, fun other => ?_, padded.joining, fun other missing => ?_⟩
  · simp only [Handlers.withLeading]
    split
    · exact .inl rfl
    · exact padded.leading other
  · simp only [Handlers.withLeading] at missing
    split at missing
    · cases missing
    · exact padded.atoms other missing

theorem withJoining (padded : h.PaddedBy g) (kind : Kind) :
    (h.withJoining kind).PaddedBy (g.withJoining kind) := by
  refine ⟨padded.statement, padded.leading, fun other binds => ?_, padded.atoms⟩
  simp only [Handlers.withJoining]
  split
  · rfl
  · exact padded.joining other binds

theorem foldl {α : Type} (register : Handlers → α → Handlers)
    (registering : ∀ {h g : Handlers} entry, h.PaddedBy g →
      (register h entry).PaddedBy (register g entry))
    (entries : List α) (padded : h.PaddedBy g) :
    (entries.foldl register h).PaddedBy (entries.foldl register g) := by
  induction entries generalizing h g with
  | nil => exact padded
  | cons entry entries ih => exact ih (registering entry padded)

theorem withStandard (padded : h.PaddedBy g) : h.withStandard.PaddedBy g.withStandard := by
  have joining := foldl Handlers.withJoining (fun kind padded => padded.withJoining kind)
    standardJoining padded
  have leading := foldl (fun h entry => h.withLeading entry.1 entry.2)
    (fun entry padded => padded.withLeading entry.1 entry.2) standardLeading joining
  exact foldl (fun h entry => h.withStatement entry.1 entry.2)
    (fun entry padded => padded.withStatement entry.1 entry.2) standardStatements leading

/-! ### Padding -/

theorem pad_joining (padded : h.PaddedBy g) {kind : Kind} (loosest : kind.bindingPower = .default) :
    h.PaddedBy (g.withJoining kind) := by
  refine ⟨padded.statement, padded.leading, fun other binds => ?_, padded.atoms⟩
  simp only [Handlers.withJoining]
  split
  next same => exact absurd (same ▸ loosest) binds
  · exact padded.joining other binds

theorem pad_statement (padded : h.PaddedBy g) {kind : Kind} (vacant : g.statement kind = none) :
    h.PaddedBy (g.withStatement kind .bare) := by
  refine ⟨fun other => ?_, padded.leading, padded.joining, padded.atoms⟩
  have same := padded.statement other
  simp only [Handlers.withStatement]
  split
  next here =>
    rw [here, vacant] at same
    rw [here, ← same]
    rfl
  · exact same

theorem pad_leading (padded : h.PaddedBy g) {kind : Kind} (vacant : g.leading kind = none) :
    h.PaddedBy (g.withLeading kind .operand) := by
  refine ⟨padded.statement, fun other => ?_, padded.joining, padded.atoms⟩
  simp only [Handlers.withLeading]
  split
  next here =>
    rcases padded.leading other with same | ⟨missing, -⟩
    · rw [here, vacant] at same
      exact .inr ⟨here ▸ same.symm, rfl⟩
    · exact .inr ⟨missing, rfl⟩
  · exact padded.leading other

end PaddedBy

end Handlers

namespace Parser

/-- Two parsers that differ at most in idle registrations of the second. -/
structure PaddedBy (p q : Parser) : Prop where
  window : q.window = p.window
  diagnostics : q.diagnostics = p.diagnostics
  handlers : p.handlers.PaddedBy q.handlers

/-- An operation answers the same, and leads to parsers that differ no more. -/
theorem PaddedBy.perform {p q : Parser} (padded : p.PaddedBy q) (operation : Operation) :
    (q.perform operation).1 = (p.perform operation).1 ∧
      (p.perform operation).2.PaddedBy (q.perform operation).2 := by
  obtain ⟨window, table, diagnostics⟩ := q
  obtain ⟨_, handlers, _⟩ := p
  obtain ⟨rfl, rfl, padded⟩ := padded
  have readers := padded.readers_eq
  -- equal readings give equal answers and stop at the same window
  have reading {α : Type} {r s : Reading window α} (same : s = r)
      (answer : Except Diagnostic α → Answer) :
      answer s.result = answer r.result ∧
        PaddedBy ⟨r.window, handlers, diagnostics⟩ ⟨s.window, table, diagnostics⟩ := by
    subst same
    exact ⟨rfl, rfl, rfl, padded⟩
  cases operation with
  | advance => exact ⟨rfl, rfl, rfl, padded⟩
  | skipOptional kind => exact ⟨rfl, rfl, rfl, padded⟩
  | expect kind => exact ⟨rfl, rfl, rfl, padded⟩
  | expression minimum => exact reading (readers.1 minimum window) .expression
  | leading handler => exact reading (readers.2.2.2 handler window) .expression
  | binary left power => exact reading (readers.2.2.1 left power window) .expression
  | statementAs handler => exact reading (padded.readStatementAs_eq handler window) .statement
  | statement => exact reading (padded.readStatement_eq window) .statement
  | program =>
    have same : table.readItems window = handlers.readItems window := padded.readItems_eq window
    have items := congrArg Prod.fst same
    exact ⟨congrArg (Answer.program ∘ Program.ofItems) items, congrArg Prod.snd same,
      congrArg (fun items => diagnostics ++ diagnosticsOfItems items) items, padded⟩
  | onStatement kind handler => exact ⟨rfl, rfl, rfl, padded.withStatement kind handler⟩
  | onLeading kind handler => exact ⟨rfl, rfl, rfl, padded.withLeading kind handler⟩
  | onJoining kind => exact ⟨rfl, rfl, rfl, padded.withJoining kind⟩
  | restoreStandard => exact ⟨rfl, rfl, rfl, padded.withStandard⟩

/-! ### Runs -/

/-- The registration gives a kind what it has without it. -/
inductive Operation.IsIdle (p : Parser) : Operation → Prop
  | joining {kind : Kind} : kind.bindingPower = .default → IsIdle p (.onJoining kind)
  | statement {kind : Kind} : p.handlers.statement kind = none → IsIdle p (.onStatement kind .bare)
  | leading {kind : Kind} : p.handlers.leading kind = none → IsIdle p (.onLeading kind .operand)

theorem PaddedBy.idle {p q : Parser} {registration : Operation} (padded : p.PaddedBy q)
    (idle : registration.IsIdle q) : p.PaddedBy (q.perform registration).2 := by
  obtain ⟨window, diagnostics, handlers⟩ := padded
  cases idle with
  | joining loosest => exact ⟨window, diagnostics, handlers.pad_joining loosest⟩
  | statement vacant => exact ⟨window, diagnostics, handlers.pad_statement vacant⟩
  | leading vacant => exact ⟨window, diagnostics, handlers.pad_leading vacant⟩

/-- A step of a run: an operation of its own, or a registration that has been put in. -/
inductive Step where
  | own (operation : Operation)
  | inserted (registration : Operation)

def Step.own? : Step → Option Operation
  | own operation => some operation
  | inserted _ => none

/-- Every registration that has been put in is idle where it stands. -/
def IdleAlong (p : Parser) : List Step → Prop
  | [] => True
  | .own operation :: later => (p.perform operation).2.IdleAlong later
  | .inserted registration :: later =>
    registration.IsIdle p ∧ (p.perform registration).2.IdleAlong later

/-- What an operation shows: its answer, and all that the parser then holds but its table. -/
structure Observation where
  answer : Answer
  window : Window
  diagnostics : List Diagnostic

def Observation.of (entry : Answer × Parser) : Observation :=
  ⟨entry.1, entry.2.window, entry.2.diagnostics⟩

/-- What the operations of a run show that are its own. -/
def observe (p : Parser) : List Step → List Observation
  | [] => []
  | .own operation :: later =>
    .of (p.perform operation) :: (p.perform operation).2.observe later
  | .inserted registration :: later => (p.perform registration).2.observe later

theorem PaddedBy.observe_eq {p q : Parser} {steps : List Step} (padded : p.PaddedBy q)
    (idle : q.IdleAlong steps) :
    q.observe steps = (p.run (steps.filterMap Step.own?)).map .of := by
  induction steps generalizing p q with
  | nil => rfl
  | cons step later ih =>
    cases step with
    | own operation =>
      obtain ⟨answer, still⟩ := padded.perform operation
      have first : Observation.of (q.perform operation) = .of (p.perform operation) := by
        rw [Observation.of, Observation.of, answer, still.window, still.diagnostics]
      rw [observe, first, ih still idle]
      rfl
    | inserted registration =>
      obtain ⟨here, idleLater⟩ := idle
      rw [observe, ih (padded.idle here) idleLater]
      rfl

end Parser

/-- In a run of a new parser, idle registrations that are put in anywhere are not to be seen: the
operations of the run answer the same and leave the same tokens and the same diagnostics as
without them. -/
theorem idle_registrations_unobserved (w : Window) (steps : List Parser.Step)
    (idle : (Parser.ofWindow w).IdleAlong steps) :
    (Parser.ofWindow w).observe steps =
      ((Parser.ofWindow w).run (steps.filterMap Parser.Step.own?)).map .of := by
  have padded : (Parser.ofWindow w).PaddedBy (Parser.ofWindow w) :=
    ⟨rfl, rfl, Handlers.PaddedBy.standard⟩
  exact padded.observe_eq idle

/-- A comma that joins, a keyword that is an operand and a semicolon that begins a statement, put in
before, between and behind the readings of a broken text. -/
theorem idle_registrations_unobserved_of_broken :
    let steps : List Parser.Step :=
      [.inserted (.onJoining .comma), .own (.expression .default),
        .inserted (.onLeading .letKeyword .operand), .own (.onLeading .comma .unary),
        .inserted (.onStatement .semicolon .bare), .own .program]
    (Parser.ofSource "= 1, let; ) x").IdleAlong steps ∧
      (Parser.ofSource "= 1, let; ) x").observe steps =
        ((Parser.ofSource "= 1, let; ) x").run
          [.expression .default, .onLeading .comma .unary, .program]).map .of := by
  intro steps
  have idle : (Parser.ofSource "= 1, let; ) x").IdleAlong steps :=
    ⟨.joining rfl, .leading rfl, .statement rfl, trivial⟩
  exact ⟨idle, idle_registrations_unobserved _ steps idle⟩

end Frontend
