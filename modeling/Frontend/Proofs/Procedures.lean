import Frontend.Proofs.Items
import Frontend.Proofs.Readers

/-!
# Reading as plain procedures

The readers carry what makes them terminate: their measures are part of the definitions, and at the
end of the text `readLeading` does not look for an operand behind an operator. Here the readers are
written as plain procedures that call one another, with loops that go on until a token stops them,
and with no measure. All that limits them is a depth: a call, and a pass of a loop, leaves less of it
to what comes within and after, and when none is left there is no answer. A procedure that never
ends has none at any depth.

A procedure that gives what a reading says is said to follow it (`Procedure.Follows`). Every
procedure follows its reader from some depth on, which grows with what is left of the text, as long
as the end of the text is not read as an operator.
-/
namespace Frontend

/-- What moves a window until it gives a value or a diagnostic; `none` if it has not by then. -/
abbrev Procedure := ExceptT Diagnostic (StateT Window Option)

namespace Procedure

variable {α β : Type}

/-- No depth is left. -/
def outOfDepth : Procedure α := fun _ => none

def current : Procedure Token := return (← get).current

def peek : Procedure Token := return (← get).peek

def advance : Procedure Unit := modify Window.advance

def skipOptional (kind : Kind) : Procedure Unit := modify (Window.skipOptional kind)

/-- Steps onto the next token, which has to be of the given kind. -/
def expect (kind : Kind) : Procedure Token := do
  let next ← peek
  if next.kind = kind then
    advance
    current
  else throw ⟨.unexpectedToken kind next.kind, next.position⟩

/-- A diagnostic becomes a value, so that what comes after is done in any case. -/
def attempt (m : Procedure α) : Procedure (Except Diagnostic α) :=
  fun w => (m w).map fun (result, v) => (.ok result, v)

end Procedure

namespace Handlers

open Procedure

/-! ### Expressions -/

def runOperand : Procedure Expression := do
  let token ← current
  match token.kind with
  | .identifier => return .identifier ⟨token, token.literal⟩
  | .integer =>
    match integerValue? token.literal with
    | some value => return .integer token value
    | none => throw ⟨.integerOutOfRange token.literal, token.position⟩
  | _ => throw (missingOperand token)

mutual

def runExpression (h : Handlers) : Nat → BindingPower → Procedure Expression
  | 0, _ => outOfDepth
  | depth + 1, minimum => do
    let token ← current
    match h.leading token.kind with
    | none => throw (missingOperand token)
    | some handler =>
      let left ← h.runLeading depth handler
      h.runFurther depth minimum left

def runLeading (h : Handlers) : Nat → LeadingHandler → Procedure Expression
  | 0, _ => outOfDepth
  | _ + 1, .operand => runOperand
  | depth + 1, .unary => do
    let operator ← current
    advance
    let operand ← h.runExpression depth .unary
    return .unary operator operator.literal operand

def runFurther (h : Handlers) : Nat → BindingPower → Expression → Procedure Expression
  | 0, _, _ => outOfDepth
  | depth + 1, minimum, left => do
    let next ← peek
    if next.kind ≠ .semicolon ∧ minimum < next.kind.bindingPower then
      if h.joining next.kind then
        advance
        let operator ← current
        let joined ← h.runBinary depth left operator.kind.bindingPower
        h.runFurther depth minimum joined
      else return left
    else return left

def runBinary (h : Handlers) : Nat → Expression → BindingPower → Procedure Expression
  | 0, _, _ => outOfDepth
  | depth + 1, left, power => do
    let operator ← current
    advance
    let right ← h.runExpression depth power
    return .binary operator left operator.literal right

end

/-! ### Statements -/

def runBinding (h : Handlers) (depth : Nat) : Procedure Statement := do
  let keyword ← current
  let name ← expect .identifier
  let _ ← expect .assignment
  advance
  let value ← h.runExpression depth .default
  skipOptional .semicolon
  return .binding keyword ⟨name, name.literal⟩ value

def runReturning (h : Handlers) (depth : Nat) : Procedure Statement := do
  let keyword ← current
  advance
  let value ← h.runExpression depth .default
  skipOptional .semicolon
  return .returning keyword value

def runBare (h : Handlers) (depth : Nat) : Procedure Statement := do
  let first ← current
  let value ← h.runExpression depth .default
  skipOptional .semicolon
  return .bare first value

def runStatementAs (h : Handlers) (depth : Nat) : StatementHandler → Procedure Statement
  | .binding => h.runBinding depth
  | .returning => h.runReturning depth
  | .bare => h.runBare depth

def runStatement (h : Handlers) (depth : Nat) : Procedure Statement := do
  let first ← current
  match h.statement first.kind with
  | some handler => h.runStatementAs depth handler
  | none => h.runBare depth

/-! ### Programs -/

/-- Skips the rest of a broken statement that began at `start`. -/
def runRecovery (start : Position) : Nat → Procedure Unit
  | 0 => outOfDepth
  | depth + 1 => do
    let token ← current
    match token.kind with
    | .semicolon => advance
    | .endOfInput => return ()
    | .letKeyword | .returnKeyword =>
      if token.position ≠ start then return ()
      else
        advance
        runRecovery start depth
    | _ =>
      advance
      runRecovery start depth

/-- One statement of a program, and the way to the next one. -/
def runItem (h : Handlers) (depth : Nat) : Procedure Item := do
  let first ← current
  match ← attempt (h.runStatement depth) with
  | .ok statement =>
    advance
    return .ok statement
  | .error d =>
    runRecovery first.position depth
    return .error d

def runItems (h : Handlers) : Nat → Procedure (List Item)
  | 0 => outOfDepth
  | depth + 1 => do
    if (← current).kind = .endOfInput then return []
    else
      let item ← h.runItem depth
      let later ← h.runItems depth
      return item :: later

end Handlers

/-! ### Following a reading -/

namespace Procedure

variable {α β : Type} {w v : Window}

theorem current_bind (f : Token → Procedure β) (w : Window) :
    (current >>= f) w = f w.current w := rfl

theorem bind_of_ok {m : Procedure α} {a : α} (ended : m w = some (.ok a, v))
    (f : α → Procedure β) : (m >>= f) w = f a v := by
  change (StateT.bind m _) w = _
  rw [StateT.bind, ended]
  rfl

theorem bind_of_error {m : Procedure α} {d : Diagnostic} (ended : m w = some (.error d, v))
    (f : α → Procedure β) : (m >>= f) w = some (.error d, v) := by
  change (StateT.bind m _) w = _
  rw [StateT.bind, ended]
  rfl

theorem bind_of_none {m : Procedure α} (noAnswer : m w = none) (f : α → Procedure β) :
    (m >>= f) w = none := by
  change (StateT.bind m _) w = _
  rw [StateT.bind, noAnswer]
  rfl

theorem attempt_eq {m : Procedure α} {result : Except Diagnostic α}
    (ended : m w = some (result, v)) : m.attempt w = some (.ok result, v) := by
  rw [attempt, ended]
  rfl

/-- The procedure ends, with the result of the reading and where the reading stopped. -/
def Follows (m : Procedure α) (r : Reading w α) : Prop := m w = some (r.result, r.window)

theorem follows_done (a : α) : (pure a : Procedure α).Follows (.done w a) := rfl

theorem follows_fail (d : Diagnostic) : (throw d : Procedure α).Follows (.fail w d) := rfl

theorem follows_current {f : Token → Procedure β} {r : Reading w β}
    (follows : (f w.current).Follows r) : (current >>= f).Follows r := follows

theorem follows_peek {f : Token → Procedure β} {r : Reading w β}
    (follows : (f w.peek).Follows r) : (peek >>= f).Follows r := follows

theorem follows_further {f : Unit → Procedure β} {r : Reading w.advance β}
    (follows : (f ()).Follows r) : (advance >>= f).Follows (r.further w.reaches_advance) := follows

theorem Follows.andThen {m : Procedure α} {r : Reading w α} {f : α → Procedure β}
    {next : α → (v : Window) → w.Reaches v → Reading v β} (first : m.Follows r)
    (later : ∀ a, (f a).Follows (next a r.window r.reached)) :
    (m >>= f).Follows (r.andThen next) := by
  rw [Follows] at first
  cases result : r.result with
  | ok a =>
    rw [result] at first
    rw [Reading.andThen_of_ok result, Follows, bind_of_ok first]
    exact later a
  | error d =>
    rw [result] at first
    rw [Reading.andThen_of_error result, Follows, bind_of_error first]

theorem Follows.map {m : Procedure α} {r : Reading w α} (follows : m.Follows r) (g : α → β) :
    (m >>= fun a => pure (g a)).Follows (r.map g) := by
  rw [Follows] at follows
  rw [Follows, Reading.result_map, Reading.window_map]
  cases result : r.result with
  | ok a =>
    rw [result] at follows
    exact bind_of_ok follows _
  | error d =>
    rw [result] at follows
    exact bind_of_error follows _

theorem follows_expect (kind : Kind) : (expect kind).Follows (w.expect kind) := by
  apply follows_peek
  rw [Window.expect]
  split
  · rw [Follows, ← w.current_advance]
    rfl
  · exact follows_fail _

end Procedure

namespace Handlers

open Procedure

variable {h : Handlers} {w : Window}

theorem follows_operand : runOperand.Follows (readOperand w) := by
  apply follows_current
  rw [readOperand]
  cases w.current.kind with
  | identifier => exact follows_done _
  | integer =>
    cases integerValue? w.current.literal with
    | some value => exact follows_done _
    | none => exact follows_fail _
  | _ => exact follows_fail _

/-- A token that binds is no semicolon, so asking for one decides nothing. -/
theorem ne_semicolon_of_lt_bindingPower {minimum : BindingPower} {kind : Kind}
    (tighter : minimum < kind.bindingPower) : kind ≠ .semicolon := by
  rintro rfl
  exact BindingPower.not_lt_default minimum tighter

/-- At the end of the text an operand is missing, however the table has it read. -/
theorem follows_missing_at_end (noSign : h.leading .endOfInput ≠ some .unary) {depth : Nat}
    (minimum : BindingPower) (empty : w.ahead = []) :
    (h.runExpression (depth + 2) minimum).Follows (.fail w (missingOperand w.current)) := by
  have ended := Window.current_kind_of_ahead_nil empty
  rw [runExpression]
  apply follows_current
  rw [ended]
  cases found : h.leading .endOfInput with
  | none => exact follows_fail _
  | some handler =>
    cases handler with
    | operand =>
      have missing : (h.runLeading (depth + 1) .operand).Follows (readOperand w) := by
        rw [runLeading]
        exact follows_operand
      rw [readOperand_of_other (by simp [ended]) (by simp [ended])] at missing
      exact bind_of_error missing _
    | unary => exact absurd found noSign

/-- The readers of expressions are followed, if the end of the text is no operator. The depths are
the measures of the readers, and three more for an operator that is read at the end of the text. -/
theorem follows_readers (noSign : h.leading .endOfInput ≠ some .unary) :
    (∀ minimum w depth, 5 * w.left + 5 ≤ depth →
      (h.runExpression depth minimum).Follows (h.readExpression minimum w)) ∧
    (∀ minimum left w depth, 5 * w.left + 3 ≤ depth →
      (h.runFurther depth minimum left).Follows (h.readFurther minimum left w)) ∧
    (∀ left power w depth, 5 * w.left + 6 ≤ depth →
      (h.runBinary depth left power).Follows (h.readBinary left power w)) ∧
    (∀ handler w depth, 5 * w.left + 4 ≤ depth →
      (h.runLeading depth handler).Follows (h.readLeading handler w)) := by
  apply readExpression.mutual_induct h
  case case1 =>
    intro minimum w missing depth enough
    cases depth with
    | zero => omega
    | succ depth =>
      rw [readExpression_of_none missing, runExpression]
      apply follows_current
      rw [missing]
      exact follows_fail _
  case case2 =>
    intro minimum w handler found leading further depth enough
    cases depth with
    | zero => omega
    | succ depth =>
      have reached := (h.readLeading handler w).reached
      have within := reached.left_le
      rw [readExpression_of_some found, runExpression]
      apply follows_current
      rw [found]
      exact (leading depth (by omega)).andThen fun left =>
        further left _ reached depth (by omega)
  case case3 =>
    intro minimum left w joins binary further depth enough
    cases depth with
    | zero => omega
    | succ depth =>
      have some_left := Window.left_pos_of_lt_bindingPower joins.1
      have reached := (h.readBinary left w.peek.kind.bindingPower w.advance).reached
      have within := Window.left_lt_of_reaches_advance reached some_left
      rw [readFurther_of_joining joins.1 joins.2, runFurther]
      apply follows_peek
      rw [if_pos ⟨ne_semicolon_of_lt_bindingPower joins.1, joins.1⟩, if_pos joins.2]
      refine follows_further (follows_current ?_)
      rw [Window.current_advance]
      refine (binary depth ?_).andThen fun joined => further joined _ reached depth (by omega)
      rw [Window.left_advance]
      omega
  case case4 =>
    intro minimum left w stops depth enough
    cases depth with
    | zero => omega
    | succ depth =>
      rw [readFurther_of_not stops, runFurther]
      apply follows_peek
      split
      next tighter =>
        rw [if_neg fun joins => stops ⟨tighter.2, joins⟩]
        exact follows_done _
      · exact follows_done _
  case case5 =>
    intro left power w right depth enough
    cases depth with
    | zero => omega
    | succ depth =>
      rw [readBinary_eq, runBinary]
      refine follows_current (follows_further ((right depth ?_).map _))
      rw [Window.left_advance]
      omega
  case case6 =>
    intro w depth enough
    cases depth with
    | zero => omega
    | succ depth =>
      rw [readLeading_operand, runLeading]
      exact follows_operand
  case case7 =>
    intro w some_left operand depth enough
    cases depth with
    | zero => omega
    | succ depth =>
      rw [readLeading_unary some_left, runLeading]
      refine follows_current (follows_further ((operand depth ?_).map _))
      rw [Window.left_advance]
      omega
  case case8 =>
    -- behind the end of the text it is the end of the text again that is no operand
    intro w none_left depth enough
    obtain ⟨depth, rfl⟩ : ∃ rest, depth = rest + 3 := ⟨depth - 3, by omega⟩
    have empty : w.ahead = [] := List.length_eq_zero_iff.mp (Nat.eq_zero_of_not_pos none_left)
    have missing : (h.runExpression (depth + 2) .unary).Follows (w := w) _ :=
      follows_missing_at_end noSign .unary empty
    rw [readLeading, if_neg none_left, runLeading]
    apply follows_current
    change (h.runExpression (depth + 2) .unary >>= _) w.advance = _
    rw [Window.advance_of_ahead_nil empty]
    exact bind_of_error missing _

section

variable {depth : Nat} (noSign : h.leading .endOfInput ≠ some .unary)

include noSign

theorem follows_value {f : Expression → Statement} (enough : 5 * w.left + 5 ≤ depth) :
    (h.runExpression depth .default >>= fun value => skipOptional .semicolon >>= fun _ =>
      pure (f value)).Follows ((h.readValue w).map f) := by
  have value := (follows_readers noSign).1 .default w depth enough
  rw [Follows, Reading.result_map, Reading.window_map, readValue, Reading.thenOptional]
  rw [Follows] at value
  cases result : (h.readExpression .default w).result with
  | ok e =>
    rw [result] at value
    rw [Reading.andThen_of_ok result, bind_of_ok value]
    rfl
  | error d =>
    rw [result] at value
    rw [Reading.andThen_of_error result, bind_of_error value]
    rfl

theorem follows_statementAs (handler : StatementHandler) (enough : 5 * w.left + 5 ≤ depth) :
    (h.runStatementAs depth handler).Follows (h.readStatementAs handler w) := by
  -- whatever has been passed, the depth is enough for what is left
  have within {v : Window} (reached : w.Reaches v) : 5 * v.left + 5 ≤ depth := by
    have bound := reached.left_le
    omega
  cases handler with
  | binding =>
    rw [runStatementAs, readStatementAs, runBinding, readBinding]
    apply follows_current
    refine (follows_expect _).andThen fun name => ?_
    refine (follows_expect _).andThen fun sign => ?_
    refine follows_further (follows_value noSign (within ?_))
    exact ((Reading.reached _).trans (Reading.reached _)).trans (Window.reaches_advance _)
  | returning =>
    rw [runStatementAs, readStatementAs, runReturning, readReturning]
    exact follows_current (follows_further (follows_value noSign (within w.reaches_advance)))
  | bare =>
    rw [runStatementAs, readStatementAs, runBare, readBare]
    exact follows_current (follows_value noSign enough)

theorem follows_statement (enough : 5 * w.left + 5 ≤ depth) :
    (h.runStatement depth).Follows (h.readStatement w) := by
  rw [runStatement, readStatement]
  apply follows_current
  cases h.statement w.current.kind with
  | some handler => exact follows_statementAs noSign handler enough
  | none => exact follows_statementAs noSign .bare enough

end

end Handlers

/-! ### Loops -/

/-- The end of the text is not among the tokens in front of it. -/
def Window.Clean (w : Window) : Prop := ∀ token ∈ w.ahead, token.kind ≠ .endOfInput

namespace Window

variable {w v : Window}

theorem Clean.of_reaches (clean : w.Clean) (reached : w.Reaches v) : v.Clean :=
  fun token member => clean token (reached.1.subset member)

theorem Clean.current_kind_eq_iff (clean : w.Clean) :
    w.current.kind = .endOfInput ↔ ¬ 0 < w.left := by
  cases ahead : w.ahead with
  | nil =>
    rw [left, ahead]
    exact iff_of_true (current_kind_of_ahead_nil ahead) (Nat.lt_irrefl 0)
  | cons token rest =>
    rw [current_of_ahead ahead, left, ahead]
    have member : token ∈ w.ahead := by rw [ahead]; exact List.mem_cons_self
    exact iff_of_false (clean token member) (not_not_intro (Nat.zero_lt_succ _))

end Window

namespace Handlers

open Procedure

variable {h : Handlers} {w : Window}

theorem recovery_eq (start : Position) (depth : Nat) (clean : w.Clean)
    (enough : w.left < depth) : runRecovery start depth w = some (.ok (), w.recover start) := by
  obtain ⟨ahead, finish⟩ := w
  induction ahead generalizing depth with
  | nil =>
    cases depth with
    | zero => exact absurd enough (Nat.not_lt_zero _)
    | succ depth =>
      rw [runRecovery]
      rfl
  | cons token rest ih =>
    cases depth with
    | zero => exact absurd enough (Nat.not_lt_zero _)
    | succ depth =>
      have later : runRecovery start depth ⟨rest, finish⟩ =
          some (.ok (), ⟨skipBroken start rest, finish⟩) :=
        ih depth (fun other member => clean other (List.mem_cons_of_mem token member))
          (Nat.lt_of_succ_lt_succ enough)
      have inside : token.kind ≠ .endOfInput := clean token List.mem_cons_self
      have keyword : (if token.position ≠ start then pure () else do
            advance
            runRecovery start depth : Procedure Unit) ⟨token :: rest, finish⟩ =
          some (.ok (), ⟨if token.position = start then skipBroken start rest else token :: rest,
            finish⟩) := by
        by_cases own : token.position = start
        · rw [if_neg (not_not_intro own), if_pos own]
          exact later
        · rw [if_pos own, if_neg own]
          rfl
      rw [runRecovery, current_bind, Window.current_of_ahead rfl, Window.recover, skipBroken]
      cases kind : token.kind with
      | semicolon => rfl
      | endOfInput => exact absurd kind inside
      | letKeyword => exact keyword
      | returnKeyword => exact keyword
      | _ => exact later

section

variable {depth : Nat} (noSign : h.leading .endOfInput ≠ some .unary) (clean : w.Clean)

include noSign clean

/-- One pass of the loop over a program reads one statement, and goes where the next is looked
for. -/
theorem item_eq (enough : 5 * w.left + 5 ≤ depth) :
    h.runItem depth w = some (.ok (h.readStatement w).result, (h.readStatement w).resume) := by
  have reached := (h.readStatement w).reached
  have within := reached.left_le
  have reading : (h.runStatement depth).attempt w = _ :=
    attempt_eq (follows_statement noSign enough)
  have recovered := recovery_eq w.current.position depth (clean.of_reaches reached) (by omega)
  rw [runItem, current_bind, bind_of_ok reading]
  cases result : (h.readStatement w).result with
  | ok s =>
    rw [Reading.resume_of_ok result]
    rfl
  | error d =>
    rw [Reading.resume_of_error result]
    exact bind_of_ok recovered _

/-- The loop over a program ends, with the items that are read and at the end of the text. -/
theorem items_eq : ∀ depth, 5 * w.left + 6 ≤ depth →
    h.runItems depth w = some (.ok (h.readItems w).1, (h.readItems w).2) := by
  induction w using readItems.induct h with
  | case1 w some_left r shorter ih =>
    intro depth enough
    cases depth with
    | zero => omega
    | succ depth =>
      have later := ih (clean.of_reaches r.reaches_resume) depth (by omega)
      have unfolded : h.readItems w =
          (r.result :: (h.readItems r.resume).1, (h.readItems r.resume).2) := by
        rw [readItems, dif_pos some_left]
      rw [runItems, current_bind,
        if_neg fun ended => clean.current_kind_eq_iff.mp ended some_left,
        bind_of_ok (item_eq noSign clean (by omega)), bind_of_ok later, unfolded]
      rfl
  | case2 w none_left =>
    intro depth enough
    cases depth with
    | zero => omega
    | succ depth =>
      rw [runItems, current_bind, if_pos (clean.current_kind_eq_iff.mpr none_left), readItems,
        dif_neg none_left]
      rfl

end

end Handlers

end Frontend
