import Mathlib.Logic.Function.Iterate
import Frontend.Proofs.CursorWalk
import Frontend.Proofs.Operations

/-!
# The window slides over the tokens

A parser sees two neighbouring tokens of the text, and whatever is done with it, it only ever moves
on (`parser_slides_over_tokens`). All tokens to come are in its window, but two of them are enough:
with those and the cursor behind them (`Lookahead`), a token is drawn at each step, and the two are
always those that the window shows. It does not matter either whether tokens are skipped by the
cursor that the parser is made from or by the parser.
-/
namespace Frontend

/-- The token of a text at an index. Behind the last one, the end token stands for ever. -/
def tokenAt (source : String) (index : Nat) : Token :=
  (tokenize source)[index]?.getD (Cursor.finalToken source)

namespace Window

theorem iterate_advance (w : Window) (n : Nat) :
    advance^[n] w = { w with ahead := w.ahead.drop n } := by
  induction n generalizing w with
  | zero => rfl
  | succ n ih => rw [Function.iterate_succ_apply, ih, advance, List.drop_tail]

/-- A window further on is so many tokens further on. -/
theorem Reaches.exists_iterate {w v : Window} (reached : w.Reaches v) :
    ∃ n, v = advance^[n] w := by
  obtain ⟨suffix, finish⟩ := reached
  refine ⟨w.ahead.length - v.ahead.length, ?_⟩
  rw [iterate_advance, ← List.suffix_iff_eq_drop.mp suffix, ← finish]

theorem final_ofSource (source : String) :
    (ofSource source).final = Cursor.finalToken source := by
  rw [final, ofSource, ofText, Nat.zero_add, byteLength_toList, Cursor.finalToken]

theorem current_iterate_advance (source : String) (index : Nat) :
    (advance^[index] (ofSource source)).current = tokenAt source index := by
  rw [iterate_advance, tokenAt, tokenize_eq, ← final_ofSource, current, List.headD_eq_head?_getD,
    List.head?_drop]
  by_cases inside : index < (ofSource source).ahead.length
  · rw [List.getElem?_append_left inside]
    rfl
  · -- where the end token is the one in the list or the one behind it
    rw [List.getElem?_eq_none (Nat.not_lt.mp inside),
      List.getElem?_append_right (Nat.not_lt.mp inside), List.getElem?_singleton]
    split <;> rfl

theorem peek_iterate_advance (source : String) (index : Nat) :
    (advance^[index] (ofSource source)).peek = tokenAt source (index + 1) := by
  rw [← current_advance, ← Function.iterate_succ_apply' advance, current_iterate_advance]

end Window

namespace Cursor

/-- The cursor behind so many tokens; `none` inside a character. -/
def skip? : Nat → Cursor → Option Cursor
  | 0, c => some c
  | n + 1, c => c.next?.bind fun drawn => drawn.2.skip? n

theorem Between.window?_eq {c : Cursor} {before rest : List Char}
    (between : c.Between before rest) : c.window? = some (.ofText c.position rest) := by
  rw [window?, between.text?_eq, Option.map_some]

/-- The token that a cursor gives is the one that the window in front of it shows, and behind it
stands the window that advancing leads to. -/
theorem Settled.next?_of_window? {c : Cursor} {w : Window} (settled : c.Settled)
    (seen : c.window? = some w) :
    ∃ after, c.next? = some (w.current, after) ∧ after.Settled ∧
      after.window? = some w.advance := by
  have boundary : c.OnBoundary := by
    rw [← isSome_text?_iff, ← Option.isSome_map (f := Window.ofText c.position), ← window?, seen,
      Option.isSome_some]
  obtain ⟨before, rest, between⟩ := settled.exists_between boundary
  obtain ⟨token, passed, behind, rfl, drawn, outcome⟩ := between.exists_next?
  have moved := between.advanceBy
  have place : (c.advanceBy (Text.byteLength passed)).position =
      c.position + Text.byteLength passed := by
    rw [moved.position, Text.byteLength_append, between.position]
  rw [between.window?_eq, Option.some_inj] at seen
  subst seen
  refine ⟨_, ?_, settled.advanceBy _, moved.window?_eq.trans (congrArg some ?_)⟩
  · rw [drawn]
    rcases outcome with ⟨-, -, scanned⟩ | ⟨rfl, -, scanned⟩
    · simp only [Window.current, Window.ofText, scanned, List.headD_cons]
    · simp only [Window.current, Window.final, Window.ofText, scanned, List.headD_nil,
        between.position_add, finalToken]
  · rcases outcome with ⟨-, -, scanned⟩ | ⟨-, rfl, scanned⟩
    · simp only [Window.advance, Window.ofText, scanned, List.tail_cons, place,
        Text.byteLength_append, Nat.add_assoc]
    · rw [List.append_nil] at scanned
      simp only [Window.advance, Window.ofText, List.append_nil, scanned, List.tail_nil, place,
        scan_nil, Text.byteLength_nil, Nat.add_zero]

theorem window?_start (source : String) : (start source).window? = some (.ofSource source) :=
  (between_start source).window?_eq

/-- Behind so many tokens, a cursor is in front of the window that so many steps lead to. -/
theorem Settled.skip?_of_window? {c : Cursor} {w : Window} (settled : c.Settled)
    (seen : c.window? = some w) (n : Nat) :
    ∃ after, c.skip? n = some after ∧ after.Settled ∧
      after.window? = some (Window.advance^[n] w) := by
  induction n generalizing c w with
  | zero => exact ⟨c, rfl, settled, seen⟩
  | succ n ih =>
    obtain ⟨next, drawn, still, seenNext⟩ := settled.next?_of_window? seen
    obtain ⟨after, skipped, result⟩ := ih still seenNext
    refine ⟨after, ?_, result⟩
    rw [skip?, drawn, Option.bind_some, skipped]

end Cursor

/-- Two tokens, and the cursor behind them, from which the next one is drawn. -/
structure Lookahead where
  current : Token
  peek : Token
  cursor : Cursor

namespace Lookahead

/-- Draws the first two tokens; `none` inside a character. -/
def ofCursor? (c : Cursor) : Option Lookahead :=
  c.next?.bind fun (current, c) => c.next?.map fun (peek, c) => ⟨current, peek, c⟩

def advance? (l : Lookahead) : Option Lookahead :=
  l.cursor.next?.map fun (next, c) => ⟨l.peek, next, c⟩

def advanceBy? : Nat → Lookahead → Option Lookahead
  | 0, l => some l
  | n + 1, l => l.advance?.bind (advanceBy? n)

/-- The two tokens are those that the window shows, and the cursor stands behind them. -/
structure Sees (l : Lookahead) (w : Window) : Prop where
  current : l.current = w.current
  peek : l.peek = w.peek
  settled : l.cursor.Settled
  behind : l.cursor.window? = some w.advance.advance

theorem ofCursor?_eq {c after : Cursor} {token : Token} (drawn : c.next? = some (token, after)) :
    ofCursor? c = after.next?.map fun (peek, behind) => ⟨token, peek, behind⟩ := by
  rw [ofCursor?, drawn, Option.bind_some]

theorem exists_sees {c : Cursor} {w : Window} (settled : c.Settled) (seen : c.window? = some w) :
    ∃ l, ofCursor? c = some l ∧ l.Sees w := by
  obtain ⟨next, drawn, nextSettled, nextSeen⟩ := settled.next?_of_window? seen
  obtain ⟨after, nextDrawn, afterSettled, afterSeen⟩ := nextSettled.next?_of_window? nextSeen
  refine ⟨⟨w.current, w.peek, after⟩, ?_, rfl, rfl, afterSettled, afterSeen⟩
  rw [ofCursor?_eq drawn, nextDrawn, Option.map_some, Window.current_advance]

theorem Sees.advance {l : Lookahead} {w : Window} (sees : l.Sees w) :
    ∃ next, l.advance? = some next ∧ next.Sees w.advance := by
  obtain ⟨after, drawn, settled, seen⟩ := sees.settled.next?_of_window? sees.behind
  refine ⟨⟨l.peek, w.advance.peek, after⟩, ?_, ?_, rfl, settled, seen⟩
  · rw [advance?, drawn, Option.map_some, Window.current_advance]
  · rw [sees.peek, Window.current_advance]

theorem Sees.advanceBy {l : Lookahead} {w : Window} (sees : l.Sees w) (n : Nat) :
    ∃ last, l.advanceBy? n = some last ∧ last.Sees (Window.advance^[n] w) := by
  induction n generalizing l w with
  | zero => exact ⟨l, rfl, sees⟩
  | succ n ih =>
    obtain ⟨next, advanced, still⟩ := sees.advance
    obtain ⟨last, reached, result⟩ := ih still
    refine ⟨last, ?_, result⟩
    rw [advanceBy?, advanced, Option.bind_some, reached]

/-- Drawing two tokens behind the next one is drawing two and advancing. -/
theorem ofCursor?_of_next? {c after : Cursor} {token : Token}
    (drawn : c.next? = some (token, after)) :
    ofCursor? after = (ofCursor? c).bind advance? := by
  rw [ofCursor?_eq drawn]
  cases second : after.next? with
  | none => rw [ofCursor?, second, Option.bind_none, Option.map_none, Option.bind_none]
  | some pair =>
    rw [ofCursor?_eq second, Option.map_some, Option.bind_some]
    rfl

theorem ofCursor?_of_skip? {c after : Cursor} {n : Nat} (skipped : c.skip? n = some after) :
    ofCursor? after = (ofCursor? c).bind (advanceBy? n) := by
  induction n generalizing c with
  | zero =>
    cases skipped
    exact (Option.bind_fun_some _).symm
  | succ n ih =>
    obtain ⟨⟨token, next⟩, drawn, later⟩ := Option.bind_eq_some_iff.mp skipped
    rw [ih later, ofCursor?_of_next? drawn, Option.bind_assoc]
    rfl

end Lookahead

namespace Parser

/-- The parser sees the tokens of the text at the index and behind it, which are also those that a
lookahead sees after so many steps. -/
structure Shows (source : String) (index : Nat) (p : Parser) : Prop where
  current : p.current = tokenAt source index
  peek : p.peek = tokenAt source (index + 1)
  pulled : ∃ l, (Lookahead.ofCursor? (.start source)).bind (Lookahead.advanceBy? index) = some l ∧
    l.Sees p.window

theorem shows_iterate_advance {source : String} {index : Nat} {p : Parser}
    (window : p.window = Window.advance^[index] (.ofSource source)) : p.Shows source index := by
  refine ⟨?_, ?_, ?_⟩
  · rw [current, window, Window.current_iterate_advance]
  · rw [peek, window, Window.peek_iterate_advance]
  · obtain ⟨first, filled, sees⟩ :=
      Lookahead.exists_sees (Cursor.settled_start source) (Cursor.window?_start source)
    rw [filled, Option.bind_some, window]
    exact sees.advanceBy index

/-- Along a run, the indices never decrease. -/
theorem exists_indices {source : String} {index : Nat} {p : Parser}
    (window : p.window = Window.advance^[index] (.ofSource source))
    (operations : List Operation) :
    ∃ indices, (index :: indices).Pairwise (· ≤ ·) ∧
      List.Forall₂ (fun entry index => entry.2.Shows source index) (p.run operations) indices := by
  induction operations generalizing p index with
  | nil => exact ⟨[], List.pairwise_singleton _ _, .nil⟩
  | cons operation later ih =>
    obtain ⟨n, moved⟩ := (p.reaches_perform operation).exists_iterate
    rw [window, ← Function.iterate_add_apply] at moved
    obtain ⟨indices, ordered, shown⟩ := ih moved
    refine ⟨(n + index) :: indices, ?_, .cons (shows_iterate_advance moved) shown⟩
    refine List.pairwise_cons.mpr ⟨?_, ordered⟩
    intro other member
    rcases List.mem_cons.mp member with rfl | behind
    · omega
    · have after := List.rel_of_pairwise_cons ordered behind
      omega

theorem iterate_advance_ofWindow (w : Window) (n : Nat) :
    advance^[n] (ofWindow w) = ofWindow (Window.advance^[n] w) :=
  (Function.Semiconj.iterate_right (f := ofWindow) (fun _ => rfl) n w).symm

end Parser

/-- A parser made behind the first tokens of a text is the parser at the start of the text, advanced
as often, and its two tokens and the cursor behind them are those drawn as often. Before and behind
each of any operations, it sees two neighbouring tokens of the text, at indices that never decrease.
Requiring a token that does not follow changes nothing, and only the reading of a program changes
the diagnostics: it adds to them. -/
theorem parser_slides_over_tokens (source : String) (skipped : Nat)
    (operations : List Parser.Operation) :
    ∃ cursor p, (Cursor.start source).skip? skipped = some cursor ∧
      (∃ after, cursor.next? = some (tokenAt source skipped, after)) ∧
      Parser.ofCursor? cursor = some p ∧ p = Parser.advance^[skipped] (.ofSource source) ∧
      Lookahead.ofCursor? cursor =
        (Lookahead.ofCursor? (.start source)).bind (Lookahead.advanceBy? skipped) ∧
      p.Shows source skipped ∧
      (∃ indices, (skipped :: indices).Pairwise (· ≤ ·) ∧
        List.Forall₂ (fun entry index => entry.2.Shows source index)
          (p.run operations) indices) ∧
      (∀ (q : Parser) kind d, (q.expect kind).1 = .error d → (q.expect kind).2 = q) ∧
      (∀ (q : Parser) operation, operation ≠ .program →
        (q.perform operation).2.diagnostics = q.diagnostics) ∧
      ∀ q : Parser, q.diagnostics <+: (q.perform .program).2.diagnostics := by
  obtain ⟨cursor, passed, settled, seen⟩ :=
    (Cursor.settled_start source).skip?_of_window? (Cursor.window?_start source) skipped
  obtain ⟨after, drawn, -, -⟩ := settled.next?_of_window? seen
  rw [Window.current_iterate_advance] at drawn
  have window : (Parser.ofWindow (Window.advance^[skipped] (.ofSource source))).window =
      Window.advance^[skipped] (.ofSource source) := rfl
  refine ⟨cursor, _, passed, ⟨after, drawn⟩, ?_,
    (Parser.iterate_advance_ofWindow _ skipped).symm, Lookahead.ofCursor?_of_skip? passed,
    Parser.shows_iterate_advance window,
    Parser.exists_indices window operations, ?_, ?_, ?_⟩
  · rw [Parser.ofCursor?, seen, Option.map_some]
  · exact fun q kind d failed => Parser.expect_of_error failed
  · intro q operation other
    rw [Parser.diagnostics_perform, Parser.recorded_of_ne other, List.append_nil]
  · intro q
    rw [Parser.diagnostics_perform]
    exact List.prefix_append _ _

end Frontend
