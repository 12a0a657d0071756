import Mathlib.Data.List.Forall2
import Frontend.Proofs.ByteReading

/-!
# Walks of a cursor

A cursor may be moved by single bytes and by whole tokens in any order, and copies of it may be
kept and put back. Wherever such a walk leads, the fields of the cursor agree, and only the drawing
of a token can fail: it does exactly inside a character (`walk_draws_between_characters`).
-/
namespace Frontend

namespace Cursor

/-- An operation on a cursor, or on the copies of it that are kept in numbered slots. -/
inductive Operation where
  | advance
  | peekByte
  | atEnd
  | nextToken
  /-- The next token; nothing at the end of the text. -/
  | nextItem
  | keep (slot : Nat)
  | restore (slot : Nat)
  deriving DecidableEq, Repr

namespace Operation

def DrawsToken (operation : Operation) : Prop := operation = nextToken ∨ operation = nextItem

def Restores (operation : Operation) : Prop := ∃ slot, operation = restore slot

end Operation

/-- What an operation on a cursor answers. -/
inductive Answer where
  | done
  | byte (byte : UInt8)
  | truth (holds : Bool)
  | token (drawn : Token)
  | item (drawn : Option Token)
  deriving DecidableEq

namespace Answer

/-- A token as an item: nothing for the end token. -/
def ofItem (drawn : Token) : Answer := item (if drawn.isEnd then none else some drawn)

/-- The answer says that the text is at its end. -/
def IsEnd : Answer → Prop
  | token drawn => drawn.isEnd = true
  | item drawn => drawn = none
  | _ => False

theorem isEnd_ofItem_iff (drawn : Token) : (ofItem drawn).IsEnd ↔ drawn.isEnd = true := by
  cases isEnd : drawn.isEnd <;> simp [ofItem, IsEnd, isEnd]

end Answer

end Cursor

/-- A cursor with the copies of it that have been kept. -/
structure Walk where
  cursor : Cursor
  kept : Nat → Cursor

namespace Walk

open Cursor (Operation Answer finalToken)

/-- At the start of a text, every slot holds a copy of the new cursor. -/
def start (source : String) : Walk := ⟨.start source, fun _ => .start source⟩

def moveTo (walk : Walk) (cursor : Cursor) : Walk := { walk with cursor := cursor }

/-- Performs an operation; `none` where there is no token to be had. -/
def perform (walk : Walk) : Operation → Option (Answer × Walk)
  | .advance => some (.done, walk.moveTo walk.cursor.advance)
  | .peekByte => some (.byte walk.cursor.peekByte, walk)
  | .atEnd => some (.truth walk.cursor.atEnd, walk)
  | .nextToken => walk.cursor.next?.map fun (token, after) => (.token token, walk.moveTo after)
  | .nextItem => walk.cursor.next?.map fun (token, after) => (.ofItem token, walk.moveTo after)
  | .keep slot =>
    some (.done, { walk with
      kept := fun other => if other = slot then walk.cursor else walk.kept other })
  | .restore slot => some (.done, walk.moveTo (walk.kept slot))

/-- Performs operations one after the other: their answers, and where they lead. -/
def follow (walk : Walk) : List Operation → Option (List Answer × Walk)
  | [] => some ([], walk)
  | operation :: later =>
    (walk.perform operation).bind fun (answer, after) =>
      (after.follow later).map fun (answers, last) => (answer :: answers, last)

/-- The cursor and all copies of it are settled in the text. -/
structure Sound (source : String) (walk : Walk) : Prop where
  cursor : walk.cursor.source = source ∧ walk.cursor.Settled
  kept : ∀ slot, (walk.kept slot).source = source ∧ (walk.kept slot).Settled

variable {source : String} {walk after : Walk} {operation : Operation} {answer : Answer}

theorem sound_start (source : String) : (start source).Sound source :=
  ⟨⟨rfl, Cursor.settled_start source⟩, fun _ => ⟨rfl, Cursor.settled_start source⟩⟩

theorem perform_eq_none_iff :
    walk.perform operation = none ↔ operation.DrawsToken ∧ ¬ walk.cursor.OnBoundary := by
  rw [← Cursor.next?_eq_none_iff]
  cases operation <;> simp [perform, Operation.DrawsToken]

theorem perform_nextToken {token : Token} {cursor : Cursor}
    (drawn : walk.cursor.next? = some (token, cursor)) :
    walk.perform .nextToken = some (.token token, walk.moveTo cursor) := by
  rw [perform, drawn]
  rfl

theorem perform_nextItem {token : Token} {cursor : Cursor}
    (drawn : walk.cursor.next? = some (token, cursor)) :
    walk.perform .nextItem = some (.ofItem token, walk.moveTo cursor) := by
  rw [perform, drawn]
  rfl

/-- Of a drawing operation, the token that was drawn. -/
theorem exists_drawn (draws : operation.DrawsToken)
    (performed : walk.perform operation = some (answer, after)) :
    ∃ token, walk.cursor.next? = some (token, after.cursor) ∧
      (answer.IsEnd ↔ token.isEnd = true) ∧
      (operation = .nextToken → answer = .token token) := by
  rcases draws with rfl | rfl
  · obtain ⟨⟨token, cursor⟩, drawn, same⟩ := Option.map_eq_some_iff.mp performed
    cases same
    exact ⟨token, drawn, Iff.rfl, fun _ => rfl⟩
  · obtain ⟨⟨token, cursor⟩, drawn, same⟩ := Option.map_eq_some_iff.mp performed
    cases same
    exact ⟨token, drawn, Answer.isEnd_ofItem_iff token, nofun⟩

theorem Sound.moveTo {cursor : Cursor} (sound : walk.Sound source)
    (settled : cursor.source = source ∧ cursor.Settled) : (walk.moveTo cursor).Sound source :=
  ⟨settled, sound.kept⟩

theorem Sound.perform (sound : walk.Sound source)
    (performed : walk.perform operation = some (answer, after)) : after.Sound source := by
  obtain ⟨text, settled⟩ := sound.cursor
  have drawing {token : Token} {cursor : Cursor}
      (drawn : walk.cursor.next? = some (token, cursor)) :
      cursor.source = source ∧ cursor.Settled := by
    obtain ⟨still, draws⟩ := settled.of_next? drawn
    exact ⟨draws.source.trans text, still⟩
  cases operation with
  | advance =>
    cases performed
    exact sound.moveTo ⟨text, settled.advance⟩
  | peekByte =>
    cases performed
    exact sound
  | atEnd =>
    cases performed
    exact sound
  | nextToken =>
    obtain ⟨⟨token, cursor⟩, drawn, same⟩ := Option.map_eq_some_iff.mp performed
    cases same
    exact sound.moveTo (drawing drawn)
  | nextItem =>
    obtain ⟨⟨token, cursor⟩, drawn, same⟩ := Option.map_eq_some_iff.mp performed
    cases same
    exact sound.moveTo (drawing drawn)
  | keep slot =>
    cases performed
    refine ⟨sound.cursor, fun other => ?_⟩
    dsimp only
    split
    · exact sound.cursor
    · exact sound.kept other
  | restore slot =>
    cases performed
    exact sound.moveTo (sound.kept slot)

theorem Sound.follow {operations : List Operation} {answers : List Answer} {last : Walk}
    (sound : walk.Sound source) (followed : walk.follow operations = some (answers, last)) :
    last.Sound source := by
  induction operations generalizing walk answers with
  | nil =>
    cases followed
    exact sound
  | cons operation later ih =>
    obtain ⟨⟨answer, after⟩, performed, rest⟩ := Option.bind_eq_some_iff.mp followed
    obtain ⟨⟨answers, other⟩, followed, same⟩ := Option.map_eq_some_iff.mp rest
    cases same
    exact ih (sound.perform performed) followed

/-! ### At the end of the text -/

/-- Until a copy is put back, no operation moves the cursor any more, and the token that is drawn
is the end token. -/
def AtRest (walk : Walk) : Prop :=
  ∀ later : List Operation, (∀ operation ∈ later, ¬ operation.Restores) →
    ∃ answers last, walk.follow later = some (answers, last) ∧ last.cursor = walk.cursor ∧
      List.Forall₂ (fun operation answer =>
        operation = .nextToken → answer = .token (finalToken walk.cursor.source)) later answers

theorem perform_at_end (settled : walk.cursor.Settled)
    (ended : walk.cursor.position = walk.cursor.source.utf8ByteSize)
    (stays : ¬ operation.Restores) :
    ∃ answer after, walk.perform operation = some (answer, after) ∧
      after.cursor = walk.cursor ∧
      (operation = .nextToken → answer = .token (finalToken walk.cursor.source)) := by
  have drawn := settled.next?_of_end ended
  cases operation with
  | advance => exact ⟨_, _, rfl, settled.advance_eq ended, nofun⟩
  | peekByte => exact ⟨_, _, rfl, rfl, nofun⟩
  | atEnd => exact ⟨_, _, rfl, rfl, nofun⟩
  | nextToken => exact ⟨_, _, perform_nextToken drawn, rfl, fun _ => rfl⟩
  | nextItem => exact ⟨_, _, perform_nextItem drawn, rfl, nofun⟩
  | keep slot => exact ⟨_, _, rfl, rfl, nofun⟩
  | restore slot => exact absurd ⟨slot, rfl⟩ stays

theorem atRest_of_end (settled : walk.cursor.Settled)
    (ended : walk.cursor.position = walk.cursor.source.utf8ByteSize) : walk.AtRest := by
  intro later
  -- on the operations, of which each leaves the cursor where it is
  induction later generalizing walk with
  | nil => exact fun _ => ⟨[], walk, rfl, rfl, .nil⟩
  | cons operation later ih =>
    intro stays
    obtain ⟨stays, staysLater⟩ := List.forall_mem_cons.mp stays
    obtain ⟨answer, after, performed, same, final⟩ := perform_at_end settled ended stays
    rw [← same] at settled ended
    obtain ⟨answers, last, followed, still, finals⟩ := ih settled ended staysLater
    rw [same] at finals
    refine ⟨answer :: answers, last, ?_, still.trans same, .cons final finals⟩
    rw [follow, performed, Option.bind_some]
    exact Option.map_eq_some_iff.mpr ⟨(answers, last), followed, rfl⟩

/-! ### Where walks lead -/

/-- Wherever a walk leads, the fields of the cursor agree, and a token is the same whether it is
read by characters or by bytes. Only the drawing of a token can fail: it does exactly where the
cursor is inside a character. It leads between two characters of the text, and further on unless
the end is reached, where the cursor then stays. -/
theorem walk_draws_between_characters {operations : List Operation} {answers : List Answer}
    (followed : (start source).follow operations = some (answers, walk)) :
    walk.cursor.source = source ∧ walk.cursor.Settled ∧
      walk.cursor.readToken? = walk.cursor.next? ∧
      (∀ operation, walk.perform operation = none ↔
        operation.DrawsToken ∧ ¬ walk.cursor.OnBoundary) ∧
      ∀ operation answer after, operation.DrawsToken →
        walk.perform operation = some (answer, after) →
          after.cursor.OnBoundary ∧ after.cursor.position ≤ source.utf8ByteSize ∧
            (¬ answer.IsEnd → walk.cursor.position < after.cursor.position) ∧
            (answer.IsEnd → after.AtRest ∧
              (operation = .nextToken → answer = .token (finalToken source))) := by
  have sound := (sound_start source).follow followed
  obtain ⟨text, settled⟩ := sound.cursor
  refine ⟨text, settled, settled.readToken?_eq, fun operation => perform_eq_none_iff, ?_⟩
  intro operation answer after draws performed
  obtain ⟨token, drawn, isEnd, reported⟩ := exists_drawn draws performed
  obtain ⟨still, draw⟩ := settled.of_next? drawn
  have inside := still.inside
  rw [draw.source, text] at inside
  refine ⟨draw.boundary, inside, ?_, ?_⟩
  · intro goesOn
    rw [isEnd, Bool.not_eq_true] at goesOn
    exact draw.further goesOn
  · intro ended
    obtain ⟨same, place⟩ := draw.ended (isEnd.mp ended)
    refine ⟨atRest_of_end still (by rw [place, draw.source]), fun asToken => ?_⟩
    rw [reported asToken, same, text]

/-- Back inside a character of two bytes, after a token has been drawn. -/
theorem walk_draws_between_characters_of_two_bytes :
    ∃ answers walk, (start "é =").follow
        [.advance, .keep 0, .restore 1, .nextToken, .restore 0] = some (answers, walk) ∧
      walk.cursor.position = 1 ∧ walk.cursor.Settled ∧ ¬ walk.cursor.OnBoundary := by
  have place : ((start "é =").follow [.advance, .keep 0, .restore 1, .nextToken, .restore 0]).map
      (fun (_, walk) => (walk.cursor.position, (walk.perform .nextToken).isNone)) =
        some (1, true) := by
    decide +kernel
  obtain ⟨⟨answers, walk⟩, followed, same⟩ := Option.map_eq_some_iff.mp place
  obtain ⟨position, fails⟩ := Prod.mk.inj same
  obtain ⟨-, settled, -, fails_iff, -⟩ := walk_draws_between_characters followed
  exact ⟨answers, walk, followed, position, settled,
    ((fails_iff .nextToken).mp (Option.isNone_iff_eq_none.mp fails)).2⟩

end Walk

end Frontend
