import Frontend.Proofs.Segments

/-!
# The segments that reading takes

Reading takes the tokens off the front, statement by statement. `segmentsOf` are the tokens that it
takes for each statement of a text, together with what became of it. They make up the text, and
each sound one stands where a statement ends (`standsBefore_of_ok`), however long the text is.
-/
namespace Frontend

namespace Handlers

/-- What reading takes off the front of the tokens for each statement, and what became of it. -/
def readSegments (h : Handlers) (w : Window) : List Segment :=
  if some_left : 0 < w.left then
    let r := h.readStatement w
    have := r.left_resume_lt some_left
    ⟨w.ahead.take (w.left - r.resume.left), r.result⟩ :: h.readSegments r.resume
  else []
termination_by w.left

variable {h : Handlers} {w : Window}

theorem readSegments_of_left (some_left : 0 < w.left) :
    h.readSegments w =
      ⟨w.ahead.take (w.left - (h.readStatement w).resume.left), (h.readStatement w).result⟩ ::
        h.readSegments (h.readStatement w).resume := by
  rw [readSegments, dif_pos some_left]

theorem readSegments_of_not_left (none_left : ¬ 0 < w.left) : h.readSegments w = [] := by
  rw [readSegments, dif_neg none_left]

theorem map_item_readSegments (w : Window) :
    (h.readSegments w).map Segment.item = (h.readItems w).1 := by
  induction w using readItems.induct h with
  | case1 w some_left r _ ih =>
    rw [readSegments_of_left some_left, readItems_of_left some_left, List.map_cons, ih]
  | case2 w none_left => rw [readSegments_of_not_left none_left, readItems, dif_neg none_left]; rfl

/-- What is taken off the front is what is no longer ahead. -/
theorem take_append_of_reaches {v : Window} (reached : w.Reaches v) :
    w.ahead.take (w.left - v.left) ++ v.ahead = w.ahead := by
  obtain ⟨⟨taken, split⟩, -⟩ := reached
  simp [Window.left, ← split]

theorem take_of_ahead_eq {v : Window} {taken : List Token} (reached : w.Reaches v)
    (split : w.ahead = taken ++ v.ahead) : w.ahead.take (w.left - v.left) = taken :=
  List.append_cancel_right ((take_append_of_reaches reached).trans split)

theorem flatMap_tokens_readSegments (w : Window) :
    (h.readSegments w).flatMap Segment.tokens = w.ahead := by
  induction w using readItems.induct h with
  | case1 w some_left r _ ih =>
    rw [readSegments_of_left some_left, List.flatMap_cons, ih]
    exact take_append_of_reaches r.reaches_resume
  | case2 w none_left =>
    rw [readSegments_of_not_left none_left, List.flatMap_nil]
    exact (List.length_eq_zero_iff.mp (Nat.eq_zero_of_not_pos none_left)).symm

/-- Wherever reading is, it goes on as from there. -/
theorem exists_reached_of_readSegments {segments : List Segment} (before : List Segment)
    (split : h.readSegments w = before ++ segments) :
    ∃ v, w.Reaches v ∧ h.readSegments v = segments := by
  induction w using readItems.induct h generalizing before with
  | case1 w some_left r _ ih =>
    cases before with
    | nil => exact ⟨w, .refl w, split⟩
    | cons first before =>
      rw [readSegments_of_left some_left, List.cons_append, List.cons.injEq] at split
      obtain ⟨v, reached, rest⟩ := ih before split.2
      exact ⟨v, r.reaches_resume.trans reached, rest⟩
  | case2 w none_left =>
    rw [readSegments_of_not_left none_left, List.nil_eq_append_iff] at split
    exact ⟨w, .refl w, by rw [readSegments_of_not_left none_left, split.2]⟩

theorem exists_of_readSegments_eq_cons {segment : Segment} {after : List Segment}
    (first : h.readSegments w = segment :: after) :
    0 < w.left ∧
      segment = ⟨w.ahead.take (w.left - (h.readStatement w).resume.left),
        (h.readStatement w).result⟩ ∧
      after = h.readSegments (h.readStatement w).resume := by
  by_cases some_left : 0 < w.left
  · rw [readSegments_of_left some_left, List.cons.injEq] at first
    exact ⟨some_left, first.1.symm, first.2.symm⟩
  · rw [readSegments_of_not_left some_left] at first
    cases first

/-- Something is taken for each statement. -/
theorem tokens_ne_nil_of_mem_readSegments {segment : Segment}
    (member : segment ∈ h.readSegments w) : segment.tokens ≠ [] := by
  obtain ⟨before, after, split⟩ := List.append_of_mem member
  obtain ⟨v, -, first⟩ := exists_reached_of_readSegments before split
  obtain ⟨some_left, rfl, -⟩ := exists_of_readSegments_eq_cons first
  have shorter := (h.readStatement v).left_resume_lt some_left
  apply List.ne_nil_of_length_pos
  simp only [List.length_take, Window.left] at shorter ⊢
  omega

/-- A sound statement takes its tokens and, if there is one, the semicolon behind them. -/
theorem SoundAs.exists_closing {s : Statement} {own following : List Token}
    (sound : SoundAs w s own following) :
    ∃ closing, w.ahead.take (w.left - (standard.readStatement w).resume.left) = own ++ closing ∧
      Ends (closing ++ (standard.readStatement w).resume.ahead)
        (standard.readStatement w).resume.ahead := by
  have ends := sound.ends_resume
  obtain ⟨closing, rfl⟩ := ends.suffix
  have ahead := sound.ahead
  rw [← List.append_assoc] at ahead
  exact ⟨closing, take_of_ahead_eq (standard.readStatement w).reaches_resume ahead, ends⟩

/-- What a sound statement takes is a segment of the text. -/
theorem standsBefore_of_ok {before after : List Segment} {segment : Segment} {s : Statement}
    (split : standard.readSegments w = before ++ segment :: after) (sound : segment.item = .ok s) :
    segment.StandsBefore w.final (after.flatMap Segment.tokens) := by
  obtain ⟨v, -, first⟩ := exists_reached_of_readSegments before split
  obtain ⟨some_left, rfl, rfl⟩ := exists_of_readSegments_eq_cons first
  rw [flatMap_tokens_readSegments]
  rcases readStatement_outcome some_left with
    ⟨t, own, following, outcome⟩ | ⟨gap, found, broken⟩
  · obtain ⟨closing, taken, ends⟩ := outcome.exists_closing
    rw [taken, outcome.result]
    exact .sound outcome.spelled outcome.grouped ends
  · rw [broken.result] at sound
    cases sound

/-- The first segment of what is read without a diagnostic is that of a statement. -/
theorem sound_of_readSegments_eq_cons {segment : Segment} {after : List Segment}
    (clean : diagnosticsOfItems (standard.readItems w).1 = [])
    (first : standard.readSegments w = segment :: after) :
    ∃ s own closing v, segment = ⟨own ++ closing, .ok s⟩ ∧ s.SpelledBy own ∧ s.value.Grouped ∧
      Ends (closing ++ v.ahead) v.ahead ∧ standard.readSegments v = after ∧
      diagnosticsOfItems (standard.readItems v).1 = [] ∧
      (Program.ofItems (standard.readItems w).1).statements =
        s :: (Program.ofItems (standard.readItems v).1).statements := by
  obtain ⟨some_left, rfl, rfl⟩ := exists_of_readSegments_eq_cons first
  rw [readItems_of_left some_left] at clean ⊢
  rcases readStatement_outcome some_left with
    ⟨s, own, following, sound⟩ | ⟨gap, found, broken⟩
  · rw [sound.result, diagnosticsOfItems_cons_ok] at clean
    obtain ⟨closing, taken, ends⟩ := sound.exists_closing
    rw [taken, sound.result]
    exact ⟨s, own, closing, _, rfl, sound.spelled, sound.grouped, ends, rfl, clean, rfl⟩
  · rw [broken.result, diagnosticsOfItems_cons_error] at clean
    cases clean

end Handlers

/-- All that can stand between a statement and the next one is a semicolon. -/
theorem Ends.closing_cases {closing rest : List Token} (ends : Ends (closing ++ rest) rest) :
    closing = [] ∨ ∃ semicolon : Token, closing = [semicolon] ∧ semicolon.kind = .semicolon := by
  generalize split : closing ++ rest = following at ends
  cases ends with
  | @closed semicolon _ kind =>
    exact .inr ⟨semicolon, List.append_cancel_right (split.trans List.singleton_append.symm), kind⟩
  | unclosed => exact .inl (List.append_left_eq_self.mp split)

/-- The tokens that reading takes for each statement of a text, and what became of it. -/
def segmentsOf (source : String) : List Segment := Handlers.standard.readSegments (.ofSource source)

theorem flatMap_tokens_segmentsOf (source : String) :
    (segmentsOf source).flatMap Segment.tokens = (tokenize source).dropLast := by
  rw [segmentsOf, Handlers.flatMap_tokens_readSegments, ahead_ofSource]

theorem statements_eq_filterMap_segmentsOf (source : String) :
    (parse source).1.statements =
      (segmentsOf source).filterMap fun segment => segment.item.statement? := by
  rw [parse_eq, Program.ofItems, itemsOf, ← Handlers.map_item_readSegments, List.filterMap_map]
  rfl

end Frontend
