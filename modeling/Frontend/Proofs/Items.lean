import Frontend.Parser
import Frontend.Proofs.StatementOutcome

/-!
# The items of a text

Equations for reading a program statement by statement, and what a parse is in terms of the items
that come out of it.
-/
namespace Frontend

namespace Reading

variable {w : Window} {r : Reading w Statement}

theorem resume_of_ok {s : Statement} (read : r.result = .ok s) : r.resume = r.window.advance := by
  rw [resume, read]

theorem resume_of_error {d : Diagnostic} (failed : r.result = .error d) :
    r.resume = r.window.recover w.current.position := by
  rw [resume, failed]

theorem reaches_resume (r : Reading w Statement) : w.Reaches r.resume := by
  rw [resume]
  split
  · exact r.reached.trans r.window.reaches_advance
  · exact r.reached.trans (Window.reaches_recover _ r.window)

end Reading

namespace Handlers

variable {h : Handlers} {w : Window}

theorem readItems_of_left (some_left : 0 < w.left) :
    (h.readItems w).1 =
      (h.readStatement w).result :: (h.readItems (h.readStatement w).resume).1 := by
  rw [readItems, dif_pos some_left]

theorem readItems_of_ahead_nil (empty : w.ahead = []) : (h.readItems w).1 = [] := by
  rw [readItems, dif_neg (by simp [Window.left, empty])]

/-- Statements are read up to the end of the text. -/
theorem ahead_readItems (w : Window) : (h.readItems w).2.ahead = [] := by
  induction w using readItems.induct h with
  | case1 w some_left r _ ih =>
    rw [readItems, dif_pos some_left]
    exact ih
  | case2 w none_left =>
    rw [readItems, dif_neg none_left]
    exact List.length_eq_zero_iff.mp (Nat.eq_zero_of_not_pos none_left)

theorem reaches_readItems (w : Window) : w.Reaches (h.readItems w).2 := by
  induction w using readItems.induct h with
  | case1 w some_left r _ ih =>
    rw [readItems, dif_pos some_left]
    exact r.reaches_resume.trans ih
  | case2 w none_left =>
    rw [readItems, dif_neg none_left]
    exact .refl w

/-- Behind a sound statement, reading goes on where that ends. -/
theorem SoundAs.ends_resume {s : Statement} {own following : List Token}
    (sound : SoundAs w s own following) :
    Ends following (standard.readStatement w).resume.ahead := by
  rw [Reading.resume_of_ok sound.result]
  exact sound.ends

theorem exists_of_mem_readItems {item : Item} (member : item ∈ (h.readItems w).1) :
    ∃ v, w.Reaches v ∧ 0 < v.left ∧ item = (h.readStatement v).result := by
  induction w using readItems.induct h with
  | case1 w some_left r _ ih =>
    rw [readItems_of_left some_left] at member
    rcases List.mem_cons.mp member with first | later
    · exact ⟨w, .refl w, some_left, first⟩
    · obtain ⟨v, reached, remains, same⟩ := ih later
      exact ⟨v, r.reaches_resume.trans reached, remains, same⟩
  | case2 w none_left =>
    rw [readItems, dif_neg none_left] at member
    cases member

end Handlers

/-- What became of the statements of a source text. -/
def itemsOf (source : String) : List Item :=
  (Handlers.standard.readItems (.ofSource source)).1

theorem parse_eq (source : String) :
    parse source = (.ofItems (itemsOf source), diagnosticsOfItems (itemsOf source)) := rfl

theorem mem_statements_iff (source : String) (s : Statement) :
    s ∈ (parse source).1.statements ↔ .ok s ∈ itemsOf source := by
  rw [parse_eq, Program.ofItems, List.mem_filterMap]
  constructor
  · rintro ⟨item, member, same⟩
    cases item with
    | ok t => cases same; exact member
    | error d => cases same
  · exact fun member => ⟨.ok s, member, rfl⟩

/-- A statement of the program is spelled by tokens that stand in the text one after the other. -/
theorem exists_spelledBy_of_mem {source : String} {s : Statement}
    (member : s ∈ (parse source).1.statements) :
    ∃ own, own <:+: (Window.ofSource source).ahead ∧ s.SpelledBy own ∧ s.value.Grouped := by
  rw [mem_statements_iff] at member
  obtain ⟨v, ⟨behind, -⟩, some_left, read⟩ := Handlers.exists_of_mem_readItems member
  rcases Handlers.readStatement_outcome some_left with
    ⟨t, own, following, sound⟩ | ⟨gap, found, broken⟩
  · obtain rfl : s = t := Except.ok.inj (read.trans sound.result)
    have inFront : own <+: v.ahead := ⟨following, sound.ahead.symm⟩
    exact ⟨own, inFront.isInfix.trans behind.isInfix, sound.spelled, sound.grouped⟩
  · rw [broken.result] at read
    cases read

theorem tokenize_eq (source : String) :
    tokenize source = (Window.ofSource source).ahead ++ [(Window.ofSource source).final] := by
  rw [tokenize, Window.final, Window.ofSource, Window.ofText, Nat.zero_add]

theorem ahead_ofSource (source : String) :
    (Window.ofSource source).ahead = (tokenize source).dropLast := by
  rw [tokenize_eq, List.dropLast_concat]

@[simp] theorem diagnosticsOfItems_cons_ok (s : Statement) (items : List Item) :
    diagnosticsOfItems (.ok s :: items) = diagnosticsOfItems items := rfl

@[simp] theorem diagnosticsOfItems_cons_error (d : Diagnostic) (items : List Item) :
    diagnosticsOfItems (.error d :: items) = d :: diagnosticsOfItems items := rfl

theorem statements_append (items others : List Item) :
    (Program.ofItems (items ++ others)).statements =
      (Program.ofItems items).statements ++ (Program.ofItems others).statements :=
  List.filterMap_append

theorem diagnosticsOfItems_append (items others : List Item) :
    diagnosticsOfItems (items ++ others) = diagnosticsOfItems items ++ diagnosticsOfItems others :=
  List.filterMap_append

end Frontend
