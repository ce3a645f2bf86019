import Stencil.Proofs.Text.Units
import Stencil.Value.Compare

/-!
# The order of texts

The operators that compare put texts into a strict and total order, that of their UTF-16 units. It
is not the order of the characters, but texts with the same units are the same.

* `Text.before_trans`, `Text.before_trichotomy`, `Text.before_append`: the order of the units
* `CompareOp.Relates`: an operator holds between two texts
* `CompareOp.orders_texts`: the main statement
-/

namespace Stencil

/-! ## Units -/

namespace Text

variable {s t u : List Char}

theorem before_iff : before s t = true ↔ encode s < encode t :=
  decide_eq_true_iff

theorem before_irrefl (s : List Char) : ¬ before s s = true :=
  fun h => List.lt_irrefl _ (before_iff.1 h)

theorem before_trans (h : before s t = true) (h' : before t u = true) : before s u = true :=
  before_iff.2 (List.lt_trans (before_iff.1 h) (before_iff.1 h'))

theorem before_asymm (h : before s t = true) : ¬ before t s = true :=
  fun h' => before_irrefl s (before_trans h h')

/-- Of two texts with different units one comes before the other. -/
theorem before_trichotomy (s t : List Char) :
    before s t = true ∨ s = t ∨ before t s = true := by
  simp only [before_iff]
  rcases List.le_total (encode s) (encode t) with hle | hle
  · rcases List.le_iff_lt_or_eq.1 hle with hlt | heq
    · exact .inl hlt
    · exact .inr (.inl (encode_injective heq))
  · rcases List.le_iff_lt_or_eq.1 hle with hlt | heq
    · exact .inr (.inr hlt)
    · exact .inr (.inl (encode_injective heq.symm))

/-- A text comes before all that go on after it. -/
theorem before_append (s : List Char) (ht : t ≠ []) : before s (s ++ t) = true := by
  have happend := List.le_iff_lt_or_eq.1 (@List.le_append_left Nat _ _ (encode s) (encode t))
  rw [← encode_append] at happend
  rcases happend with hlt | heq
  · exact before_iff.2 hlt
  · exact absurd (List.self_eq_append_right.1 (encode_injective heq)) ht

end Text

/-! ## Operators -/

namespace CompareOp

/-- The operator holds between two texts. -/
def Relates (op : CompareOp) (s t : String) : Prop :=
  op.apply (.string s) (.string t) = true

variable {s t : String}

theorem lessThan?_string (s t : String) :
    (Value.string s).lessThan? (.string t) = some (Text.before s.toList t.toList) :=
  rfl

theorem lt_string (s t : String) :
    lt.apply (.string s) (.string t) = Text.before s.toList t.toList := by
  rw [apply, lessThan?_string]
  cases Text.before s.toList t.toList <;> rfl

theorem le_string (s t : String) :
    le.apply (.string s) (.string t) = !Text.before t.toList s.toList := by
  rw [apply, lessThan?_string]
  cases Text.before t.toList s.toList <;> rfl

theorem strictEq_string (s t : String) : strictEq.apply (.string s) (.string t) = (s == t) :=
  rfl

/-- Greater is less with the sides exchanged. -/
theorem gt_eq_lt (a b : Value) : gt.apply a b = lt.apply b a :=
  rfl

theorem relates_lt : lt.Relates s t ↔ Text.before s.toList t.toList = true := by
  rw [Relates, lt_string]

theorem relates_le : le.Relates s t ↔ ¬ Text.before t.toList s.toList = true := by
  rw [Relates, le_string, Bool.not_eq_true', Bool.not_eq_true]

theorem relates_strictEq : strictEq.Relates s t ↔ s = t := by
  rw [Relates, strictEq_string, beq_iff_eq]

/-- A text is less than another one, or the same, or greater, and only one of these. -/
theorem count_relations (s t : String) :
    ([lt, strictEq, gt].map fun op => op.apply (.string s) (.string t)).count true = 1 := by
  rw [List.map_cons, List.map_cons, List.map_singleton, gt_eq_lt, lt_string, lt_string,
    strictEq_string]
  rcases Text.before_trichotomy s.toList t.toList with h | h | h
  · have hne : s ≠ t := by
      rintro rfl
      exact Text.before_irrefl _ h
    rw [h, beq_false_of_ne hne, Bool.eq_false_iff.2 (Text.before_asymm h)]
    rfl
  · obtain rfl := String.toList_inj.1 h
    rw [beq_self_eq_true, Bool.eq_false_iff.2 (Text.before_irrefl _)]
    rfl
  · have hne : s ≠ t := by
      rintro rfl
      exact Text.before_irrefl _ h
    rw [h, beq_false_of_ne hne, Bool.eq_false_iff.2 (Text.before_asymm h)]
    rfl

/-- **The operators put texts into a strict and total order.** Of two texts one is less, or they are
the same one, or one is greater, and only one of these holds. What is less than a lesser text is
less. A text is at most another one if it is less or the same, and at least another one if that one
is at most this one. A text that goes on is greater than the beginning. -/
theorem orders_texts (a b c : String) :
    ([lt, strictEq, gt].map fun op => op.apply (.string a) (.string b)).count true = 1 ∧
    (lt.Relates a b → lt.Relates b c → lt.Relates a c) ∧
    (le.Relates a b ↔ lt.Relates a b ∨ strictEq.Relates a b) ∧
    (ge.Relates a b ↔ le.Relates b a) ∧
    ∀ rest, rest ≠ "" → ¬ gt.Relates a (a ++ rest) ∧ ¬ ge.Relates a (a ++ rest) := by
  refine ⟨count_relations a b, fun h h' => ?trans, ?le, Iff.rfl, fun rest hrest => ?append⟩
  case trans =>
    rw [relates_lt] at h h' ⊢
    exact Text.before_trans h h'
  case le =>
    rw [relates_le, relates_lt, relates_strictEq]
    constructor
    · intro h
      rcases Text.before_trichotomy a.toList b.toList with hlt | heq | hgt
      · exact .inl hlt
      · exact .inr (String.toList_inj.1 heq)
      · exact absurd hgt h
    · rintro (hlt | rfl)
      · exact Text.before_asymm hlt
      · exact Text.before_irrefl _
  case append =>
    have hlt : Text.before a.toList (a ++ rest).toList = true := by
      rw [String.toList_append]
      exact Text.before_append _ (mt String.toList_eq_nil_iff.1 hrest)
    refine ⟨fun h => ?_, fun h => relates_le.1 h hlt⟩
    exact Text.before_asymm hlt (relates_lt.1 h)

/-- A character beyond the basic plane comes before one at its end, although its number is greater:
its first unit is a surrogate. -/
theorem orders_texts_astral :
    lt.Relates "😀" "\uFF5E" ∧ lt.Relates "\uFF5E" "\uFF5Ea" ∧ lt.Relates "😀" "\uFF5Ea" ∧
      ¬ ge.Relates "\uFF5E" ("\uFF5E" ++ "a") := by
  have hfirst : lt.Relates "😀" "\uFF5E" := relates_lt.2 (by decide)
  have hsecond : lt.Relates "\uFF5E" "\uFF5Ea" := relates_lt.2 (by decide)
  obtain ⟨-, htrans, -, -, -⟩ := orders_texts "😀" "\uFF5E" "\uFF5Ea"
  obtain ⟨-, -, -, -, happend⟩ := orders_texts "\uFF5E" "\uFF5E" "\uFF5E"
  exact ⟨hfirst, hsecond, htrans hfirst hsecond, (happend "a" (by decide)).2⟩

end CompareOp

end Stencil
