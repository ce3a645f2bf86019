import Mathlib.Data.List.TakeDrop
import Mathlib.Logic.Function.Defs
import Stencil.Proofs.Escaping

/-!
# Reading references back

Escaping loses nothing: replacing the references in an escaped text by their characters, from left
to right, gives the text back, also if the text itself looks like an escaped one.

* `Html.unescape`: the references replaced by their characters
* `Html.escapeFromFirst`: escaping with the text before the first special character copied
* `Html.unescape_escape`, `Html.escape_eq_self_iff`, `Html.escapeFromFirst_eq`: the laws
* `Html.escapeString_lossless`: the main statement
-/

namespace Stencil.Html

/-! ## Replacing references -/

/-- The text with the references to the five special characters replaced by them, from left to
right. All other text stays, and what came from a reference is not looked at again. -/
def unescape : List Char → List Char
  | '&' :: '#' :: '3' :: '4' :: ';' :: rest => '"' :: unescape rest
  | '&' :: '#' :: '3' :: '8' :: ';' :: rest => '&' :: unescape rest
  | '&' :: '#' :: '3' :: '9' :: ';' :: rest => '\'' :: unescape rest
  | '&' :: '#' :: '6' :: '0' :: ';' :: rest => '<' :: unescape rest
  | '&' :: '#' :: '6' :: '2' :: ';' :: rest => '>' :: unescape rest
  | c :: rest => c :: unescape rest
  | [] => []

/-- The string with the references to the special characters replaced. -/
def unescapeString (s : String) : String :=
  String.ofList (unescape s.toList)

theorem isSpecial_iff {c : Char} : isSpecial c = true ↔ c ∈ ['"', '&', '\'', '<', '>'] := by
  simp [isSpecial, or_assoc]

/-- Only an ampersand begins a reference. -/
theorem unescape_cons {c : Char} (h : c ≠ '&') (rest : List Char) :
    unescape (c :: rest) = c :: unescape rest := by
  conv =>
    lhs
    unfold unescape
  split <;> simp_all

theorem unescape_reference {c : Char} (h : isSpecial c = true) (rest : List Char) :
    unescape (reference c ++ rest) = c :: unescape rest := by
  simp only [isSpecial_iff, List.mem_cons, List.not_mem_nil, or_false] at h
  rcases h with rfl | rfl | rfl | rfl | rfl <;> rfl

/-- **What is escaped can be read back.** No reference arises from the text around it, because every
ampersand of the text is written as a reference itself. -/
theorem unescape_escape (s : List Char) : unescape (escape s) = s := by
  induction s with
  | nil => rfl
  | cons c s ih =>
    rw [escape] at ih
    rw [escape, List.flatMap_cons, escapeChar]
    cases hc : isSpecial c with
    | true => rw [if_pos rfl, unescape_reference hc, ih]
    | false =>
      have hne : c ≠ '&' := by
        rintro rfl
        cases hc
      rw [if_neg Bool.false_ne_true, List.singleton_append, unescape_cons hne, ih]

/-! ## Texts that stay as they are -/

theorem escape_append (s t : List Char) : escape (s ++ t) = escape s ++ escape t :=
  List.flatMap_append

theorem Plain.escape_eq {s : List Char} (h : Plain s) : escape s = s := by
  induction s with
  | nil => rfl
  | cons c s ih =>
    obtain ⟨hc, hs⟩ := List.forall_mem_cons.1 h
    have htail := ih hs
    rw [escape] at htail
    simp [escape, escapeChar, hc, htail]

theorem length_escapeChar (c : Char) :
    1 ≤ (escapeChar c).length ∧ (isSpecial c = true → 1 < (escapeChar c).length) := by
  unfold escapeChar reference
  split
  · simp
  · simp_all

theorem length_le_escape (s : List Char) : s.length ≤ (escape s).length := by
  induction s with
  | nil => exact Nat.le_refl 0
  | cons c s ih =>
    rw [escape] at ih
    have hc := (length_escapeChar c).1
    simp only [escape, List.flatMap_cons, List.length_append, List.length_cons]
    omega

/-- A reference is longer than its character, so nothing else can make up for it. -/
theorem escape_eq_self_iff {s : List Char} : escape s = s ↔ Plain s := by
  refine ⟨fun h => ?_, Plain.escape_eq⟩
  intro c hmem
  refine Bool.eq_false_iff.2 fun hc => ?_
  obtain ⟨before, after, rfl⟩ := List.append_of_mem hmem
  have hlength := congrArg List.length h
  have hbefore := length_le_escape before
  have hafter := length_le_escape after
  have hspecial := (length_escapeChar c).2 hc
  have hcons : escape (c :: after) = escapeChar c ++ escape after := List.flatMap_cons
  simp only [escape_append, hcons, List.length_append, List.length_cons] at hlength
  omega

/-! ## Escaping in one pass -/

/-- The number in a reference. A space would be shown as one that does not break. -/
def referenceCode (c : Char) : Nat :=
  if c = ' ' then 0xA0 else c.toNat

/-- Escaping in one pass: a text without special characters is left as it is, and otherwise the text
before the first one is copied and everything from there on is written character by character. -/
def escapeFromFirst (s : List Char) : List Char :=
  match s.span fun c => !isSpecial c with
  | (_, []) => s
  | (before, after) =>
    before ++ after.flatMap fun c =>
      if isSpecial c then '&' :: '#' :: Nat.toDigits 10 (referenceCode c) ++ [';'] else [c]

/-- A space is never referred to. -/
theorem referenceCode_of_isSpecial {c : Char} (h : isSpecial c = true) :
    referenceCode c = c.toNat := by
  refine if_neg ?_
  rintro rfl
  cases h

theorem span_isSpecial (s : List Char) :
    ∃ before after, s.span (fun c => !isSpecial c) = (before, after) ∧ s = before ++ after ∧
      Plain before := by
  refine ⟨_, _, List.span_eq_takeWhile_dropWhile _ s, List.takeWhile_append_dropWhile.symm, ?_⟩
  intro c hc
  simpa using List.all_eq_true.1 List.all_takeWhile c hc

/-- Wherever the special characters stand, one pass gives the same text. -/
theorem escapeFromFirst_eq (s : List Char) : escapeFromFirst s = escape s := by
  obtain ⟨before, after, hspan, rfl, hbefore⟩ := span_isSpecial s
  have hchar : (fun c => if isSpecial c then
      '&' :: '#' :: Nat.toDigits 10 (referenceCode c) ++ [';'] else [c]) = escapeChar := by
    funext c
    unfold escapeChar
    split
    · rename_i hc
      rw [referenceCode_of_isSpecial hc, reference]
    · rfl
  rw [escapeFromFirst, hspan, escape_append, hbefore.escape_eq]
  cases after with
  | nil => rfl
  | cons c after =>
    rw [hchar]
    rfl

/-! ## Strings -/

theorem unescapeString_escapeString (s : String) : unescapeString (escapeString s) = s := by
  rw [unescapeString, escapeString, String.toList_ofList, unescape_escape, String.ofList_toList]

theorem escapeString_append (s t : String) :
    escapeString (s ++ t) = escapeString s ++ escapeString t := by
  rw [escapeString, String.toList_append, escape_append, String.ofList_append]
  rfl

/-- **Escaping is safe, lossless and piecewise.** There is no markup in an escaped text: no angle
bracket, no quote, and no ampersand that does not begin a reference to a special character.
Replacing these references from left to right gives the text back, so no two texts are escaped
alike. Texts are escaped piece by piece, in one pass as well, and the ones that stay as they are
are those without special characters. -/
theorem escapeString_lossless :
    (∀ s : String,
      Inert (escapeString s).toList ∧
      unescapeString (escapeString s) = s ∧
      escapeString s = String.ofList (escapeFromFirst s.toList) ∧
      (escapeString s = s ↔ Plain s.toList)) ∧
    Function.Injective escapeString ∧
    ∀ s t : String, escapeString (s ++ t) = escapeString s ++ escapeString t := by
  refine ⟨fun s => ⟨?inert, unescapeString_escapeString s, ?pass, ?fixed⟩, ?injective,
    escapeString_append⟩
  case inert =>
    rw [escapeString, String.toList_ofList]
    exact escape_inert s.toList
  case pass => rw [escapeFromFirst_eq, escapeString]
  case fixed => rw [← String.toList_inj, escapeString, String.toList_ofList, escape_eq_self_iff]
  case injective => exact Function.LeftInverse.injective unescapeString_escapeString

/-- A text that looks escaped is escaped once more, and read back once. -/
example : escapeString "&#60;<" = "&#38;#60;&#60;" := by
  rfl

end Stencil.Html
