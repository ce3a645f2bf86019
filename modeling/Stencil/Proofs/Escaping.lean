import Stencil.Run.Eval

/-!
# Texts without markup

What the escaper writes holds no markup, and neither do the texts of most values. Only arrays and
functions may bring markup in by themselves.

* `Html.Plain`, `Html.Inert`: a text without special characters, and one without markup
* `Html.escape_inert`: the escaper writes no markup
* `Number.write_plain`: neither do numbers
* `Value.written`, `Value.written_inert`: what is written for a value, and for which values it holds
  no markup
-/

namespace Stencil

namespace Html

/-! ## Plain texts -/

/-- A text without special characters. -/
def Plain (s : List Char) : Prop :=
  ∀ c ∈ s, isSpecial c = false

instance (s : List Char) : Decidable (Plain s) :=
  decidable_of_iff (s.all fun c => !isSpecial c) <| by
    simp only [List.all_eq_true, Bool.not_eq_true', Plain]

theorem Plain.cons {c : Char} {s : List Char} (hc : isSpecial c = false) (hs : Plain s) :
    Plain (c :: s) :=
  List.forall_mem_cons.2 ⟨hc, hs⟩

theorem Plain.append {s t : List Char} (hs : Plain s) (ht : Plain t) : Plain (s ++ t) :=
  List.forall_mem_append.2 ⟨hs, ht⟩

theorem Plain.of_subset {s t : List Char} (ht : Plain t) (h : s ⊆ t) : Plain s :=
  fun c hc => ht c (h hc)

/-! ## Inert texts -/

/-- The references to the special characters. -/
def references : List (List Char) :=
  ["&#34;".toList, "&#38;".toList, "&#39;".toList, "&#60;".toList, "&#62;".toList]

/-- A text without markup: there is no angle bracket and no quote in it, and every ampersand begins
a reference to a special character. -/
structure Inert (s : List Char) : Prop where
  bare : ∀ c ∈ s, c ∉ ['<', '>', '"', '\'']
  referenced : ∀ after, '&' :: after <:+ s → ∃ r ∈ references, r <+: '&' :: after

theorem Inert.append {s t : List Char} (hs : Inert s) (ht : Inert t) : Inert (s ++ t) where
  bare := List.forall_mem_append.2 ⟨hs.bare, ht.bare⟩
  referenced := by
    rintro after ⟨before, h⟩
    -- the ampersand is in the first text, or it begins the second one, or it is further on
    rcases List.append_eq_append_iff.1 h with ⟨rest, rfl, hrest⟩ | ⟨rest, rfl, rfl⟩
    · cases rest with
      | nil => exact ht.referenced after ⟨[], hrest⟩
      | cons c rest =>
        obtain ⟨rfl, rfl⟩ := List.cons.inj hrest
        obtain ⟨r, hr, hprefix⟩ := hs.referenced rest ⟨before, rfl⟩
        exact ⟨r, hr, hprefix.trans (List.prefix_append _ t)⟩
    · exact ht.referenced after ⟨rest, rfl⟩

theorem Plain.inert {s : List Char} (h : Plain s) : Inert s where
  bare := by
    intro c hc hspecial
    have hplain := h c hc
    simp only [List.mem_cons, List.not_mem_nil, or_false] at hspecial
    rcases hspecial with rfl | rfl | rfl | rfl <;> cases hplain
  referenced after hsuffix := nomatch h '&' (hsuffix.mem (List.mem_cons_self ..))

/-- A reference is inert. -/
theorem Inert.of_reference {rest : List Char} (hmem : '&' :: rest ∈ references) (h : Plain rest) :
    Inert ('&' :: rest) where
  bare := List.forall_mem_cons.2 ⟨by decide, h.inert.bare⟩
  referenced after hsuffix := by
    rcases List.suffix_cons_iff.1 hsuffix with heq | hrest
    · exact ⟨_, hmem, heq ▸ List.prefix_refl _⟩
    · exact h.inert.referenced after hrest

/-! ## The escaper -/

theorem escapeChar_inert (c : Char) : Inert (escapeChar c) := by
  cases hspecial : isSpecial c with
  | false =>
    rw [escapeChar, hspecial]
    exact (Plain.cons hspecial (by decide)).inert
  | true =>
    simp only [isSpecial, Bool.or_eq_true, beq_iff_eq] at hspecial
    rcases hspecial with (((rfl | rfl) | rfl) | rfl) | rfl <;>
      exact .of_reference (by decide) (by decide)

/-- The escaper writes no markup. -/
theorem escape_inert (s : List Char) : Inert (escape s) := by
  induction s with
  | nil => exact Plain.inert (by decide)
  | cons c rest ih => exact (escapeChar_inert c).append ih

end Html

/-! ## Numbers -/

namespace Number

open Html (isSpecial Plain)

theorem isSpecial_of_isDigit {c : Char} (h : c.isDigit = true) : isSpecial c = false := by
  cases hspecial : isSpecial c with
  | false => rfl
  | true =>
    simp only [isSpecial, Bool.or_eq_true, beq_iff_eq] at hspecial
    rcases hspecial with (((rfl | rfl) | rfl) | rfl) | rfl <;> cases h

theorem toDigits_plain (n : Nat) : Plain (Nat.toDigits 10 n) :=
  fun _ hc => isSpecial_of_isDigit (Nat.isDigit_of_mem_toDigits (by decide) (by decide) hc)

theorem zeros_plain (count : Nat) : Plain (List.replicate count '0') :=
  fun _ hc => List.eq_of_mem_replicate hc ▸ rfl

theorem dropTrailingZeros_plain {digits : List Char} (h : Plain digits) :
    Plain (dropTrailingZeros digits) := by
  intro c hc
  have hreverse := (List.dropWhile_sublist _).mem (List.mem_reverse.1 hc)
  exact h c (List.mem_reverse.1 hreverse)

theorem positional_plain {d : Digits} (h : Plain d.digits) : Plain (positional d) := by
  unfold positional
  split
  · exact (Plain.cons rfl (.cons rfl (zeros_plain _))).append h
  · split
    · exact h.append (zeros_plain _)
    · exact (h.of_subset (List.take_subset _ _)).append
        (.cons rfl (h.of_subset (List.drop_subset _ _)))

theorem scientific_plain {d : Digits} (h : Plain d.digits) : Plain (scientific plain d) := by
  obtain ⟨digits, point⟩ := d
  refine .append (.append ?mantissa (.cons rfl ?sign)) (toDigits_plain _)
  case mantissa =>
    cases digits with
    | nil => exact h
    | cons c rest =>
      obtain ⟨hc, hrest⟩ := List.forall_mem_cons.1 h
      cases rest with
      | nil => exact h
      | cons c' rest => exact .cons hc (.cons rfl hrest)
  case sign => split <;> decide

/-- There is no special character in the text of a number. -/
theorem write_plain (x : Float) : Plain (plain.write x) := by
  have hsign : ∀ negative : Bool, Plain (if negative then ['-'] else []) := by decide
  have hdigits : ∀ m e, Plain (shortest m e).digits :=
    fun _ _ => dropTrailingZeros_plain (toDigits_plain _)
  unfold Layout.write
  split
  · decide
  · exact (hsign _).append (by decide)
  · split
    · decide
    · refine (hsign _).append ?_
      split
      · exact positional_plain (hdigits _ _)
      · exact scientific_plain (hdigits _ _)

end Number

/-! ## Values -/

namespace Value

/-- Nothing, truth values, numbers, texts and objects: all values but arrays and functions. -/
def Escapable (v : Value) : Prop :=
  v.kind ∈ [Kind.undefined, .null, .bool, .number, .string, .object]

instance (v : Value) : Decidable v.Escapable :=
  inferInstanceAs (Decidable (_ ∈ _))

/-- What is written for a value: nothing for nothing, and the escaped text for a text. -/
def written (v : Value) : String :=
  if v.isNullish then "" else (escapeValue v).text

/-- Only arrays and functions may be written with markup in them. -/
theorem written_inert {v : Value} (h : v.Escapable) : Html.Inert v.written.toList := by
  have htext : ∀ {v' : Value}, Html.Inert v'.chars → Html.Inert v'.text.toList :=
    fun hinert => String.toList_ofList.symm ▸ hinert
  cases v with
  | undefined => exact Html.Plain.inert (by decide)
  | null => exact Html.Plain.inert (by decide)
  | bool b => cases b <;> exact htext (Html.Plain.inert (by decide))
  | number x => exact htext (Number.write_plain x).inert
  | string s =>
    refine htext ?_
    show Html.Inert (Html.escapeString s).toList
    rw [Html.escapeString, String.toList_ofList]
    exact Html.escape_inert s.toList
  | object _ _ =>
    have hplain : Html.Plain "[object Object]".toList := by decide
    exact htext hplain.inert
  | array _ _ => exact absurd (show Kind.array ∈ _ from h) (by decide)
  | function _ => exact absurd (show Kind.function ∈ _ from h) (by decide)

end Value

end Stencil
