import Stencil.Proofs.Lexing.Longest
import Stencil.Proofs.Lexing.Numerals

/-!
# Shapes of numerals

A numeral is the longest beginning of a text that has the shape of one: digits with underscores
among them, a fraction and an exponent, or a zero, the letter of a base and digits. What has this
shape need not stand for a number. The automaton that reads numerals takes just these characters.

* `Shape`, `IsNumeral`: the shape of a numeral, and how it starts
* `State.Passes`, `State.Takes`: the automaton as a relation
* `takes_whole`, `shape_of_takes`, `takes_based_iff`: what it takes has the shape of a numeral
* `Starts.isLongest`: the longest numeral is read
-/

namespace Stencil

open Stencil.Number Stencil.Text

/-! ## Shapes -/

namespace Numeral

/-- Decimal digits, with underscores anywhere among them. -/
def IsDigits (s : List Char) : Prop :=
  ∀ c ∈ s, c.isDigit = true ∨ c = '_'

/-- What is taken for digits in a base: decimal digits and underscores, and in base sixteen the
letters that are digits. -/
def IsBasedDigits (base : Nat) (s : List Char) : Prop :=
  ∀ c ∈ s, c.isDigit = true ∨ c = '_' ∨ base = 16 ∧ ∃ d, IsDigitIn 16 c d

/-- What may stand behind the whole part: nothing, or a point and digits. -/
inductive IsFraction : List Char → Prop
  | absent : IsFraction []
  | present {digits : List Char} : IsDigits digits → IsFraction ('.' :: digits)

/-- What may stand at the end: nothing, or a letter, an optional sign and digits, as far as they
are there. Underscores may stand before the sign, too. -/
inductive IsExponent : List Char → Prop
  | absent : IsExponent []
  | present {letter : Char} {underscores sign digits : List Char} :
      letter ∈ ['e', 'E'] → (∀ c ∈ underscores, c = '_') → sign ∈ signs → IsDigits digits →
      IsExponent (letter :: (underscores ++ (sign ++ digits)))

/-- What is taken for a numeral, even if no number is written that way. -/
inductive Shape : List Char → Prop
  | decimal {digits fraction exponent : List Char} :
      IsDigits digits → IsFraction fraction → IsExponent exponent →
      Shape (digits ++ (fraction ++ exponent))
  | based {letter : Char} {base : Nat} {digits : List Char} :
      (letter, base) ∈ baseLetters → IsBasedDigits base digits → Shape ('0' :: letter :: digits)

/-! ## Single characters -/

/-- The character takes a numeral from one state to the other. -/
inductive State.Passes : State → Char → State → Prop
  | digit {state : State} {c : Char} : c.isDigit = true → state ≠ .exponent → Passes state c state
  | underscore {state : State} : Passes state '_' state
  | letterDigit {c : Char} {d : Nat} : IsDigitIn 16 c d → Passes (.based true) c (.based true)
  | point : Passes .whole '.' .fraction
  | letter {state : State} {c : Char} :
      state = .whole ∨ state = .fraction → c ∈ ['e', 'E'] → Passes state c .exponent
  | sign {c : Char} : c ∈ ['+', '-'] → Passes .exponent c .power
  | power {c : Char} : c.isDigit = true → Passes .exponent c .power

theorem next?_eq_some_iff {state state' : State} {c : Char} :
    state.next? c = some state' ↔ state.Passes c state' := by
  constructor
  · intro h
    unfold State.next? at h
    split at h
    · rename_i hdigit
      split at h
      · rename_i hexponent
        cases h
        exact hexponent ▸ .power hdigit
      · rename_i hexponent
        cases h
        exact .digit hdigit hexponent
    split at h
    · rename_i hunderscore
      cases h
      exact hunderscore ▸ .underscore
    cases state with
    | based hex =>
      dsimp only at h
      split at h
      · rename_i hvalue
        cases h
        obtain ⟨rfl, hvalue⟩ := Bool.and_eq_true_iff.1 hvalue
        obtain ⟨d, hd⟩ := Option.isSome_iff_exists.1 hvalue
        exact .letterDigit ((digitValue?_eq_some_iff (Nat.le_refl 16)).1 hd)
      · cases h
    | whole =>
      dsimp only at h
      split at h
      · rename_i hpoint
        cases h
        exact hpoint ▸ .point
      · split at h
        · rename_i hletter
          cases h
          exact .letter (.inl rfl) (by simpa using hletter)
        · cases h
    | fraction =>
      dsimp only at h
      split at h
      · rename_i hletter
        cases h
        exact .letter (.inr rfl) (by simpa using hletter)
      · cases h
    | exponent =>
      dsimp only at h
      split at h
      · rename_i hsign
        cases h
        exact .sign (by simpa using hsign)
      · cases h
    | power => cases h
  · intro h
    cases h with
    | digit hdigit hexponent =>
      have hdigit : isDigit c = true := hdigit
      simp [State.next?, hdigit, hexponent]
    | underscore => simp [State.next?, isDigit]
    | letterDigit hd =>
      have hvalue := (digitValue?_eq_some_iff (Nat.le_refl 16)).2 hd
      simp [State.next?, hvalue]
    | point => rfl
    | letter hstate hletter =>
      simp only [List.mem_cons, List.not_mem_nil, or_false] at hletter
      rcases hstate with rfl | rfl <;> rcases hletter with rfl | rfl <;> rfl
    | sign hsign =>
      simp only [List.mem_cons, List.not_mem_nil, or_false] at hsign
      rcases hsign with rfl | rfl <;> rfl
    | power hdigit =>
      have hdigit : isDigit c = true := hdigit
      simp [State.next?, hdigit]

/-! ## Characters in a row -/

/-- The characters take a numeral on from the state, one after the other. -/
inductive State.Takes : State → List Char → Prop
  | nil {state : State} : Takes state []
  | cons {state state' : State} {c : Char} {rest : List Char} :
      state.Passes c state' → Takes state' rest → Takes state (c :: rest)

variable {state : State} {word after s : List Char}

theorem takes_extent (state : State) (s : List Char) : state.Takes (extent state s).1 := by
  induction s generalizing state with
  | nil => exact .nil
  | cons c s ih =>
    rw [extent]
    split
    · rename_i state' hnext
      exact .cons (next?_eq_some_iff.1 hnext) (ih state')
    · exact .nil

/-- A numeral goes on as far as characters take it. -/
theorem State.Takes.extent_append (h : state.Takes word) (after : List Char) :
    ∃ more, (extent state (word ++ after)).1 = word ++ more := by
  induction h with
  | nil => exact ⟨_, rfl⟩
  | cons hpass _ ih =>
    obtain ⟨more, hmore⟩ := ih
    refine ⟨more, ?_⟩
    rw [List.cons_append, extent, next?_eq_some_iff.2 hpass]
    simp only [hmore, List.cons_append]

/-- The characters of a numeral are a numeral when nothing follows them. -/
theorem State.Takes.extent_eq (h : state.Takes word) : extent state word = (word, []) := by
  obtain ⟨more, hmore⟩ := h.extent_append []
  have hall := Numeral.extent_append state word
  rw [List.append_nil] at hmore
  rw [hmore, List.append_assoc, List.append_right_eq_self, List.append_eq_nil_iff] at hall
  rw [hall.1, List.append_nil] at hmore
  exact Prod.ext hmore hall.2

theorem State.Takes.append {front : List Char} (hfront : ∀ c ∈ front, state.Passes c state)
    (h : state.Takes word) : state.Takes (front ++ word) := by
  induction front with
  | nil => exact h
  | cons c front ih =>
    obtain ⟨hc, hfront⟩ := List.forall_mem_cons.1 hfront
    exact .cons hc (ih hfront)

theorem IsDigits.passes (h : IsDigits s) (hstate : state ≠ .exponent) :
    ∀ c ∈ s, state.Passes c state := by
  intro c hc
  rcases h c hc with hdigit | rfl
  · exact .digit hdigit hstate
  · exact .underscore

theorem IsDigits.takes (h : IsDigits s) (hstate : state ≠ .exponent) : state.Takes s := by
  rw [← List.append_nil s]
  exact .append (h.passes hstate) .nil

theorem IsExponent.takes (h : IsExponent s) (hstate : state = .whole ∨ state = .fraction) :
    state.Takes s := by
  cases h with
  | absent => exact .nil
  | @present letter underscores sign digits hletter hunderscores hsign hdigits =>
    refine .cons (.letter hstate hletter) (.append (fun c hc => hunderscores c hc ▸ .underscore) ?_)
    simp only [signs, List.mem_cons, List.not_mem_nil, or_false] at hsign
    rcases hsign with rfl | rfl | rfl
    · -- without a sign the first character that is no underscore is a digit
      induction digits with
      | nil => exact .nil
      | cons c digits ih =>
        obtain ⟨hc, hrest⟩ := List.forall_mem_cons.1 hdigits
        rcases hc with hc | rfl
        · exact .cons (.power hc) (IsDigits.takes hrest (by decide))
        · exact .cons .underscore (ih hrest)
    · exact .cons (.sign (by decide)) (hdigits.takes (by decide))
    · exact .cons (.sign (by decide)) (hdigits.takes (by decide))

theorem takes_whole {digits fraction exponent : List Char} (hdigits : IsDigits digits)
    (hfraction : IsFraction fraction) (hexponent : IsExponent exponent) :
    State.whole.Takes (digits ++ (fraction ++ exponent)) := by
  refine .append (hdigits.passes (by decide)) ?_
  cases hfraction with
  | absent => exact hexponent.takes (.inl rfl)
  | present hfraction =>
    exact .cons .point (.append (hfraction.passes (by decide)) (hexponent.takes (.inr rfl)))

theorem isDigits_cons {c : Char} (hc : c.isDigit = true ∨ c = '_') (h : IsDigits s) :
    IsDigits (c :: s) :=
  List.forall_mem_cons.2 ⟨hc, h⟩

theorem isDigits_nil : IsDigits [] :=
  fun _ hc => absurd hc List.not_mem_nil

/-- Where every character leaves the state as it is, just these characters are taken. -/
theorem takes_iff_of_fixed (hfixed : ∀ c state', state.Passes c state' → state' = state) :
    state.Takes s ↔ ∀ c ∈ s, state.Passes c state := by
  constructor
  · intro h
    induction s with
    | nil => exact fun c hc => absurd hc List.not_mem_nil
    | cons c s ih =>
      cases h with
      | cons hpass hrest =>
        obtain rfl := hfixed c _ hpass
        exact List.forall_mem_cons.2 ⟨hpass, ih hrest⟩
  · intro h
    rw [← List.append_nil s]
    exact .append h .nil

theorem isDigits_of_takes (h : State.power.Takes s) : IsDigits s := by
  have hcases {c : Char} {state' : State} (hpass : State.power.Passes c state') :
      state' = .power ∧ (c.isDigit = true ∨ c = '_') := by
    cases hpass with
    | digit hc => exact ⟨rfl, .inl hc⟩
    | underscore => exact ⟨rfl, .inr rfl⟩
    | letter hstate => rcases hstate with hstate | hstate <;> cases hstate
  have hpasses := (takes_iff_of_fixed fun c state' hpass => (hcases hpass).1).1 h
  exact fun c hc => (hcases (hpasses c hc)).2

/-- The digits behind the letter of a base. -/
theorem takes_based_iff {base : Nat} :
    (State.based (base == 16)).Takes s ↔ IsBasedDigits base s := by
  have hcases {hex : Bool} {c : Char} {state' : State} (hpass : (State.based hex).Passes c state') :
      state' = .based hex ∧ (c.isDigit = true ∨ c = '_' ∨ hex = true ∧ ∃ d, IsDigitIn 16 c d) := by
    cases hpass with
    | digit hc => exact ⟨rfl, .inl hc⟩
    | underscore => exact ⟨rfl, .inr (.inl rfl)⟩
    | letterDigit hd => exact ⟨rfl, .inr (.inr ⟨rfl, _, hd⟩)⟩
    | letter hstate => rcases hstate with hstate | hstate <;> cases hstate
  have hpasses {c : Char} (hc : c.isDigit = true ∨ c = '_' ∨
      base = 16 ∧ ∃ d, IsDigitIn 16 c d) :
      (State.based (base == 16)).Passes c (.based (base == 16)) := by
    rcases hc with hc | rfl | ⟨rfl, d, hd⟩
    · exact .digit hc nofun
    · exact .underscore
    · exact .letterDigit hd
  rw [takes_iff_of_fixed fun c state' hpass => (hcases hpass).1]
  refine forall₂_congr fun c _ => ⟨fun hpass => ?_, hpasses⟩
  simpa only [beq_iff_eq] using (hcases hpass).2

/-- What stands behind the letter of an exponent. -/
theorem exists_sign_of_takes (h : State.exponent.Takes s) :
    ∃ underscores sign digits, s = underscores ++ (sign ++ digits) ∧
      (∀ c ∈ underscores, c = '_') ∧ sign ∈ signs ∧ IsDigits digits := by
  induction s with
  | nil => exact ⟨[], [], [], rfl, by simp, by decide, isDigits_nil⟩
  | cons c s ih =>
    cases h with
    | cons hpass hrest =>
      cases hpass with
      | digit hc hne => exact absurd rfl hne
      | underscore =>
        obtain ⟨underscores, sign, digits, rfl, hunderscores, hsign, hdigits⟩ := ih hrest
        exact ⟨'_' :: underscores, sign, digits, rfl,
          List.forall_mem_cons.2 ⟨rfl, hunderscores⟩, hsign, hdigits⟩
      | letter hstate => rcases hstate with hstate | hstate <;> cases hstate
      | sign hsign =>
        refine ⟨[], [c], s, rfl, by simp, ?_, isDigits_of_takes hrest⟩
        simp only [List.mem_cons, List.not_mem_nil, or_false] at hsign
        rcases hsign with rfl | rfl <;> decide
      | power hc =>
        exact ⟨[], [], c :: s, rfl, by simp, by decide,
          isDigits_cons (.inl hc) (isDigits_of_takes hrest)⟩

theorem isExponent_of_takes {letter : Char} (hletter : letter ∈ ['e', 'E'])
    (h : State.exponent.Takes s) : IsExponent (letter :: s) := by
  obtain ⟨underscores, sign, digits, rfl, hunderscores, hsign, hdigits⟩ := exists_sign_of_takes h
  exact .present hletter hunderscores hsign hdigits

theorem exists_digits_of_takes (h : State.fraction.Takes s) :
    ∃ digits exponent, s = digits ++ exponent ∧ IsDigits digits ∧ IsExponent exponent := by
  induction s with
  | nil => exact ⟨[], [], rfl, isDigits_nil, .absent⟩
  | cons c s ih =>
    cases h with
    | cons hpass hrest =>
      cases hpass with
      | digit hc =>
        obtain ⟨digits, exponent, rfl, hdigits, hexponent⟩ := ih hrest
        exact ⟨c :: digits, exponent, rfl, isDigits_cons (.inl hc) hdigits, hexponent⟩
      | underscore =>
        obtain ⟨digits, exponent, rfl, hdigits, hexponent⟩ := ih hrest
        exact ⟨'_' :: digits, exponent, rfl, isDigits_cons (.inr rfl) hdigits, hexponent⟩
      | letter _ hc => exact ⟨[], c :: s, rfl, isDigits_nil, isExponent_of_takes hc hrest⟩

/-- What a decimal numeral is made up of. -/
theorem shape_of_takes (h : State.whole.Takes s) : Shape s := by
  suffices hparts : ∃ digits fraction exponent, s = digits ++ (fraction ++ exponent) ∧
      IsDigits digits ∧ IsFraction fraction ∧ IsExponent exponent by
    obtain ⟨digits, fraction, exponent, rfl, hdigits, hfraction, hexponent⟩ := hparts
    exact .decimal hdigits hfraction hexponent
  induction s with
  | nil => exact ⟨[], [], [], rfl, isDigits_nil, .absent, .absent⟩
  | cons c s ih =>
    cases h with
    | cons hpass hrest =>
      cases hpass with
      | digit hc =>
        obtain ⟨digits, fraction, exponent, rfl, hdigits, hparts⟩ := ih hrest
        exact ⟨c :: digits, fraction, exponent, rfl, isDigits_cons (.inl hc) hdigits, hparts⟩
      | underscore =>
        obtain ⟨digits, fraction, exponent, rfl, hdigits, hparts⟩ := ih hrest
        exact ⟨'_' :: digits, fraction, exponent, rfl, isDigits_cons (.inr rfl) hdigits, hparts⟩
      | point =>
        obtain ⟨digits, exponent, rfl, hdigits, hexponent⟩ := exists_digits_of_takes hrest
        exact ⟨[], '.' :: digits, exponent, rfl, isDigits_nil, .present hdigits, hexponent⟩
      | letter _ hc =>
        exact ⟨[], [], c :: s, rfl, isDigits_nil, .absent, isExponent_of_takes hc hrest⟩

theorem State.Takes.length_le (h : state.Takes word) (hfront : word <+: s) :
    word.length ≤ (extent state s).1.length := by
  obtain ⟨after, rfl⟩ := hfront
  obtain ⟨more, hmore⟩ := h.extent_append after
  rw [hmore, List.length_append]
  exact Nat.le_add_right ..

/-! ## Whole numerals -/

/-- A numeral starts here, with a digit or with a point and a digit. -/
def Starts (s : List Char) : Prop :=
  ∃ c rest, c.isDigit = true ∧ (s = c :: rest ∨ s = '.' :: c :: rest)

/-- What is taken for a numeral from its start on. -/
structure IsNumeral (word : List Char) : Prop where
  starts : Starts word
  shape : Shape word

/-- The number that a numeral is read as when nothing follows it. -/
def value (word : List Char) : Except Error Float :=
  (read word).map Prod.fst

theorem startsNumeral_iff : Lexer.startsNumeral s = true ↔ Starts s := by
  unfold Lexer.startsNumeral
  split
  · rename_i c rest
    constructor
    · exact fun hc => ⟨c, rest, hc, .inr rfl⟩
    · rintro ⟨d, rest, hd, heq | heq⟩ <;> cases heq
      · cases hd
      · exact hd
  · rename_i c rest hpoint
    constructor
    · exact fun hc => ⟨c, rest, hc, .inl rfl⟩
    · rintro ⟨d, rest, hd, heq | heq⟩ <;> cases heq
      · exact hd
      · exact absurd rfl (hpoint d rest rfl)
  · constructor
    · rintro ⟨⟩
    · rintro ⟨d, rest, hd, heq | heq⟩ <;> cases heq

theorem next?_of_baseLetter {letter : Char} {base : Nat} (h : (letter, base) ∈ baseLetters) :
    State.whole.next? letter = none := by
  have hall : ∀ p ∈ baseLetters, State.whole.next? p.1 = none := by decide
  exact hall _ h

theorem Starts.starts_extent (h : Starts s) : Starts (extent .whole s).1 := by
  obtain ⟨c, rest, hc, rfl | rfl⟩ := h
  · have hpass : State.whole.next? c = some .whole := next?_eq_some_iff.2 (.digit hc (by decide))
    exact ⟨c, (extent .whole rest).1, hc, .inl (by simp only [extent, hpass])⟩
  · have hpoint : State.whole.next? '.' = some .fraction := rfl
    have hpass : State.fraction.next? c = some .fraction :=
      next?_eq_some_iff.2 (.digit hc (by decide))
    exact ⟨c, (extent .fraction rest).1, hc, .inr (by simp only [extent, hpoint, hpass])⟩

/-- Where no base is announced, the longest numeral is a decimal one. -/
theorem isLongest_decimal (h : Starts s) (hbase : base? s = none) :
    IsLongest IsNumeral (extent .whole s).1 (extent .whole s).2 := by
  refine ⟨⟨h.starts_extent, shape_of_takes (takes_extent .whole s)⟩, ?_⟩
  intro other hother hnumeral
  rw [extent_append] at hother
  cases hnumeral.shape with
  | decimal hdigits hfraction hexponent =>
    exact (takes_whole hdigits hfraction hexponent).length_le hother
  | based hletter =>
    obtain ⟨tail, rfl⟩ := hother
    cases hbase.symm.trans (base?_eq_some_iff.2 ⟨_, hletter, rfl⟩)

/-- Where a base is announced, the longest numeral is one in this base. -/
theorem isLongest_based {letter : Char} {base : Nat} {rest : List Char}
    (hletter : (letter, base) ∈ baseLetters) :
    IsLongest IsNumeral ('0' :: letter :: (extent (.based (base == 16)) rest).1)
      (extent (.based (base == 16)) rest).2 := by
  have hdigits := takes_based_iff.1 (takes_extent (.based (base == 16)) rest)
  refine ⟨⟨⟨'0', _, rfl, .inl rfl⟩, .based hletter hdigits⟩, ?_⟩
  intro other hother hnumeral
  rw [List.cons_append, List.cons_append, extent_append] at hother
  cases hnumeral.shape with
  | decimal hdigits hfraction hexponent =>
    -- a decimal numeral ends before the letter
    have hle := (takes_whole hdigits hfraction hexponent).length_le hother
    have hzero : State.whole.next? '0' = some .whole := rfl
    simp only [extent, hzero, next?_of_baseLetter hletter, List.length_singleton] at hle
    exact Nat.le_trans hle (Nat.succ_le_succ (Nat.zero_le _))
  | @based letter' base' digits hletter' hdigits' =>
    obtain ⟨tail, htail⟩ := hother
    cases htail
    cases (mem_baseLetters_iff.1 hletter).symm.trans (mem_baseLetters_iff.1 hletter')
    have hle := (takes_based_iff.2 hdigits').length_le (List.prefix_append digits tail)
    exact Nat.succ_le_succ (Nat.succ_le_succ hle)

/-- The longest numeral that a text begins with is read, just as if nothing followed it. -/
theorem Starts.isLongest (h : Starts s) :
    ∃ word after, s = word ++ after ∧ IsLongest IsNumeral word after ∧
      read s = (value word).map fun x => (x, after) := by
  have hmap {e : Except Error Float} {after : List Char} :
      (e.map fun x => (x, after)) = ((e.map fun x => (x, ([] : List Char))).map Prod.fst).map
        fun x => (x, after) := by
    cases e <;> rfl
  cases hbase : base? s with
  | none =>
    refine ⟨_, _, (extent_append .whole s).symm, isLongest_decimal h hbase, ?_⟩
    have hword : base? (extent .whole s).1 = none := by
      refine Option.eq_none_iff_forall_ne_some.2 fun found hfound => ?_
      obtain ⟨letter, hletter, hs⟩ := base?_eq_some_iff.1 hfound
      have hall := extent_append .whole s
      rw [hs] at hall
      cases hbase.symm.trans (base?_eq_some_iff.2 ⟨letter, hletter, hall.symm⟩)
    rw [value, read, read, hbase, hword]
    simp only [(takes_extent .whole s).extent_eq]
    exact hmap
  | some found =>
    obtain ⟨base, rest⟩ := found
    obtain ⟨letter, hletter, rfl⟩ := base?_eq_some_iff.1 hbase
    refine ⟨_, _, ?_, @isLongest_based letter base rest hletter, ?_⟩
    · rw [List.cons_append, List.cons_append, extent_append]
    have hword := base?_eq_some_iff.2 ⟨letter, hletter,
      Eq.refl ('0' :: letter :: (extent (.based (base == 16)) rest).1)⟩
    rw [value, read, read, hbase, hword]
    simp only [(takes_extent _ rest).extent_eq]
    exact hmap

end Numeral

end Stencil
