import Stencil.Proofs.Lexing.Joined
import Stencil.Proofs.Lexing.Shapes

/-!
# Texts cut into tokens

The tokens of a text are found by cutting it into slices, with nothing but blanks around them. A
name or a mark is spelled in its slice, a text stands there in quotes, and a number as a numeral.
The lexer fails where neither a blank nor a slice stands.

* `Token.HasSlice`, `Slices`: the slice of a token, and the slices that a text is made up of
* `Stuck`: where no slice stands, and why
* `next_of_hasSlice`, `next_of_stuck`: what is read where a slice stands, and where none does
* `hasSlice_or_stuck`, `exists_slices`: how far a text is cut
* `tokens_iff_slices`: the main statement
-/

namespace Stencil

open Stencil.Text

/-- The word is the slice of the token in a text where the other list follows it. -/
inductive Token.HasSlice : Token → List Char → List Char → Prop
  | name {word after : List Char} :
      IsLongest Lexer.IsName word after → HasSlice (.name (String.ofList word)) word after
  /-- The text is what the escapes in the body stand for. -/
  | text {quote : Char} {s body after : List Char} :
      quote ∈ ['\'', '"'] → Lexer.IsQuotedBody quote body → Escapes.unescape body = .ok s →
      HasSlice (.text (String.ofList s)) (quote :: (body ++ [quote])) after
  | number {x : Float} {word after : List Char} :
      IsLongest Numeral.IsNumeral word after → Numeral.value word = .ok x →
      HasSlice (.number x) word after
  /-- A point before a digit is no mark, as a numeral starts there. -/
  | mark {m : Mark} {after : List Char} :
      IsLongest Lexer.IsSpelling m.spelling.toList after →
      (m = .dot → ∀ d ∈ after.head?, d.isDigit = false) →
      HasSlice (.mark m) m.spelling.toList after

namespace Lexer

/-- The text is made up of the slices of the tokens in their order, with blanks before, between and
behind them, and of the other list, which stands behind all of them. -/
inductive Slices : List Token → List Char → List Char → Prop
  | nil {blanks rest : List Char} :
      (∀ c ∈ blanks, isBlank c = true) → Slices [] (blanks ++ rest) rest
  | cons {t : Token} {ts : List Token} {blanks word after rest : List Char} :
      (∀ c ∈ blanks, isBlank c = true) → word ≠ [] → t.HasSlice word after → Slices ts after rest →
      Slices (t :: ts) (blanks ++ (word ++ after)) rest

/-- Neither a blank nor a slice stands at the beginning of the text, for the reason given. -/
inductive Stuck : List Char → Error → Prop
  /-- No token starts with the character. -/
  | character {c : Char} {rest : List Char} :
      isBlank c = false → ¬ IsNameStart c → ¬ Numeral.Starts (c :: rest) → c ∉ ['\'', '"'] →
      (∀ word, IsSpelling word → ¬ word <+: c :: rest) → Stuck (c :: rest) (.malformed .character)
  /-- No quote closes the text. -/
  | openText {quote : Char} {rest : List Char} :
      quote ∈ ['\'', '"'] →
      (∀ body after, IsQuotedBody quote body → rest ≠ body ++ quote :: after) →
      Stuck (quote :: rest) (.malformed .openText)
  /-- An escape in the body stands for nothing. -/
  | escape {quote : Char} {body after : List Char} {e : Error} :
      quote ∈ ['\'', '"'] → IsQuotedBody quote body → Escapes.unescape body = .error e →
      Stuck (quote :: (body ++ quote :: after)) e
  /-- The numeral stands for no number. -/
  | numeral {word after : List Char} {e : Error} :
      IsLongest Numeral.IsNumeral word after → Numeral.value word = .error e →
      Stuck (word ++ after) e

/-! ## Beginnings -/

variable {t : Token} {word after s rest : List Char} {e : Error}

theorem not_isBlank_of_mem_quotes {quote : Char} (h : quote ∈ ['\'', '"']) :
    isBlank quote = false := by
  simp only [List.mem_cons, List.not_mem_nil, or_false] at h
  rcases h with rfl | rfl <;> rfl

/-- No numeral starts with a blank. -/
theorem head_of_starts (h : Numeral.Starts s) : ∃ c rest, s = c :: rest ∧ isBlank c = false := by
  obtain ⟨c, rest, hc, rfl | rfl⟩ := h
  · refine ⟨c, rest, rfl, Bool.eq_false_iff.2 fun hblank => ?_⟩
    cases hc.symm.trans (Numeral.not_isDigit_of_isBlank hblank)
  · exact ⟨'.', c :: rest, rfl, rfl⟩

/-- A slice is not empty and does not start with a blank. -/
theorem head_of_hasSlice (h : t.HasSlice word after) :
    ∃ c rest, word = c :: rest ∧ isBlank c = false := by
  cases h with
  | name hlongest =>
    obtain ⟨c, rest, rfl, hc, -⟩ := hlongest.isKind
    exact ⟨c, rest, rfl, not_isBlank_of_isNamePart (isNamePart_of_isNameStart hc)⟩
  | text hquote => exact ⟨_, _, rfl, not_isBlank_of_mem_quotes hquote⟩
  | number hlongest => exact head_of_starts hlongest.isKind.starts
  | @mark m =>
    have hblank := not_isBlank_of_mem_spelling m
    obtain ⟨c, rest, hspelling, -⟩ := not_startsName_of_mark m
    exact ⟨c, rest, hspelling, hblank c (hspelling ▸ List.mem_cons_self)⟩

theorem head_of_stuck (h : Stuck s e) : ∃ c rest, s = c :: rest ∧ isBlank c = false := by
  cases h with
  | character hblank => exact ⟨_, _, rfl, hblank⟩
  | openText hquote => exact ⟨_, _, rfl, not_isBlank_of_mem_quotes hquote⟩
  | escape hquote => exact ⟨_, _, rfl, not_isBlank_of_mem_quotes hquote⟩
  | numeral hlongest =>
    obtain ⟨c, rest, rfl, hc⟩ := head_of_starts hlongest.isKind.starts
    exact ⟨c, _, rfl, hc⟩

/-! ## Slices are read -/

theorem starts_append (h : Numeral.Starts word) (after : List Char) :
    Numeral.Starts (word ++ after) := by
  obtain ⟨c, rest, hc, rfl | rfl⟩ := h
  · exact ⟨c, rest ++ after, hc, .inl rfl⟩
  · exact ⟨c, rest ++ after, hc, .inr rfl⟩

/-- The longest numeral is read, whatever follows it. -/
theorem next_of_isLongest (h : IsLongest Numeral.IsNumeral word after) :
    next (word ++ after) = (Numeral.value word).map fun x => (.number x, after) := by
  have hstarts := starts_append h.isKind.starts after
  obtain ⟨word', after', hs, hlongest, hread⟩ := hstarts.isLongest
  obtain ⟨rfl, rfl⟩ := h.unique hlongest hs
  rw [next_of_numeral (Numeral.startsNumeral_iff.2 hstarts), hread]
  cases Numeral.value word <;> rfl

theorem next_of_isQuotedBody {quote : Char} {body : List Char} (hquote : quote ∈ ['\'', '"'])
    (hbody : IsQuotedBody quote body) (after : List Char) :
    next (quote :: (body ++ quote :: after)) =
      (Escapes.unescape body).map fun s => (.text (String.ofList s), after) := by
  have hclosed := (body?_eq_some_iff (ne_backslash_of_quote hquote)).2
    ⟨Eq.refl (body ++ quote :: after), hbody⟩
  rw [next_of_quote hquote, quoted, hclosed]
  dsimp only
  cases Escapes.unescape body <;> rfl

/-- A token is read where its slice stands. -/
theorem next_of_hasSlice (h : t.HasSlice word after) : next (word ++ after) = .ok (t, after) := by
  cases h with
  | name hlongest =>
    obtain ⟨c, rest, rfl, hc, hrest⟩ := hlongest.isKind
    refine next_of_name hc hrest fun d hd => Bool.eq_false_iff.2 fun hgoes => ?_
    obtain ⟨tail, rfl⟩ := List.head?_eq_some_iff.1 hd
    have hle := hlongest.longest (c :: (rest ++ [d])) ⟨tail, by simp⟩
      ⟨c, rest ++ [d], rfl, hc, List.forall_mem_append.2
        ⟨hrest, List.forall_mem_singleton.2 (continuesName_iff.1 hgoes)⟩⟩
    simp at hle
  | text hquote hbody hs =>
    rw [List.cons_append, List.append_assoc, List.singleton_append,
      next_of_isQuotedBody hquote hbody, hs]
    rfl
  | number hlongest hx =>
    rw [next_of_isLongest hlongest, hx]
    rfl
  | @mark m _ hlongest hdot => exact next_of_mark m (read?_eq_some_iff.2 ⟨rfl, hlongest⟩) hdot

/-- Where no slice stands the lexer fails. -/
theorem next_of_stuck (h : Stuck s e) : next s = .error e := by
  cases h with
  | @character c rest _ hname hnumeral hquote hmark =>
    rw [← Numeral.startsNumeral_iff, Bool.not_eq_true] at hnumeral
    simp only [List.mem_cons, List.not_mem_nil, or_false, not_or] at hquote
    rw [← startsName_iff] at hname
    rw [next_of_ne hnumeral hquote.1 hquote.2, read?_eq_none_iff.2 hmark]
    exact if_neg hname
  | @openText quote rest hquote hopen =>
    have hbody : body? quote rest = none := by
      refine Option.eq_none_iff_forall_ne_some.2 fun parts hparts => ?_
      obtain ⟨hrest, hbody⟩ := (body?_eq_some_iff (ne_backslash_of_quote hquote)).1 hparts
      exact hopen parts.1 parts.2 hbody hrest
    rw [next_of_quote hquote, quoted, hbody]
  | escape hquote hbody he =>
    rw [next_of_isQuotedBody hquote hbody, he]
    rfl
  | numeral hlongest he =>
    rw [next_of_isLongest hlongest, he]
    rfl

theorem tokens_of_slices {ts : List Token} (h : Slices ts s rest) :
    tokens s = (tokens rest).map (ts ++ ·) := by
  induction h with
  | @nil _ rest hblanks =>
    rw [tokens_append_of_blanks hblanks]
    cases tokens rest <;> rfl
  | @cons t ts blanks word after rest hblanks _ hslice _ ih =>
    have hnext := next_of_hasSlice hslice
    obtain ⟨c, word', rfl, hc⟩ := head_of_hasSlice hslice
    rw [List.cons_append] at hnext ⊢
    rw [tokens_of_next hblanks hc hnext, ih]
    cases tokens rest <;> rfl

theorem tokens_of_stuck (h : Stuck s e) : tokens s = .error e := by
  have hnext := next_of_stuck h
  obtain ⟨c, rest, rfl, hc⟩ := head_of_stuck h
  have hfirst := @tokens_of_head [] rest c nofun hc
  rw [hnext] at hfirst
  exact hfirst

/-! ## Every text is cut -/

/-- Where no blank stands there is a slice, or none for a reason. -/
theorem hasSlice_or_stuck {c : Char} (hc : isBlank c = false) (s : List Char) :
    (∃ (t : Token) (word after : List Char), c :: s = word ++ after ∧ t.HasSlice word after) ∨
      ∃ e, Stuck (c :: s) e := by
  by_cases hnumeral : Numeral.Starts (c :: s)
  · obtain ⟨word, after, hs, hlongest, -⟩ := hnumeral.isLongest
    rw [hs]
    cases hvalue : Numeral.value word with
    | ok x => exact .inl ⟨.number x, word, after, rfl, .number hlongest hvalue⟩
    | error e => exact .inr ⟨e, .numeral hlongest hvalue⟩
  by_cases hquote : c ∈ ['\'', '"']
  · cases hbody : body? c s with
    | some parts =>
      obtain ⟨body, after⟩ := parts
      obtain ⟨rfl, hinside⟩ := (body?_eq_some_iff (ne_backslash_of_quote hquote)).1 hbody
      cases htext : Escapes.unescape body with
      | ok s => exact .inl ⟨_, _, after, by simp, .text hquote hinside htext⟩
      | error e => exact .inr ⟨e, .escape hquote hinside htext⟩
    | none =>
      refine .inr ⟨_, .openText hquote fun body after hinside hs => ?_⟩
      have hclosed := (body?_eq_some_iff (ne_backslash_of_quote hquote)).2 ⟨hs, hinside⟩
      cases hbody.symm.trans hclosed
  cases hread : Mark.read? (c :: s) with
  | some found =>
    obtain ⟨m, rest⟩ := found
    obtain ⟨hs, hlongest⟩ := read?_eq_some_iff.1 hread
    refine .inl ⟨.mark m, _, rest, hs, .mark hlongest ?_⟩
    rintro rfl d hd
    obtain ⟨tail, rfl⟩ := List.head?_eq_some_iff.1 hd
    exact Bool.eq_false_iff.2 fun hdigit => hnumeral ⟨d, tail, hdigit, .inr hs⟩
  | none =>
    by_cases hname : startsName c = true
    · have hall := (c :: s).takeWhile_append_dropWhile (p := continuesName)
      exact .inl ⟨_, _, _, hall.symm, .name (isLongest_takeWhile hname s)⟩
    · exact .inr ⟨_, .character hc (startsName_iff.not.1 hname) hnumeral hquote
        (read?_eq_none_iff.1 hread)⟩

/-- Every text is cut into slices up to its end, or up to a place where no slice stands. -/
theorem exists_slices (s : List Char) :
    (∃ ts, Slices ts s []) ∨ ∃ ts rest e, Slices ts s rest ∧ Stuck rest e := by
  induction hlength : s.length using Nat.strongRecOn generalizing s with
  | ind n ih =>
    obtain ⟨blanks, hs, hblanks⟩ := trimStart_append_self s
    cases htrim : trimStart s with
    | nil =>
      rw [htrim] at hs
      exact .inl ⟨[], hs ▸ .nil hblanks⟩
    | cons c inner =>
      have hc : isBlank c = false := head_trimStart s c (by rw [htrim]; rfl)
      rw [htrim] at hs
      subst hs
      rcases hasSlice_or_stuck hc inner with ⟨t, word, after, hinner, hslice⟩ | ⟨e, hstuck⟩
      · obtain ⟨d, word', rfl, -⟩ := head_of_hasSlice hslice
        have hlt : after.length < n := by
          rw [← hlength, hinner]
          simp
          omega
        rw [hinner]
        have hcons {ts : List Token} {rest : List Char} (h : Slices ts after rest) :
            Slices (t :: ts) (blanks ++ (d :: word' ++ after)) rest :=
          .cons hblanks (List.cons_ne_nil d word') hslice h
        rcases ih after.length hlt after rfl with ⟨ts, hslices⟩ | ⟨ts, rest, e, hslices, hstuck⟩
        · exact .inl ⟨t :: ts, hcons hslices⟩
        · exact .inr ⟨t :: ts, rest, e, hcons hslices, hstuck⟩
      · exact .inr ⟨[], c :: inner, e, .nil hblanks, hstuck⟩

/-- **Lexing loses no text.** The tokens of a text are those whose slices make it up to its end,
with nothing but blanks around them. Lexing fails exactly if behind the slices of some tokens
neither a blank nor a slice stands, and the error is the reason for this. -/
theorem tokens_iff_slices (s : List Char) :
    (∀ ts, tokens s = .ok ts ↔ Slices ts s []) ∧
      ∀ e, tokens s = .error e ↔ ∃ ts rest, Slices ts s rest ∧ Stuck rest e := by
  have hok {ts : List Token} (h : Slices ts s []) : tokens s = .ok ts := by
    rw [tokens_of_slices h, tokens_of_blanks (s := []) nofun]
    simp [Except.map]
  have herror {ts : List Token} {rest : List Char} {e : Error} (h : Slices ts s rest)
      (hstuck : Stuck rest e) : tokens s = .error e := by
    rw [tokens_of_slices h, tokens_of_stuck hstuck]
    rfl
  refine ⟨fun ts => ⟨fun h => ?_, hok⟩, fun e => ⟨fun h => ?_, ?_⟩⟩
  · rcases exists_slices s with ⟨ts', hslices⟩ | ⟨ts', rest, e, hslices, hstuck⟩
    · cases h.symm.trans (hok hslices)
      exact hslices
    · cases h.symm.trans (herror hslices hstuck)
  · rcases exists_slices s with ⟨ts', hslices⟩ | ⟨ts', rest, e', hslices, hstuck⟩
    · cases h.symm.trans (hok hslices)
    · cases h.symm.trans (herror hslices hstuck)
      exact ⟨ts', rest, hslices, hstuck⟩
  · rintro ⟨ts, rest, hslices, hstuck⟩
    exact herror hslices hstuck

end Lexer

end Stencil
