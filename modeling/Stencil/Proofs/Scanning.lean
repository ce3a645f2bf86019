import Mathlib.Data.List.Chain
import Stencil.Source.Segment

/-!
# The segments of a source

A fragment is found at the leftmost position where one can stand, and it reaches to the first
closing mark. What is left over between fragments is literal text.

* `Source.Match`: a fragment stands between two positions of a source
* `Source.Scans`: the segments from a position on, said with positions
* `Source.Written`: segments put back together
* `Source.segments_scanned`: the main statement
-/

namespace Stencil

open Stencil.Text

namespace Source

/-! ## Positions -/

/-- The mark that opens a fragment. -/
def openMark : List Char := ['<', '%']

/-- The mark that closes a fragment. -/
def closeMark : List Char := ['%', '>']

/-- The mark stands at a position of the source. -/
def StandsAt (mark source : List Char) (p : Nat) : Prop :=
  mark <+: source.drop p

/-- The text from one position up to another one. -/
def between (source : List Char) (p q : Nat) : List Char :=
  (source.drop p).take (q - p)

/-- The interior of a fragment that is opened at one position and closed at another one. -/
def interior (source : List Char) (p q : Nat) : List Char :=
  trim (between source (p + 2) q)

/-- A fragment is opened at one position and closed at another one. It ends at the first closing
mark, and its interior is on one line. -/
structure Match (source : List Char) (p q : Nat) : Prop where
  opens : StandsAt openMark source p
  le : p + 2 ≤ q
  closes : StandsAt closeMark source q
  first : ∀ r, p + 2 ≤ r → r < q → ¬ StandsAt closeMark source r
  oneLine : ∀ c ∈ interior source p q, c ≠ '\u2028' ∧ c ≠ '\u2029'

theorem standsAt_drop {mark source : List Char} {k p : Nat} :
    StandsAt mark (source.drop k) p ↔ StandsAt mark source (p + k) := by
  rw [StandsAt, StandsAt, List.drop_drop, Nat.add_comm]

theorem between_drop (source : List Char) (k p q : Nat) :
    between (source.drop k) p q = between source (p + k) (q + k) := by
  rw [between, between, List.drop_drop, Nat.add_comm k p, Nat.add_sub_add_right]

theorem interior_drop (source : List Char) (k p q : Nat) :
    interior (source.drop k) p q = interior source (p + k) (q + k) := by
  rw [interior, interior, between_drop, Nat.add_right_comm]

/-- A fragment of a rest is one of the whole source. -/
theorem match_drop {source : List Char} {k p q : Nat} :
    Match (source.drop k) p q ↔ Match source (p + k) (q + k) := by
  constructor
  · intro h
    refine ⟨standsAt_drop.1 h.opens, by have := h.le; omega, standsAt_drop.1 h.closes, ?_, ?_⟩
    · intro r hle hlt hcloses
      obtain ⟨r, rfl⟩ := Nat.exists_eq_add_of_le' (Nat.le_trans (by omega : k ≤ p + k + 2) hle)
      exact h.first r (by omega) (by omega) (standsAt_drop.2 hcloses)
    · rw [← interior_drop]
      exact h.oneLine
  · intro h
    refine ⟨standsAt_drop.2 h.opens, by have := h.le; omega, standsAt_drop.2 h.closes, ?_, ?_⟩
    · intro r hle hlt hcloses
      exact h.first (r + k) (by omega) (by omega) (standsAt_drop.1 hcloses)
    · rw [interior_drop]
      exact h.oneLine

/-- A fragment of the whole source that is opened in a rest is one of the rest. -/
theorem Match.drop {source : List Char} {k p q : Nat} (h : Match source (p + k) q) :
    ∃ q', q = q' + k ∧ Match (source.drop k) p q' := by
  obtain ⟨q', rfl⟩ := Nat.exists_eq_add_of_le' (Nat.le_trans (by omega : k ≤ p + k + 2) h.le)
  exact ⟨q', rfl, match_drop.2 h⟩

/-- Where a fragment ends is determined by where it starts. -/
theorem Match.unique {source : List Char} {p q q' : Nat} (h : Match source p q)
    (h' : Match source p q') : q = q' := by
  rcases Nat.lt_trichotomy q q' with hlt | heq | hlt
  · exact absurd h.closes (h'.first q h.le hlt)
  · exact heq
  · exact absurd h'.closes (h.first q' h'.le hlt)

/-! ## The first closing mark -/

theorem splitAtClose?_eq_some {s inside after : List Char}
    (h : splitAtClose? s = some (inside, after)) :
    ∃ q, StandsAt closeMark s q ∧ (∀ r < q, ¬ StandsAt closeMark s r) ∧
      inside = s.take q ∧ after = s.drop (q + 2) := by
  fun_induction splitAtClose? s generalizing inside after with
  | case1 rest =>
    obtain ⟨rfl, rfl⟩ := Prod.mk.inj (Option.some.inj h)
    exact ⟨0, List.prefix_append closeMark _, fun r hr => absurd hr (Nat.not_lt_zero r), rfl, rfl⟩
  | case2 c rest hne ih =>
    simp only [Option.map_eq_some_iff, Prod.mk.injEq, Prod.exists] at h
    obtain ⟨inside, after, hrest, rfl, rfl⟩ := h
    obtain ⟨q, hcloses, hfirst, rfl, rfl⟩ := ih hrest
    refine ⟨q + 1, hcloses, fun r hr => ?_, rfl, rfl⟩
    cases r with
    | zero =>
      rintro ⟨tail, htail⟩
      obtain ⟨rfl, hrest'⟩ := List.cons.inj htail
      exact hne tail rfl hrest'.symm
    | succ r => exact hfirst r (by omega)
  | case3 => cases h

theorem splitAtClose?_eq_none {s : List Char} (h : splitAtClose? s = none) (r : Nat) :
    ¬ StandsAt closeMark s r := by
  fun_induction splitAtClose? s generalizing r with
  | case1 rest => cases h
  | case2 c rest hne ih =>
    cases r with
    | zero =>
      rintro ⟨tail, htail⟩
      obtain ⟨rfl, hrest⟩ := List.cons.inj htail
      exact hne tail rfl hrest.symm
    | succ r => exact ih (Option.map_eq_none_iff.1 h) r
  | case3 =>
    rw [StandsAt, List.drop_nil, List.prefix_nil]
    rintro ⟨⟩

/-! ## The first fragment -/

theorem any_isLineSeparator_eq_false {s : List Char} :
    s.any isLineSeparator = false ↔ ∀ c ∈ s, c ≠ '\u2028' ∧ c ≠ '\u2029' := by
  simp only [List.any_eq_false, isLineSeparator, Bool.or_eq_true, beq_iff_eq, not_or, ne_eq]

theorem fragmentAt?_eq_some {s i after : List Char} (h : fragmentAt? s = some (i, after)) :
    ∃ q, Match s 0 q ∧ i = interior s 0 q ∧ after = s.drop (q + 2) := by
  unfold fragmentAt? at h
  split at h
  · rename_i body
    cases hsplit : splitAtClose? body with
    | none =>
      rw [hsplit] at h
      cases h
    | some found =>
      obtain ⟨inside, rest⟩ := found
      simp only [hsplit] at h
      split at h
      · cases h
      · rename_i hline
        obtain ⟨rfl, rfl⟩ := Prod.mk.inj (Option.some.inj h)
        obtain ⟨q, hcloses, hfirst, rfl, rfl⟩ := splitAtClose?_eq_some hsplit
        refine ⟨q + 2, ⟨List.prefix_append openMark body, by omega, hcloses, ?_, ?_⟩, rfl, rfl⟩
        · intro r hle hlt
          obtain ⟨r, rfl⟩ := Nat.exists_eq_add_of_le' hle
          exact hfirst r (by omega)
        · exact any_isLineSeparator_eq_false.1 (Bool.not_eq_true _ ▸ hline)
  · cases h

theorem fragmentAt?_eq_none {s : List Char} (h : fragmentAt? s = none) (q : Nat) :
    ¬ Match s 0 q := by
  intro hmatch
  obtain ⟨body, rfl⟩ := hmatch.opens
  obtain ⟨q, rfl⟩ := Nat.exists_eq_add_of_le' hmatch.le
  have hcloses : StandsAt closeMark body q := hmatch.closes
  change fragmentAt? ('<' :: '%' :: body) = none at h
  cases hsplit : splitAtClose? body with
  | none => exact splitAtClose?_eq_none hsplit q hcloses
  | some found =>
    obtain ⟨inside, rest⟩ := found
    obtain ⟨q', hcloses', hfirst, rfl, -⟩ := splitAtClose?_eq_some hsplit
    -- the mark at `q` is the first one, so the interior is the one that was looked at
    have hq : q' = q := by
      rcases Nat.lt_trichotomy q' q with hlt | heq | hlt
      · exact absurd hcloses' (hmatch.first (q' + 2) (by omega) (by omega))
      · exact heq
      · exact absurd hcloses (hfirst q hlt)
    subst hq
    have hline : (trim (body.take q')).any isLineSeparator = false :=
      any_isLineSeparator_eq_false.2 hmatch.oneLine
    simp only [fragmentAt?, hsplit, hline, Bool.false_eq_true, if_false] at h
    cases h

/-- The two positions of the fragment that is found, and what is taken from the text with them. -/
theorem findFragment?_eq_some {s lead i after : List Char}
    (h : findFragment? s = some (lead, i, after)) :
    ∃ p q, Match s p q ∧ (∀ p' < p, ∀ q', ¬ Match s p' q') ∧ lead = s.take p ∧
      i = interior s p q ∧ after = s.drop (q + 2) := by
  induction s generalizing lead with
  | nil => cases h
  | cons c rest ih =>
    cases hfragment : fragmentAt? (c :: rest) with
    | some found =>
      obtain ⟨i', after'⟩ := found
      simp only [findFragment?, hfragment, Option.some.injEq, Prod.mk.injEq] at h
      obtain ⟨rfl, rfl, rfl⟩ := h
      obtain ⟨q, hmatch, rfl, rfl⟩ := fragmentAt?_eq_some hfragment
      exact ⟨0, q, hmatch, fun p' hp' => absurd hp' (Nat.not_lt_zero p'), rfl, rfl, rfl⟩
    | none =>
      simp only [findFragment?, hfragment, Option.map_eq_some_iff, Prod.mk.injEq,
        Prod.exists] at h
      obtain ⟨lead, i, after, hrest, rfl, rfl, rfl⟩ := h
      obtain ⟨p, q, hmatch, hleft, rfl, rfl, rfl⟩ := ih hrest
      refine ⟨p + 1, q + 1, match_drop.1 hmatch, fun p' hp' q' hmatch' => ?_, rfl, ?_, rfl⟩
      · cases p' with
        | zero => exact fragmentAt?_eq_none hfragment q' hmatch'
        | succ p' =>
          obtain ⟨q', rfl, hrest'⟩ := hmatch'.drop
          exact hleft p' (by omega) q' hrest'
      · exact interior_drop (c :: rest) 1 p q

theorem findFragment?_eq_none {s : List Char} (h : findFragment? s = none) (p q : Nat) :
    ¬ Match s p q := by
  intro hmatch
  induction s generalizing p q with
  | nil =>
    have hopens := hmatch.opens
    rw [StandsAt, List.drop_nil, List.prefix_nil] at hopens
    cases hopens
  | cons c rest ih =>
    cases hfragment : fragmentAt? (c :: rest) with
    | some found =>
      obtain ⟨i, after⟩ := found
      simp only [findFragment?, hfragment] at h
      cases h
    | none =>
      simp only [findFragment?, hfragment, Option.map_eq_none_iff] at h
      cases p with
      | zero => exact fragmentAt?_eq_none hfragment q hmatch
      | succ p =>
        obtain ⟨q, rfl, hrest⟩ := hmatch.drop
        exact ih h p q hrest

/-! ## The whole source -/

/-- Literal text, if there is any. -/
def literalOf (text : List Char) : List Segment :=
  if text.isEmpty then [] else [.literal text]

/-- The segments from a position on: the leftmost fragment from there with the text before it, and
so on after it, until there is no more fragment. The rest is a segment if it is two code units long
or longer. -/
inductive Scans (source : List Char) : Nat → List Segment → Prop where
  | fragment {cursor p q : Nat} {segs : List Segment} (le : cursor ≤ p) (found : Match source p q)
      (leftmost : ∀ p', cursor ≤ p' → p' < p → ∀ q', ¬ Match source p' q')
      (rest : Scans source (q + 2) segs) :
      Scans source cursor
        (literalOf (between source cursor p) ++ .fragment (interior source p q) :: segs)
  | tail {cursor : Nat} (missing : ∀ p, cursor ≤ p → ∀ q, ¬ Match source p q)
      (long : 2 ≤ unitLength (source.drop cursor)) :
      Scans source cursor [.literal (source.drop cursor)]
  | done {cursor : Nat} (missing : ∀ p, cursor ≤ p → ∀ q, ¬ Match source p q)
      (short : unitLength (source.drop cursor) < 2) : Scans source cursor []

theorem Scans.unique {source : List Char} {cursor : Nat} {segs segs' : List Segment}
    (h : Scans source cursor segs) (h' : Scans source cursor segs') : segs = segs' := by
  induction h generalizing segs' with
  | @fragment cursor p q segs hle hmatch hleft _ ih =>
    cases h' with
    | @fragment _ p' q' _ hle' hmatch' hleft' hrest' =>
      have hp : p = p' := by
        rcases Nat.lt_trichotomy p p' with hlt | heq | hlt
        · exact absurd hmatch (hleft' p hle hlt q)
        · exact heq
        · exact absurd hmatch' (hleft p' hle' hlt q')
      subst hp
      obtain rfl := hmatch.unique hmatch'
      rw [ih hrest']
    | tail hmissing _ => exact absurd hmatch (hmissing p hle q)
    | done hmissing _ => exact absurd hmatch (hmissing p hle q)
  | tail hmissing hlong =>
    cases h' with
    | fragment hle' hmatch' => exact absurd hmatch' (hmissing _ hle' _)
    | tail => rfl
    | done _ hshort => exact absurd hlong (Nat.not_le.2 hshort)
  | done hmissing hshort =>
    cases h' with
    | fragment hle' hmatch' => exact absurd hmatch' (hmissing _ hle' _)
    | tail _ hlong => exact absurd hlong (Nat.not_le.2 hshort)
    | done => rfl

theorem missing_of_findFragment? {source : List Char} {cursor : Nat}
    (h : findFragment? (source.drop cursor) = none) (p : Nat) (hle : cursor ≤ p) (q : Nat) :
    ¬ Match source p q := by
  intro hmatch
  obtain ⟨p, rfl⟩ := Nat.exists_eq_add_of_le' hle
  obtain ⟨q, rfl, hrest⟩ := hmatch.drop
  exact findFragment?_eq_none h p q hrest

/-- The segments of a rest are the segments from its position on. -/
theorem scans_segments (source : List Char) (cursor : Nat) :
    Scans source cursor (segments (source.drop cursor)) := by
  induction hlength : (source.drop cursor).length using Nat.strong_induction_on
    generalizing cursor with
  | _ length ih =>
  rw [segments]
  split
  · rename_i lead i after hfind
    obtain ⟨p, q, hmatch, hleft, rfl, rfl, rfl⟩ := findFragment?_eq_some hfind
    have hrest : Scans source (q + cursor + 2) (segments ((source.drop cursor).drop (q + 2))) := by
      rw [List.drop_drop, show cursor + (q + 2) = q + cursor + 2 by omega]
      refine ih _ ?_ _ rfl
      rw [← hlength, show q + cursor + 2 = cursor + (q + 2) by omega, ← List.drop_drop]
      exact length_of_findFragment? hfind
    have hlead : (source.drop cursor).take p = between source cursor (p + cursor) := by
      rw [between, Nat.add_sub_cancel]
    rw [hlead, interior_drop]
    refine .fragment (Nat.le_add_left cursor p) (match_drop.1 hmatch) ?_ hrest
    intro p' hle hlt q' hmatch'
    obtain ⟨p', rfl⟩ := Nat.exists_eq_add_of_le' hle
    obtain ⟨q', rfl, hrest'⟩ := hmatch'.drop
    exact hleft p' (by omega) q' hrest'
  · rename_i hfind
    split
    · rename_i hlong
      exact .tail (missing_of_findFragment? hfind) hlong
    · rename_i hshort
      exact .done (missing_of_findFragment? hfind) (Nat.not_le.1 hshort)

/-! ## What follows -/

/-- Is the segment literal text? -/
def Segment.isLiteral : Segment → Bool
  | .literal _ => true
  | .fragment _ => false

theorem Scans.ne_nil {source : List Char} {cursor : Nat} {segs : List Segment}
    (h : Scans source cursor segs) {text : List Char} (hmem : .literal text ∈ segs) :
    text ≠ [] := by
  induction h with
  | @fragment cursor p q segs _ _ _ _ ih =>
    rw [List.mem_append, List.mem_cons] at hmem
    rcases hmem with hlead | hfragment | hrest
    · rw [literalOf] at hlead
      split at hlead
      · cases hlead
      · rename_i hne
        obtain rfl := Segment.literal.inj (List.mem_singleton.1 hlead)
        rwa [List.isEmpty_iff] at hne
    · cases hfragment
    · exact ih hrest
  | @tail cursor _ hlong =>
    obtain rfl := Segment.literal.inj (List.mem_singleton.1 hmem)
    intro hnil
    rw [hnil] at hlong
    exact absurd hlong (by decide)
  | done => cases hmem

/-- After literal text there is a fragment or nothing. -/
theorem Scans.isChain {source : List Char} {cursor : Nat} {segs : List Segment}
    (h : Scans source cursor segs) :
    segs.IsChain fun a b => ¬ (a.isLiteral ∧ b.isLiteral) := by
  induction h with
  | @fragment cursor p q segs _ _ _ _ ih =>
    have hfragment : (.fragment (interior source p q) :: segs : List Segment).IsChain
        fun a b => ¬ (a.isLiteral ∧ b.isLiteral) := by
      cases segs with
      | nil => exact .singleton _
      | cons next segs => exact .cons_cons (by rintro ⟨⟨⟩, -⟩) ih
    rw [literalOf]
    split
    · exact hfragment
    · exact .cons_cons (by rintro ⟨-, ⟨⟩⟩) hfragment
  | tail => exact .singleton _
  | done => exact .nil

/-- The segments, put back together with the marks and with blanks around the interiors, are the
text. -/
inductive Written : List Segment → List Char → Prop where
  | nil : Written [] []
  | literal {text rest : List Char} {segs : List Segment} (h : Written segs rest) :
      Written (.literal text :: segs) (text ++ rest)
  | fragment {before interior after rest : List Char} {segs : List Segment}
      (blankBefore : ∀ c ∈ before, isBlank c) (blankAfter : ∀ c ∈ after, isBlank c)
      (h : Written segs rest) :
      Written (.fragment interior :: segs)
        (openMark ++ (before ++ interior ++ after) ++ closeMark ++ rest)

theorem Written.literalOf {rest : List Char} {segs : List Segment} (h : Written segs rest)
    (text : List Char) : Written (literalOf text ++ segs) (text ++ rest) := by
  rw [Source.literalOf]
  split
  · rename_i hempty
    rw [List.isEmpty_iff.1 hempty]
    exact h
  · exact .literal h

/-- A rest is the text before its first fragment, the fragment and what follows it. -/
theorem Match.drop_eq {source : List Char} {cursor p q : Nat} (h : Match source p q)
    (hle : cursor ≤ p) :
    source.drop cursor = between source cursor p ++
      (openMark ++ between source (p + 2) q ++ closeMark ++ source.drop (q + 2)) := by
  have hmark : ∀ {mark : List Char} {r : Nat}, StandsAt mark source r →
      source.drop r = mark ++ source.drop (r + mark.length) := by
    rintro mark r ⟨rest, hrest⟩
    rw [← List.drop_drop, ← hrest, List.drop_left]
  have hsplit : ∀ {r r' : Nat}, r ≤ r' →
      source.drop r = between source r r' ++ source.drop r' := by
    intro r r' hle
    obtain ⟨k, rfl⟩ := Nat.exists_eq_add_of_le hle
    rw [between, Nat.add_sub_cancel_left, ← List.drop_drop, List.take_append_drop]
  have hopen : source.drop p = openMark ++ source.drop (p + 2) := hmark h.opens
  have hclose : source.drop q = closeMark ++ source.drop (q + 2) := hmark h.closes
  rw [hsplit hle, hopen, hsplit h.le, hclose, List.append_assoc, List.append_assoc]

theorem Scans.written {source : List Char} {cursor : Nat} {segs : List Segment}
    (h : Scans source cursor segs) :
    ∃ text last, source.drop cursor = text ++ last ∧ Written segs text ∧ unitLength last ≤ 1 := by
  induction h with
  | @fragment cursor p q segs hle hmatch _ _ ih =>
    obtain ⟨text, last, hrest, hwritten, hlast⟩ := ih
    obtain ⟨before, after, htrim, hbefore, hafter⟩ := exists_trim (between source (p + 2) q)
    refine ⟨_, last, ?_, (Written.fragment hbefore hafter hwritten).literalOf _, hlast⟩
    rw [hmatch.drop_eq hle, hrest, htrim]
    simp only [interior, List.append_assoc]
  | @tail cursor _ _ =>
    refine ⟨source.drop cursor ++ [], [], ?_, .literal .nil, Nat.zero_le 1⟩
    rw [List.append_nil, List.append_nil]
  | @done cursor _ hshort => exact ⟨[], _, rfl, .nil, Nat.le_of_lt_succ hshort⟩

/-- **The segments are the leftmost, shortest fragments.** The segments of a source are exactly the
ones that are found by always taking the leftmost fragment from a position on, up to its first
closing mark. So no literal text is empty, no two of them stand side by side, and the segments make
up the source again but for a last code unit. -/
theorem segments_scanned (source : List Char) :
    (∀ segs, Scans source 0 segs ↔ segs = segments source) ∧
    (∀ text, .literal text ∈ segments source → text ≠ []) ∧
    ((segments source).IsChain fun a b => ¬ (a.isLiteral ∧ b.isLiteral)) ∧
    ∃ text last, source = text ++ last ∧ Written (segments source) text ∧ unitLength last ≤ 1 := by
  have hscans : Scans source 0 (segments source) := scans_segments source 0
  refine ⟨fun segs => ⟨fun h => h.unique hscans, ?_⟩, fun text => hscans.ne_nil, hscans.isChain,
    hscans.written⟩
  rintro rfl
  exact hscans

end Source

end Stencil
