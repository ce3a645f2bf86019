import Stencil.Proofs.Lexing.Basic
import Stencil.Proofs.Normalizing
import Stencil.Proofs.Reading.Basic
import Stencil.Proofs.Scanning

/-!
# Sources put together

A source that is put together from literal texts and fragments is its own normal form and has these
texts and fragments as its segments.

* `Source.Normal.append`: normal forms put after each other
* `Source.segments_append`: the first fragment of a source, and what follows it
* `Source.IsLiteral`, `Source.IsInterior`: what can stand between fragments, and inside one
* `Source.Stretch`: a literal text and the fragment behind it, with the step that it is
* `Step.ofSource_stretches`: the steps of a source that is put together
* `Environment.compile_stretches`: the template that is read from it
-/

namespace Stencil

open Stencil.Text

namespace Source

/-! ## Normal forms -/

section

variable {s t : List Char}

instance : DecidablePred Normal := fun s =>
  decidable_of_iff
    ('\n' ∉ s ∧ '\r' ∉ s ∧ s.IsChain fun a b => ¬ (isBlank a = true ∧ isBlank b = true))
    ⟨fun ⟨hnewline, hreturn, hapart⟩ => ⟨hnewline, hreturn, hapart⟩,
      fun h => ⟨h.noNewline, h.noReturn, h.apart⟩⟩

/-- Normal forms make up one if there are no blanks on both sides where they meet. -/
theorem Normal.append (hs : Normal s) (ht : Normal t)
    (h : (∀ c ∈ s.getLast?, isBlank c = false) ∨ ∀ c ∈ t.head?, isBlank c = false) :
    Normal (s ++ t) where
  noNewline := by simp [hs.noNewline, ht.noNewline]
  noReturn := by simp [hs.noReturn, ht.noReturn]
  apart := by
    refine List.isChain_append.2 ⟨hs.apart, ht.apart, fun a ha b hb hblank => ?_⟩
    rcases h with h | h
    · cases hblank.1.symm.trans (h a ha)
    · cases hblank.2.symm.trans (h b hb)

/-- A text without blanks is a normal form. -/
theorem normal_of_not_blank (h : ∀ c ∈ s, isBlank c = false) : Normal s where
  noNewline hmem := by cases h _ hmem
  noReturn hmem := by cases h _ hmem
  apart := by
    induction s with
    | nil => exact .nil
    | cons c s ih =>
      obtain ⟨hc, hs⟩ := List.forall_mem_cons.1 h
      refine List.isChain_cons.2 ⟨fun d _ hblank => ?_, ih hs⟩
      cases hblank.1.symm.trans hc

end

/-! ## Segments -/

section

variable {lead inside after : List Char}

theorem splitAtClose?_append (h : '%' ∉ inside) (after : List Char) :
    splitAtClose? (inside ++ (closeMark ++ after)) = some (inside, after) := by
  induction inside with
  | nil => rfl
  | cons c inside ih =>
    rw [List.mem_cons, not_or] at h
    rw [List.cons_append, splitAtClose?, ih h.2, Option.map_some]
    rintro _ rfl
    exact absurd rfl h.1

theorem fragmentAt?_of_not_prefix {s : List Char} (h : ¬ openMark <+: s) :
    fragmentAt? s = none := by
  unfold fragmentAt?
  split
  · exact absurd (List.prefix_append openMark _) h
  · rfl

/-- No fragment is opened in a literal text, and none by its last character. -/
theorem not_prefix_of_absent {c : Char} (h : ¬ openMark <:+: c :: lead) (rest : List Char) :
    ¬ openMark <+: c :: (lead ++ (openMark ++ rest)) := by
  rintro ⟨after, hafter⟩
  cases lead with
  | nil => cases hafter
  | cons d lead =>
    cases hafter
    exact h (List.prefix_append openMark lead).isInfix

/-- The first fragment stands behind the literal text. -/
theorem findFragment?_append (hlead : ¬ openMark <:+: lead) (hinside : '%' ∉ inside)
    (hline : (trim inside).any isLineSeparator = false) (after : List Char) :
    findFragment? (lead ++ (openMark ++ (inside ++ (closeMark ++ after)))) =
      some (lead, trim inside, after) := by
  induction lead with
  | nil =>
    have hfragment : fragmentAt? (openMark ++ (inside ++ (closeMark ++ after))) =
        some (trim inside, after) := by
      simp [openMark, fragmentAt?, splitAtClose?_append hinside, hline]
    rw [openMark, List.cons_append] at hfragment
    rw [List.nil_append, openMark, List.cons_append, findFragment?, hfragment]
  | cons c lead ih =>
    have hnone := fragmentAt?_of_not_prefix
      (not_prefix_of_absent hlead (inside ++ (closeMark ++ after)))
    have hrest := ih fun hmark => hlead (hmark.trans (List.suffix_cons c lead).isInfix)
    rw [List.cons_append, findFragment?, hnone, hrest]
    rfl

/-- The segments of a source begin with its first literal text, if it is not empty, and the first
fragment. -/
theorem segments_append (hlead : ¬ openMark <:+: lead) (hinside : '%' ∉ inside)
    (hline : (trim inside).any isLineSeparator = false) (after : List Char) :
    segments (lead ++ (openMark ++ (inside ++ (closeMark ++ after)))) =
      literalOf lead ++ .fragment (trim inside) :: segments after := by
  rw [segments]
  split
  · rename_i hfind
    rw [findFragment?_append hlead hinside hline] at hfind
    cases hfind
    rfl
  · rename_i hfind
    rw [findFragment?_append hlead hinside hline] at hfind
    cases hfind

end

/-! ## Stretches -/

/-- The text can stand between two fragments, and is not changed there. -/
structure IsLiteral (text : List Char) : Prop where
  normal : Normal text
  noMark : ¬ openMark <:+: text

theorem isLiteral_nil : IsLiteral [] :=
  ⟨normal_of_not_blank nofun, by decide⟩

/-- The text can stand in a fragment, with one blank on each side. -/
structure IsInterior (text : List Char) : Prop where
  normal : Normal (' ' :: (text ++ [' ']))
  noMark : '%' ∉ text
  oneLine : text.any isLineSeparator = false

theorem IsInterior.trim_eq {text : List Char} (h : IsInterior text) :
    trim (' ' :: (text ++ [' '])) = text := by
  have hblank : ∀ c ∈ [' '], isBlank c = true := List.forall_mem_singleton.2 rfl
  have hapart := h.normal.apart
  have hne : text ≠ [] := by
    rintro rfl
    exact (List.isChain_cons_cons.1 hapart).1 ⟨rfl, rfl⟩
  refine trim_append hblank (fun c hc => ?head) (fun c hc => ?last) hblank hne
  case head =>
    have hhead : c ∈ (text ++ [' ']).head? := by
      rwa [List.head?_append, Option.or_of_isSome (List.isSome_head?.2 hne)]
    refine Bool.eq_false_iff.2 fun hc => (List.isChain_cons.1 hapart).1 c hhead ⟨rfl, hc⟩
  case last =>
    have happend := (List.isChain_append.1 hapart.tail).2.2
    exact Bool.eq_false_iff.2 fun hblank => happend c hc ' ' rfl ⟨hblank, rfl⟩

/-- A literal text and the fragment behind it, with the step that the fragment is. -/
structure Stretch where
  lead : List Char
  interior : List Char
  step : Step

namespace Stretch

/-- How the stretch is written, with one blank on each side of the interior. -/
def text (p : Stretch) : List Char :=
  p.lead ++ (openMark ++ (' ' :: (p.interior ++ [' ']) ++ closeMark))

/-- The steps of a literal text: none if it is empty. -/
def literalSteps (text : List Char) : List Step :=
  if text.isEmpty then [] else [.literal (String.ofList text)]

/-- The steps of the stretch. -/
def steps (p : Stretch) : List Step :=
  literalSteps p.lead ++ [p.step]

/-- Each part can stand where it does, and the fragment is the step. -/
structure Valid (p : Stretch) : Prop where
  lead : IsLiteral p.lead
  interior : IsInterior p.interior
  step : Step.ofInterior p.interior = .ok p.step

end Stretch

variable {ps : List Stretch}

/-- A fragment with no literal text before it. -/
theorem Stretch.valid_of_interior {interior : List Char} {step : Step} (h : IsInterior interior)
    (hstep : Step.ofInterior interior = .ok step) : Stretch.Valid ⟨[], interior, step⟩ :=
  ⟨isLiteral_nil, h, hstep⟩

theorem Stretch.Valid.normal_append {p : Stretch} (h : p.Valid) {rest : List Char}
    (hrest : Normal rest) : Normal (p.text ++ rest) := by
  have hinner : Normal (openMark ++ (' ' :: (p.interior ++ [' ']) ++ closeMark)) := by
    refine Normal.append (by decide) (h.interior.normal.append (by decide) ?_) ?_
    · exact .inr fun c hc => by cases hc; rfl
    · exact .inl fun c hc => by cases hc; rfl
  refine (h.lead.normal.append hinner ?_).append hrest ?_
  · exact .inr fun c hc => by cases hc; rfl
  · refine .inl fun c hc => ?_
    rw [← List.append_assoc, ← List.append_assoc, List.getLast?_append] at hc
    cases hc
    rfl

theorem normal_stretches (h : ∀ p ∈ ps, p.Valid) : Normal (ps.flatMap Stretch.text) := by
  induction ps with
  | nil => exact normal_of_not_blank nofun
  | cons p ps ih =>
    obtain ⟨hp, hps⟩ := List.forall_mem_cons.1 h
    rw [List.flatMap_cons]
    exact hp.normal_append (ih hps)

end Source

open Source

/-- An interior without braces is the expression that its tokens are. -/
theorem Step.ofInterior_expr {interior : List Char} {ts : List Token} {e : Expr}
    (htokens : Lexer.tokens interior = .ok ts) (hbraces : ts.any Token.isBrace = false)
    (hread : Reader.standalone ts = .ok e) : Step.ofInterior interior = .ok (.expr e) := by
  rw [Step.ofInterior, htokens, Except.ok_bind, Step.ofTokens, hbraces,
    if_neg Bool.false_ne_true, hread]
  rfl

theorem Step.ofInterior_close : Step.ofInterior ['\x7d'] = .ok (.control [.close]) := by
  have htokens : Lexer.tokens ['\x7d'] = .ok [.mark .closeBrace] := by decide +kernel
  rw [Step.ofInterior, htokens]
  rfl

theorem mapM_literalOf (text : List Char) :
    (literalOf text).mapM Step.ofSegment = .ok (Stretch.literalSteps text) := by
  unfold literalOf Stretch.literalSteps
  split <;> rfl

/-- The steps of a source are those of its stretches. -/
theorem Step.ofSource_stretches {ps : List Stretch} (h : ∀ p ∈ ps, p.Valid) :
    Step.ofSource (ps.flatMap Stretch.text) = .ok (ps.flatMap Stretch.steps) := by
  unfold Step.ofSource
  induction ps with
  | nil =>
    rw [List.flatMap_nil, segments]
    rfl
  | cons p ps ih =>
    obtain ⟨hp, hps⟩ := List.forall_mem_cons.1 h
    have hinterior := hp.interior
    have hmark : '%' ∉ ' ' :: (p.interior ++ [' ']) := by simp [hinterior.noMark]
    have hline : (trim (' ' :: (p.interior ++ [' ']))).any isLineSeparator = false := by
      rw [hinterior.trim_eq, hinterior.oneLine]
    have hsegments := segments_append hp.lead.noMark hmark hline (ps.flatMap Stretch.text)
    rw [hinterior.trim_eq] at hsegments
    rw [List.flatMap_cons, List.flatMap_cons, Stretch.text, List.append_assoc, List.append_assoc,
      List.append_assoc, hsegments, List.mapM_append, mapM_literalOf, List.mapM_cons, ih hps,
      Step.ofSegment, hp.step, Stretch.steps, List.append_assoc]
    rfl

/-- A template is read from stretches as it is built from their steps. -/
theorem Environment.compile_stretches (env : Environment) {ps : List Stretch} {body : List Stmt}
    (h : ∀ p ∈ ps, p.Valid) (hbuild : build (ps.flatMap Stretch.steps) = .ok body) :
    env.compile (String.ofList (ps.flatMap Stretch.text)) =
      .ok { source := String.ofList (ps.flatMap Stretch.text), environment := env,
            body := body } := by
  have hnormal : normalizeString (String.ofList (ps.flatMap Stretch.text)) =
      String.ofList (ps.flatMap Stretch.text) := by
    rw [normalizeString, String.toList_ofList, normalize_of_normal (normal_stretches h)]
  rw [compile, hnormal, String.toList_ofList, statements, Step.ofSource_stretches h]
  exact Except.bind_eq_ok_iff.2 ⟨body, hbuild, rfl⟩

end Stencil
