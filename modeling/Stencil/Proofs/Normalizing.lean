import Mathlib.Data.List.SplitBy
import Stencil.Engine

/-!
# The normal form of a source

The normal form is made piece by piece: a maximal run of blanks leaves one blank or nothing,
whatever stands around it, and all other text stays. A source that has the shape of a normal form
is one.

* `Source.pieces`: the maximal runs of blanks, and the text between them
* `Source.remnant`, `Source.kept`: what is left of a run, and of a piece
* `Source.Normal`: the shape of a normal form
* `Source.normalize_eq_flatMap`: the law of the pieces
* `Source.normalizeString_projects`: the main statement
-/

namespace Stencil

open Stencil.Text

namespace Source

/-! ## Pieces -/

/-- Are both characters blanks, or neither of them? -/
def sameClass (a b : Char) : Bool :=
  isBlank a == isBlank b

/-- The pieces of a text: its maximal runs of blanks, and the text between them. -/
def pieces (s : List Char) : List (List Char) :=
  s.splitBy sameClass

/-- What is left of a run of blanks. Its first newlines go; after them, a run of two or more blanks
goes, and so does a single carriage return. -/
def remnant (run : List Char) : List Char :=
  match run.dropWhile (· == '\n') with
  | [c] => if c = '\r' then [] else [c]
  | _ => []

/-- What is left of a piece. Only blanks go. -/
def kept (piece : List Char) : List Char :=
  if piece.all isBlank then remnant piece else piece

/-- All characters of a piece are blanks, or none is. -/
theorem isBlank_eq_of_isChain {c : Char} {rest : List Char}
    (h : (c :: rest).IsChain fun a b => sameClass a b) : ∀ d ∈ rest, isBlank d = isBlank c := by
  induction rest generalizing c with
  | nil => simp
  | cons d rest ih =>
    rw [List.isChain_cons_cons] at h
    have hd : isBlank c = isBlank d := by simpa [sameClass] using h.1
    intro d' hd'
    rcases List.mem_cons.1 hd' with rfl | hd'
    · exact hd.symm
    · rw [hd]
      exact ih h.2 d' hd'

/-! ## The law of the pieces -/

theorem normalize_newline (rest : List Char) : normalize ('\n' :: rest) = normalize rest := by
  rw [normalize, if_pos rfl]

/-- A character that is not a blank stays. -/
theorem normalize_cons_of_not_blank {c : Char} (h : isBlank c = false) (rest : List Char) :
    normalize (c :: rest) = c :: normalize rest := by
  have hnewline : c ≠ '\n' := by
    rintro rfl
    exact absurd h (by decide)
  have hreturn : c ≠ '\r' := by
    rintro rfl
    exact absurd h (by decide)
  rw [normalize]
  simp [h, hnewline, hreturn]

theorem normalize_append_of_not_blank {text : List Char} (h : ∀ c ∈ text, isBlank c = false)
    (rest : List Char) : normalize (text ++ rest) = text ++ normalize rest := by
  induction text with
  | nil => rfl
  | cons c text ih =>
    obtain ⟨hc, htext⟩ := List.forall_mem_cons.1 h
    rw [List.cons_append, normalize_cons_of_not_blank hc, ih htext, List.cons_append]

/-- A blank with more blanks after it goes, and they go with it. -/
theorem normalize_cons_of_blanks {c : Char} (hc : c ≠ '\n') {run rest : List Char}
    (hne : run ≠ []) (hblank : ∀ d ∈ c :: run, isBlank d = true)
    (hrest : ∀ d ∈ rest.head?, isBlank d = false) :
    normalize (c :: (run ++ rest)) = normalize rest := by
  obtain ⟨d, run, rfl⟩ := List.exists_cons_of_ne_nil hne
  obtain ⟨hc', hrun⟩ := List.forall_mem_cons.1 hblank
  have hhead : isBlank d = true := hrun d List.mem_cons_self
  have hskip : trimStart (d :: run ++ rest) = rest := by
    rw [trimStart, List.dropWhile_append_of_pos hrun]
    cases rest with
    | nil => rfl
    | cons e rest => exact List.dropWhile_cons_of_neg (by simpa using hrest e rfl)
  rw [normalize, if_neg hc, if_pos (by simp [hc', hhead]), hskip]

/-- A maximal run of blanks leaves its remnant, and the text after it is not touched. -/
theorem normalize_append_of_blank {run : List Char} (h : ∀ c ∈ run, isBlank c = true)
    {rest : List Char} (hrest : ∀ d ∈ rest.head?, isBlank d = false) :
    normalize (run ++ rest) = remnant run ++ normalize rest := by
  induction run with
  | nil => rfl
  | cons c run ih =>
    have hrun := (List.forall_mem_cons.1 h).2
    by_cases hc : c = '\n'
    · have hdrop : remnant ('\n' :: run) = remnant run := by simp [remnant]
      rw [hc, List.cons_append, normalize_newline, ih hrun, hdrop]
    · have hfirst : (c :: run).dropWhile (· == '\n') = c :: run :=
        List.dropWhile_cons_of_neg (by simpa using hc)
      cases run with
      | cons d run =>
        have hnothing : remnant (c :: d :: run) = [] := by rw [remnant, hfirst]
        rw [List.cons_append, normalize_cons_of_blanks hc (List.cons_ne_nil d run) h hrest,
          hnothing, List.nil_append]
      | nil =>
        have hlast : rest.head?.any isBlank = false := by
          cases rest with
          | nil => rfl
          | cons e rest => exact hrest e rfl
        rw [List.singleton_append, normalize, if_neg hc, remnant, hfirst]
        by_cases hreturn : c = '\r' <;> simp [hlast, hreturn]

/-- Pieces that alternate between runs of blanks and other text are treated one by one. -/
theorem normalize_flatten {ps : List (List Char)} (hne : [] ∉ ps)
    (hsame : ∀ p ∈ ps, p.IsChain fun a b => sameClass a b)
    (hother : ps.IsChain fun p q => ∃ hp hq, sameClass (p.getLast hp) (q.head hq) = false) :
    normalize ps.flatten = ps.flatMap kept := by
  induction ps with
  | nil => simp [normalize]
  | cons p ps ih =>
    rw [List.mem_cons, not_or] at hne
    obtain ⟨hp, hps⟩ := List.forall_mem_cons.1 hsame
    have hrest := ih hne.2 hps hother.tail
    obtain ⟨c, p, rfl⟩ := List.exists_cons_of_ne_nil (Ne.symm hne.1)
    have hall : ∀ d ∈ c :: p, isBlank d = isBlank c :=
      List.forall_mem_cons.2 ⟨rfl, isBlank_eq_of_isChain hp⟩
    rw [List.flatten_cons, List.flatMap_cons, ← hrest]
    cases hc : isBlank c with
    | false =>
      have htext : ∀ d ∈ c :: p, isBlank d = false := fun d hd => (hall d hd).trans hc
      have hkept : kept (c :: p) = c :: p := by simp [kept, hc]
      rw [normalize_append_of_not_blank htext, hkept]
    | true =>
      have hrun : ∀ d ∈ c :: p, isBlank d = true := fun d hd => (hall d hd).trans hc
      have hkept : kept (c :: p) = remnant (c :: p) := by
        rw [kept, if_pos (List.all_eq_true.2 hrun)]
      -- the piece after a run of blanks starts with no blank
      have hend : ∀ d ∈ ps.flatten.head?, isBlank d = false := by
        cases ps with
        | nil => simp
        | cons q ps =>
          obtain ⟨_, hq, hdiffer⟩ := (List.isChain_cons_cons.1 hother).1
          obtain ⟨d, q, rfl⟩ := List.exists_cons_of_ne_nil hq
          have hlast := hrun _ (List.getLast_mem (List.cons_ne_nil c p))
          simpa [sameClass, hlast] using hdiffer
      rw [normalize_append_of_blank hrun hend, hkept]

/-- Every maximal run of blanks leaves its remnant, and all other text stays. -/
theorem normalize_eq_flatMap (s : List Char) : normalize s = (pieces s).flatMap kept := by
  have hlaw := normalize_flatten (List.nil_notMem_splitBy sameClass s)
    (fun _ => List.isChain_of_mem_splitBy) (List.isChain_getLast_head_splitBy sameClass s)
  rwa [List.flatten_splitBy] at hlaw

/-! ## Normal forms -/

/-- The shape of a normal form: no newline, no carriage return, and no two blanks side by side. -/
structure Normal (s : List Char) : Prop where
  noNewline : '\n' ∉ s
  noReturn : '\r' ∉ s
  apart : s.IsChain fun a b => ¬ (isBlank a = true ∧ isBlank b = true)

theorem Normal.cons {c : Char} {s : List Char} (hnewline : c ≠ '\n') (hreturn : c ≠ '\r')
    (hapart : ∀ d ∈ s.head?, ¬ (isBlank c = true ∧ isBlank d = true)) (h : Normal s) :
    Normal (c :: s) where
  noNewline := by simpa using ⟨hnewline.symm, h.noNewline⟩
  noReturn := by simpa using ⟨hreturn.symm, h.noReturn⟩
  apart := List.isChain_cons.2 ⟨hapart, h.apart⟩

theorem Normal.tail {c : Char} {s : List Char} (h : Normal (c :: s)) : Normal s where
  noNewline hmem := h.noNewline (List.mem_cons_of_mem c hmem)
  noReturn hmem := h.noReturn (List.mem_cons_of_mem c hmem)
  apart := h.apart.tail

theorem normal_normalize (s : List Char) : Normal (normalize s) := by
  fun_induction normalize s with
  | case1 => exact ⟨List.not_mem_nil, List.not_mem_nil, .nil⟩
  | case2 _ ih => exact ih
  | case3 _ _ _ _ ih => exact ih
  | case4 _ _ _ ih => exact ih
  | case5 c rest hnewline hrun hreturn ih =>
    refine ih.cons hnewline hreturn ?_
    rintro d hd ⟨hc, hblank⟩
    -- a blank that stays has no blank after it, so the character after it stays, too
    cases rest with
    | nil => simp [normalize] at hd
    | cons e rest =>
      have he : isBlank e = false := by simpa [hc] using hrun
      rw [normalize_cons_of_not_blank he] at hd
      obtain rfl : e = d := by simpa using hd
      rw [he] at hblank
      cases hblank

theorem normalize_of_normal {s : List Char} (h : Normal s) : normalize s = s := by
  induction s with
  | nil => simp [normalize]
  | cons c rest ih =>
    have hnewline : c ≠ '\n' := by
      rintro rfl
      exact h.noNewline List.mem_cons_self
    have hreturn : c ≠ '\r' := by
      rintro rfl
      exact h.noReturn List.mem_cons_self
    have hrun : (isBlank c && rest.head?.any isBlank) = false := by
      cases rest with
      | nil => simp
      | cons d rest => simpa using (List.isChain_cons_cons.1 h.apart).1
    rw [normalize, if_neg hnewline, hrun, if_neg Bool.false_ne_true, if_neg hreturn, ih h.tail]

theorem normalize_eq_self_iff {s : List Char} : normalize s = s ↔ Normal s :=
  ⟨fun h => h ▸ normal_normalize s, normalize_of_normal⟩

theorem normalize_normalize (s : List Char) : normalize (normalize s) = normalize s :=
  normalize_of_normal (normal_normalize s)

theorem toList_normalizeString (source : String) :
    (normalizeString source).toList = normalize source.toList := by
  rw [normalizeString, String.toList_ofList]

theorem normalizeString_normalizeString (source : String) :
    normalizeString (normalizeString source) = normalizeString source := by
  rw [← String.toList_inj, toList_normalizeString, toList_normalizeString, normalize_normalize]

end Source

/-- A template is read the same from its normal form. -/
theorem Environment.compile_normalizeString (env : Environment) (source : String) :
    env.compile (Source.normalizeString source) = env.compile source := by
  rw [compile, compile, Source.normalizeString_normalizeString]

namespace Source

/-- **Normal forms are made run by run.** Every maximal run of blanks leaves its remnant and all
other text stays. There is no newline, no carriage return and no two blanks side by side in a normal
form, the texts of this shape are their own normal form, and a template that is read from the source
that a template was read from is that template again. -/
theorem normalizeString_projects (env : Environment) (source : String) :
    (normalizeString source).toList = (pieces source.toList).flatMap kept ∧
    Normal (normalizeString source).toList ∧
    (normalizeString source = source ↔ Normal source.toList) ∧
    normalizeString (normalizeString source) = normalizeString source ∧
    ((env.compile source).bind fun t => env.compile t.source) = env.compile source := by
  refine ⟨?law, ?shape, ?fixed, normalizeString_normalizeString source, ?compile⟩
  case law => rw [toList_normalizeString, normalize_eq_flatMap]
  case shape =>
    rw [toList_normalizeString]
    exact normal_normalize source.toList
  case fixed =>
    rw [← String.toList_inj, toList_normalizeString]
    exact normalize_eq_self_iff
  case compile =>
    cases h : env.compile source with
    | error e => rfl
    | ok t =>
      have hsource : t.source = normalizeString source := by
        rw [Environment.compile] at h
        cases hbody : statements (normalizeString source).toList with
        | error e =>
          rw [hbody] at h
          cases h
        | ok body =>
          rw [hbody] at h
          cases h
          rfl
      show env.compile t.source = .ok t
      rw [hsource, env.compile_normalizeString, h]

/-- A newline goes before the run is looked at, so the blank after it stays and the one before it
does not. -/
example : normalize "a\n b \nc\r".toList = "a bc".toList := by
  rw [normalize_eq_flatMap]
  decide

end Source

end Stencil
