import Stencil.Proofs.Lexing.Joined
import Stencil.Proofs.Reading.Blocks
import Stencil.Proofs.Stretches

/-!
# Reading loops over an array

Three templates that go through an array: over its items, over its keys, and over the numbers up to
its length. The name of the array may be any variable, and the body holds any literal texts that are
read as they are.

* `loopSource`, `loopOf`, `loopIn`, `loopUp`: the templates
* `Surrounds`: the texts around a name in a fragment
* `Environment.compile_loopSource`: a loop is read as its head and its body
* `Environment.compile_loopOf`, `Environment.compile_loopIn`, `Environment.compile_loopUp`: what the
  templates are read as
-/

namespace Stencil

open Stencil.Text Source

/-! ## Sources -/

/-- A loop with the head, around a literal text, an element that is written, and another literal
text. -/
def loopSource (head before element after : String) : String :=
  "<% " ++ head ++ " %>" ++ before ++ "<% " ++ element ++ " %>" ++ after ++ "<% \x7d %>"

/-- A loop over the items of an array. -/
def loopOf (a before after : String) : String :=
  loopSource ("for (const x of " ++ a ++ ") \x7b") before "x" after

/-- A loop over the keys of an array. -/
def loopIn (a before after : String) : String :=
  loopSource ("for (const k in " ++ a ++ ") \x7b") before (a ++ "[k]") after

/-- A loop that counts up to the length of an array. -/
def loopUp (a before after : String) : String :=
  loopSource ("for (var i = 0; i < " ++ a ++ ".length; i++) \x7b") before (a ++ "[i]") after

/-- The name can be written down as a variable. -/
structure IsIdentifier (name : String) : Prop where
  spelled : ∃ c rest, name = String.ofList (c :: rest) ∧ IsNameStart c ∧ ∀ d ∈ rest, IsNamePart d
  isVariable : IsVariable name

/-- The statements of a literal text: none if it is empty. -/
def literalStmts (text : String) : List Stmt :=
  if text = "" then [] else [.raw text]

/-- The body of a loop: an expression that is emitted between two literal texts. -/
def loopBody (before : String) (e : Expr) (after : String) : List Stmt :=
  literalStmts before ++ .emit e :: literalStmts after

/-- The stretches of a loop, with the steps that its fragments are. -/
def loopStretches (forHead : ForHead) (e : Expr) (head before element after : String) :
    List Stretch :=
  [⟨[], head.toList, .control [.forBlock forHead]⟩, ⟨before.toList, element.toList, .expr e⟩,
    ⟨after.toList, ['\x7d'], .control [.close]⟩]

theorem ofList_loopStretches (forHead : ForHead) (e : Expr) (head before element after : String) :
    String.ofList ((loopStretches forHead e head before element after).flatMap Stretch.text) =
      loopSource head before element after := by
  rw [← String.toList_inj]
  simp [loopStretches, loopSource, Stretch.text, openMark, closeMark]

theorem literalSteps_toList (text : String) :
    Stretch.literalSteps text.toList = if text = "" then [] else [.literal text] := by
  simp [Stretch.literalSteps]

theorem build_loopStretches (forHead : ForHead) (e : Expr) (head before element after : String) :
    build ((loopStretches forHead e head before element after).flatMap Stretch.steps) =
      .ok [Builder.loop forHead (loopBody before e after)] := by
  simp only [loopStretches, List.flatMap_cons, List.flatMap_nil, Stretch.steps,
    literalSteps_toList, loopBody, literalStmts]
  split <;> split <;> rfl

/-- A loop is read as its head and its body. -/
theorem Environment.compile_loopSource (env : Environment) {head before element after : String}
    {forHead : ForHead} {e : Expr} (hbefore : IsLiteral before.toList)
    (hafter : IsLiteral after.toList) (hhead : IsInterior head.toList)
    (helement : IsInterior element.toList)
    (hloop : Step.ofInterior head.toList = .ok (.control [.forBlock forHead]))
    (he : Step.ofInterior element.toList = .ok (.expr e)) :
    env.compile (loopSource head before element after) =
      .ok { source := loopSource head before element after, environment := env,
            body := [Builder.loop forHead (loopBody before e after)] } := by
  have hclose : IsInterior ['\x7d'] := ⟨by decide, by decide, rfl⟩
  have hvalid : ∀ p ∈ loopStretches forHead e head before element after, p.Valid := by
    simp only [loopStretches, List.forall_mem_cons, List.not_mem_nil, false_implies,
      implies_true, and_true]
    exact ⟨Stretch.valid_of_interior hhead hloop, ⟨hbefore, helement, he⟩, hafter, hclose,
      Step.ofInterior_close⟩
  have hcompile := env.compile_stretches hvalid (build_loopStretches ..)
  rwa [ofList_loopStretches] at hcompile

/-! ## Heads and elements -/

/-- An expression is read from its tokens. -/
theorem Step.ofTokens_tokens {e : Expr} (h : e.Printable)
    (hlength : e.tokens.length < nestingLimit) : Step.ofTokens e.tokens = .ok (.expr e) := by
  have hderives : Derives 0 e e.tokens := (derives_tokens h).of_le (Nat.zero_le _)
  have hbraces : ¬ e.tokens.any Token.isBrace = true :=
    fun hany => any_isBrace_iff.1 hany hderives.braces
  rw [Step.ofTokens, if_neg hbraces, (Reader.standalone_of_derives hderives).2 hlength]
  rfl

section

variable {a : String} (ha : IsIdentifier a)

include ha

theorem IsIdentifier.isNamePart : ∀ c ∈ a.toList, IsNamePart c := by
  obtain ⟨c, rest, rfl, hc, hrest⟩ := ha.spelled
  rw [String.toList_ofList]
  exact List.forall_mem_cons.2 ⟨Lexer.isNamePart_of_isNameStart hc, hrest⟩

theorem IsIdentifier.not_isBlank : ∀ c ∈ a.toList, isBlank c = false :=
  fun c hc => Lexer.not_isBlank_of_isNamePart (ha.isNamePart c hc)

theorem IsIdentifier.ne_nil : a.toList ≠ [] := by
  obtain ⟨c, rest, rfl, -⟩ := ha.spelled
  rw [String.toList_ofList]
  exact List.cons_ne_nil c rest

end

/-- The texts can stand around a name in a fragment, and have the tokens. -/
structure Surrounds (front back : String) (ts us : List Token) : Prop where
  tokensFront : front = "" ∧ ts = [] ∨
    ∃ text, front = text ++ " " ∧ Lexer.tokens text.toList = .ok ts
  tokensBack : Lexer.tokens back.toList = .ok us
  ends : back.toList.head?.any Lexer.continuesName = false
  normalFront : Normal (' ' :: front.toList)
  normalBack : Normal (back.toList ++ [' '])
  noMark : '%' ∉ front.toList ++ back.toList
  oneLine : (front.toList ++ back.toList).any isLineSeparator = false

namespace Surrounds

variable {a front back : String} {ts us : List Token} (h : Surrounds front back ts us)
  (ha : IsIdentifier a)

include h

theorem not_continuesName : ∀ c ∈ back.toList.head?, Lexer.continuesName c = false := by
  intro c hc
  have hends := h.ends
  rwa [Option.mem_def.1 hc, Option.any_some] at hends

include ha

theorem isInterior : IsInterior (front ++ a ++ back).toList := by
  rw [String.toList_append, String.toList_append]
  refine ⟨?normal, ?noMark, ?oneLine⟩
  case normal =>
    have hname : Normal (a.toList ++ (back.toList ++ [' '])) :=
      (normal_of_not_blank ha.not_isBlank).append h.normalBack
        (.inl fun c hc => ha.not_isBlank c (List.mem_of_getLast? hc))
    have hall := h.normalFront.append hname (.inr fun c hc => ?_)
    · simpa using hall
    · rw [List.head?_append, Option.or_of_isSome (List.isSome_head?.2 ha.ne_nil)] at hc
      exact ha.not_isBlank c (List.mem_of_mem_head? hc)
  case noMark =>
    have hpercent : '%' ∉ a.toList := fun hmem => by
      rcases ha.isNamePart _ hmem with h | h | h <;> cases h
    have hmark := h.noMark
    simp only [List.mem_append, not_or] at hmark ⊢
    exact ⟨⟨hmark.1, hpercent⟩, hmark.2⟩
  case oneLine =>
    have hseparators : a.toList.any isLineSeparator = false := by
      refine List.any_eq_false.2 fun c hc hseparator => ?_
      cases (ha.not_isBlank c hc).symm.trans (isBlank_of_isLineSeparator hseparator)
    have hline := h.oneLine
    simp only [List.any_append, Bool.or_eq_false_iff] at hline ⊢
    exact ⟨⟨hline.1, hseparators⟩, hline.2⟩

theorem tokens_eq : Lexer.tokens (front ++ a ++ back).toList = .ok (ts ++ .name a :: us) := by
  obtain ⟨c, rest, rfl, hc, hrest⟩ := ha.spelled
  rcases h.tokensFront with ⟨rfl, rfl⟩ | ⟨text, rfl, htext⟩
  · have hlist : ("" ++ String.ofList (c :: rest) ++ back).toList =
        c :: (rest ++ back.toList) := by simp
    rw [hlist]
    exact Lexer.tokens_name_append hc hrest h.not_continuesName h.tokensBack
  · have hlist : (text ++ " " ++ String.ofList (c :: rest) ++ back).toList =
        text.toList ++ ' ' :: c :: (rest ++ back.toList) := by simp
    rw [hlist]
    exact Lexer.tokens_around_name hc hrest h.not_continuesName h.tokensBack htext

theorem ofInterior_blockOp {op : BlockOp} (htokens : op.tokens = ts ++ .name a :: us)
    (hop : op.Printable) (hne : op ≠ .empty) (hlength : ts.length + us.length < nestingLimit) :
    Step.ofInterior (front ++ a ++ back).toList = .ok (.control [op]) := by
  rw [Step.ofInterior, h.tokens_eq ha, ← htokens]
  refine Step.ofTokens_blockOp hop hne ?_
  rw [htokens, List.length_append, List.length_cons]
  omega

end Surrounds

/-- An element that begins with the name. -/
theorem IsIdentifier.element {a back : String} {us : List Token} (ha : IsIdentifier a)
    (h : Surrounds "" back [] us) {e : Expr} (htokens : e.tokens = .name a :: us)
    (he : e.Printable) (hlength : us.length + 1 < nestingLimit) :
    IsInterior (a ++ back).toList ∧ Step.ofInterior (a ++ back).toList = .ok (.expr e) := by
  have hinterior := h.isInterior ha
  have hread := h.tokens_eq ha
  rw [String.empty_append] at hinterior hread
  refine ⟨hinterior, ?_⟩
  rw [Step.ofInterior, hread, List.nil_append, ← htokens]
  refine Step.ofTokens_tokens he ?_
  rwa [htokens, List.length_cons]

/-! ## The three loops -/

section

variable (env : Environment) {a before after : String} (ha : IsIdentifier a)
  (hbefore : IsLiteral before.toList) (hafter : IsLiteral after.toList)

include ha hbefore hafter

/-- A loop over values or keys is read as its head and its body. -/
theorem Environment.compile_each {front name element : String} {kind : EachKind} {e : Expr}
    (hfront : Surrounds front ") \x7b"
      [.name "for", .mark .openParen, .name "const", .name name, .name kind.word]
      [.mark .closeParen, .mark .openBrace])
    (hname : IsVariable name) (helement : IsInterior element.toList)
    (he : Step.ofInterior element.toList = .ok (.expr e)) :
    env.compile (loopSource (front ++ a ++ ") \x7b") before element after) =
      .ok { source := loopSource (front ++ a ++ ") \x7b") before element after,
            environment := env,
            body := [.forEach ⟨some .const, name⟩ kind (.var a) (loopBody before e after)] } := by
  have hop : (BlockOp.forBlock (.each ⟨some .const, name⟩ kind (.var a))).Printable :=
    ⟨hname, .var ha.isVariable⟩
  have hlength : 5 + 2 < nestingLimit := by decide
  exact env.compile_loopSource hbefore hafter (hfront.isInterior ha) helement
    (hfront.ofInterior_blockOp ha rfl hop nofun hlength) he

theorem Environment.compile_loopOf :
    env.compile (loopOf a before after) =
      .ok { source := loopOf a before after, environment := env,
            body := [.forEach ⟨some .const, "x"⟩ .values (.var a)
              (loopBody before (.var "x") after)] } := by
  have hread : Step.ofInterior "x".toList = .ok (.expr (.var "x")) := by
    have htokens : Lexer.tokens "x".toList = .ok (Expr.var "x").tokens := by decide +kernel
    rw [Step.ofInterior, htokens]
    exact Step.ofTokens_tokens (.var (by decide)) (by decide)
  refine env.compile_each ha hbefore hafter ⟨.inr ⟨"for (const x of", rfl, ?_⟩, ?_, by decide,
    by decide, by decide, by decide, by decide⟩ (by decide) ⟨by decide, by decide, by decide⟩ hread
  all_goals decide +kernel

theorem Environment.compile_loopIn :
    env.compile (loopIn a before after) =
      .ok { source := loopIn a before after, environment := env,
            body := [.forEach ⟨some .const, "k"⟩ .keys (.var a)
              (loopBody before (.item (.var a) (.var "k")) after)] } := by
  have helement : Surrounds "" "[k]" [] [.mark .openBracket, .name "k", .mark .closeBracket] :=
    ⟨.inl ⟨rfl, rfl⟩, by decide +kernel, by decide, by decide, by decide, by decide, by decide⟩
  have he : (Expr.item (.var a) (.var "k")).Printable :=
    .item (.var ha.isVariable) (.var (by decide))
  obtain ⟨hinterior, hread⟩ := ha.element helement rfl he (by decide)
  refine env.compile_each ha hbefore hafter ⟨.inr ⟨"for (const k in", rfl, ?_⟩, ?_, by decide,
    by decide, by decide, by decide, by decide⟩ (by decide) hinterior hread
  all_goals decide +kernel

theorem Environment.compile_loopUp :
    env.compile (loopUp a before after) =
      .ok { source := loopUp a before after, environment := env,
            body := [.forLoop (some (.declare .var [("i", some (.const (.number 0)))]))
              (some (.binary (.compare .lt) (.var "i") (.attr (.var a) lengthName)))
              (some (.update "i" .up .after))
              (loopBody before (.item (.var a) (.var "i")) after)] } := by
  have hhead : Surrounds "for (var i = 0; i < " ".length; i++) \x7b"
      [.name "for", .mark .openParen, .name "var", .name "i", .mark .assign, .number 0,
        .mark .semicolon, .name "i", .mark .lt]
      [.mark .dot, .name "length", .mark .semicolon, .name "i", .mark .increment,
        .mark .closeParen, .mark .openBrace] :=
    ⟨.inr ⟨"for (var i = 0; i <", rfl, by decide +kernel⟩, by decide +kernel, by decide,
      by decide, by decide, by decide, by decide⟩
  have hop : (BlockOp.forBlock (.clauses (some (.declare .var [("i", some (.const (.number 0)))]))
      (some (.binary (.compare .lt) (.var "i") (.attr (.var a) lengthName)))
      (some (.update "i" .up .after)))).Printable := by
    refine ⟨?_, ?_, ?_⟩
    · rintro part ⟨⟩
      refine ⟨List.cons_ne_nil _ _, List.forall_mem_singleton.2 ⟨by decide, ?_, nofun⟩⟩
      rintro e ⟨⟩
      exact .const rfl
    · rintro e ⟨⟩
      exact .binary (.var (by decide)) (.attr (.var ha.isVariable))
    · rintro e ⟨⟩
      exact .update (by decide)
  have helement : Surrounds "" "[i]" [] [.mark .openBracket, .name "i", .mark .closeBracket] :=
    ⟨.inl ⟨rfl, rfl⟩, by decide +kernel, by decide, by decide, by decide, by decide, by decide⟩
  have he : (Expr.item (.var a) (.var "i")).Printable :=
    .item (.var ha.isVariable) (.var (by decide))
  obtain ⟨hinterior, hread⟩ := ha.element helement rfl he (by decide)
  exact env.compile_loopSource hbefore hafter (hhead.isInterior ha) hinterior
    (hhead.ofInterior_blockOp ha rfl hop nofun (by decide)) hread

end

end Stencil
