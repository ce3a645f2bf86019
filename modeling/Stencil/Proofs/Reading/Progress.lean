import Stencil.Proofs.Reading.Complete
import Stencil.Proofs.Reading.Following

/-!
# Progress of expressions

Every reader of expressions passes over at least one token or fails, and one that counts levels
gives all of them back. So its loops come to their end after no more rounds than there are tokens.

* `Mirrors`: what holds of a counting reader at a depth
* `Parts`: what is known of expressions and of operands at all depths from some depth on
* `items_follows`, `chain_follows`, `links_follows`: the loops
* `assignment_mirrors`, `operand_mirrors`: what a guard is put around
* `parts`: expressions and operands at every depth
-/

namespace Stencil.Counting

open Reader (Tier startsWith expect unexpected readAssign? readUnary? readTick? readEach?
  declareKind? makeUpdate assignTarget nameOperand checkBindable)

/-- At the depth, the counting reader does what the other one does, with fewer tokens than the
bound, passes over a token at least and gives its levels back. -/
def Mirrors {α : Type} (bound d : Nat) (act : Counted α)
    (read : List Token → Except Error (Parsed α)) : Prop :=
  ∀ ts, ts.length < bound → Follows (Ahead 1 ⟨ts, d⟩) d (read ts) (outcome act ⟨ts, d⟩)

/-- Expressions and operands are read at all depths from the given one on. -/
structure Parts (bound d : Nat) (e u : Counted Expr) : Prop where
  expr : ∀ d', d ≤ d' → d' ≤ nestingLimit → Mirrors bound d' e (Reader.expr (nestingLimit - d'))
  unary : ∀ d', d ≤ d' → d' ≤ nestingLimit → Mirrors bound d' u (Reader.unary (nestingLimit - d'))

variable {bound d : Nat} {e u : Counted Expr} {ts : List Token}

theorem Parts.of_le (h : Parts bound d e u) {d' : Nat} (hd : d ≤ d') : Parts bound d' e u where
  expr d'' hd' hle := h.expr d'' (Nat.le_trans hd hd') hle
  unary d'' hd' hle := h.unary d'' (Nat.le_trans hd hd') hle

/-- No items before the others. -/
theorem map_nil_append {α : Type} (read : Except Error (Parsed (List α))) :
    read.map (fun more => ([] ++ more.1, more.2)) = read := by
  cases read <;> rfl

/-! ## Lists of items -/

section

variable {item : List Token → Except Error (Parsed Expr)} {close : Mark}

/-- Do the items end here? -/
def readEnds (close : Mark) (first : Bool) (ts : List Token) : Except Error (Parsed Bool) :=
  if startsWith close ts then .ok (true, ts.tail)
  else if first then .ok (false, ts)
  else do
    let ts ← expect .comma ts
    if startsWith close ts then return (true, ts.tail)
    else return (false, ts)

/-- The items from here on, if these are the first ones or not. -/
def moreItems (item : List Token → Except Error (Parsed Expr)) (close : Mark) (count : Nat)
    (first : Bool) (ts : List Token) : Except Error (Parsed (List Expr)) := do
  let (done, ts) ← readEnds close first ts
  if done then return ([], ts)
  else Reader.itemsFrom item close count ts

theorem itemsFrom_succ (count : Nat) (ts : List Token) :
    Reader.itemsFrom item close (count + 1) ts = (do
      let (first, ts) ← item ts
      let (others, ts) ← moreItems item close count false ts
      return (first :: others, ts)) := by
  rw [Reader.itemsFrom]
  refine congrArg _ (funext ?_)
  rintro ⟨first, rest⟩
  unfold moreItems readEnds
  dsimp only
  by_cases hclose : startsWith close rest = true
  · rw [if_pos hclose, if_pos hclose]
    rfl
  · rw [if_neg hclose, if_neg hclose, if_neg Bool.false_ne_true]
    cases expect .comma rest with
    | error err => rfl
    | ok rest' =>
      rw [Except.ok_bind, Except.ok_bind]
      by_cases hclose' : startsWith close rest' = true
      · rw [if_pos hclose', if_pos hclose']
        rfl
      · rw [if_neg hclose', if_neg hclose']
        rfl

theorem items_eq (ts : List Token) :
    Reader.items item close ts = moreItems item close (ts.length + 1) true ts := by
  unfold Reader.items moreItems readEnds
  by_cases hclose : startsWith close ts = true
  · rw [if_pos hclose, if_pos hclose]
    rfl
  · rw [if_neg hclose, if_neg hclose, if_pos rfl]
    rfl

theorem ends_follows (read : List Expr) :
    Follows (Ahead 0 ⟨ts, d⟩) d (readEnds close read.isEmpty ts)
      (outcome (ends close read) ⟨ts, d⟩) := by
  unfold ends readEnds
  refine .skip_bind (fun rest hts => ?_) fun hclose => ?_
  · subst hts
    rw [Reader.startsWith_cons, if_pos rfl, if_pos rfl]
    exact .ok rfl ⟨rfl, List.suffix_cons _ _, Nat.le_succ _⟩
  rw [hclose, if_neg Bool.false_ne_true, if_neg Bool.false_ne_true]
  by_cases hempty : read.isEmpty = true
  · rw [if_pos hempty, if_pos hempty]
    exact .of_pure
  rw [if_neg hempty, if_neg hempty]
  refine .demand_bind fun rest hrest => ?_
  subst hrest
  exact Follows.weaken (.passed .of_skip)

/-- Where the items do not end a comma was passed over, but for the first one. -/
theorem readEnds_length {first done : Bool} {rest : List Token}
    (h : readEnds close first ts = .ok (done, rest)) (hmore : done = true ∨ first = false) :
    rest.length + 1 ≤ ts.length := by
  unfold readEnds at h
  by_cases hclose : startsWith close ts = true
  · rw [if_pos hclose] at h
    obtain ⟨rest', rfl⟩ := Reader.startsWith_iff.1 hclose
    cases h
    exact Nat.le_refl _
  rw [if_neg hclose] at h
  cases first with
  | true =>
    cases h
    exact absurd hmore (by decide)
  | false =>
    obtain ⟨ts', hcomma, hread⟩ := Except.bind_eq_ok_iff.1 h
    obtain rfl := Reader.expect_eq_ok_iff.1 hcomma
    by_cases hclose' : startsWith close ts' = true
    · rw [if_pos hclose'] at hread
      obtain ⟨rest', rfl⟩ := Reader.startsWith_iff.1 hclose'
      cases hread
      exact Nat.le_succ _
    · rw [if_neg hclose'] at hread
      cases hread
      exact Nat.le_refl _

/-- The rounds of the loop suffice for the tokens that are left before an item. -/
theorem readEnds_rounds {first : Bool} {rest : List Token} {count : Nat}
    (h : readEnds close first ts = .ok (false, rest)) (hrest : rest.length ≤ ts.length)
    (hcount : ts.length < count + if first then 0 else 1) : rest.length < count := by
  cases first with
  | true =>
    rw [if_pos rfl, Nat.add_zero] at hcount
    exact Nat.lt_of_le_of_lt hrest hcount
  | false =>
    have hpassed : rest.length + 1 ≤ ts.length := readEnds_length h (.inr rfl)
    rw [if_neg Bool.false_ne_true] at hcount
    omega

theorem map_moreItems (read : List Expr) (count : Nat) (first : Bool) (ts : List Token) :
    (moreItems item close count first ts).map (fun more => (read ++ more.1, more.2)) =
      readEnds close first ts >>= fun result =>
        (if result.1 then .ok ([], result.2) else Reader.itemsFrom item close count result.2).map
          fun more => (read ++ more.1, more.2) := by
  unfold moreItems
  cases readEnds close first ts <;> rfl

/-- The items after some that were read. -/
theorem map_itemsFrom (read : List Expr) (count : Nat) (ts : List Token) :
    (Reader.itemsFrom item close (count + 1) ts).map (fun more => (read ++ more.1, more.2)) =
      item ts >>= fun first => (moreItems item close count false first.2).map
        fun more => (read ++ [first.1] ++ more.1, more.2) := by
  rw [itemsFrom_succ]
  cases item ts with
  | error err => rfl
  | ok first =>
    rw [Except.ok_bind, Except.ok_bind]
    dsimp only
    cases moreItems item close count false first.2 with
    | error err => rfl
    | ok more =>
      change Except.ok (read ++ first.1 :: more.1, more.2) =
        Except.ok (read ++ [first.1] ++ more.1, more.2)
      rw [List.append_assoc, List.singleton_append]

/-- The loop over items goes on with those that were read. The rounds suffice because each of them
passes over a token. -/
theorem items_follows (he : Mirrors bound d e item) {rounds count : Nat} (read : List Expr)
    (hbound : ts.length < bound) (hrounds : ts.length < rounds)
    (hcount : ts.length < count + if read.isEmpty then 0 else 1) :
    Follows (Ahead 1 ⟨ts, d⟩) d
      ((moreItems item close count read.isEmpty ts).map fun more => (read ++ more.1, more.2))
      (outcome (items e close rounds read) ⟨ts, d⟩) := by
  induction rounds generalizing read ts count with
  | zero => exact absurd hrounds (Nat.not_lt_zero _)
  | succ rounds ih =>
    rw [map_moreItems, items]
    refine (ends_follows read).bind_of (Nat.le_refl d) ?_
    rintro done ⟨rest, d'⟩ hends hahead
    have hd : d' = d := hahead.depth
    rw [hd] at hahead ⊢
    cases done with
    | true =>
      refine .ok ?_ ⟨rfl, hahead.suffix, readEnds_length hends (.inl rfl)⟩
      rw [if_pos rfl]
      exact congrArg (fun items => Except.ok (items, rest)) (List.append_nil read)
    | false =>
      have hrest : rest.length ≤ ts.length := hahead.suffix.length_le
      have hlength : rest.length < count := readEnds_rounds hends hrest hcount
      obtain ⟨count, rfl⟩ : ∃ n, count = n + 1 := ⟨count - 1, by omega⟩
      change Follows _ _ ((Reader.itemsFrom item close (count + 1) rest).map _)
        (outcome (e >>= fun x => items e close rounds (read ++ [x])) ⟨rest, d⟩)
      rw [map_itemsFrom]
      refine Follows.mono (.bind (he rest (by omega)) fun first rest' hsuffix hpassed => ?_)
        (fun c hc => hahead.after hc) (Nat.le_refl d)
      have hempty : (read ++ [first]).isEmpty = false := by simp
      have hcount' : rest'.length < count + if (read ++ [first]).isEmpty then 0 else 1 := by
        rw [hempty, if_neg Bool.false_ne_true]
        omega
      have hothers := ih (read ++ [first]) (by omega) (by omega) hcount'
      rw [hempty] at hothers
      exact hothers.weaken

/-- Items that are read from the first one on. -/
theorem items_follows_first (he : Mirrors bound d e item) {rounds : Nat}
    (hbound : ts.length < bound) (hrounds : ts.length < rounds) :
    Follows (Ahead 1 ⟨ts, d⟩) d (Reader.items item close ts)
      (outcome (items e close rounds []) ⟨ts, d⟩) := by
  rw [items_eq, ← map_nil_append (moreItems item close (ts.length + 1) true ts)]
  exact items_follows he [] hbound hrounds (Nat.lt_succ_self _)

end

/-! ## Chains of operators -/

theorem Tier.exists_mark_of_read? {tier : Tier} {op : BinaryOp} {rest : List Token}
    (h : tier.read? ts = some (op, rest)) : ∃ m, ts = .mark m :: rest := by
  unfold Reader.Tier.read? at h
  split at h
  · obtain ⟨op', -, heq⟩ := Option.map_eq_some_iff.1 h
    cases heq
    exact ⟨_, rfl⟩
  · cases h

/-- The loop over the operators of a level opens a level in each round. -/
theorem chain_follows {tier : Tier} {tighter : List Tier} {rounds : Nat}
    (hlevel : ∀ d', d ≤ d' → d' ≤ nestingLimit →
      Mirrors bound d' e (Reader.level tighter (nestingLimit - d')))
    (hd : d ≤ nestingLimit) (left : Expr) (hbound : ts.length < bound)
    (hrounds : ts.length < rounds) :
    Follows (Below ⟨ts, d⟩) d (Reader.chain tier tighter (nestingLimit - d) left ts)
      (outcome (chain tier e rounds left) ⟨ts, d⟩) := by
  induction rounds generalizing d left ts with
  | zero => exact absurd hrounds (Nat.not_lt_zero _)
  | succ rounds ih =>
    rw [chain, outcome_bind_ok (outcome_tokens _)]
    dsimp only
    cases hread : tier.read? ts with
    | none =>
      rw [Reader.chain_of_none hread]
      exact .ok rfl ⟨Nat.le_refl d, List.suffix_refl ts⟩
    | some read =>
      obtain ⟨op, rest⟩ := read
      obtain ⟨m, rfl⟩ := Tier.exists_mark_of_read? hread
      rw [List.length_cons] at hbound hrounds
      rw [outcome_bind_ok (outcome_moveTo _ _)]
      rcases Nat.lt_or_eq_of_le hd with hlt | rfl
      · obtain ⟨room, hroom⟩ : ∃ r, nestingLimit - d = r + 1 := ⟨nestingLimit - d - 1, by omega⟩
        have hroom' : room = nestingLimit - (d + 1) := by omega
        rw [hroom, Reader.chain_succ hread, outcome_bind_ok (outcome_descend hlt), hroom']
        refine Follows.sunk (.bind_below (hlevel (d + 1) (Nat.le_succ d) hlt rest (by omega)) ?_)
          (List.suffix_cons _ _) (Nat.le_succ d)
        intro right rest' _ hpassed
        exact ih (fun d' hd' => hlevel d' (by omega)) hlt _ (by omega) (by omega)
      · rw [Nat.sub_self, Reader.chain_zero hread, outcome_bind_error outcome_descend_tooDeep]
        exact .error rfl (Nat.le_succ _)

/-! ## Properties and calls -/

theorem isLinked_iff {ts : List Token} :
    isLinked ts = true ↔
      ∃ m rest, ts = .mark m :: rest ∧ (m = .dot ∨ m = .openBracket ∨ m = .openParen) := by
  unfold isLinked
  rw [Bool.or_eq_true, Bool.or_eq_true, Reader.startsWith_iff, Reader.startsWith_iff,
    Reader.startsWith_iff]
  refine ⟨?_, ?_⟩
  · rintro ((⟨rest, rfl⟩ | ⟨rest, rfl⟩) | ⟨rest, rfl⟩)
    · exact ⟨_, rest, rfl, .inl rfl⟩
    · exact ⟨_, rest, rfl, .inr (.inl rfl)⟩
    · exact ⟨_, rest, rfl, .inr (.inr rfl)⟩
  · rintro ⟨_, rest, rfl, rfl | rfl | rfl⟩
    · exact .inl (.inl ⟨rest, rfl⟩)
    · exact .inl (.inr ⟨rest, rfl⟩)
    · exact .inr ⟨rest, rfl⟩

theorem links_tooDeep (target : Expr) (h : isLinked ts = true) :
    Reader.links 0 target ts = tooDeep := by
  obtain ⟨_, rest, rfl, rfl | rfl | rfl⟩ := isLinked_iff.1 h <;> rw [Reader.links]

theorem readName_suffix {name : String} {rest : List Token} (h : readName ts = .ok (name, rest)) :
    rest <:+ ts ∧ rest.length + 1 ≤ ts.length := by
  unfold readName at h
  split at h
  · cases h
    exact ⟨List.suffix_cons _ _, Nat.le_refl _⟩
  · cases h

section

variable {next : Expr → Counted Expr} {room : Nat} {rest : List Token}
  (hnext : ∀ target rest', rest' <:+ rest →
    Follows (Below ⟨rest', d⟩) d (Reader.links room target rest')
      (outcome (next target) ⟨rest', d⟩))

include hnext

/-- A property, and what follows it. The level of the property is open already. -/
theorem attr_follows (target : Expr) :
    Follows (Below ⟨rest, d⟩) d (Reader.links (room + 1) target (.mark .dot :: rest))
      (outcome (take readName >>= fun name => next (.attr target name)) ⟨rest, d⟩) := by
  have hlinks : Reader.links (room + 1) target (.mark .dot :: rest) =
      readName rest >>= fun name => Reader.links room (.attr target name.1) name.2 := by
    unfold readName
    split
    · rw [Reader.links]
      rfl
    · rename_i hne
      rw [Reader.links]
      · rfl
      · exact hne
  rw [hlinks]
  exact .bind_below (.of_take fun _ _ => readName_suffix) fun name rest' hsuffix _ =>
    hnext _ rest' hsuffix

variable (he : Mirrors bound d e (Reader.expr room)) (hbound : rest.length < bound)

include he hbound

/-- A property with a computed name, and what follows it. -/
theorem item_follows (target : Expr) :
    Follows (Below ⟨rest, d⟩) d (Reader.links (room + 1) target (.mark .openBracket :: rest))
      (outcome (do
        let key ← e
        demand .closeBracket
        next (.item target key)) ⟨rest, d⟩) := by
  rw [Reader.links]
  refine .bind_below (he rest hbound) fun key rest' hsuffix _ => .demand_bind fun rest'' hts => ?_
  subst hts
  have hcons : rest'' <:+ .mark .closeBracket :: rest'' := List.suffix_cons _ _
  exact (hnext _ rest'' (hcons.trans hsuffix)).sunk hcons (Nat.le_refl d)

/-- A call, and what follows it. -/
theorem call_follows {rounds : Nat} (hrounds : rest.length < rounds) (target : Expr) :
    Follows (Below ⟨rest, d⟩) d (Reader.links (room + 1) target (.mark .openParen :: rest))
      (outcome (items e .closeParen rounds [] >>= fun arguments =>
        next (.call target arguments)) ⟨rest, d⟩) := by
  rw [Reader.links]
  exact .bind_below (items_follows_first he hbound hrounds) fun arguments rest' hsuffix _ =>
    hnext _ rest' hsuffix

end

/-- The loop over properties and calls opens a level in each round. -/
theorem links_follows {rounds : Nat}
    (he : ∀ d', d ≤ d' → d' ≤ nestingLimit → Mirrors bound d' e (Reader.expr (nestingLimit - d')))
    (hd : d ≤ nestingLimit) (target : Expr) (hbound : ts.length < bound)
    (hrounds : ts.length < rounds) :
    Follows (Below ⟨ts, d⟩) d (Reader.links (nestingLimit - d) target ts)
      (outcome (links e rounds target) ⟨ts, d⟩) := by
  induction rounds generalizing d target ts with
  | zero => exact absurd hrounds (Nat.not_lt_zero _)
  | succ rounds ih =>
    rw [links, outcome_bind_ok (outcome_tokens _)]
    dsimp only
    cases hlinked : isLinked ts with
    | false =>
      have hnone {m : Mark} {rest : List Token} (hts : ts = .mark m :: rest) :
          ¬ (m = .dot ∨ m = .openBracket ∨ m = .openParen) := fun hm =>
        absurd (isLinked_iff.2 ⟨m, rest, hts, hm⟩) (by rw [hlinked]; exact Bool.false_ne_true)
      have hunlinked : Reader.Unlinked ts := fun m rest hts =>
        ⟨fun hm => hnone hts (.inl hm), fun hm => hnone hts (.inr (.inl hm)),
          fun hm => hnone hts (.inr (.inr hm))⟩
      rw [Reader.links_of_unlinked hunlinked, if_neg Bool.false_ne_true]
      refine .skip_bind (fun rest hts => absurd (.inl rfl) (hnone hts)) fun _ => ?_
      refine .skip_bind (fun rest hts => absurd (.inr (.inl rfl)) (hnone hts)) fun _ => ?_
      refine .skip_bind (fun rest hts => absurd (.inr (.inr rfl)) (hnone hts)) fun _ => ?_
      exact .ok rfl ⟨Nat.le_refl d, List.suffix_refl ts⟩
    | true =>
      rw [if_pos rfl]
      rcases Nat.lt_or_eq_of_le hd with hlt | rfl
      · obtain ⟨room, hroom⟩ : ∃ r, nestingLimit - d = r + 1 := ⟨nestingLimit - d - 1, by omega⟩
        have hroom' : room = nestingLimit - (d + 1) := by omega
        have hexpr : Mirrors bound (d + 1) e (Reader.expr room) :=
          hroom' ▸ he (d + 1) (Nat.le_succ d) hlt
        obtain ⟨m, rest, rfl, hm⟩ := isLinked_iff.1 hlinked
        rw [List.length_cons] at hbound hrounds
        have hnext (target : Expr) (rest' : List Token) (hsuffix : rest' <:+ rest) :
            Follows (Below ⟨rest', d + 1⟩) (d + 1) (Reader.links room target rest')
              (outcome (links e rounds target) ⟨rest', d + 1⟩) := by
          have hlength := hsuffix.length_le
          rw [hroom']
          exact ih (fun d' hd' => he d' (by omega)) hlt target (by omega) (by omega)
        rw [hroom, outcome_bind_ok (outcome_descend hlt)]
        refine Follows.sunk ?_ (List.suffix_cons (.mark m) rest) (Nat.le_succ d)
        rcases hm with rfl | rfl | rfl
        · rw [outcome_bind_ok (outcome_skip_cons .dot rest)]
          exact attr_follows hnext target
        · rw [outcome_bind_ok (outcome_skip_of_not (Reader.startsWith_of_ne (by decide) rest)),
            if_neg Bool.false_ne_true, outcome_bind_ok (outcome_skip_cons .openBracket rest)]
          exact item_follows hnext hexpr (by omega) target
        · rw [outcome_bind_ok (outcome_skip_of_not (Reader.startsWith_of_ne (by decide) rest)),
            if_neg Bool.false_ne_true,
            outcome_bind_ok (outcome_skip_of_not (Reader.startsWith_of_ne (by decide) rest)),
            if_neg Bool.false_ne_true, outcome_bind_ok (outcome_skip_cons .openParen rest)]
          exact call_follows hnext hexpr (by omega) (by omega) target
      · rw [Nat.sub_self, links_tooDeep target hlinked, outcome_bind_error outcome_descend_tooDeep]
        exact .error rfl (Nat.le_succ _)

/-! ## Expressions -/

theorem primary_refused {m : Mark} (hparen : m ≠ .openParen) (hbracket : m ≠ .openBracket)
    (room : Nat) (rest : List Token) :
    Reader.primary room (.mark m :: rest) = .error (.malformed (.noOperand (.mark m))) := by
  rw [Reader.primary]
  · intro name h
    cases h
  · intro s h
    cases h
  · intro x h
    cases h
  · intro h
    exact hparen (Token.mark.inj h)
  · intro h
    exact hbracket (Token.mark.inj h)

section

variable {rounds : Nat} (h : Parts rounds d e u) (hd : d ≤ nestingLimit)

include h hd

theorem level_mirrors (tiers : List Tier) :
    Mirrors rounds d (level rounds u tiers) (Reader.level tiers (nestingLimit - d)) := by
  induction tiers generalizing d with
  | nil =>
    intro ts hts
    rw [Reader.level]
    exact h.unary d (Nat.le_refl d) hd ts hts
  | cons tier tighter ih =>
    intro ts hts
    rw [Reader.level, level]
    refine (ih h hd ts hts).bind fun left rest hsuffix hpassed => .restoring ?_
    exact chain_follows (fun d' hd' hle => ih (h.of_le hd') hle) hd left (by omega) (by omega)

theorem primary_mirrors :
    Mirrors rounds d (primary rounds e) (Reader.primary (nestingLimit - d)) := by
  have hexpr : Mirrors rounds d e (Reader.expr (nestingLimit - d)) := h.expr d (Nat.le_refl d) hd
  intro ts hts
  cases ts with
  | nil =>
    rw [Reader.primary]
    exact .error rfl (Nat.le_refl d)
  | cons t rest =>
    have htake : outcome (take readToken) ⟨t :: rest, d⟩ = (.ok t, ⟨rest, d⟩) := rfl
    have hlength : rest.length < rounds := by
      rw [List.length_cons] at hts
      omega
    rw [primary, outcome_bind_ok htake]
    refine Follows.passed ?_
    cases t with
    | name name =>
      rw [Reader.primary]
      exact .of_except
    | text s =>
      rw [Reader.primary]
      exact .of_pure
    | number x =>
      rw [Reader.primary]
      exact .of_pure
    | mark m =>
      cases m
      case openParen =>
        rw [Reader.primary]
        refine .bind (hexpr rest hlength).weaken fun target rest' _ _ => ?_
        refine .demand_bind fun rest'' hts => ?_
        subst hts
        exact .weaken (.passed .of_pure)
      case openBracket =>
        rw [Reader.primary]
        refine .bind (items_follows_first hexpr hlength hlength).weaken ?_
        exact fun elements rest' _ _ => .of_pure
      all_goals
        rw [primary_refused (by decide) (by decide)]
        exact .of_throw

theorem member_mirrors :
    Mirrors rounds d (member rounds e) (Reader.member (nestingLimit - d)) := by
  intro ts hts
  rw [Reader.member, member]
  refine (primary_mirrors h hd ts hts).bind fun target rest hsuffix hpassed => .restoring ?_
  exact links_follows (fun d' hd' hle => h.expr d' hd' hle) hd target (by omega) (by omega)

theorem updated_mirrors :
    Mirrors rounds d (updated rounds e) (Reader.updated (nestingLimit - d)) := by
  intro ts hts
  rw [Reader.updated, updated]
  refine (member_mirrors h hd ts hts).bind fun target rest hsuffix hpassed => ?_
  rw [outcome_bind_ok (outcome_tokens _)]
  dsimp only
  cases htick : readTick? rest with
  | none => exact .of_pure
  | some read =>
    obtain ⟨tick, rest'⟩ := read
    obtain rfl := Reader.readTick?_eq_some_iff.1 htick
    exact .weaken (.passed .of_except)

theorem operand_mirrors :
    Mirrors rounds d (operand rounds e u) (Reader.operand (nestingLimit - d)) := by
  have hunary : Mirrors rounds d u (Reader.unary (nestingLimit - d)) := h.unary d (Nat.le_refl d) hd
  intro ts hts
  rw [Reader.operand, operand, outcome_bind_ok (outcome_tokens _)]
  dsimp only
  cases hop : readUnary? ts with
  | some read =>
    obtain ⟨op, rest⟩ := read
    obtain rfl := Reader.readUnary?_eq_some_iff.1 hop
    rw [List.length_cons] at hts
    exact .passed (.bind (hunary rest (by omega)).weaken fun target rest' _ _ => .of_pure)
  | none =>
    dsimp only
    cases htick : readTick? ts with
    | some read =>
      obtain ⟨tick, rest⟩ := read
      obtain rfl := Reader.readTick?_eq_some_iff.1 htick
      rw [List.length_cons] at hts
      exact .passed (.bind (hunary rest (by omega)).weaken fun target rest' _ _ => .of_except)
    | none => exact updated_mirrors h hd ts hts

theorem conditional_mirrors :
    Mirrors rounds d (conditional rounds e u) (Reader.conditional (nestingLimit - d)) := by
  have hexpr : Mirrors rounds d e (Reader.expr (nestingLimit - d)) := h.expr d (Nat.le_refl d) hd
  intro ts hts
  rw [Reader.conditional, conditional]
  refine (level_mirrors h hd Tier.all ts hts).bind fun test rest hsuffix hpassed => ?_
  dsimp only
  refine .skip_bind (fun rest' hrest => ?_) fun hquestion => ?_
  · subst hrest
    rw [List.length_cons] at hpassed
    rw [Reader.startsWith_cons, if_pos rfl]
    refine .weaken (.passed (.bind (hexpr rest' (by omega)).weaken ?_))
    refine fun whenTrue rest₁ _ hlength => .demand_bind fun rest₂ hrest => ?_
    subst hrest
    rw [List.length_cons] at hlength
    refine .weaken (.passed (.bind (hexpr rest₂ (by omega)).weaken ?_))
    exact fun whenFalse rest₃ _ _ => .of_pure
  · rw [hquestion]
    exact .of_pure

theorem assignment_mirrors :
    Mirrors rounds d (assignment rounds e u) (Reader.assignment (nestingLimit - d)) := by
  have hexpr : Mirrors rounds d e (Reader.expr (nestingLimit - d)) := h.expr d (Nat.le_refl d) hd
  intro ts hts
  rw [Reader.assignment, assignment]
  refine (conditional_mirrors h hd ts hts).bind fun target rest hsuffix hpassed => ?_
  rw [outcome_bind_ok (outcome_tokens _)]
  dsimp only
  cases hassign : readAssign? rest with
  | none => exact .of_pure
  | some read =>
    obtain ⟨op, rest'⟩ := read
    obtain ⟨m, -, rfl⟩ := Reader.readAssign?_eq_some_iff.1 hassign
    rw [List.length_cons] at hpassed
    refine .weaken (.passed (.except_bind fun name => ?_))
    exact .bind (hexpr rest' (by omega)).weaken fun value rest'' _ _ => .of_pure

end

/-- Expressions and operands are read at every depth. The recursion is no deeper than there are
levels left, for each call of one of the two takes a level. -/
theorem parts (rounds : Nat) {levels : Nat} (hlevels : nestingLimit - d < levels) :
    Parts rounds d (expr rounds levels) (unary rounds levels) := by
  induction levels generalizing d with
  | zero => exact absurd hlevels (Nat.not_lt_zero _)
  | succ levels ih =>
    have hinner {d' : Nat} (hle : d ≤ d') (hlt : d' < nestingLimit) :
        nestingLimit - d' = nestingLimit - (d' + 1) + 1 ∧
          Parts rounds (d' + 1) (expr rounds levels) (unary rounds levels) :=
      ⟨by omega, ih (by omega)⟩
    constructor
    case expr =>
      intro d' hle hd' ts hts
      rw [expr]
      rcases Nat.lt_or_eq_of_le hd' with hlt | rfl
      · obtain ⟨hroom, hparts⟩ := hinner hle hlt
        rw [hroom, Reader.expr]
        exact .guarded hlt (assignment_mirrors hparts hlt ts hts)
      · rw [Nat.sub_self, Reader.expr]
        exact .guarded_tooDeep
    case unary =>
      intro d' hle hd' ts hts
      rw [unary]
      rcases Nat.lt_or_eq_of_le hd' with hlt | rfl
      · obtain ⟨hroom, hparts⟩ := hinner hle hlt
        rw [hroom, Reader.unary]
        exact .guarded hlt (operand_mirrors hparts hlt ts hts)
      · rw [Nat.sub_self, Reader.unary]
        exact .guarded_tooDeep

end Stencil.Counting
