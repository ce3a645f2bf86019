import Stencil.Proofs.Reading.Basic
import Stencil.Proofs.Reading.Counting

/-!
# Counting readers that follow other readers

A counting reader follows another reader if both give the same from the same tokens. What can be
said of the cursor then is put together from its parts: a reader is ahead of where it began and has
given its levels back, a loop may have levels open, and a reader that fails has closed none but its
own.

* `outcome_bind_ok`, `outcome_bind_error`: two counting readers in order
* `Ahead`, `Below`: where a reader ends, and where a loop does
* `Follows`: the counting reader does what the reader does
* `Follows.bind`, `Follows.bind_below`: the rules for parts in order
* `Follows.guarded`, `Follows.restoring`: the rules for levels
-/

namespace Stencil.Counting

open Reader (startsWith expect)

variable {α β : Type}

/-! ## Outcomes -/

theorem outcome_bind_ok {act : Counted α} {c c' : Cursor} {a : α}
    (h : outcome act c = (.ok a, c')) (f : α → Counted β) :
    outcome (act >>= f) c = outcome (f a) c' := by
  rw [outcome] at h
  rw [outcome, ExceptT.run_bind, StateT.run_bind, h]
  rfl

theorem outcome_bind_error {act : Counted α} {c c' : Cursor} {halt : Halt}
    (h : outcome act c = (.error halt, c')) (f : α → Counted β) :
    outcome (act >>= f) c = (.error halt, c') := by
  rw [outcome] at h
  rw [outcome, ExceptT.run_bind, StateT.run_bind, h]
  rfl

theorem outcome_tokens (c : Cursor) : outcome tokens c = (.ok c.tokens, c) :=
  rfl

theorem outcome_moveTo (rest : List Token) (c : Cursor) :
    outcome (moveTo rest) c = (.ok (), { c with tokens := rest }) :=
  rfl

/-- The second cursor is at the depth of the first one, and some tokens further on. -/
structure Ahead (k : Nat) (c c' : Cursor) : Prop where
  depth : c'.depth = c.depth
  suffix : c'.tokens <:+ c.tokens
  count : c'.tokens.length + k ≤ c.tokens.length

/-- In a loop levels are opened, but none are closed. -/
structure Below (c c' : Cursor) : Prop where
  depth : c.depth ≤ c'.depth
  suffix : c'.tokens <:+ c.tokens

/-- What comes of a counting reader is what comes of another reader, and it is neither an underflow
nor a lack of rounds. After a result the cursor is where the condition says, after an error the
counter is not lower than its base. -/
inductive Follows (post : Cursor → Prop) (base : Nat) (read : Except Error (Parsed α)) :
    Except Halt α × Cursor → Prop
  | ok {a : α} {c : Cursor} (hread : read = .ok (a, c.tokens)) (hpost : post c) :
      Follows post base read (.ok a, c)
  | error {e : Error} {c : Cursor} (hread : read = .error e) (hdepth : base ≤ c.depth) :
      Follows post base read (.error (.error e), c)

section

variable {post post' : Cursor → Prop} {base base' : Nat} {read : Except Error (Parsed α)}
  {act : Counted α} {c : Cursor} {ts : List Token} {d k : Nat}

theorem Follows.mono {result : Except Halt α × Cursor} (h : Follows post base read result)
    (hpost : ∀ c, post c → post' c) (hbase : base' ≤ base) : Follows post' base' read result := by
  cases h with
  | ok hread hc => exact .ok hread (hpost _ hc)
  | error hread hdepth => exact .error hread (Nat.le_trans hbase hdepth)

/-- Two counting readers in order do what two readers in order do. -/
theorem Follows.bind_of {f : α → Counted β} {g : Parsed α → Except Error (Parsed β)}
    {post' : Cursor → Prop} (h : Follows post base' read (outcome act c)) (hbase : base ≤ base')
    (hf : ∀ a c', read = .ok (a, c'.tokens) → post c' →
      Follows post' base (g (a, c'.tokens)) (outcome (f a) c')) :
    Follows post' base (read >>= g) (outcome (act >>= f) c) := by
  generalize hresult : outcome act c = result at h
  cases h with
  | ok hread hc =>
    rw [outcome_bind_ok hresult, hread, Except.ok_bind]
    exact hf _ _ hread hc
  | error hread hdepth =>
    rw [outcome_bind_error hresult, hread]
    exact .error rfl (Nat.le_trans hbase hdepth)

theorem Ahead.refl (c : Cursor) : Ahead 0 c c :=
  ⟨rfl, List.suffix_refl _, Nat.le_refl _⟩

theorem Ahead.trans {c c₁ c₂ : Cursor} (h : Ahead k c c₁) (h' : Ahead 0 c₁ c₂) : Ahead k c c₂ where
  depth := h'.depth.trans h.depth
  suffix := h'.suffix.trans h.suffix
  count := Nat.le_trans (Nat.add_le_add_right h'.count k) h.count

theorem Ahead.after {c c₁ c₂ : Cursor} (h : Ahead 0 c c₁) (h' : Ahead k c₁ c₂) : Ahead k c c₂ where
  depth := h'.depth.trans h.depth
  suffix := h'.suffix.trans h.suffix
  count := Nat.le_trans h'.count h.count

/-- Tokens that were passed over before. -/
theorem Follows.passed {t : Token} {rest : List Token} {result : Except Halt α × Cursor}
    (h : Follows (Ahead 0 ⟨rest, d⟩) d read result) :
    Follows (Ahead 1 ⟨t :: rest, d⟩) d read result := by
  have hahead : Ahead 1 ⟨t :: rest, d⟩ ⟨rest, d⟩ := ⟨rfl, List.suffix_cons t rest, Nat.le_refl _⟩
  exact h.mono (fun _ hc => hahead.trans hc) (Nat.le_refl d)

/-- Tokens that were passed over before, and levels that were opened before. -/
theorem Follows.sunk {rest : List Token} {d' : Nat} {result : Except Halt α × Cursor}
    (h : Follows (Below ⟨rest, d'⟩) d' read result) (hsuffix : rest <:+ ts) (hd : d ≤ d') :
    Follows (Below ⟨ts, d⟩) d read result :=
  h.mono (fun _ hc => ⟨Nat.le_trans hd hc.depth, hc.suffix.trans hsuffix⟩) hd

/-- Two counting readers in order, both of which give their levels back. -/
theorem Follows.bind {f : α → Counted β} {g : Parsed α → Except Error (Parsed β)}
    (h : Follows (Ahead k ⟨ts, d⟩) d read (outcome act ⟨ts, d⟩))
    (hf : ∀ a rest, rest <:+ ts → rest.length + k ≤ ts.length →
      Follows (Ahead 0 ⟨rest, d⟩) d (g (a, rest)) (outcome (f a) ⟨rest, d⟩)) :
    Follows (Ahead k ⟨ts, d⟩) d (read >>= g) (outcome (act >>= f) ⟨ts, d⟩) := by
  refine h.bind_of (Nat.le_refl d) ?_
  rintro a ⟨rest, d'⟩ - hahead
  have hd : d' = d := hahead.depth
  rw [hd] at hahead ⊢
  exact (hf a rest hahead.suffix hahead.count).mono (fun _ hc => hahead.trans hc) (Nat.le_refl d)

/-- A part that gives its levels back before a loop, or before the next round of one. -/
theorem Follows.bind_below {f : α → Counted β} {g : Parsed α → Except Error (Parsed β)}
    (h : Follows (Ahead k ⟨ts, d⟩) d read (outcome act ⟨ts, d⟩))
    (hf : ∀ a rest, rest <:+ ts → rest.length + k ≤ ts.length →
      Follows (Below ⟨rest, d⟩) d (g (a, rest)) (outcome (f a) ⟨rest, d⟩)) :
    Follows (Below ⟨ts, d⟩) d (read >>= g) (outcome (act >>= f) ⟨ts, d⟩) := by
  refine h.bind_of (Nat.le_refl d) ?_
  rintro a ⟨rest, d'⟩ - hahead
  have hd : d' = d := hahead.depth
  rw [hd] at hahead ⊢
  exact (hf a rest hahead.suffix hahead.count).sunk hahead.suffix (Nat.le_refl d)

theorem Follows.of_pure {a : α} :
    Follows (Ahead 0 ⟨ts, d⟩) d (.ok (a, ts)) (outcome (pure a) ⟨ts, d⟩) :=
  .ok rfl (Ahead.refl _)

theorem Follows.of_throw {e : Error} :
    Follows post d (.error e : Except Error (Parsed α)) (outcome (throw (.error e)) ⟨ts, d⟩) :=
  .error rfl (Nat.le_refl d)

theorem Follows.weaken {result : Except Halt α × Cursor}
    (h : Follows (Ahead k c) base read result) :
    Follows (Ahead 0 c) base read result :=
  h.mono (fun _ hc => ⟨hc.depth, hc.suffix, Nat.le_trans (Nat.le_add_right _ k) hc.count⟩)
    (Nat.le_refl base)

/-- The result of a reader, turned into another one. -/
theorem Follows.map {f : α → β} (h : Follows post base read (outcome act c)) :
    Follows post base (read.map fun result => (f result.1, result.2))
      (outcome (act >>= fun a => pure (f a)) c) := by
  generalize hresult : outcome act c = result at h
  cases h with
  | ok hread hc =>
    rw [outcome_bind_ok hresult, hread]
    exact .ok rfl hc
  | error hread hdepth =>
    rw [outcome_bind_error hresult, hread]
    exact .error rfl hdepth

/-- A part of a reader that looks at no token. -/
theorem Follows.of_except {result : Except Error α} :
    Follows (Ahead 0 ⟨ts, d⟩) d (result.map fun a => (a, ts))
      (outcome (ofExcept result) ⟨ts, d⟩) := by
  cases result with
  | ok a => exact .of_pure
  | error e => exact .of_throw

theorem Follows.except_bind {result : Except Error α} {f : α → Counted β}
    {g : α → Except Error (Parsed β)}
    (hf : ∀ a, Follows (Ahead k ⟨ts, d⟩) d (g a) (outcome (f a) ⟨ts, d⟩)) :
    Follows (Ahead k ⟨ts, d⟩) d (result >>= g) (outcome (ofExcept result >>= f) ⟨ts, d⟩) := by
  cases result with
  | ok a => exact hf a
  | error e => exact .of_throw

theorem Follows.of_take {read : List Token → Except Error (Parsed α)}
    (h : ∀ a rest, read ts = .ok (a, rest) → rest <:+ ts ∧ rest.length + k ≤ ts.length) :
    Follows (Ahead k ⟨ts, d⟩) d (read ts) (outcome (take read) ⟨ts, d⟩) := by
  change Follows _ _ _ (outcome (settle ts (read ts)) ⟨ts, d⟩)
  cases hread : read ts with
  | ok result =>
    obtain ⟨hsuffix, hcount⟩ := h result.1 result.2 hread
    exact .ok rfl ⟨rfl, hsuffix, hcount⟩
  | error e => exact .error rfl (Nat.le_refl d)

/-- A mark that has to come, and what is read after it. -/
theorem Follows.demand_bind {m : Mark} {f : Unit → Counted β}
    {g : List Token → Except Error (Parsed β)}
    (hf : ∀ rest, ts = .mark m :: rest → Follows post d (g rest) (outcome (f ()) ⟨rest, d⟩)) :
    Follows post d (expect m ts >>= g) (outcome (demand m >>= f) ⟨ts, d⟩) := by
  have hdemand : outcome (demand m) ⟨ts, d⟩ =
      outcome (settle ts ((expect m ts).map fun rest => ((), rest))) ⟨ts, d⟩ := rfl
  cases hexpect : expect m ts with
  | ok rest =>
    rw [hexpect] at hdemand
    rw [outcome_bind_ok hdemand, Except.ok_bind]
    exact hf rest (Reader.expect_eq_ok_iff.1 hexpect)
  | error e =>
    rw [hexpect] at hdemand
    rw [outcome_bind_error hdemand]
    exact .error rfl (Nat.le_refl d)

theorem outcome_skip_cons (m : Mark) (rest : List Token) :
    outcome (skip m) ⟨.mark m :: rest, d⟩ = (.ok true, ⟨rest, d⟩) := by
  change outcome (if startsWith m (.mark m :: rest) then do
      moveTo rest
      return true
    else return false) _ = _
  rw [Reader.startsWith_cons, if_pos rfl]
  rfl

theorem outcome_skip_of_not {m : Mark} (h : startsWith m ts = false) :
    outcome (skip m) ⟨ts, d⟩ = (.ok false, ⟨ts, d⟩) := by
  change outcome (if startsWith m ts then do
      moveTo ts.tail
      return true
    else return false) _ = _
  rw [h, if_neg Bool.false_ne_true]
  rfl

/-- A mark that may come, and what is done in either case. -/
theorem Follows.skip_bind {m : Mark} {f : Bool → Counted α}
    (htrue : ∀ rest, ts = .mark m :: rest → Follows post base read (outcome (f true) ⟨rest, d⟩))
    (hfalse : startsWith m ts = false → Follows post base read (outcome (f false) ⟨ts, d⟩)) :
    Follows post base read (outcome (skip m >>= f) ⟨ts, d⟩) := by
  cases hm : startsWith m ts with
  | true =>
    obtain ⟨rest, rfl⟩ := Reader.startsWith_iff.1 hm
    rw [outcome_bind_ok (outcome_skip_cons m rest)]
    exact htrue rest rfl
  | false =>
    rw [outcome_bind_ok (outcome_skip_of_not hm)]
    exact hfalse hm

theorem Follows.of_skip {m : Mark} :
    Follows (Ahead 0 ⟨ts, d⟩) d (if startsWith m ts then .ok (true, ts.tail) else .ok (false, ts))
      (outcome (skip m) ⟨ts, d⟩) := by
  rw [← bind_pure (skip m)]
  refine .skip_bind (fun rest hts => ?_) fun hm => ?_
  · subst hts
    rw [Reader.startsWith_cons, if_pos rfl]
    exact .ok rfl ⟨rfl, List.suffix_cons _ _, Nat.le_succ _⟩
  · rw [hm, if_neg Bool.false_ne_true]
    exact .of_pure

theorem outcome_descend (h : d < nestingLimit) :
    outcome descend ⟨ts, d⟩ = (.ok (), ⟨ts, d + 1⟩) := by
  change outcome (if nestingLimit < d + 1 then throw (.error (.malformed .tooDeep)) else pure ())
    ⟨ts, d + 1⟩ = _
  rw [if_neg (Nat.not_lt.2 h)]
  rfl

theorem outcome_descend_tooDeep :
    outcome descend ⟨ts, nestingLimit⟩ =
      (.error (.error (.malformed .tooDeep)), ⟨ts, nestingLimit + 1⟩) := by
  change outcome (if nestingLimit < nestingLimit + 1 then throw (.error (.malformed .tooDeep))
    else pure ()) ⟨ts, nestingLimit + 1⟩ = _
  rw [if_pos (Nat.lt_succ_self _)]
  rfl

/-- A guard takes a level, which is closed again. -/
theorem Follows.guarded {act : Counted α} (hd : d < nestingLimit)
    (h : Follows (Ahead k ⟨ts, d + 1⟩) (d + 1) read (outcome act ⟨ts, d + 1⟩)) :
    Follows (Ahead k ⟨ts, d⟩) d read (outcome (guarded act) ⟨ts, d⟩) := by
  have hlift : outcome (ExceptT.lift act.run) ⟨ts, d + 1⟩ =
      (.ok (outcome act ⟨ts, d + 1⟩).1, (outcome act ⟨ts, d + 1⟩).2) := rfl
  rw [Counting.guarded, outcome_bind_ok (outcome_descend hd), outcome_bind_ok hlift]
  generalize outcome act ⟨ts, d + 1⟩ = result at h
  cases h with
  | @ok a c hread hahead =>
    obtain ⟨rest, d'⟩ := c
    obtain ⟨hd', hsuffix, hcount⟩ := hahead
    obtain rfl : d' = d + 1 := hd'
    exact .ok hread ⟨rfl, hsuffix, hcount⟩
  | @error e c hread hdepth =>
    obtain ⟨rest, d'⟩ := c
    obtain ⟨n, rfl⟩ : ∃ n, d' = n + 1 := ⟨d' - 1, by dsimp only at hdepth; omega⟩
    exact .error hread (Nat.le_of_succ_le_succ hdepth)

theorem outcome_guarded_tooDeep (act : Counted α) :
    outcome (guarded act) ⟨ts, nestingLimit⟩ =
      (.error (.error (.malformed .tooDeep)), ⟨ts, nestingLimit + 1⟩) := by
  rw [guarded, outcome_bind_error outcome_descend_tooDeep]

theorem Follows.guarded_tooDeep {act : Counted α} :
    Follows post nestingLimit (tooDeep : Except Error (Parsed α))
      (outcome (Counting.guarded act) ⟨ts, nestingLimit⟩) := by
  rw [outcome_guarded_tooDeep]
  exact .error rfl (Nat.le_succ _)

/-- The counter is put back after a loop. -/
theorem Follows.restoring {act : Counted α}
    (h : Follows (Below ⟨ts, d⟩) d read (outcome act ⟨ts, d⟩)) :
    Follows (Ahead 0 ⟨ts, d⟩) d read (outcome (restoring act) ⟨ts, d⟩) := by
  have hget : outcome (Counting.restoring act) ⟨ts, d⟩ = outcome (act >>= fun a => do
      modify fun c => { c with depth := d }
      return a) ⟨ts, d⟩ := rfl
  rw [hget]
  generalize hresult : outcome act ⟨ts, d⟩ = result at h
  cases h with
  | ok hread hbelow =>
    rw [outcome_bind_ok hresult]
    exact .ok hread ⟨rfl, hbelow.suffix, hbelow.suffix.length_le⟩
  | error hread hdepth =>
    rw [outcome_bind_error hresult]
    exact .error hread hdepth

end

end Stencil.Counting
