/-!
# Fields

A finite map from names to values, kept as a list that is sorted by name. Objects, contexts and the
locals of a run are such maps.

* `insert`, `get?`, `erase`, `ofList`: the operations
* `Sorted`: the names ascend strictly
* `sorted_insert`, `get?_insert_self`, `get?_insert_of_ne`: what an insertion does
-/

namespace Stencil

/-- A finite map from names to values, as a list of entries. -/
abbrev Fields (α : Type) := List (String × α)

namespace Fields

variable {α : Type}

/-- The value under a name. -/
def get? (name : String) : Fields α → Option α
  | [] => none
  | (k, v) :: rest => if name = k then some v else get? name rest

/-- Is there a value under the name? -/
def contains (name : String) (fields : Fields α) : Bool :=
  (get? name fields).isSome

/-- Puts a value under a name, in the place of any value that was there. -/
def insert (name : String) (value : α) : Fields α → Fields α
  | [] => [(name, value)]
  | (k, v) :: rest =>
    if name < k then (name, value) :: (k, v) :: rest
    else if name = k then (name, value) :: rest
    else (k, v) :: insert name value rest

/-- Removes the value under a name. -/
def erase (name : String) : Fields α → Fields α
  | [] => []
  | (k, v) :: rest => if name = k then rest else (k, v) :: erase name rest

/-- The entries put in one after the other. -/
def insertAll (entries : List (String × α)) (fields : Fields α) : Fields α :=
  entries.foldl (fun acc e => insert e.1 e.2 acc) fields

/-- The map of some entries. Of two entries with one name the later one counts. -/
def ofList (entries : List (String × α)) : Fields α :=
  insertAll entries []

/-- The names, in order. -/
def names (fields : Fields α) : List String :=
  fields.map Prod.fst

/-- The names ascend strictly. -/
def Sorted (fields : Fields α) : Prop :=
  fields.Pairwise fun a b => a.1 < b.1

/-! ## What an insertion does -/

theorem get?_insert_self (name : String) (value : α) (fields : Fields α) :
    get? name (insert name value fields) = some value := by
  induction fields with
  | nil => simp [insert, get?]
  | cons e rest ih =>
    obtain ⟨k, v⟩ := e
    unfold insert
    split
    · simp [get?]
    · split
      · simp [get?]
      · rename_i h
        simp [get?, h, ih]

theorem get?_insert_of_ne {name other : String} (h : other ≠ name) (value : α) (fields : Fields α) :
    get? other (insert name value fields) = get? other fields := by
  induction fields with
  | nil => simp [insert, get?, h]
  | cons e rest ih =>
    obtain ⟨k, v⟩ := e
    unfold insert
    split
    · simp [get?, h]
    · split
      · rename_i hk
        subst hk
        simp [get?, h]
      · simp [get?, ih]

theorem mem_insert {name : String} {value : α} {e : String × α} {fields : Fields α}
    (h : e ∈ insert name value fields) : e = (name, value) ∨ e ∈ fields := by
  induction fields with
  | nil => simpa [insert] using h
  | cons d rest ih =>
    obtain ⟨k, v⟩ := d
    unfold insert at h
    split at h
    · simpa using h
    · split at h
      · simp only [List.mem_cons] at h ⊢
        exact h.imp_right .inr
      · simp only [List.mem_cons] at h ⊢
        rcases h with h | h
        · exact .inr (.inl h)
        · exact (ih h).imp_right .inr

theorem sorted_insert (name : String) (value : α) {fields : Fields α} (h : Sorted fields) :
    Sorted (insert name value fields) := by
  induction fields with
  | nil => simp [insert, Sorted]
  | cons e rest ih =>
    obtain ⟨k, v⟩ := e
    have hp := List.pairwise_cons.1 h
    unfold insert
    split
    · rename_i hlt
      refine List.pairwise_cons.2 ⟨fun d hd => ?_, h⟩
      rcases List.mem_cons.1 hd with rfl | hd
      · exact hlt
      · exact String.lt_trans hlt (hp.1 d hd)
    · split
      · rename_i heq
        subst heq
        exact List.pairwise_cons.2 hp
      · rename_i hlt hne
        refine List.pairwise_cons.2 ⟨fun d hd => ?_, ih hp.2⟩
        rcases mem_insert hd with rfl | hd
        · exact String.not_le.1 fun hle =>
            hne (String.le_antisymm hle (String.not_lt.1 hlt))
        · exact hp.1 d hd

end Fields

end Stencil
