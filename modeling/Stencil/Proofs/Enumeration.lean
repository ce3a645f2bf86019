import Mathlib.Data.List.Nodup
import Stencil.Proofs.Number.Whole
import Stencil.Value.Property

/-!
# Keys and elements

Looking up the keys of a value one by one gives its elements in order. Besides the keys, an array or
a text has only its length, and an object has nothing.

* `index?_eq_some_iff`: an index has one name
* `Fields.Sorted.get?_eq_some_iff`: what is under a name
* `Value.elements`: the items of an array, the entries of an object, the units of a text
* `Value.IsSequence.property_eq`: arrays and texts are looked up alike
* `Value.keys_fit`: the main statement
-/

namespace Stencil

/-! ## Names of indexes -/

theorem ofDigits_toDigits (n : Nat) : Number.ofDigits (Nat.toDigits 10 n) = n := by
  have hread := Nat.ofDigitChars_ten_toDigits (n := n)
  rwa [Nat.ofDigitChars_eq_foldl] at hread

theorem index?_indexName (n : Nat) : index? (indexName n) = some n := by
  have hdigits : (indexName n).toList = Nat.toDigits 10 n := String.toList_ofList
  have hall : (Nat.toDigits 10 n).all Number.isDigit = true :=
    List.all_eq_true.2 fun c hc => Nat.isDigit_of_mem_toDigits (by decide) (by decide) hc
  rw [index?, hdigits, hall, ofDigits_toDigits, beq_self_eq_true]
  rfl

/-- Only one name stands for an index. -/
theorem index?_eq_some_iff {name : String} {n : Nat} :
    index? name = some n ↔ name = indexName n := by
  constructor
  · intro h
    unfold index? at h
    split at h
    · rename_i hcanonical
      obtain rfl := Option.some_inj.1 h
      exact (beq_iff_eq.1 (Bool.and_eq_true_iff.1 hcanonical).2).symm
    · cases h
  · rintro rfl
    exact index?_indexName n

theorem indexName_injective : Function.Injective indexName := by
  intro m n h
  have hread := congrArg index? h
  rw [index?_indexName, index?_indexName] at hread
  exact Option.some_inj.1 hread

theorem indexName_ne_lengthName (n : Nat) : indexName n ≠ lengthName := by
  intro h
  have hnone : index? lengthName = none := by decide
  rw [← h, index?_indexName] at hnone
  cases hnone

/-! ## Entries -/

namespace Fields

variable {α : Type} {fields : Fields α} {name : String} {v : α}

theorem mem_of_get? (h : get? name fields = some v) : (name, v) ∈ fields := by
  induction fields with
  | nil => cases h
  | cons e rest ih =>
    rw [get?] at h
    split at h
    · rename_i hname
      obtain rfl := Option.some_inj.1 h
      rw [hname]
      exact List.mem_cons_self
    · exact List.mem_cons_of_mem _ (ih h)

theorem Sorted.get?_eq_some_iff (hsorted : Sorted fields) :
    get? name fields = some v ↔ (name, v) ∈ fields := by
  refine ⟨mem_of_get?, fun h => ?_⟩
  induction fields with
  | nil => cases h
  | cons e rest ih =>
    obtain ⟨hhead, hrest⟩ := List.pairwise_cons.1 hsorted
    rw [get?]
    rcases List.mem_cons.1 h with rfl | htail
    · exact if_pos rfl
    · have hne : name ≠ e.1 := (String.ne_of_lt (hhead _ htail)).symm
      rw [if_neg hne]
      exact ih hrest htail

theorem get?_eq_none_iff : get? name fields = none ↔ name ∉ names fields := by
  induction fields with
  | nil => exact iff_of_true rfl List.not_mem_nil
  | cons e rest ih =>
    rw [get?, names, List.map_cons, List.mem_cons, not_or]
    split
    · rename_i hname
      simp [hname]
    · rename_i hname
      simp [hname, ih, names]

theorem Sorted.nodup_names (h : Sorted fields) : (names fields).Nodup :=
  List.pairwise_map.2 (h.imp String.ne_of_lt)

end Fields

namespace Value

/-! ## Elements -/

/-- The text of one UTF-16 unit. Half of a pair is shown as the replacement character. -/
def unitText (u : Nat) : Value :=
  string (String.ofList [if Text.isHigh u || Text.isLow u then '\uFFFD' else Char.ofNat u])

/-- What there is under the keys of a value: the items of an array, the values of an object in the
order of their names, the UTF-16 units of a text. -/
def elements : Value → List Value
  | array _ items => items
  | object _ entries => entries.map Prod.snd
  | string s => (Text.encode s.toList).map unitText
  | _ => []

/-- Arrays and texts have elements by index. -/
inductive IsSequence : Value → Prop
  | ofArray (id : Ref) (items : List Value) : IsSequence (array id items)
  | ofText (s : String) : IsSequence (string s)

section

variable {v : Value}

/-- Arrays and texts are looked up alike. -/
theorem IsSequence.property_eq (h : v.IsSequence) (name : String) :
    v.property name = .ok (if name = lengthName then ofNat v.elements.length
      else ((index? name).bind fun i => v.elements[i]?).getD undefined) := by
  cases h with
  | ofArray id items =>
    rw [property, elements]
    split <;> rfl
  | ofText s =>
    have hitem (i : Nat) : (Text.encode s.toList)[i]?.map ofUnit =
        ((Text.encode s.toList).map unitText)[i]? := by
      rw [List.getElem?_map]
      rfl
    rw [property, elements, List.length_map]
    simp only [hitem]
    split <;> rfl

theorem IsSequence.keys_eq (h : v.IsSequence) :
    v.keys = (List.range v.elements.length).map fun i => string (indexName i) := by
  cases h with
  | ofArray id items => rfl
  | ofText s =>
    rw [keys, elements, List.length_map]
    rfl

theorem text_string (s : String) : (string s).text = s :=
  String.ofList_toList

theorem string_injective : Function.Injective string :=
  fun _ _ => string.inj

theorem IsSequence.property_indexName (h : v.IsSequence) (i : Nat) :
    v.property (indexName i) = .ok (v.elements[i]?.getD undefined) := by
  rw [h.property_eq, if_neg (indexName_ne_lengthName i), index?_indexName, Option.bind_some]

theorem IsSequence.mem_keys_iff (h : v.IsSequence) {name : String} :
    string name ∈ v.keys ↔ ∃ i < v.elements.length, name = indexName i := by
  simp only [h.keys_eq, List.mem_map, List.mem_range, string.injEq, eq_comm]

/-- Besides the keys, there is only the length. -/
theorem IsSequence.property_of_not_mem (h : v.IsSequence) {name : String}
    (hkey : string name ∉ v.keys) (hlength : name ≠ lengthName) :
    v.property name = .ok undefined := by
  rw [h.property_eq, if_neg hlength]
  cases hindex : index? name with
  | none => rfl
  | some i =>
    have hout : v.elements.length ≤ i := by
      refine Nat.not_lt.1 fun hi => hkey (h.mem_keys_iff.2 ⟨i, hi, ?_⟩)
      exact index?_eq_some_iff.1 hindex
    rw [Option.bind_some, List.getElem?_eq_none hout]
    rfl

/-! ## Keys -/

theorem property_object (id : Ref) (entries : List (String × Value)) (name : String) :
    (object id entries).property name = .ok ((Fields.get? name entries).getD undefined) :=
  rfl

/-- Looking up what is there succeeds. -/
theorem mapM_eq_ok {α β ε : Type} {f : α → Except ε β} {g : α → β} {items : List α}
    (h : ∀ a ∈ items, f a = .ok (g a)) : items.mapM f = .ok (items.map g) := by
  induction items with
  | nil => rfl
  | cons a items ih =>
    obtain ⟨ha, hitems⟩ := List.forall_mem_cons.1 h
    rw [List.mapM_cons, ha, ih hitems]
    rfl

/-- The items at all the indexes, in order. -/
theorem map_getElem?_range (items : List Value) :
    ((List.range items.length).map fun i => items[i]?.getD undefined) = items := by
  refine List.ext_getElem (by simp) fun i _ hi => ?_
  simp [hi]

theorem map_range {α : Type} (f : Value → α) (items : List Value) :
    ((List.range items.length).map fun i => f (items[i]?.getD undefined)) = items.map f := by
  have hitems := congrArg (List.map f) (map_getElem?_range items)
  rwa [List.map_map] at hitems

/-- There are as many keys as the length says. -/
theorem IsSequence.property_lengthName (h : v.IsSequence) :
    ∃ x, v.property lengthName = .ok (number x) ∧
      (v.keys.length < Number.exactBound → Number.whole? x = some (v.keys.length : Int)) := by
  have hlength : v.keys.length = v.elements.length := by
    rw [h.keys_eq, List.length_map, List.length_range]
  rw [hlength, h.property_eq, if_pos rfl]
  exact ⟨_, rfl, fun hbound => (Number.holds_ofNat_of_lt hbound).whole?⟩

theorem IsSequence.nodup_keys (h : v.IsSequence) : v.keys.Nodup := by
  rw [h.keys_eq]
  exact List.nodup_range.map (string_injective.comp indexName_injective)

theorem IsSequence.mapM_keys (h : v.IsSequence) :
    v.keys.mapM (fun k => v.property k.text) = .ok v.elements := by
  have hlookup : ∀ i ∈ List.range v.elements.length,
      v.property (string (indexName i)).text = .ok (v.elements[i]?.getD undefined) := by
    intro i _
    rw [text_string, h.property_indexName]
  rw [h.keys_eq, List.mapM_map]
  exact (mapM_eq_ok hlookup).trans (congrArg Except.ok (map_getElem?_range v.elements))

section

variable {id : Ref} {entries : List (String × Value)}

theorem nodup_keys_object (h : Fields.Sorted entries) : (object id entries).keys.Nodup :=
  h.nodup_names.map string_injective

theorem mapM_keys_object (h : Fields.Sorted entries) :
    (object id entries).keys.mapM (fun k => (object id entries).property k.text) =
      .ok (object id entries).elements := by
  have hlookup : ∀ e ∈ entries, (object id entries).property (string e.1).text = .ok e.2 := by
    intro e he
    rw [text_string, property_object, h.get?_eq_some_iff.2 he, Option.getD_some]
  rw [keys, Fields.names, List.mapM_map, List.mapM_map]
  exact mapM_eq_ok hlookup

/-- Nothing is found under a name that is not a key, and under a key whose value is nothing. -/
theorem property_object_eq_undefined_iff (h : Fields.Sorted entries) {name : String} :
    (object id entries).property name = .ok undefined ↔
      string name ∉ (object id entries).keys ∨ (name, undefined) ∈ entries := by
  have hkeys : string name ∈ (object id entries).keys ↔ name ∈ Fields.names entries := by
    rw [keys, List.mem_map_of_injective string_injective]
  rw [hkeys, ← Fields.get?_eq_none_iff, ← h.get?_eq_some_iff, property_object]
  cases Fields.get? name entries with
  | none => simp
  | some v => simp

end

/-! ## The main statement -/

/-- What has keys: an array, a text, or an object, whose names ascend. -/
inductive Enumerable : Value → Prop
  | sequence {v : Value} : v.IsSequence → Enumerable v
  | ofObject {id : Ref} {entries : List (String × Value)} :
      Fields.Sorted entries → Enumerable (object id entries)

/-- **Keys, elements and length fit together.** No key occurs twice, and looking up the keys one by
one gives the elements in order. Arrays and texts have as many keys as their length says, and
nothing besides their keys and their length. In an object there is nothing under the names that are
not keys, and under a key only if its value is `undefined`. -/
theorem keys_fit (v : Value) (h : v.Enumerable) :
    v.keys.Nodup ∧
    v.keys.mapM (fun k => v.property k.text) = .ok v.elements ∧
    (v.IsSequence →
      (∃ x, v.property lengthName = .ok (number x) ∧
        (v.keys.length < Number.exactBound → Number.whole? x = some (v.keys.length : Int))) ∧
      ∀ name, string name ∉ v.keys → name ≠ lengthName → v.property name = .ok undefined) ∧
    ∀ id entries, v = object id entries → ∀ name,
      v.property name = .ok undefined ↔ string name ∉ v.keys ∨ (name, undefined) ∈ entries := by
  cases h with
  | sequence hv =>
    refine ⟨hv.nodup_keys, hv.mapM_keys, fun _ => ⟨hv.property_lengthName, fun _ hkey hname =>
      hv.property_of_not_mem hkey hname⟩, ?_⟩
    rintro id entries rfl
    cases hv
  | ofObject hsorted =>
    refine ⟨nodup_keys_object hsorted, mapM_keys_object hsorted, nofun, ?_⟩
    rintro id entries ⟨⟩ name
    exact property_object_eq_undefined_iff hsorted

/-- A text with a pair, and a name that stands for no index of it. -/
theorem keys_fit_pair : (string "a😀").Enumerable ∧
    (string "a😀").keys.mapM (fun k => (string "a😀").property k.text) =
      .ok [string "a", string "\uFFFD", string "\uFFFD"] ∧
    string "01" ∉ (string "a😀").keys ∧ (string "a😀").property "01" = .ok undefined := by
  have hsequence := IsSequence.ofText "a😀"
  have hfit := keys_fit (string "a😀") (.sequence hsequence)
  have helements : (string "a😀").elements = [string "a", string "\uFFFD", string "\uFFFD"] := by
    rfl
  have hkey : string "01" ∉ (string "a😀").keys := by
    intro hmem
    obtain ⟨i, hi, hname⟩ := hsequence.mem_keys_iff.1 hmem
    have hnone : index? "01" = none := by decide
    rw [hname, index?_indexName] at hnone
    cases hnone
  rw [helements] at hfit
  exact ⟨.sequence hsequence, hfit.2.1, hkey, (hfit.2.2.1 hsequence).2 "01" hkey (by decide)⟩

/-- A key under which there is `undefined`. -/
theorem key_of_undefined : Fields.Sorted [("p", undefined)] ∧
    ¬ ∀ name, (object (.given 0) [("p", undefined)]).property name = .ok undefined ↔
      string name ∉ (object (.given 0) [("p", undefined)]).keys :=
  ⟨List.pairwise_singleton _ _, fun h => (h "p").1 rfl List.mem_cons_self⟩

end

end Value

end Stencil
