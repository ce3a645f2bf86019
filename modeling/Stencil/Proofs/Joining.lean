import Stencil.Proofs.Rereading
import Stencil.Proofs.Run.Emission

/-!
# The text of an array

An array is turned into a text in many places: as it is shown, by its methods, in a sum with a text
and in the output. All of them give the texts of the items with commas between them, where items
that are nothing are empty, and arrays among the items are texts of the same kind. Another separator
stands between the items of the array itself only.

* `Value.ItemText`, `Value.Listed`: which text an item has, and which one some items have
* `Value.listed_iff`: just the joined text
* `Value.joinFrom_eq`: the method that joins items makes up this text, too
* `Run.CallGives`: what a call of a method gives in every run
* `Value.HasTextForms`: the places in which a value is turned into a text
* `Value.array_text_forms`: the main statement
-/

namespace Stencil

namespace Value

/-! ## The texts of items -/

/-- The text of a value as an item of an array. -/
inductive ItemText : Value → String → Prop
  /-- Items that are nothing are empty. -/
  | nothing {v : Value} (h : v.isNullish = true) : ItemText v ""
  /-- An array has the texts of its own items, with commas between them. -/
  | array {id : Ref} {items : List Value} {texts : List String}
      (h : List.Forall₂ ItemText items texts) : ItemText (array id items) (",".intercalate texts)
  | other {v : Value} (hsome : v.isNullish = false) (hkind : v.kind ≠ .array) : ItemText v v.text

/-- The text consists of the texts of the items with the separator between them. -/
def Listed (separator : String) (items : List Value) (t : String) : Prop :=
  ∃ texts, List.Forall₂ ItemText items texts ∧ t = separator.intercalate texts

/-- The text of an item as it is computed. -/
def itemText (v : Value) : String :=
  if v.isNullish then "" else v.text

theorem toList_itemText (v : Value) :
    v.itemText.toList = if v.isNullish then [] else v.chars := by
  unfold itemText
  split
  · rfl
  · exact String.toList_ofList

theorem itemChars_eq_map (items : List Value) :
    itemChars items = items.map fun v => v.itemText.toList := by
  induction items with
  | nil => rfl
  | cons v rest ih => rw [itemChars, ih, List.map_cons, toList_itemText]

/-- The texts of the items with a separator between them, as a string. -/
theorem ofList_intercalate (separator : String) (items : List Value) :
    String.ofList (separator.toList.intercalate (itemChars items)) =
      separator.intercalate (items.map itemText) := by
  rw [← String.toList_inj, String.toList_ofList, String.toList_intercalate, itemChars_eq_map,
    List.map_map]
  rfl

theorem text_array (id : Ref) (items : List Value) :
    (array id items).text = String.ofList ([','].intercalate (itemChars items)) := by
  rw [text, chars_array]

theorem itemText_array (id : Ref) (items : List Value) :
    (array id items).itemText = ",".intercalate (items.map itemText) :=
  (text_array id items).trans (ofList_intercalate "," items)

/-- Item by item, with a separator before each but the first one, the texts are joined. -/
theorem joinFrom_eq (separator : List Char) (index : Nat) (items : List Value) :
    joinFrom separator index items =
      (if 0 < index ∧ items ≠ [] then separator else []) ++
        separator.intercalate (itemChars items) := by
  induction items generalizing index with
  | nil => simp [joinFrom, itemChars]
  | cons v rest ih =>
    rw [joinFrom, ih, itemChars]
    cases rest with
    | nil => simp [itemChars]
    | cons v' rest => simp [itemChars, List.append_assoc]

theorem join_eq_intercalate (items : List Value) (separator : Value) :
    join items separator =
      (if separator.isUndefined then [','] else separator.chars).intercalate (itemChars items) := by
  rw [join, joinFrom_eq]
  exact List.nil_append _

/-- The items have one list of texts, if each of them has one text. -/
theorem forall₂_itemText_iff {items : List Value}
    (h : ∀ v ∈ items, ∀ t, ItemText v t ↔ t = v.itemText) (texts : List String) :
    List.Forall₂ ItemText items texts ↔ texts = items.map itemText := by
  induction items generalizing texts with
  | nil => exact List.forall₂_nil_left_iff
  | cons v rest ih =>
    obtain ⟨hfirst, hrest⟩ := List.forall_mem_cons.1 h
    rw [List.forall₂_cons_left_iff, List.map_cons]
    refine ⟨?_, ?_⟩
    · rintro ⟨t, texts, ht, htexts, rfl⟩
      rw [(hfirst t).1 ht, (ih hrest texts).1 htexts]
    · rintro rfl
      exact ⟨_, _, (hfirst _).2 rfl, (ih hrest _).2 rfl, rfl⟩

/-- Each value has one text as an item. -/
theorem itemText_iff (v : Value) : ∀ t, ItemText v t ↔ t = v.itemText := by
  induction v using parts_induction with
  | leaf v hleaf =>
    have hkind : v.kind ≠ .array := by
      cases v with
      | array => cases hleaf
      | _ => nofun
    intro t
    unfold itemText
    cases hnull : v.isNullish with
    | true =>
      refine ⟨fun h => ?_, fun h => h ▸ .nothing hnull⟩
      cases h with
      | nothing => rfl
      | array => cases hleaf
      | other hsome => cases hnull.symm.trans hsome
    | false =>
      refine ⟨fun h => ?_, fun h => h ▸ .other hnull hkind⟩
      cases h with
      | nothing h => cases hnull.symm.trans h
      | array => cases hleaf
      | other => rfl
  | array id items ih =>
    intro t
    rw [itemText_array]
    refine ⟨fun h => ?_, fun h => h ▸ .array ((forall₂_itemText_iff ih _).2 rfl)⟩
    cases h with
    | nothing h => cases h
    | array h => rw [(forall₂_itemText_iff ih _).1 h]
    | other _ hkind => exact absurd rfl hkind
  | object id entries _ =>
    intro t
    refine ⟨fun h => ?_, fun h => h ▸ .other rfl nofun⟩
    cases h with
    | nothing h => cases h
    | other => rfl

/-- Some items have one text, the joined one. -/
theorem listed_iff (separator : String) (items : List Value) (t : String) :
    Listed separator items t ↔
      t = String.ofList (separator.toList.intercalate (itemChars items)) := by
  have htexts (texts : List String) :
      List.Forall₂ ItemText items texts ↔ texts = items.map itemText :=
    forall₂_itemText_iff (fun v _ => itemText_iff v) texts
  rw [ofList_intercalate]
  refine ⟨?_, fun h => ⟨_, (htexts _).2 rfl, h⟩⟩
  rintro ⟨texts, h, rfl⟩
  rw [(htexts texts).1 h]

end Value

/-! ## Calls of methods -/

namespace Run

/-- In every run, calling the method of an expression with the value, with arguments that have the
given values, gives the result. No more of the state changes than the number of new arrays. -/
def CallGives (v : Value) (name : String) (arguments : List Value) (w : Value) : Prop :=
  ∀ (σ : Type) (scene : Scene) (e : Expr) (args : List Expr) (s s₁ s₂ : State σ),
    Action.result (eval scene e) s = (.ok v, s₁) →
    Action.result (evalAll scene args) s₁ = (.ok arguments, s₂) →
    Action.result (eval scene (.call (.attr e name) args)) s =
      (.ok w, { s₂ with made := s₂.made + 1 })

/-- A method that no property hides is called. -/
theorem callGives_of_method? {v w : Value} {name : String} {arguments : List Value}
    (hproperty : v.property name = .ok .undefined)
    (h : ∀ fresh, v.method? fresh name arguments = some w) : CallGives v name arguments w := by
  intro σ scene e args s s₁ s₂ he hargs
  have hfresh : Action.result freshRef s₂ =
      (.ok (.made s₂.made), { s₂ with made := s₂.made + 1 }) := rfl
  rw [eval, result_bind_ok he, hproperty]
  refine (result_bind_ok rfl _).trans ((result_bind_ok hargs _).trans ?_)
  refine (result_bind_ok hfresh _).trans ?_
  rw [h]
  rfl

end Run

namespace Value

/-! ## The places in which values become texts -/

/-- Wherever the value is turned into a text, it is the given one. -/
structure HasTextForms (v : Value) (t : String) : Prop where
  shown : v.text = t
  /-- The texts that are written for the value make it up. -/
  written : String.join v.pieces = t
  joined : Run.CallGives v "join" [] (string t)
  /-- An `undefined` separator is as good as none. -/
  joinedByUndefined : ∀ rest, Run.CallGives v "join" (undefined :: rest) (string t)
  converted : ∀ arguments, Run.CallGives v "toString" arguments (string t)
  added : (string "").add v = string t
  /-- The statement that writes the value of an expression appends the text to the output. -/
  emitted : ∀ (scene : Run.Scene) (e : Expr) (s s₁ : Run.State Buffer),
    scene.exhausted s.spent = false →
    Run.Action.result (Run.eval scene e) { s with spent := s.spent + 1 } = (.ok v, s₁) →
    Run.Action.result (Run.exec scene (.emit e)) s =
      (.ok (), { s₁ with sink := ⟨s₁.sink.text ++ t⟩, emitted := v :: s₁.emitted })

theorem method?_join (id fresh : Ref) (items : List Value) (arguments : List Value) :
    (array id items).method? fresh "join" arguments =
      some (string (String.ofList (join items (argument arguments 0)))) :=
  rfl

theorem hasTextForms_array (id : Ref) (items : List Value) :
    (array id items).HasTextForms (String.ofList ([','].intercalate (itemChars items))) where
  shown := text_array id items
  written := by
    rw [← String.toList_inj, String.toList_join, flatMap_pieces.1, String.toList_ofList,
      chars_array]
  joined := Run.callGives_of_method? rfl fun fresh => by
    rw [method?_join, join_eq_intercalate]
    rfl
  joinedByUndefined rest := Run.callGives_of_method? rfl fun fresh => by
    rw [method?_join, join_eq_intercalate]
    rfl
  converted arguments := Run.callGives_of_method? rfl fun fresh => by
    change some (string (String.ofList (join items undefined))) = _
    rw [join_eq_intercalate]
    rfl
  added := by
    change string (String.ofList ([] ++ (array id items).text.toList)) = _
    rw [List.nil_append, String.ofList_toList, text_array]
  emitted scene e s s₁ hfuel he := by
    have hspend : Run.Action.result (Run.spend scene) s =
        (.ok (), { s with spent := s.spent + 1 }) := by
      rw [Run.result_spend, hfuel]
      rfl
    rw [Run.exec, Run.result_bind_ok hspend, Run.result_bind_ok he, Run.result_emit_buffer,
      ← text_array id items]
    rfl

/-- A separator other than `undefined` is used by its text. -/
theorem callGives_join (id : Ref) (items : List Value) {separator : Value}
    (h : separator.isUndefined = false) (rest : List Value) :
    Run.CallGives (array id items) "join" (separator :: rest)
      (string (String.ofList (separator.chars.intercalate (itemChars items)))) := by
  refine Run.callGives_of_method? rfl fun fresh => ?_
  have hargument : argument (separator :: rest) 0 = separator := rfl
  rw [method?_join, hargument, join_eq_intercalate, h, if_neg Bool.false_ne_true]

/-- All text forms of an array are the one text that consists of the texts of its items with commas
between them. Joined with another separator, it is the text with that separator in their place. -/
theorem array_text_forms (id : Ref) (items : List Value) :
    (∃ t, (∀ u, Listed "," items u ↔ u = t) ∧ (array id items).HasTextForms t) ∧
      ∀ separator : Value, separator.isUndefined = false →
        ∃ t, (∀ u, Listed separator.text items u ↔ u = t) ∧
          ∀ rest, Run.CallGives (array id items) "join" (separator :: rest) (string t) := by
  refine ⟨⟨_, listed_iff "," items, hasTextForms_array id items⟩, fun separator h => ?_⟩
  refine ⟨_, listed_iff separator.text items, fun rest => ?_⟩
  rw [text, String.toList_ofList]
  exact callGives_join id items h rest

/-- An array in another one keeps its commas. -/
theorem array_text_forms_nested :
    Run.CallGives (array .scope [string "a", null, array .scope [undefined, string "b"]]) "join"
      [string "-"] (string "a--,b") := by
  obtain ⟨t, ht, hcalls⟩ :=
    (array_text_forms .scope [string "a", null, array .scope [undefined, string "b"]]).2
      (string "-") rfl
  have hjoined : "a--,b" = t := (ht _).1 ((listed_iff _ _ _).2 rfl)
  rw [hjoined]
  exact hcalls []

end Value

end Stencil
