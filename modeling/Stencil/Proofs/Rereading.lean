import Stencil.Proofs.Number.Exact
import Stencil.Value.Data

/-!
# Values that are turned into plain data and back

Plain data have no `undefined`, no functions and only finite numbers. A value that is turned into
plain data and read again has null in the place of these, and zero in the place of a negative zero;
all else is as it was, but for the identities of arrays and objects, which are new.

* `Fields.ofList_of_sorted`: entries in order make up the map that they are
* `Value.rebuild`: a value with other identities and other leaves, in the same places
* `Value.Ordered`, `Value.IsLeafOf`: the names of objects ascend; what a value is made up of
* `Value.expressed`, `Value.isExpressible`: what plain data make of a leaf
* `DataLibrary.Documented`: what is documented of a library of plain data
* `Value.reread_settles`: the main statement
-/

namespace Stencil

/-! ## Entries in order -/

namespace Fields

variable {α : Type}

theorem sorted_iff_names {fields : Fields α} :
    Sorted fields ↔ (names fields).Pairwise (· < ·) :=
  List.pairwise_map.symm

theorem sorted_insertAll (entries : List (String × α)) {fields : Fields α} (h : Sorted fields) :
    Sorted (insertAll entries fields) := by
  induction entries generalizing fields with
  | nil => exact h
  | cons e rest ih => exact ih (sorted_insert e.1 e.2 h)

theorem sorted_ofList (entries : List (String × α)) : Sorted (ofList entries) :=
  sorted_insertAll entries List.Pairwise.nil

theorem mem_insertAll {entries : List (String × α)} {fields : Fields α} {e : String × α}
    (h : e ∈ insertAll entries fields) : e ∈ entries ∨ e ∈ fields := by
  induction entries generalizing fields with
  | nil => exact .inr h
  | cons d rest ih =>
    rcases ih h with hrest | hfields
    · exact .inl (List.mem_cons_of_mem d hrest)
    · rcases mem_insert hfields with rfl | hfields
      · exact .inl List.mem_cons_self
      · exact .inr hfields

theorem mem_of_mem_ofList {entries : List (String × α)} {e : String × α}
    (h : e ∈ ofList entries) : e ∈ entries :=
  (mem_insertAll h).resolve_right List.not_mem_nil

/-- A name after all others is put at the end. -/
theorem insert_of_last {name : String} {fields : Fields α} (h : ∀ e ∈ fields, e.1 < name)
    (value : α) : insert name value fields = fields ++ [(name, value)] := by
  induction fields with
  | nil => rfl
  | cons e rest ih =>
    obtain ⟨hfirst, hrest⟩ := List.forall_mem_cons.1 h
    rw [insert, if_neg (String.lt_asymm hfirst), if_neg (String.ne_of_lt hfirst).symm, ih hrest,
      List.cons_append]

theorem insertAll_of_sorted {entries : List (String × α)} {fields : Fields α}
    (h : Sorted (fields ++ entries)) : insertAll entries fields = fields ++ entries := by
  induction entries generalizing fields with
  | nil => exact (List.append_nil fields).symm
  | cons e rest ih =>
    have hlast : ∀ d ∈ fields, d.1 < e.1 := fun d hd =>
      (List.pairwise_append.1 h).2.2 d hd e List.mem_cons_self
    have hsplit : fields ++ e :: rest = fields ++ [e] ++ rest := by
      rw [List.append_assoc, List.singleton_append]
    rw [hsplit] at h ⊢
    rw [← ih h, insertAll, List.foldl_cons, insert_of_last hlast]
    rfl

/-- Entries in order make up the map that they are. -/
theorem ofList_of_sorted {entries : List (String × α)} (h : Sorted entries) :
    ofList entries = entries :=
  @insertAll_of_sorted _ entries [] h

end Fields

namespace Value

/-! ## The places in a value -/

mutual

/-- The value with its identities and its leaves replaced. Items and names keep their places. -/
def rebuild (ref : Ref → Ref) (leaf : Value → Value) : Value → Value
  | array id items => array (ref id) (rebuildItems ref leaf items)
  | object id entries => object (ref id) (rebuildFields ref leaf entries)
  | v => leaf v

/-- The items, each with its identities and its leaves replaced. -/
def rebuildItems (ref : Ref → Ref) (leaf : Value → Value) : List Value → List Value
  | [] => []
  | v :: rest => rebuild ref leaf v :: rebuildItems ref leaf rest

/-- The entries, each with the identities and the leaves of its value replaced. -/
def rebuildFields (ref : Ref → Ref) (leaf : Value → Value) :
    List (String × Value) → List (String × Value)
  | [] => []
  | (name, v) :: rest => (name, rebuild ref leaf v) :: rebuildFields ref leaf rest

end

/-- Is the value no array and no object? -/
def isLeaf : Value → Bool
  | array .. | object .. => false
  | _ => true

/-- The value is made up of the leaf, at any depth. -/
inductive IsLeafOf (leaf : Value) : Value → Prop
  | self (h : leaf.isLeaf = true) : IsLeafOf leaf leaf
  | item {id : Ref} {items : List Value} {v : Value} (hmem : v ∈ items) (h : IsLeafOf leaf v) :
      IsLeafOf leaf (array id items)
  | entry {id : Ref} {entries : List (String × Value)} {e : String × Value} (hmem : e ∈ entries)
      (h : IsLeafOf leaf e.2) : IsLeafOf leaf (object id entries)

/-- The names of every object in the value ascend. -/
inductive Ordered : Value → Prop
  | leaf {v : Value} (h : v.isLeaf = true) : Ordered v
  | array {id : Ref} {items : List Value} (hitems : ∀ v ∈ items, Ordered v) :
      Ordered (array id items)
  | object {id : Ref} {entries : List (String × Value)} (hsorted : Fields.Sorted entries)
      (hentries : ∀ e ∈ entries, Ordered e.2) : Ordered (object id entries)

section

variable {ref ref' : Ref → Ref} {f g : Value → Value} {v : Value}

theorem rebuildItems_eq_map (ref : Ref → Ref) (f : Value → Value) (items : List Value) :
    rebuildItems ref f items = items.map (rebuild ref f) := by
  induction items with
  | nil => rfl
  | cons v rest ih => rw [rebuildItems, ih, List.map_cons]

theorem rebuildFields_eq_map (ref : Ref → Ref) (f : Value → Value)
    (entries : List (String × Value)) :
    rebuildFields ref f entries = entries.map fun e => (e.1, rebuild ref f e.2) := by
  induction entries with
  | nil => rfl
  | cons e rest ih => rw [rebuildFields, ih, List.map_cons]

theorem rebuild_array (id : Ref) (items : List Value) :
    (array id items).rebuild ref f = array (ref id) (items.map (rebuild ref f)) := by
  rw [← rebuildItems_eq_map]
  rfl

theorem rebuild_object (id : Ref) (entries : List (String × Value)) :
    (object id entries).rebuild ref f =
      object (ref id) (entries.map fun e => (e.1, rebuild ref f e.2)) := by
  rw [← rebuildFields_eq_map]
  rfl

theorem rebuild_of_isLeaf (h : v.isLeaf = true) : v.rebuild ref f = f v := by
  cases v <;> first
    | rfl
    | cases h

/-- An induction over the values that a value is made up of. -/
theorem parts_induction {motive : Value → Prop} (leaf : ∀ v, v.isLeaf = true → motive v)
    (array : ∀ id items, (∀ v ∈ items, motive v) → motive (array id items))
    (object : ∀ id entries, (∀ e ∈ entries, motive e.2) → motive (object id entries))
    (v : Value) : motive v := by
  refine Value.rec
    (motive_1 := motive)
    (motive_2 := fun items => ∀ v ∈ items, motive v)
    (motive_3 := fun entries => ∀ e ∈ entries, motive e.2)
    (motive_4 := fun e => motive e.2)
    ?undefined ?null ?bool ?number ?string ?array ?object ?function ?nil ?cons ?fnil ?fcons ?mk v
  case undefined => exact leaf _ rfl
  case null => exact leaf _ rfl
  case bool => exact fun _ => leaf _ rfl
  case number => exact fun _ => leaf _ rfl
  case string => exact fun _ => leaf _ rfl
  case function => exact fun _ => leaf _ rfl
  case array => exact array
  case object => exact object
  case nil => exact fun _ h => absurd h List.not_mem_nil
  case cons => exact fun _ _ hfirst hrest => List.forall_mem_cons.2 ⟨hfirst, hrest⟩
  case fnil => exact fun _ h => absurd h List.not_mem_nil
  case fcons => exact fun _ _ hfirst hrest => List.forall_mem_cons.2 ⟨hfirst, hrest⟩
  case mk => exact fun _ _ h => h

/-- Two rebuildings are one, if the first one makes leaves of leaves. -/
theorem rebuild_rebuild (hleaf : ∀ w, w.isLeaf = true → (f w).isLeaf = true) (v : Value) :
    (v.rebuild ref f).rebuild ref' g = v.rebuild (ref' ∘ ref) (g ∘ f) := by
  induction v using parts_induction with
  | leaf v hv =>
    rw [rebuild_of_isLeaf hv, rebuild_of_isLeaf hv, rebuild_of_isLeaf (hleaf v hv)]
    rfl
  | array id items ih =>
    rw [rebuild_array, rebuild_array, rebuild_array, List.map_map]
    exact congrArg _ (List.map_congr_left ih)
  | object id entries ih =>
    rw [rebuild_object, rebuild_object, rebuild_object, List.map_map]
    exact congrArg _ (List.map_congr_left fun e he => congrArg (Prod.mk e.1) (ih e he))

/-- Two rebuildings with the same identities differ only in the leaves of the value. -/
theorem rebuild_eq_iff :
    v.rebuild ref f = v.rebuild ref g ↔ ∀ leaf, IsLeafOf leaf v → f leaf = g leaf := by
  induction v using parts_induction with
  | leaf v hv =>
    rw [rebuild_of_isLeaf hv, rebuild_of_isLeaf hv]
    refine ⟨fun h leaf hleaf => ?_, fun h => h v (.self hv)⟩
    cases hleaf with
    | self => exact h
    | item | entry => cases hv
  | array id items ih =>
    rw [rebuild_array, rebuild_array, array.injEq, eq_self_iff_true, true_and, List.map_inj_left]
    refine ⟨fun h leaf hleaf => ?_, fun h w hw => (ih w hw).2 fun leaf hleaf => ?_⟩
    · cases hleaf with
      | self hself => cases hself
      | item hmem hleaf => exact (ih _ hmem).1 (h _ hmem) leaf hleaf
    · exact h leaf (.item hw hleaf)
  | object id entries ih =>
    rw [rebuild_object, rebuild_object, object.injEq, eq_self_iff_true, true_and,
      List.map_inj_left]
    refine ⟨fun h leaf hleaf => ?_, fun h e he => ?_⟩
    · cases hleaf with
      | self hself => cases hself
      | entry hmem hleaf => exact (ih _ hmem).1 (Prod.mk.inj (h _ hmem)).2 leaf hleaf
    · exact congrArg (Prod.mk e.1) ((ih e he).2 fun leaf hleaf => h leaf (.entry he hleaf))

end

/-! ## Copies -/

/-- The value with one identity for all arrays and objects. -/
def anonymous (v : Value) : Value :=
  v.rebuild (fun _ => .scope) id

/-- The two values are the same but for the identities of arrays and objects. -/
def IsCopy (v w : Value) : Prop :=
  v.anonymous = w.anonymous

theorem anonymous_rebuild {ref : Ref → Ref} {f : Value → Value}
    (hleaf : ∀ w, w.isLeaf = true → (f w).isLeaf = true) (v : Value) :
    (v.rebuild ref f).anonymous = v.rebuild (fun _ => .scope) f :=
  rebuild_rebuild hleaf v

/-! ## What plain data express -/

/-- Can plain data express the number with its sign? -/
def isExpressibleNumber (x : Float) : Bool :=
  x.isFinite && !Number.isNegativeZero x

/-- Can plain data express the leaf? -/
def isExpressible : Value → Bool
  | undefined | function _ => false
  | number x => isExpressibleNumber x
  | _ => true

/-- What plain data make of a number: zero for both zeros, and null if it is not finite. -/
def expressedNumber (x : Float) : Value :=
  if Number.isNegativeZero x then number 0 else if x.isFinite then number x else null

/-- What plain data make of a leaf: null for what they cannot express. -/
def expressed : Value → Value
  | undefined | function _ => null
  | number x => expressedNumber x
  | v => v

/-- A number is kept, or becomes zero, or becomes null. -/
theorem expressedNumber_cases (x : Float) :
    isExpressibleNumber x = true ∧ expressedNumber x = number x ∨
      isExpressibleNumber x = false ∧ expressedNumber x ≠ number x ∧
        (expressedNumber x = number 0 ∨ expressedNumber x = null) := by
  unfold isExpressibleNumber expressedNumber
  by_cases hzero : Number.isNegativeZero x = true
  · rw [if_pos hzero, hzero, Bool.not_true, Bool.and_false]
    refine .inr ⟨rfl, fun h => ?_, .inl rfl⟩
    rw [← number.inj h] at hzero
    revert hzero
    decide
  · rw [if_neg hzero, eq_false_of_ne_true hzero, Bool.not_false, Bool.and_true]
    cases x.isFinite with
    | true => exact .inl ⟨rfl, if_pos rfl⟩
    | false => exact .inr ⟨rfl, nofun, .inr rfl⟩

theorem isLeaf_expressed (v : Value) (h : v.isLeaf = true) : v.expressed.isLeaf = true := by
  cases v with
  | number x =>
    change (expressedNumber x).isLeaf = true
    rcases expressedNumber_cases x with ⟨-, h⟩ | ⟨-, -, h | h⟩ <;> rw [h] <;> rfl
  | _ => exact h

theorem isExpressible_expressed (v : Value) : v.expressed.isExpressible = true := by
  cases v with
  | number x =>
    change (expressedNumber x).isExpressible = true
    rcases expressedNumber_cases x with ⟨hx, h⟩ | ⟨-, -, h | h⟩ <;> rw [h]
    · exact hx
    · decide
    · rfl
  | _ => rfl

/-- Just what can be expressed stays as it is. -/
theorem expressed_eq_self_iff (v : Value) : v.expressed = v ↔ v.isExpressible = true := by
  cases v with
  | undefined => exact iff_of_false nofun nofun
  | function f => exact iff_of_false nofun nofun
  | number x =>
    change expressedNumber x = number x ↔ isExpressibleNumber x = true
    rcases expressedNumber_cases x with ⟨hx, h⟩ | ⟨hx, hne, -⟩
    · exact iff_of_true h hx
    · exact iff_of_false hne (Bool.eq_false_iff.1 hx)
  | _ => exact iff_of_true rfl rfl

/-! ## Reading again -/

end Value

/-- What is documented of a library. Nothing, truth values, texts, arrays and objects are made what
they are; of a double that is not finite nothing is made; every other double and every integer below
`2^53` keeps its value. An object has its names in order. -/
structure DataLibrary.Documented (L : DataLibrary) : Prop where
  unit : L.serializer.unit = .ok .null
  bool (b : Bool) : L.serializer.bool b = .ok (.bool b)
  string (s : String) : L.serializer.string s = .ok (.string s)
  items (items : List (Data L.Number)) : L.serializer.items items = .ok (.array items)
  entries {entries : List (String × Data L.Number)} (h : Fields.Sorted entries) :
    L.serializer.entries entries = .ok (.object entries)
  float_infinite {x : Float} (h : x.isFinite = false) : L.serializer.float x = .ok .null
  float_finite {x : Float} (h : x.isFinite = true) :
    ∃ n, L.serializer.float x = .ok (.number n) ∧ L.toFloat? n = some x
  int {k : Int} (h : k.natAbs < Number.exactBound) :
    ∃ n, L.serializer.int k = .ok (.number n) ∧ L.toFloat? n = some (Float.ofInt k)

/-- A library that keeps numbers as they are given is a documented one. -/
theorem DataLibrary.exact_documented : DataLibrary.exact.Documented where
  unit := rfl
  bool _ := rfl
  string _ := rfl
  items _ := rfl
  entries h := congrArg (fun entries => Except.ok (Data.object entries)) (Fields.ofList_of_sorted h)
  float_infinite h := congrArg Except.ok (if_neg (Bool.eq_false_iff.1 h))
  float_finite h := ⟨.float _, congrArg Except.ok (if_pos h), rfl⟩
  int _ := ⟨.int _, rfl, rfl⟩

namespace Value

section

variable {L : DataLibrary}

/-- The value is made the plain data, and they are read as the value with its leaves expressed in
plain data. -/
def Settles (L : DataLibrary) (v : Value) (d : Data L.Number) : Prop :=
  v.serialize L.serializer = .ok d ∧
    ∀ next, (ofData L next d).1.anonymous = v.rebuild (fun _ => .scope) expressed

theorem Settles.of_leaf {v : Value} {d : Data L.Number} (h : v.isLeaf = true)
    (hd : v.serialize L.serializer = .ok d) (hread : ∀ next, (ofData L next d).1 = v.expressed) :
    Settles L v d := by
  refine ⟨hd, fun next => ?_⟩
  rw [hread, anonymous, rebuild_of_isLeaf (isLeaf_expressed v h), rebuild_of_isLeaf h]
  rfl

/-- A number that is handed over as a double is read as the value of the double. -/
theorem settles_float (hL : L.Documented) {x : Float} (h : Number.safeWhole? x = none) :
    ∃ d, Settles L (number x) d := by
  have hzero : ¬ Number.isNegativeZero x = true := by
    intro hzero
    rw [Number.safeWhole?, Number.whole?_of_isNegativeZero hzero] at h
    cases h
  have hhanded : (number x).serialize L.serializer = L.serializer.float x := by
    rw [serialize, serializeNumber, h]
  cases hfinite : x.isFinite with
  | true =>
    obtain ⟨n, hmade, hvalue⟩ := hL.float_finite hfinite
    refine ⟨.number n, .of_leaf rfl (hhanded.trans hmade) fun next => ?_⟩
    rw [ofData, hvalue]
    exact ((if_neg hzero).trans (if_pos hfinite)).symm
  | false =>
    refine ⟨.null, .of_leaf rfl (hhanded.trans (hL.float_infinite hfinite)) fun next => ?_⟩
    exact ((if_neg hzero).trans (if_neg (Bool.eq_false_iff.1 hfinite))).symm

/-- A number that is handed over as a whole number is read as it, without the sign of a zero. -/
theorem settles_int (hL : L.Documented) {x : Float} {k : Int} (h : Number.safeWhole? x = some k) :
    ∃ d, Settles L (number x) d := by
  obtain ⟨hwhole, hsmall⟩ := Option.filter_eq_some_iff.1 h
  obtain ⟨n, hmade, hvalue⟩ := hL.int (of_decide_eq_true hsmall)
  refine ⟨.number n, .of_leaf rfl ?_ fun next => ?_⟩
  · rw [serialize, serializeNumber, h]
    exact hmade
  · rw [ofData, hvalue, Option.getD_some, Number.ofInt_of_whole? hwhole]
    change _ = expressedNumber x
    rw [expressedNumber, Number.isFinite_of_whole? hwhole, if_pos rfl]
    exact apply_ite number _ _ _

theorem settles_leaf (hL : L.Documented) {v : Value} (h : v.isLeaf = true) :
    ∃ d, Settles L v d := by
  cases v with
  | undefined | null | function => exact ⟨.null, .of_leaf rfl hL.unit fun _ => rfl⟩
  | bool b => exact ⟨.bool b, .of_leaf rfl (hL.bool b) fun _ => rfl⟩
  | string s => exact ⟨.string s, .of_leaf rfl (hL.string s) fun _ => rfl⟩
  | number x =>
    cases hwhole : Number.safeWhole? x with
    | some k => exact settles_int hL hwhole
    | none => exact settles_float hL hwhole
  | array | object => cases h

theorem settles_items {items : List Value} (h : ∀ v ∈ items, ∃ d, Settles L v d) :
    ∃ ds, serializeItems L.serializer items = .ok ds ∧
      ∀ next, (ofItems L next ds).1.map anonymous =
        items.map (rebuild (fun _ => .scope) expressed) := by
  induction items with
  | nil => exact ⟨[], rfl, fun _ => rfl⟩
  | cons v rest ih =>
    obtain ⟨⟨d, hd, hread⟩, hrest⟩ := List.forall_mem_cons.1 h
    obtain ⟨ds, hds, hreads⟩ := ih hrest
    refine ⟨d :: ds, ?_, fun next => ?_⟩
    · rw [serializeItems, hd, hds]
      rfl
    · rw [List.map_cons, ← hread next, ← hreads (ofData L next d).2]
      rfl

theorem settles_fields {entries : List (String × Value)}
    (h : ∀ e ∈ entries, ∃ d, Settles L e.2 d) :
    ∃ ds, serializeFields L.serializer entries = .ok ds ∧
      Fields.names ds = Fields.names entries ∧
      ∀ next, Fields.names (ofFields L next ds).1 = Fields.names entries ∧
        (ofFields L next ds).1.map (fun e => (e.1, e.2.anonymous)) =
          entries.map fun e => (e.1, e.2.rebuild (fun _ => .scope) expressed) := by
  induction entries with
  | nil => exact ⟨[], rfl, rfl, fun _ => ⟨rfl, rfl⟩⟩
  | cons e rest ih =>
    obtain ⟨⟨d, hd, hread⟩, hrest⟩ := List.forall_mem_cons.1 h
    obtain ⟨ds, hds, hnames, hreads⟩ := ih hrest
    refine ⟨(e.1, d) :: ds, ?_, congrArg (List.cons e.1) hnames, fun next => ?_⟩
    · rw [serializeFields, hd, hds]
      rfl
    · obtain ⟨hnames, hrest⟩ := hreads (ofData L next d).2
      refine ⟨congrArg (List.cons e.1) hnames, ?_⟩
      rw [List.map_cons, ← hread next, ← hrest]
      rfl

/-- Every value can be made plain data, and they are read as the value with its leaves expressed in
plain data. -/
theorem exists_settles (hL : L.Documented) {v : Value} (h : v.Ordered) : ∃ d, Settles L v d := by
  induction h with
  | leaf hv => exact settles_leaf hL hv
  | @array id items _ ih =>
    obtain ⟨ds, hds, hreads⟩ := settles_items ih
    refine ⟨.array ds, ?_, fun next => ?_⟩
    · rw [serialize, hds]
      exact hL.items ds
    · rw [rebuild_array, ← hreads (next + 1)]
      exact rebuild_array _ _
  | @object id entries hsorted _ ih =>
    obtain ⟨ds, hds, hnames, hreads⟩ := settles_fields ih
    rw [Fields.sorted_iff_names] at hsorted
    refine ⟨.object ds, ?_, fun next => ?_⟩
    · rw [serialize, hds]
      exact hL.entries (Fields.sorted_iff_names.2 (hnames ▸ hsorted))
    · obtain ⟨hread, hmap⟩ := hreads (next + 1)
      rw [rebuild_object, ← hmap]
      change (object (.given next) (Fields.ofList (ofFields L (next + 1) ds).1)).anonymous = _
      rw [Fields.ofList_of_sorted (Fields.sorted_iff_names.2 (hread ▸ hsorted))]
      exact rebuild_object _ _

/-- A value can be made plain data and read again. -/
theorem exists_reread (hL : L.Documented) {v : Value} (h : v.Ordered) (next : Nat) :
    ∃ d, reread? L next v = .ok (ofData L next d).1 ∧ v.reread L next = (ofData L next d).1 ∧
      (ofData L next d).1.anonymous = v.rebuild (fun _ => .scope) expressed := by
  obtain ⟨d, hd, hread⟩ := exists_settles hL h
  have hreread : reread? L next v = .ok (ofData L next d).1 := by
    rw [reread?, hd]
    rfl
  refine ⟨d, hreread, ?_, hread next⟩
  rw [reread, hreread]

/-- A value that is read again is the value with its leaves expressed in plain data. -/
theorem anonymous_reread (hL : L.Documented) {v : Value} (h : v.Ordered) (next : Nat) :
    (v.reread L next).anonymous = v.rebuild (fun _ => .scope) expressed := by
  obtain ⟨d, -, hreread, hd⟩ := exists_reread hL h next
  rw [hreread, hd]

/-- What plain data are read as is ordered, in whatever order the entries of the data are. -/
theorem ordered_ofData (d : Data L.Number) : ∀ next, (ofData L next d).1.Ordered := by
  refine Data.rec
    (motive_1 := fun d => ∀ next, (ofData L next d).1.Ordered)
    (motive_2 := fun items => ∀ next, ∀ v ∈ (ofItems L next items).1, v.Ordered)
    (motive_3 := fun entries => ∀ next, ∀ e ∈ (ofFields L next entries).1, e.2.Ordered)
    (motive_4 := fun e => ∀ next, (ofData L next e.2).1.Ordered)
    ?null ?bool ?number ?string ?array ?object ?nil ?cons ?fnil ?fcons ?mk d
  case null => exact fun _ => .leaf rfl
  case bool => exact fun _ _ => .leaf rfl
  case number => exact fun _ _ => .leaf rfl
  case string => exact fun _ _ => .leaf rfl
  case array => exact fun items ih next => .array (ih (next + 1))
  case object =>
    exact fun entries ih next => .object (Fields.sorted_ofList _) fun e he =>
      ih (next + 1) e (Fields.mem_of_mem_ofList he)
  case nil => exact fun _ _ h => absurd h List.not_mem_nil
  case cons =>
    exact fun d rest hfirst hrest next => List.forall_mem_cons.2
      ⟨hfirst next, hrest (ofData L next d).2⟩
  case fnil => exact fun _ _ h => absurd h List.not_mem_nil
  case fcons =>
    exact fun e rest hfirst hrest next => List.forall_mem_cons.2
      ⟨hfirst next, hrest (ofData L next e.2).2⟩
  case mk => exact fun _ _ ih => ih

theorem ordered_reread (hL : L.Documented) {v : Value} (h : v.Ordered) (next : Nat) :
    (v.reread L next).Ordered := by
  obtain ⟨d, -, hreread, -⟩ := exists_reread hL h next
  rw [hreread]
  exact ordered_ofData d next

theorem expressed_comp_expressed : expressed ∘ expressed = expressed :=
  funext fun v => (expressed_eq_self_iff v.expressed).2 (isExpressible_expressed v)

/-- Reading once more changes nothing. -/
theorem isCopy_reread_reread (hL : L.Documented) (next next' : Nat) {v : Value} (h : v.Ordered) :
    IsCopy ((v.reread L next).reread L next') (v.reread L next) := by
  calc ((v.reread L next).reread L next').anonymous
    _ = (v.reread L next).rebuild (fun _ => .scope) expressed :=
        anonymous_reread hL (ordered_reread hL h next) _
    _ = (v.reread L next).anonymous.rebuild (fun _ => .scope) expressed := by
        rw [anonymous, rebuild_rebuild (f := id) fun _ h => h]
        rfl
    _ = (v.rebuild (fun _ => .scope) expressed).rebuild (fun _ => .scope) expressed := by
        rw [anonymous_reread hL h]
    _ = v.rebuild (fun _ => .scope) expressed := by
        rw [rebuild_rebuild isLeaf_expressed, expressed_comp_expressed]
        rfl
    _ = (v.reread L next).anonymous := (anonymous_reread hL h next).symm

/-- **Plain data settle a value and change nothing else.** With a documented library, every value
can be made plain data and read again, and it is then a copy of the value with each leaf expressed
in plain data: `undefined`, functions and numbers that are not finite are null and a negative zero
is zero, while every other leaf, every position in an array and every name in an object is kept. So
it is a copy of the value itself just if plain data can express all its leaves, and making it plain
data and reading it once more makes a copy again. -/
theorem reread_settles (L : DataLibrary) (hL : L.Documented) (next next' : Nat) (v : Value)
    (h : v.Ordered) :
    reread? L next v = .ok (v.reread L next) ∧
    IsCopy (v.reread L next) (v.rebuild id expressed) ∧
    (IsCopy (v.reread L next) v ↔ ∀ leaf, IsLeafOf leaf v → leaf.isExpressible = true) ∧
    IsCopy ((v.reread L next).reread L next') (v.reread L next) := by
  refine ⟨?succeeds, ?copy, ?same, isCopy_reread_reread hL next next' h⟩
  case succeeds =>
    obtain ⟨d, hok, hreread, -⟩ := exists_reread hL h next
    rw [hok, hreread]
  case copy => exact (anonymous_reread hL h next).trans (anonymous_rebuild isLeaf_expressed v).symm
  case same =>
    rw [IsCopy, anonymous_reread hL h, anonymous, rebuild_eq_iff]
    exact forall₂_congr fun leaf _ => expressed_eq_self_iff leaf

end

/-- An object that holds an array with a negative zero, an infinity and other leaves that plain data
cannot express. -/
theorem reread_settles_mixed :
    DataLibrary.exact.Documented ∧
    (object (.given 0) [("a", array (.given 1) [undefined, number (-0), number Number.infinity,
      function .escaper]), ("b", string "x")]).Ordered ∧
    IsCopy
      ((object (.given 0) [("a", array (.given 1) [undefined, number (-0), number Number.infinity,
        function .escaper]), ("b", string "x")]).reread .exact 7)
      (object (.given 0) [("a", array (.given 1) [null, number 0, null, null]),
        ("b", string "x")]) := by
  have hordered : (object (.given 0) [("a", array (.given 1) [undefined, number (-0),
      number Number.infinity, function .escaper]), ("b", string "x")]).Ordered := by
    refine .object (Fields.sorted_iff_names.2 (by decide)) (List.forall_mem_cons.2
      ⟨.array ?_, List.forall_mem_singleton.2 (.leaf rfl)⟩)
    simp only [List.forall_mem_cons]
    exact ⟨.leaf rfl, .leaf rfl, .leaf rfl, .leaf rfl, nofun⟩
  have hzero : expressedNumber (-0) = number 0 := if_pos (by decide)
  have hinfinite : expressedNumber Number.infinity = null :=
    (if_neg (by decide)).trans (if_neg (by decide))
  refine ⟨DataLibrary.exact_documented, hordered, ?_⟩
  have hcopy := (reread_settles .exact DataLibrary.exact_documented 7 8 _ hordered).2.1
  simp only [rebuild, rebuildItems, rebuildFields, expressed, hzero, hinfinite] at hcopy
  exact hcopy

end Value

end Stencil
