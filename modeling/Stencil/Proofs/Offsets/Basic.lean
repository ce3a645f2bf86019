/-!
# Offsets of bytes

A text is stored as the bytes of its characters, and is cut at offsets that count these bytes. Only
an offset between two characters cuts it. Every other one is outside the domain.

* `bytes`, `size`: the bytes of a text, and their number
* `cut?`, `from?`, `slice?`: parts of a text by offsets, where they exist
* `cut?_eq_some_iff`: the offsets that cut a text
* `codes`: the bytes as the ASCII characters that they are
-/

namespace Stencil.Offsets

/-! ## Sizes -/

/-- The bytes of a text. -/
def bytes (s : List Char) : List UInt8 :=
  s.flatMap String.utf8EncodeChar

/-- The number of bytes of a text. -/
def size (s : List Char) : Nat :=
  (bytes s).length

@[simp] theorem size_nil : size [] = 0 := rfl

@[simp] theorem size_cons (c : Char) (s : List Char) : size (c :: s) = c.utf8Size + size s := by
  simp [size, bytes]

@[simp] theorem size_append (s t : List Char) : size (s ++ t) = size s + size t := by
  simp [size, bytes]

/-! ## Cutting -/

/-- The two parts of a text before and after an offset. It must be between two characters, or at one
of the ends. -/
def cut? : List Char → Nat → Option (List Char × List Char)
  | s, 0 => some ([], s)
  | [], _ + 1 => none
  | c :: s, n + 1 =>
    if c.utf8Size ≤ n + 1 then
      (cut? s (n + 1 - c.utf8Size)).map fun parts => (c :: parts.1, parts.2)
    else none

/-- The part of a text from an offset. -/
def from? (s : List Char) (n : Nat) : Option (List Char) :=
  (cut? s n).map Prod.snd

/-- The part of a text from one offset up to another one. -/
def slice? (s : List Char) (first last : Nat) : Option (List Char) :=
  (cut? s last).bind fun parts => from? parts.1 first

/-- The first parts are the ones that have as many bytes as the offset says. -/
theorem cut?_eq_some_iff {s a b : List Char} {n : Nat} :
    cut? s n = some (a, b) ↔ s = a ++ b ∧ size a = n := by
  fun_induction cut? s n generalizing a with
  | case1 s =>
    constructor
    · intro h
      cases h
      exact ⟨rfl, rfl⟩
    · rintro ⟨rfl, hsize⟩
      cases a with
      | nil => rfl
      | cons c a =>
        have hpos := c.utf8Size_pos
        rw [size_cons] at hsize
        omega
  | case2 n =>
    constructor
    · rintro ⟨⟩
    · rintro ⟨heq, hsize⟩
      obtain ⟨rfl, -⟩ := List.append_eq_nil_iff.1 heq.symm
      cases hsize
  | case3 c s n hle ih =>
    simp only [Option.map_eq_some_iff, Prod.exists, Prod.mk.injEq]
    constructor
    · rintro ⟨a, b, hcut, rfl, rfl⟩
      obtain ⟨rfl, hsize⟩ := ih.1 hcut
      exact ⟨rfl, by rw [size_cons]; omega⟩
    · rintro ⟨heq, hsize⟩
      cases a with
      | nil => cases hsize
      | cons d a =>
        obtain ⟨rfl, rfl⟩ := List.cons.inj heq
        rw [size_cons] at hsize
        exact ⟨a, b, ih.2 ⟨rfl, by omega⟩, rfl, rfl⟩
  | case4 c s n hlt =>
    constructor
    · rintro ⟨⟩
    · rintro ⟨heq, hsize⟩
      cases a with
      | nil => cases hsize
      | cons d a =>
        obtain ⟨rfl, -⟩ := List.cons.inj heq
        rw [size_cons] at hsize
        omega

/-- A character of two bytes cannot be cut. -/
example : cut? ['é', '!'] 1 = none ∧ cut? ['é', '!'] 2 = some (['é'], ['!']) := ⟨rfl, rfl⟩

@[simp] theorem cut?_append (a b : List Char) : cut? (a ++ b) (size a) = some (a, b) :=
  cut?_eq_some_iff.2 ⟨rfl, rfl⟩

@[simp] theorem from?_append (a b : List Char) : from? (a ++ b) (size a) = some b := by
  simp [from?]

@[simp] theorem slice?_append (a b c : List Char) :
    slice? (a ++ b ++ c) (size a) (size (a ++ b)) = some b := by
  rw [slice?, cut?_append]
  simp

/-! ## ASCII characters -/

/-- The character is a single byte. -/
def IsAscii (c : Char) : Prop :=
  c.toNat < 128

instance (c : Char) : Decidable (IsAscii c) :=
  inferInstanceAs (Decidable (_ < _))

/-- The ASCII character that a byte is. The bytes of longer characters are none. -/
def asciiOf? (b : UInt8) : Option Char :=
  if b < 128 then some (Char.ofNat b.toNat) else none

/-- The bytes of a text, as the ASCII characters that they are. -/
def codes (s : List Char) : List (Option Char) :=
  (bytes s).map asciiOf?

@[simp] theorem length_codes (s : List Char) : (codes s).length = size s := by
  simp [codes, size]

@[simp] theorem codes_nil : codes [] = [] := rfl

@[simp] theorem codes_append (s t : List Char) : codes (s ++ t) = codes s ++ codes t := by
  simp [codes, bytes]

theorem utf8Size_of_isAscii {c : Char} (h : IsAscii c) : c.utf8Size = 1 := by
  rw [Char.utf8Size_eq_one_iff, UInt32.le_iff_toNat_le]
  exact Nat.le_of_lt_succ h

theorem codes_singleton_of_isAscii {c : Char} (h : IsAscii c) : codes [c] = [some c] := by
  have hc : c.toNat < 128 := h
  have hbyte : String.utf8EncodeChar c = [UInt8.ofNat c.toNat] := by
    rw [String.utf8EncodeChar]
    exact if_pos (Nat.le_of_lt_succ hc)
  have hround : (UInt8.ofNat c.toNat).toNat = c.toNat := by
    simp
    omega
  have hlt : UInt8.ofNat c.toNat < 128 := by
    rw [UInt8.lt_iff_toNat_lt, hround]
    exact hc
  simp [codes, bytes, hbyte, asciiOf?, hlt, hround]

/-- Every byte of a longer character is outside the ASCII range. -/
theorem le_of_mem_utf8EncodeChar {c : Char} (h : ¬ IsAscii c) :
    ∀ b ∈ String.utf8EncodeChar c, 128 ≤ b.toNat := by
  have hc : ¬ c.val.toNat ≤ 0x7f := fun hle => h (Nat.lt_succ_of_le hle)
  simp only [String.utf8EncodeChar, hc, if_false]
  repeat' split
  all_goals
    simp
    omega

theorem asciiOf?_of_le {b : UInt8} (h : 128 ≤ b.toNat) : asciiOf? b = none := by
  have hnot : ¬ b < 128 := by
    rw [UInt8.lt_iff_toNat_lt]
    exact Nat.not_lt_of_le h
  rw [asciiOf?, if_neg hnot]

theorem codes_singleton_of_not_isAscii {c : Char} (h : ¬ IsAscii c) :
    codes [c] = List.replicate c.utf8Size none := by
  rw [← String.length_utf8EncodeChar]
  refine List.eq_replicate_iff.2 ⟨by simp [codes, bytes], fun code hcode => ?_⟩
  simp only [codes, bytes, List.flatMap_singleton, List.mem_map] at hcode
  obtain ⟨b, hb, rfl⟩ := hcode
  exact asciiOf?_of_le (le_of_mem_utf8EncodeChar h b hb)

@[simp] theorem codes_cons_of_isAscii {c : Char} (h : IsAscii c) (s : List Char) :
    codes (c :: s) = some c :: codes s := by
  rw [← List.singleton_append, codes_append, codes_singleton_of_isAscii h, List.singleton_append]

theorem codes_cons_of_not_isAscii {c : Char} (h : ¬ IsAscii c) (s : List Char) :
    codes (c :: s) = List.replicate c.utf8Size none ++ codes s := by
  rw [← List.singleton_append, codes_append, codes_singleton_of_not_isAscii h]

/-- The ASCII character that the first byte of a character is. -/
def firstCode (c : Char) : Option Char :=
  if IsAscii c then some c else none

theorem exists_codes_cons (c : Char) (s : List Char) :
    ∃ rest, codes (c :: s) = firstCode c :: rest := by
  by_cases h : IsAscii c
  · exact ⟨codes s, by rw [codes_cons_of_isAscii h, firstCode, if_pos h]⟩
  · obtain ⟨n, hn⟩ := Nat.exists_eq_succ_of_ne_zero (Nat.ne_of_gt c.utf8Size_pos)
    exact ⟨List.replicate n none ++ codes s, by
      rw [codes_cons_of_not_isAscii h, firstCode, if_neg h, hn, List.replicate_succ,
        List.cons_append]⟩

/-- An ASCII character can be told by the first byte. -/
theorem firstCode_eq_some_iff {c d : Char} (hd : IsAscii d) : firstCode c = some d ↔ c = d := by
  by_cases h : IsAscii c
  · simp [firstCode, h]
  · have hne : c ≠ d := fun heq => h (heq ▸ hd)
    simp [firstCode, h, hne]

/-- So can a class of ASCII characters, and whatever is said of ASCII characters only. -/
theorem firstCode_bind {α : Type} {f : Char → Option α} (hf : ∀ c, (f c).isSome → IsAscii c)
    (c : Char) : (firstCode c).bind f = f c := by
  by_cases h : IsAscii c
  · simp [firstCode, h]
  · have hnone : f c = none := Option.not_isSome_iff_eq_none.1 fun hsome => h (hf c hsome)
    simp [firstCode, h, hnone]

theorem firstCode_any {p : Char → Bool} (hp : ∀ c, p c = true → IsAscii c) (c : Char) :
    (firstCode c).any p = p c := by
  by_cases h : IsAscii c
  · simp [firstCode, h]
  · have hc : p c = false := Bool.eq_false_iff.2 fun hc => h (hp c hc)
    simp [firstCode, h, hc]

end Stencil.Offsets
