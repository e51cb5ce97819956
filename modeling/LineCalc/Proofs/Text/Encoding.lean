import Mathlib.Data.String.Basic

namespace LineCalc.Text

/-- The bytes of a text in UTF-8. -/
def utf8 (text : String) : List UInt8 := text.toUTF8.data.toList

/-- A number in base 64, with the given number of digits after the first. The first digit is marked
by an offset of its own, the others by 128. A code point is spelled like this, and the longer the
spelling the greater is the offset. -/
def spelled (offset : ℕ) : ℕ → ℕ → List UInt8
  | 0, n => [.ofNat (n + offset)]
  | digits + 1, n => spelled offset digits (n / 64) ++ [.ofNat (n % 64 + 128)]

variable {offset digits offset' digits' m n : ℕ}

theorem ofNat_lt_ofNat (hn : n < 256) (h : m < n) : UInt8.ofNat m < UInt8.ofNat n := by
  rw [UInt8.lt_iff_toNat_lt, UInt8.toNat_ofNat', UInt8.toNat_ofNat']
  omega

/-- With the same number of digits, the digits decide the order. -/
theorem spelled_append_lt (hn : n / 64 ^ digits + offset < 256) (h : m < n)
    (left right : List UInt8) :
    spelled offset digits m ++ left < spelled offset digits n ++ right := by
  induction digits generalizing m n left right with
  | zero =>
    rw [Nat.pow_zero, Nat.div_one] at hn
    exact .rel (ofNat_lt_ofNat hn (Nat.add_lt_add_right h offset))
  | succ digits ih =>
    rw [spelled, spelled, List.append_assoc, List.append_assoc]
    -- Either a digit before the last tells the two apart, or the last one does.
    obtain hlt | heq := lt_or_eq_of_le (Nat.div_le_div_right (c := 64) h.le)
    · rw [Nat.pow_succ', ← Nat.div_div_eq_div_mul] at hn
      exact ih hn hlt _ _
    · rw [heq]
      exact List.append_left_lt (.rel (ofNat_lt_ofNat (by omega) (by omega)))

theorem exists_spelled_eq_cons (offset digits n : ℕ) :
    ∃ rest, spelled offset digits n = .ofNat (n / 64 ^ digits + offset) :: rest := by
  induction digits generalizing n with
  | zero => exact ⟨[], by rw [Nat.pow_zero, Nat.div_one, spelled]⟩
  | succ digits ih =>
    obtain ⟨rest, hrest⟩ := ih (n / 64)
    refine ⟨rest ++ [.ofNat (n % 64 + 128)], ?_⟩
    rw [spelled, hrest, Nat.pow_succ', Nat.div_div_eq_div_mul, List.cons_append]

/-- With different first bytes, these decide the order. -/
theorem spelled_append_lt_of_first (hn : n / 64 ^ digits' + offset' < 256)
    (h : m / 64 ^ digits + offset < n / 64 ^ digits' + offset') (left right : List UInt8) :
    spelled offset digits m ++ left < spelled offset' digits' n ++ right := by
  obtain ⟨rest, hrest⟩ := exists_spelled_eq_cons offset digits m
  obtain ⟨rest', hrest'⟩ := exists_spelled_eq_cons offset' digits' n
  rw [hrest, hrest', List.cons_append, List.cons_append]
  exact .rel (ofNat_lt_ofNat hn h)

/-- The bytes of a code point, one to four of them. -/
inductive Encodes (n : ℕ) : List UInt8 → Prop
  | one (h : n ≤ 0x7f) : Encodes n (spelled 0 0 n)
  | two (h : 0x7f < n) (h' : n ≤ 0x7ff) : Encodes n (spelled 192 1 n)
  | three (h : 0x7ff < n) (h' : n ≤ 0xffff) : Encodes n (spelled 224 2 n)
  | four (h : 0xffff < n) (h' : n < 0x110000) : Encodes n (spelled 240 3 n)

theorem encodes_utf8EncodeChar (c : Char) : Encodes c.toNat (String.utf8EncodeChar c) := by
  have hvalid : c.toNat < 0x110000 := by
    obtain h | ⟨-, h⟩ := c.valid
    · exact Nat.lt_trans h (by decide)
    · exact h
  have hchar : c.val.toNat = c.toNat := rfl
  simp only [String.utf8EncodeChar, hchar]
  generalize c.toNat = n at hvalid
  split
  next hone => exact .one hone
  next hone =>
    split
    next htwo =>
      have hfirst : n / 64 % 32 = n / 64 := by omega
      rw [hfirst]
      exact .two (Nat.lt_of_not_le hone) htwo
    next htwo =>
      split
      next hthree =>
        have hfirst : n / 4096 % 16 = n / 64 / 64 := by omega
        rw [hfirst]
        exact .three (Nat.lt_of_not_le htwo) hthree
      next hthree =>
        have hfirst : n / 262144 % 8 = n / 64 / 64 / 64 := by omega
        have hsecond : n / 4096 % 64 = n / 64 / 64 % 64 := by omega
        rw [hfirst, hsecond]
        exact .four (Nat.lt_of_not_le hthree) hvalid

namespace Encodes

variable {l l' : List UInt8}

private theorem exists_eq_cons (h : Encodes n l) : ∃ first rest, l = first :: rest := by
  cases h with
  | one | two | three | four =>
    obtain ⟨rest, hrest⟩ := exists_spelled_eq_cons _ _ n
    exact ⟨_, rest, hrest⟩

/-- The order of code points is decided before their bytes end. -/
theorem append_lt (hl : Encodes m l) (hl' : Encodes n l') (h : m < n) (left right : List UInt8) :
    l ++ left < l' ++ right := by
  -- The digits decide between spellings of one length, the first bytes between any others; a lesser
  -- code point has no longer spelling.
  cases hl <;> cases hl' <;>
    first
    | exact spelled_append_lt (by omega) h left right
    | exact spelled_append_lt_of_first (by omega) (by omega) left right

end Encodes

variable {s t : String}

theorem utf8_eq (s : String) : utf8 s = s.toList.flatMap String.utf8EncodeChar := by
  rw [utf8, String.toUTF8, ← String.utf8Encode_toList, List.utf8Encode,
    List.toList_data_toByteArray]

private theorem flatMap_utf8EncodeChar_lt {l l' : List Char} (h : List.Lex (· < ·) l l') :
    l.flatMap String.utf8EncodeChar < l'.flatMap String.utf8EncodeChar := by
  induction h with
  | @nil d later =>
    obtain ⟨first, rest, hcons⟩ := (encodes_utf8EncodeChar d).exists_eq_cons
    rw [List.flatMap_nil, List.flatMap_cons, hcons]
    exact .nil
  | @rel c _ d _ hlt =>
    rw [List.flatMap_cons, List.flatMap_cons]
    exact (encodes_utf8EncodeChar c).append_lt (encodes_utf8EncodeChar d) hlt _ _
  | cons _ ih =>
    rw [List.flatMap_cons, List.flatMap_cons]
    exact List.append_left_lt ih

theorem utf8_lt_of_lt (h : s < t) : utf8 s < utf8 t := by
  rw [utf8_eq, utf8_eq]
  exact flatMap_utf8EncodeChar_lt (String.lt_iff_toList_lt.1 h)

/-- Texts are in the order of their bytes exactly if they are in the order of their code points. -/
theorem utf8_lt_iff : utf8 s < utf8 t ↔ s < t := by
  refine ⟨fun h => String.not_le.1 fun hle => ?_, utf8_lt_of_lt⟩
  obtain rfl | hlt := eq_or_lt_of_le hle
  · exact List.lt_irrefl _ h
  · exact List.lt_asymm h (utf8_lt_of_lt hlt)

theorem utf8_le_iff : utf8 s ≤ utf8 t ↔ s ≤ t := by
  rw [← List.not_lt, utf8_lt_iff, String.not_lt]

/-- A byte below 128 is a code point on its own. -/
theorem le_toNat_of_mem_spelled (hoffset : 128 ≤ offset) (hn : n / 64 ^ digits + offset < 256)
    {byte : UInt8} (h : byte ∈ spelled offset digits n) : 128 ≤ byte.toNat := by
  induction digits generalizing n with
  | zero =>
    rw [Nat.pow_zero, Nat.div_one] at hn
    obtain rfl := List.mem_singleton.1 h
    rw [UInt8.toNat_ofNat']
    omega
  | succ digits ih =>
    rw [Nat.pow_succ', ← Nat.div_div_eq_div_mul] at hn
    obtain h | h := List.mem_append.1 h
    · exact ih hn h
    · obtain rfl := List.mem_singleton.1 h
      rw [UInt8.toNat_ofNat']
      omega

private theorem Encodes.eq_of_mem {l : List UInt8} (h : Encodes n l) {byte : UInt8}
    (hmem : byte ∈ l) (hlt : byte.toNat < 128) : byte.toNat = n := by
  cases h with
  | one h =>
    obtain rfl := List.mem_singleton.1 hmem
    rw [UInt8.toNat_ofNat']
    omega
  | two | three | four =>
    have hle := le_toNat_of_mem_spelled (by decide) (by omega) hmem
    omega

/-- A line feed in a text is a byte of its own. -/
theorem feed_mem_utf8_iff : 10 ∈ utf8 s ↔ '\n' ∈ s.toList := by
  rw [utf8_eq, List.mem_flatMap]
  constructor
  · rintro ⟨c, hc, hmem⟩
    have heq : 10 = c.toNat := (encodes_utf8EncodeChar c).eq_of_mem hmem (by decide)
    have hfeed : c = '\n' := by rw [← Char.ofNat_toNat c, ← heq]
    exact hfeed ▸ hc
  · intro h
    exact ⟨'\n', h, by decide⟩

theorem fromUTF8?_utf8 (s : String) : String.fromUTF8? (utf8 s).toByteArray = some s := by
  have hbytes : (utf8 s).toByteArray = s.toUTF8 := by
    rw [utf8]
    ext1
    simp
  rw [hbytes]
  unfold String.fromUTF8?
  rw [String.toUTF8_eq_toByteArray, dif_pos s.isValidUTF8]
  rfl

end LineCalc.Text
