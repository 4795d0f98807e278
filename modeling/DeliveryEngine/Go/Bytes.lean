import Mathlib.Data.List.Basic
import Mathlib.Tactic.Lemma

/-!
# The bytes of a text

Files and byte offsets see a string as its UTF-8 encoding.  `bytes` is the encoding of a text, and
`runes` reads bytes as Go ranges over a string: a sequence that is not well formed yields the
replacement character, one byte at a time.  `runes_utf8` says that a text is read back.
-/

namespace DeliveryEngine.Go

open List

/-- The UTF-8 encoding of a list of characters. -/
def utf8 (cs : List Char) : List UInt8 := cs.flatMap String.utf8EncodeChar

/-- The UTF-8 encoding of a text. -/
def bytes (s : String) : List UInt8 := s.toByteArray.data.toList

@[simp] lemma utf8_nil : utf8 [] = [] := rfl

@[simp] lemma utf8_cons (c : Char) (cs : List Char) :
    utf8 (c :: cs) = String.utf8EncodeChar c ++ utf8 cs := flatMap_cons

variable (cs : List Char)

@[simp] lemma utf8_append (ds : List Char) : utf8 (cs ++ ds) = utf8 cs ++ utf8 ds := flatMap_append

lemma toNat_ofUInt8 (b : UInt8) : (Char.ofUInt8 b).toNat = b.toNat := UInt8.toNat_toUInt32 b

variable {c : Char}

lemma utf8EncodeChar_of_lt (hc : c.toNat < 0x80) :
    String.utf8EncodeChar c = [UInt8.ofNat c.toNat] := if_pos (show c.toNat ≤ 0x7f by omega)

lemma le_of_mem_utf8EncodeChar (hc : 0x80 ≤ c.toNat) {b : UInt8}
    (hb : b ∈ String.utf8EncodeChar c) : 0x80 ≤ b.toNat := by
  have hc' : ¬ c.val.toNat ≤ 0x7f := by
    show ¬ c.toNat ≤ 0x7f
    omega
  simp only [String.utf8EncodeChar, if_neg hc'] at hb
  split_ifs at hb <;> simp only [mem_cons, not_mem_nil, or_false] at hb
  · rcases hb with rfl | rfl <;> simp only [UInt8.toNat_ofNat'] <;> omega
  · rcases hb with rfl | rfl | rfl <;> simp only [UInt8.toNat_ofNat'] <;> omega
  · rcases hb with rfl | rfl | rfl | rfl <;> simp only [UInt8.toNat_ofNat'] <;> omega

lemma le_of_mem_utf8 {n : ℕ} (hn : n ≤ 0x80) {cs : List Char} (hcs : ∀ c ∈ cs, n ≤ c.toNat)
    {b : UInt8} (hb : b ∈ utf8 cs) : n ≤ b.toNat := by
  obtain ⟨c, hc, hb⟩ := mem_flatMap.mp hb
  by_cases hlow : c.toNat < 0x80
  · rw [utf8EncodeChar_of_lt hlow, mem_singleton] at hb
    rw [hb, UInt8.toNat_ofNat', Nat.mod_eq_of_lt (by omega)]
    exact hcs c hc
  · have := le_of_mem_utf8EncodeChar (by omega) hb
    omega

/-! ## Reading bytes as text -/

/-- `utf8.DecodeRune`: the first character of a byte sequence, and how many bytes it takes. -/
def decodeRune (bs : List UInt8) : Char × ℕ :=
  match (bs.take 4).toByteArray.utf8DecodeChar? 0 with
  | some c => (c, c.utf8Size)
  | none => ('�', 1)

/-- The characters of a byte sequence, at most as many as the fuel. -/
def runesFrom : ℕ → List UInt8 → List Char
  | 0, _ => []
  | _, [] => []
  | fuel + 1, bs => (decodeRune bs).1 :: runesFrom fuel (bs.drop (decodeRune bs).2)

/-- The characters of a byte sequence. -/
def runes (bs : List UInt8) : List Char := runesFrom bs.length bs

lemma decodeRune_utf8EncodeChar (c : Char) (rest : List UInt8) :
    decodeRune (String.utf8EncodeChar c ++ rest) = (c, c.utf8Size) := by
  have hlen : (String.utf8EncodeChar c).length ≤ 4 := by
    rw [String.length_utf8EncodeChar]
    exact c.utf8Size_le_four
  rw [decodeRune, take_append, take_of_length_le hlen, toByteArray_append,
    ByteArray.utf8DecodeChar?_utf8EncodeChar_append]

lemma runesFrom_utf8 {fuel : ℕ} (hfuel : (utf8 cs).length ≤ fuel) : runesFrom fuel (utf8 cs) = cs := by
  induction cs generalizing fuel with
  | nil => cases fuel <;> rfl
  | cons c cs ih =>
    have hsize := String.length_utf8EncodeChar c
    have hpos := c.utf8Size_pos
    rw [utf8_cons, length_append] at hfuel
    obtain ⟨fuel, rfl⟩ : ∃ n, fuel = n + 1 := ⟨fuel - 1, by omega⟩
    have hcons : String.utf8EncodeChar c ++ utf8 cs ≠ [] := by
      rw [Ne, append_eq_nil_iff, not_and_or]
      exact .inl (ne_nil_of_length_pos (by omega))
    rw [utf8_cons]
    cases hbs : String.utf8EncodeChar c ++ utf8 cs with
    | nil => exact absurd hbs hcons
    | cons b bs =>
      rw [runesFrom, ← hbs, decodeRune_utf8EncodeChar, drop_append_of_le_length (by omega),
        drop_of_length_le (by omega), nil_append, ih (by omega)]
      · simp

lemma runes_utf8 : runes (utf8 cs) = cs := runesFrom_utf8 cs (Nat.le_refl _)

lemma runes_cons_of_lt (hc : c.toNat < 0x80) (rest : List UInt8) :
    runes (UInt8.ofNat c.toNat :: rest) = c :: runes rest := by
  have hdecode := decodeRune_utf8EncodeChar c rest
  have hsize := String.length_utf8EncodeChar c
  rw [utf8EncodeChar_of_lt hc, length_singleton] at hsize
  rw [utf8EncodeChar_of_lt hc, singleton_append] at hdecode
  rw [runes, length_cons, runesFrom, hdecode, ← hsize, drop_one, tail_cons, runes]
  simp

example : runes [0x61, 0xe2, 0x22, 0xc3, 0xa9] = ['a', '�', '"', 'é'] := by decide

end DeliveryEngine.Go
