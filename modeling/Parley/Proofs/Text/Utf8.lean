import Mathlib.Data.Nat.Basic
import Parley.Text.Utf8

/-!
# UTF-8 as an encoding

Bytes are read strictly as a text exactly when they are the encoding of that text.  A text
takes at least one byte for each of its characters, and at most four, and a byte of ASCII
stands for nothing but itself.
-/

namespace Parley
namespace Utf8

/-! ## Lengths -/

theorem length_le_byteCount (text : List Char) : text.length ≤ byteCount text := by
  induction text with
  | nil => rfl
  | cons c rest induction =>
      have positive := c.utf8Size_pos
      rw [List.length_cons, byteCount]
      omega

@[simp]
theorem byteCount_replicate (count : Nat) (c : Char) :
    byteCount (List.replicate count c) = count * c.utf8Size := by
  induction count with
  | zero => simp [byteCount]
  | succ count induction =>
      rw [List.replicate_succ, byteCount, induction, Nat.succ_mul, Nat.add_comm]

/-- The bytes of an encoding are those that are counted. -/
theorem length_flatMap_encode (text : List Char) :
    (text.flatMap String.utf8EncodeChar).length = byteCount text := by
  induction text with
  | nil => rfl
  | cons c rest induction => simp [byteCount, induction]

theorem utf8ByteSize_eq (text : String) : text.utf8ByteSize = byteCount text.toList := by
  have bytes : text.toByteArray = text.toList.utf8Encode := by
    rw [← String.toByteArray_ofList, String.ofList_toList]
  rw [← String.size_toByteArray, bytes, List.utf8Encode, List.size_toByteArray,
    length_flatMap_encode]

/-! ## One character -/

theorem within_iff {low high : Nat} {byte : UInt8} :
    within low high byte = true ↔ low ≤ byte.toNat ∧ byte.toNat ≤ high := by
  simp [within]

/-- Behind two first bytes of three the second is held to a part of the range, lest it be
too small a character or half of a pair. -/
theorem within_secondOfThree_iff {first : Nat} {byte : UInt8} :
    within (secondOfThree first).1 (secondOfThree first).2 byte = true ↔
      (0x80 ≤ byte.toNat ∧ byte.toNat ≤ 0xBF) ∧ (first = 0xE0 → 0xA0 ≤ byte.toNat) ∧
        (first = 0xED → byte.toNat ≤ 0x9F) := by
  unfold secondOfThree
  split_ifs <;> rw [within_iff] <;> dsimp only <;> omega

/-- Behind two first bytes of four the second is held to a part of the range, lest it be
too small or too large a character. -/
theorem within_secondOfFour_iff {first : Nat} {byte : UInt8} :
    within (secondOfFour first).1 (secondOfFour first).2 byte = true ↔
      (0x80 ≤ byte.toNat ∧ byte.toNat ≤ 0xBF) ∧ (first = 0xF0 → 0x90 ≤ byte.toNat) ∧
        (first = 0xF4 → byte.toNat ≤ 0x8F) := by
  unfold secondOfFour
  split_ifs <;> rw [within_iff] <;> dsimp only <;> omega

theorem toNat_byte {n : Nat} (small : n < 256) : (UInt8.ofNat n).toNat = n := by
  rw [UInt8.toNat_ofNat']
  exact Nat.mod_eq_of_lt small

theorem eq_byte {byte : UInt8} {n : Nat} (equal : byte.toNat = n) : byte = UInt8.ofNat n := by
  rw [← equal, UInt8.ofNat_toNat]

theorem toNat_char {n : Nat} (valid : n.isValidChar) : (Char.ofNat n).val.toNat = n := by
  rw [Char.ofNat, dif_pos valid]
  rfl

/-- What the encoding of a character begins with is read as that character. -/
theorem front_encode (c : Char) (behind : List UInt8) :
    ∃ byte rest, String.utf8EncodeChar c ++ behind = byte :: rest ∧
      front byte rest = .character c behind := by
  have valid : c.toNat < 0xD800 ∨ 0xDFFF < c.toNat ∧ c.toNat < 0x110000 := c.valid
  have same : Char.ofNat c.toNat = c := Char.ofNat_toNat c
  unfold String.utf8EncodeChar
  simp only [show c.val.toNat = c.toNat from rfl]
  generalize c.toNat = n at *
  subst same
  -- the encoding takes one, two, three or four bytes
  split
  · refine ⟨_, _, rfl, ?_⟩
    change front _ behind = _
    have first := toNat_byte (show n < 256 by omega)
    unfold front
    rw [if_pos (by omega), first]
  · split
    · refine ⟨_, _, rfl, ?_⟩
      change front _ (_ :: behind) = _
      have first := toNat_byte (show n / 64 % 32 + 192 < 256 by omega)
      have second := toNat_byte (show n % 64 + 128 < 256 by omega)
      unfold front
      simp only [continues, within_iff, tail]
      rw [if_neg (by omega), if_pos (by omega), if_pos (by omega)]
      congr 2
      omega
    · split
      · refine ⟨_, _, rfl, ?_⟩
        change front _ (_ :: _ :: behind) = _
        have first := toNat_byte (show n / 4096 % 16 + 224 < 256 by omega)
        have second := toNat_byte (show n / 64 % 64 + 128 < 256 by omega)
        have third := toNat_byte (show n % 64 + 128 < 256 by omega)
        unfold front
        simp only [within_secondOfThree_iff]
        simp only [continues, within_iff, tail]
        rw [if_neg (by omega), if_neg (by omega), if_pos (by omega), if_pos (by omega),
          if_pos (by omega)]
        congr 2
        omega
      · refine ⟨_, _, rfl, ?_⟩
        change front _ (_ :: _ :: _ :: behind) = _
        have first := toNat_byte (show n / 262144 % 8 + 240 < 256 by omega)
        have second := toNat_byte (show n / 4096 % 64 + 128 < 256 by omega)
        have third := toNat_byte (show n / 64 % 64 + 128 < 256 by omega)
        have fourth := toNat_byte (show n % 64 + 128 < 256 by omega)
        unfold front
        simp only [within_secondOfFour_iff]
        simp only [continues, within_iff, tail]
        rw [if_neg (by omega), if_neg (by omega), if_neg (by omega), if_pos (by omega),
          if_pos (by omega), if_pos (by omega), if_pos (by omega)]
        congr 2
        omega

/-- The shapes of a character in bytes, by their number. -/
theorem front_cases {byte : UInt8} {rest behind : List UInt8} {c : Char}
    (read : front byte rest = .character c behind) :
    (byte.toNat < 0x80 ∧ rest = behind ∧ c = Char.ofNat byte.toNat) ∨
    (within 0xC2 0xDF byte = true ∧ ∃ second, continues second = true ∧ rest = second :: behind ∧
      c = Char.ofNat (byte.toNat % 32 * 64 + tail second)) ∨
    (within 0xE0 0xEF byte = true ∧ ∃ second third,
      within (secondOfThree byte.toNat).1 (secondOfThree byte.toNat).2 second = true ∧
      continues third = true ∧ rest = second :: third :: behind ∧
      c = Char.ofNat (byte.toNat % 16 * 4096 + tail second * 64 + tail third)) ∨
    (within 0xF0 0xF4 byte = true ∧ ∃ second third fourth,
      within (secondOfFour byte.toNat).1 (secondOfFour byte.toNat).2 second = true ∧
      continues third = true ∧ continues fourth = true ∧
      rest = second :: third :: fourth :: behind ∧
      c = Char.ofNat (byte.toNat % 8 * 262144 + tail second * 4096 + tail third * 64
        + tail fourth)) := by
  unfold front at read
  simp only at read
  split at read
  · cases read
    exact .inl ⟨‹_›, rfl, rfl⟩
  · split at read
    · split at read
      · split at read <;> cases read
        exact .inr (.inl ⟨‹_›, _, ‹_›, rfl, rfl⟩)
      · cases read
    · split at read
      · split at read
        · split at read
          · split at read <;> cases read
            exact .inr (.inr (.inl ⟨‹_›, _, _, ‹_›, ‹_›, rfl, rfl⟩))
          · cases read
        · split at read <;> cases read
        · cases read
      · split at read
        · split at read
          · split at read
            · split at read
              · split at read <;> cases read
                exact .inr (.inr (.inr ⟨‹_›, _, _, _, ‹_›, ‹_›, ‹_›, rfl, rfl⟩))
              · cases read
            · cases read
          · split at read
            · split at read <;> cases read
            · cases read
          · split at read <;> cases read
          · cases read
        · cases read

/-- What is read as a character is its encoding. -/
theorem eq_of_front {byte : UInt8} {rest behind : List UInt8} {c : Char}
    (read : front byte rest = .character c behind) :
    byte :: rest = String.utf8EncodeChar c ++ behind := by
  have shapes := front_cases read
  simp only [within_secondOfThree_iff, within_secondOfFour_iff] at shapes
  simp only [continues, within_iff] at shapes
  clear read
  unfold String.utf8EncodeChar
  rcases shapes with ⟨first, rfl, rfl⟩ | ⟨first, second, follows, rfl, rfl⟩ |
    ⟨first, second, third, follows, last, rfl, rfl⟩ |
    ⟨first, second, third, fourth, follows, next, last, rfl, rfl⟩
  · rw [toNat_char (.inl (by omega)), if_pos (by omega), ← eq_byte rfl]
    rfl
  · generalize value : byte.toNat % 32 * 64 + tail second = n
    unfold tail at value
    rw [toNat_char (.inl (by omega)), if_neg (by omega), if_pos (by omega)]
    simp only [List.cons_append, List.nil_append, List.cons.injEq, and_true]
    exact ⟨eq_byte (by omega), eq_byte (by omega)⟩
  · generalize value : byte.toNat % 16 * 4096 + tail second * 64 + tail third = n
    unfold tail at value
    have valid : n.isValidChar := by
      unfold Nat.isValidChar
      omega
    rw [toNat_char valid, if_neg (by omega), if_neg (by omega), if_pos (by omega)]
    simp only [List.cons_append, List.nil_append, List.cons.injEq, and_true]
    exact ⟨eq_byte (by omega), eq_byte (by omega), eq_byte (by omega)⟩
  · generalize value : byte.toNat % 8 * 262144 + tail second * 4096 + tail third * 64
      + tail fourth = n
    unfold tail at value
    have valid : n.isValidChar := by
      unfold Nat.isValidChar
      omega
    rw [toNat_char valid, if_neg (by omega), if_neg (by omega), if_neg (by omega)]
    simp only [List.cons_append, List.nil_append, List.cons.injEq, and_true]
    exact ⟨eq_byte (by omega), eq_byte (by omega), eq_byte (by omega), eq_byte (by omega)⟩

/-! ## Whole texts -/

theorem scan_encode {fuel : Nat} {text : List Char} (enough : byteCount text ≤ fuel) :
    scan fuel (text.flatMap String.utf8EncodeChar) = text.map some := by
  induction text generalizing fuel with
  | nil => cases fuel <;> rfl
  | cons c rest induction =>
      obtain ⟨byte, behind, split, read⟩ :=
        front_encode c (rest.flatMap String.utf8EncodeChar)
      have positive := c.utf8Size_pos
      rw [byteCount] at enough
      cases fuel with
      | zero => omega
      | succ fuel =>
          rw [List.flatMap_cons, split, scan, read, List.map_cons]
          exact congrArg _ (induction (by omega))

theorem eq_of_scan {fuel : Nat} {bytes : List UInt8} {text : List Char}
    (enough : bytes.length ≤ fuel) (read : scan fuel bytes = text.map some) :
    bytes = text.flatMap String.utf8EncodeChar := by
  induction fuel generalizing bytes text with
  | zero =>
      rw [List.length_eq_zero_iff.1 (Nat.le_zero.1 enough)] at read ⊢
      cases text with
      | nil => rfl
      | cons c rest => cases read
  | succ fuel induction =>
      cases bytes with
      | nil =>
          cases text with
          | nil => rfl
          | cons c rest => cases read
      | cons byte rest =>
          rw [scan] at read
          cases fronted : front byte rest with
          | broken behind =>
              rw [fronted] at read
              cases text with
              | nil => cases read
              | cons c others => cases read
          | character c behind =>
              rw [fronted] at read
              cases text with
              | nil => cases read
              | cons d left =>
                  obtain ⟨same, others⟩ := List.cons.inj read
                  cases same
                  have split := eq_of_front fronted
                  have size := congrArg List.length split
                  have positive := c.utf8Size_pos
                  rw [List.length_append, String.length_utf8EncodeChar, List.length_cons] at size
                  rw [List.length_cons] at enough
                  rw [split, List.flatMap_cons, induction (by omega) others]

/-- No part is broken exactly when all parts are characters. -/
theorem mapM_id_eq_some_iff {parts : List (Option Char)} {text : List Char} :
    parts.mapM id = some text ↔ parts = text.map some := by
  induction parts generalizing text with
  | nil => cases text <;> simp
  | cons part rest induction =>
      cases part with
      | none => cases text <;> simp
      | some c =>
          cases text with
          | nil => simp [Option.bind_eq_some_iff]
          | cons d others =>
              simp only [List.mapM_cons, id, Option.bind_eq_bind, Option.bind_some,
                Option.bind_eq_some_iff, induction, List.map_cons, List.cons.injEq,
                Option.some.injEq, Option.pure_def]
              constructor
              · rintro ⟨_, same, rfl, rfl⟩
                exact ⟨rfl, same⟩
              · rintro ⟨rfl, same⟩
                exact ⟨_, same, rfl, rfl⟩

/-- Bytes are read as a text exactly when they are its encoding. -/
theorem decode?_eq_some_iff {bytes : List UInt8} {text : String} :
    decode? bytes = some text ↔ bytes = encode text := by
  rw [decode?, Option.map_eq_some_iff, encode, characters]
  constructor
  · rintro ⟨chars, read, rfl⟩
    rw [String.toList_ofList]
    exact eq_of_scan (Nat.le_refl _) (mapM_id_eq_some_iff.1 read)
  · rintro rfl
    refine ⟨text.toList, mapM_id_eq_some_iff.2 (scan_encode ?_), String.ofList_toList⟩
    rw [length_flatMap_encode]

theorem characters_encode (text : String) : characters (encode text) = text.toList.map some := by
  rw [characters, encode]
  refine scan_encode ?_
  rw [length_flatMap_encode]

/-- What was encoded is read back leniently, too. -/
@[simp]
theorem decodeLossy_encode (text : String) : decodeLossy (encode text) = text := by
  simp [decodeLossy, characters_encode, Function.comp_def]

@[simp]
theorem encode_append (left right : String) :
    encode (left ++ right) = encode left ++ encode right := by
  simp [encode]

/-! ## Marks in bytes -/

/-- Only a character of ASCII has a byte of ASCII in its encoding, and that is itself. -/
theorem eq_of_mem_encodeChar {byte : UInt8} {c : Char} (ascii : byte.toNat < 0x80)
    (member : byte ∈ String.utf8EncodeChar c) : c.toNat = byte.toNat := by
  unfold String.utf8EncodeChar at member
  simp only [show c.val.toNat = c.toNat from rfl] at member
  generalize c.toNat = n at *
  split at member
  · rw [List.mem_singleton] at member
    rw [member, toNat_byte (by omega)]
  · -- each byte of a longer encoding is beyond ASCII
    have beyond : ∃ high, high < 256 ∧ 0x80 ≤ high ∧ byte = UInt8.ofNat high := by
      split at member
      · simp only [List.mem_cons, List.not_mem_nil, or_false] at member
        rcases member with found | found <;> exact ⟨_, by omega, by omega, found⟩
      · split at member
        all_goals simp only [List.mem_cons, List.not_mem_nil, or_false] at member
        · rcases member with found | found | found <;> exact ⟨_, by omega, by omega, found⟩
        · rcases member with found | found | found | found <;>
            exact ⟨_, by omega, by omega, found⟩
    obtain ⟨high, small, large, rfl⟩ := beyond
    rw [toNat_byte small] at ascii
    omega

/-- A mark of ASCII is among the bytes of a text only where the text has it. -/
theorem mem_of_mem_encode {byte : UInt8} {text : String} (ascii : byte.toNat < 0x80)
    (member : byte ∈ encode text) : Char.ofNat byte.toNat ∈ text.toList := by
  obtain ⟨c, inside, bytes⟩ := List.mem_flatMap.1 member
  rw [← eq_of_mem_encodeChar ascii bytes, Char.ofNat_toNat]
  exact inside

end Utf8
end Parley
