namespace RingTape
namespace Text

/-!
# Texts as bytes

Input and output are bytes, texts are characters.  `encode` writes a text in
UTF-8 and `decode?` accepts exactly the byte sequences that `encode` can
produce, so a text has one written form and a malformed sequence has none.
-/

/-- The UTF-8 bytes of a text. -/
def encode (text : String) : List UInt8 :=
  text.toUTF8.data.toList

/-- The text that a sequence of bytes is the UTF-8 form of. -/
def decode? (bytes : List UInt8) : Option String :=
  String.fromUTF8? ⟨bytes.toArray⟩

theorem decode?_encode (text : String) : decode? (encode text) = some text := by
  have bytes : (ByteArray.mk (encode text).toArray) = text.toUTF8 := by
    simp [encode]
  simp only [decode?, bytes, String.fromUTF8?, String.toUTF8_eq_toByteArray]
  rw [dif_pos text.isValidUTF8]
  rfl

theorem eq_encode_of_decode? {bytes : List UInt8} {text : String}
    (read : decode? bytes = some text) : bytes = encode text := by
  simp only [decode?, String.fromUTF8?] at read
  split at read
  · cases read
    simp [encode, String.fromUTF8]
  · cases read

theorem encode_eq_nil_iff {text : String} : encode text = [] ↔ text = "" := by
  constructor
  · intro nothing
    have read := decode?_encode text
    rw [nothing] at read
    exact Option.some.inj (read.symm.trans (decode?_encode ""))
  · intro empty
    rw [empty]
    rfl

/-- The bytes of a text are those of its characters, one after the other. -/
theorem encode_eq_flatMap (text : String) :
    encode text = text.toList.flatMap String.utf8EncodeChar := by
  calc encode text
      = encode (String.ofList text.toList) := by rw [String.ofList_toList]
    _ = (String.ofList text.toList).toByteArray.data.toList := rfl
    _ = text.toList.flatMap String.utf8EncodeChar := by
      rw [String.toByteArray_ofList, List.utf8Encode, List.toList_data_toByteArray]

theorem encode_append (first second : String) :
    encode (first ++ second) = encode first ++ encode second := by
  simp [encode]

theorem encode_join (texts : List String) :
    encode (String.join texts) = texts.flatMap encode := by
  induction texts with
  | nil => rfl
  | cons text texts ih => rw [String.join_cons, encode_append, ih, List.flatMap_cons]

/-! ## Bytes that are characters -/

/-- A byte below 128 stands for the character with this code and is part of
no other. -/
theorem toNat_of_mem_utf8EncodeChar {character : Char} {byte : UInt8}
    (member : byte ∈ String.utf8EncodeChar character) (ascii : byte.toNat < 128) :
    byte.toNat = character.toNat := by
  have high (value : Nat) (large : 128 ≤ value) (small : value < 256) :
      byte ≠ UInt8.ofNat value := by
    rintro rfl
    rw [UInt8.toNat_ofNat_of_lt' small] at ascii
    exact absurd ascii (Nat.not_lt_of_le large)
  unfold String.utf8EncodeChar at member
  extract_lets value at member
  -- A form of several bytes has none below 128.
  split at member
  · next single =>
    have small : value < UInt8.size := Nat.lt_of_le_of_lt single (by decide)
    rw [List.mem_singleton.mp member, UInt8.toNat_ofNat_of_lt' small]
    rfl
  · exfalso
    split at member
    · simp only [List.mem_cons, List.not_mem_nil, or_false] at member
      rcases member with first | second
      · exact high _ (by omega) (by omega) first
      · exact high _ (by omega) (by omega) second
    · split at member
      · simp only [List.mem_cons, List.not_mem_nil, or_false] at member
        rcases member with first | second | third
        · exact high _ (by omega) (by omega) first
        · exact high _ (by omega) (by omega) second
        · exact high _ (by omega) (by omega) third
      · simp only [List.mem_cons, List.not_mem_nil, or_false] at member
        rcases member with first | second | third | fourth
        · exact high _ (by omega) (by omega) first
        · exact high _ (by omega) (by omega) second
        · exact high _ (by omega) (by omega) third
        · exact high _ (by omega) (by omega) fourth

/-- A text without such a character has no such byte. -/
theorem notMem_encode {text : String} {character : Char} (ascii : character.toNat < 128)
    (absent : character ∉ text.toList) : UInt8.ofNat character.toNat ∉ encode text := by
  rw [encode_eq_flatMap, List.mem_flatMap]
  rintro ⟨other, member, inside⟩
  have small : character.toNat < UInt8.size := Nat.lt_of_lt_of_le ascii (by decide)
  have code := UInt8.toNat_ofNat_of_lt' small
  have same := toNat_of_mem_utf8EncodeChar inside (by rw [code]; exact ascii)
  rw [code] at same
  rw [Char.toNat_inj.mp same] at absent
  exact absent member

end Text
end RingTape
