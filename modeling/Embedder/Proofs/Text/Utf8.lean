import Embedder.Text.Utf8

namespace Embedder

/-!
# Decoding UTF-8

No character of more than one byte has an ASCII byte in it. So an ASCII byte ends whatever character
the decoder is inside of, and what comes after it is decoded as if nothing had come before. And a text
is decoded from its bytes: it is only in other byte strings that something is ill-formed.

* `Decoding.Continued`: the decoder waits for nothing but a byte that is not ASCII.
* `Decoding.pieces_append_ascii`, `lossy_append_ascii`: decoding in front of an ASCII byte and after it.
* `Decoding.pieces_utf8EncodeChar`, `decode?_ofText`: decoding what is well-formed.
-/

namespace Text

/-! ### ASCII bytes -/

namespace Decoding

/-- Inside a character, only bytes that are not ASCII continue it. -/
def Continued : Decoding → Prop
  | .fresh => True
  | .inside _ _ low _ => 0x80 ≤ low

/-- A byte that starts a character of several is continued by bytes that are not ASCII. -/
theorem continued_start (b : Nat) : (start b).2.Continued := by
  unfold start first
  grind [Continued]

/-- The decoder never comes to wait for an ASCII byte. -/
theorem Continued.step {state : Decoding} (continued : state.Continued) (b : Nat) :
    (state.step b).2.Continued := by
  cases state with
  | fresh => exact continued_start b
  | inside bits owed low high =>
    simp only [Decoding.step]
    by_cases continues : low ≤ b ∧ b ≤ high
    · by_cases last : owed ≤ 1
      · simp only [continues, last, and_self, if_true, Continued]
      · simp only [continues, last, and_self, if_true, if_false, Continued, Nat.le_refl]
    · simp only [continues, if_false]
      exact continued_start b

/-- An ASCII byte is a character of its own, after what is ill-formed for lack of another byte. -/
theorem Continued.step_ascii {state : Decoding} (continued : state.Continued) {b : Nat}
    (ascii : b < 0x80) :
    state.step b = (state.pieces [] ++ [some (Char.ofNat b)], .fresh) := by
  have starts : start b = ([some (Char.ofNat b)], .fresh) := by simp only [start, first, ascii, if_true]
  cases state with
  | fresh => exact starts
  | inside bits owed low high =>
    -- The least byte that continues the character is above this one.
    have broken : ¬ (low ≤ b ∧ b ≤ high) := by
      simp only [Continued] at continued
      omega
    simp only [Decoding.step, broken, if_false, starts]
    rfl

/-- Around an ASCII byte, a text decodes in two parts. By induction on the part in front: whatever
state it leaves the decoder in, the ASCII byte ends it. -/
theorem pieces_append_ascii {state : Decoding} (continued : state.Continued) (front rest : Bytes)
    {b : UInt8} (ascii : b.toNat < 0x80) :
    state.pieces (front ++ b :: rest) =
      state.pieces front ++ some (Char.ofNat b.toNat) :: fresh.pieces rest := by
  induction front generalizing state with
  | nil =>
    rw [List.nil_append, pieces, continued.step_ascii ascii, List.append_assoc]
    rfl
  | cons c front ih =>
    rw [List.cons_append, pieces, pieces, ih (continued.step c.toNat), List.append_assoc]

end Decoding

/-- Around an ASCII byte, a text that is ill-formed somewhere decodes in two parts as well. -/
theorem lossy_append_ascii (front rest : Bytes) {b : UInt8} (ascii : b.toNat < 0x80) :
    lossy (front ++ b :: rest) =
      lossy front ++ String.singleton (Char.ofNat b.toNat) ++ lossy rest := by
  have fresh : Decoding.fresh.Continued := trivial
  unfold lossy
  rw [Decoding.pieces_append_ascii fresh front rest ascii, List.map_append, List.map_cons,
    String.singleton_eq_ofList, ← String.ofList_append, ← String.ofList_append, List.append_assoc]
  rfl

end Text

/-! ### Well-formed texts -/

/-- Reading a byte array from a position on, behind what was read. -/
theorem toList_loop (bs : ByteArray) (i : Nat) (read : List UInt8) :
    ByteArray.toList.loop bs i read = read.reverse ++ bs.data.toList.drop i := by
  fun_induction ByteArray.toList.loop bs i read with
  | case1 i read more ih =>
    have more : i < bs.data.toList.length := by simpa using more
    have byte : bs.get! i = bs.data.toList[i] := by
      simp only [Array.length_toList] at more
      exact getElem!_pos bs.data i more
    rw [ih, List.drop_eq_getElem_cons more, List.reverse_cons, List.append_assoc, byte]
    rfl
  | case2 i read none =>
    have none : bs.data.toList.length ≤ i := by simpa using none
    rw [List.drop_eq_nil_of_le none, List.append_nil]

theorem Bytes.ofText_eq (text : String) :
    Bytes.ofText text = text.toList.flatMap String.utf8EncodeChar := by
  have bytes : text.toUTF8 = (text.toList.flatMap String.utf8EncodeChar).toByteArray := by
    rw [← List.utf8Encode, ← String.toByteArray_ofList, String.ofList_toList]
    rfl
  rw [ofText, ByteArray.toList, toList_loop, bytes, List.toList_data_toByteArray]
  rfl

namespace Text

namespace Decoding

variable {bits owed low high v : Nat} {b : UInt8}

/-- A byte that starts a character of several bytes. -/
theorem pieces_start {state : Decoding} (starts : first b.toNat = some (.inr state)) (rest : Bytes) :
    fresh.pieces (b :: rest) = state.pieces rest := by
  simp only [pieces, step, start, starts, List.nil_append]

/-- A byte that continues a character, which then owes more. -/
theorem pieces_more (more : 1 < owed) (continues : low ≤ b.toNat ∧ b.toNat ≤ high) (rest : Bytes) :
    (inside bits owed low high).pieces (b :: rest) =
      (inside (64 * bits + (b.toNat - 0x80)) (owed - 1) 0x80 0xBF).pieces rest := by
  have another : ¬ owed ≤ 1 := by omega
  simp only [pieces, step, continues, and_self, if_true, another, if_false, List.nil_append]

/-- The last byte of a character. -/
theorem pieces_last (continues : low ≤ b.toNat ∧ b.toNat ≤ high) (rest : Bytes) :
    (inside bits 1 low high).pieces (b :: rest) =
      some (Char.ofNat (64 * bits + (b.toNat - 0x80))) :: fresh.pieces rest := by
  simp only [pieces, step, continues, and_self, if_true, Nat.le_refl]
  rfl

/-- What the first of three bytes allows for the second one. -/
theorem first_of_three {b : Nat} (least : 0xE0 ≤ b) (most : b ≤ 0xEF) : first b = some (.inr
    (.inside (b - 0xE0) 2 (if b = 0xE0 then 0xA0 else 0x80) (if b = 0xED then 0x9F else 0xBF))) := by
  unfold first
  grind

/-- What the first of four bytes allows for the second one. -/
theorem first_of_four {b : Nat} (least : 0xF0 ≤ b) (most : b ≤ 0xF4) : first b = some (.inr
    (.inside (b - 0xF0) 3 (if b = 0xF0 then 0x90 else 0x80) (if b = 0xF4 then 0x8F else 0xBF))) := by
  unfold first
  grind

/-- A number that fits a byte is what the byte is read as. -/
theorem toNat_ofNat_of_lt {n : Nat} (fits : n < 256) : (UInt8.ofNat n).toNat = n :=
  UInt8.toNat_ofNat_of_lt' fits

theorem pieces_of_one (most : v < 0x80) (rest : Bytes) :
    fresh.pieces (UInt8.ofNat v :: rest) = some (Char.ofNat v) :: fresh.pieces rest := by
  rw [pieces, step, toNat_ofNat_of_lt (by omega), start, first, if_pos most]
  rfl

theorem pieces_of_two (least : 0x80 ≤ v) (most : v < 0x800) (rest : Bytes) :
    fresh.pieces (UInt8.ofNat (v / 64 % 32 + 192) :: UInt8.ofNat (v % 64 + 128) :: rest) =
      some (Char.ofNat v) :: fresh.pieces rest := by
  have fst := toNat_ofNat_of_lt (show v / 64 % 32 + 192 < 256 by omega)
  have snd := toNat_ofNat_of_lt (show v % 64 + 128 < 256 by omega)
  have starts : first (UInt8.ofNat (v / 64 % 32 + 192)).toNat =
      some (.inr (.inside (v / 64 % 32) 1 0x80 0xBF)) := by
    rw [fst, first, if_neg (by omega), if_pos (by omega), Nat.add_sub_cancel]
  have whole : 64 * (v / 64 % 32) + (v % 64 + 128 - 0x80) = v := by omega
  rw [pieces_start starts, pieces_last (by omega), snd, whole]

/-- A surrogate or an overlong encoding would have a second byte that the first one does not allow. -/
theorem pieces_of_three (least : 0x800 ≤ v) (most : v < 0x10000) (scalar : v < 0xD800 ∨ 0xDFFF < v)
    (rest : Bytes) :
    fresh.pieces (UInt8.ofNat (v / 4096 % 16 + 224) :: UInt8.ofNat (v / 64 % 64 + 128) ::
      UInt8.ofNat (v % 64 + 128) :: rest) = some (Char.ofNat v) :: fresh.pieces rest := by
  have fst := toNat_ofNat_of_lt (show v / 4096 % 16 + 224 < 256 by omega)
  have snd := toNat_ofNat_of_lt (show v / 64 % 64 + 128 < 256 by omega)
  have trd := toNat_ofNat_of_lt (show v % 64 + 128 < 256 by omega)
  have starts := first_of_three (show 0xE0 ≤ v / 4096 % 16 + 224 by omega) (by omega)
  rw [← fst] at starts
  have whole : 64 * (64 * (v / 4096 % 16 + 224 - 0xE0) + (v / 64 % 64 + 128 - 0x80)) +
      (v % 64 + 128 - 0x80) = v := by omega
  rw [pieces_start starts, pieces_more (by omega) ?_, pieces_last (by omega), fst, snd, trd, whole]
  rw [fst, snd]
  constructor <;> split <;> omega

theorem pieces_of_four (least : 0x10000 ≤ v) (most : v < 0x110000) (rest : Bytes) :
    fresh.pieces (UInt8.ofNat (v / 262144 % 8 + 240) :: UInt8.ofNat (v / 4096 % 64 + 128) ::
      UInt8.ofNat (v / 64 % 64 + 128) :: UInt8.ofNat (v % 64 + 128) :: rest) =
        some (Char.ofNat v) :: fresh.pieces rest := by
  have fst := toNat_ofNat_of_lt (show v / 262144 % 8 + 240 < 256 by omega)
  have snd := toNat_ofNat_of_lt (show v / 4096 % 64 + 128 < 256 by omega)
  have trd := toNat_ofNat_of_lt (show v / 64 % 64 + 128 < 256 by omega)
  have fth := toNat_ofNat_of_lt (show v % 64 + 128 < 256 by omega)
  have starts := first_of_four (show 0xF0 ≤ v / 262144 % 8 + 240 by omega) (by omega)
  rw [← fst] at starts
  have whole : 64 * (64 * (64 * (v / 262144 % 8 + 240 - 0xF0) + (v / 4096 % 64 + 128 - 0x80)) +
      (v / 64 % 64 + 128 - 0x80)) + (v % 64 + 128 - 0x80) = v := by omega
  rw [pieces_start starts, pieces_more (by omega) ?_, pieces_more (by omega) (by omega),
    pieces_last (by omega), fst, snd, trd, fth, whole]
  rw [fst, snd]
  constructor <;> split <;> omega

/-- A character is decoded from its bytes. -/
theorem pieces_utf8EncodeChar (c : Char) (rest : Bytes) :
    fresh.pieces (String.utf8EncodeChar c ++ rest) = some c :: fresh.pieces rest := by
  have scalar : Char.ofNat c.val.toNat = c := Char.ofNat_toNat c
  have valid : c.val.toNat < 0xD800 ∨ 0xDFFF < c.val.toNat ∧ c.val.toNat < 0x110000 := c.valid
  unfold String.utf8EncodeChar
  generalize c.val.toNat = v at scalar valid
  subst scalar
  dsimp only
  by_cases one : v ≤ 127
  · rw [if_pos one]
    exact pieces_of_one (by omega) rest
  by_cases two : v ≤ 2047
  · rw [if_neg one, if_pos two]
    exact pieces_of_two (by omega) (by omega) rest
  by_cases three : v ≤ 65535
  · rw [if_neg one, if_neg two, if_pos three]
    exact pieces_of_three (by omega) (by omega) (by omega) rest
  · rw [if_neg one, if_neg two, if_neg three]
    exact pieces_of_four (by omega) (by omega) rest

/-- The characters of a text are decoded from its bytes, and nothing is ill-formed. -/
theorem pieces_ofText (text : String) :
    fresh.pieces (Bytes.ofText text) = text.toList.map some := by
  rw [Bytes.ofText_eq]
  induction text.toList with
  | nil => rfl
  | cons c cs ih => rw [List.flatMap_cons, pieces_utf8EncodeChar, ih, List.map_cons]

end Decoding

theorem decode?_ofText (text : String) : decode? (Bytes.ofText text) = some text := by
  have characters : text.toList.mapM some = some (text.toList.map id) := List.mapM_pure
  rw [decode?, Decoding.pieces_ofText, List.mapM_map]
  show (text.toList.mapM some).map String.ofList = some text
  rw [characters, Option.map_some, List.map_id, String.ofList_toList]

end Text

end Embedder
