import Mathlib.Data.List.Basic
import PartitionPruning.Calendar.Iso

/-!
# The bytes of a text

Texts are read byte by byte in UTF-8. The bytes of a text are those of its characters, one after another,
and an ASCII character is one byte.

* **`toList_toUTF8`** — the bytes of a row of characters.
* **`octets_eq`** — the bytes of a text, character by character; only ASCII characters have ASCII bytes.
* **`octets_ofList`** — a text of ASCII characters is read as it stands.
-/

namespace PartitionPruning

namespace Text

/-- The walk over an array of bytes lists what is left of it behind what it has listed. -/
theorem toListLoop_eq (bs : ByteArray) (i : Nat) (listed : List UInt8) :
    ByteArray.toList.loop bs i listed = listed.reverse ++ bs.data.toList.drop i := by
  fun_induction ByteArray.toList.loop bs i listed with
  | case1 i listed hlt ih =>
    have hlt : i < bs.data.toList.length := hlt
    have hbyte : bs.get! i = bs.data.toList[i] := getElem!_pos bs.data i hlt
    rw [ih, hbyte, List.reverse_cons, List.append_assoc, List.singleton_append,
      List.getElem_cons_drop]
  | case2 i listed hge =>
    have hend : bs.data.toList.length ≤ i := Nat.le_of_not_lt hge
    rw [List.drop_of_length_le hend, List.append_nil]

/-- **The bytes of a text** are those of its characters. -/
theorem toList_toUTF8 (cs : List Char) :
    (String.ofList cs).toUTF8.toList = cs.flatMap String.utf8EncodeChar := by
  rw [String.toUTF8_eq_toByteArray, String.toByteArray_ofList, ByteArray.toList, toListLoop_eq,
    List.utf8Encode, List.data_toByteArray]
  simp

theorem utf8EncodeChar_ascii {c : Char} (h : c.toNat < 128) :
    String.utf8EncodeChar c = [c.val.toUInt8] := by
  apply String.utf8EncodeChar_eq_singleton
  rw [Char.utf8Size_eq_one_iff, UInt32.le_iff_toNat_le]
  exact Nat.le_of_lt_succ h

end Text

namespace Iso

/-- The bytes of a character as characters below 256. -/
def bytesOf (c : Char) : List Char := (String.utf8EncodeChar c).map fun b => Char.ofNat b.toNat

/-- The bytes of a row of characters. -/
def bytes (cs : List Char) : List Char := cs.flatMap bytesOf

theorem bytes_cons (c : Char) (cs : List Char) : bytes (c :: cs) = bytesOf c ++ bytes cs :=
  List.flatMap_cons ..

theorem bytes_append (cs ds : List Char) : bytes (cs ++ ds) = bytes cs ++ bytes ds :=
  List.flatMap_append ..

/-- **The bytes of a text** are read character by character. -/
theorem octets_eq (s : String) : octets s = bytes s.toList := by
  rw [octets, ← String.ofList_toList (s := s), Text.toList_toUTF8, List.map_flatMap,
    String.toList_ofList]
  rfl

theorem octets_append (s t : String) : octets (s ++ t) = octets s ++ octets t := by
  rw [octets_eq, octets_eq, octets_eq, String.toList_append, bytes_append]

theorem bytesOf_ascii {c : Char} (h : c.toNat < 128) : bytesOf c = [c] := by
  have hcode : c.val.toUInt8.toNat = c.toNat := by
    rw [UInt32.toNat_toUInt8]
    exact Nat.mod_eq_of_lt (Nat.lt_trans h (by decide))
  rw [bytesOf, Text.utf8EncodeChar_ascii h, List.map_singleton, hcode, Char.ofNat_toNat]

theorem toNat_byte (n : Nat) : (Char.ofNat (UInt8.ofNat n).toNat).toNat = n % 256 := by
  have hvalid : (n % 256).isValidChar := Or.inl (by omega)
  rw [UInt8.toNat_ofNat', Char.ofNat, dif_pos hvalid]
  rfl

/-- **A character that is not ASCII** has no ASCII byte: the highest bit of all its bytes is set. -/
theorem not_ascii_of_mem_bytesOf {c b : Char} (hc : 128 ≤ c.toNat) (h : b ∈ bytesOf c) :
    128 ≤ b.toNat := by
  have hc : ¬ c.val.toNat ≤ 127 := Nat.not_le.mpr hc
  obtain ⟨byte, hbyte, rfl⟩ := List.mem_map.mp h
  obtain ⟨n, rfl, hn⟩ : ∃ n, byte = UInt8.ofNat n ∧ 128 ≤ n ∧ n < 256 := by
    simp only [String.utf8EncodeChar, if_neg hc] at hbyte
    -- two, three or four bytes
    split at hbyte
    · simp only [List.mem_cons, List.not_mem_nil, or_false] at hbyte
      rcases hbyte with rfl | rfl <;> exact ⟨_, rfl, by omega, by omega⟩
    · split at hbyte
      · simp only [List.mem_cons, List.not_mem_nil, or_false] at hbyte
        rcases hbyte with rfl | rfl | rfl <;> exact ⟨_, rfl, by omega, by omega⟩
      · simp only [List.mem_cons, List.not_mem_nil, or_false] at hbyte
        rcases hbyte with rfl | rfl | rfl | rfl <;> exact ⟨_, rfl, by omega, by omega⟩
  rw [toNat_byte]
  omega

theorem bytesOf_ne_nil (c : Char) : bytesOf c ≠ [] := by
  have hlength : (bytesOf c).length = c.utf8Size := by
    rw [bytesOf, List.length_map, String.length_utf8EncodeChar]
  exact List.ne_nil_of_length_pos (hlength ▸ c.utf8Size_pos)

theorem bytes_ne_nil {cs : List Char} (h : cs ≠ []) : bytes cs ≠ [] := by
  obtain ⟨c, cs, rfl⟩ := List.exists_cons_of_ne_nil h
  rw [bytes_cons]
  exact List.append_ne_nil_of_left_ne_nil (bytesOf_ne_nil c) _

theorem bytes_cons_ascii {c : Char} (h : c.toNat < 128) (cs : List Char) :
    bytes (c :: cs) = c :: bytes cs := by
  rw [bytes_cons, bytesOf_ascii h, List.singleton_append]

/-- **ASCII characters** are their own bytes. -/
theorem bytes_ascii {cs : List Char} (h : ∀ c ∈ cs, c.toNat < 128) : bytes cs = cs := by
  induction cs with
  | nil => rfl
  | cons c cs ih =>
    rw [bytes_cons_ascii (h c List.mem_cons_self), ih fun d hd => h d (List.mem_cons_of_mem c hd)]

theorem octets_ofList {cs : List Char} (h : ∀ c ∈ cs, c.toNat < 128) :
    octets (String.ofList cs) = cs := by
  rw [octets_eq, String.toList_ofList, bytes_ascii h]

end Iso

end PartitionPruning
