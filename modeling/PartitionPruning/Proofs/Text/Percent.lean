import PartitionPruning.Proofs.Text.Bytes
import PartitionPruning.Text.Percent

/-!
# Percent encoding can be undone

A text that is percent-encoded is written with unreserved characters and percent signs, whatever is in
it, so that any other character is free to be a mark between such texts.

* **`isWritten_of_mem_encode`** — the characters of an encoded text.
* **`decode?_encode`** — an encoded text is read back.
-/

namespace PartitionPruning.Text

namespace Hex

theorem value?_upperDigit {n : Nat} (h : n < 16) : value? (upperDigit n) = some n := by
  have hall : ∀ n < 16, value? (upperDigit n) = some n := by decide
  exact hall n h

end Hex

namespace Percent

/-! ## Decoding -/

/-- The byte of two hexadecimal digits. -/
def byte? (high low : Char) : Option UInt8 := do
  let high ← Hex.value? high
  let low ← Hex.value? low
  pure (UInt8.ofNat (16 * high + low))

/-- The bytes of a percent-encoded text. A percent sign has to stand in front of two hexadecimal digits,
and any other character stands for its own bytes. -/
def decodeBytes? : List Char → Option (List UInt8)
  | [] => some []
  | c :: rest =>
    if c = '%' then match rest with
      | high :: low :: rest => do pure ((← byte? high low) :: (← decodeBytes? rest))
      | _ => none
    else (decodeBytes? rest).map (String.utf8EncodeChar c ++ ·)

/-- The text in UTF-8 that a percent-encoded text stands for. -/
def decode? (s : String) : Option String := do
  String.fromUTF8? (← decodeBytes? s.toList).toByteArray

theorem decodeBytes?_cons_of_ne {c : Char} (h : c ≠ '%') (rest : List Char) :
    decodeBytes? (c :: rest) = (decodeBytes? rest).map (String.utf8EncodeChar c ++ ·) := by
  rw [decodeBytes?.eq_def]
  exact if_neg h

theorem decodeBytes?_escape {high low : Char} {b : UInt8} (h : byte? high low = some b)
    (rest : List Char) :
    decodeBytes? ('%' :: high :: low :: rest) = (decodeBytes? rest).map (b :: ·) := by
  rw [decodeBytes?, if_pos rfl, h]
  cases decodeBytes? rest <;> rfl

/-! ## Bytes -/

theorem byte?_upperDigit (b : UInt8) :
    byte? (Hex.upperDigit (b.toNat / 16)) (Hex.upperDigit (b.toNat % 16)) = some b := by
  have hlt : b.toNat < 256 := b.toNat_lt
  rw [byte?, Hex.value?_upperDigit (by omega), Hex.value?_upperDigit (by omega)]
  simp only [Option.bind_eq_bind, Option.bind_some, Nat.div_add_mod]
  exact congrArg some UInt8.ofNat_toNat

/-- A byte that stands for itself is an ASCII character, but no percent sign. -/
theorem unreserved_bounds {b : UInt8} (h : isUnreserved b = true) :
    b.toNat < 128 ∧ b.toNat ≠ 0x25 := by
  simp only [isUnreserved, Bool.or_eq_true, Bool.and_eq_true, decide_eq_true_eq] at h
  omega

theorem toNat_ofNat (b : UInt8) : (Char.ofNat b.toNat).toNat = b.toNat := by
  have hcode := Iso.toNat_byte b.toNat
  rwa [UInt8.ofNat_toNat, Nat.mod_eq_of_lt b.toNat_lt] at hcode

theorem utf8EncodeChar_ofNat {b : UInt8} (h : b.toNat < 128) :
    String.utf8EncodeChar (Char.ofNat b.toNat) = [b] := by
  have hcode := toNat_ofNat b
  have hbyte : (Char.ofNat b.toNat).val.toUInt8 = b := by
    apply UInt8.toNat_inj.mp
    rw [UInt32.toNat_toUInt8]
    exact (congrArg (· % 2 ^ 8) hcode).trans (Nat.mod_eq_of_lt b.toNat_lt)
  rw [utf8EncodeChar_ascii (by rwa [hcode]), hbyte]

/-- A byte is read back in front of any rest. -/
theorem decodeBytes?_encodeByte (b : UInt8) (rest : List Char) :
    decodeBytes? (encodeByte b ++ rest) = (decodeBytes? rest).map (b :: ·) := by
  rw [encodeByte]
  split
  · -- a character that stands for itself is no percent sign, so it does not begin an escape
    rename_i h
    obtain ⟨hlt, hpercent⟩ := unreserved_bounds h
    have hne : Char.ofNat b.toNat ≠ '%' := fun heq =>
      hpercent ((toNat_ofNat b).symm.trans (congrArg Char.toNat heq))
    rw [List.singleton_append, decodeBytes?_cons_of_ne hne, utf8EncodeChar_ofNat hlt]
    rfl
  · exact decodeBytes?_escape (byte?_upperDigit b) rest

theorem decodeBytes?_encodeBytes (bytes : List UInt8) :
    decodeBytes? (encodeBytes bytes) = some bytes := by
  induction bytes with
  | nil => rfl
  | cons b bytes ih => rw [encodeBytes_cons, decodeBytes?_encodeByte, ih, Option.map_some]

/-! ## Texts -/

theorem fromUTF8?_toList_toUTF8 (s : String) :
    String.fromUTF8? s.toUTF8.toList.toByteArray = some s := by
  have hbytes : s.toUTF8.toList.toByteArray = s.toByteArray := by
    rw [ByteArray.toList, toListLoop_eq]
    exact ByteArray.ext (by simp)
  rw [hbytes, String.fromUTF8?, dif_pos s.isValidUTF8]
  rfl

/-- **An encoded text** is read back. -/
theorem decode?_encode (s : String) : decode? (encode s) = some s := by
  rw [decode?, encode, String.toList_ofList, decodeBytes?_encodeBytes]
  exact fromUTF8?_toList_toUTF8 s

/-! ## Characters -/

/-- The characters that encoded texts are written with. -/
def isWritten (c : Char) : Bool := c = '%' || (c.toNat < 128 && isUnreserved (UInt8.ofNat c.toNat))

theorem isWritten_upperDigit {n : Nat} (h : n < 16) : isWritten (Hex.upperDigit n) = true := by
  have hall : ∀ n < 16, isWritten (Hex.upperDigit n) = true := by decide
  exact hall n h

theorem isWritten_of_mem_encodeByte {b : UInt8} {c : Char} (h : c ∈ encodeByte b) :
    isWritten c = true := by
  rw [encodeByte] at h
  split at h
  · rename_i hb
    obtain rfl := List.mem_singleton.mp h
    rw [isWritten, toNat_ofNat, UInt8.ofNat_toNat, hb]
    simp [(unreserved_bounds hb).1]
  · have hlt : b.toNat < 256 := b.toNat_lt
    simp only [List.mem_cons, List.not_mem_nil, or_false] at h
    rcases h with rfl | rfl | rfl
    · rfl
    · exact isWritten_upperDigit (by omega)
    · exact isWritten_upperDigit (by omega)

/-- **The characters of an encoded text** are unreserved ones and percent signs. -/
theorem isWritten_of_mem_encode {s : String} {c : Char} (h : c ∈ (encode s).toList) :
    isWritten c = true := by
  rw [encode, String.toList_ofList, encodeBytes] at h
  obtain ⟨b, _, hc⟩ := List.mem_flatMap.mp h
  exact isWritten_of_mem_encodeByte hc

theorem not_mem_encode {c : Char} (h : isWritten c = false) (s : String) : c ∉ (encode s).toList :=
  fun hmem => by simp [isWritten_of_mem_encode hmem] at h

end Percent

end PartitionPruning.Text
