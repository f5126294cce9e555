import Mathlib.Data.List.Basic

/-!
# The bytes of a text

The bytes of a text in UTF-8, as a list: those of its characters, one behind the other
(`toList_toUTF8`). They are read as the text again (`fromUTF8?_bytes`), and a control character of
ASCII stands among them only where one stands in the text (`le_of_mem_bytes`), since every byte
of a longer character is beyond ASCII.
-/

namespace Cochange.Text

theorem toList_loop (bs : ByteArray) (i : Nat) (read : List UInt8) :
    ByteArray.toList.loop bs i read = read.reverse ++ bs.data.toList.drop i := by
  fun_induction ByteArray.toList.loop bs i read with
  | case1 i read hi ih =>
    have hlen : i < bs.data.toList.length := by simpa using hi
    have hget : bs.get! i = bs.data.toList[i] := by
      have hbang : bs.get! i = bs.data[i]! := by cases bs; rfl
      rw [hbang, getElem!_pos bs.data i hi]
      rfl
    rw [ih, List.drop_eq_getElem_cons hlen, hget, List.reverse_cons, List.append_assoc,
      List.singleton_append]
  | case2 i read hi =>
    have hend : bs.data.toList.length ≤ i := by simpa using Nat.le_of_not_lt hi
    rw [List.drop_eq_nil_of_le hend, List.append_nil]

/-- The bytes of a text in UTF-8. -/
def bytes (cs : List Char) : List UInt8 :=
  cs.flatMap String.utf8EncodeChar

theorem bytes_append (cs ds : List Char) : bytes (cs ++ ds) = bytes cs ++ bytes ds :=
  List.flatMap_append

theorem toByteArray_bytes (cs : List Char) : (⟨(bytes cs).toArray⟩ : ByteArray) =
    (String.ofList cs).toByteArray := by
  rw [String.toByteArray_ofList]
  refine ByteArray.ext (Array.toList_inj.mp ?_)
  exact (List.toList_data_toByteArray).symm

theorem toList_toUTF8 (s : String) : s.toUTF8.toList = bytes s.toList := by
  have hbytes := toByteArray_bytes s.toList
  rw [String.ofList_toList] at hbytes
  show ByteArray.toList.loop s.toByteArray 0 [] = bytes s.toList
  rw [toList_loop, ← hbytes]
  rfl

/-- The bytes of a text are UTF-8, and the text is what they stand for. -/
theorem fromUTF8?_bytes (cs : List Char) :
    String.fromUTF8? ⟨(bytes cs).toArray⟩ = some (String.ofList cs) := by
  rw [toByteArray_bytes, String.fromUTF8?, dif_pos (String.ofList cs).isValidUTF8]
  rfl

/-- The bytes of a character are itself, if it is one of ASCII, or lie beyond ASCII. -/
theorem le_of_mem_utf8EncodeChar {c : Char} {n : Nat} (hn : n ≤ 0x80) (hc : n ≤ c.toNat) {b : UInt8}
    (hb : b ∈ String.utf8EncodeChar c) : n ≤ b.toNat := by
  have hc' : n ≤ c.val.toNat := hc
  unfold String.utf8EncodeChar at hb
  dsimp only at hb
  split at hb
  · rw [List.mem_singleton.mp hb, UInt8.toNat_ofNat']
    omega
  split at hb
  · simp only [List.mem_cons, List.not_mem_nil, or_false] at hb
    rcases hb with rfl | rfl <;> rw [UInt8.toNat_ofNat'] <;> omega
  split at hb
  · simp only [List.mem_cons, List.not_mem_nil, or_false] at hb
    rcases hb with rfl | rfl | rfl <;> rw [UInt8.toNat_ofNat'] <;> omega
  · simp only [List.mem_cons, List.not_mem_nil, or_false] at hb
    rcases hb with rfl | rfl | rfl | rfl <;> rw [UInt8.toNat_ofNat'] <;> omega

/-- A bound of ASCII that all characters keep is kept by all bytes. -/
theorem le_of_mem_bytes {cs : List Char} {n : Nat} (hn : n ≤ 0x80) (hcs : ∀ c ∈ cs, n ≤ c.toNat) :
    ∀ b ∈ bytes cs, n ≤ b.toNat := by
  intro b hb
  obtain ⟨c, hc, hb⟩ := List.mem_flatMap.mp hb
  exact le_of_mem_utf8EncodeChar hn (hcs c hc) hb

end Cochange.Text
