import Mathlib.Data.List.TakeWhile

/-! Text as UTF-8 bytes, and the text that is made of bytes which need not be UTF-8. -/
namespace WayPoint.Foundations

variable {c : Char} {text : List Char} {bytes rest : List UInt8}

def utf8Bytes (text : List Char) : List UInt8 := text.flatMap String.utf8EncodeChar

/-- How many characters are ASCII. -/
def asciiChars (text : List Char) : Nat := text.countP (fun c => c.toNat < 128)

/-- How many bytes are ASCII. -/
def asciiBytes (bytes : List UInt8) : Nat := bytes.countP (fun byte => byte.toNat < 128)

section ascii

@[simp] theorem utf8Bytes_nil : utf8Bytes [] = [] := rfl

@[simp] theorem utf8Bytes_cons (c : Char) (text : List Char) :
    utf8Bytes (c :: text) = String.utf8EncodeChar c ++ utf8Bytes text := rfl

@[simp] theorem utf8Bytes_append (a b : List Char) : utf8Bytes (a ++ b) = utf8Bytes a ++ utf8Bytes b :=
  List.flatMap_append

@[simp] theorem asciiBytes_append (a b : List UInt8) :
    asciiBytes (a ++ b) = asciiBytes a + asciiBytes b := List.countP_append

theorem asciiBytes_cons (byte : UInt8) (bytes : List UInt8) :
    asciiBytes (byte :: bytes) = asciiBytes [byte] + asciiBytes bytes := by
  rw [← List.singleton_append, asciiBytes_append]

theorem asciiBytes_singleton_le (byte : UInt8) : asciiBytes [byte] ≤ 1 := List.countP_le_length

theorem asciiBytes_singleton {byte : UInt8} (h : byte.toNat < 128) : asciiBytes [byte] = 1 := by
  simp [asciiBytes, h]

theorem asciiChars_cons (c : Char) (text : List Char) :
    asciiChars (c :: text) = asciiChars [c] + asciiChars text := by
  rw [← List.singleton_append]
  exact List.countP_append

/-- Only an ASCII character is written with an ASCII byte. -/
theorem toNat_of_mem_utf8EncodeChar {byte : UInt8} (h : byte ∈ String.utf8EncodeChar c)
    (hascii : byte.toNat < 128) : c.toNat = byte.toNat := by
  have hhigh (n : Nat) (hn : 128 ≤ n) (hlt : n < 256) : ¬ (UInt8.ofNat n).toNat < 128 := by
    simp only [UInt8.toNat_ofNat']
    omega
  unfold String.utf8EncodeChar at h
  simp only at h
  split at h
  · rw [List.mem_singleton] at h
    subst h
    simp only [UInt8.toNat_ofNat', Char.toNat]
    omega
  · refine absurd hascii ?_
    split at h
    · simp only [List.mem_cons, List.not_mem_nil, or_false] at h
      rcases h with rfl | rfl <;> exact hhigh _ (by omega) (by omega)
    · split at h
      · simp only [List.mem_cons, List.not_mem_nil, or_false] at h
        rcases h with rfl | rfl | rfl <;> exact hhigh _ (by omega) (by omega)
      · simp only [List.mem_cons, List.not_mem_nil, or_false] at h
        rcases h with rfl | rfl | rfl | rfl <;> exact hhigh _ (by omega) (by omega)

theorem eq_of_mem_utf8EncodeChar {d : Char} (h : UInt8.ofNat d.toNat ∈ String.utf8EncodeChar c)
    (hd : d.toNat < 128) : c = d := by
  have hbyte : (UInt8.ofNat d.toNat).toNat = d.toNat := by
    rw [UInt8.toNat_ofNat']
    omega
  have hnat := toNat_of_mem_utf8EncodeChar h (by rwa [hbyte])
  rw [← Char.ofNat_toNat c, hnat, hbyte, Char.ofNat_toNat]

theorem notMem_utf8Bytes (hc : c.toNat < 128) (h : c ∉ text) : UInt8.ofNat c.toNat ∉ utf8Bytes text := by
  intro hmem
  obtain ⟨d, hd, hbyte⟩ := List.mem_flatMap.mp hmem
  rw [eq_of_mem_utf8EncodeChar hbyte hc] at hd
  exact h hd

theorem utf8EncodeChar_ascii (h : c.toNat < 128) : String.utf8EncodeChar c = [UInt8.ofNat c.toNat] := by
  have hsize : c.utf8Size = 1 := Char.utf8Size_eq_one_iff.mpr (by
    rw [UInt32.le_iff_toNat_le]
    exact Nat.le_of_lt_succ h)
  exact String.utf8EncodeChar_eq_singleton hsize

theorem asciiBytes_utf8EncodeChar (c : Char) : asciiBytes (String.utf8EncodeChar c) = asciiChars [c] := by
  by_cases h : c.toNat < 128
  · rw [utf8EncodeChar_ascii h]
    have hbyte : (UInt8.ofNat c.toNat).toNat < 128 := by
      rw [UInt8.toNat_ofNat']
      omega
    rw [asciiBytes, asciiChars, List.countP_singleton, List.countP_singleton, decide_eq_true h,
      decide_eq_true hbyte]
  · have hbytes : asciiBytes (String.utf8EncodeChar c) = 0 := by
      refine List.countP_eq_zero.mpr fun byte hbyte => ?_
      rw [decide_eq_true_eq]
      intro hascii
      rw [toNat_of_mem_utf8EncodeChar hbyte hascii] at h
      exact h hascii
    rw [hbytes]
    simp [asciiChars, h]

theorem asciiBytes_utf8Bytes (text : List Char) : asciiBytes (utf8Bytes text) = asciiChars text := by
  induction text with
  | nil => rfl
  | cons c text ih =>
    rw [utf8Bytes_cons, asciiBytes_append, ih, asciiBytes_utf8EncodeChar, asciiChars_cons c text]

theorem asciiChars_takeWhile_le (p : Char → Bool) (text : List Char) :
    asciiChars (text.takeWhile p) ≤ asciiChars text :=
  (List.takeWhile_sublist p).countP_le

/-- What is cut off before an ASCII character has fewer. -/
theorem asciiChars_takeWhile_lt (hc : c.toNat < 128) (h : c ∈ text) :
    asciiChars (text.takeWhile (· != c)) < asciiChars text := by
  induction text with
  | nil => cases h
  | cons d text ih =>
    by_cases hd : d = c
    · subst hd
      rw [List.takeWhile_cons_of_neg (by simp), asciiChars_cons]
      have hone : asciiChars [d] = 1 := by simp [asciiChars, hc]
      have hnil : asciiChars [] = 0 := rfl
      omega
    · rw [List.takeWhile_cons_of_pos (by simp [hd]), asciiChars_cons, asciiChars_cons d text]
      have hlt := ih ((List.mem_cons.mp h).resolve_left (Ne.symm hd))
      omega

theorem takeWhile_ne_eq_self (h : c ∉ text) : text.takeWhile (· != c) = text := by
  refine List.takeWhile_eq_self_iff.mpr fun d hd => ?_
  rw [bne_iff_ne]
  rintro rfl
  exact h hd

end ascii

section lossy

/-- The second byte of a character of three or four bytes that starts with `a`. -/
def secondByte (a b : UInt8) : Bool :=
  (a == 0xE0 && 0xA0 ≤ b && b ≤ 0xBF) || (0xE1 ≤ a && a ≤ 0xEC && 0x80 ≤ b && b ≤ 0xBF) ||
    (a == 0xED && 0x80 ≤ b && b ≤ 0x9F) || (0xEE ≤ a && a ≤ 0xEF && 0x80 ≤ b && b ≤ 0xBF) ||
    (a == 0xF0 && 0x90 ≤ b && b ≤ 0xBF) || (0xF1 ≤ a && a ≤ 0xF3 && 0x80 ≤ b && b ≤ 0xBF) ||
    (a == 0xF4 && 0x80 ≤ b && b ≤ 0x8F)

/-- How many bytes are taken for the start of a character that breaks off. -/
def brokenLength : List UInt8 → Nat
  | a :: b :: c :: _ =>
    if secondByte a b then if 0xF0 ≤ a && 0x80 ≤ c && c ≤ 0xBF then 3 else 2 else 1
  | [a, b] => if secondByte a b then 2 else 1
  | _ => 1

/-- Reads text from bytes, the first of which belong to what has been read. -/
def readLossy : Nat → List UInt8 → List Char
  | _, [] => []
  | skip + 1, _ :: bytes => readLossy skip bytes
  | 0, byte :: bytes =>
    match (byte :: bytes).toByteArray.utf8DecodeChar? 0 with
    | some c => c :: readLossy (c.utf8Size - 1) bytes
    | none => Char.ofNat 0xFFFD :: readLossy (brokenLength (byte :: bytes) - 1) bytes

/-- `String::from_utf8_lossy`: what is no character is replaced. -/
def fromUtf8Lossy (bytes : List UInt8) : List Char := readLossy 0 bytes

private theorem readLossy_eq_drop (skip : Nat) (bytes : List UInt8) :
    readLossy skip bytes = fromUtf8Lossy (bytes.drop skip) := by
  induction bytes generalizing skip with
  | nil => cases skip <;> rfl
  | cons byte bytes ih =>
    cases skip with
    | zero => rfl
    | succ skip => exact ih skip

private theorem fromUtf8Lossy_char (c : Char) (rest : List UInt8) :
    fromUtf8Lossy (String.utf8EncodeChar c ++ rest) = c :: fromUtf8Lossy rest := by
  obtain ⟨byte, bytes, hbytes⟩ := List.exists_cons_of_ne_nil (String.utf8EncodeChar_ne_nil (c := c))
  have hdecode : ((String.utf8EncodeChar c ++ rest).toByteArray).utf8DecodeChar? 0 = some c := by
    rw [List.toByteArray_append]
    exact ByteArray.utf8DecodeChar?_utf8EncodeChar_append
  have hlength : bytes.length = c.utf8Size - 1 := by
    have hsize := String.length_utf8EncodeChar c
    rw [hbytes, List.length_cons] at hsize
    omega
  rw [hbytes, List.cons_append] at hdecode ⊢
  rw [fromUtf8Lossy, readLossy, hdecode]
  simp only
  rw [readLossy_eq_drop, ← hlength, List.drop_left]

/-- What was written is read. -/
theorem fromUtf8Lossy_utf8Bytes (text : List Char) : fromUtf8Lossy (utf8Bytes text) = text := by
  induction text with
  | nil => rfl
  | cons c text ih => rw [utf8Bytes_cons, fromUtf8Lossy_char, ih]

theorem utf8DecodeChar?_ascii {byte : UInt8} (h : byte.toNat < 128) (bytes : List UInt8) :
    ((byte :: bytes).toByteArray.utf8DecodeChar? 0).isSome := by
  have hsmall : ∀ n : Fin 128, (Char.ofNat n).toNat = n := by decide
  have hnat : (Char.ofNat byte.toNat).toNat = byte.toNat := hsmall ⟨byte.toNat, h⟩
  have hchar : String.utf8EncodeChar (Char.ofNat byte.toNat) = [byte] := by
    rw [utf8EncodeChar_ascii (by rwa [hnat]), hnat, UInt8.ofNat_toNat]
  have hdecode : (([byte] ++ bytes).toByteArray).utf8DecodeChar? 0 = some (Char.ofNat byte.toNat) := by
    rw [List.toByteArray_append, ← hchar]
    exact ByteArray.utf8DecodeChar?_utf8EncodeChar_append
  exact Option.isSome_of_eq_some hdecode

private theorem le_of_secondByte {a b : UInt8} (h : secondByte a b) : 0xE0 ≤ a.toNat ∧ 0x80 ≤ b.toNat := by
  simp only [secondByte, Bool.or_eq_true, Bool.and_eq_true, beq_iff_eq, decide_eq_true_eq,
    UInt8.le_iff_toNat_le, ← UInt8.toNat_inj] at h
  simp only [UInt8.reduceToNat] at h
  omega

private theorem brokenLength_ne_zero (bytes : List UInt8) : brokenLength bytes ≠ 0 := by
  fun_cases brokenLength bytes <;> simp

/-- What is replaced holds no ASCII byte. -/
private theorem not_ascii_of_broken {byte : UInt8} {bytes : List UInt8}
    (h : (byte :: bytes).toByteArray.utf8DecodeChar? 0 = none) :
    ∀ b ∈ (byte :: bytes).take (brokenLength (byte :: bytes)), ¬ b.toNat < 128 := by
  have hbyte : ¬ byte.toNat < 128 := by
    intro hascii
    have hdecode := utf8DecodeChar?_ascii hascii bytes
    rw [h] at hdecode
    cases hdecode
  have hone : ∀ b ∈ [byte], ¬ b.toNat < 128 := by simpa using hbyte
  have htwo {b : UInt8} (hb : secondByte byte b) : ∀ x ∈ [byte, b], ¬ x.toNat < 128 := by
    have := (le_of_secondByte hb).2
    simp only [List.mem_cons, List.not_mem_nil, or_false, forall_eq_or_imp, forall_eq]
    omega
  rcases bytes with _ | ⟨b, _ | ⟨c, rest⟩⟩
  · exact hone
  · rw [brokenLength]
    split
    · next hb => exact htwo hb
    · exact hone
  · rw [brokenLength]
    split
    · next hb =>
      split
      · next hc =>
        simp only [Bool.and_eq_true, decide_eq_true_eq, UInt8.le_iff_toNat_le, UInt8.reduceToNat] at hc
        have hthree : ∀ x ∈ [byte, b] ++ [c], ¬ x.toNat < 128 :=
          List.forall_mem_append.mpr ⟨htwo hb, List.forall_mem_singleton.mpr (by omega)⟩
        exact hthree
      · exact htwo hb
    · exact hone

/-- ASCII comes through as it is. -/
theorem asciiChars_fromUtf8Lossy (bytes : List UInt8) : asciiChars (fromUtf8Lossy bytes) = asciiBytes bytes := by
  induction hn : bytes.length using Nat.strongRecOn generalizing bytes with
  | _ n ih =>
    subst hn
    rcases bytes with _ | ⟨byte, bytes⟩
    · rfl
    cases hdecode : (byte :: bytes).toByteArray.utf8DecodeChar? 0 with
    | some c =>
      obtain ⟨rest, hrest⟩ : ∃ rest, byte :: bytes = String.utf8EncodeChar c ++ rest := by
        obtain ⟨l, hl⟩ := ByteArray.exists_of_utf8DecodeChar?_eq_some hdecode
        refine ⟨l.data.toList, ?_⟩
        have := congrArg (fun b => b.data.toList) hl
        simpa using this
      have hlength := congrArg List.length hrest
      rw [List.length_append, String.length_utf8EncodeChar] at hlength
      have hpos := c.utf8Size_pos
      rw [hrest, fromUtf8Lossy_char, asciiBytes_append, asciiBytes_utf8EncodeChar, ← ih _ (by omega) rest rfl,
        asciiChars_cons]
    | none =>
      obtain ⟨skip, hskip⟩ := Nat.exists_eq_add_one_of_ne_zero (brokenLength_ne_zero (byte :: bytes))
      have hbroken := not_ascii_of_broken hdecode
      rw [hskip, List.take_succ_cons] at hbroken
      have hread : fromUtf8Lossy (byte :: bytes) = Char.ofNat 0xFFFD :: fromUtf8Lossy (bytes.drop skip) := by
        rw [fromUtf8Lossy, readLossy, hdecode]
        simp only [hskip, Nat.add_sub_cancel, readLossy_eq_drop]
      have hnone : asciiBytes (byte :: bytes.take skip) = 0 :=
        List.countP_eq_zero.mpr fun b hb => by simpa using hbroken b hb
      have hsplit : asciiBytes (byte :: bytes) = asciiBytes (bytes.drop skip) :=
        calc asciiBytes (byte :: bytes) = asciiBytes (byte :: bytes.take skip ++ bytes.drop skip) := by
              rw [List.cons_append, List.take_append_drop]
          _ = asciiBytes (bytes.drop skip) := by rw [asciiBytes_append, hnone, Nat.zero_add]
      have hlength : (bytes.drop skip).length < (byte :: bytes).length := by
        rw [List.length_drop, List.length_cons]
        omega
      rw [hread, hsplit, ← ih _ hlength _ rfl, asciiChars_cons]
      exact Nat.zero_add _

end lossy
end WayPoint.Foundations
