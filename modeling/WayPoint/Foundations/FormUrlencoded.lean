import WayPoint.Foundations.Utf8

/-! `application/x-www-form-urlencoded`: what is read of a query, and which texts are read as they were
written without any encoding. -/
namespace WayPoint.Foundations

variable {byte b h l : UInt8} {bytes rest : List UInt8} {text : List Char}

def hexValue (byte : UInt8) : Option UInt8 :=
  if 48 ≤ byte ∧ byte ≤ 57 then some (byte - 48)
  else if 65 ≤ byte ∧ byte ≤ 70 then some (byte - 55)
  else if 97 ≤ byte ∧ byte ≤ 102 then some (byte - 87)
  else none

/-- The byte that a percent sign and two digits stand for. -/
def escaped (byte high low : UInt8) : Option UInt8 :=
  if byte = 37 then do return (← hexValue high) * 16 + (← hexValue low) else none

def percentDecode : List UInt8 → List UInt8
  | byte :: high :: low :: rest =>
    match escaped byte high low with
    | some b => b :: percentDecode rest
    | none => byte :: percentDecode (high :: low :: rest)
  | bytes => bytes

def plusToSpace (bytes : List UInt8) : List UInt8 := bytes.map (fun byte => if byte = 43 then 32 else byte)

def decodeComponent (bytes : List UInt8) : List Char := fromUtf8Lossy (percentDecode (plusToSpace bytes))

/-- A name, and after an equals sign its value. -/
def formPair (bytes : List UInt8) : List Char × List Char :=
  (decodeComponent (bytes.takeWhile (· != 61)), decodeComponent ((bytes.dropWhile (· != 61)).drop 1))

/-- The names and values of a query. -/
def formPairs (query : List UInt8) : List (List Char × List Char) :=
  ((query.splitOn 38).filter (fun bytes => !bytes.isEmpty)).map formPair

/-- A percent sign with two digits after it. -/
def HasEscape (text : List Char) : Prop :=
  ∃ high low, ['%', high, low] <:+: text ∧ high.isHexDigit ∧ low.isHexDigit

section percentDecode

private theorem ascii_of_isHexDigit {c : Char} (h : c.isHexDigit) : c.toNat < 128 := by
  simp only [Char.isHexDigit, Char.isDigit, Bool.or_eq_true, Bool.and_eq_true, decide_eq_true_eq, ge_iff_le,
    UInt32.le_iff_toNat_le] at h
  change c.val.toNat < 128
  simp only [Char.reduceVal, UInt32.reduceToNat] at h
  omega

private theorem ascii_of_hexValue (h : (hexValue byte).isSome) : byte.toNat < 128 := by
  unfold hexValue at h
  simp only [UInt8.le_iff_toNat_le, UInt8.reduceToNat] at h
  split_ifs at h
  · omega
  · omega
  · omega
  · cases h

private theorem hexValue_isSome {c : Char} (hc : c.toNat < 128) :
    (hexValue (UInt8.ofNat c.toNat)).isSome = c.isHexDigit := by
  have hall : ∀ n : Fin 128, (hexValue (UInt8.ofNat n)).isSome = (Char.ofNat n).isHexDigit := by
    decide +kernel
  have h := hall ⟨c.toNat, hc⟩
  rwa [Char.ofNat_toNat] at h

private theorem isHexDigit_of_hexValue {c : Char} (h : (hexValue byte).isSome) (hc : c.toNat = byte.toNat) :
    c.isHexDigit := by
  rwa [← hexValue_isSome (hc ▸ ascii_of_hexValue h), hc, UInt8.ofNat_toNat]

private theorem escaped_eq_some (he : escaped byte h l = some b) :
    byte = 37 ∧ (hexValue h).isSome ∧ (hexValue l).isSome := by
  unfold escaped at he
  split at he
  · next hbyte =>
    obtain ⟨v, hv, he⟩ := Option.bind_eq_some_iff.mp he
    obtain ⟨w, hw, _⟩ := Option.bind_eq_some_iff.mp he
    exact ⟨hbyte, Option.isSome_of_eq_some hv, Option.isSome_of_eq_some hw⟩
  · cases he

/-- A byte is read as it is, or with the two after it. -/
private theorem percentDecode_cons (byte : UInt8) (bytes : List UInt8) :
    percentDecode (byte :: bytes) = byte :: percentDecode bytes ∨
      ∃ high low rest b, bytes = high :: low :: rest ∧ escaped byte high low = some b ∧
        percentDecode (byte :: bytes) = b :: percentDecode rest := by
  rcases bytes with _ | ⟨high, _ | ⟨low, rest⟩⟩
  · exact Or.inl rfl
  · exact Or.inl rfl
  · rw [percentDecode]
    cases he : escaped byte high low with
    | none => exact Or.inl rfl
    | some b => exact Or.inr ⟨high, low, rest, b, rfl, he, rfl⟩

/-- Three ASCII bytes make at most one. -/
private theorem asciiBytes_escaped (he : escaped byte h l = some b) (bytes : List UInt8) :
    asciiBytes (b :: bytes) + 2 ≤ asciiBytes (byte :: h :: l :: bytes) := by
  obtain ⟨hbyte, hh, hl⟩ := escaped_eq_some he
  have hpercent : asciiBytes [byte] = 1 := asciiBytes_singleton (by rw [hbyte]; decide)
  have hb := asciiBytes_singleton_le b
  rw [asciiBytes_cons b, asciiBytes_cons byte, asciiBytes_cons h, asciiBytes_cons l, hpercent,
    asciiBytes_singleton (ascii_of_hexValue hh), asciiBytes_singleton (ascii_of_hexValue hl)]
  omega

/-- Decoding changes nothing, or leaves fewer ASCII bytes. -/
private theorem percentDecode_eq_or_lt (bytes : List UInt8) :
    percentDecode bytes = bytes ∨ asciiBytes (percentDecode bytes) < asciiBytes bytes := by
  fun_induction percentDecode bytes with
  | case1 byte high low rest b he ih =>
    have hlt := asciiBytes_escaped he rest
    rw [asciiBytes_cons b] at hlt ⊢
    rcases ih with heq | hfewer
    · rw [heq]
      omega
    · omega
  | case2 byte high low rest he ih =>
    rcases ih with heq | hfewer
    · exact Or.inl (by rw [heq])
    · refine Or.inr ?_
      rw [asciiBytes_cons byte, asciiBytes_cons byte (high :: low :: rest)]
      omega
  | case3 bytes => exact Or.inl rfl

private theorem asciiBytes_percentDecode_le (bytes : List UInt8) :
    asciiBytes (percentDecode bytes) ≤ asciiBytes bytes := by
  rcases percentDecode_eq_or_lt bytes with heq | hfewer
  · exact Nat.le_of_eq (congrArg asciiBytes heq)
  · exact Nat.le_of_lt hfewer

/-- An escape is decoded, whatever stands before it. -/
private theorem asciiBytes_percentDecode_lt (he : escaped byte h l = some b) (before after : List UInt8) :
    asciiBytes (percentDecode (before ++ byte :: h :: l :: after)) <
      asciiBytes (before ++ byte :: h :: l :: after) := by
  induction before with
  | nil =>
    have hlt := asciiBytes_escaped he after
    have hle := asciiBytes_percentDecode_le after
    rw [List.nil_append, percentDecode, he]
    rw [asciiBytes_cons b] at hlt ⊢
    omega
  | cons first before ih =>
    rw [List.cons_append]
    rcases percentDecode_cons first (before ++ byte :: h :: l :: after) with heq | ⟨high, low, rest, c, hbytes, hc, heq⟩
    · rw [heq, asciiBytes_cons first, asciiBytes_cons first (before ++ _)]
      omega
    · have hlt := asciiBytes_escaped hc rest
      have hle := asciiBytes_percentDecode_le rest
      rw [heq, hbytes]
      rw [asciiBytes_cons c] at hlt ⊢
      omega

/-- Bytes that are no percent sign are read as they are. -/
theorem percentDecode_append {a : List UInt8} (ha : 37 ∉ a) (bytes : List UInt8) :
    percentDecode (a ++ bytes) = a ++ percentDecode bytes := by
  induction a with
  | nil => rfl
  | cons byte a ih =>
    rw [List.mem_cons, not_or] at ha
    rcases percentDecode_cons byte (a ++ bytes) with heq | ⟨high, low, rest, b, _, he, _⟩
    · rw [List.cons_append, heq, ih ha.2, List.cons_append]
    · exact absurd (escaped_eq_some he).1.symm ha.1

end percentDecode

section component

def plusToBlank (c : Char) : Char := if c = '+' then ' ' else c

private theorem plusToBlank_ne (c : Char) : plusToBlank c ≠ '+' := by
  unfold plusToBlank
  split
  · decide
  · assumption

private theorem plusToSpace_utf8Bytes (text : List Char) :
    plusToSpace (utf8Bytes text) = utf8Bytes (text.map plusToBlank) := by
  have hchar (c : Char) : plusToSpace (String.utf8EncodeChar c) = String.utf8EncodeChar (plusToBlank c) := by
    by_cases hc : c = '+'
    · rw [hc]
      decide
    · rw [plusToBlank, if_neg hc, plusToSpace]
      have hkept : ∀ byte ∈ String.utf8EncodeChar c, (if byte = 43 then 32 else byte) = id byte := by
        refine fun byte hbyte => if_neg fun hplus => ?_
        subst hplus
        exact hc (eq_of_mem_utf8EncodeChar hbyte (by decide))
      rw [List.map_congr_left hkept, List.map_id]
  induction text with
  | nil => rfl
  | cons c text ih =>
    rw [List.map_cons, utf8Bytes_cons, utf8Bytes_cons, ← hchar, ← ih]
    exact List.map_append

private theorem asciiBytes_plusToSpace (bytes : List UInt8) : asciiBytes (plusToSpace bytes) = asciiBytes bytes := by
  rw [asciiBytes, plusToSpace, List.countP_map]
  refine List.countP_congr fun byte _ => ?_
  by_cases hbyte : byte = 43
  · subst hbyte
    decide
  · simp [hbyte]

theorem asciiChars_decodeComponent_le (bytes : List UInt8) :
    asciiChars (decodeComponent bytes) ≤ asciiBytes bytes := by
  rw [decodeComponent, asciiChars_fromUtf8Lossy, ← asciiBytes_plusToSpace bytes]
  exact asciiBytes_percentDecode_le _

/-- What starts with an ASCII byte starts with its character. -/
private theorem utf8Bytes_eq_cons (h : utf8Bytes text = byte :: bytes) (hascii : byte.toNat < 128) :
    ∃ c rest, text = c :: rest ∧ c.toNat = byte.toNat ∧ utf8Bytes rest = bytes := by
  cases text with
  | nil => cases h
  | cons c rest =>
    obtain ⟨first, others, hfirst⟩ := List.exists_cons_of_ne_nil (String.utf8EncodeChar_ne_nil (c := c))
    rw [utf8Bytes_cons, hfirst, List.cons_append, List.cons.injEq] at h
    obtain ⟨rfl, h⟩ := h
    have hc : c.toNat = first.toNat :=
      toNat_of_mem_utf8EncodeChar (hfirst ▸ List.mem_cons_self) hascii
    rw [utf8EncodeChar_ascii (hc ▸ hascii), List.cons.injEq] at hfirst
    obtain ⟨_, rfl⟩ := hfirst
    exact ⟨c, rest, rfl, hc, h⟩

/-- Text without escapes is not decoded. -/
theorem percentDecode_utf8Bytes (h : ¬ HasEscape text) : percentDecode (utf8Bytes text) = utf8Bytes text := by
  induction text with
  | nil => rfl
  | cons c text ih =>
    have htail : ¬ HasEscape text := by
      intro hescape
      obtain ⟨high, low, hwithin, hdigits⟩ := hescape
      exact h ⟨high, low, hwithin.trans (List.suffix_cons c text).isInfix, hdigits⟩
    rw [utf8Bytes_cons]
    by_cases hc : c = '%'
    · subst hc
      rcases percentDecode_cons 37 (utf8Bytes text) with heq | ⟨high, low, rest, b, hbytes, he, _⟩
      · exact heq.trans (congrArg _ (ih htail))
      · obtain ⟨_, hhigh, hlow⟩ := escaped_eq_some he
        obtain ⟨c, after, rfl, hc, hafter⟩ := utf8Bytes_eq_cons hbytes (ascii_of_hexValue hhigh)
        obtain ⟨d, after, rfl, hd, _⟩ := utf8Bytes_eq_cons hafter (ascii_of_hexValue hlow)
        exact absurd ⟨c, d, (List.prefix_append ['%', c, d] after).isInfix,
          isHexDigit_of_hexValue hhigh hc, isHexDigit_of_hexValue hlow hd⟩ h
    · rw [percentDecode_append, ih htail]
      intro hbyte
      exact hc (eq_of_mem_utf8EncodeChar hbyte (by decide))

private theorem asciiBytes_percentDecode_utf8Bytes (h : HasEscape text) :
    asciiBytes (percentDecode (utf8Bytes text)) < asciiBytes (utf8Bytes text) := by
  obtain ⟨high, low, hwithin, hhigh, hlow⟩ := h
  obtain ⟨before, after, rfl⟩ := hwithin
  have hhigh' := ascii_of_isHexDigit hhigh
  have hlow' := ascii_of_isHexDigit hlow
  rw [← hexValue_isSome hhigh', Option.isSome_iff_exists] at hhigh
  rw [← hexValue_isSome hlow', Option.isSome_iff_exists] at hlow
  obtain ⟨v, hv⟩ := hhigh
  obtain ⟨w, hw⟩ := hlow
  have he : escaped 37 (UInt8.ofNat high.toNat) (UInt8.ofNat low.toNat) = some (v * 16 + w) := by
    rw [escaped, if_pos rfl, hv, hw]
    rfl
  have hbytes : utf8Bytes (before ++ ['%', high, low] ++ after) =
      utf8Bytes before ++ 37 :: UInt8.ofNat high.toNat :: UInt8.ofNat low.toNat :: utf8Bytes after := by
    rw [List.append_assoc, utf8Bytes_append, List.cons_append, List.cons_append, List.cons_append,
      List.nil_append, utf8Bytes_cons, utf8Bytes_cons, utf8Bytes_cons, utf8EncodeChar_ascii hhigh',
      utf8EncodeChar_ascii hlow']
    rfl
  rw [hbytes]
  exact asciiBytes_percentDecode_lt he _ _

/-- Text is read as it was written exactly when it has no plus signs and no escapes. -/
theorem decodeComponent_utf8Bytes_iff (text : List Char) :
    decodeComponent (utf8Bytes text) = text ↔ '+' ∉ text ∧ ¬ HasEscape text := by
  rw [decodeComponent, plusToSpace_utf8Bytes]
  constructor
  · intro h
    have hcount : asciiBytes (percentDecode (utf8Bytes (text.map plusToBlank))) =
        asciiBytes (utf8Bytes (text.map plusToBlank)) := by
      rw [← asciiChars_fromUtf8Lossy, h, ← asciiBytes_utf8Bytes, ← plusToSpace_utf8Bytes,
        asciiBytes_plusToSpace]
    have hsame := (percentDecode_eq_or_lt _).resolve_right (Nat.not_lt.mpr (Nat.le_of_eq hcount.symm))
    rw [hsame, fromUtf8Lossy_utf8Bytes] at h
    rw [h] at hsame
    refine ⟨fun hplus => ?_, fun hescape => ?_⟩
    · rw [← h] at hplus
      obtain ⟨c, _, hc⟩ := List.mem_map.mp hplus
      exact plusToBlank_ne c hc
    · exact absurd (asciiBytes_percentDecode_utf8Bytes hescape) (by rw [hsame]; exact Nat.lt_irrefl _)
  · intro h
    obtain ⟨hplus, hescape⟩ := h
    have hkept : ∀ c ∈ text, plusToBlank c = id c := by
      intro c hc
      refine if_neg fun heq => hplus ?_
      rwa [← heq]
    rw [List.map_congr_left hkept, List.map_id, percentDecode_utf8Bytes hescape, fromUtf8Lossy_utf8Bytes]

end component

section pairs

theorem formPair_append {name : List UInt8} (hname : 61 ∉ name) (value : List UInt8) :
    formPair (name ++ 61 :: value) = (decodeComponent name, decodeComponent value) := by
  have hne : ∀ byte ∈ name, (byte != 61) = true := by
    intro byte hbyte
    rw [bne_iff_ne]
    rintro rfl
    exact hname hbyte
  have htake : (61 :: value).takeWhile (· != 61) = [] := List.takeWhile_cons_of_neg (by decide)
  have hdrop : (61 :: value).dropWhile (· != 61) = 61 :: value := List.dropWhile_cons_of_neg (by decide)
  rw [formPair, List.takeWhile_append_of_pos hne, List.dropWhile_append_of_pos hne, htake, hdrop,
    List.append_nil, List.drop_one, List.tail_cons]

theorem formPairs_single (hsep : 38 ∉ bytes) (hne : bytes ≠ []) : formPairs bytes = [formPair bytes] := by
  rw [formPairs, List.splitOn_eq_singleton hsep, List.filter_cons_of_pos, List.filter_nil, List.map_singleton]
  simp [hne]

theorem formPairs_append (hsep : 38 ∉ bytes) (hne : bytes ≠ []) (rest : List UInt8) :
    formPairs (bytes ++ 38 :: rest) = formPair bytes :: formPairs rest := by
  rw [formPairs, List.splitOn_append_cons_self_of_not_mem hsep, List.filter_cons_of_pos, List.map_cons]
  · rfl
  · simp [hne]

end pairs
end WayPoint.Foundations
