import Mathlib.Data.List.Infix
import Mathlib.Data.List.TakeWhile
import WayPoint.Gateway.Http

/-! What the functions that cut text do: the split at CRLF, the split at the first separator, and
the reading of a stream up to its first empty line. -/
namespace WayPoint.Gateway

variable {line text : Text} {lines : List Text}

theorem splitOnce_append {separator : Char} {a : Text} (h : separator ∉ a) (b : Text) :
    splitOnce separator (a ++ separator :: b) = some (a, b) := by
  induction a with
  | nil => simp [splitOnce]
  | cons c a ih =>
    rw [List.mem_cons, not_or] at h
    rw [List.cons_append, splitOnce, if_neg (Ne.symm h.1), ih h.2]
    rfl

theorem splitOnce_eq_some {separator : Char} {a b : Text}
    (h : splitOnce separator text = some (a, b)) : text = a ++ separator :: b ∧ separator ∉ a := by
  induction text generalizing a with
  | nil => cases h
  | cons c rest ih =>
    unfold splitOnce at h
    split at h
    · next hc =>
      cases h
      exact ⟨by rw [hc, List.nil_append], List.not_mem_nil⟩
    · next hc =>
      obtain ⟨parts, hparts, heq⟩ := Option.map_eq_some_iff.mp h
      cases heq
      obtain ⟨hrest, hmem⟩ := ih hparts
      exact ⟨by rw [List.cons_append, ← hrest], by simp [Ne.symm hc, hmem]⟩

/-- A CRLF begins at the first character, or later. -/
theorem crlf_infix_cons_iff {c : Char} :
    crlf <:+: c :: line ↔ (c = '\r' ∧ line.head? = some '\n') ∨ crlf <:+: line := by
  rw [List.infix_cons_iff]
  refine or_congr_left ?_
  cases line with
  | nil => simp [crlf]
  | cons d line => simp [crlf, eq_comm]

theorem splitCrlf_ne_nil (text : Text) : splitCrlf text ≠ [] := by
  fun_induction splitCrlf text with
  | case1 => simp
  | case2 => simp
  | case3 => simp
  | case4 => simp

/-- A character that does not begin a CRLF belongs to the first line. -/
private theorem splitCrlf_cons {c : Char} (h : ¬ (c = '\r' ∧ text.head? = some '\n'))
    (hlines : splitCrlf text = line :: lines) : splitCrlf (c :: text) = (c :: line) :: lines := by
  rw [splitCrlf]
  · rw [hlines]
  · intro rest hc hrest
    subst hrest
    exact h ⟨hc, rfl⟩

private theorem splitCrlf_line (h : ¬ crlf <:+: line) (rest : Text) :
    splitCrlf (line ++ crlf ++ rest) = line :: splitCrlf rest := by
  induction line with
  | nil => rfl
  | cons c line ih =>
    rw [crlf_infix_cons_iff, not_or] at h
    refine splitCrlf_cons ?_ (ih h.2)
    intro hc
    obtain ⟨hc, hhead⟩ := hc
    cases line with
    | nil => cases hhead
    | cons d line => exact h.1 ⟨hc, hhead⟩

/-- The first part of a split, and what comes after its CRLF. -/
theorem splitCrlf_eq_cons (h : splitCrlf text = line :: lines) : ¬ crlf <:+: line ∧
    (text = line ∧ lines = [] ∨ ∃ rest, text = line ++ crlf ++ rest ∧ splitCrlf rest = lines) := by
  fun_induction splitCrlf text generalizing line with
  | case1 =>
    cases h
    exact ⟨by simp [crlf], Or.inl ⟨rfl, rfl⟩⟩
  | case2 rest =>
    cases h
    exact ⟨by simp [crlf], Or.inr ⟨rest, rfl, rfl⟩⟩
  | case3 c rest hc hnil => exact absurd hnil (splitCrlf_ne_nil rest)
  | case4 c rest hc first others hrest ih =>
    cases h
    obtain ⟨hfirst, hcase⟩ := ih hrest
    have hhead : c = '\r' → first.head? ≠ some '\n' := by
      intro hcr hhead
      obtain ⟨after, rfl⟩ : ∃ after, first = '\n' :: after := by
        cases first with
        | nil => cases hhead
        | cons d after =>
          cases hhead
          exact ⟨after, rfl⟩
      rcases hcase with ⟨rfl, _⟩ | ⟨later, rfl, _⟩
      · exact hc _ hcr rfl
      · exact hc _ hcr rfl
    refine ⟨fun hinfix => ?_, ?_⟩
    · rcases crlf_infix_cons_iff.mp hinfix with ⟨hcr, hnl⟩ | hinfix
      · exact hhead hcr hnl
      · exact hfirst hinfix
    · rcases hcase with ⟨rfl, rfl⟩ | ⟨later, rfl, hlater⟩
      · exact Or.inl ⟨rfl, rfl⟩
      · exact Or.inr ⟨later, rfl, hlater⟩

theorem splitCrlf_lines (h : ∀ line ∈ lines, ¬ crlf <:+: line) (rest : Text) :
    splitCrlf (lines.flatMap (· ++ crlf) ++ rest) = lines ++ splitCrlf rest := by
  induction lines with
  | nil => rfl
  | cons line lines ih =>
    rw [List.forall_mem_cons] at h
    rw [List.flatMap_cons, List.append_assoc, splitCrlf_line h.1, ih h.2]
    rfl

theorem splitCrlf_append_crlf (text rest : Text) :
    splitCrlf (text ++ crlf ++ rest) = splitCrlf text ++ splitCrlf rest := by
  fun_induction splitCrlf text with
  | case1 => rfl
  | case2 text ih => exact congrArg ([] :: ·) ih
  | case3 c text hc hnil => exact absurd hnil (splitCrlf_ne_nil text)
  | case4 c text hc first others htext ih =>
    rw [htext] at ih
    refine splitCrlf_cons ?_ ih
    intro h
    obtain ⟨hcr, hhead⟩ := h
    cases text with
    | nil => simp [crlf] at hhead
    | cons d text =>
      obtain rfl : d = '\n' := by simpa using hhead
      exact hc text hcr rfl

theorem eq_nil_of_splitCrlf (h : splitCrlf text = [[]]) : text = [] := by
  rcases (splitCrlf_eq_cons h).2 with ⟨htext, _⟩ | ⟨rest, _, hrest⟩
  · exact htext
  · exact absurd hrest (splitCrlf_ne_nil rest)

/-- Lines up to an empty one, which ends the text or is followed by another CRLF. -/
theorem splitCrlf_empty_line {after : List Text} (h : splitCrlf text = lines ++ [] :: after) :
    (∀ line ∈ lines, ¬ crlf <:+: line) ∧
      ∃ rest, text = lines.flatMap (· ++ crlf) ++ rest ∧ (rest = [] ∨ crlf <+: rest) := by
  induction lines generalizing text with
  | nil =>
    refine ⟨by simp, text, rfl, ?_⟩
    rcases (splitCrlf_eq_cons h).2 with ⟨htext, _⟩ | ⟨rest, rfl, _⟩
    · exact Or.inl htext
    · exact Or.inr (List.prefix_append crlf rest)
  | cons line lines ih =>
    obtain ⟨hline, ⟨_, hnil⟩ | ⟨later, rfl, hlater⟩⟩ := splitCrlf_eq_cons h
    · simp at hnil
    · obtain ⟨hlines, rest, rfl, hrest⟩ := ih hlater
      exact ⟨List.forall_mem_cons.mpr ⟨hline, hlines⟩, rest, by simp, hrest⟩

/-- Trimming takes blanks away on both sides. -/
theorem exists_trim (text : Text) : ∃ before after, text = before ++ trim text ++ after ∧
    (∀ c ∈ before, isWhitespace c) ∧ ∀ c ∈ after, isWhitespace c := by
  let left := text.dropWhile isWhitespace
  refine ⟨text.takeWhile isWhitespace, (left.reverse.takeWhile isWhitespace).reverse, ?_, ?_, ?_⟩
  · have hright : trim text ++ (left.reverse.takeWhile isWhitespace).reverse = left := by
      rw [trim, ← List.reverse_append, List.takeWhile_append_dropWhile, List.reverse_reverse]
    rw [List.append_assoc, hright, List.takeWhile_append_dropWhile]
  · exact fun c => List.mem_takeWhile_imp
  · intro c hc
    exact List.mem_takeWhile_imp (List.mem_reverse.mp hc)

theorem mem_of_mem_trim {c : Char} (h : c ∈ trim text) : c ∈ text := by
  obtain ⟨before, after, heq, _, _⟩ := exists_trim text
  rw [heq]
  simp [h]

/-- Blanks around a text make no difference to what is left of it. -/
theorem trim_between {before inner after : Text} (hbefore : ∀ c ∈ before, isWhitespace c)
    (hafter : ∀ c ∈ after, isWhitespace c) : trim (before ++ inner ++ after) = trim inner := by
  have hright : (after.dropWhile isWhitespace) = [] := List.dropWhile_eq_nil_iff.mpr hafter
  rw [trim, trim, List.append_assoc, List.dropWhile_append_of_pos hbefore, List.dropWhile_append]
  split
  · next hempty =>
    rw [List.isEmpty_iff] at hempty
    rw [hright, hempty]
  · have hreverse : ∀ c ∈ after.reverse, isWhitespace c := fun c hc => hafter c (List.mem_reverse.mp hc)
    rw [List.reverse_append, List.dropWhile_append_of_pos hreverse]

/-- Bytes, each as the character of its value: nothing is lost. -/
def latin1 (bytes : List UInt8) : Text := bytes.map (fun byte => Char.ofNat byte.toNat)

@[simp] theorem latin1_append (a b : List UInt8) : latin1 (a ++ b) = latin1 a ++ latin1 b :=
  List.map_append

theorem toNat_ofNat_byte (byte : UInt8) : (Char.ofNat byte.toNat).toNat = byte.toNat := by
  have hlt := byte.toNat_lt
  rw [Char.ofNat, dif_pos (Or.inl (by omega))]
  rfl

theorem toNat_lt_of_mem_latin1 {bytes : List UInt8} {c : Char} (h : c ∈ latin1 bytes) :
    c.toNat < 256 := by
  obtain ⟨byte, _, rfl⟩ := List.mem_map.mp h
  rw [toNat_ofNat_byte]
  exact byte.toNat_lt

theorem latin1_injective : Function.Injective latin1 := by
  refine List.map_injective_iff.mpr fun a b h => ?_
  have hnat := congrArg Char.toNat h
  rw [toNat_ofNat_byte, toNat_ofNat_byte] at hnat
  exact UInt8.toNat_inj.mp hnat

/-- What is read ends with the first empty line, and the rest of the stream is left alone. -/
theorem readUntilEmptyLine_eq_ok_iff {data data' : Text} {bytes rest : List UInt8} :
    readUntilEmptyLine data bytes = .ok (data', rest) ↔ ∃ read, read ≠ [] ∧ bytes = read ++ rest ∧
      data' = data ++ latin1 read ∧ crlf ++ crlf <:+ data' ∧
      ∀ first, first ≠ [] → first <+: read → crlf ++ crlf <:+ data ++ latin1 first → first = read := by
  induction bytes generalizing data with
  | nil =>
    refine ⟨fun h => (by cases h), fun h => ?_⟩
    obtain ⟨read, hne, hnil, _⟩ := h
    exact absurd (List.append_eq_nil_iff.mp hnil.symm).1 hne
  | cons byte bytes ih =>
    have hnext (first : List UInt8) :
        data ++ latin1 (byte :: first) = data ++ [Char.ofNat byte.toNat] ++ latin1 first := by
      simp [latin1]
    unfold readUntilEmptyLine
    split
    · next hend =>
      rw [List.isSuffixOf_iff_suffix] at hend
      constructor
      · intro h
        cases h
        refine ⟨[byte], by simp, rfl, rfl, hend, fun first hne hprefix _ => ?_⟩
        cases first with
        | nil => exact absurd rfl hne
        | cons b first =>
          obtain ⟨rfl, htail⟩ := List.cons_prefix_cons.mp hprefix
          rw [List.prefix_nil.mp htail]
      · intro h
        obtain ⟨read, hne, hbytes, rfl, _, hshortest⟩ := h
        cases read with
        | nil => exact absurd rfl hne
        | cons b read =>
          obtain ⟨rfl, rfl⟩ := List.cons.inj hbytes
          have hall := hshortest [byte] (by simp) (by simp) hend
          obtain rfl := (List.cons.inj hall).2
          rfl
    · next hgoes =>
      rw [List.isSuffixOf_iff_suffix] at hgoes
      rw [ih]
      constructor
      · intro h
        obtain ⟨read, hne, rfl, rfl, hend, hshortest⟩ := h
        refine ⟨byte :: read, by simp, rfl, (hnext read).symm, hend, fun first hfirst hprefix hsuffix => ?_⟩
        cases first with
        | nil => exact absurd rfl hfirst
        | cons b first =>
          obtain ⟨rfl, htail⟩ := List.cons_prefix_cons.mp hprefix
          rw [hnext] at hsuffix
          rcases eq_or_ne first [] with rfl | hfirst
          · simp only [latin1, List.map_nil, List.append_nil] at hsuffix
            exact absurd hsuffix hgoes
          · rw [hshortest first hfirst htail hsuffix]
      · intro h
        obtain ⟨read, hne, hbytes, rfl, hend, hshortest⟩ := h
        cases read with
        | nil => exact absurd rfl hne
        | cons b read =>
          obtain ⟨rfl, rfl⟩ := List.cons.inj hbytes
          refine ⟨read, ?_, rfl, hnext read, hend, fun first hfirst hprefix hsuffix => ?_⟩
          · intro hnil
            subst hnil
            exact hgoes hend
          · rw [← hnext] at hsuffix
            exact (List.cons.inj (hshortest (byte :: first) (by simp)
              (List.cons_prefix_cons.mpr ⟨rfl, hprefix⟩) hsuffix)).2

end WayPoint.Gateway
