import Mathlib.Data.List.Forall2
import WayPoint.Gateway.HeadGrammar

/-! Where a head ends. The reader looks for an empty line at the end of what it has read, the parser
for the first empty line after the request line, and both find the same one. -/
namespace WayPoint.Gateway

variable {line text data : Text} {lines : List Text} {bytes read rest : List UInt8}

/-- An empty line and the end of the line before it. -/
def emptyLine : List UInt8 := [13, 10, 13, 10]

private theorem latin1_emptyLine : latin1 emptyLine = crlf ++ crlf := by decide

private theorem latin1_suffix_iff : crlf ++ crlf <:+ latin1 read ↔ emptyLine <:+ read := by
  constructor
  · intro h
    obtain ⟨before, hbefore⟩ := h
    obtain ⟨first, last, rfl, _, hlast⟩ := List.map_eq_append_iff.mp hbefore.symm
    obtain rfl := latin1_injective (hlast.trans latin1_emptyLine.symm)
    exact List.suffix_append first emptyLine
  · intro h
    obtain ⟨before, rfl⟩ := h
    rw [latin1_append, latin1_emptyLine]
    exact List.suffix_append (latin1 before) _

/-- The reader stops at the latest where an empty line ends. -/
private theorem exists_readUntilEmptyLine (hne : read ≠ []) (h : crlf ++ crlf <:+ data ++ latin1 read) :
    ∃ result, readUntilEmptyLine data (read ++ rest) = .ok result := by
  induction read generalizing data with
  | nil => exact absurd rfl hne
  | cons byte read ih =>
    rw [List.cons_append, readUntilEmptyLine]
    split
    · exact ⟨_, rfl⟩
    · next hgoes =>
      rw [List.isSuffixOf_iff_suffix] at hgoes
      refine ih ?_ ?_
      · intro hnil
        subst hnil
        exact hgoes h
      · rw [List.append_assoc]
        exact h

theorem readUntilEmptyLine_ok_iff :
    (∃ result, readUntilEmptyLine [] bytes = .ok result) ↔ emptyLine <:+: bytes := by
  constructor
  · intro h
    obtain ⟨⟨data, rest⟩, h⟩ := h
    obtain ⟨read, _, rfl, rfl, hend, _⟩ := readUntilEmptyLine_eq_ok_iff.mp h
    exact (latin1_suffix_iff.mp hend).isInfix.trans (List.prefix_append read rest).isInfix
  · intro h
    obtain ⟨before, after, rfl⟩ := h
    refine exists_readUntilEmptyLine ?_ (latin1_suffix_iff.mpr (List.suffix_append before emptyLine))
    simp [emptyLine]

private theorem flatMap_splitCrlf (text : Text) : (splitCrlf text).flatMap (· ++ crlf) = text ++ crlf := by
  fun_induction splitCrlf text with
  | case1 => rfl
  | case2 rest ih =>
    rw [List.flatMap_cons, ih]
    rfl
  | case3 c rest hc hnil => exact absurd hnil (splitCrlf_ne_nil rest)
  | case4 c rest hc first others hrest ih =>
    rw [hrest, List.flatMap_cons] at ih
    rw [List.flatMap_cons, List.cons_append, List.cons_append, ih]
    rfl

private theorem not_crlf_infix_of_mem_splitCrlf (h : line ∈ splitCrlf text) : ¬ crlf <:+: line := by
  induction hlines : splitCrlf text generalizing text with
  | nil => exact absurd hlines (splitCrlf_ne_nil text)
  | cons first others ih =>
    obtain ⟨hfirst, hothers⟩ := splitCrlf_eq_cons hlines
    rw [hlines] at h
    rcases List.mem_cons.mp h with rfl | h
    · exact hfirst
    · rcases hothers with ⟨_, rfl⟩ | ⟨later, _, rfl⟩
      · exact absurd h List.not_mem_nil
      · exact ih h rfl

/-- A data that ends with an empty line, cut into its lines; there is no other empty line in it when
no shorter prefix ends so. -/
private theorem exists_lines (hend : crlf ++ crlf <:+ data)
    (hshortest : ∀ first, first <+: data → crlf ++ crlf <:+ first → first = data) :
    ∃ first lines, data = (first :: lines).flatMap (· ++ crlf) ++ crlf ∧
      (∀ line ∈ first :: lines, ¬ crlf <:+: line) ∧ [] ∉ lines := by
  obtain ⟨before, rfl⟩ := hend
  obtain ⟨first, lines, hsplit⟩ := List.exists_cons_of_ne_nil (splitCrlf_ne_nil before)
  have hdata : before ++ (crlf ++ crlf) = (first :: lines).flatMap (· ++ crlf) ++ crlf := by
    rw [← hsplit, flatMap_splitCrlf, List.append_assoc]
  refine ⟨first, lines, hdata, fun line hline => ?_, fun hnil => ?_⟩
  · exact not_crlf_infix_of_mem_splitCrlf (hsplit ▸ hline)
  · -- the lines before an empty one already end with an empty line
    obtain ⟨earlier, later, rfl⟩ := List.append_of_mem hnil
    obtain ⟨start, hstart⟩ := crlf_suffix_flatMap (List.cons_ne_nil first earlier)
    have hparts : before ++ (crlf ++ crlf) = (first :: earlier).flatMap (· ++ crlf) ++ crlf ++
        (later.flatMap (· ++ crlf) ++ crlf) := by
      rw [hdata]
      simp
    have hall := hshortest ((first :: earlier).flatMap (· ++ crlf) ++ crlf)
      (hparts ▸ List.prefix_append _ _) ⟨start, by rw [← hstart, List.append_assoc]⟩
    rw [← hall] at hparts
    simp [crlf] at hparts

theorem parseRequestLine_ok_iff :
    (∃ parsed, parseRequestLine line = .ok parsed) ↔ 2 ≤ line.count ' ' := by
  constructor
  · intro h
    obtain ⟨⟨method, path, version⟩, h⟩ := h
    obtain ⟨rfl, _, _⟩ := parseRequestLine_eq_ok_iff.mp h
    simp only [List.count_append, List.count_cons_self]
    omega
  · intro h
    obtain ⟨method, rest, rfl, hmethod⟩ :=
      List.eq_append_cons_of_mem (List.count_pos_iff.mp (by omega : 0 < line.count ' '))
    rw [List.count_append, List.count_cons_self, List.count_eq_zero_of_not_mem hmethod] at h
    obtain ⟨path, version, rfl, hpath⟩ :=
      List.eq_append_cons_of_mem (List.count_pos_iff.mp (by omega : 0 < rest.count ' '))
    exact ⟨_, parseRequestLine_eq_ok_iff.mpr ⟨rfl, hmethod, hpath⟩⟩

theorem parseHeaderLine_ok_iff : (∃ header, parseHeaderLine line = .ok header) ↔ ':' ∈ line := by
  constructor
  · intro h
    obtain ⟨header, h⟩ := h
    obtain ⟨parts, _, rfl, _⟩ := parseHeaderLine_eq_ok_iff.mp h
    simp [Head.headerLine]
  · intro h
    obtain ⟨name, value, rfl, hname⟩ := List.eq_append_cons_of_mem h
    exact ⟨_, parseHeaderLine_eq_ok_iff.mpr ⟨(name, value), hname, rfl, rfl⟩⟩

/-- The header lines are parsed one by one, up to the empty one. -/
theorem parseHeaders_lines_iff (h : [] ∉ lines) {after : List Text} {headers : List (Text × Text)} :
    parseHeaders (lines ++ [] :: after) = .ok headers ↔
      List.Forall₂ (fun line header => parseHeaderLine line = .ok header) lines headers := by
  induction lines generalizing headers with
  | nil =>
    rw [List.forall₂_nil_left_iff]
    exact ⟨fun h => (Except.ok.inj h).symm, fun h => h ▸ rfl⟩
  | cons line lines ih =>
    rw [List.mem_cons, not_or] at h
    rw [List.cons_append, parseHeaders, if_neg (fun hnil => h.1 (List.isEmpty_iff.mp hnil).symm),
      List.forall₂_cons_left_iff]
    constructor
    · intro hparsed
      cases hline : parseHeaderLine line with
      | error e =>
        rw [hline] at hparsed
        cases hparsed
      | ok header =>
        cases hlines : parseHeaders (lines ++ [] :: after) with
        | error e =>
          rw [hline, hlines] at hparsed
          cases hparsed
        | ok others =>
          rw [hline, hlines] at hparsed
          cases hparsed
          exact ⟨header, others, rfl, (ih h.2).mp hlines, rfl⟩
    · intro hparsed
      obtain ⟨header, others, hline, hlines, rfl⟩ := hparsed
      rw [hline, (ih h.2).mpr hlines]
      rfl

private theorem parseHeaders_lines_ok_iff (h : [] ∉ lines) {after : List Text} :
    (∃ headers, parseHeaders (lines ++ [] :: after) = .ok headers) ↔ ∀ line ∈ lines, ':' ∈ line := by
  simp only [parseHeaders_lines_iff h]
  clear h
  induction lines with
  | nil => simp
  | cons line lines ih =>
    rw [List.forall_mem_cons, ← ih, ← parseHeaderLine_ok_iff]
    simp only [List.forall₂_cons_left_iff]
    constructor
    · intro h
      obtain ⟨_, header, others, hline, hlines, rfl⟩ := h
      exact ⟨⟨header, hline⟩, others, hlines⟩
    · intro h
      obtain ⟨⟨header, hline⟩, others, hlines⟩ := h
      exact ⟨header :: others, header, others, hline, hlines, rfl⟩

private theorem parseHeaderLine_error {e : Error} (h : parseHeaderLine line = .error e) :
    e = .parseError "Malformed header line" := by
  unfold parseHeaderLine at h
  split at h
  · exact (Except.error.inj h).symm
  · cases h

/-- Only a list of lines without an empty one is reported to miss it. -/
private theorem nil_notMem_of_missing (h : parseHeaders lines = .error (.parseError "Missing empty line")) :
    [] ∉ lines := by
  induction lines with
  | nil => exact List.not_mem_nil
  | cons line lines ih =>
    unfold parseHeaders at h
    split at h
    · cases h
    · next hline =>
      cases hparsed : parseHeaderLine line with
      | error e =>
        rw [hparsed] at h
        obtain rfl : e = .parseError "Missing empty line" := Except.error.inj h
        exact absurd (parseHeaderLine_error hparsed) (by decide)
      | ok header =>
        cases hothers : parseHeaders lines with
        | error e =>
          rw [hparsed, hothers] at h
          cases h
          rw [List.mem_cons, not_or]
          exact ⟨fun hnil => hline (List.isEmpty_iff.mpr hnil.symm), ih hothers⟩
        | ok others =>
          rw [hparsed, hothers] at h
          cases h

/-- What is read is the shortest part of the stream that ends with an empty line. -/
private theorem exists_read (h : readUntilEmptyLine [] bytes = .ok (data, rest)) : ∃ read, bytes = read ++ rest ∧
    data = latin1 read ∧ emptyLine <:+ read ∧
    ∀ first, first <+: bytes → emptyLine <:+ first → read <+: first := by
  obtain ⟨read, _, rfl, rfl, hend, hshortest⟩ := readUntilEmptyLine_eq_ok_iff.mp h
  refine ⟨read, rfl, rfl, latin1_suffix_iff.mp hend, fun first hfirst hsuffix => ?_⟩
  rcases List.prefix_or_prefix_of_prefix hfirst (List.prefix_append read rest) with hle | hle
  · have hne : first ≠ [] := by
      intro hnil
      subst hnil
      simp [emptyLine] at hsuffix
    rw [hshortest first hne hle (latin1_suffix_iff.mpr hsuffix)]
  · exact hle

section parts
variable {first : Text} (hnil : [] ∉ lines)
  (hsplit : splitCrlf data = first :: (lines ++ [[], []]))
include hnil hsplit

theorem Request.new_ok_iff : (∃ request, Request.new data = .ok request) ↔
    2 ≤ first.count ' ' ∧ ∀ line ∈ lines, ':' ∈ line := by
  have hheaders : (∃ headers, parseHeaders (lines ++ [[], []]) = .ok headers) ↔ ∀ line ∈ lines, ':' ∈ line :=
    parseHeaders_lines_ok_iff hnil
  rw [← parseRequestLine_ok_iff, ← hheaders]
  simp only [Request.new, hsplit]
  cases parseRequestLine first with
  | error e => simp [bind, Except.bind]
  | ok parsed =>
    cases parseHeaders (lines ++ [[], []]) with
    | error e => simp [bind, Except.bind]
    | ok headers => simp [bind, Except.bind, pure, Except.pure]

theorem Request.headers_of_new {request : Request} (h : Request.new data = .ok request) :
    List.Forall₂ (fun line header => parseHeaderLine line = .ok header) lines request.headers := by
  simp only [Request.new, hsplit] at h
  cases hline : parseRequestLine first with
  | error e =>
    rw [hline] at h
    cases h
  | ok parsed =>
    cases hheaders : parseHeaders (lines ++ [[], []]) with
    | error e =>
      rw [hline, hheaders] at h
      cases h
    | ok headers =>
      rw [hline, hheaders] at h
      cases h
      exact (parseHeaders_lines_iff hnil).mp hheaders

end parts

private theorem ne_missing_of_parseRequestLine {e : Error} (h : parseRequestLine line = .error e) :
    e ≠ .parseError "Missing empty line" := by
  unfold parseRequestLine at h
  split at h
  · cases h
    decide
  · cases h
    decide
  · cases h
    decide
  · cases h

theorem Request.new_ne_missing (h : [] ∈ (splitCrlf data).tail) :
    Request.new data ≠ .error (.parseError "Missing empty line") := by
  intro hnew
  cases hsplit : splitCrlf data with
  | nil => exact absurd hsplit (splitCrlf_ne_nil data)
  | cons first lines =>
    rw [hsplit] at h
    simp only [Request.new, hsplit] at hnew
    cases hline : parseRequestLine first with
    | error e =>
      rw [hline] at hnew
      cases hnew
      exact ne_missing_of_parseRequestLine hline rfl
    | ok parsed =>
      cases hlines : parseHeaders lines with
      | error e =>
        rw [hline, hlines] at hnew
        cases hnew
        exact nil_notMem_of_missing hlines h
      | ok headers =>
        rw [hline, hlines] at hnew
        cases hnew

/-- The reader takes the shortest part of the stream that ends with an empty line, and the parser
reads all of its lines. -/
theorem exact_framing (bytes : List UInt8) :
    ((∃ result, readUntilEmptyLine [] bytes = .ok result) ↔ emptyLine <:+: bytes) ∧
    ∀ data rest, readUntilEmptyLine [] bytes = .ok (data, rest) →
      ∃ (read : List UInt8) (first : Text) (lines : List Text),
        (bytes = read ++ rest ∧ data = latin1 read ∧ emptyLine <:+ read ∧
          ∀ first, first <+: bytes → emptyLine <:+ first → read <+: first) ∧
        (data = (first :: lines).flatMap (· ++ crlf) ++ crlf ∧
          (∀ line ∈ first :: lines, ¬ crlf <:+: line) ∧ [] ∉ lines) ∧
        ((∃ request, Request.new data = .ok request) ↔
          2 ≤ first.count ' ' ∧ ∀ line ∈ lines, ':' ∈ line) ∧
        (∀ request, Request.new data = .ok request →
          List.Forall₂ (fun line header => ∃ name value, line = name ++ ':' :: value ∧ ':' ∉ name ∧
            header = (trim name, trim value)) lines request.headers) ∧
        Request.new data ≠ .error (.parseError "Missing empty line") := by
  refine ⟨readUntilEmptyLine_ok_iff, fun data rest hread => ?_⟩
  obtain ⟨read, hbytes, hdata, hend, hshortest⟩ := exists_read hread
  obtain ⟨first, lines, hlines, hcrlf, hnil⟩ : ∃ first lines,
      data = (first :: lines).flatMap (· ++ crlf) ++ crlf ∧
        (∀ line ∈ first :: lines, ¬ crlf <:+: line) ∧ [] ∉ lines := by
    subst hdata
    refine exists_lines (latin1_suffix_iff.mpr hend) fun first hfirst hsuffix => ?_
    obtain ⟨before, hbefore⟩ := hfirst
    obtain ⟨start, later, rfl, rfl, _⟩ := List.map_eq_append_iff.mp hbefore.symm
    have hprefix : start <+: bytes := ⟨later ++ rest, by rw [hbytes, List.append_assoc]⟩
    have hle := hshortest start hprefix (latin1_suffix_iff.mp hsuffix)
    rw [hle.eq_of_length_le (by simp)]
    rfl
  have hsplit : splitCrlf data = first :: (lines ++ [[], []]) := by
    rw [hlines, splitCrlf_lines hcrlf]
    rfl
  refine ⟨read, first, lines, ⟨hbytes, hdata, hend, hshortest⟩, ⟨hlines, hcrlf, hnil⟩,
    Request.new_ok_iff hnil hsplit, fun request hnew => ?_, Request.new_ne_missing ?_⟩
  · refine (Request.headers_of_new hnil hsplit hnew).imp fun line header hheader => ?_
    obtain ⟨parts, hname, rfl, rfl⟩ := parseHeaderLine_eq_ok_iff.mp hheader
    exact ⟨parts.1, parts.2, rfl, hname, rfl⟩
  · rw [hsplit]
    simp

/-- A leading CRLF is the request line, an empty one. -/
theorem exact_framing_leadingCrlf : ∃ first lines,
    "\r\na:b\r\n\r\n".toList = (first :: lines).flatMap (· ++ crlf) ++ crlf ∧ [] ∉ lines ∧
      ((∃ request, Request.new "\r\na:b\r\n\r\n".toList = .ok request) ↔
        2 ≤ first.count ' ' ∧ ∀ line ∈ lines, ':' ∈ line) := by
  obtain ⟨_, first, lines, _, ⟨hdata, _, hnil⟩, hnew, _⟩ :=
    (exact_framing [13, 10, 97, 58, 98, 13, 10, 13, 10]).2 "\r\na:b\r\n\r\n".toList [] (by decide +kernel)
  exact ⟨first, lines, hdata, hnil, hnew⟩

end WayPoint.Gateway
