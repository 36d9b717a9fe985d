import WayPoint.Gateway.Splitting

/-! The grammar of the heads that are accepted, and how the text of a head determines the request. -/
namespace WayPoint.Gateway

theorem crlf_suffix_flatMap {lines : List Text} (h : lines ≠ []) : crlf <:+ lines.flatMap (· ++ crlf) := by
  rw [← List.dropLast_append_getLast h, List.flatMap_append, List.flatMap_singleton, ← List.append_assoc]
  exact List.suffix_append _ crlf

/-- A head as the client wrote it, before anything is trimmed. -/
structure Head where
  method : Text
  path : Text
  version : Text
  headers : List (Text × Text)

namespace Head

def requestLine (head : Head) : Text := head.method ++ ' ' :: (head.path ++ ' ' :: head.version)

def headerLine (header : Text × Text) : Text := header.1 ++ ':' :: header.2

def lines (head : Head) : List Text := head.requestLine :: head.headers.map headerLine

/-- The lines, each with the end it had on the wire. -/
def text (head : Head) : Text := head.lines.flatMap (· ++ crlf)

/-- The fields are where the first spaces, the first colons and the line ends are. -/
structure WellFormed (head : Head) : Prop where
  method : ' ' ∉ head.method
  path : ' ' ∉ head.path
  names : ∀ header ∈ head.headers, ':' ∉ header.1
  lines : ∀ line ∈ head.lines, ¬ crlf <:+: line

def request (head : Head) : Request where
  method := head.method
  path := head.path
  version := head.version
  headers := head.headers.map (fun header => (trim header.1, trim header.2))

private theorem headerLine_ne_nil (header : Text × Text) : headerLine header ≠ [] := by
  simp [headerLine]

private theorem nil_notMem_lines (head : Head) : [] ∉ head.lines := by
  simp [lines, requestLine, headerLine]

/-- What holds of every character of a head holds in all its fields. -/
theorem forall_mem_text {P : Char → Prop} {head : Head} (h : ∀ c ∈ head.text, P c) :
    (∀ c ∈ head.method, P c) ∧ (∀ c ∈ head.path, P c) ∧ (∀ c ∈ head.version, P c) ∧
      ∀ header ∈ head.headers, (∀ c ∈ header.1, P c) ∧ ∀ c ∈ header.2, P c := by
  have hline {line : Text} (hl : line ∈ head.lines) : ∀ c ∈ line, P c := fun c hc =>
    h c (List.mem_flatMap.mpr ⟨line, hl, List.mem_append_left _ hc⟩)
  have hrequest : ∀ c ∈ head.requestLine, P c := hline List.mem_cons_self
  refine ⟨fun c hc => hrequest c ?_, fun c hc => hrequest c ?_, fun c hc => hrequest c ?_,
    fun header hheader => ?_⟩
  · simp [requestLine, hc]
  · simp [requestLine, hc]
  · simp [requestLine, hc]
  · have hall := hline (List.mem_cons_of_mem _ (List.mem_map_of_mem hheader))
    exact ⟨fun c hc => hall c (by simp [headerLine, hc]), fun c hc => hall c (by simp [headerLine, hc])⟩

private theorem crlf_suffix_text (head : Head) : crlf <:+ head.text :=
  crlf_suffix_flatMap (by simp [lines])

end Head

theorem parseRequestLine_eq_ok_iff {line method path version : Text} :
    parseRequestLine line = .ok (method, path, version) ↔
      line = method ++ ' ' :: (path ++ ' ' :: version) ∧ ' ' ∉ method ∧ ' ' ∉ path := by
  simp only [parseRequestLine, splitn]
  constructor
  · intro h
    cases hfirst : splitOnce ' ' line with
    | none =>
      rw [hfirst] at h
      cases h
    | some parts =>
      obtain ⟨part, rest⟩ := parts
      cases hsecond : splitOnce ' ' rest with
      | none =>
        simp only [hfirst, hsecond] at h
        cases h
      | some parts =>
        simp only [hfirst, hsecond] at h
        cases h
        obtain ⟨rfl, hmethod⟩ := splitOnce_eq_some hfirst
        obtain ⟨rfl, hpath⟩ := splitOnce_eq_some hsecond
        exact ⟨rfl, hmethod, hpath⟩
  · intro h
    obtain ⟨rfl, hmethod, hpath⟩ := h
    simp only [splitOnce_append hmethod, splitOnce_append hpath]

theorem parseHeaderLine_eq_ok_iff {line : Text} {parsed : Text × Text} :
    parseHeaderLine line = .ok parsed ↔ ∃ header, ':' ∉ header.1 ∧ line = Head.headerLine header ∧
      parsed = (trim header.1, trim header.2) := by
  unfold parseHeaderLine
  constructor
  · intro h
    cases hsplit : splitOnce ':' line with
    | none =>
      rw [hsplit] at h
      cases h
    | some header =>
      rw [hsplit] at h
      cases h
      obtain ⟨hline, hname⟩ := splitOnce_eq_some hsplit
      exact ⟨header, hname, hline, rfl⟩
  · intro h
    obtain ⟨header, hname, rfl, rfl⟩ := h
    rw [Head.headerLine, splitOnce_append hname]

theorem parseHeaders_eq_ok_iff {lines : List Text} {parsed : List (Text × Text)} :
    parseHeaders lines = .ok parsed ↔ ∃ (headers : List (Text × Text)) (after : List Text),
      (∀ header ∈ headers, ':' ∉ header.1) ∧ lines = headers.map Head.headerLine ++ [] :: after ∧
      parsed = headers.map (fun header => (trim header.1, trim header.2)) := by
  induction lines generalizing parsed with
  | nil => simp [parseHeaders]
  | cons line lines ih =>
    unfold parseHeaders
    split
    · next hempty =>
      rw [List.isEmpty_iff] at hempty
      subst hempty
      constructor
      · intro h
        cases h
        exact ⟨[], lines, by simp, rfl, rfl⟩
      · intro h
        obtain ⟨headers, after, _, hlines, rfl⟩ := h
        cases headers with
        | nil => rfl
        | cons header headers => exact absurd (List.cons.inj hlines).1.symm (Head.headerLine_ne_nil header)
    · next hline =>
      constructor
      · intro h
        cases hfirst : parseHeaderLine line with
        | error e =>
          rw [hfirst] at h
          cases h
        | ok first =>
          cases hothers : parseHeaders lines with
          | error e =>
            rw [hfirst, hothers] at h
            cases h
          | ok others =>
            rw [hfirst, hothers] at h
            cases h
            obtain ⟨header, hname, rfl, rfl⟩ := parseHeaderLine_eq_ok_iff.mp hfirst
            obtain ⟨headers, after, hnames, rfl, rfl⟩ := ih.mp hothers
            exact ⟨header :: headers, after, List.forall_mem_cons.mpr ⟨hname, hnames⟩, rfl, rfl⟩
      · intro h
        obtain ⟨headers, after, hnames, hlines, rfl⟩ := h
        cases headers with
        | nil =>
          cases hlines
          exact absurd rfl hline
        | cons header headers =>
          obtain ⟨rfl, rfl⟩ := List.cons.inj hlines
          rw [List.forall_mem_cons] at hnames
          rw [parseHeaderLine_eq_ok_iff.mpr ⟨header, hnames.1, rfl, rfl⟩,
            ih.mpr ⟨headers, after, hnames.2, rfl, rfl⟩]
          rfl

/-- What is accepted is exactly the text of a well-formed head up to its empty line, and what is
parsed are the fields of that head. -/
theorem Request.new_eq_ok_iff {data : Text} {request : Request} :
    Request.new data = .ok request ↔ ∃ head rest, Head.WellFormed head ∧ data = head.text ++ rest ∧
      (rest = [] ∨ crlf <+: rest) ∧ request = head.request := by
  unfold Request.new
  constructor
  · intro h
    cases hsplit : splitCrlf data with
    | nil => exact absurd hsplit (splitCrlf_ne_nil data)
    | cons headerLine lines =>
      rcases hline : parseRequestLine headerLine with e | ⟨method, path, version⟩
      · simp only [hsplit, hline] at h
        cases h
      · rcases hheaders : parseHeaders lines with e | parsed
        · simp only [hsplit, hline, hheaders] at h
          cases h
        · simp only [hsplit, hline, hheaders] at h
          cases h
          obtain ⟨rfl, hmethod, hpath⟩ := parseRequestLine_eq_ok_iff.mp hline
          obtain ⟨headers, after, hnames, rfl, rfl⟩ := parseHeaders_eq_ok_iff.mp hheaders
          have hempty : splitCrlf data = Head.lines ⟨method, path, version, headers⟩ ++ [] :: after :=
            hsplit
          obtain ⟨hlines, rest, rfl, hrest⟩ := splitCrlf_empty_line hempty
          exact ⟨⟨method, path, version, headers⟩, rest, ⟨hmethod, hpath, hnames, hlines⟩, rfl,
            hrest, rfl⟩
  · intro h
    obtain ⟨head, rest, hwell, rfl, hrest, rfl⟩ := h
    obtain ⟨after, hafter⟩ : ∃ after, splitCrlf rest = [] :: after := by
      rcases hrest with rfl | ⟨later, rfl⟩
      · exact ⟨[], rfl⟩
      · exact ⟨splitCrlf later, rfl⟩
    have hsplit : splitCrlf (head.text ++ rest) =
        head.requestLine :: (head.headers.map Head.headerLine ++ [] :: after) := by
      rw [Head.text, splitCrlf_lines hwell.lines, hafter]
      rfl
    have hline : parseRequestLine head.requestLine = .ok (head.method, head.path, head.version) :=
      parseRequestLine_eq_ok_iff.mpr ⟨rfl, hwell.method, hwell.path⟩
    have hheaders : parseHeaders (head.headers.map Head.headerLine ++ [] :: after) =
        .ok head.request.headers := parseHeaders_eq_ok_iff.mpr ⟨_, _, hwell.names, rfl, rfl⟩
    rw [hsplit]
    simp only [hline, hheaders]
    rfl

/-- The first empty line of a head is the one at its end. -/
theorem Head.WellFormed.nil_of_empty_line {head : Head} (hwell : head.WellFormed) {before after : Text}
    (h : head.text ++ crlf = before ++ (crlf ++ crlf) ++ after) : after = [] := by
  have hhead : splitCrlf (head.text ++ crlf) = head.lines ++ [[], []] := splitCrlf_lines hwell.lines crlf
  have hsplit : head.lines ++ [[], []] = splitCrlf before ++ [] :: splitCrlf after := by
    rw [← hhead, h, ← List.append_assoc before, List.append_assoc (before ++ crlf), splitCrlf_append_crlf]
    rfl
  rcases List.append_eq_append_iff.mp hsplit with ⟨later, _, hlater⟩ | ⟨earlier, hlines, hearlier⟩
  · -- the parts after `before` cannot begin beyond the last line of the head
    cases later with
    | nil => exact eq_nil_of_splitCrlf (List.cons.inj hlater).2.symm
    | cons part later =>
      have hlength := congrArg List.length hlater
      have hpositive := List.length_pos_of_ne_nil (splitCrlf_ne_nil after)
      simp only [List.length_cons, List.length_append, List.length_nil] at hlength
      omega
  · cases earlier with
    | nil => exact eq_nil_of_splitCrlf (List.cons.inj hearlier).2
    | cons part earlier =>
      obtain ⟨rfl, _⟩ := List.cons.inj hearlier
      exact absurd (hlines ▸ List.mem_append_right _ List.mem_cons_self) head.nil_notMem_lines

/-- Every stream that begins with a well-formed head and its empty line is accepted. -/
theorem Head.WellFormed.accepted {head : Head} (hwell : head.WellFormed) {bytes rest : List UInt8}
    (h : latin1 bytes = head.text ++ crlf ++ latin1 rest) :
    readUntilEmptyLine [] bytes = .ok (head.text ++ crlf, rest) ∧
      Request.new (head.text ++ crlf) = .ok head.request := by
  obtain ⟨read, rest', rfl, hread, hrest⟩ := List.map_eq_append_iff.mp h
  obtain rfl := latin1_injective hrest
  have hlatin : latin1 read = head.text ++ crlf := hread
  refine ⟨readUntilEmptyLine_eq_ok_iff.mpr ⟨read, ?_, rfl, hlatin.symm, ?_, ?_⟩,
    Request.new_eq_ok_iff.mpr ⟨head, crlf, hwell, rfl, Or.inr (List.prefix_refl crlf), rfl⟩⟩
  · intro hnil
    simp [hnil, latin1, crlf] at hlatin
  · obtain ⟨before, hbefore⟩ := head.crlf_suffix_text
    exact ⟨before, by rw [← hbefore, List.append_assoc]⟩
  · intro first _ hprefix hsuffix
    obtain ⟨after, rfl⟩ := hprefix
    obtain ⟨before, hbefore⟩ := hsuffix
    rw [List.nil_append] at hbefore
    rw [latin1_append, ← hbefore] at hlatin
    have hafter : latin1 after = [] := hwell.nil_of_empty_line hlatin.symm
    rw [List.map_eq_nil_iff.mp hafter, List.append_nil]

/-- An accepted stream is a well-formed head, its empty line, and what is left unread. -/
theorem exists_head {bytes rest : List UInt8} {data : Text} {request : Request}
    (hread : readUntilEmptyLine [] bytes = .ok (data, rest)) (hnew : Request.new data = .ok request) :
    ∃ (read : List UInt8) (head : Head), bytes = read ++ rest ∧ data = latin1 read ∧ head.WellFormed ∧
      data = head.text ++ crlf ∧ request = head.request := by
  obtain ⟨read, _, rfl, rfl, hend, _⟩ := readUntilEmptyLine_eq_ok_iff.mp hread
  obtain ⟨head, left, hwell, hdata, hleft, rfl⟩ := Request.new_eq_ok_iff.mp hnew
  simp only [List.nil_append] at hread hdata hend
  refine ⟨read, head, rfl, rfl, hwell, ?_, rfl⟩
  rcases hleft with rfl | ⟨after, rfl⟩
  · -- two line ends in a row would leave an empty line among those of the head
    obtain ⟨before, hbefore⟩ := hend
    have hsplit : splitCrlf (head.text ++ []) = head.lines ++ [[]] :=
      splitCrlf_lines hwell.lines []
    rw [← hdata, ← hbefore, ← List.append_assoc, splitCrlf_append_crlf] at hsplit
    have hempty : splitCrlf before ++ [[]] ++ [[]] = head.lines ++ [[]] := by
      rw [List.append_assoc]
      exact hsplit
    exact absurd (List.append_cancel_right hempty ▸ List.mem_append_right _ (List.mem_singleton.mpr rfl))
      head.nil_notMem_lines
  · -- what was read ends with the empty line of the head, because that is read no further
    rw [← List.append_assoc] at hdata
    obtain ⟨first, later, rfl, hfirst, hlater⟩ := List.map_eq_append_iff.mp hdata
    have hbytes : latin1 (first ++ later ++ rest) = head.text ++ crlf ++ latin1 (later ++ rest) := by
      rw [List.append_assoc, latin1_append]
      exact congrArg (· ++ latin1 (later ++ rest)) hfirst
    have hshort := hread.symm.trans (hwell.accepted hbytes).1
    exact (Prod.mk.inj (Except.ok.inj hshort)).1

end WayPoint.Gateway
