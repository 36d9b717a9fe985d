import WayPoint.Gateway.HeadGrammar

/-! Writing a parsed head and parsing it again. The blank after the colon is the only thing the
writer adds to a header, and trimming takes it away. -/
namespace WayPoint.Gateway

variable {a b text data : Text} {request : Request}

/-- A CRLF does not reach across another character. -/
theorem crlf_infix_append_cons_iff {c : Char} (hcr : c ≠ '\r') (hlf : c ≠ '\n') :
    crlf <:+: a ++ c :: b ↔ crlf <:+: a ∨ crlf <:+: b := by
  induction a with
  | nil =>
    rw [List.nil_append, crlf_infix_cons_iff]
    simp [hcr, crlf]
  | cons d a ih =>
    rw [List.cons_append, crlf_infix_cons_iff, crlf_infix_cons_iff, ih, or_assoc]
    refine or_congr_left (and_congr_right fun _ => ?_)
    cases a with
    | nil => simp [hlf]
    | cons e a => rfl

theorem trim_isSegment (text : Text) : trim text <:+: text := by
  obtain ⟨before, after, heq, _, _⟩ := exists_trim text
  exact ⟨before, after, heq.symm⟩

@[simp] theorem trim_trim (text : Text) : trim (trim text) = trim text := by
  obtain ⟨before, after, heq, hbefore, hafter⟩ := exists_trim text
  calc
    trim (trim text) = trim (before ++ trim text ++ after) := (trim_between hbefore hafter).symm
    _ = trim text := congrArg trim heq.symm

theorem trim_space_cons (text : Text) : trim (' ' :: text) = trim text := by
  have hspace : ∀ c ∈ [' '], isWhitespace c := List.forall_mem_singleton.mpr (by decide)
  have htrim : trim ([' '] ++ text ++ []) = trim text := trim_between hspace (by simp)
  simpa using htrim

/-- The head that is written for a request. -/
def Request.head (request : Request) : Head where
  method := request.method
  path := request.path
  version := request.version
  headers := request.headers.map (fun header => (header.1, ' ' :: header.2))

theorem Request.pieces_flatten (request : Request) :
    request.pieces.flatten = request.head.text ++ crlf := by
  have hheaders (headers : List (Text × Text)) :
      (headers.flatMap (fun header => [header.1, [':', ' '], header.2, crlf])).flatten =
        ((headers.map (fun header => (header.1, ' ' :: header.2))).map Head.headerLine).flatMap
          (· ++ crlf) := by
    induction headers with
    | nil => rfl
    | cons header headers ih =>
      rw [List.flatMap_cons, List.flatten_append, ih]
      simp [Head.headerLine]
  rw [Request.pieces, List.flatten_append, List.flatten_append, hheaders]
  simp [Head.text, Head.lines, Head.requestLine, Request.head]

/-- The fields of an accepted head are separated by the writer as they were by the client. -/
theorem Head.WellFormed.rewritten {head : Head} (hwell : head.WellFormed) :
    head.request.head.WellFormed where
  method := hwell.method
  path := hwell.path
  names := by
    intro header hheader
    obtain ⟨trimmed, htrimmed, rfl⟩ := List.mem_map.mp hheader
    obtain ⟨received, hreceived, rfl⟩ := List.mem_map.mp htrimmed
    exact fun hcolon => hwell.names received hreceived (mem_of_mem_trim hcolon)
  lines := by
    intro line hline hcrlf
    rcases List.mem_cons.mp hline with rfl | hline
    · exact hwell.lines _ List.mem_cons_self hcrlf
    · obtain ⟨written, hwritten, rfl⟩ := List.mem_map.mp hline
      obtain ⟨trimmed, htrimmed, rfl⟩ := List.mem_map.mp hwritten
      obtain ⟨received, hreceived, rfl⟩ := List.mem_map.mp htrimmed
      have hreceived := hwell.lines _ (List.mem_cons_of_mem _ (List.mem_map_of_mem hreceived))
      rw [Head.headerLine, crlf_infix_append_cons_iff (by decide) (by decide), not_or] at hreceived
      rw [Head.headerLine, crlf_infix_append_cons_iff (by decide) (by decide)] at hcrlf
      rcases hcrlf with hname | hvalue
      · exact hreceived.1 (hname.trans (trim_isSegment _))
      · rw [crlf_infix_cons_iff] at hvalue
        rcases hvalue with ⟨hspace, _⟩ | hvalue
        · exact absurd hspace (by decide)
        · exact hreceived.2 (hvalue.trans (trim_isSegment _))

theorem Head.request_rewritten (head : Head) : head.request.head.request = head.request := by
  simp [Head.request, Request.head, trim_space_cons]

/-- What is written for a parsed request parses to the same request. -/
theorem Request.new_pieces (h : Request.new data = .ok request) :
    Request.new request.pieces.flatten = .ok request := by
  obtain ⟨head, rest, hwell, _, _, rfl⟩ := Request.new_eq_ok_iff.mp h
  rw [Request.pieces_flatten]
  exact Request.new_eq_ok_iff.mpr ⟨head.request.head, crlf, hwell.rewritten, rfl,
    Or.inr (List.prefix_refl crlf), head.request_rewritten.symm⟩

/-- Empty names and values, a second colon, a lone CR and a Unicode blank. -/
theorem Request.new_pieces_oddHeaders :
    Request.new (Request.mk ['G'] [] [] [([], ['b', ':', 'c']), (['a', '\r', 'd'], [])]).pieces.flatten =
      .ok ⟨['G'], [], [], [([], ['b', ':', 'c']), (['a', '\r', 'd'], [])]⟩ := by
  have hnew : Request.new "G  \r\n:b:c \r\n\u00a0a\rd:\r\n\r\n".toList =
      .ok ⟨['G'], [], [], [([], ['b', ':', 'c']), (['a', '\r', 'd'], [])]⟩ := by decide +kernel
  exact Request.new_pieces hnew

end WayPoint.Gateway
