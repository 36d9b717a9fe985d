import WayPoint.Foundations.Utf8
import WayPoint.Gateway.ForwardedBytes
import WayPoint.Gateway.ProxyConfig

/-! Line ends inside a field. The gateway splits lines at CRLF only; an upstream that ends them at a
bare LF may see lines in a request that the gateway took for a part of a value. -/
namespace WayPoint.Gateway
open Foundations

def lineEnd (c : Char) : Bool := c == '\r' || c == '\n'

def SingleLine (text : Text) : Prop := ∀ c ∈ text, ¬ lineEnd c

/-- No field of the request reaches over the end of a line. -/
structure Request.SingleLines (request : Request) : Prop where
  method : SingleLine request.method
  path : SingleLine request.path
  version : SingleLine request.version
  headers : ∀ header ∈ request.headers, SingleLine header.1 ∧ SingleLine header.2

def Request.lines (request : Request) : List Text :=
  (request.method ++ ' ' :: (request.path ++ ' ' :: request.version)) ::
    request.headers.map (fun header => header.1 ++ ':' :: ' ' :: header.2)

def withoutCr (line : List UInt8) : List UInt8 :=
  if line.getLast? = some 13 then line.dropLast else line

/-- The lines of a head and the bytes after it, as an upstream sees them that ends a line at LF, be
there a CR before it or not. -/
def upstreamLines (line : List UInt8) : List UInt8 → Option (List (List UInt8) × List UInt8)
  | [] => none
  | byte :: rest =>
    if byte = 10 then
      if withoutCr line = [] then some ([], rest)
      else (upstreamLines [] rest).map (fun seen => (withoutCr line :: seen.1, seen.2))
    else upstreamLines (line ++ [byte]) rest

def PathOverride.text : PathOverride → Text
  | .prefix_ path | .replace path | .append path => path

/-- What the gateway is configured with is not a client's. -/
structure HttpProxyConfig.SingleLines (config : HttpProxyConfig) : Prop where
  path : SingleLine config.pathOverride.text
  headers : ∀ key value, config.overideHeaders.lookup key = some value → SingleLine key ∧ SingleLine value

/-- No client hides a line from the gateway: the request has no line end in a field, and whatever the
overrides, the lines of the request are all that the upstream sees in its head. -/
def Unsmuggled (bytes : List UInt8) : Prop :=
  ∀ data rest request, readUntilEmptyLine [] bytes = .ok (data, rest) →
    Request.new data = .ok request → request.SingleLines ∧
    ∀ config order, HttpProxyConfig.SingleLines config → FiniteMap.Enumerates order config.overideHeaders →
      upstreamLines [] ((config.modifyRequest order request).wire ++ rest) =
        some ((config.modifyRequest order request).lines.map utf8, rest)

/-- A field of a head is one line once the blanks around it are gone. -/
def LineInBlanks (text : Text) : Prop :=
  ∃ before inner after, text = before ++ inner ++ after ∧ SingleLine inner ∧
    (∀ c ∈ before, isWhitespace c) ∧ ∀ c ∈ after, isWhitespace c

structure Head.LinesInBlanks (head : Head) : Prop where
  requestLine : SingleLine head.requestLine
  headers : ∀ header ∈ head.headers, LineInBlanks header.1 ∧ LineInBlanks header.2

theorem SingleLine.append {a b : Text} (ha : SingleLine a) (hb : SingleLine b) : SingleLine (a ++ b) :=
  List.forall_mem_append.mpr ⟨ha, hb⟩

private theorem singleLine_trim_iff {text : Text} : SingleLine (trim text) ↔ LineInBlanks text := by
  constructor
  · intro h
    obtain ⟨before, after, heq, hbefore, hafter⟩ := exists_trim text
    exact ⟨before, trim text, after, heq, h, hbefore, hafter⟩
  · intro h
    obtain ⟨before, inner, after, rfl, hinner, hbefore, hafter⟩ := h
    rw [trim_between hbefore hafter]
    exact fun c hc => hinner c (mem_of_mem_trim hc)

private theorem singleLine_requestLine_iff {head : Head} : SingleLine head.requestLine ↔
    SingleLine head.method ∧ SingleLine head.path ∧ SingleLine head.version := by
  have hspace : ¬ lineEnd ' ' := by decide
  simp only [SingleLine, Head.requestLine, List.forall_mem_append, List.forall_mem_cons]
  exact ⟨fun h => ⟨h.1, h.2.2.1, h.2.2.2.2⟩, fun h => ⟨h.1, hspace, h.2.1, hspace, h.2.2⟩⟩

theorem Head.singleLines_request_iff {head : Head} : head.request.SingleLines ↔ head.LinesInBlanks := by
  have hheaders : (∀ header ∈ head.request.headers, SingleLine header.1 ∧ SingleLine header.2) ↔
      ∀ header ∈ head.headers, LineInBlanks header.1 ∧ LineInBlanks header.2 := by
    simp only [Head.request, List.forall_mem_map, singleLine_trim_iff]
  constructor
  · intro h
    exact ⟨singleLine_requestLine_iff.mpr ⟨h.method, h.path, h.version⟩, hheaders.mp h.headers⟩
  · intro h
    obtain ⟨hmethod, hpath, hversion⟩ := singleLine_requestLine_iff.mp h.requestLine
    exact ⟨hmethod, hpath, hversion, hheaders.mpr h.headers⟩

private theorem singleLine_overridePath {pathOverride : PathOverride} (h : SingleLine pathOverride.text)
    {path : Text} (hpath : SingleLine path) :
    SingleLine (HttpProxyConfig.overridePath pathOverride path) := by
  fun_cases HttpProxyConfig.overridePath pathOverride path with
  | case1 text => exact h
  | case2 text => exact h
  | case3 text => exact h
  | case4 start => exact h.append hpath
  | case5 suffix => exact hpath.append h

/-- Overrides that are single lines bring no line end into a request. -/
theorem HttpProxyConfig.SingleLines.modifyRequest {config : HttpProxyConfig} (h : config.SingleLines)
    {order : List (Sigma fun _ : Text => Text)} (horder : FiniteMap.Enumerates order config.overideHeaders)
    {request : Request} (hrequest : request.SingleLines) :
    (config.modifyRequest order request).SingleLines := by
  refine ⟨hrequest.method, singleLine_overridePath h.path hrequest.path, hrequest.version, fun header hheader => ?_⟩
  rcases List.mem_append.mp hheader with hkept | hadded
  · exact hrequest.headers header (List.mem_filter.mp hkept).1
  · obtain ⟨entry, hentry, rfl⟩ := List.mem_map.mp hadded
    exact h.headers entry.1 entry.2 ((horder.mem_iff entry).mp hentry)

section bytes

private theorem utf8_append (a b : Text) : utf8 (a ++ b) = utf8 a ++ utf8 b := List.flatMap_append

private theorem utf8_ne_nil {text : Text} (h : text ≠ []) : utf8 text ≠ [] := by
  cases text with
  | nil => exact absurd rfl h
  | cons c text => simp [utf8, String.utf8EncodeChar_ne_nil]

theorem SingleLine.notMem_utf8 {text : Text} (h : SingleLine text) : 10 ∉ utf8 text :=
  notMem_utf8Bytes (c := '\n') (by decide) fun hmem => h _ hmem (by decide)

/-- A line without LF is seen as it was written. -/
private theorem upstreamLines_line {line : List UInt8} (hlf : 10 ∉ line) (hne : line ≠ [])
    (rest : List UInt8) : upstreamLines [] (line ++ 13 :: 10 :: rest) =
      (upstreamLines [] rest).map (fun seen => (line :: seen.1, seen.2)) := by
  have hread (before after : List UInt8) (hafter : 10 ∉ after) :
      upstreamLines before (after ++ 13 :: 10 :: rest) =
        upstreamLines (before ++ after) (13 :: 10 :: rest) := by
    induction after generalizing before with
    | nil => rw [List.nil_append, List.append_nil]
    | cons byte after ih =>
      rw [List.mem_cons, not_or] at hafter
      rw [List.cons_append, upstreamLines, if_neg (Ne.symm hafter.1), ih _ hafter.2, List.append_assoc]
      rfl
  have hline : withoutCr (line ++ [13]) = line := by simp [withoutCr]
  rw [hread [] line hlf, List.nil_append, upstreamLines, if_neg (by decide), upstreamLines, if_pos rfl,
    hline, if_neg hne]

private theorem upstreamLines_lines {lines : List (List UInt8)}
    (h : ∀ line ∈ lines, 10 ∉ line ∧ line ≠ []) (rest : List UInt8) :
    upstreamLines [] (lines.flatMap (· ++ [13, 10]) ++ 13 :: 10 :: rest) = some (lines, rest) := by
  induction lines with
  | nil => rfl
  | cons line lines ih =>
    rw [List.forall_mem_cons] at h
    obtain ⟨⟨hlf, hne⟩, hlines⟩ := h
    rw [List.flatMap_cons, List.append_assoc, List.append_assoc, List.cons_append, List.cons_append,
      List.nil_append, upstreamLines_line hlf hne, ih hlines]
    rfl

theorem Request.pieces_lines (request : Request) :
    request.pieces.flatten = request.lines.flatMap (· ++ crlf) ++ crlf := by
  have hheaders (headers : List (Text × Text)) :
      (headers.flatMap (fun header => [header.1, [':', ' '], header.2, crlf])).flatten =
        (headers.map (fun header => header.1 ++ ':' :: ' ' :: header.2)).flatMap (· ++ crlf) := by
    induction headers with
    | nil => rfl
    | cons header headers ih => simp [ih]
  simp [Request.pieces, Request.lines, hheaders]

theorem Request.wire_lines (request : Request) :
    request.wire = (request.lines.map utf8).flatMap (· ++ [13, 10]) ++ [13, 10] := by
  have hlines (lines : List Text) :
      utf8 (lines.flatMap (· ++ crlf)) = (lines.map utf8).flatMap (· ++ [13, 10]) := by
    induction lines with
    | nil => rfl
    | cons line lines ih =>
      rw [List.flatMap_cons, utf8_append, utf8_append, ih]
      rfl
  rw [wire_eq, request.pieces_lines, utf8_append, hlines]
  rfl

theorem Request.SingleLines.lines {request : Request} (h : request.SingleLines) :
    ∀ line ∈ request.lines, SingleLine line ∧ line ≠ [] := by
  have hseparator {c : Char} {text : Text} (hc : ¬ lineEnd c) (htext : SingleLine text) :
      SingleLine (c :: text) := List.forall_mem_cons.mpr ⟨hc, htext⟩
  refine List.forall_mem_cons.mpr ⟨⟨h.method.append (hseparator (by decide)
    (h.path.append (hseparator (by decide) h.version))), by simp⟩, fun line hline => ?_⟩
  obtain ⟨header, hheader, rfl⟩ := List.mem_map.mp hline
  obtain ⟨hname, hvalue⟩ := h.headers header hheader
  exact ⟨hname.append (hseparator (by decide) (hseparator (by decide) hvalue)), by simp⟩

/-- Of a request on single lines the upstream sees the lines as they are. -/
theorem Request.SingleLines.upstreamLines {request : Request} (h : request.SingleLines)
    (rest : List UInt8) :
    upstreamLines [] (request.wire ++ rest) = some (request.lines.map utf8, rest) := by
  rw [request.wire_lines, List.append_assoc]
  refine upstreamLines_lines (fun bytes hbytes => ?_) rest
  obtain ⟨line, hline, rfl⟩ := List.mem_map.mp hbytes
  obtain ⟨hsingle, hne⟩ := h.lines line hline
  exact ⟨hsingle.notMem_utf8, utf8_ne_nil hne⟩

end bytes

/-- A stream hides nothing exactly when its head has no line end but those between its lines and
among the blanks around its header names and values. -/
theorem unsmuggled_iff (bytes : List UInt8) : Unsmuggled bytes ↔ ∀ head rest, Head.WellFormed head →
    latin1 bytes = head.text ++ crlf ++ latin1 rest → head.LinesInBlanks := by
  constructor
  · intro h head rest hwell hbytes
    obtain ⟨hread, hnew⟩ := hwell.accepted hbytes
    exact Head.singleLines_request_iff.mp (h _ rest _ hread hnew).1
  · intro h data rest request hread hnew
    obtain ⟨read, head, rfl, rfl, hwell, hdata, rfl⟩ := exists_head hread hnew
    have hsingle : head.request.SingleLines :=
      Head.singleLines_request_iff.mpr (h head rest hwell (by rw [latin1_append, hdata]))
    exact ⟨hsingle, fun config order hconfig horder =>
      (hconfig.modifyRequest horder hsingle).upstreamLines rest⟩

/-- A header whose value holds a whole line, behind a bare LF. -/
def hiddenHost : List UInt8 := utf8 "GET / HTTP/1.1\r\nX: a\nHost: evil\r\n\r\n".toList

/-- The Host line in the value comes past the override of the Host header, and before it. -/
theorem not_unsmuggled_hiddenHost :
    (∃ data request, readUntilEmptyLine [] hiddenHost = .ok (data, []) ∧ Request.new data = .ok request ∧
      upstreamLines [] (((HttpProxyConfig.new ['a']).withHeaderOverride "Host".toList ['a']).modifyRequest
          [⟨"Host".toList, ['a']⟩] request).wire =
        some (["GET / HTTP/1.1", "X: a", "Host: evil", "Host: a"].map (fun line => utf8 line.toList), [])) ∧
      ¬ Unsmuggled hiddenHost := by
  have hread : readUntilEmptyLine [] hiddenHost = .ok (latin1 hiddenHost, []) := by decide +kernel
  have hnew : Request.new (latin1 hiddenHost) = .ok ⟨"GET".toList, ['/'], "HTTP/1.1".toList,
      [(['X'], "a\nHost: evil".toList)]⟩ := by decide +kernel
  refine ⟨⟨_, _, hread, hnew, by decide +kernel⟩, fun h => ?_⟩
  have hvalue := ((h _ _ _ hread hnew).1.headers _ (List.mem_singleton.mpr rfl)).2
  exact hvalue '\n' (by decide +kernel) (by decide)

end WayPoint.Gateway
