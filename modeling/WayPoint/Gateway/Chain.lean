import WayPoint.Gateway.ForwardedBytes
import WayPoint.Gateway.HeadRoundTrip
import WayPoint.Gateway.LineFeeds

/-! Gateways in a row. Each one reads the head that the one before it wrote, so what the last server
gets depends on how a written head is read again. -/
namespace WayPoint.Gateway
open Foundations

/-- One gateway, with the order its map of overrides happens to be listed in. -/
structure Hop where
  config : HttpProxyConfig
  order : List (Sigma fun _ : Text => Text)
  enumerates : FiniteMap.Enumerates order config.overideHeaders

namespace Hop

def rewrite (hop : Hop) (request : Request) : Request := hop.config.modifyRequest hop.order request

/-- What the server gets for the bytes of the client, as `start_http_proxy_connection` sends them. -/
def gateway (hop : Hop) (bytes : List UInt8) : Except Error (List UInt8) := do
  let (data, rest) ← readUntilEmptyLine [] bytes
  let request ← Request.new data
  return (hop.rewrite request).wire ++ rest

def rewriteAll (hops : List Hop) (request : Request) : Request :=
  hops.foldl (fun request hop => hop.rewrite request) request

/-- Each gateway is the client of the next one. -/
def throughAll (hops : List Hop) (bytes : List UInt8) : Except Error (List UInt8) :=
  hops.foldlM (fun bytes hop => hop.gateway bytes) bytes

/-- No gateway of the row overrides the name. -/
def untouched (hops : List Hop) (name : Text) : Bool :=
  hops.all fun hop => decide (name ∉ hop.config.overideHeaders)

/-- The overrides that no later gateway replaces, the first gateway's first. -/
def overrides : List Hop → List (Text × Text)
  | [] => []
  | hop :: hops =>
    (hop.order.map fun header => (header.1, header.2)).filter (fun header => untouched hops header.1) ++
      overrides hops

@[simp] theorem rewriteAll_nil (request : Request) : rewriteAll [] request = request := rfl

@[simp] theorem rewriteAll_cons (hop : Hop) (hops : List Hop) (request : Request) :
    rewriteAll (hop :: hops) request = rewriteAll hops (hop.rewrite request) := rfl

@[simp] theorem untouched_nil (name : Text) : untouched [] name = true := rfl

@[simp] theorem untouched_cons (hop : Hop) (hops : List Hop) (name : Text) : untouched (hop :: hops) name =
    (decide (name ∉ hop.config.overideHeaders) && untouched hops name) := rfl

/-- What a row of gateways makes of the headers. -/
theorem headers_rewriteAll (hops : List Hop) (request : Request) : (rewriteAll hops request).headers =
    request.headers.filter (fun header => untouched hops header.1) ++ overrides hops := by
  induction hops generalizing request with
  | nil => simp [overrides]
  | cons hop hops ih =>
    rw [rewriteAll_cons, ih, rewrite, HttpProxyConfig.modifyRequest, List.filter_append, List.filter_filter,
      overrides, List.append_assoc]
    congr 1
    refine List.filter_congr fun header _ => ?_
    rw [untouched_cons, Bool.and_comm]

private theorem method_rewriteAll (hops : List Hop) (request : Request) :
    (rewriteAll hops request).method = request.method := by
  induction hops generalizing request with
  | nil => rfl
  | cons hop hops ih => exact ih (hop.rewrite request)

private theorem version_rewriteAll (hops : List Hop) (request : Request) :
    (rewriteAll hops request).version = request.version := by
  induction hops generalizing request with
  | nil => rfl
  | cons hop hops ih => exact ih (hop.rewrite request)

private theorem path_rewriteAll (hops : List Hop) (request : Request) : (rewriteAll hops request).path =
    hops.foldl (fun path hop => HttpProxyConfig.overridePath hop.config.pathOverride path) request.path := by
  induction hops generalizing request with
  | nil => rfl
  | cons hop hops ih => exact ih (hop.rewrite request)

end Hop

/-- Text that is written and read as it is: ASCII, without a line end of HTTP. -/
structure Clean (text : Text) : Prop where
  line : ¬ crlf <:+: text
  ascii : ∀ c ∈ text, c.toNat < 128

/-- The name and the value of a header that are read as they are written. -/
structure CleanHeader (header : Text × Text) : Prop where
  colon : ':' ∉ header.1
  name : Clean header.1
  value : Clean header.2
  trimmedName : trim header.1 = header.1
  trimmedValue : trim header.2 = header.2

/-- A request that is read as it is written. -/
structure Request.Settled (request : Request) : Prop where
  methodSpace : ' ' ∉ request.method
  pathSpace : ' ' ∉ request.path
  method : Clean request.method
  path : Clean request.path
  version : Clean request.version
  headers : ∀ header ∈ request.headers, CleanHeader header

/-- What the gateway itself writes is read as it is written. -/
structure Hop.Settled (hop : Hop) : Prop where
  pathSpace : ' ' ∉ hop.config.pathOverride.text
  pathLine : SingleLine hop.config.pathOverride.text
  pathAscii : ∀ c ∈ hop.config.pathOverride.text, c.toNat < 128
  headers : ∀ header ∈ hop.order, CleanHeader (header.1, header.2)

instance (text : Text) : Decidable (SingleLine text) := List.decidableBAll _ text

instance (text : Text) : Decidable (Clean text) :=
  have : Decidable (∀ c ∈ text, c.toNat < 128) := List.decidableBAll _ text
  decidable_of_iff (¬ crlf <:+: text ∧ ∀ c ∈ text, c.toNat < 128) ⟨fun h => ⟨h.1, h.2⟩, fun h => ⟨h.1, h.2⟩⟩

instance (header : Text × Text) : Decidable (CleanHeader header) :=
  decidable_of_iff (':' ∉ header.1 ∧ Clean header.1 ∧ Clean header.2 ∧ trim header.1 = header.1 ∧
      trim header.2 = header.2)
    ⟨fun h => ⟨h.1, h.2.1, h.2.2.1, h.2.2.2.1, h.2.2.2.2⟩, fun h => ⟨h.1, h.2, h.3, h.4, h.5⟩⟩

instance (hop : Hop) : Decidable hop.Settled :=
  have : Decidable (∀ c ∈ hop.config.pathOverride.text, c.toNat < 128) := List.decidableBAll _ _
  decidable_of_iff (' ' ∉ hop.config.pathOverride.text ∧ SingleLine hop.config.pathOverride.text ∧
      (∀ c ∈ hop.config.pathOverride.text, c.toNat < 128) ∧ ∀ header ∈ hop.order, CleanHeader (header.1, header.2))
    ⟨fun h => ⟨h.1, h.2.1, h.2.2.1, h.2.2.2⟩, fun h => ⟨h.1, h.2, h.3, h.4⟩⟩

section settled
variable {request : Request} {hop : Hop} {hops : List Hop} {read rest : List UInt8} {data : Text}

theorem Clean.segment {a b : Text} (h : Clean b) (hab : a <:+: b) : Clean a :=
  ⟨fun hline => h.line (hline.trans hab), fun c hc => h.ascii c (hab.subset hc)⟩

/-- A text without line ends makes none together with another. -/
private theorem crlf_infix_append_of_singleLine {a b : Text} (h : SingleLine a) :
    (crlf <:+: a ++ b → crlf <:+: b) ∧ (crlf <:+: b ++ a → crlf <:+: b) := by
  induction a generalizing b with
  | nil => simp
  | cons c a ih =>
    obtain ⟨hc, ha⟩ := List.forall_mem_cons.mp h
    have hcr : c ≠ '\r' := by
      rintro rfl
      exact hc rfl
    have hlf : c ≠ '\n' := by
      rintro rfl
      exact hc rfl
    constructor
    · intro hline
      rcases (crlf_infix_append_cons_iff (a := []) hcr hlf).mp hline with hnil | hline
      · exact absurd (List.infix_nil.mp hnil) (by decide)
      · exact (ih ha).1 hline
    · intro hline
      rcases (crlf_infix_append_cons_iff hcr hlf).mp hline with hline | hline
      · exact hline
      · have hempty := (ih (b := []) ha).2 (by simpa using hline)
        exact absurd (List.infix_nil.mp hempty) (by decide)

theorem Clean.singleLine_append {a b : Text} (hline : SingleLine a) (hascii : ∀ c ∈ a, c.toNat < 128)
    (hb : Clean b) : Clean (a ++ b) ∧ Clean (b ++ a) :=
  ⟨⟨fun h => hb.line ((crlf_infix_append_of_singleLine hline).1 h),
      List.forall_mem_append.mpr ⟨hascii, hb.ascii⟩⟩,
    ⟨fun h => hb.line ((crlf_infix_append_of_singleLine hline).2 h),
      List.forall_mem_append.mpr ⟨hb.ascii, hascii⟩⟩⟩

theorem clean_nil : Clean [] := ⟨by decide, by simp⟩

/-- A path override that is plain text keeps a path plain. -/
private theorem clean_overridePath {own : PathOverride} (hown : ' ' ∉ own.text) (hline : SingleLine own.text)
    (hascii : ∀ c ∈ own.text, c.toNat < 128) {path : Text} (hspace : ' ' ∉ path) (hpath : Clean path) :
    ' ' ∉ HttpProxyConfig.overridePath own path ∧ Clean (HttpProxyConfig.overridePath own path) := by
  have halone : Clean own.text := by simpa using (Clean.singleLine_append hline hascii clean_nil).1
  have hboth := Clean.singleLine_append hline hascii hpath
  fun_cases HttpProxyConfig.overridePath own path with
  | case1 text => exact ⟨hown, halone⟩
  | case2 text => exact ⟨hown, halone⟩
  | case3 text => exact ⟨hown, halone⟩
  | case4 start => exact ⟨List.not_mem_append hown hspace, hboth.1⟩
  | case5 suffix => exact ⟨List.not_mem_append hspace hown, hboth.2⟩

/-- A gateway keeps a request settled. -/
theorem Hop.Settled.rewrite (h : hop.Settled) (hrequest : request.Settled) : (hop.rewrite request).Settled where
  methodSpace := hrequest.methodSpace
  pathSpace := (clean_overridePath h.pathSpace h.pathLine h.pathAscii hrequest.pathSpace hrequest.path).1
  method := hrequest.method
  path := (clean_overridePath h.pathSpace h.pathLine h.pathAscii hrequest.pathSpace hrequest.path).2
  version := hrequest.version
  headers := by
    intro header hheader
    rcases List.mem_append.mp hheader with hkept | hown
    · exact hrequest.headers header (List.mem_of_mem_filter hkept)
    · obtain ⟨entry, hentry, rfl⟩ := List.mem_map.mp hown
      exact h.headers entry hentry

theorem Request.Settled.wellFormed (h : request.Settled) : request.head.WellFormed where
  method := h.methodSpace
  path := h.pathSpace
  names := by
    intro header hheader
    obtain ⟨written, hwritten, rfl⟩ := List.mem_map.mp hheader
    exact (h.headers written hwritten).colon
  lines := by
    intro line hline hcrlf
    rcases List.mem_cons.mp hline with rfl | hline
    · rw [Head.requestLine, crlf_infix_append_cons_iff (by decide) (by decide),
        crlf_infix_append_cons_iff (by decide) (by decide)] at hcrlf
      rcases hcrlf with hmethod | hpath | hversion
      · exact h.method.line hmethod
      · exact h.path.line hpath
      · exact h.version.line hversion
    · obtain ⟨header, hheader, rfl⟩ := List.mem_map.mp hline
      obtain ⟨written, hwritten, rfl⟩ := List.mem_map.mp hheader
      have hclean := h.headers written hwritten
      rw [Head.headerLine, crlf_infix_append_cons_iff (by decide) (by decide), crlf_infix_cons_iff] at hcrlf
      rcases hcrlf with hname | ⟨hspace, _⟩ | hvalue
      · exact hclean.name.line hname
      · exact absurd hspace (by decide)
      · exact hclean.value.line hvalue

theorem Request.Settled.request_head (h : request.Settled) : request.head.request = request := by
  have hheaders : request.head.request.headers = request.headers := by
    rw [Head.request, Request.head, List.map_map]
    refine (List.map_congr_left fun header hheader => ?_).trans (List.map_id request.headers)
    have hclean := h.headers header hheader
    rw [Function.comp_apply, trim_space_cons, hclean.trimmedName, hclean.trimmedValue, id]
  calc
    request.head.request = { request with headers := request.head.request.headers } := rfl
    _ = request := by rw [hheaders]

theorem Request.Settled.ascii (h : request.Settled) : ∀ c ∈ request.pieces.flatten, c.toNat < 128 :=
  forall_mem_pieces (by decide) h.method.ascii h.path.ascii h.version.ascii fun header hheader =>
    ⟨(h.headers header hheader).name.ascii, (h.headers header hheader).value.ascii⟩

/-- The next gateway reads what was written, and leaves the rest. -/
theorem Request.Settled.reread (h : request.Settled) (rest : List UInt8) :
    readUntilEmptyLine [] (request.wire ++ rest) = .ok (request.pieces.flatten, rest) ∧
      Request.new request.pieces.flatten = .ok request := by
  have hbytes : latin1 (request.wire ++ rest) = request.head.text ++ crlf ++ latin1 rest := by
    rw [latin1_append, wire_eq, latin1_utf8 h.ascii, Request.pieces_flatten]
  have haccepted := h.wellFormed.accepted hbytes
  rwa [h.request_head, ← Request.pieces_flatten] at haccepted

/-- Every ASCII head that is accepted is read as a settled request. -/
private theorem settled_of_ascii (hread : readUntilEmptyLine [] (read ++ rest) = .ok (data, rest))
    (hnew : Request.new data = .ok request) (hascii : ∀ byte ∈ read, byte.toNat < 128) : request.Settled := by
  obtain ⟨head, hwell, hdata, rfl⟩ := exists_head_of_read hread hnew
  have htext : ∀ c ∈ head.text, c.toNat < 128 := by
    intro c hc
    obtain ⟨byte, hbyte, rfl⟩ := List.mem_map.mp (hdata ▸ List.mem_append_left crlf hc : c ∈ latin1 read)
    rw [toNat_ofNat_byte]
    exact hascii byte hbyte
  obtain ⟨hmethod, hpath, hversion, hfields⟩ := Head.forall_mem_text htext
  have hline := hwell.lines _ List.mem_cons_self
  rw [Head.requestLine, crlf_infix_append_cons_iff (by decide) (by decide),
    crlf_infix_append_cons_iff (by decide) (by decide), not_or, not_or] at hline
  refine ⟨hwell.method, hwell.path, ⟨hline.1, hmethod⟩, ⟨hline.2.1, hpath⟩, ⟨hline.2.2, hversion⟩, ?_⟩
  intro header hheader
  obtain ⟨raw, hraw, rfl⟩ := List.mem_map.mp hheader
  have hrawLine := hwell.lines _ (List.mem_cons_of_mem _ (List.mem_map_of_mem hraw))
  rw [Head.headerLine, crlf_infix_append_cons_iff (by decide) (by decide), not_or] at hrawLine
  exact ⟨fun hcolon => hwell.names raw hraw (mem_of_mem_trim hcolon),
    Clean.segment ⟨hrawLine.1, (hfields raw hraw).1⟩ (trim_isSegment _),
    Clean.segment ⟨hrawLine.2, (hfields raw hraw).2⟩ (trim_isSegment _), trim_trim _, trim_trim _⟩

theorem Hop.gateway_eq (hread : readUntilEmptyLine [] (read ++ rest) = .ok (data, rest))
    (hnew : Request.new data = .ok request) :
    hop.gateway (read ++ rest) = .ok ((hop.rewrite request).wire ++ rest) := by
  simp only [Hop.gateway, hread, hnew, bind, Except.bind]
  rfl

theorem throughAll_wire (hsettled : ∀ hop ∈ hops, hop.Settled) (hrequest : request.Settled) :
    Hop.throughAll hops (request.wire ++ rest) = .ok ((Hop.rewriteAll hops request).wire ++ rest) := by
  induction hops generalizing request with
  | nil => rfl
  | cons hop hops ih =>
    obtain ⟨hhop, hhops⟩ := List.forall_mem_cons.mp hsettled
    obtain ⟨hread, hnew⟩ := hrequest.reread rest
    rw [Hop.throughAll, List.foldlM_cons, Hop.gateway_eq hread hnew]
    exact ih hhops (hhop.rewrite hrequest)

/-- The first gateway reads the client's head, the others one another's. -/
theorem throughAll_of_ascii (hne : hops ≠ []) (hsettled : ∀ hop ∈ hops, hop.Settled)
    (hread : readUntilEmptyLine [] (read ++ rest) = .ok (data, rest)) (hnew : Request.new data = .ok request)
    (hascii : ∀ byte ∈ read, byte.toNat < 128) :
    Hop.throughAll hops (read ++ rest) = .ok ((Hop.rewriteAll hops request).wire ++ rest) := by
  obtain ⟨hop, hops, rfl⟩ := List.exists_cons_of_ne_nil hne
  obtain ⟨hhop, hhops⟩ := List.forall_mem_cons.mp hsettled
  rw [Hop.throughAll, List.foldlM_cons, Hop.gateway_eq hread hnew]
  exact throughAll_wire hhops (hhop.rewrite (settled_of_ascii hread hnew hascii))

end settled

/-- A row of gateways is one pass over the client's head: overrides replace the headers of their name,
later ones those of earlier gateways too, and what follows the head is passed on as it is. -/
theorem chain_is_one_pass {hops : List Hop} (hne : hops ≠ []) (hsettled : ∀ hop ∈ hops, hop.Settled)
    {read rest : List UInt8} {data : Text} {request : Request}
    (hread : readUntilEmptyLine [] (read ++ rest) = .ok (data, rest)) (hnew : Request.new data = .ok request)
    (hascii : ∀ byte ∈ read, byte.toNat < 128) :
    Hop.throughAll hops (read ++ rest) = .ok (Request.wire
      { method := request.method
        path := hops.foldl (fun path hop => HttpProxyConfig.overridePath hop.config.pathOverride path) request.path
        version := request.version
        headers := request.headers.filter (fun header => Hop.untouched hops header.1) ++ Hop.overrides hops } ++
      rest) := by
  rw [throughAll_of_ascii hne hsettled hread hnew hascii, ← Hop.headers_rewriteAll, ← Hop.path_rewriteAll,
    ← Hop.method_rewriteAll hops request, ← Hop.version_rewriteAll hops request]

/-- Two gateways that agree on a header, and one of them on the path. -/
def tracedHops : List Hop :=
  [⟨(HttpProxyConfig.new "a:1".toList).withHeaderOverride "Via".toList "a".toList,
      [⟨"Via".toList, "a".toList⟩], rfl⟩,
    ⟨((HttpProxyConfig.new "b:2".toList).withHeaderOverride "Via".toList "b".toList).withPathOverride
      (.append "/tail".toList), [⟨"Via".toList, "b".toList⟩], rfl⟩]

theorem chain_is_one_pass_traced :
    Hop.throughAll tracedHops (utf8 "GET /x HTTP/1.1\r\nAccept: *\r\nVia: me\r\n\r\n".toList ++ [0, 255]) =
      .ok (utf8 "GET //x/tail HTTP/1.1\r\nAccept: *\r\nVia: b\r\n\r\n".toList ++ [0, 255]) := by
  have hread : readUntilEmptyLine []
      (utf8 "GET /x HTTP/1.1\r\nAccept: *\r\nVia: me\r\n\r\n".toList ++ [0, 255]) =
      .ok ("GET /x HTTP/1.1\r\nAccept: *\r\nVia: me\r\n\r\n".toList, [0, 255]) := by decide +kernel
  have hnew : Request.new "GET /x HTTP/1.1\r\nAccept: *\r\nVia: me\r\n\r\n".toList =
      .ok ⟨"GET".toList, "/x".toList, "HTTP/1.1".toList,
        [("Accept".toList, "*".toList), ("Via".toList, "me".toList)]⟩ := by decide +kernel
  rw [chain_is_one_pass (by decide) (by decide +kernel) hread hnew (by decide +kernel)]
  decide +kernel

end WayPoint.Gateway
