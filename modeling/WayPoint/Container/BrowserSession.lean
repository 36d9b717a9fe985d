import WayPoint.Gateway.Chain
import WayPoint.Gateway.EphemeralBrowserProxy

/-! The two gateways between a client and Chrome: the proxy's, for the browser it claimed, and the one
in the browser's container (browser/main.rs), which is set up from what Chrome prints (chrome.rs). -/
namespace WayPoint.Container
open Foundations Gateway

/-- What Chrome prints before its address. -/
def announcement : Text := "DevTools listening on".toList

/-- `parse_url_from_line`: the part after the last space. -/
def parseUrlFromLine (line : Text) : Option Text := (line.splitOn ' ').getLast?

/-- The address `start_chrome` returns for the lines read from Chrome's stderr before it fails or
ends: the sender is there for the first announcement only, and dropped with the task. -/
def startChrome (stderr : List Text) : Option Text :=
  (stderr.find? fun line => decide (announcement <:+: line)).bind parseUrlFromLine

/-- The parts of Chrome's address that the container uses. -/
structure Uri where
  host : Text
  port : Text
  path : Text
  deriving DecidableEq

def Uri.serverAddr (uri : Uri) : Text := uri.host ++ ':' :: uri.port

/-- The gateway of the container. -/
def containerConfig (uri : Uri) : HttpProxyConfig :=
  ((HttpProxyConfig.new uri.serverAddr).withHeaderOverride "Host".toList uri.serverAddr).withPathOverride
    (.replace uri.path)

/-- The gateway of the proxy, for the address of the claimed browser. -/
def claimedConfig (address : Text) : HttpProxyConfig :=
  ((HttpProxyConfig.new address).withPathOverride (.replace ['/'])).withHeaderOverride "Host".toList address

theorem getProxyConfig_eq (config : ChromeWarmpoolProxyConfig) {d : Manager.InstanceDescription} {address : String}
    (h : config.serviceAddress d = some address) :
    config.getProxyConfig d = pure (claimedConfig address.toList) := by
  rw [ChromeWarmpoolProxyConfig.getProxyConfig, h]
  rfl

/-- Printable ASCII without blanks, as addresses are. -/
def Visible (text : Text) : Prop := ∀ c ∈ text, 32 < c.toNat ∧ c.toNat < 127

instance (text : Text) : Decidable (Visible text) := List.decidableBAll _ text

section visible
variable {text : Text}

theorem Visible.singleLine (h : Visible text) : SingleLine text := by
  intro c hc hend
  have hvisible := (h c hc).1
  simp only [lineEnd, Bool.or_eq_true, beq_iff_eq] at hend
  rcases hend with rfl | rfl
  · exact absurd hvisible (by decide)
  · exact absurd hvisible (by decide)

theorem Visible.ascii (h : Visible text) : ∀ c ∈ text, c.toNat < 128 := by
  intro c hc
  have := (h c hc).2
  omega

theorem Visible.space (h : Visible text) : ' ' ∉ text := fun hc => absurd (h ' ' hc).1 (by decide)

theorem Visible.clean (h : Visible text) : Clean text := by
  simpa using (Clean.singleLine_append h.singleLine h.ascii clean_nil).1

/-- Nothing of it is trimmed. -/
theorem Visible.trim_eq (h : Visible text) : trim text = text := by
  have hnone {c : Char} (hc : 32 < c.toNat ∧ c.toNat < 127) : isWhitespace c = false := by
    simp only [isWhitespace, Bool.or_eq_false_iff, Bool.and_eq_false_iff, decide_eq_false_iff_not, beq_eq_false_iff_ne]
    omega
  have hdrop {t : Text} (ht : Visible t) : t.dropWhile isWhitespace = t := by
    cases t with
    | nil => rfl
    | cons c t =>
      rw [List.dropWhile_cons_of_neg]
      rw [hnone (ht c List.mem_cons_self)]
      decide
  have hreverse : Visible text.reverse := fun c hc => h c (List.mem_reverse.mp hc)
  rw [trim, hdrop h, hdrop hreverse, List.reverse_reverse]

theorem Visible.host (h : Visible text) : CleanHeader ("Host".toList, text) where
  colon := show ':' ∉ "Host".toList by decide
  name := show Clean "Host".toList by decide
  value := h.clean
  trimmedName := show trim "Host".toList = "Host".toList by decide
  trimmedValue := h.trim_eq

end visible

/-- A gateway to a server that sets the host to the server's address. -/
def hostHop (serverAddr : Text) (pathOverride : PathOverride) : Hop where
  config := ((HttpProxyConfig.new serverAddr).withHeaderOverride "Host".toList serverAddr).withPathOverride
    pathOverride
  order := [⟨"Host".toList, serverAddr⟩]
  enumerates := rfl

private theorem hostHop_settled {serverAddr : Text} {pathOverride : PathOverride} (hpath : Visible pathOverride.text)
    (haddr : Visible serverAddr) : (hostHop serverAddr pathOverride).Settled where
  pathSpace := hpath.space
  pathLine := hpath.singleLine
  pathAscii := hpath.ascii
  headers := by
    intro header hheader
    obtain rfl := List.mem_singleton.mp hheader
    exact haddr.host

@[simp] theorem untouched_hostHop (serverAddr : Text) (pathOverride : PathOverride) (hops : List Hop) (name : Text) :
    Hop.untouched (hostHop serverAddr pathOverride :: hops) name =
      (decide (name ≠ "Host".toList) && Hop.untouched hops name) := by
  have hmem : name ∉ (hostHop serverAddr pathOverride).config.overideHeaders ↔ name ≠ "Host".toList := by
    rw [show (hostHop serverAddr pathOverride).config.overideHeaders =
      (∅ : FiniteMap Text Text).insert "Host".toList serverAddr from rfl, Finmap.mem_insert, not_or]
    exact and_iff_left Finmap.notMem_empty
  rw [Hop.untouched_cons, decide_eq_decide.mpr hmem]

/-- Of gateways that set the host the last one wins. -/
private theorem overrides_hostHop (serverAddr : Text) (pathOverride : PathOverride) (hops : List Hop) :
    Hop.overrides (hostHop serverAddr pathOverride :: hops) =
      (if Hop.untouched hops "Host".toList then [("Host".toList, serverAddr)] else []) ++ Hop.overrides hops := by
  rw [Hop.overrides]
  congr 1
  exact List.filter_cons

def claimedHop (address : Text) : Hop := hostHop address (.replace ['/'])

def containerHop (uri : Uri) : Hop := hostHop uri.serverAddr (.replace uri.path)

theorem claimedHop_config (address : Text) : (claimedHop address).config = claimedConfig address := rfl

theorem containerHop_config (uri : Uri) : (containerHop uri).config = containerConfig uri := rfl

/-- The container's gateway, set up from what Chrome prints. -/
def browserHop (parse : Text → Option Uri) (stderr : List Text) : Option Hop :=
  ((startChrome stderr).bind parse).map containerHop

theorem startChrome_eq {before after : List Text} {intro url : Text}
    (hbefore : ∀ line ∈ before, ¬ announcement <:+: line) (hline : announcement <:+: intro ++ ' ' :: url)
    (hspace : ' ' ∉ url) : startChrome (before ++ (intro ++ ' ' :: url) :: after) = some url := by
  have hfind : (before ++ (intro ++ ' ' :: url) :: after).find? (fun line => decide (announcement <:+: line)) =
      some (intro ++ ' ' :: url) := by
    rw [List.find?_eq_some_iff_append]
    refine ⟨by simpa using hline, before, after, rfl, ?_⟩
    simpa using hbefore
  rw [startChrome, hfind, Option.bind_some, parseUrlFromLine, List.splitOn_append_cons_self,
    List.splitOn_eq_singleton hspace, List.getLast?_append, List.getLast?_singleton, Option.some_or]

/-- Through both gateways Chrome gets a head for its own address and path, with the other headers of the
client as they are, followed by what the client sends. -/
theorem session_head {parse : Text → Option Uri} {before after : List Text} {intro url : Text} {uri : Uri}
    (hbefore : ∀ line ∈ before, ¬ announcement <:+: line) (hline : announcement <:+: intro ++ ' ' :: url)
    (hspace : ' ' ∉ url) (huri : parse url = some uri)
    (hvisible : Visible uri.host ∧ Visible uri.port ∧ Visible uri.path) {address : Text} (haddress : Visible address)
    {read rest : List UInt8} {data : Text} {request : Request}
    (hread : readUntilEmptyLine [] (read ++ rest) = .ok (data, rest)) (hnew : Request.new data = .ok request)
    (hascii : ∀ byte ∈ read, byte.toNat < 128) :
    ∃ hop, browserHop parse (before ++ (intro ++ ' ' :: url) :: after) = some hop ∧
      hop.config.serverAddr = uri.serverAddr ∧
      Hop.throughAll [claimedHop address, hop] (read ++ rest) = .ok (Request.wire
        { method := request.method
          path := uri.path
          version := request.version
          headers := request.headers.filter (fun header => decide (header.1 ≠ "Host".toList)) ++
            [("Host".toList, uri.serverAddr)] } ++ rest) := by
  obtain ⟨hhost, hport, hpath⟩ := hvisible
  have haddr : Visible uri.serverAddr := by
    intro c hc
    rcases List.mem_append.mp hc with hc | hc
    · exact hhost c hc
    · rcases List.mem_cons.mp hc with rfl | hc
      · decide
      · exact hport c hc
  have hhops : ∀ hop ∈ [claimedHop address, containerHop uri], hop.Settled := by
    intro hop hhop
    rcases List.mem_pair.mp hhop with rfl | rfl
    · exact hostHop_settled (show Visible ['/'] by decide) haddress
    · exact hostHop_settled hpath haddr
  refine ⟨containerHop uri, ?_, rfl, ?_⟩
  · rw [browserHop, startChrome_eq hbefore hline hspace, Option.bind_some, huri, Option.map_some]
  · rw [throughAll_of_ascii (by simp) hhops hread hnew hascii]
    have huntouched (name : Text) : Hop.untouched [claimedHop address, containerHop uri] name =
        decide (name ≠ "Host".toList) := by
      rw [claimedHop, containerHop, untouched_hostHop, untouched_hostHop, Hop.untouched_nil, Bool.and_true,
        Bool.and_self]
    have hown : Hop.overrides [claimedHop address, containerHop uri] = [("Host".toList, uri.serverAddr)] := by
      rw [claimedHop, containerHop, overrides_hostHop, overrides_hostHop, untouched_hostHop]
      rfl
    have hheaders := Hop.headers_rewriteAll [claimedHop address, containerHop uri] request
    simp only [huntouched, hown] at hheaders
    rw [← hheaders]
    rfl

/-- The parts of a `ws` address with a port. -/
def parseWs (url : Text) : Option Uri := do
  let afterScheme ← if "ws://".toList <+: url then some (url.drop 5) else none
  let (host, rest) ← splitOnce ':' afterScheme
  let (port, path) ← splitOnce '/' rest
  return { host, port, path := '/' :: path }

theorem session_head_devtools : ∃ hop,
    browserHop parseWs (["WARNING".toList] ++ ("DevTools listening on".toList ++ ' ' :: "ws://h:1/b".toList) :: []) =
      some hop ∧ hop.config.serverAddr = Uri.serverAddr ⟨['h'], ['1'], ['/', 'b']⟩ ∧
      Hop.throughAll [claimedHop "10.0.0.7:9222".toList, hop]
          (utf8 "GET /any HTTP/1.1\r\nHost: proxy\r\nUpgrade: websocket\r\n\r\n".toList ++ [129, 5]) =
        .ok (utf8 "GET /b HTTP/1.1\r\nUpgrade: websocket\r\nHost: h:1\r\n\r\n".toList ++ [129, 5]) := by
  have hread : readUntilEmptyLine []
      (utf8 "GET /any HTTP/1.1\r\nHost: proxy\r\nUpgrade: websocket\r\n\r\n".toList ++ [129, 5]) =
      .ok ("GET /any HTTP/1.1\r\nHost: proxy\r\nUpgrade: websocket\r\n\r\n".toList, [129, 5]) := by
    decide +kernel
  have hnew : Request.new "GET /any HTTP/1.1\r\nHost: proxy\r\nUpgrade: websocket\r\n\r\n".toList =
      .ok ⟨"GET".toList, "/any".toList, "HTTP/1.1".toList,
        [("Host".toList, "proxy".toList), ("Upgrade".toList, "websocket".toList)]⟩ := by decide +kernel
  obtain ⟨hop, hhop, haddr, hthrough⟩ := @session_head parseWs ["WARNING".toList] [] "DevTools listening on".toList
    "ws://h:1/b".toList ⟨['h'], ['1'], ['/', 'b']⟩ (by decide +kernel) (by decide +kernel) (by decide) (by decide)
    (by decide) "10.0.0.7:9222".toList (by decide) _ _ _ _ hread hnew (by decide +kernel)
  refine ⟨hop, hhop, haddr, hthrough.trans ?_⟩
  decide +kernel

end WayPoint.Container
