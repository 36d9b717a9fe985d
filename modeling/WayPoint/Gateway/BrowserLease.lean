import WayPoint.Gateway.ConnectionDialogue

/-! Whether a connection gives back the browser it claimed. The kill is issued when the connection
closes, so a browser whose claim was not followed by a connection stays with the proxy. -/
namespace WayPoint.Gateway
open Foundations Manager Program

variable {config : ChromeWarmpoolProxyConfig} {x : String}

/-- What happens during a connection: its own steps and the sections of everybody else. -/
abbrev ProxyEvent := Event Remote.Reply Section.Reply InnerService

/-- A claim of the connection attaches `x` to the proxy, whatever the connection learns of it. -/
def ClaimAttaches (config : ChromeWarmpoolProxyConfig) (x : String) : ProxyEvent → Prop
  | .own (.tryUpdateInstanceDescription request) s _ s' => request = config.claimRequest ⟨x⟩ ∧
      ¬ HasParent s x config.instanceId.instanceId ∧ HasParent s' x config.instanceId.instanceId
  | _ => False

def Attached (config : ChromeWarmpoolProxyConfig) (past : List ProxyEvent) (x : String) : Prop :=
  ∃ e ∈ past, ClaimAttaches config x e

/-- Every browser the connection attached to the proxy was sent a kill. -/
def NoLeakedLease (config : ChromeWarmpoolProxyConfig) (past : List ProxyEvent) : Prop :=
  ∀ x, Attached config past x → KillIssued (ownCalls past) x

variable {s t : InnerService} {past : List ProxyEvent}

private theorem logged_credible {α : Type} {p q : Program Remote.Reply α} (hs : Named s)
    (h : Logged delivers serves s p past q t) : ∀ e ∈ ownCalls past, Credible e.1 e.2 := by
  have hreplies := h.replies (I := Named) (P := Credible) hs
    (fun _ _ _ _ hs hserve => ⟨delivers_credible hs hserve, delivers_named hs hserve⟩)
    (fun _ _ _ _ hs hserve => serves_named hs hserve)
  intro e he
  obtain ⟨c, r⟩ := e
  obtain ⟨u, u', hmem⟩ := mem_ownCalls.mp he
  exact hreplies.2 c u r u' hmem

/-- A finished connection gave back all it attached if and only if every browser it attached was
handed over to an open connection. It may find the store in the middle of other requests. -/
theorem noLeakedLease_iff (hs : Named s) {client : List UInt8} {outcome : Except Error Unit}
    (h : Logged delivers serves s (startHttpProxyConnection config client).run past (.done outcome) t) :
    NoLeakedLease config past ↔ ∀ x, Attached config past x → Handed config (ownCalls past) x := by
  have hp := logged_credible hs h
  have hkill := startHttpProxyConnection_dialogue hp h.dialogue
  exact forall_congr' fun x => imp_congr_right fun _ => hkill x

instance (config : ChromeWarmpoolProxyConfig) (x : String) : DecidablePred (ClaimAttaches config x)
  | .own c _ r _ =>
    match c, r with
    | .tryUpdateInstanceDescription _, _ => inferInstanceAs (Decidable (_ ∧ _ ∧ _))
    | .getAllInstances _, _ | .getInstance _, _ | .now, _ | .connect _, _ | .writeAll _, _ |
      .copyBidirectional, _ => isFalse id
  | .other _ _ _ _ => isFalse id

instance (config : ChromeWarmpoolProxyConfig) (past : List ProxyEvent) (x : String) :
    Decidable (Attached config past x) :=
  inferInstanceAs (Decidable (∃ e ∈ past, ClaimAttaches config x e))

instance (said : Said) (x : String) : Decidable (KillIssued said x) :=
  inferInstanceAs (Decidable (∃ e ∈ said, e.1 = _))

/-- A proxy, and a browser with an address that has just reported. -/
def readyBrowser : List (TimestampMs × Rpc) :=
  [(⟨1000⟩, .tryAddInstance
      { instanceId := some ⟨"proxy"⟩, instanceType := some InstanceType.warmpoolChromeProxy.toI32 }),
    (⟨2000⟩, .tryAddInstance
      { instanceId := some ⟨"chrome"⟩, instanceType := some InstanceType.chromeBrowser.toI32,
        services := some { chromeDebugPortService := some "10.0.0.7:9222" } }),
    (⟨9000⟩, .tryUpdateInstanceDescription { instanceId := some ⟨"chrome"⟩, healthCheck := some {} })]

def debugProxy : ChromeWarmpoolProxyConfig := ⟨⟨"proxy"⟩, .CDP⟩

def upgradeRequest : List UInt8 := "GET / HTTP/1.1\r\n\r\n".toList.map (fun c => UInt8.ofNat c.toNat)

/-- A network that loses nothing, to a browser that no longer listens. -/
def Remote.executeRefusing (time : TimestampMs) (c : Remote) (s : InnerService) :
    c.Reply × InnerService :=
  match c with
  | .connect _ => (false, s)
  | c => c.execute time s

private theorem delivers_executeRefusing (time : TimestampMs) (c : Remote) (s : InnerService) :
    delivers c s (c.executeRefusing time s).1 (c.executeRefusing time s).2 := by
  have h := delivers_execute time c s
  cases c with
  | connect addr => rfl
  | _ => exact h

/-- One connection with nobody else around. -/
def soleConnection (serve : (c : Remote) → InnerService → c.Reply × InnerService) :
    List ProxyEvent × Except Error Unit × InnerService :=
  play serve (startHttpProxyConnection debugProxy upgradeRequest).run (replay ∅ readyBrowser) []

private theorem soleConnection_logged {serve : (c : Remote) → InnerService → c.Reply × InnerService}
    (h : ∀ c s, delivers c s (serve c s).1 (serve c s).2) :
    Logged delivers serves (replay ∅ readyBrowser)
      (startHttpProxyConnection debugProxy upgradeRequest).run (soleConnection serve).1
      (.done (soleConnection serve).2.1) (soleConnection serve).2.2 :=
  logged_play h .nil

/-- The connect fails after the claim: the handler returns, and the browser stays with the proxy. -/
theorem refusedConnection_leaks :
    let connection := soleConnection (Remote.executeRefusing ⟨9500⟩)
    Reachable (replay ∅ readyBrowser) ∧
    Logged delivers serves (replay ∅ readyBrowser) (startHttpProxyConnection debugProxy upgradeRequest).run
      connection.1 (.done (.error (.ioError "Failed to connect to instance"))) connection.2.2 ∧
    ¬ NoLeakedLease debugProxy connection.1 ∧
    HasParent connection.2.2 "chrome" "proxy" ∧ Alive connection.2.2 "chrome" := by
  intro connection
  have hattached : Attached debugProxy connection.1 "chrome" := by decide +kernel
  have hnokill : ¬ KillIssued (ownCalls connection.1) "chrome" := by decide +kernel
  have hend : connection.2.1 = .error (.ioError "Failed to connect to instance") := by
    decide +kernel
  have hlogged := soleConnection_logged (delivers_executeRefusing ⟨9500⟩)
  rw [hend] at hlogged
  exact ⟨Reachable.empty.replay readyBrowser, hlogged, fun h => hnokill (h "chrome" hattached),
    by decide +kernel, by decide +kernel⟩

/-- The instance an update names. -/
def Remote.updates : Remote → Option InstanceId
  | .tryUpdateInstanceDescription request => request.instanceId
  | _ => none

private theorem eq_of_attached {id : InstanceId} (h : ∀ e ∈ ownCalls past, ∀ x ∈ e.1.updates, x = id)
    (hx : Attached config past x) : (⟨x⟩ : InstanceId) = id := by
  obtain ⟨e, he, hclaim⟩ := hx
  unfold ClaimAttaches at hclaim
  split at hclaim
  · next request s r s' =>
    apply h _ (mem_ownCalls.mpr ⟨s, s', he⟩)
    rw [Remote.updates, hclaim.1]
    rfl
  · exact hclaim.elim

/-- A connection that is opened and closed again hands its browser over and kills it. -/
theorem noLeakedLease_iff_openedConnection :
    Handed debugProxy (ownCalls (soleConnection (Remote.execute ⟨9500⟩)).1) "chrome" := by
  have hupdates : ∀ e ∈ ownCalls (soleConnection (Remote.execute ⟨9500⟩)).1,
      ∀ x ∈ e.1.updates, x = ⟨"chrome"⟩ := by decide +kernel
  have hattached : Attached debugProxy (soleConnection (Remote.execute ⟨9500⟩)).1 "chrome" := by
    decide +kernel
  have hkill : KillIssued (ownCalls (soleConnection (Remote.execute ⟨9500⟩)).1) "chrome" := by
    decide +kernel
  refine (noLeakedLease_iff (Reachable.empty.replay readyBrowser).consistent.named
    (soleConnection_logged (delivers_execute ⟨9500⟩))).mp ?_ "chrome" hattached
  intro x hx
  obtain rfl : x = "chrome" := congrArg InstanceId.instanceId (eq_of_attached hupdates hx)
  exact hkill

end WayPoint.Gateway
