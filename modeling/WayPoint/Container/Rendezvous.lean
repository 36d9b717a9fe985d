import WayPoint.Container.Supervision
import WayPoint.Gateway.BrowserLease
import WayPoint.Gateway.ExclusiveSession
import WayPoint.Manager.Directory

/-! Where the connections of all proxies go. A proxy learns a browser's address from the manager before it
claims the browser, and everything it sends goes there. -/
namespace WayPoint.Container
open Foundations Manager Program System Gateway

/-- The address of the service that a proxy is for. -/
def address : ProxyType → Services → Option String
  | .CDP, services => services.chromeDebugPortService
  | .TZAFONWRIGHT, services => services.tzafonwrightService

private theorem serviceAddress_eq (config : ChromeWarmpoolProxyConfig) (d : InstanceDescription) :
    config.serviceAddress d = d.services.bind (address config.proxyType) := by
  obtain ⟨id, proxyType⟩ := config
  cases proxyType with
  | CDP | TZAFONWRIGHT => rfl

private theorem address_same {a b : Services} (h : a.Same b) (proxyType : ProxyType) :
    address proxyType a = address proxyType b := by
  cases proxyType with
  | CDP => exact h.1
  | TZAFONWRIGHT => exact h.2

/-- The request of a client that closes once it has sent these bytes. -/
def received (client : List UInt8) : Except Error Request := do
  let (data, _) ← readUntilEmptyLine [] client
  Request.new data

/-- A client's request as the browser at an address is to get it: the path is `/`, and the address stands as
`Host` behind the client's headers but those spelled `Host`. One spelled otherwise, such as `host`, is kept. -/
def readdressed (serverAddr : String) (request : Request) : Request where
  method := request.method
  path := ['/']
  version := request.version
  headers := request.headers.filter (fun header => decide (header.1 ≠ "Host".toList)) ++
    [("Host".toList, serverAddr.toList)]

/-- That is what the proxy makes of it. -/
theorem modifyRequest_claimedConfig (serverAddr : String) (request : Request) :
    (claimedConfig serverAddr.toList).modifyRequest
      (FiniteMap.listing (claimedConfig serverAddr.toList).overideHeaders) request =
        readdressed serverAddr request := by
  have hmap : (claimedConfig serverAddr.toList).overideHeaders =
      (∅ : FiniteMap Text Text).insert "Host".toList serverAddr.toList := rfl
  have hname (name : Text) : name ∉ (claimedConfig serverAddr.toList).overideHeaders ↔ name ≠ "Host".toList := by
    rw [hmap, Finmap.mem_insert, not_or]
    exact and_iff_left Finmap.notMem_empty
  rw [HttpProxyConfig.modifyRequest, readdressed]
  congr 1
  refine congrArg₂ (· ++ ·) (List.filter_congr fun header _ => decide_eq_decide.mpr (hname header.1)) ?_
  rfl

/-- What a step writes to the browser, in bytes. -/
def bytes : Remote → List UInt8
  | .writeAll text => utf8 text
  | _ => []

def written (said : Said) : List UInt8 := said.flatMap fun e => bytes e.1

private theorem written_append (said rest : Said) : written (said ++ rest) = written said ++ written rest :=
  List.flatMap_append

/-- The manager describes instances under their own ids and with the services of the directory. -/
def Truthful (directory : Directory) : Sigma Remote.Reply → Prop
  | ⟨.getInstance id, .ok d⟩ => d.instanceId = some id ∧ directory.Lists id.instanceId d
  | _ => True

section connection
variable {directory : Directory} {config : ChromeWarmpoolProxyConfig} {client : List UInt8} {said : Said}

/-- The connection stands: `x` was claimed, and the connect to its address succeeded. -/
structure Connected (directory : Directory) (config : ChromeWarmpoolProxyConfig) (said : Said) (x serverAddr : String) :
    Prop where
  acknowledged : Acknowledged config said x
  address : address config.proxyType (directory x) = some serverAddr
  connected : (⟨.connect serverAddr.toList, true⟩ : Sigma Remote.Reply) ∈ said

theorem Connected.mono {x serverAddr : String} (h : Connected directory config said x serverAddr) (later : Said) :
    Connected directory config (said ++ later) x serverAddr :=
  ⟨List.mem_append_left _ h.acknowledged, h.address, List.mem_append_left _ h.connected⟩

/-- A connection connects once, to a browser it claimed, writes the client's request for that browser and nothing
else, copies when all of it is written, and kills that browser only. -/
def Orderly (directory : Directory) (config : ChromeWarmpoolProxyConfig) (client : List UInt8) (said : Said) :
    Sigma Remote.Reply → Prop
  | ⟨.connect addr, _⟩ => (∀ e ∈ said, ∀ other, e.1 ≠ .connect other) ∧ ∃ x serverAddr,
      Acknowledged config said x ∧ address config.proxyType (directory x) = some serverAddr ∧
        addr = serverAddr.toList
  | ⟨.writeAll text, _⟩ => ∃ x serverAddr request, Connected directory config said x serverAddr ∧
      received client = .ok request ∧ written said ++ utf8 text <+: (readdressed serverAddr request).wire
  | ⟨.copyBidirectional, _⟩ => ∃ x serverAddr request, Connected directory config said x serverAddr ∧
      received client = .ok request ∧ written said = (readdressed serverAddr request).wire
  | ⟨.tryUpdateInstanceDescription request, _⟩ => ∀ x, request = killRequest x →
      ∃ serverAddr, Connected directory config said x serverAddr
  | _ => True

/-- What is found is claimed, and described as the directory has it. -/
def Found (directory : Directory) (config : ChromeWarmpoolProxyConfig) (said : Said) :
    Except Error InstanceDescription → Prop
  | .ok d => (∀ e ∈ said, Claiming config e.1) ∧ ∃ x, d.instanceId = some ⟨x⟩ ∧ Acknowledged config said x ∧
      directory.Lists x d
  | .error _ => True

private theorem claiming_concat (h : ∀ e ∈ said, Claiming config e.1) {c : Remote} (hc : Claiming config c)
    (r : c.Reply) :
    ∀ e ∈ said ++ [⟨c, r⟩], Claiming config e.1 := by
  intro e he
  rcases List.mem_append.mp he with he | he
  · exact h e he
  · rw [List.mem_singleton.mp he]
    exact hc

private theorem orderly_claim (id : InstanceId) (r : Except Status Bool) :
    Orderly directory config client said ⟨.tryUpdateInstanceDescription (config.claimRequest id), r⟩ :=
  fun x heq => absurd heq.symm (killRequest_ne_claimRequest x id)

private theorem conforms_claimFirst (ids : List InstanceId) (hsaid : ∀ e ∈ said, Claiming config e.1) :
    (config.claimFirst ids).run.Conforms (Truthful directory) (Orderly directory config client)
      (Found directory config) said := by
  induction ids generalizing said with
  | nil => exact True.intro
  | cons id ids ih =>
    have hget (r : Except Status InstanceDescription) := claiming_concat hsaid (Or.inr (Or.inr ⟨id, Or.inl rfl⟩)) r
    rw [ChromeWarmpoolProxyConfig.claimFirst, run_remote_bind]
    rintro (_ | d) htrue
    · exact ⟨True.intro, ih (hget _)⟩
    · refine ⟨True.intro, ?_⟩
      simp only []
      split
      · exact ih (hget _)
      · rw [run_remote_bind]
        intro now _
        have hnow := claiming_concat (hget (.ok d)) (Or.inr (Or.inl rfl)) now
        refine ⟨True.intro, ?_⟩
        simp only []
        split
        · rw [run_remote_bind]
          have hclaim (r : Except Status Bool) := claiming_concat hnow (Or.inr (Or.inr ⟨id, Or.inr rfl⟩)) r
          rintro (_ | _ | _) _
          · exact ⟨orderly_claim id _, ih (hclaim _)⟩
          · exact ⟨orderly_claim id _, ih (hclaim _)⟩
          · exact ⟨orderly_claim id _, hclaim _, id.instanceId, htrue.1, List.mem_append_right _ List.mem_cons_self,
              htrue.2⟩
        · exact ih hnow

private theorem conforms_getInstance : config.getInstance.run.Conforms (Truthful directory)
    (Orderly directory config client)
    (Found directory config) [] := by
  rw [ChromeWarmpoolProxyConfig.getInstance, run_remote_bind]
  rintro (_ | ids) _
  · exact ⟨True.intro, True.intro⟩
  · refine ⟨True.intro, conforms_claimFirst ids ?_⟩
    have hnothing : ∀ e ∈ ([] : Said), Claiming config e.1 := fun e he => absurd he List.not_mem_nil
    exact claiming_concat hnothing (Or.inl ⟨_, rfl⟩) _

private theorem written_eq_nil (h : ∀ e ∈ said, ∀ text, e.1 ≠ .writeAll text) : written said = [] := by
  refine List.flatMap_eq_nil_iff.mpr fun e he => ?_
  obtain ⟨c, r⟩ := e
  cases c with
  | writeAll text => exact absurd rfl (h _ he text)
  | getAllInstances | getInstance | tryUpdateInstanceDescription | now | connect | copyBidirectional => rfl

private theorem claiming_ne {c : Remote} (h : Claiming config c) :
    (∀ addr, c ≠ .connect addr) ∧ ∀ text, c ≠ .writeAll text := by
  rcases h with ⟨_, rfl⟩ | rfl | ⟨_, rfl | rfl⟩
  all_goals exact ⟨fun _ heq => (by cases heq), fun _ heq => (by cases heq)⟩

/-- What a new connection is: the browser's, with nothing written to it yet. -/
def Ready (directory : Directory) (config : ChromeWarmpoolProxyConfig) (request : Request) (said : Said) :
    Except Error ChromeWarmpoolProxyConfig.HttpProxyInstance → Prop
  | .ok instance_ => written said = [] ∧ ∃ serverAddr,
      Connected directory config said instance_.instanceId serverAddr ∧
        instance_.request = readdressed serverAddr request
  | .error _ => True

private theorem conforms_newConnection (request : Request) :
    (config.newConnection request).run.Conforms (Truthful directory)
    (Orderly directory config client) (Ready directory config request) [] := by
  refine conforms_except_bind conforms_getInstance (fun said d hfound => ?_) fun _ _ _ => True.intro
  obtain ⟨hclaiming, x, hx, hack, hlists⟩ := hfound
  simp only [hx]
  cases haddress : config.serviceAddress d with
  | none =>
    simp only [ChromeWarmpoolProxyConfig.getProxyConfig, haddress]
    exact True.intro
  | some serverAddr =>
    have hlisted : address config.proxyType (directory x) = some serverAddr := by
      rw [serviceAddress_eq] at haddress
      obtain ⟨services, hservices, haddr⟩ := Option.bind_eq_some_iff.mp haddress
      rw [← address_same (hlists services hservices)]
      exact haddr
    have hnew : ∀ e ∈ said, ∀ addr, e.1 ≠ .connect addr := fun e he => (claiming_ne (hclaiming e he)).1
    rw [getProxyConfig_eq config haddress]
    intro r _
    refine ⟨⟨hnew, x, serverAddr, hack, hlisted, rfl⟩, ?_⟩
    cases r with
    | false => exact True.intro
    | true =>
      refine ⟨?_, serverAddr, ⟨List.mem_append_left _ hack, hlisted, List.mem_append_right _ List.mem_cons_self⟩,
        modifyRequest_claimedConfig serverAddr request⟩
      rw [written_append, written_eq_nil fun e he => (claiming_ne (hclaiming e he)).2]
      rfl

/-- The connection stands, and so much of the head has been written. -/
structure Sending (directory : Directory) (config : ChromeWarmpoolProxyConfig) (client : List UInt8) (x : String)
    (head sent : List UInt8) (said : Said) : Prop where
  opened : ∃ serverAddr request, Connected directory config said x serverAddr ∧ received client = .ok request ∧
    head = (readdressed serverAddr request).wire
  sent : written said = sent

variable {x : String} {head sent : List UInt8}

theorem Sending.concat (h : Sending directory config client x head sent said) (c : Remote) (r : c.Reply) :
    Sending directory config client x head (sent ++ bytes c) (said ++ [⟨c, r⟩]) := by
  obtain ⟨serverAddr, request, hconnected, hreceived, hhead⟩ := h.opened
  refine ⟨⟨serverAddr, request, hconnected.mono _, hreceived, hhead⟩, ?_⟩
  rw [written_append, h.sent]
  exact congrArg (sent ++ ·) (List.append_nil _)

/-- After the head has been written the rest of it is written, as far as the browser takes it. -/
def Sent (directory : Directory) (config : ChromeWarmpoolProxyConfig) (client : List UInt8) (x : String)
    (head : List UInt8) (said : Said) (r : Except Error Unit) : Prop :=
  ∃ sent, Sending directory config client x head sent said ∧ (r = .ok () → sent = head)

private theorem conforms_writeToStream (pieces : List Text) (h : Sending directory config client x head sent said)
    (hhead : sent ++ pieces.flatMap utf8 = head) : (writeToStream pieces).run.Conforms (Truthful directory)
      (Orderly directory config client) (Sent directory config client x head) said := by
  induction pieces generalizing said sent with
  | nil => exact ⟨sent, h, fun _ => by rw [← hhead, List.flatMap_nil, List.append_nil]⟩
  | cons piece pieces ih =>
    rw [List.flatMap_cons, ← List.append_assoc] at hhead
    rw [writeToStream, run_remote_bind]
    intro r _
    have horderly : Orderly directory config client said ⟨.writeAll piece, r⟩ := by
      obtain ⟨serverAddr, request, hconnected, hreceived, heq⟩ := h.opened
      refine ⟨x, serverAddr, request, hconnected, hreceived, ?_⟩
      rw [h.sent, ← heq, ← hhead]
      exact List.prefix_append _ _
    refine ⟨horderly, ?_⟩
    cases r with
    | false => exact ⟨_, h.concat (.writeAll piece) false, fun heq => (by cases heq)⟩
    | true => exact ih (h.concat (.writeAll piece) true) hhead

private theorem conforms_spawnedTask {instance_ : ChromeWarmpoolProxyConfig.HttpProxyInstance}
    (h : Sending directory config client instance_.instanceId instance_.request.wire [] said) :
    (spawnedTask instance_).Conforms (Truthful directory) (Orderly directory config client) (fun _ _ => True) said := by
  have htraffic : (proxyTraffic instance_.request).run.Conforms (Truthful directory)
      (Orderly directory config client) (fun said _ => ∃ sent,
        Sending directory config client instance_.instanceId instance_.request.wire sent said) said := by
    refine conforms_except_bind (conforms_writeToStream instance_.request.pieces h rfl) (fun said _ hsent => ?_)
      fun said _ hsent => hsent.imp fun _ => And.left
    obtain ⟨sent, hsending, hall⟩ := hsent
    obtain rfl := hall rfl
    intro r _
    obtain ⟨serverAddr, request, hconnected, hreceived, heq⟩ := hsending.opened
    refine ⟨⟨_, serverAddr, request, hconnected, hreceived, hsending.sent.trans heq⟩, ?_⟩
    cases r with
    | false | true => exact ⟨_, hsending.concat .copyBidirectional _⟩
  refine conforms_bind htraffic fun said _ hsending => ?_
  obtain ⟨sent, hsending⟩ := hsending
  obtain ⟨serverAddr, _, hconnected, _, _⟩ := hsending.opened
  intro r _
  refine ⟨fun x heq => ?_, ?_⟩
  · have hid := Option.some.inj (congrArg InstanceDescription.instanceId heq)
    obtain rfl : instance_.instanceId = x := congrArg InstanceId.instanceId hid
    exact ⟨serverAddr, hconnected⟩
  · cases r with
    | error | ok => exact True.intro

theorem conforms_connection (directory : Directory) (config : ChromeWarmpoolProxyConfig) (client : List UInt8) :
    (startHttpProxyConnection config client).run.Conforms (Truthful directory) (Orderly directory config client)
      (fun _ _ => True) [] := by
  have hserve (request : Request) (hreceived : received client = .ok request) :
      (config.newConnection request >>= fun instance_ =>
        (ExceptT.lift (spawnedTask instance_) : Gateway.Task Unit)).run.Conforms (Truthful directory)
          (Orderly directory config client) (fun _ _ => True) [] := by
    refine conforms_except_bind (conforms_newConnection request) (fun said instance_ hready => ?_)
      fun _ _ _ => True.intro
    obtain ⟨hnothing, serverAddr, hconnected, hready⟩ := hready
    have hsending : Sending directory config client instance_.instanceId instance_.request.wire [] said :=
      ⟨⟨serverAddr, request, hconnected, hreceived, by rw [hready]⟩, hnothing⟩
    exact conforms_bind (conforms_spawnedTask hsending) fun _ _ _ => True.intro
  unfold startHttpProxyConnection
  cases hread : readUntilEmptyLine [] client with
  | error e => exact True.intro
  | ok head =>
    change ((liftM (Request.new head.1) : Gateway.Task Request) >>= fun request => config.newConnection request >>=
      fun instance_ => (ExceptT.lift (spawnedTask instance_) : Gateway.Task Unit)).run.Conforms _ _ _ _
    cases hrequest : Request.new head.1 with
    | error e => exact True.intro
    | ok request =>
      refine hserve request ?_
      rw [received, hread]
      exact hrequest

end connection
section system
variable {ι : Type} {directory : Directory} {proxy : ι → ChromeWarmpoolProxyConfig} {client : ι → List UInt8}

/-- Connections of any number of proxies, among clients of the manager that announce what the directory says and
take no entry back. -/
def connections (directory : Directory) (proxy : ι → ChromeWarmpoolProxyConfig) (client : ι → List UInt8) :
    System ι Remote.Reply InnerService (Except Error Unit) where
  program i := (startHttpProxyConnection (proxy i) (client i)).run
  serves := delivers
  environment s s' := ∃ (c : Section) (r : c.Reply), c.Keeps ∧ directory.Announced c ∧ serves c s r s'

/-- No browser gives the address of another one. -/
def Distinct (directory : Directory) : Prop :=
  ∀ x y a b serverAddr, address a (directory x) = some serverAddr → address b (directory y) = some serverAddr → x = y

/-- The requests of proxies give no services. -/
def Silent : Remote → Prop
  | .tryUpdateInstanceDescription request => request.services = none
  | _ => True

private theorem silent_spawnedTask (instance_ : ChromeWarmpoolProxyConfig.HttpProxyInstance) :
    (spawnedTask instance_).Within Silent := by
  have hserving {c : Remote} (hc : Serving instance_.instanceId c) : Silent c := by
    rcases hc with ⟨_, rfl⟩ | rfl | rfl
    · exact True.intro
    · exact True.intro
    · exact rfl
  refine ((proxyTraffic_within instance_.instanceId instance_.request).mono fun _ => hserving).bind fun _ => ?_
  refine ⟨rfl, fun r => ?_⟩
  cases r with
  | error | ok => exact True.intro

private theorem silent_connection (config : ChromeWarmpoolProxyConfig) (client : List UInt8) :
    (startHttpProxyConnection config client).run.Within Silent := by
  have hclaiming {c : Remote} (hc : Claiming config c ∨ ∃ addr, c = .connect addr) : Silent c := by
    rcases hc with (⟨_, rfl⟩ | rfl | ⟨_, rfl | rfl⟩) | ⟨_, rfl⟩
    · exact True.intro
    · exact True.intro
    · exact True.intro
    · exact rfl
    · exact True.intro
  have hserve (request : Request) : (config.newConnection request >>= fun instance_ =>
      (ExceptT.lift (spawnedTask instance_) : Gateway.Task Unit)).run.Within Silent := by
    refine ((newConnection_within config request).mono fun _ => hclaiming).bind fun r => ?_
    cases r with
    | error e => exact True.intro
    | ok instance_ => exact (silent_spawnedTask instance_).bind fun _ => True.intro
  unfold startHttpProxyConnection
  cases hread : readUntilEmptyLine [] client with
  | error e => exact True.intro
  | ok head =>
    change ((liftM (Request.new head.1) : Gateway.Task Request) >>= fun request => config.newConnection request >>=
      fun instance_ => (ExceptT.lift (spawnedTask instance_) : Gateway.Task Unit)).run.Within _
    cases hrequest : Request.new head.1 with
    | error e => exact True.intro
    | ok request => exact hserve request

variable {s s' : InnerService} {c : Remote} {r : c.Reply}

private theorem delivers_keeps (hs : Named s) (hkeeps : directory.Keeps s) (hc : Silent c) (h : delivers c s r s') :
    directory.Keeps s' := by
  have hran {β : Type} {handler : Handler (Except Status β)} {r : Except Status β}
      (hhandler : handler.Within directory.Announced) (h : Exchange handler s r s') : directory.Keeps s' := by
    rcases h.ran_or_same with ⟨_, hrun⟩ | rfl
    · exact Directory.keeps_runs hhandler hs hkeeps hrun
    · exact hkeeps
  cases c with
  | getAllInstances | getInstance =>
    refine hran ?_ h
    exact ⟨True.intro, fun _ => True.intro⟩
  | tryUpdateInstanceDescription request =>
    refine hran ?_ h
    unfold tryUpdateInstanceDescription
    split
    · exact Directory.announced_locked fun _ _ => Directory.lists_of_none hc
    · exact True.intro
  | now | connect | writeAll | copyBidirectional =>
    obtain rfl : s' = s := h
    exact hkeeps

private theorem delivers_truthful (hs : Named s) (hkeeps : directory.Keeps s) (h : delivers c s r s') :
    Truthful directory ⟨c, r⟩ := by
  cases c with
  | getInstance id =>
    cases r with
    | error e => exact True.intro
    | ok d =>
      refine ⟨delivers_credible hs h, ?_⟩
      cases h with
      | delivered hrun =>
        have hd := (runs_get hrun).2
        unfold getInstanceDescription at hd
        split at hd
        · cases hd
        · next hlookup =>
          cases hd
          exact hkeeps _ _ hlookup
  | getAllInstances | tryUpdateInstanceDescription | now | connect | writeAll | copyBidirectional => exact True.intro

variable {cfg : Config ι Remote.Reply InnerService (Except Error Unit)}
  {past : List (ι × Served Remote.Reply InnerService)}

/-- The addresses that were connected to, the latest first. -/
def dialled (past : List (ι × Served Remote.Reply InnerService)) : List Text :=
  past.filterMap fun e => match e.2.call with
    | .connect addr => some addr
    | _ => none

private theorem mem_dialled {addr : Text} : addr ∈ dialled past ↔ ∃ e ∈ past, e.2.call = .connect addr := by
  simp only [dialled, List.mem_filterMap]
  refine exists_congr fun e => and_congr_right fun _ => ?_
  split
  · next other hother => simp [hother]
  · next hother => exact iff_of_false nofun (hother addr)

/-- Addresses are connected to once where no address is connected to again. -/
private theorem nodup_dialled
    (h : ∀ e earlier addr, e :: earlier <:+ past → e.2.call = .connect addr → addr ∉ dialled earlier) :
    (dialled past).Nodup := by
  induction past with
  | nil => exact List.nodup_nil
  | cons e past ih =>
    have hrest := ih fun e earlier addr hsuffix => h e earlier addr (hsuffix.trans (List.suffix_cons _ _))
    unfold dialled
    rw [List.filterMap_cons]
    split
    · exact hrest
    · next addr haddr =>
      split at haddr
      · next other hcall =>
        cases haddr
        exact List.nodup_cons.mpr ⟨h e past addr List.suffix_rfl hcall, hrest⟩
      · cases haddr

variable [DecidableEq ι]

/-- The store stays consistent and agrees with the directory. -/
def Sound (directory : Directory) (s : InnerService) : Prop := Consistent s ∧ directory.Keeps s

private theorem sound_of_traced (hs : Sound directory s)
    (h : (connections directory proxy client).Traced (.initial s) past cfg) :
    ∀ e ∈ past, Sound directory e.2.before := by
  have hcall (c : Remote) (s : InnerService) (r : c.Reply) (s' : InnerService) (hc : Silent c)
      (hs : Sound directory s) (hserve : delivers c s r s') : Sound directory s' :=
    ⟨(delivers_advances hs.1 hserve).1, delivers_keeps hs.1.named hs.2 hc hserve⟩
  have henv (s s' : InnerService) (hs : Sound directory s)
      (henv : (connections directory proxy client).environment s s') : Sound directory s' := by
    obtain ⟨c, r, hkeep, hannounced, hserve⟩ := henv
    exact ⟨(Interference.advances hs.1 ⟨c, r, hkeep, hserve⟩).1,
      Directory.keeps_serves hs.1.named hs.2 hannounced hserve⟩
  have hall := h.preserves (fun i => silent_connection (proxy i) (client i)) hs hcall henv
  exact fun e he => (hall.2 e he).2.1

/-- Every connection is orderly at every moment. -/
theorem orderly_of_traced (hs : Sound directory s)
    (h : (connections directory proxy client).Traced (.initial s) past cfg) (i : ι)
    (e : Served Remote.Reply InnerService) (earlier : List (ι × Served Remote.Reply InnerService))
    (hsuffix : (i, e) :: earlier <:+ past) :
    Orderly directory (proxy i) (client i) (told i earlier) e.said := by
  have hsound := sound_of_traced hs h
  have htruthful (e : ι × Served Remote.Reply InnerService) (he : e ∈ past) : Truthful directory e.2.said :=
    delivers_truthful (hsound e he).1.named (hsound e he).2 (h.served e he)
  exact (h.conforms_of_replies (conforms_connection directory (proxy i) (client i)) htruthful).2 e earlier hsuffix

private theorem acknowledged_cons {i j : ι} {e : Served Remote.Reply InnerService} {x : String}
    (h : Acknowledged (proxy j) (told j ((i, e) :: past)) x) : Acknowledged (proxy j) (told j past) x ∨
      j = i ∧ e.said = ⟨.tryUpdateInstanceDescription ((proxy j).claimRequest ⟨x⟩), .ok true⟩ := by
  by_cases hij : i = j
  · subst hij
    rw [Acknowledged, told_cons_self] at h
    rcases List.mem_append.mp h with h | h
    · exact Or.inl h
    · exact Or.inr ⟨rfl, (List.mem_singleton.mp h).symm⟩
  · rw [Acknowledged, told_cons_ne hij] at h
    exact Or.inl h

/-- Who was told that it has claimed a browser is its parent for ever, so nobody else is told the same. -/
theorem acknowledged_apart (hs : Consistent s)
    (h : (connections directory proxy client).Traced (.initial s) past cfg) {i j : ι} {x : String}
    (hi : Acknowledged (proxy i) (told i past) x) (hj : Acknowledged (proxy j) (told j past) x) : i = j := by
  have hall := h.events
    (I := fun past cfg => Consistent cfg.state ∧
      (∀ i x, Acknowledged (proxy i) (told i past) x → HasParent cfg.state x (proxy i).instanceId.instanceId) ∧
      ∀ i j x, Acknowledged (proxy i) (told i past) x → Acknowledged (proxy j) (told j past) x → i = j)
    (P := fun _ _ => True) ?_ ?_ ?_ ?_
  · exact hall.1.2.2 i j x hi hj
  · exact ⟨hs, fun i x h => absurd h List.not_mem_nil, fun i j x h _ => absurd h List.not_mem_nil⟩
  · exact fun past cfg i hI _ => hI
  · intro past cfg i c next r t hI hi served
    refine ⟨True.intro, ?_⟩
    obtain ⟨hconsistent, hparent, hapart⟩ := hI
    have hadvance := delivers_advances hconsistent served
    -- a claim that is acknowledged now was not acknowledged before
    have hnew {j : ι} {x : String}
        (hsaid : (⟨c, r⟩ : Sigma Remote.Reply) =
          ⟨.tryUpdateInstanceDescription ((proxy j).claimRequest ⟨x⟩), .ok true⟩) :
        (∀ p, ¬ HasParent cfg.state x p) ∧ HasParent t x (proxy j).instanceId.instanceId := by
      cases hsaid
      exact claim_attaches hconsistent rfl served
    refine ⟨hadvance.1, fun j x hj => ?_, fun j k x hj hk => ?_⟩
    · rcases acknowledged_cons hj with hold | ⟨_, hsaid⟩
      · exact hadvance.hasParent (hparent j x hold)
      · exact (hnew hsaid).2
    · rcases acknowledged_cons hj with hold | ⟨rfl, hsaid⟩ <;> rcases acknowledged_cons hk with hold' | ⟨rfl, hsaid'⟩
      · exact hapart j k x hold hold'
      · exact absurd (hparent j x hold) ((hnew hsaid').1 _)
      · exact absurd (hparent k x hold') ((hnew hsaid).1 _)
      · rfl
  · intro past cfg t hI henv
    obtain ⟨hconsistent, hparent, hapart⟩ := hI
    obtain ⟨c, r, hkeep, _, hserve⟩ := henv
    have hadvance := Interference.advances hconsistent ⟨c, r, hkeep, hserve⟩
    exact ⟨hadvance.1, fun i x hi => hadvance.hasParent (hparent i x hi), hapart⟩

/-- Whatever proxies, browsers and other clients do, a browser's address is connected to once at most, by a
connection that has claimed that browser, and gets nothing but the request of that connection's client,
readdressed to it. -/
theorem rendezvous (hs : Consistent s) (hkeeps : directory.Keeps s) (hdistinct : Distinct directory)
    (h : (connections directory proxy client).Traced (.initial s) past cfg) :
    (dialled past).Nodup ∧ ∀ i e earlier, (i, e) :: earlier <:+ past →
      Orderly directory (proxy i) (client i) (told i earlier) e.said := by
  have horderly := orderly_of_traced ⟨hs, hkeeps⟩ h
  refine ⟨nodup_dialled fun e earlier addr hsuffix hcall hmem => ?_, horderly⟩
  obtain ⟨e', he', hcall'⟩ := mem_dialled.mp hmem
  obtain ⟨i, c, before, r, after⟩ := e
  obtain ⟨j, c', before', r', after'⟩ := e'
  obtain rfl : c = .connect addr := hcall
  obtain rfl : c' = .connect addr := hcall'
  obtain ⟨hnew, x, serverAddr, hx, haddr, rfl⟩ := horderly i _ earlier hsuffix
  obtain ⟨later, first, rfl⟩ := List.append_of_mem he'
  have hfirst : (j, ⟨.connect serverAddr.toList, before', r', after'⟩) :: first <:+ past :=
    (List.suffix_append later _).trans ((List.suffix_cons _ _).trans hsuffix)
  obtain ⟨_, y, serverAddr', hy, haddr', heq⟩ := horderly j _ first hfirst
  obtain rfl := String.toList_injective heq
  obtain rfl := hdistinct x y _ _ _ haddr haddr'
  have hx' : Acknowledged (proxy i) (told i past) x := (told_grows ((List.suffix_cons _ _).trans hsuffix) i).subset hx
  have hy' : Acknowledged (proxy j) (told j past) x := (told_grows ((List.suffix_cons _ _).trans hfirst) j).subset hy
  obtain rfl := acknowledged_apart hs h hx' hy'
  exact hnew ⟨.connect serverAddr.toList, r'⟩ (mem_told.mpr ⟨before', after', he'⟩) _ rfl

end system

section container
variable {directory : Directory}

/-- A call that tells the manager of no services but those of the directory. -/
def Announces (directory : Directory) : Wait BrowserTask → Prop
  | .locked c => directory.Announced c
  | .update request | .post request => ∀ x ∈ request.instanceId, directory.Lists x.instanceId request
  | _ => True

private theorem announces_initializeHealthLoop {id : InstanceId} {instanceType : InstanceType} {services : Services}
    (h : services.Same (directory id.instanceId)) :
    (Async.initializeHealthLoop id instanceType (some services)).run.Within (Announces directory) := by
  refine within_bind (within_exchange True.intro True.intro (Directory.announced_tryAddInstance ?_)) fun added => ?_
  · intro x hx given hgiven
    cases hx
    cases hgiven
    exact h
  · rcases added with _ | _ | _
    · exact True.intro
    · exact True.intro
    · exact True.intro

/-- A container with an address of its own announces its own services only. -/
theorem announces_task (container : BrowserContainer) {ipAddress : String} (hip : container.ipAddress = some ipAddress)
    (hdirectory : (createServicesFromArgs ipAddress (some container.cdpPort) (some container.tzafonwrightPort)).Same
      (directory container.instanceId.instanceId)) (t : BrowserTask) :
    (container.task t).run.Within (Announces directory) := by
  have hnone {request : InstanceDescription} (h : request.services = none) :
      ∀ x ∈ request.instanceId, directory.Lists x.instanceId request := fun _ _ => Directory.lists_of_none h
  cases t with
  | main =>
    have hawait (c : Wait BrowserTask) (hc : Announces directory c) : (Async.await c).run.Within (Announces directory) :=
      within_await hc
    have hspawn (t : BrowserTask) : (Async.await (.spawn t)).run.Within (Announces directory) :=
      within_await True.intro
    have hchrome : BrowserContainer.startChrome.run.Within (Announces directory) :=
      within_bind (hawait .launch True.intro) fun _ => within_bind (within_require _ _) fun _ =>
        within_bind (hspawn _) fun _ => within_bind (hawait .announced True.intro) fun _ =>
          within_bind (within_orThrow _ _) fun _ => within_orThrow _ _
    have hwright : BrowserContainer.startTzafonwright.run.Within (Announces directory) :=
      within_bind (hawait .launch True.intro) fun _ => within_bind (within_require _ _) fun _ => hspawn _
    have hgateway : BrowserContainer.startGateway.run.Within (Announces directory) :=
      within_bind (hawait .bind True.intro) fun _ => within_bind (within_require _ _) fun _ => hspawn _
    have hmanager : (container.instanceManagerConnection (createServicesFromArgs ipAddress (some container.cdpPort)
        (some container.tzafonwrightPort))).run.Within (Announces directory) :=
      within_bind (hawait .channel True.intro) fun _ => within_bind (within_require _ _) fun _ =>
        within_bind (announces_initializeHealthLoop hdirectory) fun _ => within_bind (hspawn _) fun _ => hspawn _
    change container.main.run.Within (Announces directory)
    rw [BrowserContainer.main, BrowserContainer.getIpAddress, hip]
    exact within_pure_bind ipAddress (within_bind hchrome fun _ => within_bind hwright fun _ =>
      within_bind (within_orThrow _ _) fun _ => within_bind hgateway fun _ => within_bind hmanager fun _ =>
        hawait .cancelled True.intro)
  | chrome | tzafonwright => exact ⟨True.intro, fun _ => within_watch True.intro True.intro True.intro⟩
  | gateway => exact ⟨True.intro, fun _ => within_gateway True.intro True.intro True.intro True.intro _⟩
  | heartBeat =>
    exact ⟨True.intro, fun _ => within_heartBeats (W := Announces directory) True.intro True.intro True.intro (hnone rfl) _ _⟩
  | metrics =>
    exact ⟨True.intro, fun _ => within_metrics (W := Announces directory) True.intro True.intro True.intro
      (fun _ => hnone rfl) _⟩

/-- The container among clients that announce what the directory says. -/
def listed (directory : Directory) (container : BrowserContainer) :
    System BrowserTask (@Wait.Reply BrowserTask) (Host BrowserTask) (Except TaskError Unit) where
  program t := (container.task t).run
  serves := hostServes
  environment s s' := ∃ c r m, directory.Announced c ∧ Manager.serves c s.manager r m ∧
    s' = { s with manager := m }

private theorem hostServes_keeps {s s' : Host BrowserTask} {c : Wait BrowserTask} {r : c.Reply}
    (hs : Named s.manager ∧ directory.Keeps s.manager) (hc : Announces directory c) (h : hostServes c s r s') :
    Named s'.manager ∧ directory.Keeps s'.manager := by
  have hsection {c : Section} {r : c.Reply} {m : InnerService} (hc : directory.Announced c)
      (hserve : serves c s.manager r m) : Named m ∧ directory.Keeps m :=
    ⟨serves_named hs.1 hserve, Directory.keeps_serves hs.1 hs.2 hc hserve⟩
  cases c with
  | locked c =>
    obtain ⟨m, hserve, rfl⟩ := h
    exact hsection hc hserve
  | update request | post request =>
    obtain ⟨m, hexchange, rfl⟩ := h
    rcases (exchange_section hexchange).1 with heq | ⟨reply, hserve⟩
    · exact heq ▸ hs
    · exact hsection (c := .apply request) hc hserve
  | spawned | select | cancelled =>
    obtain ⟨_, rfl⟩ := h
    exact hs
  | further => exact h.elim
  | spawn t =>
    obtain rfl : s' = { s with spawned := Function.update s.spawned t true } := h
    exact hs
  | cancel =>
    obtain rfl : s' = { s with cancelled := true } := h
    exact hs
  | kill | connection | hostname | launch | announced | bind | channel | send | receive | readStats =>
    obtain rfl : s' = s := h
    exact hs

/-- Where everybody else announces what the directory says, containers keep the manager to it, as the
connections of proxies rely on. -/
theorem container_keeps {container : BrowserContainer} {ipAddress : String}
    (hip : container.ipAddress = some ipAddress)
    (hdirectory : (createServicesFromArgs ipAddress (some container.cdpPort) (some container.tzafonwrightPort)).Same
      (directory container.instanceId.instanceId)) {store : InnerService} (hnamed : Named store)
    (hkeeps : directory.Keeps store) {past : List (BrowserTask × Served (@Wait.Reply BrowserTask) (Host BrowserTask))}
    {cfg : Config BrowserTask (@Wait.Reply BrowserTask) (Host BrowserTask) (Except TaskError Unit)}
    (h : (listed directory container).Traced (.initial { manager := store }) past cfg) :
    directory.Keeps cfg.state.manager := by
  have hall := h.preserves (I := fun s => Named s.manager ∧ directory.Keeps s.manager)
    (announces_task container hip hdirectory) ⟨hnamed, hkeeps⟩ (fun c s r s' hc hs => hostServes_keeps hs hc) ?_
  · exact hall.1.2
  · intro s s' hs henv
    obtain ⟨c, r, m, hc, hserve, rfl⟩ := henv
    exact ⟨serves_named hs.1 hserve, Directory.keeps_serves hs.1 hs.2 hc hserve⟩

end container

/-- The browsers of two containers. -/
def twoBrowsers : Directory
  | "chrome" => { chromeDebugPortService := some "10.0.0.7:9222", tzafonwrightService := some "10.0.0.7:1337" }
  | "chrome2" => { chromeDebugPortService := some "10.0.0.8:9222", tzafonwrightService := some "10.0.0.8:1337" }
  | _ => {}

/-- A browser registers and reports. -/
def reporting (x : String) : List (TimestampMs × Rpc) :=
  [(⟨2000⟩, .tryAddInstance
      { instanceId := some ⟨x⟩, instanceType := some InstanceType.chromeBrowser.toI32,
        services := some (twoBrowsers x) }),
    (⟨9000⟩, .tryUpdateInstanceDescription { instanceId := some ⟨x⟩, healthCheck := some {} })]

def twoBrowsersReady : List (TimestampMs × Rpc) :=
  (⟨1000⟩, .tryAddInstance
    { instanceId := some ⟨"proxy"⟩, instanceType := some InstanceType.warmpoolChromeProxy.toI32 }) ::
    (reporting "chrome" ++ reporting "chrome2")

/-- One connection to each port of the proxy. -/
def bothPorts (i : Bool) : ChromeWarmpoolProxyConfig := ⟨⟨"proxy"⟩, if i then .CDP else .TZAFONWRIGHT⟩

def twoConnections : System Bool Remote.Reply InnerService (Except Error Unit) :=
  connections twoBrowsers bothPorts fun _ => upgradeRequest

def twoConnectionsRun : List (Bool × Served Remote.Reply InnerService) ×
    Config Bool Remote.Reply InnerService (Except Error Unit) :=
  twoConnections.chronicle (Remote.execute ⟨9500⟩) ([], .initial (replay ∅ twoBrowsersReady))
    (List.replicate 20 [true, false]).flatten

private theorem distinct_twoBrowsers : Distinct twoBrowsers := by
  -- the host in an address tells whose it is
  have howner {x serverAddr : String} {a : ProxyType} (h : address a (twoBrowsers x) = some serverAddr) :
      x = if serverAddr = "10.0.0.7:9222" ∨ serverAddr = "10.0.0.7:1337" then "chrome" else "chrome2" := by
    unfold twoBrowsers at h
    split at h
    · cases a with
      | CDP | TZAFONWRIGHT =>
        cases h
        decide
    · cases a with
      | CDP | TZAFONWRIGHT =>
        cases h
        decide
    · cases a with
      | CDP | TZAFONWRIGHT => cases h
  intro x y a b serverAddr hx hy
  rw [howner hx, howner hy]

/-- Each port's client gets a browser of its own. -/
theorem rendezvous_bothPorts :
    twoConnections.Traced (.initial (replay ∅ twoBrowsersReady)) twoConnectionsRun.1 twoConnectionsRun.2 ∧
    dialled twoConnectionsRun.1 = ["10.0.0.8:1337".toList, "10.0.0.7:9222".toList] ∧
    written (told true twoConnectionsRun.1) = utf8 "GET / HTTP/1.1\r\nHost: 10.0.0.7:9222\r\n\r\n".toList ∧
    (dialled twoConnectionsRun.1).Nodup ∧ ∀ i e earlier, (i, e) :: earlier <:+ twoConnectionsRun.1 →
      Orderly twoBrowsers (bothPorts i) upgradeRequest (told i earlier) e.said := by
  have hreachable : Reachable (replay ∅ twoBrowsersReady) := Reachable.empty.replay twoBrowsersReady
  have htells : ∀ e ∈ twoBrowsersReady, twoBrowsers.Tells e.2 := by decide
  have hkeeps : twoBrowsers.Keeps (replay ∅ twoBrowsersReady) :=
    Directory.keeps_replay Reachable.empty.consistent.named (fun x d hd => by cases hd) htells
  have hrun : twoConnections.Traced (.initial (replay ∅ twoBrowsersReady)) twoConnectionsRun.1 twoConnectionsRun.2 :=
    traced_chronicle (delivers_execute ⟨9500⟩) _ .nil
  exact ⟨hrun, by decide +kernel, by decide +kernel, rendezvous hreachable.consistent hkeeps distinct_twoBrowsers hrun⟩

end WayPoint.Container
