import WayPoint.Foundations.History
import WayPoint.Gateway.Delivery

/-! What one connection says to the manager and to the browser, in every order of outcomes: a kill is
issued for a browser exactly when its claim led to an open connection. -/
namespace WayPoint.Gateway
open Foundations Manager Program ChromeWarmpoolProxyConfig

/-- The remote steps of one connection with their outcomes, the first one first. -/
abbrev Said := List (Sigma Remote.Reply)

variable {config : ChromeWarmpoolProxyConfig} {said first rest : Said} {x y : String}

/-- The proxy was told that its claim of `x` was carried out. -/
def Acknowledged (config : ChromeWarmpoolProxyConfig) (said : Said) (x : String) : Prop :=
  (⟨.tryUpdateInstanceDescription (config.claimRequest ⟨x⟩), .ok true⟩ : Sigma Remote.Reply) ∈ said

/-- The proxy read `d` as the description of `x`. -/
def ReadAs (said : Said) (x : String) (d : InstanceDescription) : Prop :=
  (⟨.getInstance ⟨x⟩, .ok d⟩ : Sigma Remote.Reply) ∈ said

/-- A kill of `x` was sent, whatever became of it. -/
def KillIssued (said : Said) (x : String) : Prop :=
  ∃ e ∈ said, e.1 = .tryUpdateInstanceDescription (killRequest x)

/-- The claim of `x` led to an open connection: it was acknowledged, the description has the
address of the service asked for, and the connect succeeded. -/
structure Handed (config : ChromeWarmpoolProxyConfig) (said : Said) (x : String) : Prop where
  acknowledged : Acknowledged config said x
  addressed : ∀ d, ReadAs said x d → (config.serviceAddress d).isSome
  connected : ∀ addr r, (⟨.connect addr, r⟩ : Sigma Remote.Reply) ∈ said → r = true

theorem task_bind_dialogue {α β : Type} {m : Task α} {f : α → Task β} {outcome : Except Error β}
    (h : Dialogue (m >>= f).run said outcome) :
    (∃ e, Dialogue m.run said (.error e) ∧ outcome = .error e) ∨
      ∃ a first second, said = first ++ second ∧ Dialogue m.run first (.ok a) ∧
        Dialogue (f a).run second outcome := by
  obtain ⟨r, first, second, rfl, hm, hf⟩ := dialogue_bind_iff.mp
    (show Dialogue (m.run >>= ExceptT.bindCont f) said outcome from h)
  cases r with
  | error e =>
    obtain ⟨rfl, rfl⟩ := dialogue_done_iff.mp hf
    rw [List.append_nil]
    exact Or.inl ⟨e, hm, rfl⟩
  | ok a => exact Or.inr ⟨a, first, second, rfl, hm, hf⟩

/-- What the loop over the listed ids makes of them. -/
def Claimed (config : ChromeWarmpoolProxyConfig) (said : Said) :
    Except Error InstanceDescription → Prop
  | .ok d => ∃ x, d.instanceId = some ⟨x⟩ ∧ (∀ y, Acknowledged config said y ↔ y = x) ∧
      ∀ e, ReadAs said x e ↔ e = d
  | .error _ => ∀ y, ¬ Acknowledged config said y

/-- The calls of the loop over `ids`. -/
def ClaimCall (config : ChromeWarmpoolProxyConfig) (ids : List InstanceId) (c : Remote) : Prop :=
  c = .now ∨ ∃ id ∈ ids, c = .getInstance id ∨
    c = .tryUpdateInstanceDescription (config.claimRequest id)

private theorem claimFirst_within (config : ChromeWarmpoolProxyConfig) (ids : List InstanceId) :
    (config.claimFirst ids).run.Within (ClaimCall config ids) := by
  induction ids with
  | nil => exact True.intro
  | cons x ids ih =>
    have hrest : (config.claimFirst ids).run.Within (ClaimCall config (x :: ids)) := by
      refine ih.mono ?_
      intro c hc
      exact hc.imp_right fun ⟨id, hid, hc⟩ => ⟨id, List.mem_cons_of_mem x hid, hc⟩
    rw [claimFirst, run_remote_bind]
    refine ⟨Or.inr ⟨x, List.mem_cons_self, Or.inl rfl⟩, ?_⟩
    rintro (_ | d)
    · exact hrest
    · simp only []
      split
      · exact hrest
      · rw [run_remote_bind]
        refine ⟨Or.inl rfl, fun now => ?_⟩
        simp only []
        split
        · rw [run_remote_bind]
          refine ⟨Or.inr ⟨x, List.mem_cons_self, Or.inr rfl⟩, ?_⟩
          rintro (_ | _ | _)
          · exact hrest
          · exact hrest
          · exact True.intro
        · exact hrest

private theorem claimRequest_injective (config : ChromeWarmpoolProxyConfig) :
    Function.Injective config.claimRequest := by
  intro a b h
  exact Option.some.inj (congrArg InstanceDescription.instanceId h)

/-- A step on the candidate `x` that does not take it. -/
def PassesOver (config : ChromeWarmpoolProxyConfig) (x : InstanceId) (e : Sigma Remote.Reply) :
    Prop :=
  (∀ y, e ≠ ⟨.tryUpdateInstanceDescription (config.claimRequest ⟨y⟩), .ok true⟩) ∧
    ∀ y d, e = ⟨.getInstance ⟨y⟩, .ok d⟩ → x = ⟨y⟩

private theorem passesOver_get (x : InstanceId) (r : Except Status InstanceDescription) :
    PassesOver config x ⟨.getInstance x, r⟩ := by
  refine ⟨?_, ?_⟩
  · intro y h
    cases h
  · intro y d h
    cases h
    rfl

private theorem passesOver_now (x : InstanceId) (now : TimestampMs) : PassesOver config x ⟨.now, now⟩ :=
  ⟨fun y h => (by cases h), fun y d h => (by cases h)⟩

private theorem passesOver_claim (x : InstanceId) {r : Except Status Bool} (hr : r ≠ .ok true) :
    PassesOver config x ⟨.tryUpdateInstanceDescription (config.claimRequest x), r⟩ := by
  refine ⟨?_, ?_⟩
  · intro y h
    have hrequest := Remote.tryUpdateInstanceDescription.inj (congrArg Sigma.fst h)
    obtain rfl := claimRequest_injective config hrequest
    cases h
    exact hr rfl
  · intro y d h
    cases h

/-- Steps that take nothing, on candidates that are not tried again, make no difference. -/
theorem Claimed.skip {outcome : Except Error InstanceDescription} (h : Claimed config rest outcome)
    (first : Said)
    (hack : ∀ y, ¬ Acknowledged config first y)
    (hread : ∀ y d, ReadAs first y d → ∀ d', ¬ ReadAs rest y d') :
    Claimed config (first ++ rest) outcome := by
  have hacked (y : String) : Acknowledged config (first ++ rest) y ↔ Acknowledged config rest y :=
    List.mem_append.trans (or_iff_right (hack y))
  cases outcome with
  | error e =>
    intro y hy
    exact h y ((hacked y).mp hy)
  | ok d =>
    obtain ⟨x, hx, hy, hd⟩ := h
    refine ⟨x, hx, fun y => (hacked y).trans (hy y), fun e => ?_⟩
    exact (List.mem_append.trans (or_iff_right fun he => hread x e he d ((hd d).mpr rfl))).trans (hd e)

private theorem claimed_taken {id : InstanceId} {d : InstanceDescription} {now : TimestampMs}
    (hd : d.instanceId = some id) : Claimed config [⟨.getInstance id, .ok d⟩, ⟨.now, now⟩,
      ⟨.tryUpdateInstanceDescription (config.claimRequest id), .ok true⟩] (.ok d) := by
  refine ⟨id.instanceId, hd, fun y => ?_, fun e => ?_⟩
  · constructor
    · intro hy
      rcases List.mem_cons.mp hy with hy | hy
      · cases hy
      · rcases List.mem_cons.mp hy with hy | hy
        · cases hy
        · have hrequest := congrArg Sigma.fst (List.mem_singleton.mp hy)
          have hid := claimRequest_injective config (Remote.tryUpdateInstanceDescription.inj hrequest)
          exact congrArg InstanceId.instanceId hid
    · rintro rfl
      exact List.mem_cons_of_mem _ (List.mem_cons_of_mem _ List.mem_cons_self)
  · constructor
    · intro he
      rcases List.mem_cons.mp he with he | he
      · cases he
        rfl
      · rcases List.mem_cons.mp he with he | he
        · cases he
        · cases List.mem_singleton.mp he
    · rintro rfl
      exact List.mem_cons_self

/-- The loop hands out a browser exactly when a claim is acknowledged, and then that browser. -/
theorem claimFirst_dialogue {ids : List InstanceId} (hids : ids.Nodup)
    (hp : ∀ e ∈ said, Credible e.1 e.2) {outcome : Except Error InstanceDescription}
    (h : Dialogue (config.claimFirst ids).run said outcome) : Claimed config said outcome := by
  induction ids generalizing said with
  | nil =>
    obtain ⟨rfl, rfl⟩ := dialogue_done_iff.mp h
    intro y hy
    cases hy
  | cons x ids ih =>
    obtain ⟨hx, hids⟩ := List.nodup_cons.mp hids
    -- what remains of the run when `x` is passed over after the steps `first`
    have hpass (first : Said) {rest : Said} (hsaid : said = first ++ rest)
        (hfirst : ∀ e ∈ first, PassesOver config x e)
        (hrest : Dialogue (config.claimFirst ids).run rest outcome) : Claimed config said outcome := by
      subst hsaid
      refine (ih hids (fun e he => hp e (List.mem_append_right first he)) hrest).skip
        first (fun y hy => (hfirst _ hy).1 y rfl) ?_
      intro y d hy d' hd
      obtain rfl := (hfirst _ hy).2 y d rfl
      rcases hrest.within (claimFirst_within config ids) _ hd with hc | ⟨id, hid, hc | hc⟩
      · cases hc
      · cases hc
        exact hx hid
      · cases hc
    have hget (r : Except Status InstanceDescription) :
        PassesOver config x ⟨.getInstance x, r⟩ := passesOver_get x r
    rw [claimFirst, run_remote_bind] at h
    obtain ⟨r, rest, rfl, hread⟩ := dialogue_call_iff.mp h
    rcases r with _ | d
    · exact hpass [_] rfl (by simpa using hget _) hread
    · simp only [] at hread
      split at hread
      · exact hpass [_] rfl (by simpa using hget _) hread
      · rw [run_remote_bind] at hread
        obtain ⟨now, rest, rfl, hnow⟩ := dialogue_call_iff.mp hread
        have hnow' : PassesOver config x ⟨.now, now⟩ := passesOver_now x now
        split at hnow
        · rw [run_remote_bind] at hnow
          obtain ⟨r, rest, rfl, hclaim⟩ := dialogue_call_iff.mp hnow
          by_cases hr : r = .ok true
          · subst hr
            obtain ⟨rfl, rfl⟩ := dialogue_done_iff.mp hclaim
            exact claimed_taken (hp _ List.mem_cons_self)
          · have hrest : Dialogue (config.claimFirst ids).run rest outcome := by
              rcases r with _ | _ | _
              · exact hclaim
              · exact hclaim
              · exact absurd rfl hr
            refine hpass [_, _, _] rfl ?_ hrest
            simpa using ⟨hget _, hnow', passesOver_claim x hr⟩
        · exact hpass [_, _] rfl (by simpa using ⟨hget _, hnow'⟩) hnow

/-- The calls made before a browser is connected to. -/
def Claiming (config : ChromeWarmpoolProxyConfig) (c : Remote) : Prop :=
  (∃ query, c = .getAllInstances query) ∨ c = .now ∨ ∃ id, c = .getInstance id ∨
    c = .tryUpdateInstanceDescription (config.claimRequest id)

private theorem getInstance_within (config : ChromeWarmpoolProxyConfig) :
    config.getInstance.run.Within (Claiming config) := by
  rw [getInstance, run_remote_bind]
  refine ⟨Or.inl ⟨_, rfl⟩, ?_⟩
  rintro (_ | ids)
  · exact True.intro
  · refine (claimFirst_within config ids).mono ?_
    intro c hc
    exact Or.inr (hc.imp_right fun ⟨id, _, hc⟩ => ⟨id, hc⟩)

theorem getInstance_dialogue (hp : ∀ e ∈ said, Credible e.1 e.2)
    {outcome : Except Error InstanceDescription}
    (h : Dialogue config.getInstance.run said outcome) : Claimed config said outcome := by
  rw [getInstance, run_remote_bind] at h
  obtain ⟨r, rest, rfl, hlisted⟩ := dialogue_call_iff.mp h
  rcases r with _ | ids
  · obtain ⟨rfl, rfl⟩ := dialogue_done_iff.mp hlisted
    intro y hy
    cases List.mem_singleton.mp hy
  · have hnodup : ids.Nodup := hp _ List.mem_cons_self
    have hclaimed := claimFirst_dialogue hnodup (fun e he => hp e (List.mem_cons_of_mem _ he)) hlisted
    refine hclaimed.skip [_] ?_ ?_
    · intro y hy
      cases List.mem_singleton.mp hy
    · intro y d hd
      cases List.mem_singleton.mp hd

/-- A connection is opened exactly for the browser handed over. -/
def Opened (config : ChromeWarmpoolProxyConfig) (said : Said) :
    Except Error HttpProxyInstance → Prop
  | .ok instance_ => ∀ y, Handed config said y ↔ y = instance_.instanceId
  | .error _ => ∀ y, ¬ Handed config said y

private theorem connect_notMem (hw : ∀ e ∈ said, Claiming config e.1) {addr : Text} {r : Bool} :
    (⟨.connect addr, r⟩ : Sigma Remote.Reply) ∉ said := by
  intro hmem
  rcases hw _ hmem with ⟨_, hc⟩ | hc | ⟨_, hc | hc⟩ <;> cases hc

theorem newConnection_dialogue (hp : ∀ e ∈ said, Credible e.1 e.2) {request : Request}
    {outcome : Except Error HttpProxyInstance}
    (h : Dialogue (config.newConnection request).run said outcome) : Opened config said outcome := by
  rcases task_bind_dialogue h with ⟨e, hget, rfl⟩ | ⟨d, first, second, rfl, hget, hopen⟩
  · intro y hy
    exact getInstance_dialogue hp hget y hy.acknowledged
  · have hnoconnect := hget.within (getInstance_within config)
    obtain ⟨x, hx, hack, hread⟩ :=
      getInstance_dialogue (fun e he => hp e (List.mem_append_left second he)) hget
    simp only [hx] at hopen
    cases haddress : config.serviceAddress d with
    | none =>
      simp only [getProxyConfig, haddress] at hopen
      obtain ⟨rfl, rfl⟩ := dialogue_done_iff.mp hopen
      rw [List.append_nil]
      intro y hy
      obtain rfl := (hack y).mp hy.acknowledged
      have haddressed := hy.addressed d ((hread d).mpr rfl)
      rw [haddress] at haddressed
      cases haddressed
    | some address =>
      simp only [getProxyConfig, haddress] at hopen
      obtain ⟨r, tail, rfl, hconnect⟩ := dialogue_call_iff.mp hopen
      cases r with
      | false =>
        obtain ⟨rfl, rfl⟩ := dialogue_done_iff.mp hconnect
        intro y hy
        cases hy.connected _ _ (List.mem_append_right first List.mem_cons_self)
      | true =>
        obtain ⟨rfl, rfl⟩ := dialogue_done_iff.mp hconnect
        intro y
        constructor
        · intro hy
          rcases List.mem_append.mp hy.acknowledged with hfirst | hlast
          · exact (hack y).mp hfirst
          · cases List.mem_singleton.mp hlast
        · intro hy
          refine ⟨List.mem_append_left _ ((hack y).mpr hy), fun d' hd' => ?_, fun addr r hr => ?_⟩
          · rcases List.mem_append.mp hd' with hfirst | hlast
            · obtain rfl : y = x := hy
              rw [(hread d').mp hfirst, haddress]
              rfl
            · cases List.mem_singleton.mp hlast
          · rcases List.mem_append.mp hr with hfirst | hlast
            · exact absurd hfirst (connect_notMem hnoconnect)
            · cases List.mem_singleton.mp hlast
              rfl

theorem newConnection_within (config : ChromeWarmpoolProxyConfig) (request : Request) :
    (config.newConnection request).run.Within
      (fun c => Claiming config c ∨ ∃ addr, c = .connect addr) := by
  refine Within.bind ((getInstance_within config).mono fun c hc => Or.inl hc) ?_
  rintro (e | d)
  · exact True.intro
  · cases hid : d.instanceId with
    | none =>
      simp only [ExceptT.bindCont, hid]
      exact True.intro
    | some id =>
      cases haddress : config.serviceAddress d with
      | none =>
        simp only [ExceptT.bindCont, hid, getProxyConfig, haddress]
        exact True.intro
      | some address =>
        simp only [ExceptT.bindCont, hid, getProxyConfig, haddress]
        refine ⟨Or.inr ⟨_, rfl⟩, fun r => ?_⟩
        cases r
        · exact True.intro
        · exact True.intro

/-- The calls of the spawned task. -/
def Serving (id : String) (c : Remote) : Prop :=
  (∃ text, c = .writeAll text) ∨ c = .copyBidirectional ∨
    c = .tryUpdateInstanceDescription (killRequest id)

private theorem writeToStream_within (id : String) (pieces : List Text) :
    (writeToStream pieces).run.Within (Serving id) := by
  induction pieces with
  | nil => exact True.intro
  | cons piece pieces ih =>
    rw [writeToStream, run_remote_bind]
    refine ⟨Or.inl ⟨piece, rfl⟩, fun r => ?_⟩
    cases r
    · exact True.intro
    · exact ih

theorem proxyTraffic_within (id : String) (request : Request) :
    (proxyTraffic request).run.Within (Serving id) := by
  refine Within.bind (writeToStream_within id request.pieces) ?_
  rintro (e | _)
  · exact True.intro
  · refine ⟨Or.inr (Or.inl rfl), fun r => ?_⟩
    cases r
    · exact True.intro
    · exact True.intro

/-- However the traffic ended, the connection's browser is killed. -/
theorem spawnedTask_dialogue {instance_ : HttpProxyInstance}
    (h : Dialogue (spawnedTask instance_) said ()) :
    KillIssued said instance_.instanceId ∧ ∀ e ∈ said, Serving instance_.instanceId e.1 := by
  obtain ⟨_, first, second, rfl, htraffic, hclose⟩ := dialogue_bind_iff.mp h
  obtain ⟨r, rest, rfl, hrest⟩ := dialogue_call_iff.mp hclose
  have hend : rest = [] := by
    cases r
    · exact (dialogue_done_iff.mp hrest).1
    · exact (dialogue_done_iff.mp hrest).1
  subst hend
  refine ⟨⟨_, List.mem_append_right first List.mem_cons_self, rfl⟩, fun e he => ?_⟩
  rcases List.mem_append.mp he with he | he
  · exact htraffic.within (proxyTraffic_within _ _) e he
  · rw [List.mem_singleton.mp he]
    exact Or.inr (Or.inr rfl)

theorem killRequest_ne_claimRequest (id : String) (x : InstanceId) :
    killRequest id ≠ config.claimRequest x := by
  intro h
  cases congrArg InstanceDescription.killInstanceRequest h

private theorem not_killIssued (hw : ∀ e ∈ said, Claiming config e.1 ∨ ∃ addr, e.1 = .connect addr)
    (x : String) : ¬ KillIssued said x := by
  intro h
  obtain ⟨e, he, hkill⟩ := h
  rcases hw e he with (⟨_, hc⟩ | hc | ⟨id, hc | hc⟩) | ⟨_, hc⟩
  · cases hkill.symm.trans hc
  · cases hkill.symm.trans hc
  · cases hkill.symm.trans hc
  · exact killRequest_ne_claimRequest x id
      (Remote.tryUpdateInstanceDescription.inj (hkill.symm.trans hc))
  · cases hkill.symm.trans hc

/-- Nothing the spawned task says makes a browser handed over or not. -/
private theorem handed_append {id : String} (hw : ∀ e ∈ rest, Serving id e.1) :
    Handed config (first ++ rest) y ↔ Handed config first y := by
  have hrest {c : Remote} {r : c.Reply} (hc : ¬ Serving id c) :
      (⟨c, r⟩ : Sigma Remote.Reply) ∈ first ++ rest ↔ (⟨c, r⟩ : Sigma Remote.Reply) ∈ first :=
    List.mem_append.trans (or_iff_left fun he => hc (hw _ he))
  have hack : ¬ Serving id (.tryUpdateInstanceDescription (config.claimRequest ⟨y⟩)) := by
    intro hcase
    rcases hcase with ⟨_, hc⟩ | hc | hc
    · cases hc
    · cases hc
    · exact killRequest_ne_claimRequest id ⟨y⟩ (Remote.tryUpdateInstanceDescription.inj hc).symm
  have hread : ¬ Serving id (.getInstance ⟨y⟩) := by
    rintro (⟨_, hc⟩ | hc | hc) <;> cases hc
  have hconnect (addr : Text) : ¬ Serving id (.connect addr) := by
    rintro (⟨_, hc⟩ | hc | hc) <;> cases hc
  constructor
  · intro h
    exact ⟨(hrest hack).mp h.acknowledged, fun d hd => h.addressed d ((hrest hread).mpr hd),
      fun addr r hr => h.connected addr r ((hrest (hconnect addr)).mpr hr)⟩
  · intro h
    exact ⟨(hrest hack).mpr h.acknowledged, fun d hd => h.addressed d ((hrest hread).mp hd),
      fun addr r hr => h.connected addr r ((hrest (hconnect addr)).mp hr)⟩

/-- A whole connection issues a kill for a browser exactly when it was handed over. -/
theorem startHttpProxyConnection_dialogue (hp : ∀ e ∈ said, Credible e.1 e.2)
    {client : List UInt8} {outcome : Except Error Unit}
    (h : Dialogue (startHttpProxyConnection config client).run said outcome) (x : String) :
    KillIssued said x ↔ Handed config said x := by
  have hnothing (hsaid : said = []) : KillIssued said x ↔ Handed config said x := by
    subst hsaid
    refine iff_of_false ?_ fun hx => ?_
    · intro hissued
      obtain ⟨_, he, _⟩ := hissued
      cases he
    · cases hx.acknowledged
  unfold startHttpProxyConnection at h
  cases hhead : readUntilEmptyLine [] client with
  | error e =>
    rw [hhead] at h
    exact hnothing (dialogue_done_iff.mp h).1
  | ok head =>
    obtain ⟨data, left⟩ := head
    rw [hhead] at h
    have hparsed : Dialogue (((liftM (Request.new data) : Task Request) >>= fun request =>
        config.newConnection request >>= fun instance_ =>
          (ExceptT.lift (spawnedTask instance_) : Task Unit)).run) said outcome := h
    cases hrequest : Request.new data with
    | error e =>
      rw [hrequest] at hparsed
      exact hnothing (dialogue_done_iff.mp hparsed).1
    | ok request =>
      rw [hrequest] at hparsed
      rcases task_bind_dialogue (m := config.newConnection request) hparsed with
        ⟨e, hnew, _⟩ | ⟨instance_, first, second, rfl, hnew, hserve⟩
      · exact iff_of_false (not_killIssued (hnew.within (newConnection_within config request)) x)
          (newConnection_dialogue hp hnew x)
      · have hopened := newConnection_dialogue (fun e he => hp e (List.mem_append_left second he)) hnew
        have hnokill := not_killIssued (hnew.within (newConnection_within config request)) x
        obtain ⟨_, _, _, rfl, hspawned, hdone⟩ := dialogue_bind_iff.mp hserve
        obtain ⟨rfl, _⟩ := dialogue_done_iff.mp hdone
        rw [List.append_nil]
        obtain ⟨hkill, hwithin⟩ := spawnedTask_dialogue hspawned
        rw [handed_append hwithin, hopened x]
        constructor
        · intro hissued
          obtain ⟨e, he, hx⟩ := hissued
          rcases List.mem_append.mp he with he | he
          · exact absurd ⟨e, he, hx⟩ hnokill
          · rcases hwithin e he with ⟨_, hc⟩ | hc | hc
            · cases hx.symm.trans hc
            · cases hx.symm.trans hc
            · have hrequests := Remote.tryUpdateInstanceDescription.inj (hx.symm.trans hc)
              have hid := congrArg InstanceDescription.instanceId hrequests
              exact congrArg InstanceId.instanceId (Option.some.inj hid)
        · rintro rfl
          obtain ⟨e, he, hx⟩ := hkill
          exact ⟨e, List.mem_append_right first he, hx⟩

end WayPoint.Gateway
