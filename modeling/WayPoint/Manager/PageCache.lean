import WayPoint.Foundations.Lock
import WayPoint.Manager.InstanceLinks
import WayPoint.Manager.KillLoop

/-! Requests for the status page share one page under a lock (`handle_get_browsers`), while everybody else
goes on changing the store. A page is served for a second, and then made anew. -/
namespace WayPoint.Manager
open Foundations Program System

/-- What a request for the status page waits for or reads. -/
inductive PageCall where
  | lockCache
  | instantNow
  /-- The section that clones all descriptions. -/
  | values
  /-- `create_status_page` on a thread of its own. -/
  | createStatusPage (instanceDescriptions : List InstanceDescription)
  /-- The end of the guard's life. -/
  | release (cache : StatusCache)

/-- Where a request waits it may be dropped, which is answered with `none`. -/
abbrev PageCall.Reply : PageCall → Type
  | .lockCache => Option StatusCache
  | .instantNow => Nat
  | .values => Option (List InstanceDescription)
  | .createStatusPage _ => Option (Except PageError WarmPoolTemplate)
  | .release _ => Unit

/-- A request returns the page it answers with, unless it is dropped. -/
abbrev PageRequest := Program PageCall.Reply (Option (Option WarmPoolTemplate))

def statusPageCacheExpiration : Nat := 1000

namespace PageRequest

def leave (cache : StatusCache) (html : Option (Option WarmPoolTemplate)) : PageRequest := do
  perform (PageCall.release cache)
  return html

/-- The page is made, and kept if that succeeds. -/
def create (cache : StatusCache) (now : Nat) (instanceDescriptions : List InstanceDescription) : PageRequest := do
  match ← perform (PageCall.createStatusPage instanceDescriptions) with
  | none => leave cache none
  | some page =>
    let cache := cache.refresh now page
    leave cache (some cache.page)

def update (cache : StatusCache) (now : Nat) : PageRequest := do
  match ← perform PageCall.values with
  | none => leave cache none
  | some instanceDescriptions => create cache now instanceDescriptions

def look (cache : StatusCache) : PageRequest := do
  let now ← perform PageCall.instantNow
  if statusPageCacheExpiration < now - cache.madeAt then update cache now else leave cache (some cache.page)

end PageRequest

/-- `handle_get_browsers` without an id. -/
def handleGetStatusPage : PageRequest := do
  match ← perform PageCall.lockCache with
  | none => return none
  | some cache => PageRequest.look cache

/-- The store and the clocks, the cache, and whether its lock is taken. -/
structure PageServer extends Clocked where
  cache : StatusCache
  locked : Bool

/-- Time goes on, and nothing else changes. -/
def Waits (a b : PageServer) : Prop :=
  Elapses a.toClocked b.toClocked ∧ b.store = a.store ∧ b.cache = a.cache ∧ b.locked = a.locked

def pageServes : Server PageCall.Reply PageServer
  | .lockCache, a, none, b => Waits a b
  | .lockCache, a, some cache, b => a.locked = false ∧ cache = a.cache ∧ Waits { a with locked := true } b
  | .instantNow, a, r, b => Waits a b ∧ r = b.instant
  | .values, a, r, b => Waits a b ∧ ∀ ds ∈ r, ∃ order, FiniteMap.Enumerates order a.store ∧ ds = order.map Sigma.snd
  | .createStatusPage ds, a, r, b => Waits a b ∧ ∀ page ∈ r, page = createStatusPage .wrapping ds b.now
  | .release cache, a, _, b => Waits { a with cache, locked := false } b

/-- `start_status_page`: the cache starts out expired. -/
def startStatusPage (a : Clocked) : PageServer :=
  { a with cache := { madeAt := a.instant - statusPageCacheExpiration * 2, page := none }, locked := false }

/-- Any number of requests for the status page, among the sections of everybody else. -/
def statusPages (ι : Type) : System ι PageCall.Reply PageServer (Option (Option WarmPoolTemplate)) where
  program _ := handleGetStatusPage
  serves := pageServes
  environment a b := (∃ c r, sectionAt c a.toClocked r b.toClocked) ∧ b.cache = a.cache ∧ b.locked = a.locked

variable {ι : Type} {past : List (ι × Served PageCall.Reply PageServer)} {a b : PageServer}

/-- The page shows the store at a moment of the run not before `since`. -/
def Shows (past : List (ι × Served PageCall.Reply PageServer)) (since : Nat) (page : WarmPoolTemplate) : Prop :=
  ∃ e ∈ past, ∃ order now, since ≤ e.2.before.instant ∧ FiniteMap.Enumerates order e.2.before.store ∧
    e.2.before.now.timestampMs.toNat ≤ now.timestampMs.toNat ∧
      createStatusPage .wrapping (order.map Sigma.snd) now = .ok page

theorem Shows.mono {since since' : Nat} {page : WarmPoolTemplate} (h : Shows past since page) (hle : since' ≤ since)
    {past' : List (ι × Served PageCall.Reply PageServer)} (hpast : past ⊆ past') : Shows past' since' page := by
  obtain ⟨e, he, order, now, hsince, hrest⟩ := h
  exact ⟨e, hpast he, order, now, hle.trans hsince, hrest⟩

abbrev Asked := List (Sigma PageCall.Reply)

/-- The request read the clock at `now`, and asked for the descriptions after that. -/
def Updates (said : Asked) (now : Nat) : Prop := ⟨.instantNow, now⟩ ∈ said ∧ ∃ r, ⟨.values, r⟩ ∈ said

/-- The request made no page: it was dropped meanwhile, or the page could not be made. -/
def MadeNone (said : Asked) : Prop :=
  ⟨.values, none⟩ ∈ said ∨ ∃ ds, ⟨.createStatusPage ds, none⟩ ∈ said ∨
    ∃ e, ⟨.createStatusPage ds, some (.error e)⟩ ∈ said

/-- What a request is answered with is at most a second old, unless it made no page itself. -/
def Answered (past : List (ι × Served PageCall.Reply PageServer)) (said : Asked) (html : Option WarmPoolTemplate) :
    Prop :=
  ∃ now, ⟨.instantNow, now⟩ ∈ said ∧
    (MadeNone said ∨ ∃ page, html = some page ∧ Shows past (now - statusPageCacheExpiration) page)

variable {past' : List (ι × Served PageCall.Reply PageServer)}

theorem MadeNone.mono {said said' : Asked} (h : MadeNone said) (hsaid : said ⊆ said') : MadeNone said' :=
  h.imp (fun hmem => hsaid hmem) fun hmade => hmade.imp fun _ => Or.imp (fun hmem => hsaid hmem) fun hmem =>
    hmem.imp fun _ hmem => hsaid hmem

theorem Answered.mono {said said' : Asked} {html : Option WarmPoolTemplate} (h : Answered past said html)
    (hpast : past ⊆ past') (hsaid : said ⊆ said') : Answered past' said' html := by
  obtain ⟨now, hnow, hanswer⟩ := h
  refine ⟨now, hsaid hnow, hanswer.imp (fun hnone => hnone.mono hsaid) fun hshown => ?_⟩
  exact hshown.imp fun page hpage => ⟨hpage.1, hpage.2.mono le_rfl hpast⟩

private theorem answered_none {said : Asked} :
    ∀ page, (none : Option (Option WarmPoolTemplate)) = some page → Answered past said page :=
  fun _ hpage => absurd hpage.symm (Option.some_ne_none _)

/-- The descriptions are those of the store at a moment of the run. -/
def Snapshot (past : List (ι × Served PageCall.Reply PageServer)) (since : Nat) (ds : List InstanceDescription)
    (now : TimestampMs) : Prop :=
  ∃ e ∈ past, ∃ order, since ≤ e.2.before.instant ∧ FiniteMap.Enumerates order e.2.before.store ∧
    e.2.before.now.timestampMs.toNat ≤ now.timestampMs.toNat ∧ ds = order.map Sigma.snd

theorem Snapshot.later {since : Nat} {ds : List InstanceDescription} {now now' : TimestampMs}
    (h : Snapshot past since ds now) (hpast : past ⊆ past')
    (hnow : now.timestampMs.toNat ≤ now'.timestampMs.toNat) : Snapshot past' since ds now' := by
  obtain ⟨e, he, order, hsince, henumerates, hbefore, hds⟩ := h
  exact ⟨e, hpast he, order, hsince, henumerates, hbefore.trans hnow, hds⟩

variable [DecidableEq ι]

/-- A cache in order: its page shows the store when it was made or later, and unless they made none, no requests
but those left out have asked for descriptions since. -/
structure Kept (past : List (ι × Served PageCall.Reply PageServer)) (instant : Nat) (cache : StatusCache)
    (leftOut : ι → Prop) : Prop where
  page : cache.page = none ∧ cache.madeAt + statusPageCacheExpiration < instant ∨
    ∃ page, cache.page = some page ∧ Shows past cache.madeAt page
  updates : ∀ j now, ¬ leftOut j → Updates (told j past) now → MadeNone (told j past) ∨ now ≤ cache.madeAt

/-- The request that has the lock. -/
inductive Inside (past : List (ι × Served PageCall.Reply PageServer)) (a : PageServer) (i : ι) : PageRequest → Prop where
  | looking {cache : StatusCache} (held : a.cache = cache) (said : told i past = [⟨.lockCache, some cache⟩])
      (kept : Kept past a.instant cache (· = i)) : Inside past a i (PageRequest.look cache)
  | updating {cache : StatusCache} {now : Nat} (held : a.cache = cache)
      (said : told i past = [⟨.lockCache, some cache⟩, ⟨.instantNow, now⟩]) (kept : Kept past a.instant cache (· = i))
      (read : now ≤ a.instant) (expired : statusPageCacheExpiration < now - cache.madeAt) :
      Inside past a i (PageRequest.update cache now)
  | creating {cache : StatusCache} {now : Nat} {ds : List InstanceDescription} (held : a.cache = cache)
      (said : told i past = [⟨.lockCache, some cache⟩, ⟨.instantNow, now⟩, ⟨.values, some ds⟩])
      (kept : Kept past a.instant cache (· = i)) (expired : statusPageCacheExpiration < now - cache.madeAt)
      (snapshot : Snapshot past now ds a.now) : Inside past a i (PageRequest.create cache now ds)
  | leaving {cache : StatusCache} {html : Option (Option WarmPoolTemplate)}
      (kept : Kept past a.instant cache fun _ => False)
      (answered : ∀ page, html = some page → Answered past (told i past) page) :
      Inside past a i (PageRequest.leave cache html)

/-- A request that waits for the lock, or is done. -/
inductive Outside (past : List (ι × Served PageCall.Reply PageServer)) (a : PageServer) (i : ι) : PageRequest → Prop where
  | waiting (said : told i past = []) : Outside past a i handleGetStatusPage
  | done {html : Option (Option WarmPoolTemplate)}
      (answered : ∀ page, html = some page → Answered past (told i past) page) : Outside past a i (.done html)

variable {i j : ι} {c : PageCall} {r : c.Reply}

theorem Kept.later {instant instant' : Nat} {cache : StatusCache} {leftOut : ι → Prop}
    (h : Kept past instant cache leftOut) (hinstant : instant ≤ instant') (hpast : past ⊆ past')
    (htold : ∀ j, told j past ⊆ told j past')
    (hupdates : ∀ j now, ¬ leftOut j → Updates (told j past') now → Updates (told j past) now) :
    Kept past' instant' cache leftOut where
  page := h.page.imp (fun hnone => ⟨hnone.1, hnone.2.trans_le hinstant⟩) fun hpage =>
    hpage.imp fun _ hpage => ⟨hpage.1, hpage.2.mono le_rfl hpast⟩
  updates j now hj hupdate := (h.updates j now hj (hupdates j now hj hupdate)).imp_left fun hnone => hnone.mono (htold j)

private theorem told_subset_cons (j : ι) (e : ι × Served PageCall.Reply PageServer) :
    told j past ⊆ told j (e :: past) :=
  (told_grows (List.suffix_cons e past) j).subset

/-- All calls but a reading of the clock and a request for descriptions, which make an update. -/
def PageCall.Plain : PageCall → Prop
  | .instantNow | .values => False
  | .lockCache | .createStatusPage _ | .release _ => True

private theorem updates_cons {e : Served PageCall.Reply PageServer} (he : e.call.Plain) {now : Nat}
    (h : Updates (told j ((i, e) :: past)) now) : Updates (told j past) now := by
  have hold {c : PageCall} {r : c.Reply} (hc : ¬ c.Plain) (hmem : ⟨c, r⟩ ∈ told j ((i, e) :: past)) :
      (⟨c, r⟩ : Sigma PageCall.Reply) ∈ told j past := by
    obtain ⟨s, s', hmem⟩ := mem_told.mp hmem
    rcases List.mem_cons.mp hmem with heq | hmem
    · have hcall : c = e.call := congrArg (fun e => e.2.call) heq
      exact absurd (hcall ▸ he) hc
    · exact mem_told.mpr ⟨s, s', hmem⟩
  exact ⟨hold id h.1, h.2.imp fun r hr => hold id hr⟩

theorem Elapses.now_le {a b : Clocked} (h : Elapses a b) : a.now.timestampMs.toNat ≤ b.now.timestampMs.toNat := by
  obtain ⟨ms, hnow, _⟩ := h
  omega

/-- What others do while a request has the lock. -/
theorem Inside.later {q : PageRequest} (h : Inside past a j q) (hpast : past ⊆ past')
    (hsaid : told j past' = told j past) (hcache : b.cache = a.cache) (he : Elapses a.toClocked b.toClocked)
    (hkept : ∀ cache leftOut, Kept past a.instant cache leftOut → Kept past' b.instant cache leftOut) :
    Inside past' b j q := by
  cases h with
  | looking held said kept => exact .looking (hcache.trans held) (hsaid.trans said) (hkept _ _ kept)
  | updating held said kept read expired =>
    exact .updating (hcache.trans held) (hsaid.trans said) (hkept _ _ kept) (read.trans he.instant_le) expired
  | creating held said kept expired snapshot =>
    exact .creating (hcache.trans held) (hsaid.trans said) (hkept _ _ kept) expired (snapshot.later hpast he.now_le)
  | leaving kept answered =>
    exact .leaving (hkept _ _ kept) fun page hpage => (answered page hpage).mono hpast (by rw [hsaid]; exact List.Subset.refl _)

theorem Outside.later {q : PageRequest} (h : Outside past a j q) (hpast : past ⊆ past')
    (hsaid : told j past' = told j past) : Outside past' b j q := by
  cases h with
  | waiting said => exact .waiting (hsaid.trans said)
  | done answered =>
    exact .done fun page hpage => (answered page hpage).mono hpast (by rw [hsaid]; exact List.Subset.refl _)

/-- Outside there is only the lock to wait for. -/
theorem Outside.call {next : c.Reply → PageRequest} (h : Outside past a i (.call c next)) :
    told i past = [] ∧ Program.call c next = handleGetStatusPage := by
  generalize hq : Program.call c next = q at h
  cases h with
  | waiting said => exact ⟨said, rfl⟩
  | done => cases hq

theorem Kept.wait {cache : StatusCache} {leftOut : ι → Prop} (h : Kept past a.instant cache leftOut)
    (he : Elapses a.toClocked b.toClocked) (hc : c.Plain) :
    Kept ((i, ⟨c, a, r, b⟩) :: past) b.instant cache leftOut :=
  h.later he.instant_le (List.subset_cons_self _ _) (fun j => told_subset_cons j _)
    fun _ _ _ hupdate => updates_cons hc hupdate

/-- What the request with the lock asks is left out. -/
theorem Kept.own {cache : StatusCache} (h : Kept past a.instant cache (· = i)) (he : Elapses a.toClocked b.toClocked) :
    Kept ((i, ⟨c, a, r, b⟩) :: past) b.instant cache (· = i) := by
  refine h.later he.instant_le (List.subset_cons_self _ _) (fun j => told_subset_cons j _) ?_
  intro j now hj hupdate
  rwa [told_cons_ne (Ne.symm hj)] at hupdate

/-- Once its own request for descriptions is accounted for, the cache is in order. -/
theorem Kept.whole {instant : Nat} {cache : StatusCache} (h : Kept past instant cache (· = i))
    (hi : ∀ now, Updates (told i past) now → MadeNone (told i past) ∨ now ≤ cache.madeAt) :
    Kept past instant cache fun _ => False where
  page := h.page
  updates j now _ hupdate := by
    by_cases hj : j = i
    · subst hj
      exact hi now hupdate
    · exact h.updates j now hj hupdate

private theorem inside_look {cache : StatusCache} {now : Nat} (held : a.cache = cache)
    (said : told i past = [⟨.lockCache, some cache⟩]) (kept : Kept past a.instant cache (· = i))
    (hwaits : Waits a b) (hnow : now = b.instant) :
    Inside ((i, ⟨.instantNow, a, now, b⟩) :: past) b i
      (if statusPageCacheExpiration < now - cache.madeAt then PageRequest.update cache now
        else PageRequest.leave cache (some cache.page)) := by
  subst hnow
  obtain ⟨he, _, hcache, _⟩ := hwaits
  have hsaid : told i ((i, ⟨.instantNow, a, b.instant, b⟩) :: past) =
      [⟨.lockCache, some cache⟩, ⟨.instantNow, b.instant⟩] := by
    rw [told_cons_self, said]
    rfl
  have hkept := kept.own (c := .instantNow) (r := b.instant) he
  split
  · next hexpired => exact .updating (hcache.trans held) hsaid hkept le_rfl hexpired
  · next hexpired =>
    refine .leaving (hkept.whole fun now hupdate => ?_) fun page hpage => ?_
    · obtain ⟨_, r, hr⟩ := hupdate
      rw [hsaid] at hr
      simp at hr
    · cases hpage
      refine ⟨b.instant, by rw [hsaid]; simp, Or.inr ?_⟩
      rcases hkept.page with ⟨_, hold⟩ | ⟨page, hpage, hshows⟩
      · omega
      · exact ⟨page, hpage, hshows.mono (by omega) (List.Subset.refl _)⟩

private theorem inside_update {cache : StatusCache} {now : Nat} {r : Option (List InstanceDescription)}
    (held : a.cache = cache)
    (said : told i past = [⟨.lockCache, some cache⟩, ⟨.instantNow, now⟩]) (kept : Kept past a.instant cache (· = i))
    (read : now ≤ a.instant) (expired : statusPageCacheExpiration < now - cache.madeAt)
    (hserve : pageServes .values a r b) {next : Option (List InstanceDescription) → PageRequest}
    (hnext : PageRequest.update cache now = .call .values next) :
    Inside ((i, ⟨.values, a, r, b⟩) :: past) b i (next r) := by
  obtain ⟨_, hk⟩ := Program.call.inj hnext
  obtain rfl := eq_of_heq hk
  obtain ⟨⟨he, _, hcache, _⟩, hds⟩ := hserve
  have hsaid : told i ((i, ⟨.values, a, r, b⟩) :: past) =
      [⟨.lockCache, some cache⟩, ⟨.instantNow, now⟩, ⟨.values, r⟩] := by
    rw [told_cons_self, said]
    rfl
  have hkept := kept.own (c := .values) (r := r) he
  cases r with
  | none =>
    refine .leaving (hkept.whole fun _ _ => Or.inl (Or.inl ?_)) answered_none
    rw [hsaid]
    simp
  | some ds =>
    obtain ⟨order, henumerates, rfl⟩ := hds ds rfl
    exact .creating (hcache.trans held) hsaid hkept expired
      ⟨_, List.mem_cons_self, order, read, henumerates, he.now_le, rfl⟩

private theorem inside_create {cache : StatusCache} {now : Nat} {ds : List InstanceDescription}
    {r : Option (Except PageError WarmPoolTemplate)}
    (said : told i past = [⟨.lockCache, some cache⟩, ⟨.instantNow, now⟩, ⟨.values, some ds⟩])
    (kept : Kept past a.instant cache (· = i)) (expired : statusPageCacheExpiration < now - cache.madeAt)
    (snapshot : Snapshot past now ds a.now) (hserve : pageServes (.createStatusPage ds) a r b)
    {next : Option (Except PageError WarmPoolTemplate) → PageRequest}
    (hnext : PageRequest.create cache now ds = .call (.createStatusPage ds) next) :
    Inside ((i, ⟨.createStatusPage ds, a, r, b⟩) :: past) b i (next r) := by
  obtain ⟨_, hk⟩ := Program.call.inj hnext
  obtain rfl := eq_of_heq hk
  obtain ⟨⟨he, _, hcache, _⟩, hpage⟩ := hserve
  have hsaid : told i ((i, ⟨.createStatusPage ds, a, r, b⟩) :: past) =
      [⟨.lockCache, some cache⟩, ⟨.instantNow, now⟩, ⟨.values, some ds⟩, ⟨.createStatusPage ds, r⟩] := by
    rw [told_cons_self, said]
    rfl
  have hread : ⟨.instantNow, now⟩ ∈ told i ((i, ⟨.createStatusPage ds, a, r, b⟩) :: past) := by
    rw [hsaid]
    simp
  have hkept := kept.own (c := .createStatusPage ds) (r := r) he
  rcases r with _ | e | page
  · refine .leaving (hkept.whole fun _ _ => Or.inl (Or.inr ⟨ds, Or.inl ?_⟩)) answered_none
    rw [hsaid]
    simp
  · have hnone : MadeNone (told i ((i, ⟨.createStatusPage ds, a, some (.error e), b⟩) :: past)) := by
      refine Or.inr ⟨ds, Or.inr ⟨e, ?_⟩⟩
      rw [hsaid]
      simp
    have hsame : cache.refresh now (.error e) = cache := by
      unfold StatusCache.refresh
      split <;> rfl
    change Inside _ b i (PageRequest.leave (cache.refresh now (.error e)) (some (cache.refresh now (.error e)).page))
    rw [hsame]
    exact .leaving (hkept.whole fun _ _ => Or.inl hnone) fun page _ => ⟨now, hread, Or.inl hnone⟩
  · have hshows : Shows ((i, ⟨.createStatusPage ds, a, some (.ok page), b⟩) :: past) now page := by
      obtain ⟨e, hmem, order, hsince, henumerates, hbefore, rfl⟩ := snapshot
      exact ⟨e, List.mem_cons_of_mem _ hmem, order, b.now, hsince, henumerates, hbefore.trans he.now_le,
        (hpage _ rfl).symm⟩
    have hnew : cache.refresh now (.ok page) = { madeAt := now, page := some page } := if_pos expired
    change Inside _ b i (PageRequest.leave (cache.refresh now (.ok page)) (some (cache.refresh now (.ok page)).page))
    rw [hnew]
    refine .leaving ⟨Or.inr ⟨page, rfl, hshows⟩, fun j since _ hupdate => ?_⟩ fun html hhtml => ?_
    · by_cases hj : j = i
      · subst hj
        have hsince := hupdate.1
        rw [hsaid] at hsince
        have : since = now := by simpa using hsince
        exact Or.inr this.le
      · refine (hkept.updates j since hj hupdate).imp_right fun hle => ?_
        change since ≤ now
        omega
    · cases hhtml
      exact ⟨now, hread, Or.inr ⟨page, rfl, hshows.mono (by omega) (List.Subset.refl _)⟩⟩

theorem statusPages_discipline : Discipline (statusPages ι) (fun a => a.locked = true)
    (fun past a => Kept past a.instant a.cache fun _ => False) Inside Outside where
  start past a i hcalls := by
    refine .waiting ?_
    rw [told, hcalls]
    rfl
  outside := by
    intro past a i c next r b hout hserve
    obtain ⟨said, hq⟩ := hout.call
    obtain ⟨rfl, hk⟩ := Program.call.inj hq
    obtain rfl := eq_of_heq hk
    cases r with
    | none =>
      obtain ⟨he, _, hcache, hlocked⟩ := hserve
      refine Or.inl ⟨by rw [hlocked], fun hkept => ?_, .done answered_none⟩
      rw [hcache]
      exact hkept.wait he True.intro
    | some cache =>
      obtain ⟨hfree, rfl, he, _, hcache, hlocked⟩ := hserve
      refine Or.inr ⟨by rw [hfree]; exact Bool.false_ne_true, hlocked, fun hkept => .looking hcache ?_ ?_⟩
      · rw [told_cons_self, said]
        rfl
      · have hwait := hkept.wait (i := i) (c := .lockCache) (r := some a.cache) he True.intro
        exact ⟨hwait.page, fun j now _ => hwait.updates j now id⟩
  inside := by
    intro past a i c next r b hlocked hin hserve
    generalize hq : Program.call c next = q at hin
    cases hin with
    | looking held said kept =>
      obtain ⟨rfl, hk⟩ := Program.call.inj hq
      obtain rfl := eq_of_heq hk
      obtain ⟨hwaits, hnow⟩ := hserve
      exact Or.inl ⟨hwaits.2.2.2.trans hlocked, inside_look held said kept hwaits hnow⟩
    | updating held said kept read expired =>
      obtain ⟨rfl, _⟩ := Program.call.inj hq
      exact Or.inl ⟨hserve.1.2.2.2.trans hlocked, inside_update held said kept read expired hserve hq.symm⟩
    | creating held said kept expired snapshot =>
      obtain ⟨rfl, _⟩ := Program.call.inj hq
      exact Or.inl ⟨hserve.1.2.2.2.trans hlocked, inside_create said kept expired snapshot hserve hq.symm⟩
    | @leaving cache html kept answered =>
      obtain ⟨rfl, hk⟩ := Program.call.inj hq
      obtain rfl := eq_of_heq hk
      obtain ⟨he, _, hcache, hfree⟩ := hserve
      refine Or.inr ⟨by rw [hfree]; exact Bool.false_ne_true, ?_, .done fun page hpage => ?_⟩
      · rw [hcache]
        exact kept.wait he True.intro
      · exact (answered page hpage).mono (List.subset_cons_self _ _) (told_subset_cons i _)
  keepsOutside := by
    intro past a i c next r b j q hij _ _ hout
    exact hout.later (List.subset_cons_self _ _) (told_cons_ne (Ne.symm hij) _)
  keepsInside := by
    intro past a i c next r b j q hij hlocked hout hserve hin
    obtain ⟨_, hq⟩ := hout.call
    obtain ⟨rfl, _⟩ := Program.call.inj hq
    cases r with
    | none =>
      obtain ⟨he, _, hcache, _⟩ := hserve
      exact hin.later (List.subset_cons_self _ _) (told_cons_ne (Ne.symm hij) _) hcache he
        fun cache leftOut hkept => hkept.wait he True.intro
    | some cache =>
      rw [hserve.1] at hlocked
      cases hlocked
  environment := by
    intro past a b henv
    obtain ⟨⟨c, r, he, _⟩, hcache, hlocked⟩ := henv
    have hkept (cache : StatusCache) (leftOut : ι → Prop) (h : Kept past a.instant cache leftOut) :
        Kept past b.instant cache leftOut :=
      h.later he.instant_le (List.Subset.refl _) (fun _ => List.Subset.refl _) fun _ _ _ => id
    refine ⟨by rw [hlocked], fun h => ?_, fun j q hout => hout.later (List.Subset.refl _) rfl,
      fun j q hin => hin.later (List.Subset.refl _) rfl hcache he hkept⟩
    rw [hcache]
    exact hkept _ _ h

variable {cfg : Config ι PageCall.Reply PageServer (Option (Option WarmPoolTemplate))} {start : Clocked}

/-- No status page that is served is more than a second old when the request gets the lock, and the store is
looked at at most once a second, except after requests that made no page. -/
theorem statusPage_fresh (hstart : statusPageCacheExpiration * 2 ≤ start.instant)
    (h : (statusPages ι).Traced (.initial (startStatusPage start)) past cfg) :
    (∀ i html, cfg.finished i (some html) → Answered past (told i past) html) ∧
      ∀ j e earlier, (j, e) :: earlier <:+ past → e.call = .values → ∃ now, ⟨.instantNow, now⟩ ∈ told j earlier ∧
        ∀ i before, i ≠ j → Updates (told i earlier) before →
          MadeNone (told i earlier) ∨ before + statusPageCacheExpiration < now := by
  have hempty : Kept ([] : List (ι × Served PageCall.Reply PageServer)) start.instant (startStatusPage start).cache
      fun _ => False := by
    refine ⟨Or.inl ⟨rfl, ?_⟩, fun j now _ hupdate => absurd hupdate.1 List.not_mem_nil⟩
    change start.instant - statusPageCacheExpiration * 2 + statusPageCacheExpiration < start.instant
    unfold statusPageCacheExpiration at *
    omega
  obtain ⟨⟨holder, hguarded⟩, hcalls⟩ := h.guarded statusPages_discipline (by exact Bool.false_ne_true) hempty
  constructor
  · intro i html hi
    by_cases hholder : holder = some i
    · have hin := hguarded.inside i _ hi hholder
      generalize hq : (Program.done (some html) : PageRequest) = q at hin
      cases hin with
      | looking | updating | creating | leaving => cases hq
    · have hout := hguarded.outside i _ hi hholder
      generalize hq : (Program.done (some html) : PageRequest) = q at hout
      cases hout with
      | waiting => cases hq
      | done answered =>
        cases hq
        exact answered html rfl
  · rintro j ⟨c, u, r, v⟩ earlier hsuffix rfl
    obtain ⟨next, hout | hin⟩ := hcalls j _ earlier hsuffix
    · obtain ⟨_, hq⟩ := hout.call
      cases hq
    · generalize hq : Program.call PageCall.values next = q at hin
      cases hin with
      | looking | creating | leaving => cases hq
      | @updating cache now held said kept read expired =>
        refine ⟨now, by rw [said]; simp, fun i before hij hupdate => ?_⟩
        refine (kept.updates i before hij hupdate).imp_right fun hle => ?_
        omega

/-- Nobody waits, and nothing is dropped. -/
def PageCall.execute : (c : PageCall) → PageServer → c.Reply × PageServer
  | .lockCache, a => if a.locked then (none, a) else (some a.cache, { a with locked := true })
  | .instantNow, a => (a.instant, a)
  | .values, a => (some ((FiniteMap.listing a.store).map Sigma.snd), a)
  | .createStatusPage ds, a => (some (Manager.createStatusPage .wrapping ds a.now), a)
  | .release cache, a => ((), { a with cache, locked := false })

theorem Waits.refl (a : PageServer) : Waits a a := ⟨⟨0, rfl, rfl⟩, rfl, rfl, rfl⟩

private theorem pageServes_execute (c : PageCall) (a : PageServer) :
    pageServes c a (c.execute a).1 (c.execute a).2 := by
  cases c with
  | lockCache =>
    by_cases hlocked : a.locked = true
    · simp only [PageCall.execute, hlocked, if_true]
      exact Waits.refl a
    · simp only [PageCall.execute, hlocked]
      exact ⟨Bool.eq_false_iff.mpr hlocked, rfl, Waits.refl _⟩
  | instantNow => exact ⟨Waits.refl a, rfl⟩
  | values =>
    refine ⟨Waits.refl a, fun ds hds => ⟨_, FiniteMap.enumerates_listing a.store, ?_⟩⟩
    exact (Option.some.inj hds).symm
  | createStatusPage ds => exact ⟨Waits.refl a, fun page hpage => (Option.some.inj hpage).symm⟩
  | release cache => exact Waits.refl _

/-- Without anybody else the steps of a request are one answer to `GET /browsers`. -/
theorem handleGetStatusPage_alone (formats : Formats) (ha : a.locked = false) :
    handleGetBrowsers formats a.store (FiniteMap.listing a.store) a.instant a.now { instanceId := none } a.cache =
        (.statusPage (handleGetStatusPage.eval PageCall.execute a).2.cache.page,
          (handleGetStatusPage.eval PageCall.execute a).2.cache) ∧
      (handleGetStatusPage.eval PageCall.execute a).1 =
        some (handleGetStatusPage.eval PageCall.execute a).2.cache.page := by
  have hlook : handleGetStatusPage.eval PageCall.execute a =
      (PageRequest.look a.cache).eval PageCall.execute { a with locked := true } := by
    simp only [handleGetStatusPage, perform_bind, Program.eval, PageCall.execute, ha]
    rfl
  have hbrowsers : handleGetBrowsers formats a.store (FiniteMap.listing a.store) a.instant a.now { instanceId := none }
      a.cache = (.statusPage (a.cache.refresh a.instant (createStatusPage .wrapping
        ((FiniteMap.listing a.store).map Sigma.snd) a.now)).page, a.cache.refresh a.instant (createStatusPage .wrapping
          ((FiniteMap.listing a.store).map Sigma.snd) a.now)) := rfl
  rw [hlook, hbrowsers]
  by_cases hexpired : statusPageCacheExpiration < a.instant - a.cache.madeAt
  · have hupdate : (PageRequest.look a.cache).eval PageCall.execute { a with locked := true } =
        (PageRequest.update a.cache a.instant).eval PageCall.execute { a with locked := true } := by
      simp only [PageRequest.look, perform_bind, Program.eval, PageCall.execute, hexpired, if_true]
    rw [hupdate]
    exact ⟨rfl, rfl⟩
  · have hleave : (PageRequest.look a.cache).eval PageCall.execute { a with locked := true } =
        (PageRequest.leave a.cache (some a.cache.page)).eval PageCall.execute { a with locked := true } := by
      simp only [PageRequest.look, perform_bind, Program.eval, PageCall.execute, hexpired, if_false]
    have hsame (page : Except PageError WarmPoolTemplate) : a.cache.refresh a.instant page = a.cache := if_neg hexpired
    rw [hleave, hsame]
    exact ⟨rfl, rfl⟩

/-- A browser is killed, and a second and a half goes by. -/
def browserKilled (a : PageServer) : PageServer :=
  { a with
    now := ⟨a.now.timestampMs + 1500⟩
    instant := a.instant + 1500
    store := ((Section.apply (killOrder (some ⟨"chrome"⟩) .killed ⟨0⟩)).execute
      (Stream'.const ⟨a.now.timestampMs + 1500⟩) a.store).2 }

/-- A request for the page of one browser, and another one right after it. -/
def twoRequests : List (Nat × Served PageCall.Reply PageServer) ×
    Config Nat PageCall.Reply PageServer (Option (Option WarmPoolTemplate)) :=
  (statusPages Nat).chronicle PageCall.execute ([], .initial (startStatusPage ⟨⟨replay ∅
    [(⟨1000⟩, .tryAddInstance
      { instanceId := some ⟨"chrome"⟩, instanceType := some InstanceType.chromeBrowser.toI32 })], ⟨9000⟩⟩, 5000⟩))
    (List.replicate 6 0 ++ List.replicate 4 1)

/-- A third one comes when the browser has been killed. -/
def thirdRequest : List (Nat × Served PageCall.Reply PageServer) ×
    Config Nat PageCall.Reply PageServer (Option (Option WarmPoolTemplate)) :=
  (statusPages Nat).chronicle PageCall.execute
    (twoRequests.1, { twoRequests.2 with state := browserKilled twoRequests.2.state }) (List.replicate 6 2)

private theorem thirdRequest_traced : (statusPages Nat).Traced (.initial (startStatusPage ⟨⟨replay ∅
    [(⟨1000⟩, .tryAddInstance
      { instanceId := some ⟨"chrome"⟩, instanceType := some InstanceType.chromeBrowser.toI32 })], ⟨9000⟩⟩, 5000⟩))
    thirdRequest.1 thirdRequest.2 := by
  have hkilled : (statusPages Nat).environment twoRequests.2.state (browserKilled twoRequests.2.state) := by
    have htime : (browserKilled twoRequests.2.state).now.timestampMs.toNat =
        twoRequests.2.state.now.timestampMs.toNat + 1500 := by decide +kernel
    exact ⟨⟨_, _, ⟨1500, htime, rfl⟩, _, FiniteMap.enumerates_listing _, rfl⟩, rfl, rfl⟩
  exact traced_chronicle pageServes_execute _
    (.environment (traced_chronicle pageServes_execute _ .nil) hkilled)

/-- The second request is answered from the cache, and the third looks at the store again. -/
theorem statusPage_fresh_thirdRequest :
    (told 0 thirdRequest.1).length = 5 ∧ (told 1 thirdRequest.1).length = 3 ∧ (told 2 thirdRequest.1).length = 5 ∧
    (∀ i html, thirdRequest.2.finished i (some html) → Answered thirdRequest.1 (told i thirdRequest.1) html) ∧
    ∀ j e earlier, (j, e) :: earlier <:+ thirdRequest.1 → e.call = .values →
      ∃ now, ⟨.instantNow, now⟩ ∈ told j earlier ∧
        ∀ i before, i ≠ j → Updates (told i earlier) before →
          MadeNone (told i earlier) ∨ before + statusPageCacheExpiration < now :=
  ⟨by decide +kernel, by decide +kernel, by decide +kernel, statusPage_fresh (by decide) thirdRequest_traced⟩

end WayPoint.Manager
