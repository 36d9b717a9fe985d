import WayPoint.Foundations.Methods
import WayPoint.Wright.RoundTrip

/-! How the server comes up and goes down (server.py): what it acquires on the way, and that everything
acquired is released. Connections are served between, and are over when the websocket server is closed. -/
namespace WayPoint.Wright
open Foundations Method

variable {φ : Type}

/-- What `start`, `stop` and `main_async` wait for, and the attributes they read. -/
inductive LifeCall where
  | startPlaywright
  | connectOverCdp (cdpUrl : Str)
  | contexts
  | newContext
  | pages
  | newPage
  | url
  | serve
  | stopEvent
  | closeServer
  | waitClosed
  | closePage
  | closeContext
  | closeBrowser
  | stopPlaywright

/-- Of the contexts and the pages there are, only the first one is used. -/
abbrev LifeCall.Answer : LifeCall → Type
  | .contexts | .pages => Bool
  | .url => Str
  | _ => Unit

abbrev LifeCall.Reply (c : LifeCall) : Type := Except PyException c.Answer

/-- Which fields of the object are set, and whether `start` has its `server`. -/
structure Fields where
  playwrightInstance : Bool := false
  browser : Bool := false
  context : Bool := false
  page : Bool := false
  server : Bool := false
  deriving DecidableEq

abbrev Lifecycle (α : Type) := Method LifeCall.Reply Fields PyException α

def life (c : LifeCall) : Lifecycle c.Answer := do raise (← perform c)

namespace BrowserServer
variable (lib : Stdlib φ)

/-- One of the closing `try` blocks of `stop`. -/
def closing (held : Fields → Bool) (close : Lifecycle Unit) (text : Str) : Lifecycle Unit := do
  if held (← fields) then tryCatch close fun e => raise (lib.print (text ++ e.text))

def stop : Lifecycle Unit := do
  if (← fields).playwrightInstance then
    closing lib Fields.page (life .closePage) (str "[BrowserServer] Error closing page: ")
    closing lib Fields.context (life .closeContext) (str "[BrowserServer] Error closing context: ")
    closing lib Fields.browser (life .closeBrowser) (str "[BrowserServer] Error closing browser: ")
    closing lib Fields.playwrightInstance (life .stopPlaywright)
      (str "[BrowserServer] Error stopping Playwright instance: ")
    update fun f => { f with page := false, context := false, browser := false, playwrightInstance := false }

/-- What is there already is used, else one is made. -/
def firstOr (existing : Lifecycle Bool) (new : Lifecycle Unit) : Lifecycle Unit := do
  if !(← existing) then new

/-- The `try` block of `_initialize_playwright`. -/
def connect (cdpUrl : Str) : Lifecycle Unit := do
  life .startPlaywright
  update fun f => { f with playwrightInstance := true }
  raise (lib.print (str "[BrowserServer] Attempting Playwright connect_over_cdp to " ++ cdpUrl))
  life (.connectOverCdp cdpUrl)
  update fun f => { f with browser := true }
  firstOr (life .contexts) (life .newContext)
  update fun f => { f with context := true }
  firstOr (life .pages) (life .newPage)
  update fun f => { f with page := true }
  let url ← life .url
  raise (lib.print (str "[BrowserServer] Playwright Page ready: " ++ url))

def initializePlaywright (cdpUrl : Str) : Lifecycle Unit :=
  tryCatch (connect lib cdpUrl) fun e => do
    raise (lib.print ((if e.type = .playwrightError then
      str "[BrowserServer] Playwright Error during initialization: "
      else str "[BrowserServer] Unexpected error during Playwright initialization: ") ++ e.text))
    stop lib
    throw e

/-- The `try` block of `start` with its handler. -/
def run (cdpUrl : Str) : Lifecycle Unit :=
  tryCatch (do
    initializePlaywright lib cdpUrl
    life .serve
    update fun f => { f with server := true }
    life .stopEvent) fun e => do
      raise (lib.print (str "[BrowserServer] Failed to start server: " ++ e.text))
      stop lib

/-- The `finally` of `start`. -/
def shutdown : Lifecycle Unit := do
  if (← fields).server then
    life .closeServer
    life .waitClosed
  stop lib

def start (cdpUrl : Str) : Lifecycle Unit := finally_ (run lib cdpUrl) (shutdown lib)

end BrowserServer

/-- `main_async`, by whether a stop signal came before `start` was over: without one nobody asks for the
exception of `start`. -/
def mainAsync (lib : Stdlib φ) (stopSignalReceived : Bool) (cdpUrl : Str) : Lifecycle Unit :=
  if stopSignalReceived then BrowserServer.start lib cdpUrl
  else do
    tryCatch (BrowserServer.start lib cdpUrl) fun _ => return ()
    BrowserServer.stop lib

/-- What is released again, in the order it is acquired. -/
inductive Resource where
  | playwright
  | browser
  | context
  | page
  | webSocketServer
  deriving DecidableEq

namespace Resource

def inOrder : List Resource := [.playwright, .browser, .context, .page, .webSocketServer]

def acquired? : Sigma LifeCall.Reply → Option Resource
  | ⟨.startPlaywright, .ok _⟩ => some .playwright
  | ⟨.connectOverCdp _, .ok _⟩ => some .browser
  | ⟨.contexts, .ok true⟩ | ⟨.newContext, .ok _⟩ => some .context
  | ⟨.pages, .ok true⟩ | ⟨.newPage, .ok _⟩ => some .page
  | ⟨.serve, .ok _⟩ => some .webSocketServer
  | _ => none

/-- A closing call counts whatever comes of it. -/
def released? : Sigma LifeCall.Reply → Option Resource
  | ⟨.stopPlaywright, _⟩ => some .playwright
  | ⟨.closeBrowser, _⟩ => some .browser
  | ⟨.closeContext, _⟩ => some .context
  | ⟨.closePage, _⟩ => some .page
  | ⟨.waitClosed, _⟩ => some .webSocketServer
  | _ => none

def acquisitions (said : List (Sigma LifeCall.Reply)) : List Resource := said.filterMap acquired?

def releases (said : List (Sigma LifeCall.Reply)) : List Resource := said.filterMap released?

end Resource

/-- The exceptions of closing calls can be printed, and closing the websocket server and waiting for the
stop event raise none. -/
def Orderly : Sigma LifeCall.Reply → Prop
  | ⟨.closePage, .error e⟩ | ⟨.closeContext, .error e⟩ | ⟨.closeBrowser, .error e⟩
  | ⟨.stopPlaywright, .error e⟩ => e.text.hasSurrogate = false
  | ⟨.closeServer, .error _⟩ | ⟨.waitClosed, .error _⟩ | ⟨.stopEvent, .error _⟩ => False
  | _ => True

namespace Fields

/-- The fields after so many acquisitions. -/
def stage (k : Nat) (server : Bool) : Fields where
  playwrightInstance := decide (0 < k)
  browser := decide (1 < k)
  context := decide (2 < k)
  page := decide (3 < k)
  server := server

end Fields

section triples
open Resource
variable {A R : List Resource} {f : Fields} {lib : Stdlib φ} {k : Nat} {server : Bool}

@[simp] theorem acquisitions_concat (past : List (Sigma LifeCall.Reply)) (e : Sigma LifeCall.Reply) :
    acquisitions (past ++ [e]) = acquisitions past ++ (acquired? e).toList := by
  rw [acquisitions, List.filterMap_append, acquisitions]
  cases h : acquired? e <;> simp [h]

@[simp] theorem releases_concat (past : List (Sigma LifeCall.Reply)) (e : Sigma LifeCall.Reply) :
    releases (past ++ [e]) = releases past ++ (released? e).toList := by
  rw [releases, List.filterMap_append, releases]
  cases h : released? e <;> simp [h]

/-- What has been acquired and released, and the fields. -/
def At (A R : List Resource) (f : Fields) : Assertion LifeCall.Reply Fields := fun past s =>
  acquisitions past = A ∧ releases past = R ∧ s = f

private theorem triple_life (c : LifeCall) : Triple Orderly (At A R f) (life c)
    (fun a => At (A ++ (acquired? ⟨c, .ok a⟩).toList) (R ++ (released? ⟨c, .ok a⟩).toList) f)
    (fun e past s => Orderly ⟨c, .error e⟩ ∧
      At (A ++ (acquired? ⟨c, .error e⟩).toList) (R ++ (released? ⟨c, .error e⟩).toList) f past s) := by
  refine triple_bind (Q := fun r past s => Orderly ⟨c, r⟩ ∧
    At (A ++ (acquired? ⟨c, r⟩).toList) (R ++ (released? ⟨c, r⟩).toList) f past s) (triple_perform ?_) fun r => ?_
  · intro past s r hat horderly
    obtain ⟨hA, hR, hf⟩ := hat
    exact ⟨horderly, by rw [acquisitions_concat, hA], by rw [releases_concat, hR], hf⟩
  · refine triple_raise ?_ ?_
    · intro a ha past s hat
      exact ha ▸ hat.2
    · intro e he past s hat
      exact he ▸ hat

private theorem triple_read {α : Type} {g : Fields → Lifecycle α} {Q : α → Assertion LifeCall.Reply Fields}
    {E : PyException → Assertion LifeCall.Reply Fields} (h : Triple Orderly (At A R f) (g f) Q E) :
    Triple Orderly (At A R f) (fields >>= g) Q E := by
  refine triple_bind (Q := fun s past t => s = f ∧ At A R f past t) (triple_fields ?_) fun s => triple_of_fact ?_
  · intro past s hat
    exact ⟨hat.2.2, hat⟩
  · intro hs
    rwa [hs]

private theorem triple_print {s : Str} {P : Assertion LifeCall.Reply Fields} (hs : s.hasSurrogate = false)
    {E : PyException → Assertion LifeCall.Reply Fields} :
    Triple Orderly P (raise (lib.print s) : Lifecycle Unit) (fun _ => P) E := by
  have hprint : lib.print s = .ok () := by
    rw [Stdlib.print, hs]
    rfl
  refine triple_raise (fun _ _ _ _ hP => hP) ?_
  intro e he
  rw [hprint] at he
  cases he

private theorem triple_print_any {s : Str} {P : Assertion LifeCall.Reply Fields} :
    Triple Orderly P (raise (lib.print s) : Lifecycle Unit) (fun _ => P) (fun _ => P) :=
  triple_raise (fun _ _ _ _ hP => hP) fun _ _ _ _ hP => hP

/-- A resource that is held is closed once, and an exception of that is printed. -/
private theorem triple_closing {held : Fields → Bool} {close : Lifecycle Unit} {text : Str} {r : Resource}
    (hclose : Triple Orderly (At A R f) close (fun _ => At A (R ++ [r]) f)
      (fun e past s => e.text.hasSurrogate = false ∧ At A (R ++ [r]) f past s))
    (htext : text.hasSurrogate = false) :
    Triple Orderly (At A R f) (BrowserServer.closing lib held close text)
      (fun _ => At A (R ++ if held f then [r] else []) f) (fun _ _ _ => False) := by
  refine triple_read ?_
  cases held f with
  | false =>
    refine triple_pure ?_
    intro past s hat
    rwa [if_neg Bool.false_ne_true, List.append_nil]
  | true =>
    refine triple_tryCatch hclose fun e => triple_of_fact fun he => triple_print ?_
    rw [hasSurrogate_append, htext, he]
    rfl

private theorem triple_stop (hk : k ≤ 4) : Triple Orderly (At A R (.stage k server)) (BrowserServer.stop lib)
    (fun _ => At A (R ++ (inOrder.take k).reverse) (.stage 0 server)) (fun _ _ _ => False) := by
  have hlife (c : LifeCall) (r : Resource) (R : List Resource) (ha : ∀ reply, acquired? ⟨c, reply⟩ = none)
      (hr : ∀ reply, released? ⟨c, reply⟩ = some r)
      (herror : ∀ e, Orderly ⟨c, .error e⟩ → e.text.hasSurrogate = false) :
      Triple Orderly (At A R (.stage k server)) (life c) (fun _ => At A (R ++ [r]) (.stage k server))
        (fun e past s => e.text.hasSurrogate = false ∧ At A (R ++ [r]) (.stage k server) past s) := by
    refine (triple_life c).conseq (fun _ _ h => h) ?_ ?_
    · intro a past s hat
      rwa [ha, hr, Option.toList_none, List.append_nil] at hat
    · intro e past s hat
      obtain ⟨horderly, hat⟩ := hat
      rw [ha, hr, Option.toList_none, List.append_nil] at hat
      exact ⟨herror e horderly, hat⟩
  have hclosed : R ++ (if (Fields.stage k server).page then [Resource.page] else []) ++
      (if (Fields.stage k server).context then [.context] else []) ++
      (if (Fields.stage k server).browser then [.browser] else []) ++
      (if (Fields.stage k server).playwrightInstance then [.playwright] else []) = R ++ (inOrder.take k).reverse := by
    simp only [List.append_assoc]
    congr 1
    have hcases : k = 0 ∨ k = 1 ∨ k = 2 ∨ k = 3 ∨ k = 4 := by omega
    rcases hcases with rfl | rfl | rfl | rfl | rfl <;> rfl
  refine triple_read ?_
  split
  · refine triple_bind (triple_closing (hlife _ .page _ (fun _ => rfl) (fun _ => rfl) fun _ h => h) rfl) fun _ => ?_
    refine triple_bind (triple_closing (hlife _ .context _ (fun _ => rfl) (fun _ => rfl) fun _ h => h) rfl) fun _ => ?_
    refine triple_bind (triple_closing (hlife _ .browser _ (fun _ => rfl) (fun _ => rfl) fun _ h => h) rfl) fun _ => ?_
    refine triple_bind (triple_closing (hlife _ .playwright _ (fun _ => rfl) (fun _ => rfl) fun _ h => h) rfl) fun _ => ?_
    refine triple_update ?_
    intro past s hat
    obtain ⟨hA, hR, rfl⟩ := hat
    exact ⟨hA, hR.trans hclosed, rfl⟩
  · next hnone =>
    obtain rfl : k = 0 := by simpa [Fields.stage] using hnone
    refine triple_pure ?_
    intro past s hat
    simpa using hat

/-- So many resources are held. -/
def Holding (k : Nat) : Assertion LifeCall.Reply Fields := At (inOrder.take k) [] (.stage k false)

/-- One more is acquired than the fields say. -/
def Acquired (k : Nat) : Assertion LifeCall.Reply Fields := At (inOrder.take (k + 1)) [] (.stage k false)

/-- Up to all four of Playwright's resources are held, and nothing else. -/
def HoldingSome : Assertion LifeCall.Reply Fields := fun past s => ∃ k, k ≤ 4 ∧ Holding k past s

/-- So many resources were acquired, and all are released again. -/
def Released (k : Nat) (server : Bool) : Assertion LifeCall.Reply Fields :=
  At (inOrder.take k) (inOrder.take k).reverse (.stage 0 server)

private theorem triple_acquired {g : Fields → Fields} (hg : g (.stage k false) = .stage (k + 1) false)
    {E : PyException → Assertion LifeCall.Reply Fields} :
    Triple Orderly (Acquired k) (update g) (fun _ => Holding (k + 1)) E := by
  refine triple_update ?_
  intro past s hat
  obtain ⟨hA, hR, rfl⟩ := hat
  exact ⟨hA, hR, hg⟩

/-- A call that takes the next resource on some answers only. -/
private theorem triple_take {c : LifeCall} {r : Resource} {t : c.Answer → Bool} (hk : k ≤ 4)
    (hnext : inOrder.take (k + 1) = inOrder.take k ++ [r])
    (hok : ∀ a, acquired? ⟨c, .ok a⟩ = if t a then some r else none)
    (herror : ∀ e, acquired? ⟨c, .error e⟩ = none) (hr : ∀ reply, released? ⟨c, reply⟩ = none) :
    Triple Orderly (Holding k) (life c) (fun a => if t a then Acquired k else Holding k)
      (fun _ => HoldingSome) := by
  refine (triple_life c).conseq (fun _ _ h => h) ?_ ?_
  · intro a past s hat
    rw [hok, hr, Option.toList_none, List.append_nil] at hat
    cases htaken : t a with
    | true =>
      rw [htaken, if_pos rfl, Option.toList_some, ← hnext] at hat
      exact hat
    | false =>
      rw [htaken, if_neg Bool.false_ne_true, Option.toList_none, List.append_nil] at hat
      exact hat
  · intro e past s hat
    obtain ⟨_, hat⟩ := hat
    rw [herror, hr, Option.toList_none, List.append_nil, List.append_nil] at hat
    exact ⟨k, hk, hat⟩

private theorem triple_acquire {c : LifeCall} {r : Resource} (hk : k ≤ 4)
    (hnext : inOrder.take (k + 1) = inOrder.take k ++ [r]) (hok : ∀ a, acquired? ⟨c, .ok a⟩ = some r)
    (herror : ∀ e, acquired? ⟨c, .error e⟩ = none) (hr : ∀ reply, released? ⟨c, reply⟩ = none) :
    Triple Orderly (Holding k) (life c) (fun _ => Acquired k) (fun _ => HoldingSome) :=
  triple_take (t := fun _ => true) hk hnext hok herror hr

private theorem triple_firstOr {existing : Lifecycle Bool} {new : Lifecycle Unit}
    (hexisting : Triple Orderly (Holding k) existing (fun b => if b then Acquired k else Holding k)
      (fun _ => HoldingSome))
    (hnew : Triple Orderly (Holding k) new (fun _ => Acquired k) (fun _ => HoldingSome)) :
    Triple Orderly (Holding k) (BrowserServer.firstOr existing new) (fun _ => Acquired k)
      (fun _ => HoldingSome) := by
  refine triple_bind hexisting fun b => ?_
  cases b with
  | true => exact triple_pure fun _ _ h => h
  | false => exact hnew

private theorem triple_connect (cdpUrl : Str) : Triple Orderly (Holding 0) (BrowserServer.connect lib cdpUrl)
    (fun _ => Holding 4) (fun _ => HoldingSome) := by
  have hsome {k : Nat} (hk : k ≤ 4) (past : List (Sigma LifeCall.Reply)) (s : Fields) (hat : Holding k past s) :
      HoldingSome past s := ⟨k, hk, hat⟩
  have hprint {k : Nat} (hk : k ≤ 4) (text : Str) : Triple Orderly (Holding k)
      (raise (lib.print text) : Lifecycle Unit) (fun _ => Holding k) (fun _ => HoldingSome) :=
    triple_print_any.conseq (fun _ _ h => h) (fun _ _ _ h => h) fun _ => hsome hk
  have hfirst : Triple Orderly (Holding 2) (BrowserServer.firstOr (life .contexts) (life .newContext))
      (fun _ => Acquired 2) (fun _ => HoldingSome) :=
    triple_firstOr (triple_take (r := .context) (by decide) rfl (by decide) (fun _ => rfl) fun _ => rfl)
      (triple_acquire (by decide) rfl (fun _ => rfl) (fun _ => rfl) fun _ => rfl)
  have hpage : Triple Orderly (Holding 3) (BrowserServer.firstOr (life .pages) (life .newPage))
      (fun _ => Acquired 3) (fun _ => HoldingSome) :=
    triple_firstOr (triple_take (r := .page) (by decide) rfl (by decide) (fun _ => rfl) fun _ => rfl)
      (triple_acquire (by decide) rfl (fun _ => rfl) (fun _ => rfl) fun _ => rfl)
  have hurl : Triple Orderly (Holding 4) (life .url) (fun _ => Holding 4) (fun _ => HoldingSome) :=
    triple_take (t := fun _ => false) (by decide) rfl (fun _ => rfl) (fun _ => rfl) fun _ => rfl
  refine triple_bind (triple_acquire (by decide) rfl (fun _ => rfl) (fun _ => rfl) fun _ => rfl) fun _ => ?_
  refine triple_bind (triple_acquired rfl) fun _ => ?_
  refine triple_bind (hprint (by decide) _) fun _ => ?_
  refine triple_bind (triple_acquire (by decide) rfl (fun _ => rfl) (fun _ => rfl) fun _ => rfl) fun _ => ?_
  refine triple_bind (triple_acquired rfl) fun _ => ?_
  refine triple_bind hfirst fun _ => ?_
  refine triple_bind (triple_acquired rfl) fun _ => ?_
  refine triple_bind hpage fun _ => ?_
  refine triple_bind (triple_acquired rfl) fun _ => ?_
  exact triple_bind hurl fun _ => hprint (by decide) _

/-- Playwright's resources are held or released again, whatever came of acquiring them. -/
def Settled : Assertion LifeCall.Reply Fields := fun past s =>
  ∃ k, k ≤ 4 ∧ (Holding k past s ∨ Released k false past s)

private theorem triple_stop_settled : Triple Orderly Settled (BrowserServer.stop lib)
    (fun _ past s => ∃ k, k ≤ 4 ∧ Released k false past s) (fun _ _ _ => False) := by
  refine triple_exists fun k => triple_of_fact fun hk => triple_or ?_ ?_
  · exact (triple_stop hk).conseq (fun _ _ h => h) (fun _ _ _ h => ⟨k, hk, h⟩) fun _ _ _ h => h
  · refine (triple_stop (Nat.zero_le 4)).conseq (fun _ _ h => h) ?_ fun _ _ _ h => h
    intro a past s hat
    rw [List.take_zero, List.reverse_nil, List.append_nil] at hat
    exact ⟨k, hk, hat⟩

/-- A handler that prints and stops, whatever the print does. -/
private theorem triple_handler {text : Str} {rest : Unit → Lifecycle Unit} {Q : Unit → Assertion LifeCall.Reply Fields}
    {E : PyException → Assertion LifeCall.Reply Fields} (hE : ∀ e past s, Settled past s → E e past s)
    (hrest : ∀ u, Triple Orderly (fun past s => ∃ k, k ≤ 4 ∧ Released k false past s) (rest u) Q E) :
    Triple Orderly Settled (do raise (lib.print text); let u ← BrowserServer.stop lib; rest u) Q E := by
  refine triple_bind (triple_print_any.conseq (fun _ _ h => h) (fun _ _ _ h => h) hE) fun _ => ?_
  exact triple_bind (triple_stop_settled.conseq (fun _ _ h => h) (fun _ _ _ h => h) fun _ _ _ h => h.elim) hrest

theorem HoldingSome.settled {past : List (Sigma LifeCall.Reply)} {s : Fields} (h : HoldingSome past s) :
    Settled past s := by
  obtain ⟨k, hk, hat⟩ := h
  exact ⟨k, hk, Or.inl hat⟩

private theorem triple_initializePlaywright (cdpUrl : Str) :
    Triple Orderly (Holding 0) (BrowserServer.initializePlaywright lib cdpUrl) (fun _ => Holding 4)
      (fun _ => Settled) := by
  refine triple_tryCatch (triple_connect cdpUrl) fun e => ?_
  refine (triple_handler (fun _ _ _ h => h) fun _ => triple_throw ?_).conseq (fun _ _ h => h.settled)
    (fun _ _ _ h => h) fun _ _ _ h => h
  intro past s hreleased
  obtain ⟨k, hk, hat⟩ := hreleased
  exact ⟨k, hk, Or.inr hat⟩

/-- The websocket server is up as well, or it never was. -/
def Serving : Assertion LifeCall.Reply Fields := fun past s =>
  At inOrder [] (.stage 4 true) past s ∨ Settled past s

theorem triple_run (cdpUrl : Str) : Triple Orderly (Holding 0) (BrowserServer.run lib cdpUrl) (fun _ => Serving)
    (fun _ => Serving) := by
  have hserve : Triple Orderly (Holding 4) (life .serve) (fun _ => Acquired 4) (fun _ => Settled) :=
    (triple_acquire (r := .webSocketServer) (by decide) rfl (fun _ => rfl) (fun _ => rfl) fun _ => rfl).conseq
      (fun _ _ h => h) (fun _ _ _ h => h) fun _ _ _ h => h.settled
  have hstop : Triple Orderly (At inOrder [] (.stage 4 true)) (life .stopEvent) (fun _ => Serving) (fun _ => Settled) := by
    refine (triple_life .stopEvent).conseq (fun _ _ h => h) ?_ fun _ _ _ h => h.1.elim
    intro a past s hat
    exact Or.inl hat
  refine triple_tryCatch (Q := fun _ => Serving) (E := fun _ => Settled) ?_ fun e => ?_
  · refine triple_bind (triple_initializePlaywright cdpUrl) fun _ => triple_bind hserve fun _ => ?_
    refine triple_bind (Q := fun _ => At inOrder [] (.stage 4 true)) (triple_update ?_) fun _ => hstop
    intro past s hat
    obtain ⟨hA, hR, rfl⟩ := hat
    exact ⟨hA, hR, rfl⟩
  · refine triple_bind (triple_print_any.conseq (fun _ _ h => h) (fun _ _ _ h => h) fun _ _ _ h => Or.inr h) fun _ => ?_
    refine triple_stop_settled.conseq (fun _ _ h => h) ?_ fun _ _ _ h => h.elim
    intro a past s hreleased
    obtain ⟨k, hk, hat⟩ := hreleased
    exact Or.inr ⟨k, hk, Or.inr hat⟩

/-- Everything that was acquired is released, the last acquired first. -/
def AllReleased : Assertion LifeCall.Reply Fields := fun past s => ∃ k server, Released k server past s

private theorem triple_shutdown : Triple Orderly Serving (BrowserServer.shutdown lib) (fun _ => AllReleased)
    (fun _ _ _ => False) := by
  refine triple_or ?_ ?_
  · have hclose : Triple Orderly (At inOrder [] (.stage 4 true)) (life .closeServer)
        (fun _ => At inOrder [] (.stage 4 true)) (fun _ _ _ => False) :=
      (triple_life .closeServer).conseq (fun _ _ h => h) (fun _ _ _ h => h) fun _ _ _ h => h.1
    have hwait : Triple Orderly (At inOrder [] (.stage 4 true)) (life .waitClosed)
        (fun _ => At inOrder [.webSocketServer] (.stage 4 true)) (fun _ _ _ => False) :=
      (triple_life .waitClosed).conseq (fun _ _ h => h) (fun _ _ _ h => h) fun _ _ _ h => h.1
    refine triple_read (triple_bind hclose fun _ => triple_bind hwait fun _ => ?_)
    exact (triple_stop le_rfl).conseq (fun _ _ h => h) (fun _ _ _ h => ⟨5, true, h⟩) fun _ _ _ h => h
  · have hdown {k : Nat} {A R : List Resource} (hk : k ≤ 4) (hR : R ++ (inOrder.take k).reverse = A.reverse)
        (hA : ∃ n, A = inOrder.take n) : Triple Orderly (At A R (.stage k false)) (BrowserServer.shutdown lib)
          (fun _ => AllReleased) (fun _ _ _ => False) := by
      obtain ⟨n, rfl⟩ := hA
      refine triple_read ((triple_stop hk).conseq (fun _ _ h => h) ?_ fun _ _ _ h => h)
      intro a past s hat
      exact ⟨n, false, hat.1, hat.2.1.trans hR, hat.2.2⟩
    refine triple_exists fun k => triple_of_fact fun hk => triple_or ?_ ?_
    · exact hdown hk rfl ⟨k, rfl⟩
    · exact hdown (Nat.zero_le 4) (List.append_nil _) ⟨k, rfl⟩

private theorem triple_start (cdpUrl : Str) : Triple Orderly (Holding 0) (BrowserServer.start lib cdpUrl)
    (fun _ => AllReleased) (fun _ => AllReleased) :=
  triple_finally (triple_run cdpUrl)
    (triple_shutdown.conseq (fun _ _ h => h) (fun _ _ _ h => h) fun _ _ _ h => h.elim)

theorem triple_mainAsync (stopSignalReceived : Bool) (cdpUrl : Str) :
    Triple Orderly (Holding 0) (mainAsync lib stopSignalReceived cdpUrl) (fun _ => AllReleased)
      (fun _ => AllReleased) := by
  cases stopSignalReceived with
  | true => exact triple_start cdpUrl
  | false =>
    refine triple_bind (triple_tryCatch (triple_start cdpUrl) fun e => triple_pure fun _ _ h => h) fun _ => ?_
    refine triple_exists fun k => triple_exists fun server => ?_
    refine (triple_stop (Nat.zero_le 4)).conseq (fun _ _ h => h) ?_ fun _ _ _ h => h.elim
    intro a past s hat
    rw [List.take_zero, List.reverse_nil, List.append_nil] at hat
    exact ⟨k, server, hat⟩

/-- Whatever fails on the way up or down, what was acquired is released, each resource once and the last
acquired first; nothing of Playwright is left in the fields. -/
theorem mainAsync_releases (stopSignalReceived : Bool) {cdpUrl : Str} {said : List (Sigma LifeCall.Reply)}
    {out : Except PyException Unit} {s : Fields}
    (h : (mainAsync lib stopSignalReceived cdpUrl {}).Dialogue said (out, s)) (horderly : ∀ e ∈ said, Orderly e) :
    acquisitions said <+: inOrder ∧ releases said = (acquisitions said).reverse ∧
      ∃ server, s = { server := server } := by
  have hstart : Holding 0 [] {} := ⟨rfl, rfl, rfl⟩
  have hend := triple_mainAsync stopSignalReceived cdpUrl [] {} said out s hstart h horderly
  have hreleased : AllReleased said s := by
    cases out with
    | ok a => exact hend
    | error e => exact hend
  obtain ⟨k, server, hA, hR, rfl⟩ := hreleased
  exact ⟨hA ▸ List.take_prefix k inOrder, by rw [hA, hR], server, rfl⟩

end triples

def browserGone : PyException := ⟨.playwrightError, str "Target page, context or browser has been closed"⟩

/-- The browser goes away before a page is open. -/
def lostBrowser : List (Sigma LifeCall.Reply) :=
  [⟨.startPlaywright, .ok ()⟩, ⟨.connectOverCdp (str "http://localhost:9222"), .ok ()⟩, ⟨.contexts, .ok true⟩,
    ⟨.pages, .ok false⟩, ⟨.newPage, .error browserGone⟩, ⟨.closeContext, .error browserGone⟩,
    ⟨.closeBrowser, .ok ()⟩, ⟨.stopPlaywright, .ok ()⟩]

theorem mainAsync_lostBrowser : (mainAsync (.sample "" [] []) false (str "http://localhost:9222") {}).Dialogue
    lostBrowser (.ok (), {}) := by
  repeat (first | exact .done _ | refine .call ?_)

theorem mainAsync_releases_lostBrowser : Resource.acquisitions lostBrowser <+: Resource.inOrder ∧
    Resource.releases lostBrowser = (Resource.acquisitions lostBrowser).reverse ∧
      ∃ server, ({} : Fields) = { server := server } := by
  refine mainAsync_releases false mainAsync_lostBrowser ?_
  simp only [lostBrowser, List.forall_mem_cons]
  exact ⟨trivial, trivial, trivial, trivial, trivial, hasSurrogate_str _, trivial, trivial, fun e he => by cases he⟩

end WayPoint.Wright
