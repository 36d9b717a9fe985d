import WayPoint.Foundations.Turns
import WayPoint.Wright.Client

/-! The life of a client's connection (client.py): calls of `connect`, `close` and `send_action` on one
client whose awaits interleave, each of which may fail or be cancelled. -/
namespace WayPoint.Wright.ClientSession
open Foundations Program

/-- `websockets.connection.State`. -/
inductive State where
  | connecting
  | open
  | closing
  | closed
  deriving DecidableEq

/-- What a call does with `self.connection` and with the websockets library. A look at the connection and
its state, and what runs between two awaits, is one step. -/
inductive Await where
  | look
  | connect
  | close (conn : Nat)
  | waitClosed (conn : Nat)
  | write (connection : Option Nat)
  | exchange
  deriving DecidableEq

/-- An exchange says whether it ended with `ConnectionClosed`. -/
abbrev Await.Reply : Await → Type
  | .look => Option (Nat × State)
  | .connect => Except Raised Nat
  | .close _ | .waitClosed _ => Except Raised Unit
  | .write _ => Unit
  | .exchange => Except Raised Bool

abbrev Coroutine := ExceptT Raised (Program Await.Reply)

def await (c : Await) : Coroutine c.Reply := ExceptT.lift (perform c)

def isOpen : Option (Nat × State) → Bool
  | some (_, .open) => true
  | _ => false

/-- `is_connected`. -/
def isConnected : Coroutine Bool := do
  return isOpen (← await .look)

def setConnection (connection : Option Nat) : Coroutine Unit := await (.write connection)

/-- An exception is logged and raised again; a cancellation is no `Exception`. -/
def connect : Coroutine Unit := do
  if ← isConnected then return ()
  match ← await .connect with
  | .ok connection => setConnection (some connection)
  | .error .cancelled => throw .cancelled
  | .error (.exception e) =>
    setConnection none
    throw (.exception e)

/-- The awaits of the inner `try` block of `close`, whose exceptions are logged. -/
def shut (conn : Nat) : Coroutine Unit := do
  match ← await (.close conn) with
  | .ok () =>
    match ← await (.waitClosed conn) with
    | .error .cancelled => throw .cancelled
    | _ => return ()
  | .error .cancelled => throw .cancelled
  | .error (.exception _) => return ()

def close : Coroutine Unit := do
  match ← await .look with
  | some (conn, .open) => shut conn
  | _ => pure ()
  setConnection none

/-- `send_action`, as far as it touches the life of the connection. -/
def sendAction : Coroutine Unit := do
  if !(← isConnected) then return ()
  match ← await .exchange with
  | .ok true => close
  | .ok false => return ()
  | .error raised => throw raised

/-- The calls on a client; entering and leaving its context are `connect` and `close`. -/
inductive Call where
  | connect
  | close
  | sendAction
  deriving DecidableEq

def Call.run : Call → Program Await.Reply (Except Raised Unit)
  | .connect => ClientSession.connect.run
  | .close => ClientSession.close.run
  | .sendAction => ClientSession.sendAction.run

/-- `self.connection`, and the state of every connection that was ever made. -/
structure Session where
  connection : Option Nat := none
  states : List State := []
  deriving DecidableEq

/-- `__init__`. -/
def Session.init : Session := {}

def Session.isOpen (s : Session) (conn : Nat) : Prop := s.states[conn]? = some .open

instance (s : Session) (conn : Nat) : Decidable (s.isOpen conn) :=
  inferInstanceAs (Decidable (_ = _))

/-- The connection's state becomes another one. -/
def Session.set (s : Session) (conn : Nat) (state : State) : Session :=
  { s with states := s.states.set conn state }

/-- websockets: a connection that has been made is open; one that `close` has been called on is not, once
the call returns or raises. A cancelled `close` may have done anything to its connection but open it. -/
def serves : Server Await.Reply Session
  | .look, s, reply, s' =>
    reply = s.connection.bind (fun conn => (s.states[conn]?).map (conn, ·)) ∧ s' = s
  | .connect, s, reply, s' =>
    reply = .ok s.states.length ∧ s' = { s with states := s.states ++ [.open] } ∨
      (∃ raised, reply = .error raised) ∧ s' = s
  | .close conn, s, reply, s' =>
    (∃ state, state ≠ .open ∧ s' = s.set conn state) ∨ reply = .error .cancelled ∧ s' = s
  | .waitClosed _, s, _, s' => s' = s
  | .write connection, s, _, s' => s' = { s with connection }
  | .exchange, s, _, s' => s' = s

/-- Any number of calls on one client. Meanwhile its peers may close connections. -/
def session {ι : Type} (call : ι → Call) : System ι Await.Reply Session (Except Raised Unit) where
  program i := (call i).run
  serves := serves
  environment s s' := ∃ conn state, state ≠ .open ∧ s' = s.set conn state

/-! What a call still does, from each of its awaits on. -/

abbrev Running := Program Await.Reply (Except Raised Unit)

def assigning (conn : Nat) : Running := .call (.write (some conn)) fun _ => .done (.ok ())

def failing (e : PyException) : Running := .call (.write none) fun _ => .done (.error (.exception e))

def connecting : Running :=
  .call .connect fun
    | .ok conn => assigning conn
    | .error .cancelled => .done (.error .cancelled)
    | .error (.exception e) => failing e

def clearing : Running := .call (.write none) fun _ => .done (.ok ())

def waiting (conn : Nat) : Running :=
  .call (.waitClosed conn) fun
    | .error .cancelled => .done (.error .cancelled)
    | _ => clearing

def shutting (conn : Nat) : Running :=
  .call (.close conn) fun
    | .ok () => waiting conn
    | .error .cancelled => .done (.error .cancelled)
    | .error (.exception _) => clearing

def closing : Option (Nat × State) → Running
  | some (conn, .open) => shutting conn
  | _ => clearing

def exchanging : Running :=
  .call .exchange fun
    | .ok true => .call .look closing
    | .ok false => .done (.ok ())
    | .error raised => .done (.error raised)

theorem connect_run : connect.run =
    .call .look fun seen => if isOpen seen then .done (.ok ()) else connecting := by
  refine congrArg (Program.call _) (funext fun seen => ?_)
  rcases seen with _ | ⟨conn, _ | _ | _ | _⟩
  case some.open => rfl
  all_goals
    refine congrArg (Program.call _) (funext fun made => ?_)
    rcases made with (_ | e) | conn <;> rfl

theorem close_run : close.run = .call .look closing := by
  refine congrArg (Program.call _) (funext fun seen => ?_)
  rcases seen with _ | ⟨conn, _ | _ | _ | _⟩
  · rfl
  · rfl
  · refine congrArg (Program.call _) (funext fun closed => ?_)
    rcases closed with (_ | e) | _
    · rfl
    · rfl
    · refine congrArg (Program.call _) (funext fun waited => ?_)
      rcases waited with (_ | e) | _ <;> rfl
  · rfl
  · rfl

theorem sendAction_run : sendAction.run =
    .call .look fun seen => if isOpen seen then exchanging else .done (.ok ()) := by
  refine congrArg (Program.call _) (funext fun seen => ?_)
  rcases seen with _ | ⟨conn, _ | _ | _ | _⟩
  case some.open =>
    refine congrArg (Program.call _) (funext fun ended => ?_)
    rcases ended with raised | _ | _
    · rfl
    · rfl
    · exact close_run
  all_goals rfl

/-- `send_action` on one connection, seen from here: a look at it, and the whole exchange where it is open.
The exchange of that model never ends with `ConnectionClosed`. -/
theorem sendAction_dialogue {ι φ : Type} {lib : Stdlib φ} {caller : ι} {cmd : Command φ}
    {seen : Option (Nat × State)} {said : List (Sigma (@ClientAwait.Reply ι))}
    {r : Except Raised (Returned φ)}
    (h : (TzafonWrightClient.sendAction lib (isOpen seen) caller cmd).run.Dialogue said r) :
    sendAction.run.Dialogue
      (⟨.look, seen⟩ :: if isOpen seen then [⟨.exchange, r.map fun _ => false⟩] else [])
      (r.map fun _ => ()) := by
  rw [sendAction_run]
  refine .call ?_
  cases hseen : isOpen seen with
  | true =>
    cases r with
    | ok returned => exact .call (.done _)
    | error raised => exact .call (.done _)
  | false =>
    rw [hseen] at h
    obtain ⟨rfl, rfl⟩ := dialogue_done_iff.mp h
    exact .done _

/-- The client holds an open connection. -/
def Session.Connected (s : Session) : Prop := ∃ conn, s.connection = some conn ∧ s.isOpen conn

/-- How far a call has come, and what it has seen of the connection still holds: there is none that is
open, or it is the one to be closed. -/
inductive Stage (s : Session) : Running → Prop where
  | start (call : Call) : Stage s call.run
  | closing : Stage s (.call .look closing)
  | exchanging : Stage s exchanging
  | done (r : Except Raised Unit) : Stage s (.done r)
  | connecting (unconnected : ¬ s.Connected) : Stage s connecting
  | assigning (conn : Nat) (unconnected : ¬ s.Connected) (made : conn < s.states.length) :
      Stage s (assigning conn)
  | failing (e : PyException) (unconnected : ¬ s.Connected) : Stage s (failing e)
  | shutting (conn : Nat) (only : ∀ c, s.connection = some c → s.isOpen c → c = conn) :
      Stage s (shutting conn)
  | waiting (conn : Nat) (unconnected : ¬ s.Connected) : Stage s (waiting conn)
  | clearing (unconnected : ¬ s.Connected) : Stage s clearing

/-- Between its look at the connection and its last step. -/
def Midway (p : Running) : Prop := ∃ c next, p = .call c next ∧ c ≠ .look ∧ c ≠ .exchange

/-- No connection comes to be the client's open one. -/
structure Fades (s s' : Session) : Prop where
  current : ∀ conn, s'.connection = some conn → s'.isOpen conn → s.connection = some conn ∧ s.isOpen conn
  made : s.states.length ≤ s'.states.length

variable {s s' : Session} {p : Running}

theorem Fades.unconnected (h : Fades s s') (hs : ¬ s.Connected) : ¬ s'.Connected := by
  intro hconnected
  obtain ⟨conn, hconn, hopen⟩ := hconnected
  exact hs ⟨conn, h.current conn hconn hopen⟩

theorem Stage.fades (h : Stage s p) (hs : Fades s s') : Stage s' p := by
  cases h with
  | start call => exact .start call
  | closing => exact .closing
  | exchanging => exact .exchanging
  | done r => exact .done r
  | connecting unconnected => exact .connecting (hs.unconnected unconnected)
  | assigning conn unconnected made =>
    exact .assigning conn (hs.unconnected unconnected) (made.trans_le hs.made)
  | failing e unconnected => exact .failing e (hs.unconnected unconnected)
  | shutting conn only =>
    refine .shutting conn fun c hc hopen => ?_
    obtain ⟨hc, hopen⟩ := hs.current c hc hopen
    exact only c hc hopen
  | waiting conn unconnected => exact .waiting conn (hs.unconnected unconnected)
  | clearing unconnected => exact .clearing (hs.unconnected unconnected)

/-- A call that has looked at nothing yet, or is through with it, does not mind any change. -/
theorem Stage.anyhow (h : Stage s p) (hp : ¬ Midway p) : Stage s' p := by
  cases h with
  | start call => exact .start call
  | closing => exact .closing
  | exchanging => exact .exchanging
  | done r => exact .done r
  | _ => exact absurd ⟨_, _, rfl, Await.noConfusion, Await.noConfusion⟩ hp

private theorem isOpen_set {conn c : Nat} {state : State} (hstate : state ≠ .open)
    (h : (s.set conn state).isOpen c) : s.isOpen c := by
  unfold Session.isOpen Session.set at *
  rw [List.getElem?_set] at h
  split at h
  · split at h
    · exact absurd (Option.some.inj h) hstate
    · cases h
  · exact h

private theorem not_isOpen_set {conn : Nat} {state : State} (hstate : state ≠ .open) :
    ¬ (s.set conn state).isOpen conn := by
  unfold Session.isOpen Session.set
  rw [List.getElem?_set_self']
  intro h
  obtain ⟨_, _, h⟩ := Option.map_eq_some_iff.mp h
  exact hstate h

private theorem fades_set (conn : Nat) {state : State} (hstate : state ≠ .open) : Fades s (s.set conn state) :=
  ⟨fun _ hc hopen => ⟨hc, isOpen_set hstate hopen⟩, (List.length_set ..).ge⟩

private theorem fades_refl (s : Session) : Fades s s := ⟨fun _ hc hopen => ⟨hc, hopen⟩, le_rfl⟩

private theorem fades_clear (s : Session) : Fades s { s with connection := none } :=
  ⟨fun _ hc _ => (by cases hc), le_rfl⟩

private theorem look_spec {seen : Option (Nat × State)} (h : serves .look s seen s') : s' = s ∧
    (isOpen seen = false → ¬ s.Connected) ∧ ∀ conn, seen = some (conn, .open) → s.connection = some conn := by
  obtain ⟨rfl, rfl⟩ := h
  refine ⟨rfl, ?_, ?_⟩
  · intro hclosed hconnected
    obtain ⟨conn, hconn, hopen⟩ := hconnected
    rw [hconn, Option.bind_some, show s'.states[conn]? = _ from hopen] at hclosed
    cases hclosed
  · intro conn hseen
    obtain ⟨c, hc, hstate⟩ := Option.bind_eq_some_iff.mp hseen
    obtain ⟨_, _, hpair⟩ := Option.map_eq_some_iff.mp hstate
    cases hpair
    exact hc

private theorem stage_closing {seen : Option (Nat × State)} (h : serves .look s seen s') :
    Stage s (closing seen) := by
  obtain ⟨rfl, hclosed, hcurrent⟩ := look_spec h
  rcases seen with _ | ⟨conn, _ | _ | _ | _⟩
  case some.open =>
    refine .shutting conn fun c hc _ => ?_
    rw [hcurrent conn rfl] at hc
    exact (Option.some.inj hc).symm
  all_goals exact .clearing (hclosed rfl)

/-- A step that leaves the client's connection alone, or takes a closed one away. Only a connect makes an
open one, and is about to hand it over. -/
structure Quiet (s s' : Session) (p : Running) : Prop where
  fades : Fades s s'
  kept : s'.connection = s.connection ∨ s'.connection = none ∧ ¬ s.Connected
  opened : ∀ conn, s'.isOpen conn → s.isOpen conn ∨ p = assigning conn
  stage : Stage s' p

private theorem quiet_refl (h : Stage s p) : Quiet s s p := ⟨fades_refl s, Or.inl rfl, fun _ => Or.inl, h⟩

private theorem quiet_clear (hs : ¬ s.Connected) (h : Stage { s with connection := none } p) :
    Quiet s { s with connection := none } p :=
  ⟨fades_clear s, Or.inr ⟨rfl, hs⟩, fun _ => Or.inl, h⟩

private theorem quiet_connect (hbound : ∀ conn, s.connection = some conn → conn < s.states.length)
    (hs : ¬ s.Connected) :
    Quiet s { s with states := s.states ++ [.open] } (assigning s.states.length) := by
  have hold {c : Nat} (hc : c < s.states.length)
      (hopen : Session.isOpen { s with states := s.states ++ [.open] } c) : s.isOpen c := by
    unfold Session.isOpen at *
    rwa [List.getElem?_append_left hc] at hopen
  have hfades : Fades s { s with states := s.states ++ [.open] } := by
    refine ⟨fun c hc hopen => ⟨hc, hold (hbound c hc) hopen⟩, ?_⟩
    simp
  refine ⟨hfades, Or.inl rfl, fun c hopen => ?_, .assigning _ (hfades.unconnected hs) (by simp)⟩
  by_cases hc : c < s.states.length
  · exact Or.inl (hold hc hopen)
  · obtain ⟨hlength, _⟩ := List.getElem?_eq_some_iff.mp hopen
    rw [List.length_append, List.length_singleton] at hlength
    exact Or.inr (congrArg assigning (by omega))

/-- A step of a call hands a connection over to a client that has none open, or is quiet. -/
theorem stage_step {c : Await} {next : c.Reply → Running} {r : c.Reply} (h : Stage s (.call c next))
    (hbound : ∀ conn, s.connection = some conn → conn < s.states.length) (served : serves c s r s') :
    (∃ conn, c = .write (some conn) ∧ Program.call c next = assigning conn ∧ ¬ s.Connected ∧
      conn < s.states.length ∧ s' = { s with connection := some conn } ∧ next r = .done (.ok ())) ∨
    (∀ conn, c ≠ .write (some conn)) ∧ Quiet s s' (next r) := by
  generalize hq : Program.call c next = q at h ⊢
  cases h with
  | start call =>
    cases call with
    | connect =>
      rw [show Call.connect.run = _ from connect_run] at hq
      obtain ⟨rfl, hnext⟩ := Program.call.inj hq
      obtain rfl := eq_of_heq hnext
      obtain ⟨rfl, hclosed, _⟩ := look_spec served
      refine Or.inr ⟨fun _ h => (by cases h), quiet_refl ?_⟩
      change Stage s' (if isOpen r then .done (.ok ()) else connecting)
      split
      · exact .done _
      · next hseen => exact .connecting (hclosed (by simpa using hseen))
    | close =>
      rw [show Call.close.run = _ from close_run] at hq
      obtain ⟨rfl, hnext⟩ := Program.call.inj hq
      obtain rfl := eq_of_heq hnext
      obtain rfl := (look_spec served).1
      exact Or.inr ⟨fun _ h => (by cases h), quiet_refl (stage_closing served)⟩
    | sendAction =>
      rw [show Call.sendAction.run = _ from sendAction_run] at hq
      obtain ⟨rfl, hnext⟩ := Program.call.inj hq
      obtain rfl := eq_of_heq hnext
      obtain rfl := (look_spec served).1
      refine Or.inr ⟨fun _ h => (by cases h), quiet_refl ?_⟩
      change Stage s' (if isOpen r then exchanging else .done (.ok ()))
      split
      · exact .exchanging
      · exact .done _
  | closing =>
    obtain ⟨rfl, hnext⟩ := Program.call.inj hq
    obtain rfl := eq_of_heq hnext
    obtain rfl := (look_spec served).1
    exact Or.inr ⟨fun _ h => (by cases h), quiet_refl (stage_closing served)⟩
  | exchanging =>
    obtain ⟨rfl, hnext⟩ := Program.call.inj hq
    obtain rfl := eq_of_heq hnext
    obtain rfl : s' = s := served
    refine Or.inr ⟨fun _ h => (by cases h), quiet_refl ?_⟩
    rcases r with raised | _ | _
    · exact .done _
    · exact .done _
    · exact .closing
  | done r => cases hq
  | connecting unconnected =>
    obtain ⟨rfl, hnext⟩ := Program.call.inj hq
    obtain rfl := eq_of_heq hnext
    refine Or.inr ⟨fun _ h => (by cases h), ?_⟩
    rcases served with ⟨rfl, rfl⟩ | ⟨⟨raised, rfl⟩, rfl⟩
    · exact quiet_connect hbound unconnected
    · cases raised with
      | cancelled => exact quiet_refl (.done _)
      | exception e => exact quiet_refl (.failing e unconnected)
  | assigning conn unconnected made =>
    obtain ⟨rfl, hnext⟩ := Program.call.inj hq
    obtain rfl := eq_of_heq hnext
    exact Or.inl ⟨conn, rfl, rfl, unconnected, made, served, rfl⟩
  | failing e unconnected =>
    obtain ⟨rfl, hnext⟩ := Program.call.inj hq
    obtain rfl := eq_of_heq hnext
    obtain rfl : s' = _ := served
    exact Or.inr ⟨fun _ h => (by cases h), quiet_clear unconnected (.done _)⟩
  | shutting conn only =>
    obtain ⟨rfl, hnext⟩ := Program.call.inj hq
    obtain rfl := eq_of_heq hnext
    refine Or.inr ⟨fun _ h => (by cases h), ?_⟩
    rcases served with ⟨state, hstate, rfl⟩ | ⟨rfl, rfl⟩
    · have hshut : ¬ (s.set conn state).Connected := by
        intro hconnected
        obtain ⟨c, hc, hopen⟩ := hconnected
        obtain rfl := only c hc (isOpen_set hstate hopen)
        exact not_isOpen_set hstate hopen
      refine ⟨fades_set conn hstate, Or.inl rfl, fun _ hopen => Or.inl (isOpen_set hstate hopen), ?_⟩
      rcases r with (_ | e) | _
      · exact .done _
      · exact .clearing hshut
      · exact .waiting conn hshut
    · exact quiet_refl (.done _)
  | waiting conn unconnected =>
    obtain ⟨rfl, hnext⟩ := Program.call.inj hq
    obtain rfl := eq_of_heq hnext
    obtain rfl : s' = s := served
    refine Or.inr ⟨fun _ h => (by cases h), quiet_refl ?_⟩
    rcases r with (_ | e) | _
    · exact .done _
    · exact .clearing unconnected
    · exact .clearing unconnected
  | clearing unconnected =>
    obtain ⟨rfl, hnext⟩ := Program.call.inj hq
    obtain rfl := eq_of_heq hnext
    obtain rfl : s' = _ := served
    exact Or.inr ⟨fun _ h => (by cases h), quiet_clear unconnected (.done _)⟩

private theorem unconnected_of_clearing (h : Stage s clearing) : ¬ s.Connected := by
  generalize hq : clearing = q at h
  cases h with
  | clearing unconnected => exact unconnected
  | failing e unconnected => exact unconnected
  | done r => cases hq
  | start call =>
    cases call with
    | connect => cases (Program.call.inj (hq.trans connect_run)).1
    | close => cases (Program.call.inj (hq.trans close_run)).1
    | sendAction => cases (Program.call.inj (hq.trans sendAction_run)).1
  | _ => cases (Program.call.inj hq).1

section runs
variable {ι : Type} {call : ι → Call} {cfg cfg' : Config ι Await.Reply Session (Except Raised Unit)}
  {l : Label ι Await}

/-- No call gets its connection while another one is between its look and its last step. -/
def Undisturbed (cfg : Config ι Await.Reply Session (Except Raised Unit)) : Label ι Await → Prop
  | .call i (.write (some _)) => ∀ j ≠ i, ∀ p, cfg.thread j = some p → ¬ Midway p
  | _ => True

/-- A call is about to make `conn` the client's connection. -/
def AboutToHold (cfg : Config ι Await.Reply Session (Except Raised Unit)) (conn : Nat) : Prop :=
  ∃ i, cfg.thread i = some (assigning conn)

structure Tidy (cfg : Config ι Await.Reply Session (Except Raised Unit)) : Prop where
  bound : ∀ conn, cfg.state.connection = some conn → conn < cfg.state.states.length
  stage : ∀ i p, cfg.thread i = some p → Stage cfg.state p
  held : ∀ conn, cfg.state.isOpen conn → cfg.state.connection = some conn ∨ AboutToHold cfg conn

private theorem tidy_initial : Tidy (.initial .init : Config ι Await.Reply Session (Except Raised Unit)) where
  bound conn h := by cases h
  stage i p h := by cases h
  held conn h := by cases h

private theorem tidy_environment (h : Tidy cfg) {conn : Nat} {state : State} (hstate : state ≠ .open) :
    Tidy { cfg with state := cfg.state.set conn state } where
  bound c hc := (h.bound c hc).trans_eq (List.length_set ..).symm
  stage i p hp := (h.stage i p hp).fades (fades_set conn hstate)
  held c hc := h.held c (isOpen_set hstate hc)

variable [DecidableEq ι]

private theorem tidy_start (h : Tidy cfg) {i : ι} (hi : cfg.thread i = none) (c : Call) :
    Tidy (cfg.run i c.run) where
  bound := h.bound
  stage j p hp := by
    by_cases hj : j = i
    · subst hj
      rw [Config.run_thread_self] at hp
      cases hp
      exact .start c
    · rw [Config.run_thread_of_ne hj] at hp
      exact h.stage j p hp
  held conn hopen := by
    rcases h.held conn hopen with hcurrent | ⟨j, hj⟩
    · exact Or.inl hcurrent
    · have hne : j ≠ i := by
        rintro rfl
        rw [hi] at hj
        cases hj
      exact Or.inr ⟨j, (Config.run_thread_of_ne hne ..).trans hj⟩

/-- A connection is handed over while nobody else is midway: there was no open one to lose. -/
private theorem tidy_assigned (h : Tidy cfg) {i : ι} {conn : Nat} (hi : cfg.thread i = some (assigning conn))
    (halone : ∀ j ≠ i, ∀ p, cfg.thread j = some p → ¬ Midway p) (hs : ¬ cfg.state.Connected)
    (hmade : conn < cfg.state.states.length) {r : Except Raised Unit} :
    Tidy (Config.run { cfg with state := { cfg.state with connection := some conn } } i (.done r)) where
  bound c hc := by
    cases hc
    exact hmade
  stage j p hp := by
    by_cases hj : j = i
    · subst hj
      rw [Config.run_thread_self] at hp
      cases hp
      exact .done r
    · rw [Config.run_thread_of_ne hj] at hp
      exact (h.stage j p hp).anyhow (halone j hj p hp)
  held c hopen := by
    rcases h.held c hopen with hcurrent | ⟨j, hj⟩
    · exact absurd ⟨c, hcurrent, hopen⟩ hs
    · by_cases hji : j = i
      · subst hji
        rw [hi] at hj
        cases hj
        exact Or.inl rfl
      · exact absurd ⟨_, _, rfl, Await.noConfusion, Await.noConfusion⟩ (halone j hji _ hj)

private theorem tidy_quiet (h : Tidy cfg) {i : ι} {p q : Running} (hi : cfg.thread i = some q)
    (hq : ∀ conn, q ≠ assigning conn) (hquiet : Quiet cfg.state s' p) :
    Tidy (Config.run { cfg with state := s' } i p) where
  bound c hc := by
    rcases hquiet.kept with hsame | ⟨hnone, _⟩
    · exact (h.bound c (hsame.symm.trans hc)).trans_le hquiet.fades.made
    · cases hnone.symm.trans hc
  stage j q' hp := by
    by_cases hj : j = i
    · subst hj
      rw [Config.run_thread_self] at hp
      cases hp
      exact hquiet.stage
    · rw [Config.run_thread_of_ne hj] at hp
      exact (h.stage j q' hp).fades hquiet.fades
  held c hopen := by
    rcases hquiet.opened c hopen with hold | rfl
    · rcases h.held c hold with hcurrent | ⟨j, hj⟩
      · rcases hquiet.kept with hsame | ⟨_, hs⟩
        · exact Or.inl (hsame.trans hcurrent)
        · exact absurd ⟨c, hcurrent, hold⟩ hs
      · have hne : j ≠ i := by
          rintro rfl
          rw [hi] at hj
          cases hj
          exact hq c rfl
        exact Or.inr ⟨j, (Config.run_thread_of_ne hne ..).trans hj⟩
    · exact Or.inr ⟨i, Config.run_thread_self ..⟩

theorem tidy_step (h : Tidy cfg) (hl : Undisturbed cfg l) (hstep : (session call).Step cfg l cfg') :
    Tidy cfg' := by
  cases hstep with
  | start i hi => exact tidy_start h hi (call i)
  | @call i c next r s' hi served =>
    rcases stage_step (h.stage i _ hi) h.bound served with
      ⟨conn, rfl, hq, hs, hmade, rfl, hr⟩ | ⟨hc, hquiet⟩
    · rw [hr]
      exact tidy_assigned h (hi.trans (congrArg some hq)) hl hs hmade
    · exact tidy_quiet h hi (fun conn hq => hc conn (Program.call.inj hq).1) hquiet
  | environment henv =>
    obtain ⟨conn, state, hstate, rfl⟩ := henv
    exact tidy_environment h hstate

/-- As long as no call gets its connection while another one is midway, every open connection is the
client's or about to be. Between calls there is at most one, and a `close` leaves none behind. -/
theorem open_is_held (call : ι → Call) (h : (session call).Reaches Undisturbed (.initial .init) cfg) :
    (∀ conn, cfg.state.isOpen conn → cfg.state.connection = some conn ∨ AboutToHold cfg conn) ∧
    ((∀ i p, cfg.thread i = some p → ¬ Midway p) →
      ∀ conn conn', cfg.state.isOpen conn → cfg.state.isOpen conn' → conn = conn') ∧
    ∀ i, cfg.thread i = some clearing → ∀ conn, cfg.state.isOpen conn → AboutToHold cfg conn := by
  have htidy := h.invariant tidy_initial fun _ _ _ hi hl hstep => tidy_step hi hl hstep
  refine ⟨htidy.held, ?_, ?_⟩
  · intro hidle conn conn' hopen hopen'
    have hcurrent {c : Nat} (hc : cfg.state.isOpen c) : cfg.state.connection = some c := by
      rcases htidy.held c hc with hcurrent | ⟨i, hi⟩
      · exact hcurrent
      · exact absurd ⟨_, _, rfl, Await.noConfusion, Await.noConfusion⟩ (hidle i _ hi)
    exact Option.some.inj ((hcurrent hopen).symm.trans (hcurrent hopen'))
  · intro i hi conn hopen
    rcases htidy.held conn hopen with hcurrent | hhold
    · exact absurd ⟨conn, hcurrent, hopen⟩ (unconnected_of_clearing (htidy.stage i _ hi))
    · exact hhold

end runs

/-- A library that never fails, to servers that stay. -/
def Await.execute : (c : Await) → Session → c.Reply × Session
  | .look, s => (s.connection.bind (fun conn => (s.states[conn]?).map (conn, ·)), s)
  | .connect, s => (.ok s.states.length, { s with states := s.states ++ [.open] })
  | .close conn, s => (.ok (), s.set conn .closed)
  | .waitClosed _, s => (.ok (), s)
  | .write connection, s => ((), { s with connection })
  | .exchange, s => (.ok false, s)

theorem serves_execute (c : Await) (s : Session) : serves c s (c.execute s).1 (c.execute s).2 := by
  cases c with
  | look => exact ⟨rfl, rfl⟩
  | connect => exact Or.inl ⟨rfl, rfl⟩
  | close conn => exact Or.inl ⟨.closed, State.noConfusion, rfl⟩
  | waitClosed | write | exchange => rfl

/-- `connect`, `close`, and a second `connect`. -/
def reconnect : Fin 3 → Call
  | 1 => .close
  | _ => .connect

instance : DecidablePred Midway
  | .done _ => isFalse fun ⟨_, _, h, _⟩ => (by cases h)
  | .call c next => decidable_of_iff (c ≠ .look ∧ c ≠ .exchange)
      ⟨fun h => ⟨c, next, rfl, h⟩, fun ⟨_, _, h, hc⟩ => (Program.call.inj h).1 ▸ hc⟩

/-- Nobody else is midway. -/
def Alone {ι : Type} (cfg : Config ι Await.Reply Session (Except Raised Unit)) (i : ι) : Prop :=
  ∀ j ≠ i, ∀ p ∈ cfg.thread j, ¬ Midway p

instance (cfg : Config (Fin 3) Await.Reply Session (Except Raised Unit)) (i : Fin 3) :
    Decidable (Alone cfg i) :=
  inferInstanceAs (Decidable (∀ j ≠ i, ∀ p ∈ cfg.thread j, ¬ Midway p))

private theorem undisturbed_of_alone {ι : Type} {cfg : Config ι Await.Reply Session (Except Raised Unit)}
    {i : ι} (h : Alone cfg i) : Undisturbed cfg (.start i) ∧ ∀ c, Undisturbed cfg (.call i c) := by
  refine ⟨True.intro, fun c => ?_⟩
  rcases c with _ | _ | _ | _ | ⟨_ | conn⟩ | _
  case write.some => exact h
  all_goals exact True.intro

/-- One call after the other: in the end the second connection is the only one that is open. -/
theorem open_is_held_reconnect :
    let cfg := (session reconnect).schedule Await.execute (.initial Session.init)
      [0, 0, 0, 0, 1, 1, 1, 1, 1, 2, 2, 2, 2]
    cfg.state.isOpen 1 ∧ ∀ conn, cfg.state.isOpen conn →
      cfg.state.connection = some conn ∨ AboutToHold cfg conn :=
  ⟨by decide +kernel, (open_is_held reconnect (System.reaches_scheduled serves_execute
    (fun _ _ h => undisturbed_of_alone h) (by decide +kernel))).1⟩

/-- The second `connect` starts before `close` is through, and its connection is lost: it stays open, and
the client no longer knows it. -/
theorem reconnect_loses : ∃ cfg, (session reconnect).Reaches (fun _ _ => True) (.initial .init) cfg ∧
    (∀ i, cfg.finished i (.ok ())) ∧ cfg.state.isOpen 1 ∧ cfg.state.connection = none := by
  refine ⟨_, System.reaches_schedule serves_execute (.initial Session.init) [0, 0, 0, 0, 1, 1, 1, 2, 2, 2, 2, 1, 1], ?_⟩
  decide +kernel

end WayPoint.Wright.ClientSession
