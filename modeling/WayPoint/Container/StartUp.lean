import WayPoint.Container.Tasks
import WayPoint.Foundations.FailStop

/-! The order in which a container starts: both child processes are launched and the gateway is spawned before
the container registers, and heartbeats are sent once it is registered. -/
namespace WayPoint.Container
open Foundations Manager Program System

variable {τ : Type}

/-- Loops are followed no further than their rounds. -/
def Followed (e : Sigma (@Wait.Reply τ)) : Prop := e.1 ≠ .further

/-- Finds the token cancelled. -/
def FindsCancelled : Sigma (@Wait.Reply τ) → Prop
  | ⟨.select _, none⟩ | ⟨.cancelled, _⟩ => True
  | _ => False

section startUp
variable {past steps : Told BrowserTask} {instanceId : InstanceId}

/-- These steps have been made, in this order. -/
def Made (steps past : Told BrowserTask) : Prop := List.Sublist steps past

theorem Made.mono (h : Made steps past) (later : Told BrowserTask) : Made steps (past ++ later) :=
  List.Sublist.trans h (List.sublist_append_left past later)

theorem Made.concat (h : Made steps past) (e : Sigma (@Wait.Reply BrowserTask)) : Made (steps ++ [e]) (past ++ [e]) :=
  List.Sublist.append h (List.Sublist.refl [e])

/-- What `main` does before it registers. -/
def startUp : Told BrowserTask :=
  [⟨.launch, true⟩, ⟨.spawn .chrome, ()⟩, ⟨.launch, true⟩, ⟨.spawn .tzafonwright, ()⟩, ⟨.bind, true⟩,
    ⟨.spawn .gateway, ()⟩]

/-- The manager has accepted the registration. -/
def Registered (instanceId : InstanceId) (past : Told BrowserTask) : Prop :=
  ∃ request, request.instanceId = some instanceId ∧ ⟨.locked (.apply request), .ok true⟩ ∈ past

/-- The container is registered after it has started up, sends heartbeats when it is registered, and `main`
leaves the token alone. -/
def InOrder (instanceId : InstanceId) (past : Told BrowserTask) :
    Sigma (@Wait.Reply BrowserTask) → Prop
  | ⟨.locked _, _⟩ => Made startUp past
  | ⟨.spawn .heartBeat, _⟩ => Registered instanceId past
  | ⟨.cancel, _⟩ => False
  | _ => True

/-- What holds after a part of `main` that has not failed. -/
abbrev OnSuccess {α : Type} (Q : Told BrowserTask → Prop)
    (past : Told BrowserTask) : Except TaskError α → Prop
  | .ok _ => Q past
  | .error _ => True

abbrev Proceeds {α : Type} (instanceId : InstanceId) (x : Async BrowserTask α)
    (Q : Told BrowserTask → Prop) (past : Told BrowserTask) : Prop :=
  x.run.Conforms Followed (InOrder instanceId) (OnSuccess Q) past

private theorem proceeds_bind {α β : Type} {x : Async BrowserTask α} {f : α → Async BrowserTask β}
    {Q R : Told BrowserTask → Prop} (hx : Proceeds instanceId x Q past)
    (hf : ∀ past a, Q past → Proceeds instanceId (f a) R past) : Proceeds instanceId (x >>= f) R past :=
  conforms_except_bind hx hf fun _ _ _ => True.intro

private theorem proceeds_require (e : TaskError) (succeeded : Bool) {Q : Told BrowserTask → Prop}
    (h : succeeded = true → Q past) : Proceeds instanceId (Async.require e succeeded) Q past := by
  cases succeeded with
  | false => exact True.intro
  | true => exact h rfl

private theorem proceeds_orThrow {α : Type} (e : TaskError) (r : Option α)
    {Q : Told BrowserTask → Prop} (h : Q past) :
    Proceeds instanceId (Async.orThrow e r) Q past := by
  cases r with
  | none => exact True.intro
  | some a => exact h

private theorem proceeds_spawn (t : BrowserTask) (ht : t ≠ .heartBeat) (h : Made steps past) :
    Proceeds instanceId (Async.await (.spawn t)) (Made (steps ++ [⟨.spawn t, ()⟩])) past := by
  intro _ _
  refine ⟨?_, h.concat ⟨.spawn t, ()⟩⟩
  cases t with
  | heartBeat => exact absurd rfl ht
  | _ => exact True.intro

private theorem proceeds_startChrome (h : Made steps past) : Proceeds instanceId BrowserContainer.startChrome
    (Made (steps ++ [⟨.launch, true⟩] ++ [⟨.spawn .chrome, ()⟩])) past := by
  intro launched _
  have hlaunched : Proceeds instanceId (Async.require .notLaunched launched) (Made (steps ++ [⟨.launch, true⟩]))
      (past ++ [⟨.launch, launched⟩]) := proceeds_require _ _ fun heq => heq ▸ h.concat _
  refine ⟨True.intro, proceeds_bind hlaunched fun past _ h => ?_⟩
  refine proceeds_bind (proceeds_spawn .chrome (by decide) h) fun past _ h => ?_
  intro line _
  refine ⟨True.intro, proceeds_bind (proceeds_orThrow _ _ (h.mono _)) fun past _ h => ?_⟩
  exact proceeds_orThrow _ _ h

private theorem proceeds_startTzafonwright (h : Made steps past) :
    Proceeds instanceId BrowserContainer.startTzafonwright
    (Made (steps ++ [⟨.launch, true⟩] ++ [⟨.spawn .tzafonwright, ()⟩])) past := by
  intro launched _
  have hlaunched : Proceeds instanceId (Async.require .notLaunched launched) (Made (steps ++ [⟨.launch, true⟩]))
      (past ++ [⟨.launch, launched⟩]) := proceeds_require _ _ fun heq => heq ▸ h.concat _
  exact ⟨True.intro, proceeds_bind hlaunched fun past _ h => proceeds_spawn .tzafonwright (by decide) h⟩

private theorem proceeds_startGateway (h : Made steps past) : Proceeds instanceId BrowserContainer.startGateway
    (Made (steps ++ [⟨.bind, true⟩] ++ [⟨.spawn .gateway, ()⟩])) past := by
  intro bound _
  have hbound : Proceeds instanceId (Async.require .notBound bound) (Made (steps ++ [⟨.bind, true⟩]))
      (past ++ [⟨.bind, bound⟩]) := proceeds_require _ _ fun heq => heq ▸ h.concat _
  exact ⟨True.intro, proceeds_bind hbound fun past _ h => proceeds_spawn .gateway (by decide) h⟩

/-- A section run from here. -/
def remote : Sigma Section.Reply → Sigma (@Wait.Reply BrowserTask)
  | ⟨c, r⟩ => ⟨.locked c, r⟩

private theorem conforms_remotely {α : Type} (handler : Handler α) (h : Made startUp past) :
    (Async.remotely handler).Conforms Followed (InOrder instanceId)
      (fun later a => ∃ said, handler.Dialogue said a ∧ later = past ++ said.map remote) past := by
  induction handler generalizing past with
  | done a => exact ⟨[], .done a, (List.append_nil past).symm⟩
  | call c next ih =>
    intro r _
    refine ⟨h, (ih r (h.mono _)).mono (fun _ _ h => h) fun later a hlater => ?_⟩
    obtain ⟨said, hsaid, rfl⟩ := hlater
    exact ⟨⟨c, r⟩ :: said, .call hsaid, by rw [List.map_cons, List.append_assoc]; rfl⟩

/-- A registration that is accepted has had its request applied. -/
private theorem tryAddInstance_accepted {request : InstanceDescription} {said : List (Sigma Section.Reply)}
    (h : (tryAddInstance request).Dialogue said (.ok true)) :
    ⟨.apply { request with instanceType := none }, .ok true⟩ ∈ said := by
  unfold tryAddInstance insertNewInstanceDescription at h
  split at h
  · split at h
    · split at h
      · cases (dialogue_done_iff.mp h).2
      · obtain ⟨inserted, rest, rfl, hinserted⟩ := dialogue_call_iff.mp h
        cases inserted with
        | false => cases (dialogue_done_iff.mp hinserted).2
        | true =>
          obtain ⟨applied, rest, rfl, happlied⟩ := dialogue_call_iff.mp hinserted
          rcases applied with e | _ | _
          · obtain ⟨_, _, _, hremoved⟩ := dialogue_call_iff.mp happlied
            cases (dialogue_done_iff.mp hremoved).2
          · obtain ⟨_, _, _, hremoved⟩ := dialogue_call_iff.mp happlied
            cases (dialogue_done_iff.mp hremoved).2
          · exact List.mem_cons_of_mem _ List.mem_cons_self
    · cases (dialogue_done_iff.mp h).2
  · cases (dialogue_done_iff.mp h).2

/-- What is known of the sections behind a response. -/
def Responded {α : Type} (handler : Handler (Except Status α)) (past : Told BrowserTask) :
    Except TaskError (Except Status α) → Prop
  | .ok (.ok a) => ∃ said, handler.Dialogue said (.ok a) ∧ ∀ e ∈ said, remote e ∈ past
  | _ => True

private theorem conforms_exchange {α : Type} (handler : Handler (Except Status α)) (h : Made startUp past) :
    (Async.exchange handler).run.Conforms Followed (InOrder instanceId) (Responded handler) past := by
  intro sent _
  refine ⟨True.intro, ?_⟩
  cases sent with
  | error status => exact True.intro
  | ok _ =>
    refine conforms_bind (Q := fun later (r : Except TaskError (Except Status α)) =>
      ∃ a said, r = .ok a ∧ handler.Dialogue said a ∧ ∀ e ∈ said, remote e ∈ later)
      (conforms_bind (conforms_remotely handler (h.mono _)) fun later a hlater => ?_) fun later r hr => ?_
    · obtain ⟨said, hsaid, rfl⟩ := hlater
      exact ⟨a, said, rfl, hsaid, fun e he => List.mem_append_right _ (List.mem_map_of_mem he)⟩
    · obtain ⟨response, said, rfl, hsaid, hmem⟩ := hr
      intro received _
      refine ⟨True.intro, ?_⟩
      cases received with
      | error status => exact True.intro
      | ok _ =>
        cases response with
        | error status => exact True.intro
        | ok a => exact ⟨said, hsaid, fun e he => List.mem_append_left _ (hmem e he)⟩

private theorem proceeds_initializeHealthLoop (instanceType : InstanceType) (services : Option Services)
    (h : Made startUp past) : Proceeds instanceId
      (Async.initializeHealthLoop instanceId instanceType services) (Registered instanceId) past := by
  refine conforms_bind (conforms_exchange _ h) fun later r hr => ?_
  rcases r with e | e | _ | _
  · exact True.intro
  · exact True.intro
  · exact True.intro
  · obtain ⟨said, hsaid, hmem⟩ := hr
    exact ⟨_, rfl, hmem _ (tryAddInstance_accepted hsaid)⟩

private theorem proceeds_instanceManagerConnection (container : BrowserContainer) (services : Services)
    (h : Made startUp past) : Proceeds container.instanceId (container.instanceManagerConnection services)
      (fun _ => True) past := by
  intro reached _
  refine ⟨True.intro, proceeds_bind (proceeds_require _ _ fun _ => h.mono _) fun past _ hstarted => ?_⟩
  refine proceeds_bind (proceeds_initializeHealthLoop _ _ hstarted) fun past _ hregistered => ?_
  intro _ _
  refine ⟨hregistered, ?_⟩
  intro _ _
  exact ⟨True.intro, True.intro⟩

theorem conforms_main (container : BrowserContainer) : container.main.run.Conforms Followed
    (InOrder container.instanceId) (fun past out => out = .ok () → ∃ e ∈ past, FindsCancelled e) [] := by
  have hip : Proceeds container.instanceId container.getIpAddress (Made []) [] := by
    unfold BrowserContainer.getIpAddress
    split
    · exact List.nil_sublist _
    · intro _ _
      exact ⟨True.intro, proceeds_orThrow _ _ (List.nil_sublist _)⟩
  have hmain : Proceeds container.instanceId container.main (fun past => ∃ e ∈ past, FindsCancelled e) [] := by
    refine proceeds_bind hip fun past _ h => ?_
    refine proceeds_bind (proceeds_startChrome h) fun past _ h => ?_
    refine proceeds_bind (proceeds_startTzafonwright h) fun past _ h => ?_
    refine proceeds_bind (proceeds_orThrow _ _ h) fun past _ h => ?_
    refine proceeds_bind (proceeds_startGateway h) fun past _ h => ?_
    refine proceeds_bind (proceeds_instanceManagerConnection container _ h) fun past _ _ => ?_
    intro _ _
    exact ⟨True.intro, _, List.mem_append_right _ (List.mem_singleton_self _), True.intro⟩
  refine hmain.mono (fun _ _ h => h) fun past out hout heq => ?_
  rw [heq] at hout
  exact hout

end startUp

end WayPoint.Container
