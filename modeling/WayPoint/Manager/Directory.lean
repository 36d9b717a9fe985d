import WayPoint.Manager.Interference

/-! Where instances are to be reached. The manager says of an instance's services what it was told in
updates of that instance, so instances that give their own addresses make up a directory. -/
namespace WayPoint.Manager
open Foundations Program

variable {s s' : InnerService}

/-- The same addresses, whenever they were given. -/
def Services.Same (a b : Services) : Prop :=
  a.chromeDebugPortService = b.chromeDebugPortService ∧ a.tzafonwrightService = b.tzafonwrightService

instance : DecidableRel Services.Same := fun _ _ => inferInstanceAs (Decidable (_ ∧ _))

abbrev Directory := String → Services

namespace Directory
variable (directory : Directory)

/-- A description of `x` in which no other services stand. -/
def Lists (x : String) (d : InstanceDescription) : Prop := ∀ services ∈ d.services, services.Same (directory x)

instance (x : String) (d : InstanceDescription) : Decidable (directory.Lists x d) :=
  inferInstanceAs (Decidable (∀ services ∈ d.services, _))

/-- A store that agrees with the directory. -/
def Keeps (s : InnerService) : Prop := ∀ x d, s.lookup x = some d → directory.Lists x d

/-- A section that tells the manager of no other services. -/
def Announced : Section → Prop
  | .apply request => ∀ x ∈ request.instanceId, directory.Lists x.instanceId request
  | _ => True

variable {directory}

theorem lists_of_none {x : String} {d : InstanceDescription} (h : d.services = none) : directory.Lists x d := by
  intro services hservices
  rw [h] at hservices
  cases hservices

private theorem lists_effect {clock : Clock} {x : InstanceId} {request d d' : InstanceDescription} {y : String}
    (h : Effect clock x request y d d') (hd : directory.Lists y d)
    (hrequest : directory.Lists x.instanceId request) : directory.Lists y d' := by
  intro services hservices
  rcases h.services.mem hservices with hold | ⟨given, hgiven, t, _, rfl⟩
  · exact hd services hold
  · by_cases hy : y = x.instanceId
    · subst hy
      rw [incoming_self] at hgiven
      exact hrequest given hgiven
    · rw [incoming_other hy] at hgiven
      cases hgiven

/-- Nothing that is announced takes the store away from the directory. -/
theorem keeps_serves (hs : Named s) (hkeeps : directory.Keeps s) {c : Section} {r : c.Reply}
    (hc : directory.Announced c) (h : serves c s r s') : directory.Keeps s' := by
  cases c with
  | apply request =>
    obtain ⟨clock, later, hrun⟩ := serves_apply_iff.mp h
    rcases apply_effect hs hrun with ⟨_, rfl⟩ | ⟨_, x, hx, heffect⟩
    · exact hkeeps
    · intro y d' hd'
      obtain ⟨d, hd, hchange⟩ := heffect.back hd'
      exact lists_effect hchange (hkeeps y d hd) (hc x hx.instanceId)
  | insertBlank id t =>
    rcases serves_insertBlank_iff.mp h with ⟨_, _, rfl⟩ | ⟨_, _, now, rfl⟩
    · exact hkeeps
    · intro y d hd
      rw [FiniteMap.lookup_insert_eq] at hd
      split at hd
      · cases hd
        exact lists_of_none rfl
      · exact hkeeps y d hd
  | remove key =>
    obtain rfl := serves_remove_iff.mp h
    intro y d hd
    rw [FiniteMap.lookup_erase_eq] at hd
    split at hd
    · cases hd
    · exact hkeeps y d hd
  | now | get | getAll | getUnhealth =>
    obtain ⟨_, _, _, hrun⟩ := h
    cases hrun
    exact hkeeps

/-- The same for a whole handler. -/
theorem keeps_runs {α : Type} {handler : Handler α} {a : α} (hhandler : handler.Within directory.Announced)
    (hs : Named s) (hkeeps : directory.Keeps s) (h : Runs serves s handler a s') : directory.Keeps s' := by
  induction h with
  | done s a => exact hkeeps
  | call hserve _ ih =>
    exact ih (hhandler.2 _) (serves_named hs hserve) (keeps_serves hs hkeeps hhandler.1 hserve)

/-- A request that gives no services but the instance's own. -/
def Tells (directory : Directory) : Rpc → Prop
  | .tryAddInstance request | .tryUpdateInstanceDescription request | .postInstanceDescription request =>
    ∀ x ∈ request.instanceId, directory.Lists x.instanceId request
  | .getInstance _ | .getAllInstances _ | .killUnhealth _ _ _ => True

instance (directory : Directory) : DecidablePred directory.Tells
  | .tryAddInstance _ | .tryUpdateInstanceDescription _ | .postInstanceDescription _ =>
    inferInstanceAs (Decidable (∀ x ∈ InstanceDescription.instanceId _, _))
  | .getInstance _ | .getAllInstances _ | .killUnhealth _ _ _ => inferInstanceAs (Decidable True)

theorem announced_locked {c : Section} (hc : directory.Announced c) : (locked c).Within directory.Announced :=
  ⟨hc, fun _ => True.intro⟩

private theorem announced_map {α β : Type} {handler : Handler α} (h : handler.Within directory.Announced) (f : α → β) :
    (f <$> handler).Within directory.Announced :=
  h.bind fun _ => True.intro

theorem announced_tryAddInstance {request : InstanceDescription}
    (h : ∀ x ∈ request.instanceId, directory.Lists x.instanceId request) :
    (tryAddInstance request).Within directory.Announced := by
  unfold tryAddInstance insertNewInstanceDescription
  split
  · split
    · split
      · exact True.intro
      · refine ⟨True.intro, fun inserted => ?_⟩
        cases inserted with
        | false => exact True.intro
        | true =>
          refine ⟨h, ?_⟩
          rintro (_ | _ | _)
          · exact ⟨True.intro, fun _ => True.intro⟩
          · exact ⟨True.intro, fun _ => True.intro⟩
          · exact True.intro
    · exact True.intro
  · exact True.intro

private theorem announced_handler {rpc : Rpc} (h : directory.Tells rpc) : rpc.handler.Within directory.Announced := by
  cases rpc with
  | tryAddInstance request => exact announced_map (announced_tryAddInstance h) _
  | tryUpdateInstanceDescription request =>
    refine announced_map ?_ _
    unfold tryUpdateInstanceDescription
    split
    · exact announced_locked h
    · exact True.intro
  | postInstanceDescription request =>
    refine announced_map ?_ _
    unfold postInstanceDescription
    split
    · exact announced_locked h
    · exact True.intro
  | getInstance | getAllInstances => exact ⟨True.intro, fun _ => True.intro⟩
  | killUnhealth => exact ⟨fun _ _ => lists_of_none rfl, fun _ => True.intro⟩

theorem keeps_replay (hs : Named s) (hkeeps : directory.Keeps s) {rpcs : List (TimestampMs × Rpc)}
    (h : ∀ e ∈ rpcs, directory.Tells e.2) : directory.Keeps (replay s rpcs) := by
  induction rpcs generalizing s with
  | nil => exact hkeeps
  | cons e rpcs ih =>
    obtain ⟨he, hrest⟩ := List.forall_mem_cons.mp h
    have hrun := runs_eval (serves_execute (Stream'.const e.1)) e.2.handler s
    exact ih (hrun.preserves (I := Named) (fun _ _ _ _ hs hserve => serves_named hs hserve) hs)
      (keeps_runs (announced_handler he) hs hkeeps hrun) hrest

end Directory
end WayPoint.Manager
