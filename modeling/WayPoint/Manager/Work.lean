import WayPoint.Foundations.Turns
import WayPoint.Manager.KillPass

/-! Everything that works on the store: the requests of clients and the passes of the kill loop. -/
namespace WayPoint.Manager
open Foundations Program

variable {s s' : InnerService} {clock : Clock} {x : InstanceId} {request : InstanceDescription}

inductive Work where
  | rpc (rpc : Rpc)
  | killPass
  deriving DecidableEq

/-- A pass of the kill loop answers nobody. -/
def Work.handler : Work → Handler (Option Answer)
  | .rpc request => some <$> request.handler
  | .killPass => (fun _ => none) <$> killUnhealthInstances

/-- Requests and passes that each run to completion before the next one starts. -/
def worked : Server (fun _ : Work => Option Answer) InnerService := fun work s answer s' =>
  Runs serves s work.handler answer s'

/-- One thread for each piece of work; nothing else touches the store. -/
def workers {ι : Type} (works : ι → Work) : System ι Section.Reply InnerService (Option Answer) where
  program i := (works i).handler
  serves := serves
  environment _ _ := False

abbrev WorkConfig (ι : Type) := Config ι Section.Reply InnerService (Option Answer)

private theorem serves_now_iff {t : TimestampMs} : serves .now s t s' ↔ s' = s := by
  constructor
  · intro hserve
    obtain ⟨clock, order, _, h⟩ := hserve
    exact (Prod.mk.inj h).2.symm
  · rintro rfl
    obtain ⟨order, ho⟩ := FiniteMap.exists_enumerates s'
    exact ⟨Stream'.const t, order, ho, rfl⟩

/-- Work is a request, or a pass that kills and changes nothing else. -/
inductive Work.Done (s s' : InnerService) : Work → Option Answer → Prop where
  | rpc {rpc : Rpc} {answer : Answer} (run : whole rpc s answer s') (outcome : rpc.Outcome s answer s') :
      Done s s' (.rpc rpc) (some answer)
  | killPass (consistent : Consistent s') (changes : FiniteMap.Changes (fun _ => KilledOnly) s s') :
      Done s s' .killPass none

theorem worked_done (hs : Consistent s) {work : Work} {answer : Option Answer}
    (h : worked work s answer s') : work.Done s s' answer := by
  cases work with
  | rpc rpc =>
    obtain ⟨a, rfl, hrun⟩ := runs_map_iff.mp h
    exact .rpc hrun (rpc_outcome hs hrun)
  | killPass =>
    obtain ⟨_, rfl, hrun⟩ := runs_map_iff.mp h
    simp only [killUnhealthInstances, locked, perform_bind, runs_call_iff] at hrun
    obtain ⟨t, u, hnow, hpass⟩ := hrun
    obtain rfl := serves_now_iff.mp hnow
    obtain ⟨hs', hch, _⟩ := killUnhealthInstancesAt_run hs hpass
    exact .killPass hs' hch

/-- What a listing shows: live entries of the type asked for that have sent a heartbeat. -/
theorem mem_getAllInstances (hs : Named s) {entries : Entries}
    (he : FiniteMap.Enumerates entries s) (query : AllInstancesQuery) (id : InstanceId) :
    id ∈ getAllInstances query entries ↔ ∃ d, s.lookup id.instanceId = some d ∧
      d.killInstanceRequest = none ∧ d.instanceType.getD 0 = query.instanceType ∧
      d.healthCheck.isSome := by
  simp only [getAllInstances, List.mem_map, List.mem_filter, beq_iff_eq, Option.isNone_iff_eq_none]
  constructor
  · intro hlisted
    obtain ⟨d, ⟨⟨⟨⟨e, hmem, rfl⟩, htype⟩, hbeat⟩, halive⟩, rfl⟩ := hlisted
    have hd := (he.mem_iff e).mp hmem
    rw [hs.key hd]
    exact ⟨e.2, hd, halive, htype, hbeat⟩
  · intro hentry
    obtain ⟨d, hd, halive, htype, hbeat⟩ := hentry
    have hmem := (he.mem_iff ⟨id.instanceId, d⟩).mpr hd
    exact ⟨d, ⟨⟨⟨⟨_, hmem, rfl⟩, htype⟩, hbeat⟩, halive⟩, by rw [hs.key hd]; rfl⟩

def Work.execute (clock : Clock) (work : Work) (s : InnerService) : Option Answer × InnerService :=
  work.handler.eval (Section.execute clock) s

theorem worked_execute (clock : Clock) (work : Work) (s : InnerService) :
    worked work s (work.execute clock s).1 (work.execute clock s).2 :=
  runs_eval (serves_execute clock) work.handler s

end WayPoint.Manager
