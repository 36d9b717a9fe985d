import WayPoint.Gateway.EphemeralBrowserProxy
import WayPoint.Manager.Interference

/-! What an unreliable network preserves: each call changes the store as the manager's handler does
or not at all, and what is answered was true of the store. -/
namespace WayPoint.Gateway
open Foundations Manager Program

variable {s s' : InnerService}

/-- Whether or not the client learns of it, the manager ran the handler or it did not. -/
theorem Exchange.ran_or_same {β : Type} {handler : Handler (Except Status β)} {r : Except Status β}
    (h : Exchange handler s r s') : (∃ r', Runs serves s handler r' s') ∨ s' = s := by
  cases h with
  | delivered run => exact Or.inl ⟨_, run⟩
  | lost run => exact Or.inl ⟨_, run⟩
  | unsent => exact Or.inr rfl

theorem runs_getAll {query : AllInstancesQuery} {r : Except Status (List InstanceId)}
    (h : Runs serves s (Except.ok <$> locked (.getAll query) : Handler _) r s') :
    s' = s ∧ ∃ entries, FiniteMap.Enumerates entries s ∧ r = .ok (getAllInstances query entries) := by
  obtain ⟨ids, rfl, hget⟩ := runs_map_iff.mp h
  obtain ⟨_, entries, he, hserve⟩ := runs_perform_iff.mp hget
  cases hserve
  exact ⟨rfl, entries, he, rfl⟩

theorem runs_get {id : InstanceId} {r : Except Status InstanceDescription}
    (h : Runs serves s (locked (.get id)) r s') :
    s' = s ∧ r = Manager.getInstanceDescription id s := by
  obtain ⟨_, _, _, hserve⟩ := runs_perform_iff.mp h
  cases hserve
  exact ⟨rfl, rfl⟩

theorem delivers_advances (hs : Consistent s) {c : Remote} {r : c.Reply}
    (h : delivers c s r s') : Advances s s' hs := by
  cases c with
  | getAllInstances query =>
    rcases Exchange.ran_or_same h with ⟨_, run⟩ | rfl
    · obtain ⟨rfl, _⟩ := runs_getAll run
      exact .refl hs
    · exact .refl hs
  | getInstance id =>
    rcases Exchange.ran_or_same h with ⟨_, run⟩ | rfl
    · obtain ⟨rfl, _⟩ := runs_get run
      exact .refl hs
    · exact .refl hs
  | tryUpdateInstanceDescription request =>
    rcases Exchange.ran_or_same h with ⟨_, run⟩ | rfl
    · exact tryUpdate_advances hs run
    · exact .refl hs
  | now | connect | writeAll | copyBidirectional =>
    obtain rfl : s' = s := h
    exact .refl hs

/-- A listing repeats no id, and a description that is read carries the id that was asked for. -/
def Credible : (c : Remote) → c.Reply → Prop
  | .getAllInstances _, .ok ids => ids.Nodup
  | .getInstance id, .ok d => d.instanceId = some id
  | _, _ => True

theorem getAllInstances_nodup (hs : Named s) {entries : Entries}
    (he : FiniteMap.Enumerates entries s) (query : AllInstancesQuery) :
    (Manager.getAllInstances query entries).Nodup := by
  have hid {e : Sigma fun _ : String => InstanceDescription} (h : e ∈ entries) :
      e.2.instanceId.getD ⟨"instance_id_missing"⟩ = ⟨e.1⟩ := by
    rw [hs.key ((he.mem_iff e).mp h)]
    rfl
  unfold Manager.getAllInstances
  simp only [List.filter_map, List.filter_filter, List.map_map]
  refine List.Nodup.map_on ?_ (he.nodup.filter _)
  intro e hmem e' hmem' heq
  have hm := List.mem_of_mem_filter hmem
  have hm' := List.mem_of_mem_filter hmem'
  have hkey : e.1 = e'.1 := by
    have h : (⟨e.1⟩ : InstanceId) = ⟨e'.1⟩ := by
      rw [← hid hm, ← hid hm']
      exact heq
    exact congrArg InstanceId.instanceId h
  have hd := (he.mem_iff e).mp hm
  rw [hkey, (he.mem_iff e').mp hm'] at hd
  exact Sigma.ext hkey (heq_of_eq (Option.some.inj hd).symm)

theorem delivers_credible (hs : Named s) {c : Remote} {r : c.Reply}
    (h : delivers c s r s') : Credible c r := by
  cases c with
  | getAllInstances query =>
    cases h with
    | delivered run =>
      obtain ⟨_, entries, he, rfl⟩ := runs_getAll run
      exact getAllInstances_nodup hs he query
    | lost run status => trivial
    | unsent status => trivial
  | getInstance id =>
    cases h with
    | delivered run =>
      obtain ⟨_, rfl⟩ := runs_get run
      unfold getInstanceDescription
      split
      · trivial
      · next d hd => exact hs.key hd
    | lost run status => trivial
    | unsent status => trivial
  | _ => trivial

theorem delivers_named (hs : Named s) {c : Remote} {r : c.Reply} (h : delivers c s r s') :
    Named s' := by
  have hran {β : Type} {handler : Handler (Except Status β)} {r : Except Status β}
      (h : Exchange handler s r s') : Named s' := by
    rcases h.ran_or_same with ⟨_, run⟩ | rfl
    · exact run.preserves (I := Named) (fun _ _ _ _ hs hserve => serves_named hs hserve) hs
    · exact hs
  cases c with
  | getAllInstances query => exact hran h
  | getInstance id => exact hran h
  | tryUpdateInstanceDescription request => exact hran h
  | now | connect | writeAll | copyBidirectional =>
    obtain rfl : s' = s := h
    exact hs

theorem run_remote_bind {α : Type} (c : Remote) (f : c.Reply → Task α) :
    ((remote c >>= f : Task α).run : Program Remote.Reply (Except Error α)) =
      .call c (fun r => (f r).run) := rfl

end WayPoint.Gateway
