import WayPoint.Manager.Framing

/-! The sections each request is made of, and what a section sees of entries it does not name. -/
namespace WayPoint.Manager
open Foundations Program

variable {P : Set String} {s s' u : InnerService}

/-- The ids a section looks up. -/
def Section.names : Section → Set String
  | .now => ∅
  | .insertBlank instanceId _ => {instanceId.instanceId}
  | .apply request => request.names
  | .remove key => {key}
  | .get instanceId => {instanceId.instanceId}
  | .getAll _ => ∅
  | .getUnhealth _ => ∅

/-- The sections of requests that are one section: an update or a read. -/
def Section.Plain : Section → Prop
  | .apply _ | .get _ | .getAll _ => True
  | _ => False

private theorem detached_of_consistent (hu : Consistent u) (hf : Framed P s u) : Detached P u := by
  intro k d hd r hr c hc hP
  obtain ⟨c', hc', hcu, _⟩ := hu.child hd hr
  rw [hc] at hc'
  cases hc'
  rw [Finmap.mem_iff] at hcu
  obtain ⟨v, hv⟩ := hcu
  rw [hf.absent hP] at hv
  cases hv

/-- A half-made entry sends no heartbeat, so no listing shows it. -/
private theorem getAllInstances_framed (hf : Framed P s u)
    (hblank : ∀ x ∈ P, ∀ d, s.lookup x = some d → d.healthCheck = none) {entries : Entries}
    (he : FiniteMap.Enumerates entries s) (query : AllInstancesQuery) :
    ∃ entries', FiniteMap.Enumerates entries' u ∧
      getAllInstances query entries' = getAllInstances query entries := by
  classical
  refine ⟨entries.filter (fun e => decide (e.1 ∉ P)),
    he.filter (p := fun k => decide (k ∉ P)) fun k => ?_, ?_⟩
  · by_cases hk : k ∈ P
    · simp [hk, hf.absent hk]
    · simp [hk, hf.outside hk]
  · unfold getAllInstances
    congr 1
    simp only [List.filter_map, List.filter_filter]
    congr 1
    apply List.filter_congr
    intro e hmem
    have hd := (he.mem_iff e).mp hmem
    by_cases hP : e.1 ∈ P
    · simp [hP, hblank _ hP _ hd]
    · simp [hP]

/-- A plain section that names none of the half-made entries does the same without them. -/
theorem Section.Plain.framed {c : Section} {r : c.Reply} (hc : c.Plain) (hnames : ∀ x ∈ c.names, x ∉ P)
    (hf : Framed P s u) (hu : Consistent u)
    (hblank : ∀ x ∈ P, ∀ d, s.lookup x = some d → d.healthCheck = none) (h : serves c s r s') :
    ∃ u', serves c u r u' ∧ Framed P s' u' ∧ ∀ x ∈ P, s'.lookup x = s.lookup x := by
  cases c with
  | apply request =>
    obtain ⟨clock, later, hrun⟩ := serves_apply_iff.mp h
    have hsame := frames_apply hnames s u clock hf (detached_of_consistent hu hf)
    rcases hu' : (applyToInstanceDescription request).exec u clock with ⟨r', u', later'⟩
    rw [hrun, hu'] at hsame
    obtain rfl : r = r' := hsame.result
    exact ⟨u', serves_apply_iff.mpr ⟨clock, later', hu'⟩, hsame.framed, fun x hx => hsame.kept hx⟩
  | get id =>
    obtain ⟨clock, entries, he, hrun⟩ := h
    obtain ⟨rfl, rfl⟩ : getInstanceDescription id s = r ∧ s = s' := by
      simpa [Section.run, Section.runBy] using hrun
    refine ⟨u, ?_, hf, fun _ _ => rfl⟩
    obtain ⟨order, ho⟩ := FiniteMap.exists_enumerates u
    refine ⟨clock, order, ho, ?_⟩
    have hid := hf.outside (hnames id.instanceId rfl)
    simp [Section.run, Section.runBy, getInstanceDescription, hid]
  | getAll query =>
    obtain ⟨clock, entries, he, hrun⟩ := h
    obtain ⟨rfl, rfl⟩ : getAllInstances query entries = r ∧ s = s' := by
      simpa [Section.run, Section.runBy] using hrun
    obtain ⟨entries', he', hans⟩ := getAllInstances_framed hf hblank he query
    exact ⟨u, ⟨clock, entries', he', by simp [Section.run, Section.runBy, hans]⟩, hf, fun _ _ => rfl⟩
  | now | insertBlank | remove | getUnhealth => exact absurd hc id

theorem handler_cases (rpc : Rpc) :
    (∃ a, rpc.handler = .done a) ∨
      (∃ (c : Section) (f : c.Reply → Answer), c.Plain ∧
        rpc.handler = .call c (fun r => .done (f r)) ∧ ∀ request, rpc ≠ .tryAddInstance request) ∨
      ∃ request x t, rpc = .tryAddInstance request ∧ request.instanceId = some x ∧
        rpc.handler = registration request x t := by
  have hplain {rpc : Rpc} {p : Handler Answer} (c : Section) (f : c.Reply → Answer) (hc : c.Plain)
      (hp : p = .call c (fun r => .done (f r))) (hne : ∀ request, rpc ≠ .tryAddInstance request) :
      (∃ a, p = .done a) ∨
        (∃ (c : Section) (f : c.Reply → Answer), c.Plain ∧ p = .call c (fun r => .done (f r)) ∧
          ∀ request, rpc ≠ .tryAddInstance request) ∨
        ∃ request x t, rpc = .tryAddInstance request ∧ request.instanceId = some x ∧
          p = registration request x t := Or.inr (Or.inl ⟨c, f, hc, hp, hne⟩)
  cases rpc with
  | tryAddInstance request =>
    rcases tryAdd_handler request with ⟨a, _, h⟩ | ⟨x, t, hx, _, h⟩
    · exact Or.inl ⟨a, h⟩
    · exact Or.inr (Or.inr ⟨request, x, t, rfl, hx, h⟩)
  | tryUpdateInstanceDescription request =>
    simp only [Rpc.handler, Manager.tryUpdateInstanceDescription]
    split
    · exact hplain (.apply request) Answer.bool True.intro rfl (by intro _ h; cases h)
    · exact Or.inl ⟨_, rfl⟩
  | postInstanceDescription request =>
    simp only [Rpc.handler, Manager.postInstanceDescription]
    split
    · exact hplain (.apply request) Answer.bool True.intro rfl (by intro _ h; cases h)
    · exact Or.inl ⟨_, rfl⟩
  | getInstance id =>
    exact hplain (.get id) Answer.description True.intro rfl (by intro _ h; cases h)
  | getAllInstances query =>
    exact hplain (.getAll query) Answer.instanceIds True.intro rfl (by intro _ h; cases h)
  | killUnhealth id reason current =>
    exact hplain (.apply (killOrder (some id) reason current)) Answer.bool True.intro rfl
      (by intro _ h; cases h)

end WayPoint.Manager
