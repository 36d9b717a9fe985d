import WayPoint.Manager.Carried
import WayPoint.Manager.Untimed

/-! One link, asked for by the child or by the parent. The two requests are checked by different
code: a dead instance is refused as the one that asks, but not as the child asked for. -/
namespace WayPoint.Manager
open Foundations Program

variable {s s' : InnerService} {clock : Clock} {x : InstanceId} {request : InstanceDescription}
  {p c : String}

def linkedFromChild (p c : String) : InstanceDescription :=
  { instanceId := some ⟨c⟩, parent := some { instanceId := some ⟨p⟩ } }

def linkedFromParent (p c : String) : InstanceDescription :=
  { instanceId := some ⟨p⟩, children := some ⟨[{ instanceId := some ⟨c⟩ }]⟩ }

/-- One request succeeds when the other does, and then they leave the same but for times. -/
def SameFromEitherEnd (s : InnerService) (p c : String) : Prop :=
  ∀ r s₁ r' s₂, Runs serves s (tryUpdateInstanceDescription (linkedFromChild p c)) r s₁ →
    Runs serves s (tryUpdateInstanceDescription (linkedFromParent p c)) r' s₂ →
    (r = .ok true ↔ r' = .ok true) ∧ (r = .ok true → r' = .ok true → SameButTimes s₁ s₂)

private theorem tryUpdate_cases (hs : Consistent s) (hshape : updateShape request)
    {r : Except Status Bool} (h : Runs serves s (tryUpdateInstanceDescription request) r s') :
    (r = .ok true ↔ ∃ x, Accepted s x request) ∧
      (r = .ok true → ∃ clock x, Applied clock x request s s' ∧ Accepted s x request) := by
  rw [tryUpdateInstanceDescription, if_pos hshape] at h
  obtain ⟨clock, later, hrun⟩ := serves_apply_iff.mp (runs_perform_iff.mp h)
  rcases apply_cases hs request clock hrun with ⟨hr, _⟩ | ⟨hr, x, hx, ha⟩
  · refine ⟨⟨fun he => absurd he hr, fun hx => ?_⟩, fun he => absurd he hr⟩
    obtain ⟨x, hx⟩ := hx
    exact hx.answers hs hrun
  · exact ⟨⟨fun _ => ⟨x, hx⟩, fun _ => hr⟩, fun _ => ⟨clock, x, ha, hx⟩⟩

private theorem accepted_linkedFromChild : Accepted s x (linkedFromChild p c) ↔ x = ⟨c⟩ ∧ Alive s c ∧
    Alive s p ∧ p ≠ c ∧ ∀ q, ¬ HasParent s c q := by
  constructor
  · intro h
    obtain rfl : ⟨c⟩ = x := Option.some.inj h.instanceId
    obtain ⟨k, hk, hlive, hne, hfree⟩ := h.parent _ rfl
    obtain rfl : p = k := Option.some.inj hk
    exact ⟨rfl, h.alive, hlive, hne, hfree⟩
  · intro h
    obtain ⟨rfl, hc, hp, hne, hfree⟩ := h
    refine ⟨⟨hc, fun r hr => ?_, fun r hr => by cases hr⟩, rfl, rfl, rfl⟩
    cases hr
    exact ⟨p, rfl, hp, hne, hfree⟩

private theorem accepted_linkedFromParent : Accepted s x (linkedFromParent p c) ↔ x = ⟨p⟩ ∧ Alive s p ∧
    c ∈ s ∧ p ≠ c ∧ ∀ q, ¬ HasParent s c q := by
  constructor
  · intro h
    obtain rfl : ⟨p⟩ = x := Option.some.inj h.instanceId
    obtain ⟨k, hk, hmem, hne, hfree⟩ := h.child _ List.mem_cons_self
    obtain rfl : c = k := Option.some.inj hk
    exact ⟨rfl, h.alive, hmem, hne.symm, hfree⟩
  · intro h
    obtain ⟨rfl, hp, hc, hne, hfree⟩ := h
    refine ⟨⟨hp, fun r hr => (by cases hr), fun r hr => ?_⟩, rfl, rfl, rfl⟩
    obtain rfl := List.mem_singleton.mp hr
    exact ⟨c, rfl, hc, hne.symm, hfree⟩

theorem Effect.kill_eq {y : String} {d d' : InstanceDescription} (h : Effect clock x request y d d')
    (hk : request.killInstanceRequest = none) :
    d'.killInstanceRequest = d.killInstanceRequest := by
  rcases h.kill with hsame | ⟨hsome, _⟩
  · have hnone : (incoming x request y).killInstanceRequest = none := by
      unfold incoming
      split
      · exact hk
      · rfl
    rwa [hnone] at hsame
  · rw [hk] at hsome
    cases hsome

/-- Seen from each instance, both requests write the same links. -/
private theorem incoming_content_eq (hne : p ≠ c) (y : String) :
    (incoming ⟨c⟩ (linkedFromChild p c) y).content =
      (incoming ⟨p⟩ (linkedFromParent p c) y).content := by
  by_cases hc : y = c
  · subst hc
    rw [incoming_self ⟨y⟩, incoming_other (x := ⟨p⟩) hne.symm]
    simp [linkedFromChild, linkedFromParent, InstanceDescription.content, InstanceDescription.untimed,
      InstanceDescription.childList, Relationship.target, backLink]
  · rw [incoming_other (x := ⟨c⟩) hc]
    by_cases hp : y = p
    · subst hp
      rw [incoming_self ⟨y⟩]
      simp [linkedFromChild, linkedFromParent, InstanceDescription.content,
        InstanceDescription.untimed, InstanceDescription.childList, Relationship.target, backLink]
    · rw [incoming_other (x := ⟨p⟩) hp]
      simp [linkedFromChild, linkedFromParent, InstanceDescription.childList, Relationship.target,
        hc, Ne.symm hp]

private theorem sameButTimes_linked (hne : p ≠ c) {s₁ s₂ : InnerService} {clock' : Clock}
    (h₁ : Applied clock ⟨c⟩ (linkedFromChild p c) s s₁)
    (h₂ : Applied clock' ⟨p⟩ (linkedFromParent p c) s s₂) : SameButTimes s₁ s₂ := by
  intro y
  cases hy : s.lookup y with
  | none => rw [h₁.effect.absent hy, h₂.effect.absent hy]
  | some d =>
    obtain ⟨d₁, hd₁, he₁⟩ := h₁.effect.present hy
    obtain ⟨d₂, hd₂, he₂⟩ := h₂.effect.present hy
    have hkill : d₁.killInstanceRequest = d₂.killInstanceRequest :=
      (he₁.kill_eq rfl).trans (he₂.kill_eq rfl).symm
    rw [hd₁, hd₂, Option.map_some, Option.map_some, he₁.toUpdated.untimed_eq he₂.toUpdated
      (incoming_content_eq hne y) rfl (by simp only [InstanceDescription.untimed, hkill])]

/-- The two ends agree except about a dead instance without a parent, which only a parent can
still adopt. -/
theorem sameFromEitherEnd_iff (h : Reachable s) (p c : String) : SameFromEitherEnd s p c ↔
    ¬ (Alive s p ∧ c ∈ dead s ∧ ∀ q, ¬ HasParent s c q) := by
  have hs := h.consistent
  constructor
  · intro hsame hadopts
    obtain ⟨hp, hc, hfree⟩ := hadopts
    have hrun (request : InstanceDescription) :=
      runs_eval (serves_execute (Stream'.const ⟨0⟩)) (tryUpdateInstanceDescription request) s
    have hne : p ≠ c := by
      rintro rfl
      exact hp.notMem_dead hc
    have hmem : c ∈ s := by
      obtain ⟨d, hd, _⟩ := hc
      exact Finmap.mem_of_lookup_eq_some hd
    have htrue := (tryUpdate_cases hs rfl (hrun (linkedFromParent p c))).1.mpr
      ⟨_, accepted_linkedFromParent.mpr ⟨rfl, hp, hmem, hne, hfree⟩⟩
    have hboth := (hsame _ _ _ _ (hrun (linkedFromChild p c)) (hrun (linkedFromParent p c))).1
    obtain ⟨y, hy⟩ := (tryUpdate_cases hs rfl (hrun (linkedFromChild p c))).1.mp (hboth.mpr htrue)
    exact (accepted_linkedFromChild.mp hy).2.1.notMem_dead hc
  · intro hnot r s₁ r' s₂ hrun hrun'
    obtain ⟨hchild, happlied⟩ := tryUpdate_cases hs rfl hrun
    obtain ⟨hparent, happlied'⟩ := tryUpdate_cases hs rfl hrun'
    refine ⟨?_, fun hr hr' => ?_⟩
    · simp only [hchild, hparent, accepted_linkedFromChild, accepted_linkedFromParent,
        exists_eq_left]
      constructor
      · intro hacc
        obtain ⟨hc, hp, hne, hfree⟩ := hacc
        obtain ⟨d, hd, _⟩ := hc
        exact ⟨hp, Finmap.mem_of_lookup_eq_some hd, hne, hfree⟩
      · intro hacc
        obtain ⟨hp, hc, hne, hfree⟩ := hacc
        obtain ⟨d, hd⟩ := Finmap.mem_iff.mp hc
        refine ⟨⟨d, hd, ?_⟩, hp, hne, hfree⟩
        by_contra hk
        exact hnot ⟨hp, ⟨d, hd, Option.isSome_iff_ne_none.mpr hk⟩, hfree⟩
    · obtain ⟨clock, x, ha, hx⟩ := happlied hr
      obtain ⟨clock', x', ha', hx'⟩ := happlied' hr'
      obtain ⟨rfl, _, _, hne, _⟩ := accepted_linkedFromChild.mp hx
      obtain ⟨rfl, _⟩ := accepted_linkedFromParent.mp hx'
      exact sameButTimes_linked hne ha ha'

/-- A proxy and a browser that has no parent yet. -/
def proxyAndBrowser : List (TimestampMs × Rpc) :=
  [(⟨1000⟩, .tryAddInstance
      { instanceId := some ⟨"proxy"⟩, instanceType := some InstanceType.warmpoolChromeProxy.toI32 }),
    (⟨2000⟩, .tryAddInstance
      { instanceId := some ⟨"chrome"⟩, instanceType := some InstanceType.chromeBrowser.toI32 })]

theorem sameFromEitherEnd_iff_proxyAndBrowser :
    SameFromEitherEnd (replay ∅ proxyAndBrowser) "proxy" "chrome" := by
  have halive : "chrome" ∉ dead (replay ∅ proxyAndBrowser) := by decide +kernel
  refine (sameFromEitherEnd_iff (Reachable.empty.replay proxyAndBrowser) _ _).mpr fun hadopts => ?_
  exact halive hadopts.2.1

/-- The browser is killed before anybody has claimed it. -/
def killedBrowser : List (TimestampMs × Rpc) :=
  proxyAndBrowser ++ [(⟨3000⟩, .tryUpdateInstanceDescription
    { instanceId := some ⟨"chrome"⟩, killInstanceRequest := some {} })]

/-- The dead browser may not take a parent, yet the proxy may take it as a child. -/
theorem not_sameFromEitherEnd_killedBrowser : Reachable (replay ∅ killedBrowser) ∧
    ¬ SameFromEitherEnd (replay ∅ killedBrowser) "proxy" "chrome" := by
  refine ⟨Reachable.empty.replay killedBrowser, fun hsame => ?_⟩
  have hrun (request : InstanceDescription) := runs_eval
    (serves_execute (Stream'.const ⟨4000⟩)) (tryUpdateInstanceDescription request)
    (replay ∅ killedBrowser)
  have hboth := (hsame _ _ _ _ (hrun (linkedFromChild "proxy" "chrome"))
    (hrun (linkedFromParent "proxy" "chrome"))).1
  have hrefused : ((tryUpdateInstanceDescription (linkedFromChild "proxy" "chrome")).eval
      (Section.execute (Stream'.const ⟨4000⟩)) (replay ∅ killedBrowser)).1 = .ok false := by
    decide +kernel
  have haccepted : ((tryUpdateInstanceDescription (linkedFromParent "proxy" "chrome")).eval
      (Section.execute (Stream'.const ⟨4000⟩)) (replay ∅ killedBrowser)).1 = .ok true := by
    decide +kernel
  rw [hrefused, haccepted] at hboth
  simp at hboth

end WayPoint.Manager
