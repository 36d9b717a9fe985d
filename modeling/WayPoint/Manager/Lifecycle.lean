import WayPoint.Manager.Carried

/-! Guarantees on every store that whole requests lead to: links are two-sided, death reaches all
descendants, and a request that fails leaves nothing behind. -/
namespace WayPoint.Manager
open Foundations Program

variable {s : InnerService}

/-- Registrations of a backend, its agent and the agent's browser, then a kill of the backend. -/
def killedFamily : List (TimestampMs × Rpc) :=
  [(⟨1000⟩, .tryAddInstance
      { instanceId := some ⟨"backend"⟩, instanceType := some InstanceType.browserBackend.toI32 }),
    (⟨2000⟩, .tryAddInstance
      { instanceId := some ⟨"agent"⟩, instanceType := some InstanceType.agent.toI32,
        parent := some { instanceId := some ⟨"backend"⟩ } }),
    (⟨3000⟩, .tryAddInstance
      { instanceId := some ⟨"chrome"⟩, instanceType := some InstanceType.chromeBrowser.toI32 }),
    (⟨4000⟩, .tryUpdateInstanceDescription
      { instanceId := some ⟨"agent"⟩, children := some ⟨[{ instanceId := some ⟨"chrome"⟩ }]⟩ }),
    (⟨5000⟩, .tryUpdateInstanceDescription
      { instanceId := some ⟨"backend"⟩,
        killInstanceRequest := some { killReason := KillReason.killed.toI32 } })]

/-- A dead instance has no living child, on either copy of the link, and no living descendant. -/
theorem dead_descendants (h : Reachable s) {p : String} (hp : p ∈ dead s) :
    (∀ c, HasChild s p c → c ∈ dead s) ∧ (∀ c, HasParent s c p → c ∈ dead s) ∧
      ∀ c, Relation.ReflTransGen (fun a b => HasChild s a b ∨ HasParent s b a) p c → c ∈ dead s := by
  have hs := h.consistent
  have hclosed : Closed (fun a b => HasChild s a b ∨ HasParent s b a) (dead s) := by
    intro a b ha hcase
    rcases hcase with hab | hab
    · exact hs.deathClosed ha hab
    · exact hs.deathClosed ha ((hs.agree b a).mp hab)
  exact ⟨fun c hc => hclosed hp (Or.inl hc), fun c hc => hclosed hp (Or.inr hc),
    fun c hc => hclosed.path hp hc⟩

theorem dead_descendants_killedFamily : "chrome" ∈ dead (replay ∅ killedFamily) := by
  have hdead : "backend" ∈ dead (replay ∅ killedFamily) := by decide +kernel
  have hagent : HasParent (replay ∅ killedFamily) "agent" "backend" := by decide +kernel
  have hchrome : HasChild (replay ∅ killedFamily) "agent" "chrome" := by decide +kernel
  refine (dead_descendants (Reachable.empty.replay killedFamily) hdead).2.2 "chrome" ?_
  exact .tail (.single (Or.inr hagent)) (Or.inl hchrome)

/-- Keys are ids, links name other registered instances, and both ends of a link agree. -/
theorem reachable_wellLinked (h : Reachable s) : WellLinked s :=
  h.consistent.toWellLinked

theorem reachable_wellLinked_killedFamily : WellLinked (replay ∅ killedFamily) :=
  reachable_wellLinked (Reachable.empty.replay killedFamily)

/-- The stores a request's validation may run on: the one it found, or that one with the entry
its registration inserted. -/
inductive Prepared (s : InnerService) : InnerService → Prop where
  | found : Prepared s s
  | registering {x : InstanceId} {clock : Clock} {s₁ : InnerService} (t : InstanceType)
      (inserted : insertBlank x (some t.toI32) s clock = (true, s₁)) : Prepared s s₁

theorem Prepared.consistent (hs : Consistent s) {s₁ : InnerService} (h : Prepared s s₁) :
    Consistent s₁ := by
  cases h with
  | found => exact hs
  | registering t inserted =>
    rcases insertBlank_cases inserted with ⟨hfalse, _⟩ | ⟨_, hx, rfl⟩
    · cases hfalse
    exact blank_consistent hs hx t _

/-- Failing requests change nothing, because nothing can fail after the first write, and a
registration that is refused removes what it inserted. -/
theorem failed_request_leaves_store (h : Reachable s) :
    (∀ request r s', r ≠ .ok true →
      (Runs serves s (tryAddInstance request) r s' ∨
        Runs serves s (tryUpdateInstanceDescription request) r s' ∨
        Runs serves s (postInstanceDescription request) r s') → s' = s) ∧
    (∀ s₁, Prepared s s₁ → ∀ (x : InstanceId) d request clock,
      s₁.lookup x.instanceId = some d → d.killInstanceRequest = none →
      validateLinks s₁ d request = .ok true → ((commitUpdate x request).exec s₁ clock).1 = .ok ()) ∧
    (∀ (x : InstanceId) (t : InstanceType) clock s₁ request r s₂,
      insertBlank x (some t.toI32) s clock = (true, s₁) → serves (.apply request) s₁ r s₂ →
      r ≠ .ok true → s₂ = s₁ ∧ s₂.erase x.instanceId = s) := by
  have hs := h.consistent
  refine ⟨fun request r s' hr hrun => ?_, fun s₁ hs₁ x d request clock hd hk hv => ?_,
    fun x t clock s₁ request r s₂ hins hserve hr => ?_⟩
  · rcases writing_cases hs hrun with ⟨_, hsame⟩ | ⟨ht, _⟩
    · exact hsame
    · exact absurd ht hr
  · have hc := hs₁.consistent hs
    have ha := (validateLinks_iff hc.named hd ⟨d, hd, hk⟩).mp hv
    obtain ⟨s', later, hrun, _⟩ := commitUpdate_run hc ha clock
    rw [hrun]
  · have hc := (Prepared.registering t hins).consistent hs
    rcases insertBlank_cases hins with ⟨hfalse, _⟩ | ⟨_, hx, rfl⟩
    · cases hfalse
    obtain ⟨clock', later, hrun⟩ := serves_apply_iff.mp hserve
    rcases apply_cases hc request clock' hrun with ⟨_, rfl⟩ | ⟨ht, _⟩
    · exact ⟨rfl, FiniteMap.erase_insert_self hx _⟩
    · exact absurd ht hr

/-- A heartbeat for the killed browser is refused. -/
theorem failed_request_leaves_store_killedFamily :
    ((tryUpdateInstanceDescription { instanceId := some ⟨"chrome"⟩, healthCheck := some {} }).eval
      (Section.execute (Stream'.const ⟨6000⟩)) (replay ∅ killedFamily)).2 =
        replay ∅ killedFamily := by
  refine (failed_request_leaves_store (Reachable.empty.replay killedFamily)).1 _ _ _ ?_
    (Or.inr (Or.inl (runs_eval (serves_execute (Stream'.const ⟨6000⟩)) _ _)))
  decide +kernel

end WayPoint.Manager
