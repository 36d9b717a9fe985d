import WayPoint.Manager.Carried

/-! Entries that a section does not name make no difference to it: on the store without them it
gives the same answer and the same writes, and it leaves them as they are. -/
namespace WayPoint.Manager
open Foundations

variable {P : Set String} {s u : InnerService} {clock : Clock}

/-- `u` is `s` without the entries at `P`. -/
structure Framed (P : Set String) (s u : InnerService) : Prop where
  outside : ∀ {y}, y ∉ P → s.lookup y = u.lookup y
  absent : ∀ {y}, y ∈ P → u.lookup y = none

/-- None of the relationships names anything in `P`. -/
def Avoids (P : Set String) (rs : List Relationship) : Prop :=
  ∀ r ∈ rs, ∀ c, r.target = some c → c ∉ P

def Detached (P : Set String) (u : InnerService) : Prop :=
  ∀ {k d}, u.lookup k = some d → Avoids P d.childList

/-- One outcome on the larger store, which was `s`, and one on the smaller. -/
structure SameRun {α : Type} (P : Set String) (s : InnerService)
    (x y : Except Status α × InnerService × Clock) : Prop where
  result : x.1 = y.1
  clock : x.2.2 = y.2.2
  framed : Framed P x.2.1 y.2.1
  detached : Detached P y.2.1
  kept : ∀ {k}, k ∈ P → x.2.1.lookup k = s.lookup k

def Frames {α : Type} (P : Set String) (m : Locked α) : Prop :=
  ∀ s u clock, Framed P s u → Detached P u → SameRun P s (m.exec s clock) (m.exec u clock)

section combinators
variable {α β : Type}

theorem SameRun.refl (hf : Framed P s u) (hd : Detached P u) (r : Except Status α) :
    SameRun P s (r, s, clock) (r, u, clock) :=
  ⟨rfl, rfl, hf, hd, fun _ => rfl⟩

private theorem frames_pure (a : α) : Frames P (pure a : Locked α) := by
  intro s u clock hf hd
  exact .refl hf hd (.ok a)

private theorem frames_lift_bind {r : Except Status α} {f : α → Locked β}
    (h : ∀ a, r = .ok a → Frames P (f a)) : Frames P (liftM r >>= f) := by
  intro s u clock hf hd
  rw [exec_bind, exec_bind]
  cases r with
  | error e => exact .refl hf hd _
  | ok a => exact h a rfl s u clock hf hd

private theorem frames_bind {m : Locked α} {f : α → Locked β} (hm : Frames P m) (hf : ∀ a, Frames P (f a)) :
    Frames P (m >>= f) := by
  intro s u clock hsu hd
  have h := hm s u clock hsu hd
  rcases exec_bind_both s clock h.result h.clock with ⟨e, later, hs, hu⟩ | ⟨a, later, hs, hu⟩
  · rw [hs, hu]
    exact ⟨rfl, rfl, h.framed, h.detached, h.kept⟩
  · have ha := hf a _ _ later h.framed h.detached
    rw [hs, hu]
    exact ⟨ha.result, ha.clock, ha.framed, ha.detached, fun hk => (ha.kept hk).trans (h.kept hk)⟩

end combinators

/-- An entry that only the larger store has. -/
theorem Framed.hide {key : String} {d : InstanceDescription} (h : Framed P s (u.insert key d))
    (habsent : ∀ y ∈ P, u.lookup y = none) (hkey : u.lookup key = none) : Framed (P ∪ {key}) s u where
  outside {y} hy := by
    rw [h.outside (fun hyP => hy (Or.inl hyP))]
    exact Finmap.lookup_insert_of_ne _ (fun hyk => hy (Or.inr hyk))
  absent {y} hy := by
    rcases hy with hy | rfl
    · exact habsent y hy
    · exact hkey

theorem Framed.insert (h : Framed P s u) {key : String} (hk : key ∉ P) (d : InstanceDescription) :
    Framed P (s.insert key d) (u.insert key d) where
  outside {y} hy := by
    simp only [FiniteMap.lookup_insert_eq, h.outside hy]
  absent {y} hy := by
    have hne : y ≠ key := fun he => hk (he ▸ hy)
    rw [Finmap.lookup_insert_of_ne _ hne]
    exact h.absent hy

theorem Detached.insert (h : Detached P u) (key : String) {d : InstanceDescription}
    (hd : Avoids P d.childList) : Detached P (u.insert key d) := by
  intro k v hv
  rw [FiniteMap.lookup_insert_eq] at hv
  split at hv
  · cases hv
    exact hd
  · exact h hv

private theorem lookup_insert_kept {key k : String} (hkey : key ∉ P) (hk : k ∈ P) (d : InstanceDescription) :
    (s.insert key d).lookup k = s.lookup k :=
  Finmap.lookup_insert_of_ne s (fun he => hkey (he ▸ hk))

/-- A write that adds no child in `P` to an entry outside `P`. -/
private theorem frames_modifyInstance {key : String} (hkey : key ∉ P) (missing : Status)
    {write : InstanceDescription → StateM Clock InstanceDescription}
    (hw : ∀ d clock, Avoids P d.childList → Avoids P (write d clock).1.childList) :
    Frames P (modifyInstance key missing write) := by
  intro s u clock hf hd
  have hlookup := hf.outside hkey
  cases hu : u.lookup key with
  | none =>
    rw [exec_modifyInstance_missing u clock missing write hu,
      exec_modifyInstance_missing s clock missing write (hlookup.trans hu)]
    exact .refl hf hd _
  | some d =>
    rw [exec_modifyInstance u clock missing write hu,
      exec_modifyInstance s clock missing write (hlookup.trans hu)]
    exact ⟨rfl, rfl, hf.insert hkey _, hd.insert key (hw d clock (hd hu)),
      fun hk => lookup_insert_kept hkey hk _⟩

private theorem frames_linkChildren (x : InstanceId) {cs : List Relationship} (hcs : Avoids P cs) :
    Frames P (linkChildren x cs) := by
  induction cs with
  | nil => exact frames_pure ()
  | cons c cs ih =>
    have hrest : Avoids P cs := fun r hr => hcs r (List.mem_cons_of_mem c hr)
    refine frames_lift_bind fun id hc => ?_
    have hid : id.instanceId ∉ P := hcs c List.mem_cons_self _ (target_of_getInstanceId hc)
    exact frames_bind (frames_modifyInstance hid _ fun d clock hd => hd) fun _ => ih hrest

private theorem frames_linkParent {x : InstanceId} (hx : x.instanceId ∉ P) {parent : Option Relationship}
    (hp : ∀ r ∈ parent, ∀ c, r.target = some c → c ∉ P) : Frames P (linkParent x parent) := by
  cases parent with
  | none => exact frames_pure ()
  | some r =>
    refine frames_lift_bind fun id hc => ?_
    have hid : id.instanceId ∉ P := hp r rfl _ (target_of_getInstanceId hc)
    refine frames_modifyInstance hid _ fun d clock hd => ?_
    rw [updateChildren_run]
    intro q hq c hc
    rcases List.mem_append.mp hq with hq | hq
    · exact hd q hq c hc
    · obtain rfl := List.mem_singleton.mp hq
      obtain rfl : x.instanceId = c := Option.some.inj hc
      exact hx

/-- The cascade only follows children lists, and those lead nowhere near `P`. -/
private theorem killChildren_sameRun (children : List Relationship) (u : InnerService) (clock : Clock)
    (s : InnerService) (hf : Framed P s u) (hd : Detached P u) (hc : Avoids P children) :
    SameRun P s (killChildren children s clock) (killChildren children u clock) := by
  have hid {child : Relationship} {rest : List Relationship} {id : InstanceId}
      (hc : Avoids P (child :: rest)) (h : getInstanceId child.instanceId = .ok id) :
      id.instanceId ∉ P := hc child List.mem_cons_self _ (target_of_getInstanceId h)
  have hrest {child : Relationship} {rest : List Relationship} (hc : Avoids P (child :: rest)) :
      Avoids P rest := fun r hr => hc r (List.mem_cons_of_mem child hr)
  fun_induction killChildren children u clock generalizing s with
  | case1 u clock =>
    rw [killChildren_nil]
    exact .refl hf hd _
  | case2 u clock child rest e h =>
    rw [killChildren_unnamed h]
    exact .refl hf hd _
  | case3 u clock child rest id h hnone ih =>
    rw [killChildren_unregistered h ((hf.outside (hid hc h)).trans hnone)]
    exact ih s hf hd (hrest hc)
  | case4 u clock child rest id h d hu hk ih =>
    rw [killChildren_dead h ((hf.outside (hid hc h)).trans hu) hk]
    exact ih s hf hd (hrest hc)
  | case5 u clock child rest id h d hu hk ih =>
    rw [killChildren_alive h ((hf.outside (hid hc h)).trans hu) hk]
    have hchildren : Avoids P d.childList := hd hu
    have hrun := ih (s.insert id.instanceId (killOrphan d clock).1) (hf.insert (hid hc h) _)
      (hd.insert _ (show Avoids P (killOrphan d clock).1.childList from hchildren)) (fun r hr => (List.mem_append.mp hr).elim
        (fun hr => hd hu r (List.mem_reverse.mp hr)) (fun hr => hrest hc r hr))
    exact ⟨hrun.result, hrun.clock, hrun.framed, hrun.detached,
      fun hk => (hrun.kept hk).trans (lookup_insert_kept (hid hc h) hk _)⟩

private theorem frames_killDescendants {x : InstanceId} (hx : x.instanceId ∉ P) :
    Frames P (killDescendants x) := by
  intro s u clock hf hd
  have hlookup := hf.outside hx
  cases hu : u.lookup x.instanceId with
  | none =>
    rw [exec_killDescendants_missing hu, exec_killDescendants_missing (hlookup.trans hu)]
    exact .refl hf hd _
  | some d =>
    rw [exec_killDescendants hu, exec_killDescendants (hlookup.trans hu)]
    split
    · exact killChildren_sameRun _ _ _ _ hf hd (fun r hr => hd hu r (List.mem_reverse.mp hr))
    · exact .refl hf hd _

/-- Every id a request refers to: its own, its parent's and its children's. -/
def InstanceDescription.names (request : InstanceDescription) : Set String :=
  {x | request.instanceId = some ⟨x⟩ ∨ request.parent.bind Relationship.target = some x ∨
    ∃ r ∈ request.childList, r.target = some x}

private theorem frames_commitUpdate {x : InstanceId} {request : InstanceDescription} (hx : x.instanceId ∉ P)
    (hp : ∀ r ∈ request.parent, ∀ c, r.target = some c → c ∉ P) (hc : Avoids P request.childList) :
    Frames P (commitUpdate x request) := by
  refine frames_bind (frames_modifyInstance hx _ fun d clock hd r hr c hrc => ?_) fun _ =>
    frames_bind (frames_linkChildren x hc) fun _ =>
      frames_bind (frames_linkParent hx hp) fun _ => frames_killDescendants hx
  obtain ⟨d', later, hrun, _, hup, _⟩ := updateFields_run request d clock
  rw [hrun] at hr
  rcases hup.childList_mem hr with hr | ⟨q, hq, t, _, rfl⟩
  · exact hd r hr c hrc
  · exact hc q hq c hrc

private theorem validateLinks_framed (hf : Framed P s u) {d request : InstanceDescription}
    (hp : ∀ r ∈ request.parent, ∀ c, r.target = some c → c ∉ P) (hc : Avoids P request.childList) :
    validateLinks s d request = validateLinks u d request := by
  have hparent : validateParent s d request.parent = validateParent u d request.parent := by
    cases h : request.parent with
    | none => rfl
    | some r =>
      cases hr : getInstanceId r.instanceId with
      | error e => simp [validateParent, hr, bind, Except.bind]
      | ok id =>
        have hid := hf.outside (hp r h _ (target_of_getInstanceId hr))
        simp [validateParent, hr, bind, Except.bind, hid]
  have hchildren (cs : List Relationship) (hcs : Avoids P cs) :
      validateChildren s d cs = validateChildren u d cs := by
    induction cs with
    | nil => rfl
    | cons c cs ih =>
      have hrest := ih fun r hr => hcs r (List.mem_cons_of_mem c hr)
      cases hr : getInstanceId c.instanceId with
      | error e => simp [validateChildren, hr, bind, Except.bind]
      | ok id =>
        have hid := hf.outside (hcs c List.mem_cons_self _ (target_of_getInstanceId hr))
        simp [validateChildren, hr, bind, Except.bind, hid, hrest]
  simp only [validateLinks, hparent, hchildren _ hc]

/-- A request that names nothing in `P` runs the same without the entries there. -/
theorem frames_apply {request : InstanceDescription} (h : ∀ x ∈ request.names, x ∉ P) :
    Frames P (applyToInstanceDescription request) := by
  have hp : ∀ r ∈ request.parent, ∀ c, r.target = some c → c ∉ P := fun r hr c hc =>
    h c (Or.inr (Or.inl (by rw [Option.mem_def.mp hr]; exact hc)))
  have hc : Avoids P request.childList := fun r hr c hrc => h c (Or.inr (Or.inr ⟨r, hr, hrc⟩))
  unfold applyToInstanceDescription
  split
  · next x hi hcreated htype =>
    intro s u clock hf hd
    have hx : x.instanceId ∉ P := h x.instanceId (Or.inl hi)
    rw [exec_bind, exec_bind, exec_readStore, exec_readStore]
    simp only []
    rw [hf.outside hx]
    cases u.lookup x.instanceId with
    | none => exact .refl hf hd (.ok false)
    | some d =>
      simp only [validateLinks_framed hf hp hc]
      split
      · exact .refl hf hd (.ok false)
      · refine frames_lift_bind (fun ok _ => ?_) s u clock hf hd
        split
        · exact frames_bind (frames_commitUpdate hx hp hc) (fun _ => frames_pure true)
        · exact frames_pure false
  · intro s u clock hf hd
    exact .refl hf hd _

end WayPoint.Manager
