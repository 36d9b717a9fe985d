import WayPoint.Foundations.Spawn
import WayPoint.Gateway.Delivery
import WayPoint.Manager.Lasting
import WayPoint.Manager.Work

/-! The command that counts the children of every parent (cli.rs). It lists the instances of a type,
reads all of them at once and counts what it read, while other clients go on. -/
namespace WayPoint.Gateway.Cli
open Foundations Manager Program

structure Args where
  instanceType : InstanceType
  hasParent : Bool
  alive : Bool

/-- `anyhow::Error` from a status, or from a message of its own. -/
inductive Failure where
  | status (status : Status)
  | message (message : String)
  deriving DecidableEq

def isAlive (instance_ : InstanceDescription) : Bool :=
  instance_.healthCheck.isSome && instance_.killInstanceRequest.isNone

/-- The loop over the awaited tasks; an `Err` is only logged. The counts are `i32` in the source. -/
def countChildren (args : Args) : List (Except Status InstanceDescription) →
    FiniteMap String Nat → Except Failure (FiniteMap String Nat)
  | [], numChildren => .ok numChildren
  | .error _ :: instances, numChildren => countChildren args instances numChildren
  | .ok instance_ :: instances, numChildren =>
    if args.hasParent ≠ instance_.parent.isSome then countChildren args instances numChildren
    else if args.alive ≠ isAlive instance_ then countChildren args instances numChildren
    else
      match instance_.parent.bind Relationship.target with
      | none => .error (.message "No parent instance id found")
      | some key =>
        countChildren args instances (numChildren.insert key ((numChildren.lookup key).getD 0 + 1))

/-- `main` once it is connected; `turns` says in which order the spawned tasks get to their call. -/
def main (args : Args) (turns : List Nat) :
    Program Remote.Reply (Except Failure (FiniteMap String Nat)) := do
  match ← (perform (Remote.getAllInstances { instanceType := args.instanceType.toI32 }) :
      Program Remote.Reply (Except Status (List InstanceId))) with
  | .error status => return .error (.status status)
  | .ok instanceIds =>
    let instances ← spawnAll turns (instanceIds.map fun instanceId => perform (Remote.getInstance instanceId))
    return countChildren args instances ∅

section counting
variable {args : Args} {instances : List (Except Status InstanceDescription)}
  {numChildren counts : FiniteMap String Nat}

/-- What both filters let pass. -/
def Matches (args : Args) (d : InstanceDescription) : Prop :=
  args.hasParent = d.parent.isSome ∧ args.alive = isAlive d

/-- A read that is counted for `p`. -/
def CountedFor (args : Args) (p : String) : Except Status InstanceDescription → Prop
  | .ok d => Matches args d ∧ d.parent.bind Relationship.target = some p
  | .error _ => False

instance (args : Args) (d : InstanceDescription) : Decidable (Matches args d) :=
  inferInstanceAs (Decidable (_ ∧ _))

instance (args : Args) (p : String) : DecidablePred (CountedFor args p)
  | .ok _ => inferInstanceAs (Decidable (_ ∧ _))
  | .error _ => isFalse id

/-- One turn of the loop: what is not asked for is left out, a match without a parent's id is an
error. -/
theorem countChildren_read (args : Args) (d : InstanceDescription)
    (instances : List (Except Status InstanceDescription)) (numChildren : FiniteMap String Nat) :
    countChildren args (.ok d :: instances) numChildren =
      if Matches args d then
        match d.parent.bind Relationship.target with
        | none => .error (.message "No parent instance id found")
        | some key =>
          countChildren args instances (numChildren.insert key ((numChildren.lookup key).getD 0 + 1))
      else countChildren args instances numChildren := by
  by_cases hmatch : Matches args d
  · rw [countChildren, if_neg (not_not_intro hmatch.1), if_neg (not_not_intro hmatch.2), if_pos hmatch]
  · rw [countChildren, if_neg hmatch]
    by_cases hparent : args.hasParent = d.parent.isSome
    · rw [if_neg (not_not_intro hparent), if_pos fun halive => hmatch ⟨hparent, halive⟩]
    · rw [if_pos hparent]

private theorem lookup_increment (numChildren : FiniteMap String Nat) (key p : String) :
    ((numChildren.insert key ((numChildren.lookup key).getD 0 + 1)).lookup p).getD 0 =
      (numChildren.lookup p).getD 0 + if key = p then 1 else 0 := by
  rw [FiniteMap.lookup_insert_eq]
  by_cases h : p = key
  · subst h
    simp
  · simp [h, Ne.symm h]

/-- A count is the number of reads that are counted for the parent. -/
private theorem countChildren_countP (h : countChildren args instances numChildren = .ok counts)
    (p : String) : (counts.lookup p).getD 0 =
      (numChildren.lookup p).getD 0 + instances.countP (CountedFor args p) := by
  induction instances generalizing numChildren with
  | nil =>
    cases h
    rfl
  | cons read instances ih =>
    rw [List.countP_cons]
    cases read with
    | error status =>
      have hno : ¬ CountedFor args p (.error status) := id
      rw [ih h]
      simp [hno]
    | ok d =>
      rw [countChildren_read] at h
      split at h
      · next hmatch =>
        split at h
        · cases h
        · next key hkey =>
          rw [ih h, lookup_increment]
          simp only [CountedFor, hmatch, hkey, Option.some.injEq, true_and, decide_eq_true_eq]
          omega
      · next hno =>
        rw [ih h]
        simp [CountedFor, hno]

/-- Asked for instances without a parent the command counts nothing. -/
private theorem countChildren_orphans (hargs : args.hasParent = false)
    (h : countChildren args instances numChildren = .ok counts) : counts = numChildren := by
  induction instances generalizing numChildren with
  | nil =>
    cases h
    rfl
  | cons read instances ih =>
    cases read with
    | error status => exact ih h
    | ok d =>
      rw [countChildren_read] at h
      split at h
      · next hmatch =>
        have hnone : d.parent = none := by
          simpa using hmatch.1.symm.trans hargs
        simp only [hnone, Option.bind_none] at h
        cases h
      · exact ih h

/-- The loop only fails at a match that names no parent. -/
private theorem countChildren_error {e : Failure} (h : countChildren args instances numChildren = .error e) :
    e = .message "No parent instance id found" ∧
      ∃ d, .ok d ∈ instances ∧ Matches args d ∧ d.parent.bind Relationship.target = none := by
  induction instances generalizing numChildren with
  | nil => cases h
  | cons read instances ih =>
    have hrest {numChildren : FiniteMap String Nat}
        (h : countChildren args instances numChildren = .error e) :
        e = .message "No parent instance id found" ∧ ∃ d, .ok d ∈ read :: instances ∧
          Matches args d ∧ d.parent.bind Relationship.target = none := by
      obtain ⟨he, d, hmem, hd⟩ := ih h
      exact ⟨he, d, List.mem_cons_of_mem read hmem, hd⟩
    cases read with
    | error status => exact hrest h
    | ok d =>
      rw [countChildren_read] at h
      split at h
      · next hmatch =>
        split at h
        · next hkey =>
          cases h
          exact ⟨rfl, d, List.mem_cons_self, hmatch, hkey⟩
        · exact hrest h
      · exact hrest h

end counting

section run
variable {args : Args} {turns : List Nat} {counts : FiniteMap String Nat} {s t : InnerService}
  {past : List (Event Remote.Reply Section.Reply InnerService)} {said : List (Sigma Remote.Reply)}
  {outcome : Except Failure (FiniteMap String Nat)}

theorem main_dialogue (h : (main args turns).Dialogue said outcome) :
    (∃ status, said = [⟨.getAllInstances { instanceType := args.instanceType.toI32 }, .error status⟩] ∧
      outcome = .error (.status status)) ∨
    ∃ instanceIds instances reads, said =
        ⟨.getAllInstances { instanceType := args.instanceType.toI32 }, .ok instanceIds⟩ :: reads ∧
      List.Forall₂ (fun instanceId read => ⟨.getInstance instanceId, read⟩ ∈ reads)
        instanceIds instances ∧ countChildren args instances ∅ = outcome := by
  rw [main, perform_bind] at h
  obtain ⟨listed, rest, rfl, hrest⟩ := dialogue_call_iff.mp h
  cases listed with
  | error status =>
    obtain ⟨rfl, houtcome⟩ := dialogue_done_iff.mp hrest
    exact Or.inl ⟨status, rfl, houtcome⟩
  | ok instanceIds =>
    obtain ⟨instances, reads, last, rfl, hreads, hdone⟩ := dialogue_bind_iff.mp hrest
    obtain ⟨rfl, hcounts⟩ := dialogue_done_iff.mp hdone
    refine Or.inr ⟨instanceIds, instances, reads ++ [], rfl, ?_, hcounts.symm⟩
    refine (List.forall₂_map_left_iff.mp (spawnAll_ends hreads)).imp fun instanceId read hend => ?_
    exact List.mem_append_left _ hend.reply

private theorem exists_of_mem {α β : Type} {R : α → β → Prop} {as : List α} {bs : List β} {b : β}
    (h : List.Forall₂ R as bs) (hb : b ∈ bs) : ∃ a, R a b := by
  induction h with
  | nil => cases hb
  | cons hab _ ih =>
    rcases List.mem_cons.mp hb with rfl | hb
    · exact ⟨_, hab⟩
    · exact ih hb

/-- What is counted comes from as many different places of the listing. -/
private theorem exists_counted {α β : Type} {R : α → β → Prop} {P : β → Prop} [DecidablePred P]
    {as : List α} {bs : List β} (h : List.Forall₂ R as bs) :
    ∃ xs, List.Sublist xs as ∧ xs.length = bs.countP P ∧ (∀ x ∈ xs, ∃ b, R x b ∧ P b) ∧
      ∀ x ∈ as, x ∈ xs ∨ ∃ b, R x b ∧ ¬ P b := by
  induction h with
  | nil => exact ⟨[], .slnil, rfl, fun x hx => (by cases hx), fun x hx => (by cases hx)⟩
  | @cons a b as bs hab _ ih =>
    obtain ⟨xs, hsub, hlength, hcounted, hrest⟩ := ih
    by_cases hb : P b
    · refine ⟨a :: xs, hsub.cons_cons a, ?_, ?_, ?_⟩
      · rw [List.countP_cons_of_pos (by simpa using hb), List.length_cons, hlength]
      · exact List.forall_mem_cons.mpr ⟨⟨b, hab, hb⟩, hcounted⟩
      · refine List.forall_mem_cons.mpr ⟨Or.inl List.mem_cons_self, fun x hx => ?_⟩
        exact (hrest x hx).imp_left (List.mem_cons_of_mem a)
    · refine ⟨xs, hsub.cons a, ?_, hcounted, ?_⟩
      · rw [List.countP_cons_of_neg (by simpa using hb), hlength]
      · exact List.forall_mem_cons.mpr ⟨Or.inr ⟨b, hab, hb⟩, hrest⟩

/-- The sections of other clients, but no rollback of a registration. -/
def otherClients : Server Section.Reply InnerService := fun c s r s' => c.Keeps ∧ serves c s r s'

private theorem delivers_lasts (hs : Consistent s) {c : Remote} {r : c.Reply} (h : delivers c s r t) :
    Lasts s t := by
  cases c with
  | getAllInstances query =>
    rcases Exchange.ran_or_same h with ⟨_, run⟩ | rfl
    · obtain ⟨rfl, _⟩ := runs_getAll run
      exact .refl _
    · exact .refl _
  | getInstance id =>
    rcases Exchange.ran_or_same h with ⟨_, run⟩ | rfl
    · obtain ⟨rfl, _⟩ := runs_get run
      exact .refl _
    · exact .refl _
  | tryUpdateInstanceDescription request =>
    rcases Exchange.ran_or_same h with ⟨_, run⟩ | rfl
    · exact tryUpdate_lasts hs run
    · exact .refl _
  | now | connect | writeAll | copyBidirectional =>
    obtain rfl : t = s := h
    exact .refl _

/-- What the command is answered, with the changes of other clients as mere passing of time. -/
private theorem main_spaced {α : Type} {p q : Program Remote.Reply α} (hs : Consistent s)
    (h : Logged delivers otherClients s p past q t) :
    Spaced (fun c u r u' => Consistent u ∧ delivers c u r u') Lasts s (ownCalls past) t :=
  (h.spaced Lasts.refl (fun _ _ _ => Lasts.trans) hs (fun _ _ _ _ hs hserve => (delivers_advances hs hserve).1)
    (fun c _ r _ hs hserve => ⟨(Interference.advances hs ⟨c, r, hserve⟩).1,
      serves_lasts hs hserve.1 hserve.2⟩)).2

private theorem delivers_listing (hs : Consistent s) {query : AllInstancesQuery} {ids : List InstanceId}
    (h : delivers (.getAllInstances query) s (.ok ids) t) :
    t = s ∧ ids.Nodup ∧ ∀ id, id ∈ ids ↔
      Reported s query.instanceType id.instanceId ∧ Alive s id.instanceId := by
  cases h with
  | delivered run =>
    obtain ⟨rfl, entries, he, hids⟩ := runs_getAll run
    obtain rfl := Except.ok.inj hids
    refine ⟨rfl, getAllInstances_nodup hs.named he query, fun id => ?_⟩
    rw [mem_getAllInstances hs.named he]
    constructor
    · intro hlisted
      obtain ⟨d, hd, hkill, htype, hbeat⟩ := hlisted
      exact ⟨⟨d, hd, htype, hbeat⟩, ⟨d, hd, hkill⟩⟩
    · intro hlisted
      obtain ⟨⟨d, hd, htype, hbeat⟩, ⟨d', hd', hkill⟩⟩ := hlisted
      rw [hd] at hd'
      cases hd'
      exact ⟨d, hd, hkill, htype, hbeat⟩

private theorem delivers_read {id : InstanceId} {d : InstanceDescription}
    (h : delivers (.getInstance id) s (.ok d) t) : s.lookup id.instanceId = some d := by
  cases h with
  | delivered run =>
    obtain ⟨_, hread⟩ := runs_get run
    unfold getInstanceDescription at hread
    split at hread
    · cases hread
    · next d' hd' =>
      cases hread
      exact hd'

/-- Some read of `x` was answered with an error, or its answer was lost. -/
def ReadFailed (past : List (Event Remote.Reply Section.Reply InnerService)) (x : String) : Prop :=
  ∃ status, ⟨.getInstance ⟨x⟩, .error status⟩ ∈ ownCalls past

/-- What is sure of an instance counted for `p` between `s` and `t`. -/
structure Counted (args : Args) (s t : InnerService) (p x : String) : Prop where
  reported : Reported t args.instanceType.toI32 x
  hasParent : HasParent t x p
  lived : x ∉ dead s
  died : args.alive = false → x ∈ dead t

/-- A living child of `p` from `s` to `t`. -/
structure Stayed (args : Args) (s t : InnerService) (p x : String) : Prop where
  reported : Reported s args.instanceType.toI32 x
  hasParent : HasParent s x p
  alive : Alive t x

variable {u v : InnerService} {d : InstanceDescription} {p x : String}

private theorem counted_of_read (hsu : Lasts s u) (huv : Lasts u v) (hvt : Lasts v t)
    (hlisted : Reported u args.instanceType.toI32 x ∧ Alive u x) (hd : v.lookup x = some d)
    (hread : CountedFor args p (.ok d)) : Counted args s t p x := by
  obtain ⟨⟨_, halive⟩, hparent⟩ := hread
  obtain ⟨r, hr, htarget⟩ := Option.bind_eq_some_iff.mp hparent
  have hv := huv.reported hlisted.1
  refine ⟨hvt.reported hv, hvt.hasParent ⟨d, hd, r, hr, htarget⟩, ?_, ?_⟩
  · exact fun hdead => hlisted.2.notMem_dead (hsu.dead hdead)
  · intro hargs
    obtain ⟨d', hd', _, hbeat⟩ := hv
    rw [hd] at hd'
    cases hd'
    rw [hargs, isAlive, hbeat, Bool.true_and] at halive
    exact hvt.dead ⟨d, hd, by simpa using halive.symm⟩

private theorem read_of_stayed (hparent : args.hasParent = true) (halive : args.alive = true)
    (hsv : Lasts s v) (hvt : Lasts v t) (hx : Stayed args s t p x) (hd : v.lookup x = some d) :
    CountedFor args p (.ok d) := by
  obtain ⟨d', hd', r, hr, htarget⟩ := hsv.hasParent hx.hasParent
  obtain ⟨d'', hd'', _, hbeat⟩ := hsv.reported hx.reported
  rw [hd] at hd' hd''
  cases hd'
  cases hd''
  have hkill := hvt.alive hd hx.alive
  refine ⟨⟨?_, ?_⟩, ?_⟩
  · rw [hparent, hr]
    rfl
  · rw [halive, isAlive, hbeat, hkill]
    rfl
  · rw [hr]
    exact htarget

/-- A count lies between the children that were there all the time and those there ever were.
Without `--has-parent` there are no counts. -/
structure Census (args : Args) (s t : InnerService)
    (past : List (Event Remote.Reply Section.Reply InnerService)) (counts : FiniteMap String Nat) :
    Prop where
  orphans : args.hasParent = false → counts = ∅
  children : ∀ p, ∃ xs : List String, xs.Nodup ∧ (counts.lookup p).getD 0 = xs.length ∧
    (∀ x ∈ xs, Counted args s t p x) ∧
    (args.hasParent = true → args.alive = true →
      ∀ x, Stayed args s t p x → x ∈ xs ∨ ReadFailed past x)

/-- The listing failed, or, without `--has-parent`, an instance was read that has no parent. -/
def Explained (args : Args) (past : List (Event Remote.Reply Section.Reply InnerService)) :
    Failure → Prop
  | .status status =>
    ⟨.getAllInstances { instanceType := args.instanceType.toI32 }, .error status⟩ ∈ ownCalls past
  | .message message => message = "No parent instance id found" ∧ args.hasParent = false ∧
    ∃ id d, ⟨.getInstance id, .ok d⟩ ∈ ownCalls past ∧ d.parent = none ∧ args.alive = isAlive d

def Settled (args : Args) (s t : InnerService)
    (past : List (Event Remote.Reply Section.Reply InnerService)) :
    Except Failure (FiniteMap String Nat) → Prop
  | .ok counts => Census args s t past counts
  | .error e => Explained args past e

/-- A failure of the loop is an instance without a parent, as the store never holds a parent
without an id. -/
private theorem explained_of_error {reads : List (Sigma Remote.Reply)} {ids : List InstanceId}
    {instances : List (Except Status InstanceDescription)} {e : Failure}
    (hreads : List.Forall₂ (fun id read => ⟨.getInstance id, read⟩ ∈ reads) ids instances)
    (hown : reads ⊆ ownCalls past)
    (hserved : ∀ call ∈ reads, ∃ u u', Consistent u ∧ delivers call.1 u call.2 u')
    (h : countChildren args instances ∅ = .error e) : Explained args past e := by
  obtain ⟨rfl, d, hmem, hmatch, hkey⟩ := countChildren_error h
  obtain ⟨id, hread⟩ := exists_of_mem hreads hmem
  obtain ⟨u, u', hu, hserve⟩ := hserved _ hread
  have hparent : d.parent = none := by
    cases hr : d.parent with
    | none => rfl
    | some r =>
      obtain ⟨q, hq⟩ := hu.named.parent (delivers_read hserve) hr
      rw [hr, Option.bind_some, hq] at hkey
      cases hkey
  exact ⟨rfl, by simpa [hparent] using hmatch.1, id, d, hown hread, hparent, hmatch.2⟩

/-- Whatever others do meanwhile and in whatever order the instances are read. -/
theorem main_census (hs : Consistent s)
    (h : Logged delivers otherClients s (main args turns) past (.done outcome) t) :
    Settled args s t past outcome := by
  have hspaced := main_spaced hs h
  rcases main_dialogue h.dialogue with ⟨status, hsaid, rfl⟩ | ⟨ids, instances, reads, hsaid, hreads, rfl⟩
  · change ⟨_, _⟩ ∈ ownCalls past
    rw [hsaid]
    exact List.mem_singleton_self _
  rw [hsaid] at hspaced
  cases hspaced with
  | call hsu served rest =>
    obtain ⟨rfl, hnodup, hlisted⟩ := delivers_listing served.1 served.2
    obtain ⟨hut, hserved⟩ := rest.mem (fun _ _ _ => Lasts.trans)
      (fun _ _ _ _ hserve => delivers_lasts hserve.1 hserve.2)
    have hown : reads ⊆ ownCalls past := hsaid ▸ List.subset_cons_self _ _
    cases hcounts : countChildren args instances ∅ with
    | error e =>
      refine explained_of_error hreads hown (fun call hcall => ?_) hcounts
      obtain ⟨v, v', _, hserve, _⟩ := hserved call hcall
      exact ⟨v, v', hserve⟩
    | ok counts =>
      refine ⟨fun hargs => countChildren_orphans hargs hcounts, fun p => ?_⟩
      obtain ⟨xs, hsub, hlength, hcounted, hothers⟩ := exists_counted (P := CountedFor args p) hreads
      refine ⟨xs.map InstanceId.instanceId, ?_, ?_, ?_, ?_⟩
      · exact (hnodup.sublist hsub).map fun _ _ hab => congrArg InstanceId.mk hab
      · rw [countChildren_countP hcounts p, List.length_map, hlength]
        simp
      · intro x hx
        obtain ⟨id, hid, rfl⟩ := List.mem_map.mp hx
        obtain ⟨read, hread, hcount⟩ := hcounted id hid
        obtain ⟨v, v', huv, hserve, hvt⟩ := hserved _ hread
        cases read with
        | error status => exact False.elim hcount
        | ok d =>
          exact counted_of_read hsu huv hvt ((hlisted id).mp (hsub.subset hid))
            (delivers_read hserve.2) hcount
      · intro hparent halive x hx
        obtain ⟨d, hd, hreported⟩ := hsu.reported hx.reported
        have hlist := (hlisted ⟨x⟩).mpr ⟨⟨d, hd, hreported⟩, ⟨d, hd, hut.alive hd hx.alive⟩⟩
        rcases hothers ⟨x⟩ hlist with hin | ⟨read, hread, hcount⟩
        · exact Or.inl (List.mem_map.mpr ⟨⟨x⟩, hin, rfl⟩)
        · obtain ⟨v, v', huv, hserve, hvt⟩ := hserved _ hread
          cases read with
          | error status => exact Or.inr ⟨status, hown hread⟩
          | ok d =>
            exact absurd (read_of_stayed hparent halive (hsu.trans huv) hvt hx
              (delivers_read hserve.2)) hcount

end run

/-- A proxy with two browsers that have reported. -/
def twoChildren : List (TimestampMs × Rpc) :=
  [(⟨1000⟩, .tryAddInstance
      { instanceId := some ⟨"proxy"⟩, instanceType := some InstanceType.warmpoolChromeProxy.toI32 }),
    (⟨2000⟩, .tryAddInstance
      { instanceId := some ⟨"first"⟩, instanceType := some InstanceType.chromeBrowser.toI32,
        parent := some { instanceId := some ⟨"proxy"⟩ } }),
    (⟨3000⟩, .tryAddInstance
      { instanceId := some ⟨"second"⟩, instanceType := some InstanceType.chromeBrowser.toI32,
        parent := some { instanceId := some ⟨"proxy"⟩ } }),
    (⟨4000⟩, .tryUpdateInstanceDescription { instanceId := some ⟨"first"⟩, healthCheck := some {} }),
    (⟨5000⟩, .tryUpdateInstanceDescription { instanceId := some ⟨"second"⟩, healthCheck := some {} })]

def livingChildren : Args := ⟨.chromeBrowser, true, true⟩

def killFirst : Section :=
  .apply { instanceId := some ⟨"first"⟩, killInstanceRequest := some { killReason := 1 } }

/-- A browser is killed after the listing, and the second task gets to its call before the first. -/
def killedMeanwhile : List (Event Remote.Reply Section.Reply InnerService) ×
    Except Failure (FiniteMap String Nat) × InnerService :=
  playAmong (Remote.execute ⟨6000⟩) (Section.execute (Stream'.const ⟨6000⟩)) [none, some killFirst]
    (main livingChildren [1, 0]) (replay ∅ twoChildren) []

theorem main_census_killedMeanwhile : ∃ counts, counts.lookup "proxy" = some 1 ∧
    Census livingChildren (replay ∅ twoChildren) killedMeanwhile.2.2 killedMeanwhile.1 counts := by
  have hothers (c : Section) (s : InnerService) (hc : some c ∈ [none, some killFirst]) :
      otherClients c s (c.execute (Stream'.const ⟨6000⟩) s).1 (c.execute (Stream'.const ⟨6000⟩) s).2 := by
    rw [List.mem_cons, List.mem_singleton] at hc
    rcases hc with hnone | hkill
    · cases hnone
    · cases hkill
      exact ⟨True.intro, serves_execute _ killFirst s⟩
  have hlogged : Logged delivers otherClients (replay ∅ twoChildren) (main livingChildren [1, 0])
      killedMeanwhile.1 (.done killedMeanwhile.2.1) killedMeanwhile.2.2 :=
    logged_playAmong (delivers_execute ⟨6000⟩) hothers .nil
  have hcounts : killedMeanwhile.2.1 = .ok (Finmap.singleton "proxy" 1) := by decide +kernel
  rw [hcounts] at hlogged
  exact ⟨_, Finmap.lookup_singleton_eq,
    main_census (Reachable.empty.replay twoChildren).consistent hlogged⟩

end WayPoint.Gateway.Cli
