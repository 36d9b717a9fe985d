import WayPoint.Container.StartUp
import WayPoint.Manager.UniqueRegistration

/-! A container stops as a whole: whatever it is there for stops it when it fails, and nothing else does. -/
namespace WayPoint.Container
open Foundations Manager Program System
open Gateway (Exchange)

variable {τ : Type}

/-- Raises the flag. -/
def Cancels (e : Sigma (@Wait.Reply τ)) : Prop := e.1 = .cancel

/-- The responses to the heartbeats. -/
def responses (said : Told τ) : List Response :=
  said.filterMap fun
    | ⟨.update _, response⟩ => some response
    | _ => none

/-- What each task has been told when it cancels the token. -/
def Cause : BrowserTask → Told BrowserTask → Prop
  | .chrome, said | .tzafonwright, said => ⟨.select .exited, some ()⟩ ∈ said
  | .gateway, said => ⟨.select .accepted, some false⟩ ∈ said
  | .heartBeat, said => startHeartBeat 0 (responses said) = .cancelled []
  | .main, _ | .metrics, _ => False

/-- The ends of a task that are the end of the container. -/
def Stopped : BrowserTask → Except TaskError Unit → Prop
  | .main, out => out = .ok ()
  | .metrics, _ => False
  | .chrome, _ | .tzafonwright, _ | .gateway, _ | .heartBeat, _ => True

section conforms
variable {α : Type} {P : Told τ → Sigma (@Wait.Reply τ) → Prop}
  {Q : Told τ → Except TaskError α → Prop} {past : Told τ}

private theorem conforms_await {c : Wait τ} {f : c.Reply → Async τ α}
    (h : ∀ r, Followed ⟨c, r⟩ → P past ⟨c, r⟩ ∧ (f r).run.Conforms Followed P Q (past ++ [⟨c, r⟩])) :
    (Async.await c >>= f).run.Conforms Followed P Q past := h

private theorem conforms_await_last {c : Wait τ} {Q : Told τ → Except TaskError c.Reply → Prop}
    (h : ∀ r, Followed ⟨c, r⟩ → P past ⟨c, r⟩ ∧ Q (past ++ [⟨c, r⟩]) (.ok r)) :
    (Async.await c).run.Conforms Followed P Q past := h

private theorem conforms_further {c : Wait τ} (hc : c = .further)
    {Q : Told τ → Except TaskError c.Reply → Prop} :
    (Async.await c).run.Conforms Followed P Q past :=
  conforms_await_last fun _ hfollowed => absurd hc hfollowed

end conforms

section failStop
variable {C : Told τ → Prop} {past : Told τ}

/-- What `FailStop` asks of a task that has been told something already. -/
def Supervised (C : Told τ → Prop) (past : Told τ)
    (x : Async τ Unit) : Prop :=
  x.run.Conforms Followed (fun past e => Cancels e → C past ∨ ∃ o ∈ past, FindsCancelled o)
    (fun past _ => ∃ e ∈ past, Cancels e ∨ FindsCancelled e) past

private theorem supervised_cancel (h : C past ∨ ∃ o ∈ past, FindsCancelled o) :
    Supervised C past (Async.await .cancel) := by
  intro r _
  exact ⟨fun _ => h, _, List.mem_append_right _ (List.mem_singleton_self _), Or.inl rfl⟩

private theorem supervised_await {c : Wait τ} (hc : c ≠ .cancel) {f : c.Reply → Async τ Unit}
    (h : ∀ r, Supervised C (past ++ [⟨c, r⟩]) (f r)) : Supervised C past (Async.await c >>= f) :=
  conforms_await fun r _ => ⟨fun hcancels => absurd hcancels hc, h r⟩

theorem found (past : Told τ) (event : Selected) : ∃ o ∈ past ++ [⟨.select event, none⟩], FindsCancelled o :=
  ⟨_, List.mem_append_right _ (List.mem_singleton_self _), True.intro⟩

private theorem supervised_spawned (t : τ) {body : Async τ Unit} (h : Supervised C [⟨.spawned t, ()⟩] body) :
    Supervised C [] (Async.spawned t body) :=
  supervised_await (by simp) fun _ => h

private theorem supervised_watch : Supervised (fun said => ⟨.select .exited, some ()⟩ ∈ said) past Async.watch := by
  refine supervised_await (by simp) fun r => ?_
  cases r with
  | none =>
    intro _ _
    refine ⟨nofun, ?_⟩
    obtain ⟨o, ho, hfound⟩ := found past .exited
    exact ⟨o, List.mem_append_left _ ho, Or.inr hfound⟩
  | some r => exact supervised_cancel (Or.inl (List.mem_append_right _ (List.mem_singleton_self _)))

private theorem supervised_gateway (rounds : Nat) :
    Supervised (fun said => ⟨.select .accepted, some false⟩ ∈ said) past (Async.gateway rounds) := by
  induction rounds generalizing past with
  | zero => exact conforms_further rfl
  | succ rounds ih =>
    refine supervised_await (by simp) fun r => ?_
    rcases r with _ | _ | _
    · exact supervised_cancel (Or.inr (found _ _))
    · exact supervised_cancel (Or.inl (List.mem_append_right _ (List.mem_singleton_self _)))
    · exact supervised_await (by simp) fun _ => ih

private theorem responses_concat (e : Sigma (@Wait.Reply τ)) :
    responses (past ++ [e]) = responses past ++ responses [e] := List.filterMap_append

/-- The loop has counted what `startHeartBeat` counts. -/
private theorem supervised_heartBeats (instanceId : InstanceId) (rounds retries : Nat)
    (h : startHeartBeat 0 (responses past) = .waiting retries) :
    Supervised (fun said => startHeartBeat 0 (responses said) = .cancelled []) past
      (Async.heartBeats instanceId rounds retries) := by
  induction rounds generalizing past retries with
  | zero => exact conforms_further rfl
  | succ rounds ih =>
    have hcounted (response : Response) : startHeartBeat 0 (responses
        (past ++ [(⟨.update (heartBeat instanceId), response⟩ : Sigma (@Wait.Reply τ))])) =
          startHeartBeat retries [response] := by
      rw [responses_concat, show responses [(⟨.update (heartBeat instanceId), response⟩ : Sigma (@Wait.Reply τ))] =
        [response] from rfl, startHeartBeat_concat, h]
    have hnext {past : Told τ} {retries : Nat}
        (h : startHeartBeat 0 (responses past) = .waiting retries) :
        Supervised (fun said => startHeartBeat 0 (responses said) = .cancelled []) past
          (Async.nextRound (Async.await .cancel) (Async.heartBeats instanceId rounds retries)) := by
      refine supervised_await (by simp) fun r => ?_
      cases r with
      | none => exact supervised_cancel (Or.inr (found _ _))
      | some r =>
        refine ih retries ?_
        rw [responses_concat, show responses [(⟨.select .elapsed, some r⟩ : Sigma (@Wait.Reply τ))] = [] from rfl,
          List.append_nil]
        exact h
    refine supervised_await (by simp) fun response => ?_
    rcases response with e | _ | _
    · by_cases hretries : retries = maxRetries
      · simp only [hretries, if_true]
        refine supervised_cancel (Or.inl ?_)
        rw [hcounted, startHeartBeat, if_pos hretries]
      · simp only [hretries, if_false]
        refine hnext ?_
        rw [hcounted, startHeartBeat, if_neg hretries]
        rfl
    · exact supervised_cancel (Or.inl (hcounted _))
    · exact hnext (hcounted _)

end failStop

/-- Why a container stops: a child process has ended, its port was lost, the manager has its instance dead, or
four heartbeats in a row ended in an error. -/
inductive Failure (instanceId : InstanceId)
    (past : List (BrowserTask × Served (@Wait.Reply BrowserTask) (Host BrowserTask))) : Prop where
  | exited {t : BrowserTask} (watched : t = .chrome ∨ t = .tzafonwright)
      (exited : ⟨.select .exited, some ()⟩ ∈ told t past)
  | closed (closed : ⟨.select .accepted, some false⟩ ∈ told .gateway past)
  | dead {before after : Host BrowserTask}
      (refused : (.heartBeat, ⟨.update (heartBeat instanceId), before, .ok false, after⟩) ∈ past)
      (dead : ¬ Alive before.manager instanceId.instanceId)
  | unanswered {four : List Response} (recent : four <:+: responses (told .heartBeat past))
      (length : four.length = 4) (errors : ∀ response ∈ four, ∃ e, response = .error e)

/-- A loop that has left was refused, or got four errors in a row, those of before counted. -/
private theorem startHeartBeat_cancelled {retries : Nat} {rs later before : List Response}
    (hretries : before.length = retries)
    (hbefore : ∀ response ∈ before, ∃ e, response = .error e) (h : startHeartBeat retries rs = .cancelled later) :
    .ok false ∈ rs ∨ ∃ four : List Response, four <:+: before ++ rs ∧ four.length = 4 ∧
      ∀ response ∈ four, ∃ e, response = .error e := by
  fun_induction startHeartBeat retries rs generalizing before with
  | case1 => cases h
  | case2 retries rest ih =>
    have hnone : ∀ response ∈ ([] : List Response), ∃ e, response = .error e :=
      fun response hmem => absurd hmem List.not_mem_nil
    rcases ih rfl hnone h with hfalse | ⟨four, hrecent, hall⟩
    · exact Or.inl (List.mem_cons_of_mem _ hfalse)
    · refine Or.inr ⟨four, hrecent.trans ?_, hall⟩
      exact ⟨before ++ [.ok true], [], by simp⟩
  | case3 => exact Or.inl List.mem_cons_self
  | case4 e rest =>
    refine Or.inr ⟨before ++ [.error e], ⟨[], rest, by simp⟩, by simp [hretries, maxRetries], ?_⟩
    intro response hresponse
    rcases List.mem_append.mp hresponse with hmem | hmem
    · exact hbefore response hmem
    · exact ⟨e, List.mem_singleton.mp hmem⟩
  | case5 retries e rest hne ih =>
    have herror : ∀ response ∈ before ++ [.error e], ∃ e, response = .error e := by
      intro response hresponse
      rcases List.mem_append.mp hresponse with hmem | hmem
      · exact hbefore response hmem
      · exact ⟨e, List.mem_singleton.mp hmem⟩
    rcases ih (by simp [hretries]) herror h with hfalse | herrors
    · exact Or.inl (List.mem_cons_of_mem _ hfalse)
    · rw [List.append_assoc] at herrors
      exact Or.inr herrors

section manager
variable {s s' : InnerService} {id : InstanceId}

private theorem serves_absent (hs : Named s) {c : Section} {r : c.Reply} (hc : ∀ t, c ≠ .insertBlank id t)
    (h : serves c s r s') (habsent : s.lookup id.instanceId = none) : s'.lookup id.instanceId = none := by
  have hkeeps (hkeeps : c.KeepsEntries) : s'.lookup id.instanceId = none := (hkeeps.changes hs h).absent habsent
  cases c with
  | insertBlank other t =>
    obtain ⟨clock, _, _, hrun⟩ := h
    rcases insertBlank_cases hrun with ⟨_, _, rfl⟩ | ⟨_, _, rfl⟩
    · exact habsent
    · rw [Finmap.lookup_insert_of_ne _ ?_]
      · exact habsent
      · intro heq
        obtain ⟨key⟩ := id
        obtain ⟨other⟩ := other
        exact hc t (by rw [show other = key from heq.symm])
  | remove key =>
    obtain ⟨_, _, _, hrun⟩ := h
    obtain ⟨_, rfl⟩ := Prod.mk.inj hrun
    rw [FiniteMap.lookup_erase_eq, habsent, ite_self]
  | now | apply | get | getAll | getUnhealth => exact hkeeps True.intro

/-- What a request of one section does. -/
theorem exchange_section {shape : Bool} {request : InstanceDescription} {e : Status} {r : Except Status Bool}
    (h : Exchange (if shape then locked (.apply request) else return .error e) s r s') :
    (s' = s ∨ ∃ reply, serves (.apply request) s reply s') ∧
      ∀ b, r = .ok b → serves (.apply request) s (.ok b) s' := by
  have hrun {reply : Except Status Bool}
      (hrun : Runs serves s (if shape then locked (.apply request) else return .error e) reply s') :
      (s' = s ∧ reply = .error e) ∨ serves (.apply request) s reply s' := by
    cases shape with
    | false => exact Or.inl (runs_done_iff.mp hrun).symm
    | true => exact Or.inr (runs_perform_iff.mp hrun)
  cases h with
  | delivered run =>
    rcases hrun run with ⟨rfl, rfl⟩ | hserved
    · exact ⟨Or.inl rfl, nofun⟩
    · refine ⟨Or.inr ⟨_, hserved⟩, fun b hb => hb ▸ hserved⟩
  | lost run status =>
    refine ⟨?_, nofun⟩
    rcases hrun run with ⟨rfl, _⟩ | hserved
    · exact Or.inl rfl
    · exact Or.inr ⟨_, hserved⟩
  | unsent status => exact ⟨Or.inl rfl, nofun⟩

/-- The manager does not know the id. -/
def Unseen (id : InstanceId) (s : InnerService) : Prop := Named s ∧ s.lookup id.instanceId = none

theorem Unseen.serves (h : Unseen id s) {c : Section} {r : c.Reply} (hc : ∀ t, c ≠ .insertBlank id t)
    (hserve : serves c s r s') : Unseen id s' :=
  ⟨serves_named h.1 hserve, serves_absent h.1 hc hserve h.2⟩

end manager

/-- What a task may call: only `main` runs several sections for a request and spawns tasks, the updates of the
heartbeats are all the same, and the metrics leave the token alone. -/
def MayCall (instanceId : InstanceId) : BrowserTask → Wait BrowserTask → Prop
  | .main, _ => True
  | .heartBeat, .update request => request = heartBeat instanceId
  | .metrics, .cancel => False
  | _, .locked _ | _, .spawn _ => False
  | _, _ => True

section within
variable {W : Wait BrowserTask → Prop} {α β : Type}

theorem within_await {c : Wait BrowserTask} (hc : W c) : (Async.await c).run.Within W := ⟨hc, fun _ => True.intro⟩

theorem within_bind {x : Async BrowserTask α} {f : α → Async BrowserTask β} (hx : x.run.Within W)
    (hf : ∀ a, (f a).run.Within W) : (x >>= f).run.Within W := by
  change (x.run >>= ExceptT.bindCont f).Within W
  refine hx.bind fun r => ?_
  cases r with
  | ok a => exact hf a
  | error e => exact True.intro

theorem within_pure_bind (a : α) {f : α → Async BrowserTask β} (h : (f a).run.Within W) :
    ((pure a : Async BrowserTask α) >>= f).run.Within W := h

theorem within_require (e : TaskError) (succeeded : Bool) :
    (Async.require e succeeded : Async BrowserTask Unit).run.Within W := by
  cases succeeded with
  | false | true => exact True.intro

theorem within_orThrow (e : TaskError) (r : Option α) : (Async.orThrow e r : Async BrowserTask α).run.Within W := by
  cases r with
  | none | some => exact True.intro

private theorem within_remotely {handler : Handler α} (h : handler.Within fun c => W (.locked c)) :
    (Async.remotely handler : Program _ α).Within W := by
  induction handler with
  | done a => exact True.intro
  | call c next ih => exact ⟨h.1, fun r => ih r (h.2 r)⟩

theorem within_exchange {handler : Handler (Except Status α)} (hsend : W .send) (hreceive : W .receive)
    (h : handler.Within fun c => W (.locked c)) : (Async.exchange handler).run.Within W := by
  refine within_bind (within_await hsend) fun sent => ?_
  cases sent with
  | error status => exact True.intro
  | ok _ =>
    refine within_bind ((within_remotely h).bind fun _ => True.intro) fun response => ?_
    refine within_bind (within_await hreceive) fun got => ?_
    cases got with
    | error | ok => exact True.intro

private theorem within_nextRound {left rest : Async BrowserTask Unit} (helapsed : W (.select .elapsed))
    (hleft : left.run.Within W) (hrest : rest.run.Within W) : (Async.nextRound left rest).run.Within W := by
  refine ⟨helapsed, fun r => ?_⟩
  cases r with
  | none => exact hleft
  | some r => exact hrest

theorem within_metrics {instanceId : InstanceId} (hfurther : W .further) (hread : W .readStats)
    (helapsed : W (.select .elapsed))
    (hpost : ∀ stats, W (.post { instanceId := some instanceId, systemMetrics := some stats })) (rounds : Nat) :
    (Async.metrics instanceId rounds).run.Within W := by
  induction rounds with
  | zero => exact within_await hfurther
  | succ rounds ih =>
    have hnext : (Async.nextRound (return ()) (Async.metrics instanceId rounds)).run.Within W :=
      within_nextRound helapsed True.intro ih
    refine ⟨hread, fun stats => ?_⟩
    rcases stats with _ | _ | stats
    · exact True.intro
    · exact hnext
    · exact ⟨hpost stats, fun _ => hnext⟩

theorem within_heartBeats {instanceId : InstanceId} (hfurther : W .further) (hcancel : W .cancel)
    (helapsed : W (.select .elapsed)) (hupdate : W (.update (heartBeat instanceId))) (rounds retries : Nat) :
    (Async.heartBeats instanceId rounds retries).run.Within W := by
  induction rounds generalizing retries with
  | zero => exact within_await hfurther
  | succ rounds ih =>
    refine ⟨hupdate, fun response => ?_⟩
    rcases response with e | _ | _
    · by_cases hretries : retries = maxRetries
      · simp only [hretries, if_true]
        exact within_await hcancel
      · simp only [hretries, if_false]
        exact within_nextRound helapsed (within_await hcancel) (ih _)
    · exact within_await hcancel
    · exact within_nextRound helapsed (within_await hcancel) (ih 0)

theorem within_gateway (hfurther : W .further) (hcancel : W .cancel) (haccepted : W (.select .accepted))
    (hconnection : W .connection) (rounds : Nat) : (Async.gateway rounds).run.Within W := by
  induction rounds with
  | zero => exact within_await hfurther
  | succ rounds ih =>
    refine ⟨haccepted, fun r => ?_⟩
    rcases r with _ | _ | _
    · exact within_await hcancel
    · exact within_await hcancel
    · exact ⟨hconnection, fun _ => ih⟩

theorem within_watch (hexited : W (.select .exited)) (hkill : W .kill) (hcancel : W .cancel) :
    Async.watch.run.Within W := by
  refine ⟨hexited, fun r => ?_⟩
  cases r with
  | none => exact within_await hkill
  | some r => exact within_await hcancel

end within

private theorem within_task (container : BrowserContainer) (t : BrowserTask) :
    (container.task t).run.Within (MayCall container.instanceId t) := by
  cases t with
  | main => exact within_of_forall (fun _ => True.intro) _
  | chrome => exact ⟨True.intro, fun _ => within_watch True.intro True.intro True.intro⟩
  | tzafonwright => exact ⟨True.intro, fun _ => within_watch True.intro True.intro True.intro⟩
  | gateway => exact ⟨True.intro, fun _ => within_gateway True.intro True.intro True.intro True.intro _⟩
  | heartBeat =>
    exact ⟨True.intro, fun _ => within_heartBeats (W := MayCall container.instanceId .heartBeat) True.intro True.intro
      True.intro rfl _ _⟩
  | metrics => exact ⟨True.intro, fun _ => within_metrics True.intro True.intro True.intro (fun _ => True.intro) _⟩

private theorem failStop_task (container : BrowserContainer) (t : BrowserTask) :
    FailStop Followed Cancels FindsCancelled (Cause t) (Stopped t) (container.task t).run := by
  have hsupervised {x : Async BrowserTask Unit} (h : Supervised (Cause t) [] x) :
      FailStop Followed Cancels FindsCancelled (Cause t) (Stopped t) x.run :=
    h.mono (fun _ _ h => h) fun _ _ h _ => h
  cases t with
  | main =>
    refine (conforms_main container).mono (fun past e hinOrder hcancels => ?_) fun past out hout hstopped => ?_
    · obtain ⟨c, r⟩ := e
      cases (show c = .cancel from hcancels)
      exact hinOrder.elim
    · obtain ⟨e, he, hfound⟩ := hout hstopped
      exact ⟨e, he, Or.inr hfound⟩
  | chrome => exact hsupervised (supervised_spawned _ supervised_watch)
  | tzafonwright => exact hsupervised (supervised_spawned _ supervised_watch)
  | gateway => exact hsupervised (supervised_spawned _ (supervised_gateway _))
  | heartBeat => exact hsupervised (supervised_spawned _ (supervised_heartBeats _ _ 0 rfl))
  | metrics =>
    refine (within_task container .metrics).conforms.mono (fun past e hmay hcancels => ?_) fun _ _ _ hstopped => hstopped.elim
    obtain ⟨c, r⟩ := e
    cases (show c = .cancel from hcancels)
    exact hmay.elim

section host
variable [DecidableEq τ] {c : Wait τ} {r : c.Reply} {s s' : Host τ}

private theorem hostServes_followed (h : hostServes c s r s') : Followed ⟨c, r⟩ := by
  rintro (heq : c = .further)
  subst heq
  exact h

private theorem hostServes_findsCancelled (h : hostServes c s r s') (hfound : FindsCancelled ⟨c, r⟩) :
    s.cancelled = true := by
  unfold FindsCancelled at hfound
  split at hfound
  · next event heq =>
    cases heq
    exact h.1 rfl
  · next heq =>
    cases heq
    exact h.1
  · exact hfound.elim

/-- Only `cancel` touches the token. -/
private theorem hostServes_cancelled (h : hostServes c s r s') :
    s'.cancelled = true ↔ s.cancelled = true ∨ c = .cancel := by
  cases c with
  | cancel =>
    obtain rfl : s' = { s with cancelled := true } := h
    simp
  | spawn t =>
    obtain rfl : s' = { s with spawned := Function.update s.spawned t true } := h
    simp
  | spawned | select | cancelled =>
    obtain ⟨_, rfl⟩ := h
    simp
  | locked | update | post =>
    obtain ⟨m, _, rfl⟩ := h
    simp
  | further => exact h.elim
  | kill | connection | hostname | launch | announced | bind | channel | send | receive | readStats =>
    obtain rfl : s' = s := h
    simp

/-- Only `spawn` touches what is spawned. -/
private theorem hostServes_spawned (h : hostServes c s r s') (t : τ) :
    s'.spawned t = true ↔ s.spawned t = true ∨ c = .spawn t := by
  cases c with
  | spawn u =>
    obtain rfl : s' = { s with spawned := Function.update s.spawned u true } := h
    by_cases hut : t = u
    · simp [hut]
    · simp [hut, Ne.symm hut]
  | cancel =>
    obtain rfl : s' = { s with cancelled := true } := h
    simp
  | spawned | select | cancelled =>
    obtain ⟨_, rfl⟩ := h
    simp
  | locked | update | post =>
    obtain ⟨m, _, rfl⟩ := h
    simp
  | further => exact h.elim
  | kill | connection | hostname | launch | announced | bind | channel | send | receive | readStats =>
    obtain rfl : s' = s := h
    simp

/-- A new instance becomes known by its own registration only. -/
private theorem hostServes_unseen {id : InstanceId} (h : hostServes c s r s') (hunseen : Unseen id s.manager)
    (hc : ∀ t, c ≠ .locked (.insertBlank id t)) : Unseen id s'.manager := by
  cases c with
  | locked c =>
    obtain ⟨m, hserve, rfl⟩ := h
    exact hunseen.serves (fun t heq => hc t (by rw [heq])) hserve
  | update request | post request =>
    obtain ⟨m, hexchange, rfl⟩ := h
    rcases (exchange_section hexchange).1 with heq | ⟨reply, hserve⟩
    · exact heq ▸ hunseen
    · exact hunseen.serves (fun t heq => by cases heq) hserve
  | spawned | select | cancelled =>
    obtain ⟨_, rfl⟩ := h
    exact hunseen
  | further => exact h.elim
  | spawn t =>
    obtain rfl : s' = { s with spawned := Function.update s.spawned t true } := h
    exact hunseen
  | cancel =>
    obtain rfl : s' = { s with cancelled := true } := h
    exact hunseen
  | kill | connection | hostname | launch | announced | bind | channel | send | receive | readStats =>
    obtain rfl : s' = s := h
    exact hunseen

end host

section run
variable {container : BrowserContainer} {store : InnerService} {cfg : Config BrowserTask (@Wait.Reply BrowserTask)
  (Host BrowserTask) (Except TaskError Unit)}
  {past earlier : List (BrowserTask × Served (@Wait.Reply BrowserTask) (Host BrowserTask))}

/-- A task keeps to what its program conforms to. -/
private theorem conforms_of_traced (h : container.system.Traced (.initial { manager := store }) past cfg)
    {t : BrowserTask}
    {P : Told BrowserTask → Sigma (@Wait.Reply BrowserTask) → Prop}
    {Q : Told BrowserTask → Except TaskError Unit → Prop}
    (hprogram : (container.task t).run.Conforms Followed P Q [])
    {e : Served (@Wait.Reply BrowserTask) (Host BrowserTask)} (hsuffix : (t, e) :: earlier <:+ past) :
    P (told t earlier) e.said :=
  (h.conforms hprogram fun _ _ _ _ => hostServes_followed).2 e earlier hsuffix

private theorem mayCall_of_traced (h : container.system.Traced (.initial { manager := store }) past cfg)
    {t : BrowserTask}
    {e : Served (@Wait.Reply BrowserTask) (Host BrowserTask)} (he : (t, e) ∈ past) :
    MayCall container.instanceId t e.call := by
  obtain ⟨later, earlier, rfl⟩ := List.append_of_mem he
  exact conforms_of_traced h (within_task container t).conforms (List.suffix_append _ _)

theorem failure_of_cause (h : container.system.Traced (.initial { manager := store }) past cfg) (t : BrowserTask)
    (hearlier : earlier <:+ past) (hcause : Cause t (told t earlier)) : Failure container.instanceId past := by
  have htold := (told_grows hearlier t).subset
  cases t with
  | main | metrics => exact hcause.elim
  | chrome => exact .exited (Or.inl rfl) (htold hcause)
  | tzafonwright => exact .exited (Or.inr rfl) (htold hcause)
  | gateway => exact .closed (htold hcause)
  | heartBeat =>
    have hresponses : responses (told .heartBeat earlier) <:+: responses (told .heartBeat past) :=
      ((told_grows hearlier .heartBeat).filterMap _).isInfix
    have hnone : ∀ response ∈ ([] : List Response), ∃ e, response = .error e :=
      fun response hmem => absurd hmem List.not_mem_nil
    rcases startHeartBeat_cancelled rfl hnone hcause with hfalse | ⟨four, hrecent, hlength, herrors⟩
    · obtain ⟨e, he, hresponse⟩ := List.mem_filterMap.mp hfalse
      split at hresponse
      · next request response =>
        cases hresponse
        obtain ⟨before, after, hmem⟩ := mem_told.mp (htold he)
        obtain rfl : request = heartBeat container.instanceId := mayCall_of_traced h hmem
        obtain ⟨m, hexchange, _⟩ := h.served _ hmem
        refine .dead hmem fun halive => ?_
        have hserved := (exchange_section hexchange).2 false rfl
        exact absurd ((heartBeat_served hserved).2 halive).1 nofun
      · cases hresponse
    · exact .unanswered (hrecent.trans hresponses) hlength herrors

/-- A browser container stops as a whole and for a reason. The manager gets to know it only after both child
processes were launched and the gateway was spawned, and heartbeats are sent only after it is registered. -/
theorem container_failStop (hnamed : Named store) (hfresh : store.lookup container.instanceId.instanceId = none)
    (h : container.system.Traced (.initial { manager := store }) past cfg) :
    (cfg.state.cancelled = true → Failure container.instanceId past) ∧
      (∀ t out, cfg.finished t out → Stopped t out → cfg.state.cancelled = true) ∧
      (cfg.state.manager.lookup container.instanceId.instanceId ≠ none → Made startUp (told .main past)) ∧
      (cfg.state.spawned .heartBeat = true → Registered container.instanceId (told .main past)) := by
  have hstays (c : Wait BrowserTask) (s : Host BrowserTask) (r : c.Reply) (s' : Host BrowserTask)
      (hserve : hostServes c s r s') (hup : s.cancelled = true) : s'.cancelled = true :=
    (hostServes_cancelled hserve).mpr (Or.inl hup)
  have henv (s s' : Host BrowserTask) (henv : container.system.environment s s') :
      s'.cancelled = true ↔ s.cancelled = true := by
    obtain ⟨_, _, _, _, _, rfl⟩ := henv
    exact Iff.rfl
  have hraises (c : Wait BrowserTask) (s : Host BrowserTask) (r : c.Reply) (s' : Host BrowserTask)
      (hserve : hostServes c s r s') (hnot : ¬ s.cancelled = true) : Cancels ⟨c, r⟩ ↔ s'.cancelled = true := by
    rw [hostServes_cancelled hserve]
    exact ⟨Or.inr, fun hup => hup.resolve_left hnot⟩
  have hstop := h.failStop (by exact Bool.false_ne_true) hstays henv (fun _ _ _ _ => hostServes_followed) hraises
    (fun _ _ _ _ => hostServes_findsCancelled) (failStop_task container)
  refine ⟨fun hup => ?_, hstop.2, fun hknown => ?_, fun hspawned => ?_⟩
  · obtain ⟨t, earlier, hearlier, hcause⟩ := hstop.1 hup
    exact failure_of_cause h t hearlier hcause
  · have hup : ¬ Unseen container.instanceId cfg.state.manager := fun hunseen => hknown hunseen.2
    have henv (s s' : Host BrowserTask) (henv : container.system.environment s s')
        (hnot : ¬ Unseen container.instanceId s'.manager) : ¬ Unseen container.instanceId s.manager := by
      obtain ⟨c, r, m, hother, hserve, rfl⟩ := henv
      exact fun hunseen => hnot (hunseen.serves hother hserve)
    obtain ⟨⟨u, c, before, r, after⟩, earlier, hsuffix, hbefore, hafter, _⟩ :=
      h.raised (fun hnot => hnot ⟨hnamed, hfresh⟩) henv hup
    have hmem := hsuffix.subset List.mem_cons_self
    have hserved := h.served _ hmem
    obtain ⟨type, rfl⟩ : ∃ type, c = .locked (.insertBlank container.instanceId type) := by
      by_contra hother
      exact hafter (hostServes_unseen hserved (not_not.mp hbefore) fun type heq => hother ⟨type, heq⟩)
    have hu : u = .main := by
      have hmay := mayCall_of_traced h hmem
      cases u with
      | main => rfl
      | _ => exact hmay.elim
    subst hu
    have hstarted : Made startUp (told .main earlier) := conforms_of_traced h (conforms_main container) hsuffix
    exact hstarted.trans (told_grows ((List.suffix_cons _ _).trans hsuffix) _).sublist
  · have henv (s s' : Host BrowserTask) (henv : container.system.environment s s')
        (hup : s'.spawned .heartBeat = true) : s.spawned .heartBeat = true := by
      obtain ⟨_, _, _, _, _, rfl⟩ := henv
      exact hup
    obtain ⟨⟨u, c, before, r, after⟩, earlier, hsuffix, hbefore, hafter, _⟩ :=
      h.raised Bool.false_ne_true henv hspawned
    have hmem := hsuffix.subset List.mem_cons_self
    obtain rfl : c = .spawn .heartBeat :=
      ((hostServes_spawned (h.served _ hmem) .heartBeat).mp hafter).resolve_left hbefore
    have hu : u = .main := by
      have hmay := mayCall_of_traced h hmem
      cases u with
      | main => rfl
      | _ => exact hmay.elim
    subst hu
    obtain ⟨request, hid, hregistered⟩ := conforms_of_traced h (conforms_main container) hsuffix
    exact ⟨request, hid, (told_grows ((List.suffix_cons _ _).trans hsuffix) _).subset hregistered⟩
end run

def killedContainer : BrowserContainer where
  ipAddress := some "10.0.0.7"
  cdpPort := 9222
  tzafonwrightPort := 1337
  instanceId := ⟨"browser-container"⟩
  parse _ := some ⟨"127.0.0.1".toList, "41397".toList, "/devtools/browser".toList⟩
  rounds _ := 1

private theorem serves_of_execute (clock : Clock) {c : Section} {s : InnerService} {r : c.Reply}
    (h : (c.execute clock s).1 = r) : serves c s r (c.execute clock s).2 := h ▸ serves_execute clock c s

/-- The container comes up, somebody kills its instance, and its next heartbeat is refused. -/
private theorem killedContainer_traced :
    ∃ past cfg, killedContainer.system.Traced (.initial { manager := ∅ }) past cfg ∧
    cfg.state.cancelled = true ∧ cfg.state.manager.lookup "browser-container" ≠ none ∧
      cfg.state.spawned .heartBeat = true := by
  let clock : Clock := Stream'.const ⟨1000⟩
  have h : killedContainer.system.Traced (.initial { manager := ∅ }) [] (.initial { manager := ∅ }) := .nil
  have h := h.start .main rfl
  have h := h.call .main (c := Wait.launch) (r := true) (by rfl) (by exact rfl)
  have h := h.call .main (c := Wait.spawn .chrome) (r := ()) (by rfl) (by exact rfl)
  have h := h.call .main (c := Wait.announced)
    (r := some "DevTools listening on ws://127.0.0.1:41397/devtools/browser".toList) (by rfl) (by exact rfl)
  have h := h.call .main (c := Wait.launch) (r := true) (by rfl) (by exact rfl)
  have h := h.call .main (c := Wait.spawn .tzafonwright) (r := ()) (by rfl) (by exact rfl)
  have h := h.call .main (c := Wait.bind) (r := true) (by rfl) (by exact rfl)
  have h := h.call .main (c := Wait.spawn .gateway) (r := ()) (by rfl) (by exact rfl)
  have h := h.call .main (c := Wait.channel) (r := true) (by rfl) (by exact rfl)
  have h := h.call .main (c := Wait.send) (r := .ok ()) (by rfl) (by exact rfl)
  have h := h.call .main (c := Wait.locked (.insertBlank ⟨"browser-container"⟩ (some InstanceType.chromeBrowser.toI32)))
    (r := true) (by rfl) (by exact ⟨_, serves_of_execute clock (by decide +kernel), rfl⟩)
  have h := h.call .main (c := Wait.locked (.apply _)) (r := .ok true) (by rfl)
    (by exact ⟨_, serves_of_execute clock (by decide +kernel), rfl⟩)
  have h := h.call .main (c := Wait.receive) (r := .ok ()) (by rfl) (by exact rfl)
  have h := h.call .main (c := Wait.spawn .heartBeat) (r := ()) (by rfl) (by exact rfl)
  have h := h.environment (by exact ⟨.apply (killOrder (some ⟨"browser-container"⟩) .killed ⟨1000⟩), _, _, nofun,
    serves_execute clock _ _, rfl⟩)
  have h := h.start .heartBeat rfl
  have h := h.call .heartBeat (c := Wait.spawned .heartBeat) (r := ()) (by rfl) (by exact ⟨rfl, rfl⟩)
  have h := h.call .heartBeat (c := Wait.update (heartBeat ⟨"browser-container"⟩)) (r := .ok false) (by rfl)
    (by exact ⟨_, .delivered (.call (serves_of_execute clock (by decide +kernel)) (.done _ _)), rfl⟩)
  have h := h.call .heartBeat (c := Wait.cancel) (r := ()) (by rfl) (by exact rfl)
  exact ⟨_, _, h, rfl, by decide +kernel, rfl⟩

theorem container_failStop_killed : ∃ past cfg,
    killedContainer.system.Traced (.initial { manager := ∅ }) past cfg ∧ Failure ⟨"browser-container"⟩ past ∧
      Made startUp (told .main past) ∧ Registered ⟨"browser-container"⟩ (told .main past) := by
  obtain ⟨past, cfg, h, hcancelled, hknown, hspawned⟩ := killedContainer_traced
  have hnamed : Named ∅ := Reachable.empty.consistent.named
  obtain ⟨hfailure, _, hstarted, hregistered⟩ := container_failStop hnamed (Finmap.lookup_empty _) h
  exact ⟨past, cfg, h, hfailure hcancelled, hstarted hknown, hregistered hspawned⟩

end WayPoint.Container
