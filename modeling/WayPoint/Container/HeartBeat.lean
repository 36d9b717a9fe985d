import WayPoint.Manager.Lifecycle
import WayPoint.Manager.Work

/-! The loop in which a container tells the manager that it is alive (utils.rs), and what the manager
makes of these requests. -/
namespace WayPoint.Container
open Foundations Manager Program

/-- `MAX_RETRIES`. -/
def maxRetries : Nat := 3

/-- What the client makes of a response: the manager's answer, or an error of any kind. -/
abbrev Response := Except Status Bool

/-- The request of every round. -/
def heartBeat (instanceId : InstanceId) : InstanceDescription :=
  { instanceId := some instanceId, healthCheck := some { timestampMs := none } }

/-- Where the loop is after some responses: it waits for its next round, or it has left, with the
token cancelled and later responses not asked for. -/
inductive HeartBeatLoop where
  | waiting (retries : Nat)
  | cancelled (later : List Response)
  deriving DecidableEq

/-- The loop of `start_heart_beat` while nobody else cancels the token. -/
def startHeartBeat (retries : Nat) : List Response → HeartBeatLoop
  | [] => .waiting retries
  | .ok true :: later => startHeartBeat 0 later
  | .ok false :: later => .cancelled later
  | .error _ :: later =>
    if retries = maxRetries then .cancelled later else startHeartBeat (retries + 1) later

section streak
variable {α : Type} (p : α → Bool) (as : Stream' α)

/-- How many of the entries before a position hold in a row. -/
def streak : ℕ → ℕ
  | 0 => 0
  | n + 1 => if p (as.get n) then streak n + 1 else 0

private theorem le_streak_iff {m n : ℕ} :
    m ≤ streak p as n ↔ m ≤ n ∧ ∀ j < n, n ≤ j + m → p (as.get j) := by
  induction n generalizing m with
  | zero => simp [streak]
  | succ n ih =>
    rw [streak]
    split
    · next hp =>
      cases m with
      | zero => exact ⟨fun _ => ⟨Nat.zero_le _, fun j hj hle => by omega⟩, fun _ => Nat.zero_le _⟩
      | succ m =>
        rw [Nat.succ_le_succ_iff, ih, Nat.succ_le_succ_iff]
        refine and_congr_right fun _ => ⟨fun h j hj hle => ?_, fun h j hj hle => h j (by omega) (by omega)⟩
        rcases Nat.lt_succ_iff_lt_or_eq.mp hj with hj | rfl
        · exact h j hj (by omega)
        · exact hp
    · next hp =>
      constructor
      · intro hm
        obtain rfl : m = 0 := Nat.le_zero.mp hm
        exact ⟨Nat.zero_le _, fun j hj hle => by omega⟩
      · intro h
        by_contra hm
        exact hp (h.2 n (by omega) (by omega))

end streak

theorem startHeartBeat_concat (retries : Nat) (responses : List Response) (response : Response) :
    startHeartBeat retries (responses ++ [response]) =
      match startHeartBeat retries responses with
      | .waiting n => startHeartBeat n [response]
      | .cancelled later => .cancelled (later ++ [response]) := by
  fun_induction startHeartBeat retries responses with
  | case1 retries => rfl
  | case2 retries later ih => exact ih
  | case3 retries later => rfl
  | case4 e later => rw [List.cons_append, startHeartBeat, if_pos rfl]
  | case5 retries e later h ih =>
    rw [List.cons_append, startHeartBeat, if_neg h, ih]

/-- The response `i` is the manager's no, or the last of as many errors as are taken. -/
def Ends (responses : Stream' Response) (i : ℕ) : Prop :=
  responses.get i = .ok false ∨
    3 ≤ i ∧ ∀ j, i ≤ j + 3 → j ≤ i → ∃ e, responses.get j = .error e

/-- The errors that are counted: no answer between them. -/
def errors (responses : Stream' Response) : ℕ → ℕ := streak (fun response => !response.isOk) responses

section loop
variable {responses : Stream' Response} {n k : ℕ}

private theorem ends_iff {i : ℕ} :
    Ends responses i ↔ responses.get i = .ok false ∨ maxRetries < errors responses (i + 1) := by
  have herror (response : Response) : (!response.isOk) = true ↔ ∃ e, response = .error e := by
    cases response <;> simp [Except.isOk, Except.toBool]
  refine or_congr_right ?_
  rw [errors, ← Nat.succ_le_iff, le_streak_iff]
  simp only [herror, maxRetries]
  refine and_congr (by omega) ⟨fun h j hj hle => h j (by omega) (by omega), fun h j hle hj =>
    h j (by omega) (by omega)⟩

/-- A loop that still waits has counted the latest errors and has not met its end. -/
private theorem of_waiting (h : startHeartBeat 0 (responses.take n) = .waiting k) :
    k = errors responses n ∧ k ≤ maxRetries ∧ ∀ j < n, ¬ Ends responses j := by
  induction n generalizing k with
  | zero =>
    cases h
    exact ⟨rfl, Nat.zero_le _, fun j hj => absurd hj (Nat.not_lt_zero j)⟩
  | succ n ih =>
    rw [Stream'.take_succ', startHeartBeat_concat] at h
    cases hn : startHeartBeat 0 (responses.take n) with
    | cancelled later =>
      rw [hn] at h
      cases h
    | waiting m =>
      rw [hn] at h
      obtain ⟨rfl, hle, hbefore⟩ := ih hn
      have hlast (hnot : ¬ Ends responses n) : ∀ j < n + 1, ¬ Ends responses j := by
        intro j hj
        rcases Nat.lt_succ_iff_lt_or_eq.mp hj with hj | rfl
        · exact hbefore j hj
        · exact hnot
      rcases hr : responses.get n with e | _ | _
      · simp only [hr, startHeartBeat] at h
        split at h
        · cases h
        · next hne =>
          cases h
          have hcount : errors responses (n + 1) = errors responses n + 1 := by
            rw [errors, streak, hr]
            rfl
          refine ⟨hcount.symm, by omega, hlast ?_⟩
          rw [ends_iff, hr, hcount]
          simp only [reduceCtorEq, false_or]
          omega
      · simp only [hr, startHeartBeat] at h
        cases h
      · simp only [hr, startHeartBeat] at h
        cases h
        have hcount : errors responses (n + 1) = 0 := by
          rw [errors, streak, hr]
          rfl
        refine ⟨hcount.symm, Nat.zero_le _, hlast ?_⟩
        rw [ends_iff, hr, hcount]
        simp

private theorem waiting_of (h : ∀ j < n, ¬ Ends responses j) :
    ∃ k, startHeartBeat 0 (responses.take n) = .waiting k := by
  induction n with
  | zero => exact ⟨0, rfl⟩
  | succ n ih =>
    obtain ⟨k, hk⟩ := ih fun j hj => h j (by omega)
    obtain ⟨rfl, hle, _⟩ := of_waiting hk
    have hlast := h n (by omega)
    rw [ends_iff, not_or] at hlast
    rw [Stream'.take_succ', startHeartBeat_concat, hk]
    rcases hr : responses.get n with e | _ | _
    · have hcount : errors responses (n + 1) = errors responses n + 1 := by
        rw [errors, streak, hr]
        rfl
      have hne : errors responses n ≠ maxRetries := by
        rw [hcount] at hlast
        omega
      exact ⟨errors responses n + 1, by simp only [startHeartBeat, if_neg hne]⟩
    · exact absurd hr hlast.1
    · exact ⟨0, rfl⟩

/-- The loop cancels the token with the first response that ends it. -/
private theorem cancelled_iff {i : ℕ} : startHeartBeat 0 (responses.take (i + 1)) = .cancelled [] ↔
    Ends responses i ∧ ∀ j < i, ¬ Ends responses j := by
  constructor
  · intro h
    cases hi : startHeartBeat 0 (responses.take i) with
    | cancelled later =>
      rw [Stream'.take_succ', startHeartBeat_concat, hi] at h
      simp at h
    | waiting k =>
      obtain ⟨_, _, hbefore⟩ := of_waiting hi
      refine ⟨?_, hbefore⟩
      by_contra hnot
      obtain ⟨m, hm⟩ := waiting_of (n := i + 1) fun j hj => by
        rcases Nat.lt_succ_iff_lt_or_eq.mp hj with hj | rfl
        · exact hbefore j hj
        · exact hnot
      rw [h] at hm
      cases hm
  · intro h
    obtain ⟨hends, hbefore⟩ := h
    obtain ⟨k, hk⟩ := waiting_of hbefore
    cases hnext : startHeartBeat 0 (responses.take (i + 1)) with
    | waiting m => exact absurd hends ((of_waiting hnext).2.2 i (by omega))
    | cancelled later =>
      rw [Stream'.take_succ', startHeartBeat_concat, hk] at hnext
      rcases hr : responses.get i with e | _ | _
      · simp only [hr, startHeartBeat] at hnext
        split at hnext
        · cases hnext
          rfl
        · cases hnext
      · rw [hr] at hnext
        exact hnext.symm
      · rw [hr] at hnext
        cases hnext

end loop

/-- The heartbeat of a live instance is stored, and nothing else is changed. -/
def Recorded (instanceId : InstanceId) (s s' : InnerService) : Prop :=
  ∃ d t, s.lookup instanceId.instanceId = some d ∧ d.killInstanceRequest = none ∧
    s' = s.insert instanceId.instanceId { d with healthCheck := some ⟨some t⟩ }

section manager
variable {instanceId : InstanceId} {s s' : InnerService} {reply : Response}

private theorem apply_heartBeat {d : InstanceDescription} (hd : s.lookup instanceId.instanceId = some d)
    (hk : d.killInstanceRequest = none) (clock : Clock) :
    (applyToInstanceDescription (heartBeat instanceId)).exec s clock =
      (.ok true, s.insert instanceId.instanceId { d with healthCheck := some ⟨some clock.head⟩ }, clock.tail) := by
  have hwritten := exec_modifyInstance s clock (.notFound "Instance not found")
    (updateFields (heartBeat instanceId)) hd
  have hspared := exec_killDescendants (x := instanceId)
    (s := s.insert instanceId.instanceId { d with healthCheck := some ⟨some clock.head⟩ })
    (Finmap.lookup_insert s) clock.tail
  rw [if_neg (by simp [hk])] at hspared
  have hcommit : (commitUpdate instanceId (heartBeat instanceId)).exec s clock = (.ok (),
      s.insert instanceId.instanceId { d with healthCheck := some ⟨some clock.head⟩ }, clock.tail) := by
    rw [commitUpdate, exec_bind_ok _ _ hwritten]
    exact hspared
  rw [apply_of_shape rfl rfl rfl hd hk]
  simp only [show validateLinks s d (heartBeat instanceId) = .ok true from rfl]
  rw [exec_bind_ok _ _ hcommit]
  rfl

/-- A heartbeat is answered by whether the instance is alive. -/
theorem heartBeat_served (h : serves (.apply (heartBeat instanceId)) s reply s') :
    (¬ Alive s instanceId.instanceId → reply = .ok false ∧ s' = s) ∧
      (Alive s instanceId.instanceId → reply = .ok true ∧ Recorded instanceId s s') := by
  obtain ⟨clock, order, _, hrun⟩ := h
  constructor
  · intro hdead
    have hexec : (applyToInstanceDescription (heartBeat instanceId)).exec s clock = (.ok false, s, clock) :=
      apply_of_not_alive rfl rfl rfl hdead clock
    simp only [Section.run, Section.runBy, hexec] at hrun
    cases hrun
    exact ⟨rfl, rfl⟩
  · intro halive
    obtain ⟨d, hd, hk⟩ := halive
    simp only [Section.run, Section.runBy, apply_heartBeat hd hk clock] at hrun
    cases hrun
    exact ⟨rfl, d, clock.head, hd, hk, rfl⟩

end manager

/-- The loop stops exactly at the manager's first no, or at the fourth error in a row, and the
manager says no exactly to instances that are not alive. -/
theorem heartBeat_exact {ι : Type} [DecidableEq ι] (works : ι → Work) (instanceId : InstanceId)
    (beat : ℕ → ι) (responses : Stream' Response)
    (hbeat : ∀ k, works (beat k) = .rpc (.tryUpdateInstanceDescription (heartBeat instanceId))) :
    (∀ i, startHeartBeat 0 (responses.take (i + 1)) = .cancelled [] ↔
      Ends responses i ∧ ∀ j < i, ¬ Ends responses j) ∧
    ∀ s past cfg n, (workers works).Traced (.initial s) past cfg →
      (∀ k < n, ∀ b, responses.get k = .ok b → cfg.finished (beat k) (some (.bool (.ok b)))) →
      (∀ k before reply after,
        (beat k, ⟨.apply (heartBeat instanceId), before, reply, after⟩) ∈ past →
        ¬ Alive before instanceId.instanceId → reply = .ok false ∧ after = before ∧
          (k < n → (responses.get k).isOk → (∀ j < k, ¬ Ends responses j) →
            startHeartBeat 0 (responses.take (k + 1)) = .cancelled [])) ∧
      ∀ k < n, responses.get k = .ok true → ∃ before after,
        (beat k, ⟨.apply (heartBeat instanceId), before, .ok true, after⟩) ∈ past ∧
          Alive before instanceId.instanceId ∧ Recorded instanceId before after := by
  refine ⟨fun i => cancelled_iff, fun s past cfg n hrun hanswered => ?_⟩
  have hprogram (k : ℕ) : (workers works).program (beat k) =
      .call (.apply (heartBeat instanceId)) (fun r => .done (some (.bool r))) := by
    change (works (beat k)).handler = _
    rw [hbeat]
    rfl
  -- an answer that arrived is the reply of the one section its request ran
  have hreply {k : ℕ} (hk : k < n) {b : Bool} (hb : responses.get k = .ok b) : ∃ before after,
      callsOf (beat k) past = [⟨.apply (heartBeat instanceId), before, .ok b, after⟩] := by
    have hdialogue := hrun.dialogue (hanswered k hk b hb)
    rw [hprogram, dialogue_call_iff] at hdialogue
    obtain ⟨r, rest, hsaid, hdone⟩ := hdialogue
    obtain ⟨rfl, heq⟩ := dialogue_done_iff.mp hdone
    obtain rfl : .ok b = r := by simpa using heq
    obtain ⟨e, hcalls, he⟩ := List.map_eq_singleton_iff.mp hsaid
    obtain ⟨c, before, reply, after⟩ := e
    cases he
    exact ⟨before, after, hcalls⟩
  constructor
  · intro k before reply after hmem hdead
    have hserved : serves (.apply (heartBeat instanceId)) before reply after := hrun.served _ hmem
    obtain ⟨rfl, rfl⟩ := (heartBeat_served hserved).1 hdead
    refine ⟨rfl, rfl, fun hk hok hbefore => cancelled_iff.mpr ⟨Or.inl ?_, hbefore⟩⟩
    rcases hb : responses.get k with e | b
    · rw [hb] at hok
      cases hok
    · obtain ⟨before', after', hcalls⟩ := hreply hk hb
      have honly := mem_callsOf.mpr hmem
      rw [hcalls, List.mem_singleton] at honly
      cases honly
      rfl
  · intro k hk hb
    obtain ⟨before, after, hcalls⟩ := hreply hk hb
    have hmem : (beat k, ⟨.apply (heartBeat instanceId), before, .ok true, after⟩) ∈ past :=
      mem_callsOf.mp (by rw [hcalls]; exact List.mem_singleton_self _)
    have hserves : serves (.apply (heartBeat instanceId)) before (.ok true) after := hrun.served _ hmem
    have hserved := heartBeat_served hserves
    have halive : Alive before instanceId.instanceId := by
      by_contra hdead
      exact absurd (hserved.1 hdead).1 (by simp)
    exact ⟨before, after, hmem, halive, (hserved.2 halive).2⟩

/-- Three heartbeats get no answer, the fourth is refused. -/
def refused : Stream' Response := fun k =>
  if k < 3 then .error ⟨.unavailable, "connection refused"⟩ else .ok false

private theorem refused_eq_ok {k : ℕ} {b : Bool} (h : refused.get k = .ok b) : 3 ≤ k ∧ b = false := by
  change (if k < 3 then _ else _) = _ at h
  split at h
  · cases h
  · next hk =>
    cases h
    exact ⟨Nat.le_of_not_lt hk, rfl⟩

/-- A killed browser sends its heartbeats, and one of them arrives. -/
theorem heartBeat_exact_killedBrowser : startHeartBeat 0 (refused.take 4) = .cancelled [] := by
  let works : ℕ → Work := fun _ => .rpc (.tryUpdateInstanceDescription (heartBeat ⟨"chrome"⟩))
  have hdead : ¬ Alive (replay ∅ killedFamily) "chrome" := by decide +kernel
  have hserved := serves_execute (Stream'.const ⟨6000⟩) (.apply (heartBeat ⟨"chrome"⟩)) (replay ∅ killedFamily)
  have hnil : (workers works).Traced (.initial (replay ∅ killedFamily)) [] _ := .nil
  have hrun := System.Traced.call 3 (.start 3 hnil rfl) rfl hserved
  have hanswer := (heartBeat_exact works ⟨"chrome"⟩ id refused (fun _ => rfl)).2 _ _ _ 4 hrun ?_
  · refine (hanswer.1 3 _ _ _ List.mem_cons_self hdead).2.2 (by decide) rfl fun j hj hends => ?_
    rcases hends with hno | ⟨hle, _⟩
    · exact absurd (refused_eq_ok hno).1 (by omega)
    · omega
  · intro k hk b hb
    obtain ⟨hle, rfl⟩ := refused_eq_ok hb
    obtain rfl : k = 3 := by omega
    refine (Config.run_thread_self _ _ _).trans ?_
    rw [((heartBeat_served hserved).1 hdead).1]
    rfl

end WayPoint.Container
