import Mathlib.Data.Finmap
import Mathlib.Data.List.Sort
import Mathlib.Algebra.BigOperators.Group.Multiset.Basic
import Mathlib.Tactic.Ring

/-! Finite maps with one value type: the lists that enumerate a map in some iteration order,
lookups after an overwrite, and sums over all values. -/
namespace WayPoint.Foundations
variable {κ ν : Type}

abbrev FiniteMap (κ ν : Type) := Finmap (fun _ : κ => ν)

namespace FiniteMap

/-- A list that enumerates the map: one possible iteration order. -/
def Enumerates (order : List (Sigma fun _ : κ => ν)) (m : FiniteMap κ ν) : Prop :=
  (order : Multiset (Sigma fun _ : κ => ν)) = m.entries

theorem exists_enumerates (m : FiniteMap κ ν) :
    ∃ order : List (Sigma fun _ : κ => ν), Enumerates order m :=
  ⟨m.entries.toList, m.entries.coe_toList⟩

theorem Enumerates.nodup_keys {order : List (Sigma fun _ : κ => ν)} {m : FiniteMap κ ν}
    (h : Enumerates order m) : (order.map Sigma.fst).Nodup := by
  have hn := m.nodupKeys
  rw [← h] at hn
  exact hn

theorem Enumerates.nodup {order : List (Sigma fun _ : κ => ν)} {m : FiniteMap κ ν}
    (h : Enumerates order m) : order.Nodup :=
  h.nodup_keys.of_map

theorem Enumerates.coe_keys {order : List (Sigma fun _ : κ => ν)} {m : FiniteMap κ ν}
    (h : Enumerates order m) : (order.map Sigma.fst : Multiset κ) = m.keys.val := by
  rw [← Multiset.map_coe, h]
  rfl

variable [DecidableEq κ]

theorem Enumerates.mem_iff {order : List (Sigma fun _ : κ => ν)} {m : FiniteMap κ ν}
    (h : Enumerates order m) (e : Sigma fun _ : κ => ν) :
    e ∈ order ↔ m.lookup e.1 = some e.2 := by
  rw [← Multiset.mem_coe, h, Finmap.lookup_eq_some_iff]

theorem enumerates_of_mem_iff {order : List (Sigma fun _ : κ => ν)} {m : FiniteMap κ ν}
    (hn : order.Nodup) (h : ∀ e, e ∈ order ↔ m.lookup e.1 = some e.2) : Enumerates order m := by
  refine (Multiset.Nodup.ext (Multiset.coe_nodup.mpr hn) m.nodupKeys.nodup).mpr fun e => ?_
  rw [Multiset.mem_coe, h e, Finmap.lookup_eq_some_iff]

/-- Leaving out some entries enumerates the map without them. -/
theorem Enumerates.filter {order : List (Sigma fun _ : κ => ν)} {m m' : FiniteMap κ ν}
    (h : Enumerates order m) {p : κ → Bool}
    (hm : ∀ k, m'.lookup k = if p k then m.lookup k else none) :
    Enumerates (order.filter (fun e => p e.1)) m' := by
  refine enumerates_of_mem_iff (h.nodup.filter _) fun e => ?_
  rw [List.mem_filter, h.mem_iff, hm]
  cases p e.1 <;> simp

/-- The keys in increasing order. -/
def sortedKeys {κ : Type} [LinearOrder κ] (m : FiniteMap κ ν) : List κ :=
  Quot.liftOn m.keys.val (List.insertionSort (· ≤ ·)) fun _ _ h =>
    ((List.perm_insertionSort _ _).trans (h.trans (List.perm_insertionSort _ _).symm)).eq_of_pairwise'
      (List.pairwise_insertionSort _ _) (List.pairwise_insertionSort _ _)

theorem coe_sortedKeys {κ : Type} [LinearOrder κ] (m : FiniteMap κ ν) :
    (m.sortedKeys : Multiset κ) = m.keys.val := by
  unfold sortedKeys
  induction m.keys.val using Quot.induction_on with
  | h l => exact Quot.sound (List.perm_insertionSort _ l)

/-- The entries in the order of a list of keys. -/
def inKeyOrder (keys : List κ) (m : FiniteMap κ ν) : List (Sigma fun _ : κ => ν) :=
  keys.filterMap (fun k => (m.lookup k).map (fun v => ⟨k, v⟩))

theorem enumerates_inKeyOrder {keys : List κ} {m : FiniteMap κ ν}
    (h : (keys : Multiset κ) = m.keys.val) : Enumerates (m.inKeyOrder keys) m := by
  have hkeys : keys.Nodup := by
    rw [← Multiset.coe_nodup, h]
    exact m.keys.nodup
  have hnodup : (m.inKeyOrder keys).Nodup := by
    refine hkeys.filterMap ?_
    intro k j e hk hj
    simp only [Option.mem_def, Option.map_eq_some_iff] at hk hj
    obtain ⟨v, _, rfl⟩ := hk
    obtain ⟨w, _, hw⟩ := hj
    exact (congrArg Sigma.fst hw).symm
  have hmem (j : κ) : j ∈ keys ↔ j ∈ m := by
    rw [← Multiset.mem_coe, h]
    exact Finmap.mem_keys
  refine enumerates_of_mem_iff hnodup ?_
  intro e
  obtain ⟨k, v⟩ := e
  simp only [inKeyOrder, List.mem_filterMap, hmem, Option.map_eq_some_iff, Sigma.mk.injEq,
    heq_eq_eq]
  constructor
  · intro hmem
    obtain ⟨_, _, w, hw, rfl, rfl⟩ := hmem
    exact hw
  · exact fun h => ⟨k, Finmap.mem_of_lookup_eq_some h, v, h, rfl, rfl⟩

/-- Every enumeration lists the entries in the order of its keys. -/
theorem Enumerates.eq_inKeyOrder {order : List (Sigma fun _ : κ => ν)} {m : FiniteMap κ ν}
    (h : Enumerates order m) : m.inKeyOrder (order.map Sigma.fst) = order := by
  rw [inKeyOrder, List.filterMap_map]
  refine (List.filterMap_congr fun e he => ?_).trans List.filterMap_some
  have hlookup := (h.mem_iff e).mp he
  simp only [Function.comp_apply, hlookup, Option.map_some]

/-- The entries in the order of their keys. -/
def listing {κ : Type} [LinearOrder κ] (m : FiniteMap κ ν) : List (Sigma fun _ : κ => ν) :=
  m.sortedKeys.filterMap (fun k => (m.lookup k).map (fun v => ⟨k, v⟩))

theorem enumerates_listing {κ : Type} [LinearOrder κ] (m : FiniteMap κ ν) :
    Enumerates m.listing m :=
  enumerates_inKeyOrder m.coe_sortedKeys

instance decidableForallLookup {κ : Type} [LinearOrder κ] (m : FiniteMap κ ν) {P : κ → ν → Prop}
    [∀ k v, Decidable (P k v)] : Decidable (∀ k v, m.lookup k = some v → P k v) :=
  decidable_of_iff (∀ e ∈ m.listing, P e.1 e.2)
    ⟨fun h k v hv => h ⟨k, v⟩ (((enumerates_listing m).mem_iff ⟨k, v⟩).mpr hv),
      fun h e he => h e.1 e.2 (((enumerates_listing m).mem_iff e).mp he)⟩

theorem lookup_insert_eq (m : FiniteMap κ ν) (k j : κ) (v : ν) :
    (m.insert k v).lookup j = if j = k then some v else m.lookup j := by
  by_cases h : j = k
  · subst h
    simp
  · simp [h, Finmap.lookup_insert_of_ne]

theorem lookup_erase_eq (m : FiniteMap κ ν) (k j : κ) :
    (m.erase k).lookup j = if j = k then none else m.lookup j := by
  by_cases h : j = k
  · subst h
    simp
  · simp [h, Finmap.lookup_erase_ne]

theorem insert_lookup_self {m : FiniteMap κ ν} {k : κ} {v : ν} (h : m.lookup k = some v) :
    m.insert k v = m := by
  apply Finmap.ext_lookup
  intro j
  rw [lookup_insert_eq]
  split
  · next hj => rw [hj, h]
  · rfl

theorem insert_erase_self (m : FiniteMap κ ν) (k : κ) (v : ν) :
    (m.erase k).insert k v = m.insert k v := by
  apply Finmap.ext_lookup
  intro j
  simp only [lookup_insert_eq, lookup_erase_eq]
  split <;> rfl

theorem erase_insert_self {m : FiniteMap κ ν} {k : κ} (h : m.lookup k = none) (v : ν) :
    (m.insert k v).erase k = m := by
  apply Finmap.ext_lookup
  intro j
  simp only [lookup_insert_eq, lookup_erase_eq]
  split
  · next hj => rw [hj, h]
  · rfl

/-- Both maps have the same keys, and each value changes within `R`. -/
structure Changes (R : κ → ν → ν → Prop) (m m' : FiniteMap κ ν) : Prop where
  present : ∀ {k v}, m.lookup k = some v → ∃ v', m'.lookup k = some v' ∧ R k v v'
  absent : ∀ {k}, m.lookup k = none → m'.lookup k = none

section
variable {R Q T : κ → ν → ν → Prop} {m m' m'' : FiniteMap κ ν}

theorem Changes.refl (h : ∀ k v, R k v v) (m : FiniteMap κ ν) : Changes R m m :=
  ⟨fun {k v} hv => ⟨v, hv, h k v⟩, id⟩

theorem Changes.trans (hT : ∀ k a b c, R k a b → Q k b c → T k a c) (h : Changes R m m')
    (h' : Changes Q m' m'') : Changes T m m'' := by
  refine ⟨fun {k a} ha => ?_, fun hk => h'.absent (h.absent hk)⟩
  obtain ⟨b, hb, hab⟩ := h.present ha
  obtain ⟨c, hc, hbc⟩ := h'.present hb
  exact ⟨c, hc, hT k a b c hab hbc⟩

theorem Changes.mono (hT : ∀ k a b, R k a b → T k a b) (h : Changes R m m') :
    Changes T m m' := by
  refine ⟨fun {k a} ha => ?_, h.absent⟩
  obtain ⟨b, hb, hab⟩ := h.present ha
  exact ⟨b, hb, hT k a b hab⟩

theorem Changes.back (h : Changes R m m') {k : κ} {v' : ν} (hv : m'.lookup k = some v') :
    ∃ v, m.lookup k = some v ∧ R k v v' := by
  cases hk : m.lookup k with
  | none => rw [h.absent hk] at hv; cases hv
  | some v =>
    obtain ⟨w, hw, hr⟩ := h.present hk
    rw [hv] at hw
    cases hw
    exact ⟨v, rfl, hr⟩

theorem Changes.mem_iff (h : Changes R m m') (k : κ) : k ∈ m' ↔ k ∈ m := by
  simp only [Finmap.mem_iff]
  constructor
  · intro hlookup
    obtain ⟨v', hv⟩ := hlookup
    obtain ⟨v, hv, _⟩ := h.back hv
    exact ⟨v, hv⟩
  · intro hlookup
    obtain ⟨v, hv⟩ := hlookup
    obtain ⟨v', hv, _⟩ := h.present hv
    exact ⟨v', hv⟩

/-- Overwriting one present value changes that value and no other. -/
theorem Changes.insert {k : κ} {v w : ν} (hv : m.lookup k = some v) (hk : R k v w)
    (hrest : ∀ j u, j ≠ k → R j u u) : Changes R m (m.insert k w) := by
  constructor
  · intro j u hu
    by_cases hj : j = k
    · subst hj
      rw [hv] at hu
      cases hu
      exact ⟨w, Finmap.lookup_insert m, hk⟩
    · exact ⟨u, by rwa [Finmap.lookup_insert_of_ne _ hj], hrest j u hj⟩
  · intro j hj
    have hne : j ≠ k := by
      rintro rfl
      rw [hv] at hj
      cases hj
    rwa [Finmap.lookup_insert_of_ne _ hne]

end

/-- Total of a numeric measure over all values. -/
def weight (f : ν → Nat) (m : FiniteMap κ ν) : Nat :=
  (m.entries.map (fun e => f e.2)).sum

theorem weight_insert_fresh (f : ν → Nat) {m : FiniteMap κ ν} {k : κ} (h : k ∉ m) (v : ν) :
    weight f (m.insert k v) = f v + weight f m := by
  rw [weight, weight, Finmap.entries_insert_of_notMem h, Multiset.map_cons, Multiset.sum_cons]

/-- Overwriting trades the old value's measure for the new one's. -/
theorem weight_insert_present (f : ν → Nat) {m : FiniteMap κ ν} {k : κ} {old : ν}
    (h : m.lookup k = some old) (v : ν) :
    weight f (m.insert k v) + f old = weight f m + f v := by
  have hk : k ∉ m.erase k := by simp [Finmap.mem_erase]
  have hold : weight f m = f old + weight f (m.erase k) := by
    rw [← weight_insert_fresh f hk, insert_erase_self, insert_lookup_self h]
  rw [← insert_erase_self, weight_insert_fresh f hk, hold]
  ring

end FiniteMap
end WayPoint.Foundations
