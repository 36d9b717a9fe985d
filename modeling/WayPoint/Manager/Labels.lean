import WayPoint.Foundations.Exceptions
import WayPoint.Manager.StatusPage

/-! What is shown for an instance id, and which ids the pages cannot show: they are cut after a number of
bytes, and the cut may fall inside a character. -/
namespace WayPoint.Manager
open Foundations

variable {s label : String} {id : InstanceId}

/-- A short id is shown as it is, a long one by its beginning and three dots. -/
structure Abbreviates (s label : String) : Prop where
  short : s.utf8ByteSize ≤ 32 → label = s
  long : 32 < s.utf8ByteSize →
    ∃ start rest, s = start ++ rest ∧ label = start ++ "..." ∧ label.utf8ByteSize ≤ 32

/-- There is nothing to cut, or 29 bytes are whole characters. -/
def Cuttable (s : String) : Prop :=
  s.utf8ByteSize ≤ 32 ∨ ∃ start rest, s = start ++ rest ∧ start.utf8ByteSize = 29

/-- The ids shown for a browser on the status page. -/
def Browser.shownIds (b : Browser) : List InstanceId :=
  b.browserId.toList ++ (b.connected.bind Prod.fst).toList

/-- The ids shown on the page of an instance. -/
def InstanceDescription.shownIds (d : InstanceDescription) : List InstanceId :=
  d.instanceId.toList ++ (d.parent.bind Relationship.instanceId).toList ++
    d.childList.filterMap Relationship.instanceId

/-- An id is shown as it should be, and no page that shows it is lost because of it. -/
structure Displayable (id : InstanceId) : Prop where
  label : ∃ label, truncatedString id.instanceId = .ok label ∧ Abbreviates id.instanceId label
  statusPage : ∀ browsers now,
    (∀ b ∈ browsers, ∀ other ∈ b.shownIds, other ≠ id → Cuttable other.instanceId) →
      ∃ page, render .wrapping browsers now = .ok page
  instancePage : ∀ formats d, (∀ other ∈ d.shownIds, other ≠ id → Cuttable other.instanceId) →
    SingleInstancePageTemplate.render formats d ≠ .error .notCharBoundary

/-- A slice is what lies before a position between two characters. -/
private theorem sliceTo_eq_ok_iff {start : String} {offset : Nat} :
    sliceTo s offset = .ok start ↔ ∃ rest, s = start ++ rest ∧ start.utf8ByteSize = offset := by
  unfold sliceTo
  split
  · next hvalid =>
    have hsplits := String.Pos.splits (⟨⟨offset⟩, hvalid⟩ : s.Pos)
    constructor
    · intro h
      obtain rfl := Except.ok.inj h
      exact ⟨_, hsplits.eq_append, (congrArg String.Pos.Raw.byteIdx hsplits.offset_eq_rawEndPos).symm⟩
    · intro h
      obtain ⟨rest, happend, hsize⟩ := h
      have hstart : (⟨⟨offset⟩, hvalid⟩ : s.Pos).Splits start rest :=
        ⟨happend, String.Pos.Raw.ext hsize.symm⟩
      rw [hsplits.eq_left hstart]
  · next hvalid =>
    constructor
    · intro h
      cases h
    · intro h
      obtain ⟨rest, happend, hsize⟩ := h
      refine absurd (String.Pos.Raw.isValid_iff_exists_append.mpr ⟨start, rest, happend, ?_⟩) hvalid
      exact String.Pos.Raw.ext hsize.symm

private theorem truncatedString_eq_ok (h : truncatedString s = .ok label) : Abbreviates s label := by
  unfold truncatedString at h
  split at h
  · next hlong =>
    obtain ⟨start, hstart, h⟩ := bind_eq_ok_iff.mp h
    obtain rfl := Except.ok.inj h
    obtain ⟨rest, happend, hsize⟩ := sliceTo_eq_ok_iff.mp hstart
    refine ⟨fun hshort => absurd hlong (Nat.not_lt.mpr hshort), fun _ => ⟨start, rest, happend, rfl, ?_⟩⟩
    rw [String.utf8ByteSize_append, hsize]
    exact Nat.le_refl 32
  · next hshort =>
    obtain rfl := Except.ok.inj h
    exact ⟨fun _ => rfl, fun hlong => absurd hlong hshort⟩

theorem exists_truncatedString_iff : (∃ label, truncatedString s = .ok label) ↔ Cuttable s := by
  unfold truncatedString Cuttable
  split
  · next hlong =>
    have hlong : ¬ s.utf8ByteSize ≤ 32 := Nat.not_le.mpr hlong
    rw [or_iff_right hlong]
    constructor
    · intro h
      obtain ⟨label, h⟩ := h
      obtain ⟨start, hstart, _⟩ := bind_eq_ok_iff.mp h
      obtain ⟨rest, hrest⟩ := sliceTo_eq_ok_iff.mp hstart
      exact ⟨start, rest, hrest⟩
    · intro h
      obtain ⟨start, rest, hrest⟩ := h
      exact ⟨_, bind_eq_ok_iff.mpr ⟨start, sliceTo_eq_ok_iff.mpr ⟨rest, hrest⟩, rfl⟩⟩
  · next hshort => exact iff_of_true ⟨s, rfl⟩ (Or.inl (Nat.not_lt.mp hshort))

private theorem truncatedString_eq_error {e : Panic} (h : truncatedString s = .error e) :
    e = .notCharBoundary ∧ ¬ Cuttable s := by
  refine ⟨?_, fun hcut => ?_⟩
  · unfold truncatedString at h
    split at h
    · rcases bind_eq_error_iff.mp h with h | ⟨_, _, h⟩
      · unfold sliceTo at h
        split at h
        · cases h
        · cases h
          rfl
      · cases h
    · cases h
  · obtain ⟨label, hlabel⟩ := exists_truncatedString_iff.mpr hcut
    rw [hlabel] at h
    cases h

private theorem formatInstanceId_eq_error {id? : Option InstanceId} {e : Panic}
    (h : formatInstanceId id? = .error e) : e = .notCharBoundary ∧ ∃ id ∈ id?, ¬ Cuttable id.instanceId := by
  cases id? with
  | none => cases h
  | some id =>
    rcases bind_eq_error_iff.mp h with h | ⟨_, _, h⟩
    · obtain ⟨he, hcut⟩ := truncatedString_eq_error h
      exact ⟨he, id, rfl, hcut⟩
    · cases h

private theorem renderConnection_eq_error {c : Browser × Option InstanceId × UInt64} {now : UInt64} {e : Panic}
    (h : renderConnection .wrapping now c = .error e) :
    e = .notCharBoundary ∧ ∃ id, (id ∈ c.1.browserId ∨ id ∈ c.2.1) ∧ ¬ Cuttable id.instanceId := by
  obtain ⟨b, parentId, since⟩ := c
  rcases bind_eq_error_iff.mp h with h | ⟨parent, _, h⟩
  · obtain ⟨he, id, hid, hcut⟩ := formatInstanceId_eq_error h
    exact ⟨he, id, Or.inr hid, hcut⟩
  · rcases bind_eq_error_iff.mp h with h | ⟨instanceId, _, h⟩
    · obtain ⟨he, id, hid, hcut⟩ := formatInstanceId_eq_error h
      exact ⟨he, id, Or.inl hid, hcut⟩
    · cases h

private theorem renderRegistration_eq_error {b : Browser} {now : UInt64} {e : Panic}
    (h : renderRegistration .wrapping now b = .error e) :
    e = .notCharBoundary ∧ ∃ id ∈ b.browserId, ¬ Cuttable id.instanceId := by
  rcases bind_eq_error_iff.mp h with h | ⟨browserId, _, h⟩
  · exact formatInstanceId_eq_error h
  · cases h

/-- With ages that wrap around, the status page is lost only to an id it shows, cut inside a character. -/
theorem render_eq_error {browsers : List Browser} {now : UInt64} {e : Panic}
    (h : render .wrapping browsers now = .error e) :
    e = .notCharBoundary ∧ ∃ b ∈ browsers, ∃ id ∈ b.shownIds, ¬ Cuttable id.instanceId := by
  rcases bind_eq_error_iff.mp h with h | ⟨connections, _, h⟩
  · obtain ⟨c, hc, h⟩ := exists_of_mapM_eq_error h
    obtain ⟨b, hb, hconnected⟩ := List.mem_filterMap.mp hc
    obtain ⟨⟨parentId, since⟩, hparent, rfl⟩ := Option.map_eq_some_iff.mp hconnected
    obtain ⟨he, id, hid, hcut⟩ := renderConnection_eq_error h
    refine ⟨he, b, hb, id, ?_, hcut⟩
    rw [Browser.shownIds, hparent]
    rcases hid with hid | hid
    · exact List.mem_append_left _ (Option.mem_toList.mpr hid)
    · exact List.mem_append_right _ (Option.mem_toList.mpr hid)
  · rcases bind_eq_error_iff.mp h with h | ⟨registrations, _, h⟩
    · obtain ⟨b, hb, h⟩ := exists_of_mapM_eq_error h
      obtain ⟨he, id, hid, hcut⟩ := renderRegistration_eq_error h
      exact ⟨he, b, hb, id, List.mem_append_left _ (Option.mem_toList.mpr hid), hcut⟩
    · cases h

private theorem formatTimestampMs_eq_error {formats : Formats} {t : Option TimestampMs} {e : Panic}
    (h : formatTimestampMs formats t = .error e) : e = .unwrapNone := by
  cases t with
  | none => cases h
  | some t =>
    rw [formatTimestampMs] at h
    cases hdate : formats.dateTime t.timestampMs.toInt64 with
    | none =>
      rw [hdate] at h
      cases h
      rfl
    | some text =>
      rw [hdate] at h
      cases h

/-- Nor is the page of an instance lost to anything but an id it shows, or a time chrono cannot write. -/
theorem instancePage_eq_error {formats : Formats} {d : InstanceDescription}
    (h : SingleInstancePageTemplate.render formats d = .error .notCharBoundary) :
    ∃ id ∈ d.shownIds, ¬ Cuttable id.instanceId := by
  unfold SingleInstancePageTemplate.render at h
  rcases bind_eq_error_iff.mp h with h | ⟨instanceId, _, h⟩
  · obtain ⟨_, id, hid, hcut⟩ := formatInstanceId_eq_error h
    refine ⟨id, ?_, hcut⟩
    exact List.mem_append_left _ (List.mem_append_left _ (Option.mem_toList.mpr hid))
  rcases bind_eq_error_iff.mp h with h | ⟨created, _, h⟩
  · cases formatTimestampMs_eq_error h
  rcases bind_eq_error_iff.mp h with h | ⟨parent, _, h⟩
  · cases hp : d.parent with
    | none =>
      rw [hp] at h
      cases h
    | some r =>
      rw [hp] at h
      obtain ⟨_, id, hid, hcut⟩ := formatInstanceId_eq_error h
      refine ⟨id, List.mem_append_left _ (List.mem_append_right _ ?_), hcut⟩
      rw [hp]
      exact Option.mem_toList.mpr hid
  rcases bind_eq_error_iff.mp h with h | ⟨children, _, h⟩
  · obtain ⟨child, hchild, h⟩ := exists_of_mapM_eq_error h
    obtain ⟨_, id, hid, hcut⟩ := formatInstanceId_eq_error h
    exact ⟨id, List.mem_append_right _ (List.mem_filterMap.mpr ⟨child, hchild, hid⟩), hcut⟩
  rcases bind_eq_error_iff.mp h with h | ⟨stateInfo, _, h⟩
  · cases hk : d.killInstanceRequest with
    | none =>
      rw [hk] at h
      cases h
    | some kill =>
      rw [hk] at h
      rcases bind_eq_error_iff.mp h with h | ⟨killedAt, _, h⟩
      · cases formatTimestampMs_eq_error h
      · cases h
  · cases h

/-- Exactly the ids that are short, or whose first 29 bytes are whole characters, can be displayed. -/
theorem displayable_iff (id : InstanceId) : Displayable id ↔ Cuttable id.instanceId := by
  constructor
  · intro h
    obtain ⟨label, hlabel, _⟩ := h.label
    exact exists_truncatedString_iff.mp ⟨label, hlabel⟩
  · intro hcut
    refine ⟨?_, fun browsers now hothers => ?_, fun formats d hothers h => ?_⟩
    · obtain ⟨label, hlabel⟩ := exists_truncatedString_iff.mpr hcut
      exact ⟨label, hlabel, truncatedString_eq_ok hlabel⟩
    · cases hpage : render .wrapping browsers now with
      | ok page => exact ⟨page, rfl⟩
      | error e =>
        obtain ⟨_, b, hb, other, hother, hbad⟩ := render_eq_error hpage
        by_cases hid : other = id
        · exact absurd (hid ▸ hcut) hbad
        · exact absurd (hothers b hb other hother hid) hbad
    · obtain ⟨other, hother, hbad⟩ := instancePage_eq_error h
      by_cases hid : other = id
      · exact absurd (hid ▸ hcut) hbad
      · exact absurd (hothers other hother hid) hbad

/-- Byte 29 of this id is the second of an accented letter. -/
def accentedId : InstanceId := ⟨"aaaaaaaaaaaaaaaaaaaaaaaaaaaaéaaa"⟩

/-- A browser of that name has registered. -/
def accentedStore : InnerService :=
  replay ∅ [(⟨1000⟩, .tryAddInstance
    { instanceId := some accentedId, instanceType := some InstanceType.chromeBrowser.toI32 })]

theorem not_displayable_accentedId : Reachable accentedStore ∧
    accentedStore.lookup accentedId.instanceId = some
      (blankDescription accentedId (some InstanceType.chromeBrowser.toI32) ⟨1000⟩) ∧
    createStatusPage .wrapping ((FiniteMap.listing accentedStore).map Sigma.snd) ⟨2000⟩ =
      .error (.panic .notCharBoundary) ∧
    ¬ Displayable accentedId := by
  refine ⟨Reachable.empty.replay _, by decide +kernel, by decide +kernel, fun h => ?_⟩
  obtain ⟨label, hlabel, _⟩ := h.label
  have hpanic : truncatedString accentedId.instanceId = .error .notCharBoundary := by decide
  rw [hpanic] at hlabel
  cases hlabel

end WayPoint.Manager
