import WayPoint.Manager.Handlers
import WayPoint.Manager.Untimed

/-! The times nested in a message make no difference to what the manager does with it. -/
namespace WayPoint.Manager
open Foundations SetTimestamp AddToInstanceDescription

/-- A message without the `timestamp_ms` values nested in it. -/
def InstanceDescription.unstamped (d : InstanceDescription) : InstanceDescription :=
  { d.untimed with createdTimestampMs := d.createdTimestampMs }

theorem unstamped_unstamped (d : InstanceDescription) : d.unstamped.unstamped = d.unstamped := by
  simp only [InstanceDescription.unstamped, InstanceDescription.untimed, Option.map_map,
    Function.comp_def, List.map_map]

private def clearLink (r : Relationship) : Relationship := { r with timestampMs := none }

private theorem childList_unstamped (d : InstanceDescription) :
    d.unstamped.childList = d.childList.map clearLink := by
  unfold InstanceDescription.childList InstanceDescription.unstamped InstanceDescription.untimed
  cases d.children <;> rfl

/-- What the server stamps anyway may have carried any time. -/
private theorem updateInstanceDescription_map {T : Type} [SetTimestamp T] [AddToInstanceDescription T]
    {clear : T → T} (h : ∀ t v, setTimestamp t (clear v) = setTimestamp t v) (d : InstanceDescription)
    (v : Option T) : updateInstanceDescription d (v.map clear) = updateInstanceDescription d v := by
  cases v with
  | none => rfl
  | some v =>
    simp only [Option.map_some, updateInstanceDescription, h]

/-- One reading replaces the times of all children of the message. -/
private theorem setTimestamp_clearChildren (t : TimestampMs) (c : Children) :
    setTimestamp t (⟨c.children.map clearLink⟩ : Children) = setTimestamp t c := by
  simp only [setTimestamp, List.map_map]
  rfl

private theorem updateFields_unstamped (request d : InstanceDescription) :
    updateFields request.unstamped d = updateFields request d := by
  have hservices (d : InstanceDescription) :
      updateInstanceDescription d request.unstamped.services =
        updateInstanceDescription d request.services :=
    updateInstanceDescription_map (by intro _ _; rfl) d _
  have hhealth (d : InstanceDescription) :
      updateInstanceDescription d request.unstamped.healthCheck =
        updateInstanceDescription d request.healthCheck :=
    updateInstanceDescription_map (by intro _ _; rfl) d _
  have hparent (d : InstanceDescription) :
      updateInstanceDescription d request.unstamped.parent =
        updateInstanceDescription d request.parent :=
    updateInstanceDescription_map (by intro _ _; rfl) d _
  have hchildren (d : InstanceDescription) :
      updateInstanceDescription d request.unstamped.children =
        updateInstanceDescription d request.children :=
    updateInstanceDescription_map setTimestamp_clearChildren d _
  have hkill (d : InstanceDescription) :
      updateInstanceDescription d request.unstamped.killInstanceRequest =
        updateInstanceDescription d request.killInstanceRequest :=
    updateInstanceDescription_map (by intro _ _; rfl) d _
  have hproxy (d : InstanceDescription) :
      updateInstanceDescription d request.unstamped.proxyMetrics =
        updateInstanceDescription d request.proxyMetrics :=
    updateInstanceDescription_map (by intro _ _; rfl) d _
  have hsystem (d : InstanceDescription) :
      updateInstanceDescription d request.unstamped.systemMetrics =
        updateInstanceDescription d request.systemMetrics :=
    updateInstanceDescription_map (by intro _ _; rfl) d _
  have hgpu (d : InstanceDescription) :
      updateInstanceDescription d request.unstamped.gpuMetrics =
        updateInstanceDescription d request.gpuMetrics :=
    updateInstanceDescription_map (by intro _ _; rfl) d _
  have hllm (d : InstanceDescription) :
      updateInstanceDescription d request.unstamped.llmMetrics =
        updateInstanceDescription d request.llmMetrics :=
    updateInstanceDescription_map (by intro _ _; rfl) d _
  simp only [updateFields, hservices, hhealth, hparent, hchildren, hkill, hproxy, hsystem, hgpu, hllm]

private theorem validateParent_unstamped (s : InnerService) (d request : InstanceDescription) :
    validateParent s d request.unstamped.parent = validateParent s d request.parent := by
  unfold InstanceDescription.unstamped InstanceDescription.untimed
  cases request.parent <;> rfl

private theorem validateChildren_clear (s : InnerService) (d : InstanceDescription) (cs : List Relationship) :
    validateChildren s d (cs.map clearLink) = validateChildren s d cs := by
  induction cs with
  | nil => rfl
  | cons c cs ih =>
    rw [List.map_cons, validateChildren, validateChildren, ih]
    rfl

private theorem validateLinks_unstamped (s : InnerService) (d request : InstanceDescription) :
    validateLinks s d request.unstamped = validateLinks s d request := by
  unfold validateLinks
  rw [validateParent_unstamped, childList_unstamped, validateChildren_clear]

private theorem linkChildren_clear (x : InstanceId) (cs : List Relationship) :
    linkChildren x (cs.map clearLink) = linkChildren x cs := by
  induction cs with
  | nil => rfl
  | cons c cs ih =>
    rw [List.map_cons, linkChildren, linkChildren, ih]
    rfl

private theorem linkParent_unstamped (x : InstanceId) (request : InstanceDescription) :
    linkParent x request.unstamped.parent = linkParent x request.parent := by
  unfold InstanceDescription.unstamped InstanceDescription.untimed
  cases request.parent <;> rfl

private theorem commitUpdate_unstamped (x : InstanceId) (request : InstanceDescription) :
    commitUpdate x request.unstamped = commitUpdate x request := by
  have hfields : updateFields request.unstamped = updateFields request :=
    funext (updateFields_unstamped request)
  unfold commitUpdate
  rw [hfields, childList_unstamped, linkChildren_clear, linkParent_unstamped]

theorem apply_unstamped (request : InstanceDescription) :
    applyToInstanceDescription request.unstamped = applyToInstanceDescription request := by
  unfold applyToInstanceDescription
  simp only [validateLinks_unstamped, commitUpdate_unstamped]
  rfl

/-- The checks made before the lock look at which fields are set. -/
theorem shapes_unstamped (request : InstanceDescription) :
    addShape request.unstamped = addShape request ∧
      updateShape request.unstamped = updateShape request ∧
      postShape request.unstamped = postShape request := by
  simp only [addShape, updateShape, postShape, InstanceDescription.unstamped,
    InstanceDescription.untimed, Option.isNone_map, and_self]

end WayPoint.Manager
