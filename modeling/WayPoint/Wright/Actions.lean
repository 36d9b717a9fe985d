import WayPoint.Wright.RoundTrip
import WayPoint.Wright.Server

/-! From parsed actions to commands (utils.py): the dictionaries the handlers make, and what a server makes
of them. -/
namespace WayPoint.Wright
open Foundations

variable {φ : Type}

namespace Value

/-- `value[i]` of a sequence. -/
def item (value : Value φ) (i : Nat) : Except BuiltinError (Value φ) :=
  match value with
  | list items =>
    match items[i]? with
    | .some v => .ok v
    | .none => .error ⟨.other, "tuple index out of range".toList⟩
  | value => .error ⟨.typeError, "'".toList ++ value.typeName ++ "' object is not subscriptable".toList⟩

/-- `value.replace(old, new)` for one code point. -/
def replace (value : Value φ) (old : Char) (new : Str) : Except BuiltinError (Value φ) :=
  match value with
  | str s => .ok (str (s.flatMap (fun c => if c.val = old.toNat then new else [c])))
  | value => .error (value.noAttribute "replace")

/-- `value == s`. -/
def equals (value : Value φ) (s : Str) : Bool :=
  match value with
  | str t => t == s
  | _ => false

end Value

/-- An action after validation. -/
structure ParsedAction where
  action : ActionType
  coordinates : Option (Int × Int) := none
  dragCoordinates : Option (Int × Int × Int × Int) := none
  text : Option Str := none
  direction : Option Str := none
  hotkey : Option Str := none

namespace ParsedAction

def ofStr (s : Option Str) : Value φ := s.elim .none .str

/-- The declared fields, a tuple as the sequence of its items. -/
def fields (action : ParsedAction) : List (Str × Value φ) :=
  [(str "action", .str action.action.value),
    (str "coordinates", action.coordinates.elim .none (fun c => .list [.int c.1, .int c.2])),
    (str "drag_coordinates",
      action.dragCoordinates.elim .none (fun c => .list [.int c.1, .int c.2.1, .int c.2.2.1, .int c.2.2.2])),
    (str "text", ofStr action.text), (str "direction", ofStr action.direction),
    (str "hotkey", ofStr action.hotkey)]

/-- An attribute, which a model has for every field it declares. -/
def getattr (action : ParsedAction) (name : String) : Except BuiltinError (Value φ) :=
  match action.fields.lookup (str name) with
  | some value => .ok value
  | none =>
    .error ⟨.attributeError, ("'ParsedAction' object has no attribute '" ++ name ++ "'").toList⟩

end ParsedAction

abbrev Dictionary (φ : Type) := List (Str × Value φ)

def defaultScrollAmount : Int := 100

section handlers
variable (lib : Stdlib φ) (action : ParsedAction)

def handleClick : Except PyException (Option (Dictionary φ)) := do
  let coordinates ← raising (action.getattr "coordinates")
  if lib.truthy coordinates then
    return some [(str "action_type", .str ActionType.click.value), (str "x", ← raising (coordinates.item 0)),
      (str "y", ← raising (coordinates.item 1))]
  else return none

def handleType : Except PyException (Option (Dictionary φ)) := do
  let text : Value φ ← raising (action.getattr "text")
  if !text.isNone then
    let sanitizedText ← raising ((← raising (text.replace '\n' (str " "))).replace '\r' [])
    if !lib.truthy sanitizedText then return none
    return some [(str "action_type", .str ActionType.type.value), (str "text", sanitizedText)]
  else return none

/-- A direction in an f-string. -/
def formatDirection : Value φ → Except BuiltinError Str
  | .none => .ok (str "None")
  | value => lib.format value

/-- `delta_x` and `delta_y` for a direction. -/
def scrollDelta (direction : Value φ) : Except PyException (Int × Int) :=
  if direction.equals (str "down") then .ok (0, defaultScrollAmount)
  else if direction.equals (str "up") then .ok (0, -defaultScrollAmount)
  else if direction.equals (str "left") then .ok (-defaultScrollAmount, 0)
  else if direction.equals (str "right") then .ok (defaultScrollAmount, 0)
  else do
    lib.print (str "[Warning] SCROLL action has unknown direction '" ++
      (← raising (formatDirection lib direction)) ++ str "', defaulting to scroll down.")
    return (0, defaultScrollAmount)

def handleScroll : Except PyException (Option (Dictionary φ)) := do
  let direction := (action.getattr "direction").toOption.getD (.str (str "down"))
  let (deltaX, deltaY) ← scrollDelta lib direction
  return some [(str "action_type", .str ActionType.scroll.value), (str "delta_x", .int deltaX),
    (str "delta_y", .int deltaY)]

def handleGoto : Except PyException (Option (Dictionary φ)) := do
  let url ← raising (action.getattr "url")
  if lib.truthy url then
    return some [(str "action_type", .str ActionType.goto.value), (str "url", url)]
  else return none

end handlers

/-- An `ActionHandler`. -/
abbrev ActionHandler (φ : Type) := ParsedAction → Except PyException (Option (Dictionary φ))

/-- The handler for an action, where there is one. -/
def ActionType.handler (lib : Stdlib φ) : ActionType → Option (ActionHandler φ)
  | click => some (handleClick lib)
  | type => some (handleType lib)
  | scroll => some (handleScroll lib)
  | goto => some (handleGoto lib)
  | screenshot | setViewportSize => none

/-- An error exit of the server for an argument that is not there. -/
def Result.ReportsMissing (result : Result φ) : Prop :=
  ∃ message, result.errorMessage = .str message ∧ str "Missing" <+: message

/-- A handler answers, and what it gives is a command of the same type that the server finds complete. -/
structure Executable (lib : Stdlib φ) (handler : ActionHandler φ) (action : ParsedAction) : Prop where
  answers : ∃ out, handler action = .ok out
  loads : ∀ entries, handler action = .ok (some entries) →
    ∃ cmd, Command.load lib (.bytes (encode (lib.dumps (.dict entries)))) = .ok cmd ∧
      cmd.actionType = action.action ∧
      ∀ page, Program.Returns (fun result => ¬ result.ReportsMissing)
        (BrowserServer.processCommand lib page cmd)

/-- There is no url to go to, and a direction may be one that cannot be printed. -/
structure ParsedAction.Supported (action : ParsedAction) : Prop where
  goto : action.action ≠ .goto
  direction : action.action = .scroll → ∀ s, action.direction = some s → s.hasSurrogate = false

theorem ParsedAction.Supported.of_ne {action : ParsedAction} (hgoto : action.action ≠ .goto)
    (hscroll : action.action ≠ .scroll) : action.Supported := ⟨hgoto, fun h => absurd h hscroll⟩

section exits
variable {lib : Stdlib φ} {action : ParsedAction} {entries : Dictionary φ}

/-- The arguments that the server looks for are there. -/
def Command.Complete (cmd : Command φ) : Prop :=
  (cmd.actionType = .goto → cmd.url.isNone = false) ∧
    (cmd.actionType = .click → cmd.x.isNone = false ∧ cmd.y.isNone = false) ∧
    (cmd.actionType = .type → cmd.text.isNone = false) ∧
    (cmd.actionType = .setViewportSize → cmd.width.isNone = false ∧ cmd.height.isNone = false)

private theorem not_reportsMissing_failure {message : Str} (h : ¬ str "Missing" <+: message) :
    ¬ (Result.failure message : Result φ).ReportsMissing := by
  intro hmissing
  obtain ⟨_, hmessage, hprefix⟩ := hmissing
  cases hmessage
  exact h hprefix

private theorem not_isPrefix_append {a before : Str} (h : ¬ a <+: before) (hlength : a.length ≤ before.length)
    (after : Str) : ¬ a <+: before ++ after :=
  fun hprefix => h (List.prefix_of_prefix_length_le hprefix (List.prefix_append before after) hlength)

private theorem not_reportsMissing_succeeded : ¬ (Result.succeeded : Result φ).ReportsMissing := by
  intro h
  obtain ⟨_, hmessage, _⟩ := h
  cases hmessage

/-- With its arguments an action succeeds or raises. -/
theorem performAction_complete {cmd : Command φ} (h : cmd.Complete) :
    Program.Returns (fun result => ¬ result.ReportsMissing) (BrowserServer.performAction lib cmd) := by
  have hdone : Program.Returns (fun result => ¬ result.ReportsMissing)
      (return .succeeded : Coroutine φ (Result φ)) := Program.returns_pure not_reportsMissing_succeeded
  obtain ⟨hgoto, hclick, htype, hviewport⟩ := h
  unfold BrowserServer.performAction
  cases ha : cmd.actionType with
  | goto =>
    dsimp only
    rw [if_neg (by rw [hgoto ha]; exact Bool.false_ne_true)]
    refine Program.returns_bind fun _ => Program.returns_bind fun _ => ?_
    exact Program.returns_bind fun _ => Program.returns_bind fun _ => hdone
  | click =>
    dsimp only
    rw [if_neg (by rw [(hclick ha).1, (hclick ha).2]; exact Bool.false_ne_true)]
    refine Program.returns_bind fun _ => Program.returns_bind fun _ => Program.returns_bind fun _ => ?_
    exact Program.returns_bind fun _ => Program.returns_bind fun _ => Program.returns_bind fun _ => hdone
  | type =>
    dsimp only
    rw [if_neg (by rw [htype ha]; exact Bool.false_ne_true)]
    exact Program.returns_bind fun _ => Program.returns_bind fun _ => hdone
  | scroll =>
    refine Program.returns_bind fun _ => Program.returns_bind fun _ => ?_
    exact Program.returns_bind fun _ => Program.returns_bind fun _ => hdone
  | screenshot =>
    refine Program.returns_bind fun _ => Program.returns_pure fun hmissing => ?_
    obtain ⟨_, hmessage, _⟩ := hmissing
    cases hmessage
  | setViewportSize =>
    dsimp only
    rw [if_neg (by rw [(hviewport ha).1, (hviewport ha).2]; exact Bool.false_ne_true)]
    refine Program.returns_bind fun _ => Program.returns_bind fun _ => ?_
    exact Program.returns_bind fun _ => hdone

/-- Nor do the messages about errors read as if something were missing. -/
theorem processCommand_complete {cmd : Command φ} (h : cmd.Complete) (page : Bool) :
    Program.Returns (fun result => ¬ result.ReportsMissing) (BrowserServer.processCommand lib page cmd) := by
  unfold BrowserServer.processCommand
  split
  · exact Program.returns_pure (not_reportsMissing_failure (by decide +kernel))
  · refine Program.returns_tryCatch (performAction_complete h) fun e => ?_
    split
    · refine Program.returns_bind fun _ => Program.returns_pure (not_reportsMissing_failure ?_)
      exact not_isPrefix_append (by decide +kernel) (by decide +kernel) e.text
    · refine Program.returns_bind fun _ => Program.returns_pure (not_reportsMissing_failure ?_)
      exact not_isPrefix_append (by decide +kernel) (by decide +kernel) e.text

/-- A dictionary that names a type and gives its arguments is executed. -/
private theorem load_dictionary {actionType : ActionType}
    (hjson : lib.Undoes (Command.NumberOrString lib) entries) (hkeys : (entries.map Prod.fst).Nodup)
    (hvalues : ∀ entry ∈ entries, Command.NumberOrString lib entry.2)
    (htype : entries.lookup Command.actionTypeKey = some (.str actionType.value))
    (hcomplete : (Command.ofKwargs actionType (Command.filteredData
      (entries.filter (fun entry => entry.1 != Command.actionTypeKey)))).Complete) :
    ∃ cmd, Command.load lib (.bytes (encode (lib.dumps (.dict entries)))) = .ok cmd ∧
      cmd.actionType = actionType ∧
      ∀ page, Program.Returns (fun result => ¬ result.ReportsMissing)
        (BrowserServer.processCommand lib page cmd) := by
  refine ⟨_, ?_, rfl, processCommand_complete hcomplete⟩
  have hparse : Command.parse lib (.bytes (encode (lib.dumps (.dict entries)))) =
      .ok (Command.ofKwargs actionType (Command.filteredData
        (entries.filter (fun entry => entry.1 != Command.actionTypeKey)))) := by
    rw [Command.parse, Message.loads_dumps (hjson hkeys hvalues)]
    exact Command.fromData_of_lookup htype
  rw [Command.load, hparse]

end exits

section handled
variable {lib : Stdlib φ} {action : ParsedAction}

theorem handleClick_eq (lib : Stdlib φ) (action : ParsedAction) : handleClick lib action =
    .ok (action.coordinates.map fun c =>
      [(str "action_type", .str ActionType.click.value), (str "x", .int c.1), (str "y", .int c.2)]) := by
  have hget : action.getattr "coordinates" = (.ok (action.coordinates.elim .none
      (fun c => .list [.int c.1, .int c.2])) : Except BuiltinError (Value φ)) := rfl
  rw [handleClick, hget]
  cases action.coordinates with
  | none => rfl
  | some c => rfl

theorem handleType_eq (lib : Stdlib φ) (action : ParsedAction) : ∃ out, handleType lib action = .ok out ∧
    ∀ entries ∈ out, ∃ s, entries =
      [(str "action_type", .str ActionType.type.value), (str "text", .str s)] := by
  have hget : action.getattr "text" = (.ok (ParsedAction.ofStr action.text) : Except BuiltinError (Value φ)) :=
    rfl
  rw [handleType, hget]
  cases action.text with
  | none => exact ⟨none, rfl, fun _ h => by cases h⟩
  | some text =>
    simp only [ParsedAction.ofStr, Option.elim, Value.isNone, Value.replace, raising, bind, Except.bind,
      Bool.not_false, if_true]
    split
    · exact ⟨none, rfl, fun _ h => by cases h⟩
    · exact ⟨_, rfl, fun entries h => ⟨_, (Option.some.inj h).symm⟩⟩

private theorem scrollDelta_ok_iff (lib : Stdlib φ) (direction : Option Str) :
    (∃ delta, scrollDelta lib (ParsedAction.ofStr direction) = .ok delta) ↔
      ∀ s, direction = some s → s.hasSurrogate = false := by
  have hwarning {value : Value φ} {s : Str} (hformat : formatDirection lib value = .ok s) :
      (∃ delta : Int × Int, (do
        lib.print (str "[Warning] SCROLL action has unknown direction '" ++
          (← raising (formatDirection lib value)) ++ str "', defaulting to scroll down.")
        return (0, defaultScrollAmount)) = .ok delta) ↔ s.hasSurrogate = false := by
    rw [hformat]
    constructor
    · intro h
      obtain ⟨delta, h⟩ := h
      obtain ⟨_, hs, h⟩ := bind_eq_ok_iff.mp h
      obtain rfl := Except.ok.inj hs
      obtain ⟨_, hprint, _⟩ := bind_eq_ok_iff.mp h
      simpa using lib.print_ok hprint
    · intro hs
      exact ⟨_, bind_eq_ok_iff.mpr ⟨s, rfl, bind_eq_ok_iff.mpr ⟨(), if_neg (by simp [hs]), rfl⟩⟩⟩
  cases direction with
  | none =>
    refine iff_of_true ?_ fun s h => by cases h
    simp only [scrollDelta, ParsedAction.ofStr, Option.elim, Value.equals, Bool.false_eq_true, if_false]
    exact (hwarning rfl).mpr (hasSurrogate_str "None")
  | some s =>
    have hknown {t : String} (h : s = str t) : ∀ u, some s = some u → u.hasSurrogate = false := by
      intro u hu
      obtain rfl := Option.some.inj hu
      rw [h, hasSurrogate_str]
    simp only [scrollDelta, ParsedAction.ofStr, Option.elim, Value.equals, beq_iff_eq]
    split_ifs with hdown hup hleft hright
    · exact iff_of_true ⟨_, rfl⟩ (hknown hdown)
    · exact iff_of_true ⟨_, rfl⟩ (hknown hup)
    · exact iff_of_true ⟨_, rfl⟩ (hknown hleft)
    · exact iff_of_true ⟨_, rfl⟩ (hknown hright)
    · simp only [Option.some.injEq, forall_eq']
      exact hwarning rfl

theorem handleScroll_eq (lib : Stdlib φ) (action : ParsedAction) : handleScroll lib action =
    (scrollDelta lib (ParsedAction.ofStr action.direction)).map fun delta =>
      some [(str "action_type", .str ActionType.scroll.value), (str "delta_x", .int delta.1),
        (str "delta_y", .int delta.2)] := rfl

section executable
variable {handler : ActionHandler φ} (hjson : ∀ entries, handler action = .ok (some entries) →
  lib.Undoes (Command.NumberOrString lib) entries)
include hjson

private theorem executable_click (ha : action.action = .click) (hhandler : handler = handleClick lib) :
    Executable lib handler action := by
  subst hhandler
  have hclick := handleClick_eq lib action
  refine ⟨⟨_, hclick⟩, fun entries h => ?_⟩
  have hundoes := hjson entries h
  rw [hclick, Except.ok.injEq, Option.map_eq_some_iff] at h
  obtain ⟨c, _, rfl⟩ := h
  have hkeys : [str "action_type", str "x", str "y"].Nodup := by decide +kernel
  rw [ha]
  refine load_dictionary hundoes hkeys (by simp [Command.NumberOrString]) rfl ?_
  exact ⟨fun h => (by cases h), fun _ => ⟨rfl, rfl⟩, fun h => (by cases h), fun h => (by cases h)⟩

private theorem executable_type (ha : action.action = .type) (hhandler : handler = handleType lib) :
    Executable lib handler action := by
  subst hhandler
  obtain ⟨out, htype, hout⟩ := handleType_eq lib action
  refine ⟨⟨out, htype⟩, fun entries h => ?_⟩
  have hundoes := hjson entries h
  rw [htype, Except.ok.injEq] at h
  obtain ⟨s, rfl⟩ := hout entries h
  have hkeys : [str "action_type", str "text"].Nodup := by decide +kernel
  rw [ha]
  refine load_dictionary hundoes hkeys (by simp [Command.NumberOrString]) rfl ?_
  exact ⟨fun h => (by cases h), fun h => (by cases h), fun _ => rfl, fun h => (by cases h)⟩

private theorem executable_scroll_iff (ha : action.action = .scroll) (hhandler : handler = handleScroll lib) :
    Executable lib handler action ↔ ∀ s, action.direction = some s → s.hasSurrogate = false := by
  subst hhandler
  rw [← scrollDelta_ok_iff lib]
  constructor
  · intro h
    obtain ⟨out, hout⟩ := h.answers
    rw [handleScroll_eq] at hout
    cases hdelta : scrollDelta lib (ParsedAction.ofStr action.direction : Value φ) with
    | ok delta => exact ⟨delta, rfl⟩
    | error e =>
      rw [hdelta] at hout
      cases hout
  · intro h
    obtain ⟨delta, hdelta⟩ := h
    have hscroll := handleScroll_eq lib action
    rw [hdelta] at hscroll
    refine ⟨⟨_, hscroll⟩, fun entries h => ?_⟩
    have hundoes := hjson entries h
    rw [hscroll] at h
    cases h
    have hkeys : [str "action_type", str "delta_x", str "delta_y"].Nodup := by decide +kernel
    rw [ha]
    refine load_dictionary hundoes hkeys (by simp [Command.NumberOrString]) rfl ?_
    exact ⟨fun h => (by cases h), fun h => (by cases h), fun h => (by cases h), fun h => (by cases h)⟩

end executable

/-- Handlers give executable commands exactly where there is something to go to and to print: never for a
navigation, and not for a scroll whose direction holds a surrogate. -/
theorem executable_iff (lib : Stdlib φ) (action : ParsedAction) (handler : ActionHandler φ)
    (hhandler : action.action.handler lib = some handler)
    (hjson : ∀ entries, handler action = .ok (some entries) →
      lib.Undoes (Command.NumberOrString lib) entries) :
    Executable lib handler action ↔ action.Supported := by
  cases ha : action.action with
  | click =>
    rw [ha] at hhandler
    refine iff_of_true (executable_click hjson ha (Option.some.inj hhandler).symm) ?_
    exact .of_ne (by rw [ha]; decide) (by rw [ha]; decide)
  | type =>
    rw [ha] at hhandler
    refine iff_of_true (executable_type hjson ha (Option.some.inj hhandler).symm) ?_
    exact .of_ne (by rw [ha]; decide) (by rw [ha]; decide)
  | scroll =>
    rw [ha] at hhandler
    rw [executable_scroll_iff hjson ha (Option.some.inj hhandler).symm]
    constructor
    · intro h
      exact ⟨by rw [ha]; decide, fun _ => h⟩
    · intro h
      exact h.direction ha
  | goto =>
    rw [ha] at hhandler
    obtain rfl := Option.some.inj hhandler
    refine iff_of_false (fun h => ?_) fun h => h.goto ha
    obtain ⟨out, hout⟩ := h.answers
    cases hout
  | screenshot =>
    rw [ha] at hhandler
    cases hhandler
  | setViewportSize =>
    rw [ha] at hhandler
    cases hhandler

def originClick : ParsedAction := { action := .click, coordinates := some (0, 0) }

def originLib : Stdlib Unit :=
  .sample "\x7b\"action_type\": \"click\", \"x\": 0, \"y\": 0\x7d"
    [(str "action_type", .str ActionType.click.value), (str "x", .int 0), (str "y", .int 0)] []

theorem executable_iff_originClick :
    Executable originLib (handleClick originLib) originClick ↔ originClick.Supported := by
  refine executable_iff originLib originClick _ rfl fun entries h => ?_
  rw [handleClick_eq] at h
  cases h
  exact Stdlib.sample_undoes _ _ _ _

def navigation : ParsedAction := { action := .goto, text := some (str "https://example.com") }

/-- A parsed action has no url to read. -/
theorem navigation_raises :
    navigation.action.handler originLib = some (handleGoto originLib) ∧
      handleGoto originLib navigation =
        .error ⟨.attributeError, .ofText "'ParsedAction' object has no attribute 'url'".toList⟩ ∧
      ¬ Executable originLib (handleGoto originLib) navigation := by
  refine ⟨rfl, rfl, fun h => ?_⟩
  obtain ⟨out, hout⟩ := h.answers
  cases hout

end handled
end WayPoint.Wright
