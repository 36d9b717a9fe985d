import WayPoint.Wright.Python

/-! Commands and results, and the JSON they travel in (models.py). -/
namespace WayPoint.Wright

variable {φ : Type}

inductive ActionType where
  | click
  | type
  | scroll
  | goto
  | screenshot
  | setViewportSize
  deriving DecidableEq, Repr

namespace ActionType

def value : ActionType → Str
  | click => str "click"
  | type => str "type"
  | scroll => str "scroll"
  | goto => str "goto"
  | screenshot => str "screenshot"
  | setViewportSize => str "set_viewport_size"

def name : ActionType → Str
  | click => str "CLICK"
  | type => str "TYPE"
  | scroll => str "SCROLL"
  | goto => str "GOTO"
  | screenshot => str "SCREENSHOT"
  | setViewportSize => str "SET_VIEWPORT_SIZE"

/-- `ActionType(value)`: `none` for the `ValueError`. -/
def ofValue : Value φ → Option ActionType
  | .str s => [click, type, scroll, goto, screenshot, setViewportSize].find? (fun a => a.value == s)
  | _ => none

@[simp] theorem ofValue_value (a : ActionType) : ofValue (.str a.value : Value φ) = some a := by
  rw [ofValue]
  cases a <;> decide +kernel

theorem value_of_ofValue {v : Value φ} {a : ActionType} (h : ofValue v = some a) : v = .str a.value := by
  cases v with
  | str s =>
    have hfound := List.find?_some h
    rw [beq_iff_eq] at hfound
    rw [hfound]
  | _ => cases h

end ActionType

/-- A command as Python builds it: the dataclass does not check what its fields are given. -/
structure Command (φ : Type) where
  actionType : ActionType
  x : Value φ := .none
  y : Value φ := .none
  text : Value φ := .none
  deltaX : Value φ := .none
  deltaY : Value φ := .none
  url : Value φ := .none
  width : Value φ := .none
  height : Value φ := .none
  timeout : Value φ := .int 30000

/-- A frame of the connection: `bytes`, or a `str` for a text frame. -/
inductive Message where
  | bytes (frame : Bytes)
  | text (frame : Text)
  deriving DecidableEq, Repr

/-- `json.loads(message_bytes.decode("utf-8"))`. -/
def Message.loads (lib : Stdlib φ) : Message → Except BuiltinError (Value φ)
  | .bytes frame => do lib.loads (← lib.decodeBytes frame)
  | .text _ => .error ((Value.str [] : Value φ).noAttribute "decode")

namespace Command

def actionTypeKey : Str := str "action_type"

/-- The other fields of the dataclass, with the values they have. -/
def params (cmd : Command φ) : List (Str × Value φ) :=
  [(str "x", cmd.x), (str "y", cmd.y), (str "text", cmd.text), (str "delta_x", cmd.deltaX),
    (str "delta_y", cmd.deltaY), (str "url", cmd.url), (str "width", cmd.width),
    (str "height", cmd.height), (str "timeout", cmd.timeout)]

/-- `cls.__dataclass_fields__.keys()`. -/
def validKeys : List Str :=
  [actionTypeKey, str "x", str "y", str "text", str "delta_x", str "delta_y", str "url", str "width",
    str "height", str "timeout"]

/-- `cls(action_type=…, **filtered_data)`. -/
def ofKwargs (actionType : ActionType) (kwargs : List (Str × Value φ)) : Command φ where
  actionType := actionType
  x := (kwargs.lookup (str "x")).getD .none
  y := (kwargs.lookup (str "y")).getD .none
  text := (kwargs.lookup (str "text")).getD .none
  deltaX := (kwargs.lookup (str "delta_x")).getD .none
  deltaY := (kwargs.lookup (str "delta_y")).getD .none
  url := (kwargs.lookup (str "url")).getD .none
  width := (kwargs.lookup (str "width")).getD .none
  height := (kwargs.lookup (str "height")).getD .none
  timeout := (kwargs.lookup (str "timeout")).getD (.int 30000)

/-- `filtered_data` of `load`. -/
def filteredData (data : List (Str × Value φ)) : List (Str × Value φ) :=
  data.filter (fun entry => validKeys.contains entry.1 && entry.1 != actionTypeKey)

variable (lib : Stdlib φ)

/-- The rest of the `try` block of `load`, on the object the message holds. -/
def fromData (data : Value φ) : Except PyException (Command φ) := do
  let (actionTypeStr, data) ← raising (data.pop actionTypeKey)
  if !lib.truthy actionTypeStr then
    throw ⟨.valueError, str "Missing 'action_type' in message"⟩
  match ActionType.ofValue actionTypeStr with
  | none => throw ⟨.valueError, str "Invalid action_type: " ++ (← raising (lib.format actionTypeStr))⟩
  | some actionType => return ofKwargs actionType (filteredData data)

/-- The `try` block of `load`. -/
def parse (message : Message) : Except PyException (Command φ) := do
  fromData lib (← raising (message.loads lib))

def load (message : Message) : Except PyException (Command φ) :=
  match parse lib message with
  | .ok cmd => .ok cmd
  | .error e =>
    if e.type = .jsonDecodeError then .error ⟨.valueError, str "Failed to decode JSON: " ++ e.text⟩
    else .error ⟨.valueError, str "Error creating Command object: " ++ e.text⟩

/-- `filtered_data` of `dump`. -/
def entries (cmd : Command φ) : List (Str × Value φ) :=
  ((actionTypeKey, .str cmd.actionType.value) :: cmd.params).filter (fun entry => !entry.2.isNone)

def dump (cmd : Command φ) : Bytes := encode (lib.dumps (.dict cmd.entries))

/-- The `repr` a dataclass has. -/
def format (cmd : Command φ) : Except BuiltinError Str := do
  let fields ← cmd.params.mapM fun entry => do
    return str ", " ++ entry.1 ++ str "=" ++ .ofText (← lib.repr entry.2)
  return str "Command(action_type=<ActionType." ++ cmd.actionType.name ++ str ": '" ++
    cmd.actionType.value ++ str "'>" ++ fields.flatten ++ str ")"

end Command

/-- A result as Python builds it. -/
structure Result (φ : Type) where
  success : Value φ
  image : Option Bytes := none
  errorMessage : Value φ := .none

namespace Result

def succeeded : Result φ := { success := .bool true }

def failure (errorMessage : Str) : Result φ := { success := .bool false, errorMessage := .str errorMessage }

variable (lib : Stdlib φ)

/-- The `try` block of `load`. -/
def parse (messageBytes : Bytes) : Except PyException (Result φ) := do
  let data ← raising ((Message.bytes messageBytes).loads lib)
  let success ← raising (data.get (str "success") (.bool false))
  let errorMessage ← raising (data.get (str "error_message") .none)
  let imageB64 ← raising (data.get (str "image") .none)
  if lib.truthy imageB64 then
    match lib.b64decode imageB64 with
    | .ok image => return { success, image := some image, errorMessage }
    | .error e =>
      if e.type = .typeError ∨ e.type.isValueError then
        throw ⟨.valueError, str "Failed to decode base64 image data: " ++ .ofText e.text⟩
      else throw e.toPyException
  else return { success, image := none, errorMessage }

def load (messageBytes : Bytes) : Except PyException (Result φ) :=
  match parse lib messageBytes with
  | .ok result => .ok result
  | .error e =>
    if e.type = .jsonDecodeError then
      .error ⟨.valueError, str "Failed to decode JSON for Result: " ++ e.text⟩
    else .error ⟨.valueError, str "Error creating Result object: " ++ e.text⟩

/-- What `data["image"]` is set to: an empty image counts as none. -/
def imageB64 (result : Result φ) : Value φ :=
  match result.image with
  | none => .none
  | some image => if image.isEmpty then .none else .str (.ofText (b64encode image))

/-- `filtered_data` of `dump`. -/
def entries (result : Result φ) : List (Str × Value φ) :=
  [(str "success", result.success), (str "error_message", result.errorMessage),
    (str "image", result.imageB64)].filter (fun entry => !entry.2.isNone)

def dump (result : Result φ) : Bytes := encode (lib.dumps (.dict result.entries))

/-- `__str__`. -/
def format (result : Result φ) : Except BuiltinError Str := do
  let status := if lib.truthy result.success then str "Success" else str "Error"
  let imgStatus := if (result.image.getD []).isEmpty then str "[No Image]" else str "[Image Present]"
  let errMsg ← if lib.truthy result.errorMessage then
      (str ", Error: " ++ ·) <$> lib.format result.errorMessage
    else .ok []
  return str "Result(status=" ++ status ++ str ", image_status=" ++ imgStatus ++ errMsg ++ str ")"

end Result
end WayPoint.Wright
