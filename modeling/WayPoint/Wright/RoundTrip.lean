import WayPoint.Wright.Models

/-! Commands and results through JSON and back. What is left out when they are written must be what
is filled in when they are read. -/
namespace WayPoint.Wright

variable {φ : Type} {lib : Stdlib φ}

section lookup
variable {κ ν : Type} [BEq κ] [LawfulBEq κ]

private theorem lookup_filter_key (entries : List (κ × ν)) (p : κ → Bool) {key : κ} (h : p key) :
    (entries.filter (fun entry => p entry.1)).lookup key = entries.lookup key := by
  induction entries with
  | nil => rfl
  | cons entry entries ih =>
    obtain ⟨k, v⟩ := entry
    by_cases hk : k = key
    · subst hk
      simp [List.filter_cons_of_pos, h]
    · have hbeq : (key == k) = false := by simpa using Ne.symm hk
      rw [List.lookup_cons, hbeq]
      by_cases hp : p k
      · simp [List.filter_cons_of_pos, hp, List.lookup_cons, hbeq, ih]
      · simp [List.filter_cons_of_neg, hp, ih]

private theorem lookup_eq_none_of_notMem {entries : List (κ × ν)} {key : κ} (h : key ∉ entries.map Prod.fst) :
    entries.lookup key = none := by
  rw [List.lookup_eq_none_iff]
  intro entry hentry
  rw [bne_iff_ne]
  exact fun heq => h (heq ▸ List.mem_map_of_mem hentry)

/-- Leaving out entries for their values leaves them out for their keys. -/
private theorem lookup_filter_value {entries : List (κ × ν)} (hkeys : (entries.map Prod.fst).Nodup)
    (p : ν → Bool) (key : κ) :
    (entries.filter (fun entry => p entry.2)).lookup key = (entries.lookup key).filter p := by
  induction entries with
  | nil => rfl
  | cons entry entries ih =>
    obtain ⟨k, v⟩ := entry
    rw [List.map_cons, List.nodup_cons] at hkeys
    by_cases hk : key = k
    · subst hk
      by_cases hp : p v
      · simp [List.filter_cons_of_pos, hp, Option.filter]
      · simp [List.filter_cons_of_neg, hp, Option.filter, ih hkeys.2, lookup_eq_none_of_notMem hkeys.1]
    · have hbeq : (key == k) = false := by simpa using hk
      rw [List.lookup_cons, hbeq]
      by_cases hp : p v
      · simp [List.filter_cons_of_pos, hp, List.lookup_cons, hbeq, ih hkeys.2]
      · simp [List.filter_cons_of_neg, hp, ih hkeys.2]

end lookup

/-- What is left out when it is `None`, and read with `None` for its default. -/
private theorem getD_filter_isNone (v : Value φ) : ((some v).filter (fun v => !v.isNone)).getD .none = v := by
  cases v <;> rfl

/-- `json.loads` undoes `json.dumps` on an object with values of a kind. -/
def Stdlib.Undoes (lib : Stdlib φ) (P : Value φ → Prop) (entries : List (Str × Value φ)) : Prop :=
  (entries.map Prod.fst).Nodup → (∀ entry ∈ entries, P entry.2) →
    lib.loads (lib.dumps (.dict entries)) = .ok (.dict entries)

namespace Command

/-- A number that is equal to itself, or a string. -/
def NumberOrString (lib : Stdlib φ) : Value φ → Prop
  | .int _ | .str _ => True
  | .float f => lib.isNaN f = false
  | .none | .bool _ | .list _ | .dict _ => False

/-- `Optional[float]`, and so an `int` too. -/
def OptionalFloat (lib : Stdlib φ) : Value φ → Prop
  | .none | .int _ => True
  | .float f => lib.isNaN f = false
  | _ => False

def OptionalInt : Value φ → Prop
  | .none | .int _ => True
  | _ => False

def OptionalStr : Value φ → Prop
  | .none | .str _ => True
  | _ => False

/-- The fields have the types they are declared with. -/
structure WellTyped (lib : Stdlib φ) (cmd : Command φ) : Prop where
  x : OptionalFloat lib cmd.x
  y : OptionalFloat lib cmd.y
  text : OptionalStr cmd.text
  deltaX : OptionalInt cmd.deltaX
  deltaY : OptionalInt cmd.deltaY
  url : OptionalStr cmd.url
  width : OptionalInt cmd.width
  height : OptionalInt cmd.height
  timeout : ∃ n, cmd.timeout = .int n

/-- The object before its `None`s are left out. -/
def data (cmd : Command φ) : List (Str × Value φ) := (actionTypeKey, .str cmd.actionType.value) :: cmd.params

private theorem data_keys (cmd : Command φ) : cmd.data.map Prod.fst = validKeys := rfl

private theorem validKeys_nodup : validKeys.Nodup := by decide +kernel

theorem entries_keys_nodup (cmd : Command φ) : (cmd.entries.map Prod.fst).Nodup :=
  (cmd.data_keys ▸ validKeys_nodup).sublist (List.filter_sublist.map Prod.fst)

theorem lookup_entries (cmd : Command φ) (key : Str) :
    cmd.entries.lookup key = (cmd.data.lookup key).filter (fun v => !v.isNone) := by
  have hkeys : (cmd.data.map Prod.fst).Nodup := cmd.data_keys ▸ validKeys_nodup
  exact lookup_filter_value hkeys (fun v : Value φ => !v.isNone) key

theorem OptionalFloat.numberOrString {v : Value φ} (h : OptionalFloat lib v) (hv : v.isNone = false) :
    NumberOrString lib v := by
  cases v with
  | none => cases hv
  | int n => trivial
  | float f => exact h
  | _ => cases h

theorem OptionalInt.numberOrString {v : Value φ} (h : OptionalInt v) (hv : v.isNone = false) :
    NumberOrString lib v := by
  cases v with
  | none => cases hv
  | int n => trivial
  | _ => cases h

theorem OptionalStr.numberOrString {v : Value φ} (h : OptionalStr v) (hv : v.isNone = false) :
    NumberOrString lib v := by
  cases v with
  | none => cases hv
  | str s => trivial
  | _ => cases h

/-- What a well-typed command is written as holds numbers and strings only. -/
theorem WellTyped.entries {cmd : Command φ} (h : cmd.WellTyped lib) :
    ∀ entry ∈ cmd.entries, NumberOrString lib entry.2 := by
  intro entry hentry
  obtain ⟨hmem, hnone⟩ := List.mem_filter.mp hentry
  rw [Bool.not_eq_true'] at hnone
  obtain ⟨n, hn⟩ := h.timeout
  simp only [params, List.mem_cons, List.not_mem_nil, or_false] at hmem
  rcases hmem with rfl | rfl | rfl | rfl | rfl | rfl | rfl | rfl | rfl | rfl
  · trivial
  · exact h.x.numberOrString hnone
  · exact h.y.numberOrString hnone
  · exact h.text.numberOrString hnone
  · exact h.deltaX.numberOrString hnone
  · exact h.deltaY.numberOrString hnone
  · exact h.url.numberOrString hnone
  · exact h.width.numberOrString hnone
  · exact h.height.numberOrString hnone
  · rw [hn]
    trivial

/-- The fields of a command are all that is read of the object. -/
private theorem ofKwargs_congr (actionType : ActionType) {kwargs kwargs' : List (Str × Value φ)}
    (h : ∀ key ∈ validKeys, key ≠ actionTypeKey → kwargs.lookup key = kwargs'.lookup key) :
    ofKwargs actionType kwargs = ofKwargs actionType kwargs' := by
  have hparams : ∀ key ∈ validKeys.tail, kwargs.lookup key = kwargs'.lookup key := by
    intro key hkey
    have hne : key ≠ actionTypeKey := fun heq => (List.nodup_cons.mp validKeys_nodup).1 (heq ▸ hkey)
    exact h key (List.mem_of_mem_tail hkey) hne
  simp only [validKeys, List.tail_cons, List.forall_mem_cons] at hparams
  obtain ⟨hx, hy, htext, hdeltaX, hdeltaY, hurl, hwidth, hheight, htimeout, _⟩ := hparams
  rw [ofKwargs, ofKwargs, hx, hy, htext, hdeltaX, hdeltaY, hurl, hwidth, hheight, htimeout]

private theorem lookup_filteredData (data : List (Str × Value φ)) {key : Str} (hkey : key ∈ validKeys)
    (hne : key ≠ actionTypeKey) :
    (filteredData (data.filter (fun entry => entry.1 != actionTypeKey))).lookup key = data.lookup key := by
  have hne : (key != actionTypeKey) = true := bne_iff_ne.mpr hne
  have hvalid : (validKeys.contains key && key != actionTypeKey) = true := by
    rw [hne, Bool.and_true, List.contains_iff_mem]
    exact hkey
  rw [filteredData, lookup_filter_key _ (fun k => validKeys.contains k && k != actionTypeKey) hvalid,
    lookup_filter_key _ (fun k => k != actionTypeKey) hne]

/-- Other keys of the object make no difference, not even to which error there is. -/
private theorem fromData_congr {data data' : List (Str × Value φ)}
    (h : ∀ key ∈ validKeys, data.lookup key = data'.lookup key) :
    fromData lib (.dict data) = fromData lib (.dict data') := by
  have hkwargs (actionType : ActionType) :
      ofKwargs actionType (filteredData (data.filter (fun entry => entry.1 != actionTypeKey))) =
        ofKwargs actionType (filteredData (data'.filter (fun entry => entry.1 != actionTypeKey))) := by
    refine ofKwargs_congr actionType fun key hkey hne => ?_
    rw [lookup_filteredData data hkey hne, lookup_filteredData data' hkey hne, h key hkey]
  simp only [fromData, Value.pop, raising, bind, Except.bind, h actionTypeKey List.mem_cons_self, hkwargs]

private theorem ofKwargs_entries (cmd : Command φ) (htimeout : cmd.timeout.isNone = false) :
    ofKwargs cmd.actionType cmd.entries = cmd := by
  have hlookup {key : Str} {v : Value φ} (h : cmd.data.lookup key = some v) :
      (cmd.entries.lookup key).getD .none = v := by
    rw [lookup_entries, h, getD_filter_isNone]
  have hkept : (cmd.entries.lookup (str "timeout")).getD (.int 30000) = cmd.timeout := by
    rw [lookup_entries, show cmd.data.lookup (str "timeout") = some cmd.timeout from rfl]
    simp [Option.filter, htimeout]
  have hx := hlookup (rfl : cmd.data.lookup (str "x") = some cmd.x)
  have hy := hlookup (rfl : cmd.data.lookup (str "y") = some cmd.y)
  have htext := hlookup (rfl : cmd.data.lookup (str "text") = some cmd.text)
  have hdeltaX := hlookup (rfl : cmd.data.lookup (str "delta_x") = some cmd.deltaX)
  have hdeltaY := hlookup (rfl : cmd.data.lookup (str "delta_y") = some cmd.deltaY)
  have hurl := hlookup (rfl : cmd.data.lookup (str "url") = some cmd.url)
  have hwidth := hlookup (rfl : cmd.data.lookup (str "width") = some cmd.width)
  have hheight := hlookup (rfl : cmd.data.lookup (str "height") = some cmd.height)
  rw [ofKwargs, hx, hy, htext, hdeltaX, hdeltaY, hurl, hwidth, hheight, hkept]

/-- An object that names an action type is a command with that type. -/
theorem fromData_of_lookup {data : List (Str × Value φ)} {actionType : ActionType}
    (h : data.lookup actionTypeKey = some (.str actionType.value)) :
    fromData lib (.dict data) = .ok (ofKwargs actionType
      (filteredData (data.filter (fun entry => entry.1 != actionTypeKey)))) := by
  have htruthy : lib.truthy (.str actionType.value) = true := by
    rw [Stdlib.truthy]
    cases actionType <;> decide +kernel
  simp only [fromData, Value.pop, raising, bind, Except.bind, h, Option.getD_some, htruthy,
    Bool.not_true, Bool.false_eq_true, if_false, ActionType.ofValue_value]
  rfl

theorem fromData_entries (cmd : Command φ) (htimeout : cmd.timeout.isNone = false) :
    fromData lib (.dict cmd.entries) = .ok cmd := by
  have htype : cmd.entries.lookup actionTypeKey = some (.str cmd.actionType.value) := by
    rw [lookup_entries]
    rfl
  have hkwargs : ofKwargs cmd.actionType
      (filteredData (cmd.entries.filter (fun entry => entry.1 != actionTypeKey))) = cmd :=
    (ofKwargs_congr cmd.actionType fun _ hkey hne => lookup_filteredData cmd.entries hkey hne).trans
      (cmd.ofKwargs_entries htimeout)
  rw [fromData_of_lookup htype, hkwargs]

end Command

theorem Message.loads_dumps {entries : List (Str × Value φ)}
    (h : lib.loads (lib.dumps (.dict entries)) = .ok (.dict entries)) :
    (Message.bytes (encode (lib.dumps (.dict entries)))).loads lib = .ok (.dict entries) := by
  rw [Message.loads, Stdlib.decodeBytes_encode]
  exact h

/-- A library that has one object to write and read, and one image. -/
def Stdlib.sample (text : String) (entries : List (Str × Value Unit)) (image : Bytes) : Stdlib Unit where
  dumps _ := text.toList
  loads t := if t = text.toList then .ok (.dict entries)
    else .error ⟨.jsonDecodeError, "Expecting value: line 1 column 1 (char 0)".toList⟩
  undecodable _ := "'utf-8' codec can't decode byte 0xff in position 0: invalid start byte".toList
  unencodable _ := "'utf-8' codec can't encode character in position 0: surrogates not allowed".toList
  b64decode
    | .str s => if s = .ofText (b64encode image) then .ok image
      else .error ⟨.valueError, "Incorrect padding".toList⟩
    | _ => .error ⟨.typeError, "argument should be a bytes-like object or ASCII string".toList⟩
  repr _ := .ok text.toList
  toFloat _ := .ok ()
  toInt _ := .ok 0
  len _ := .ok 0
  isZero _ := false
  isNaN _ := false

theorem Stdlib.sample_undoes (text : String) (entries : List (Str × Value Unit)) (image : Bytes)
    (P : Value Unit → Prop) : (Stdlib.sample text entries image).Undoes P entries := by
  intro _ _
  exact if_pos rfl

theorem Stdlib.sample_b64decode (text : String) (entries : List (Str × Value Unit)) (image : Bytes) :
    (Stdlib.sample text entries image).b64decode (.str (.ofText (b64encode image))) = .ok image :=
  if_pos rfl

theorem Command.load_dump {cmd : Command φ} (htyped : cmd.WellTyped lib)
    (hjson : lib.Undoes (NumberOrString lib) cmd.entries) : load lib (.bytes (cmd.dump lib)) = .ok cmd := by
  have hloads := Message.loads_dumps (hjson cmd.entries_keys_nodup htyped.entries)
  obtain ⟨n, hn⟩ := htyped.timeout
  have htimeout : cmd.timeout.isNone = false := by
    rw [hn]
    rfl
  have hparse : parse lib (.bytes (cmd.dump lib)) = .ok cmd := by
    rw [parse, dump, hloads]
    exact cmd.fromData_entries htimeout
  rw [load, hparse]

/-- A command is read as it was written, and what else the object holds is not read. -/
theorem Command.survives_wire (lib : Stdlib φ) :
    (∀ cmd : Command φ, cmd.WellTyped lib → lib.Undoes (NumberOrString lib) cmd.entries →
      Command.load lib (.bytes (cmd.dump lib)) = .ok cmd) ∧
    ∀ m m' data data', m.loads lib = .ok (.dict data) → m'.loads lib = .ok (.dict data') →
      (∀ key ∈ validKeys, data.lookup key = data'.lookup key) →
        Command.load lib m = Command.load lib m' := by
  constructor
  · exact fun _ => Command.load_dump
  · intro m m' data data' hm hm' hkeys
    have hparse : Command.parse lib m = Command.parse lib m' := by
      rw [Command.parse, Command.parse, hm, hm']
      exact fromData_congr hkeys
    rw [Command.load, Command.load, hparse]

def falsyCommand : Command Unit :=
  { actionType := .click, x := .float (), y := .int (-1), text := .str [], timeout := .int 0 }

def falsyText : String := "\x7b\"action_type\": \"click\", \"x\": 0.5, \"y\": -1, \"text\": \"\", \"timeout\": 0\x7d"

/-- The same object with a key that is no field. -/
def notedText : String :=
  "\x7b\"action_type\": \"click\", \"x\": 0.5, \"y\": -1, \"text\": \"\", \"timeout\": 0, \"note\": true\x7d"

def notedEntries : List (Str × Value Unit) := falsyCommand.entries ++ [(str "note", .bool true)]

def falsyLib : Stdlib Unit :=
  { Stdlib.sample falsyText falsyCommand.entries [] with
    loads := fun t => if t = notedText.toList then .ok (.dict notedEntries)
      else (Stdlib.sample falsyText falsyCommand.entries []).loads t }

theorem Command.survives_wire_falsy :
    Command.load falsyLib (.bytes (falsyCommand.dump falsyLib)) = .ok falsyCommand ∧
      Command.load falsyLib (.bytes (encode notedText.toList)) = .ok falsyCommand := by
  have hother : falsyText.toList ≠ notedText.toList := by decide +kernel
  have hloads : falsyLib.loads falsyText.toList = .ok (.dict falsyCommand.entries) := by
    simp only [falsyLib, Stdlib.sample, hother, if_false, if_true]
  have hnoted : falsyLib.loads notedText.toList = .ok (.dict notedEntries) := by
    simp only [falsyLib, if_true]
  have hfirst : Command.load falsyLib (.bytes (falsyCommand.dump falsyLib)) = .ok falsyCommand :=
    (Command.survives_wire falsyLib).1 falsyCommand
      ⟨rfl, trivial, trivial, trivial, trivial, trivial, trivial, trivial, 0, rfl⟩ fun _ _ => hloads
  refine ⟨hfirst, ?_⟩
  rw [← hfirst]
  refine (Command.survives_wire falsyLib).2 _ _ notedEntries falsyCommand.entries ?_ (Message.loads_dumps hloads) ?_
  · rw [Message.loads, Stdlib.decodeBytes_encode]
    exact hnoted
  · intro key hkey
    have hne : (key == str "note") = false := by
      rw [beq_eq_false_iff_ne]
      rintro rfl
      exact absurd hkey (by decide +kernel)
    rw [notedEntries, List.lookup_append, List.lookup_cons, hne, List.lookup_nil, Option.or_none]

namespace Result

def BoolOrString : Value φ → Prop
  | .bool _ | .str _ => True
  | .none | .int _ | .float _ | .list _ | .dict _ => False

/-- The fields have the types they are declared with. -/
structure WellTyped (result : Result φ) : Prop where
  success : ∃ b, result.success = .bool b
  errorMessage : result.errorMessage = .none ∨ ∃ s, result.errorMessage = .str s

/-- The object before its `None`s are left out. -/
def data (result : Result φ) : List (Str × Value φ) :=
  [(str "success", result.success), (str "error_message", result.errorMessage),
    (str "image", result.imageB64)]

private theorem data_keys_nodup (result : Result φ) : (result.data.map Prod.fst).Nodup := by
  have hkeys : result.data.map Prod.fst = [str "success", str "error_message", str "image"] := rfl
  rw [hkeys]
  decide +kernel

theorem entries_keys_nodup (result : Result φ) : (result.entries.map Prod.fst).Nodup :=
  result.data_keys_nodup.sublist (List.filter_sublist.map Prod.fst)

private theorem imageB64_cases (result : Result φ) :
    result.imageB64 = .none ∧ (result.image = none ∨ result.image = some []) ∨
      ∃ image, image ≠ [] ∧ result.image = some image ∧
        result.imageB64 = .str (.ofText (b64encode image)) := by
  rw [imageB64]
  rcases result.image with _ | _ | ⟨byte, image⟩
  · exact Or.inl ⟨rfl, Or.inl rfl⟩
  · exact Or.inl ⟨rfl, Or.inr rfl⟩
  · exact Or.inr ⟨byte :: image, by simp, rfl, rfl⟩

theorem WellTyped.entries {result : Result φ} (h : result.WellTyped) :
    ∀ entry ∈ result.entries, BoolOrString entry.2 := by
  intro entry hentry
  obtain ⟨hmem, hnone⟩ := List.mem_filter.mp hentry
  rw [Bool.not_eq_true'] at hnone
  simp only [List.mem_cons, List.not_mem_nil, or_false] at hmem
  rcases hmem with rfl | rfl | rfl
  · obtain ⟨b, hb⟩ := h.success
    rw [hb]
    trivial
  · rcases h.errorMessage with he | ⟨s, hs⟩
    · rw [he] at hnone
      cases hnone
    · rw [hs]
      trivial
  · rcases result.imageB64_cases with ⟨he, _⟩ | ⟨image, _, _, he⟩
    · rw [he] at hnone
      cases hnone
    · rw [he]
      trivial

theorem get_entries {result : Result φ} {key : Str} {v : Value φ} (default : Value φ)
    (h : result.data.lookup key = some v) (hv : v.isNone = false ∨ default = .none) :
    (Value.dict result.entries).get key default = .ok v := by
  have hlookup : result.entries.lookup key = (result.data.lookup key).filter (fun v => !v.isNone) :=
    lookup_filter_value result.data_keys_nodup (fun v : Value φ => !v.isNone) key
  rw [Value.get, hlookup, h]
  rcases hv with hv | rfl
  · simp [Option.filter, hv]
  · rw [getD_filter_isNone]

/-- What is read back: the same result, but for an image that was empty. -/
theorem load_dump {result : Result φ} (htyped : result.WellTyped)
    (hjson : lib.Undoes BoolOrString result.entries)
    (hb64 : ∀ image, result.image = some image →
      lib.b64decode (.str (.ofText (b64encode image))) = .ok image) :
    load lib (result.dump lib) =
      .ok { result with image := if result.image = some [] then none else result.image } := by
  obtain ⟨b, hb⟩ := htyped.success
  have hloads := Message.loads_dumps (hjson result.entries_keys_nodup htyped.entries)
  have hsuccess : (Value.dict result.entries).get (str "success") (.bool false) = .ok result.success :=
    get_entries _ rfl (Or.inl (by rw [hb]; rfl))
  have herror : (Value.dict result.entries).get (str "error_message") .none = .ok result.errorMessage :=
    get_entries _ rfl (Or.inr rfl)
  have himage : (Value.dict result.entries).get (str "image") .none = .ok result.imageB64 :=
    get_entries _ rfl (Or.inr rfl)
  have hparse : parse lib (result.dump lib) =
      .ok { result with image := if result.image = some [] then none else result.image } := by
    simp only [parse, dump, hloads, raising, bind, Except.bind, hsuccess, herror, himage]
    rcases result.imageB64_cases with ⟨he, hnone | hempty⟩ | ⟨image, hne, hsome, he⟩
    · rw [he, hnone]
      rfl
    · rw [he, hempty]
      rfl
    · have htruthy : lib.truthy (.str (.ofText (b64encode image))) = true := by
        simp [Stdlib.truthy, Str.ofText, b64encode_ne_nil hne]
      rw [he, hsome]
      simp only [htruthy, if_true, hb64 image hsome, Option.some.injEq, hne, if_false]
      rfl
  rw [load, hparse]

/-- A result is read as it was written, unless it has an empty image. -/
theorem load_dump_iff {result : Result φ} (htyped : result.WellTyped)
    (hjson : lib.Undoes BoolOrString result.entries)
    (hb64 : ∀ image, result.image = some image →
      lib.b64decode (.str (.ofText (b64encode image))) = .ok image) :
    load lib (result.dump lib) = .ok result ↔ result.image ≠ some [] := by
  rw [load_dump htyped hjson hb64]
  obtain ⟨success, image, errorMessage⟩ := result
  simp only [Except.ok.injEq, Result.mk.injEq, true_and, and_true]
  by_cases hempty : image = some []
  · simp [hempty]
  · simp [hempty]

/-- A failed result with an empty message. -/
def failed : Result Unit := { success := .bool false, image := some [1, 2, 3], errorMessage := .str [] }

def failedLib : Stdlib Unit :=
  .sample "\x7b\"success\": false, \"error_message\": \"\", \"image\": \"AQID\"\x7d" failed.entries [1, 2, 3]

theorem load_dump_iff_failed : load failedLib (failed.dump failedLib) = .ok failed := by
  refine (load_dump_iff ⟨⟨false, rfl⟩, Or.inr ⟨[], rfl⟩⟩ (Stdlib.sample_undoes _ _ _ _) ?_).mpr (by simp [failed])
  intro image himage
  obtain rfl : [1, 2, 3] = image := Option.some.inj himage
  exact Stdlib.sample_b64decode _ _ _

/-- A screenshot without a byte. -/
def emptyScreenshot : Result Unit := { success := .bool true, image := some [] }

def emptyLib : Stdlib Unit := .sample "\x7b\"success\": true\x7d" emptyScreenshot.entries []

theorem emptyScreenshot_lost :
    emptyScreenshot.WellTyped ∧ emptyLib.Undoes BoolOrString emptyScreenshot.entries ∧
      emptyLib.b64decode (.str (.ofText (b64encode []))) = .ok [] ∧
      load emptyLib (emptyScreenshot.dump emptyLib) = .ok { emptyScreenshot with image := none } ∧
      load emptyLib (emptyScreenshot.dump emptyLib) ≠ .ok emptyScreenshot := by
  have htyped : emptyScreenshot.WellTyped := ⟨⟨true, rfl⟩, Or.inl rfl⟩
  have hjson : emptyLib.Undoes BoolOrString emptyScreenshot.entries := Stdlib.sample_undoes _ _ _ _
  have hb64 := Stdlib.sample_b64decode "\x7b\"success\": true\x7d" emptyScreenshot.entries []
  have hload : load emptyLib (emptyScreenshot.dump emptyLib) = .ok { emptyScreenshot with image := none } := by
    refine load_dump htyped hjson fun image himage => ?_
    obtain rfl : [] = image := Option.some.inj himage
    exact hb64
  refine ⟨htyped, hjson, hb64, hload, ?_⟩
  rw [hload]
  simp [emptyScreenshot]

end Result

end WayPoint.Wright
