import Mathlib.Data.List.Basic
import Mathlib.Data.Fin.Basic

/-! What the Python code computes with: strings of code points, exceptions, values that come out of
JSON, and the functions of the standard library. -/
namespace WayPoint.Wright

/-- Text that can be encoded: characters only. -/
abbrev Text := List Char

abbrev Bytes := List UInt8

/-- A `str`: code points, among them lone surrogates, which no encoded text contains. -/
abbrev Str := List (Fin 0x110000)

def isSurrogate (c : Fin 0x110000) : Bool := 0xD800 ≤ c.val && c.val ≤ 0xDFFF

def Str.hasSurrogate (s : Str) : Bool := s.any isSurrogate

theorem toNat_lt (c : Char) : c.toNat < 0x110000 := by
  rcases c.valid with h | ⟨_, h⟩
  · exact Nat.lt_trans h (by decide)
  · exact h

def Str.ofText (text : Text) : Str := text.map (fun c => ⟨c.toNat, toNat_lt c⟩)

/-- A literal. -/
def str (s : String) : Str := .ofText s.toList

theorem isSurrogate_char (c : Char) : isSurrogate ⟨c.toNat, toNat_lt c⟩ = false := by
  have hvalid := c.valid
  change (decide (0xD800 ≤ c.toNat) && decide (c.toNat ≤ 0xDFFF)) = false
  rw [Bool.and_eq_false_iff, decide_eq_false_iff_not, decide_eq_false_iff_not]
  have hnat : c.toNat < 0xD800 ∨ 0xDFFF < c.toNat ∧ c.toNat < 0x110000 := hvalid
  omega

@[simp] theorem hasSurrogate_ofText (text : Text) : (Str.ofText text).hasSurrogate = false := by
  rw [Str.hasSurrogate, List.any_eq_false]
  intro c hc
  obtain ⟨d, _, rfl⟩ := List.mem_map.mp hc
  rw [isSurrogate_char]
  exact Bool.false_ne_true

@[simp] theorem hasSurrogate_str (s : String) : (str s).hasSurrogate = false := hasSurrogate_ofText _

@[simp] theorem hasSurrogate_append (a b : Str) :
    Str.hasSurrogate (a ++ b) = (a.hasSurrogate || b.hasSurrogate) := List.any_append

def encode (text : Text) : Bytes := text.flatMap String.utf8EncodeChar

/-- Strict UTF-8. -/
def decode (bytes : Bytes) : Option Text := bytes.toByteArray.utf8Decode?.map Array.toList

@[simp] theorem decode_encode (text : Text) : decode (encode text) = some text := by
  have hdecode : (encode text).toByteArray.utf8Decode? = some text.toArray := List.utf8Decode?_utf8Encode
  rw [decode, hdecode]
  rfl

/-- The exception classes that are told apart. -/
inductive ExceptionType where
  | valueError
  | jsonDecodeError
  | unicodeDecodeError
  | unicodeEncodeError
  | typeError
  | attributeError
  | playwrightError
  | other
  deriving DecidableEq, Repr

/-- The subclasses of `ValueError`. -/
def ExceptionType.isValueError : ExceptionType → Bool
  | .valueError | .jsonDecodeError | .unicodeDecodeError | .unicodeEncodeError => true
  | .typeError | .attributeError | .playwrightError | .other => false

/-- An exception, with what `str` gives of it. -/
structure PyException where
  type : ExceptionType
  text : Str
  deriving DecidableEq, Repr

/-- An exception of the interpreter or the standard library: these quote values by their `repr`, so
there are no surrogates in their texts. -/
structure BuiltinError where
  type : ExceptionType
  text : Text
  deriving DecidableEq, Repr

def BuiltinError.toPyException (e : BuiltinError) : PyException := ⟨e.type, .ofText e.text⟩

@[simp] theorem BuiltinError.hasSurrogate_text (e : BuiltinError) :
    e.toPyException.text.hasSurrogate = false := hasSurrogate_ofText _

/-- Goes on with the result of a library function, or raises its exception. -/
def raising {α : Type} : Except BuiltinError α → Except PyException α
  | .ok a => .ok a
  | .error e => .error e.toPyException

theorem raising_error {α : Type} {r : Except BuiltinError α} {e : PyException} (h : raising r = .error e) :
    e.text.hasSurrogate = false := by
  cases r with
  | ok a => cases h
  | error b =>
    cases h
    exact b.hasSurrogate_text

theorem raising_ok {α : Type} {r : Except BuiltinError α} {a : α} (h : raising r = .ok a) : r = .ok a := by
  cases r with
  | ok _ =>
    cases h
    rfl
  | error b => cases h

/-- The objects `json.loads` builds, over a type of floats. -/
inductive Value (φ : Type) where
  | none
  | bool (b : Bool)
  | int (n : Int)
  | float (f : φ)
  | str (s : Str)
  | list (items : List (Value φ))
  | dict (entries : List (Str × Value φ))

variable {φ : Type}

namespace Value

def isNone : Value φ → Bool
  | none => true
  | _ => false

def typeName : Value φ → Text
  | none => "NoneType".toList
  | bool _ => "bool".toList
  | int _ => "int".toList
  | float _ => "float".toList
  | str _ => "str".toList
  | list _ => "list".toList
  | dict _ => "dict".toList

def noAttribute (value : Value φ) (name : String) : BuiltinError :=
  ⟨.attributeError, "'".toList ++ value.typeName ++ ("' object has no attribute '" ++ name ++ "'").toList⟩

/-- `data.pop(key, None)`: a list has a method of this name that takes one argument. -/
def pop (data : Value φ) (key : Str) : Except BuiltinError (Value φ × List (Str × Value φ)) :=
  match data with
  | dict entries => .ok ((entries.lookup key).getD none, entries.filter (fun entry => entry.1 != key))
  | list _ => .error ⟨.typeError, "pop expected at most 1 argument, got 2".toList⟩
  | value => .error (value.noAttribute "pop")

/-- `data.get(key, default)`. -/
def get (data : Value φ) (key : Str) (default : Value φ) : Except BuiltinError (Value φ) :=
  match data with
  | dict entries => .ok ((entries.lookup key).getD default)
  | value => .error (value.noAttribute "get")

end Value

/-- The functions of the standard library that the code calls. -/
structure Stdlib (φ : Type) where
  /-- `json.dumps`, whose output is ASCII. -/
  dumps : Value φ → Text
  /-- `json.loads` of a decoded text. -/
  loads : Text → Except BuiltinError (Value φ)
  /-- The text of a `UnicodeDecodeError`. -/
  undecodable : Bytes → Text
  /-- The text of a `UnicodeEncodeError`, which names the surrogate by its escape. -/
  unencodable : Str → Text
  b64decode : Value φ → Except BuiltinError Bytes
  /-- `repr`, which escapes surrogates and can run out of stack. -/
  repr : Value φ → Except BuiltinError Text
  toFloat : Value φ → Except BuiltinError φ
  toInt : Value φ → Except BuiltinError Int
  len : Value φ → Except BuiltinError Nat
  isZero : φ → Bool
  isNaN : φ → Bool

namespace Stdlib
variable (lib : Stdlib φ)

/-- What an `if` takes a value for. -/
def truthy : Value φ → Bool
  | .none => false
  | .bool b => b
  | .int n => n != 0
  | .float f => !lib.isZero f
  | .str s => !s.isEmpty
  | .list items => !items.isEmpty
  | .dict entries => !entries.isEmpty

/-- A value in an f-string: a string as it is, everything else by its `repr`. -/
def format : Value φ → Except BuiltinError Str
  | .str s => .ok s
  | value => (lib.repr value).map Str.ofText

/-- Only strings are quoted as they are. -/
theorem format_ok {v : Value φ} {s : Str} (h : lib.format v = .ok s) :
    v = .str s ∨ s.hasSurrogate = false := by
  have hrepr (h : (lib.repr v).map Str.ofText = .ok s) : s.hasSurrogate = false := by
    cases hv : lib.repr v with
    | error b =>
      rw [hv] at h
      cases h
    | ok text =>
      rw [hv] at h
      cases h
      exact hasSurrogate_ofText _
  cases v with
  | str t =>
    cases h
    exact Or.inl rfl
  | _ => exact Or.inr (hrepr h)

/-- `message_bytes.decode("utf-8")`. -/
def decodeBytes (bytes : Bytes) : Except BuiltinError Text :=
  match decode bytes with
  | some text => .ok text
  | none => .error ⟨.unicodeDecodeError, lib.undecodable bytes⟩

@[simp] theorem decodeBytes_encode (text : Text) : lib.decodeBytes (encode text) = .ok text := by
  rw [decodeBytes, decode_encode]

/-- `print` to a stdout in UTF-8. -/
def print (s : Str) : Except PyException Unit :=
  if s.hasSurrogate then .error ⟨.unicodeEncodeError, .ofText (lib.unencodable s)⟩ else .ok ()

theorem print_ok {s : Str} (h : lib.print s = .ok ()) : s.hasSurrogate = false := by
  unfold print at h
  split at h
  · cases h
  · next hs => exact Bool.eq_false_iff.mpr hs

theorem print_error {s : Str} {e : PyException} (h : lib.print s = .error e) :
    s.hasSurrogate ∧ e.text.hasSurrogate = false := by
  unfold print at h
  split at h
  · next hs =>
    cases h
    exact ⟨hs, hasSurrogate_ofText _⟩
  · cases h

end Stdlib

/-- `base64.b64encode`, decoded: six bits a character, with padding. -/
def base64Digit (n : Nat) : Char :=
  if n < 26 then Char.ofNat (65 + n)
  else if n < 52 then Char.ofNat (97 + (n - 26))
  else if n < 62 then Char.ofNat (48 + (n - 52))
  else if n = 62 then '+' else '/'

def b64encode : Bytes → Text
  | [] => []
  | [a] => [base64Digit (a.toNat / 4), base64Digit (a.toNat % 4 * 16), '=', '=']
  | [a, b] =>
    [base64Digit (a.toNat / 4), base64Digit (a.toNat % 4 * 16 + b.toNat / 16),
      base64Digit (b.toNat % 16 * 4), '=']
  | a :: b :: c :: rest =>
    base64Digit (a.toNat / 4) :: base64Digit (a.toNat % 4 * 16 + b.toNat / 16) ::
      base64Digit (b.toNat % 16 * 4 + c.toNat / 64) :: base64Digit (c.toNat % 64) :: b64encode rest

theorem b64encode_ne_nil {bytes : Bytes} (h : bytes ≠ []) : b64encode bytes ≠ [] := by
  fun_cases b64encode bytes with
  | case1 => exact absurd rfl h
  | case2 => simp
  | case3 => simp
  | case4 => simp

example : b64encode [77, 97, 110, 77, 97] = "TWFuTWE=".toList := by decide

end WayPoint.Wright
