import Mathlib.Data.List.Basic

/-! The head of a proxied HTTP request (http_proxy.rs): reading it byte by byte, parsing it, and
the pieces it is written out in. Text is the list of its characters. -/
namespace WayPoint.Gateway

inductive Error where
  | parseError (message : String)
  | ioError (message : String)
  deriving DecidableEq, Repr

abbrev Text := List Char

def crlf : Text := ['\r', '\n']

/-- `read_until_empty_line` on the bytes the client sends before it closes: what was read up to
and with the empty line, and the bytes left. Each byte becomes the character of its value. -/
def readUntilEmptyLine (data : Text) : List UInt8 → Except Error (Text × List UInt8)
  | [] => .error (.ioError "Failed to read")
  | byte :: rest =>
    if (crlf ++ crlf).isSuffixOf (data ++ [Char.ofNat byte.toNat]) then
      .ok (data ++ [Char.ofNat byte.toNat], rest)
    else
      readUntilEmptyLine (data ++ [Char.ofNat byte.toNat]) rest

/-- `split("\r\n")`. -/
def splitCrlf : Text → List Text
  | [] => [[]]
  | '\r' :: '\n' :: rest => [] :: splitCrlf rest
  | c :: rest =>
    match splitCrlf rest with
    | [] => [[c]]
    | line :: lines => (c :: line) :: lines

/-- `split_once` at a one-character separator. -/
def splitOnce (separator : Char) : Text → Option (Text × Text)
  | [] => none
  | c :: rest =>
    if c = separator then some ([], rest)
    else (splitOnce separator rest).map (fun parts => (c :: parts.1, parts.2))

/-- `splitn`: at most so many parts, the last of which is not split further. -/
def splitn (separator : Char) : Nat → Text → List Text
  | 0, _ => []
  | 1, text => [text]
  | n + 2, text =>
    match splitOnce separator text with
    | none => [text]
    | some (part, rest) => part :: splitn separator (n + 1) rest

/-- The characters with Unicode's White_Space property. -/
def isWhitespace (c : Char) : Bool :=
  (9 ≤ c.toNat && c.toNat ≤ 13) || c.toNat == 0x20 || c.toNat == 0x85 || c.toNat == 0xA0 ||
    c.toNat == 0x1680 || (0x2000 ≤ c.toNat && c.toNat ≤ 0x200A) || c.toNat == 0x2028 ||
    c.toNat == 0x2029 || c.toNat == 0x202F || c.toNat == 0x205F || c.toNat == 0x3000

def trim (text : Text) : Text :=
  ((text.dropWhile isWhitespace).reverse.dropWhile isWhitespace).reverse

structure Request where
  method : Text
  path : Text
  version : Text
  headers : List (Text × Text)
  deriving DecidableEq, Repr

def parseRequestLine (line : Text) : Except Error (Text × Text × Text) :=
  match splitn ' ' 3 line with
  | [] => .error (.parseError "Missing method")
  | [_] => .error (.parseError "Missing path")
  | [_, _] => .error (.parseError "Missing version")
  | method :: path :: version :: _ => .ok (method, path, version)

def parseHeaderLine (line : Text) : Except Error (Text × Text) :=
  match splitOnce ':' line with
  | none => .error (.parseError "Malformed header line")
  | some (key, value) => .ok (trim key, trim value)

/-- The loop over the lines after the request line: an empty one ends the head. -/
def parseHeaders : List Text → Except Error (List (Text × Text))
  | [] => .error (.parseError "Missing empty line")
  | line :: lines =>
    if line.isEmpty then .ok []
    else do
      let header ← parseHeaderLine line
      return header :: (← parseHeaders lines)

def Request.new (data : Text) : Except Error Request :=
  match splitCrlf data with
  | [] => .error (.parseError "Missing header line")
  | headerLine :: lines => do
    let (method, path, version) ← parseRequestLine headerLine
    return { method, path, version, headers := ← parseHeaders lines }

/-- The slices `write_to_stream` sends, in order. -/
def Request.pieces (request : Request) : List Text :=
  [request.method, [' '], request.path, [' '], request.version, crlf] ++
    request.headers.flatMap (fun header => [header.1, [':', ' '], header.2, crlf]) ++ [crlf]

example : Request.new "GET / HTTP/1.1\r\nHost: example.com\r\nContent-Length: 10\r\n\r\n".toList =
    .ok ⟨"GET".toList, "/".toList, "HTTP/1.1".toList,
      [("Host".toList, "example.com".toList), ("Content-Length".toList, "10".toList)]⟩ := by
  decide +kernel

end WayPoint.Gateway
