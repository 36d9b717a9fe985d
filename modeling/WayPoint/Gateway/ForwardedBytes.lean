import Mathlib.Algebra.Order.BigOperators.Group.List
import Mathlib.Algebra.Order.Ring.Int
import WayPoint.Gateway.HeadGrammar

/-! What a server receives of an accepted stream. A byte is read as the character of its value and
written in UTF-8, so exactly the ASCII heads arrive as they were sent. -/
namespace WayPoint.Gateway

/-- `as_bytes`. -/
def utf8 (text : Text) : List UInt8 := text.flatMap String.utf8EncodeChar

/-- The bytes `write_to_stream` sends. -/
def Request.wire (request : Request) : List UInt8 := request.pieces.flatMap utf8

/-- What is sent to the server when nothing fails: the request written out, and after it what the
client's stream still holds. -/
def forward (bytes : List UInt8) : Except Error (List UInt8) := do
  let (data, rest) ← readUntilEmptyLine [] bytes
  let request ← Request.new data
  return request.wire ++ rest

def asciiBlank (c : Char) : Bool := (9 ≤ c.toNat && c.toNat ≤ 13) || c.toNat == 0x20

/-- What was received, apart from ASCII blanks around it. -/
def SameButBlanks (received sent : Text) : Prop :=
  ∃ before after, received = before ++ sent ++ after ∧ (∀ c ∈ before, asciiBlank c) ∧
    ∀ c ∈ after, asciiBlank c

/-- The server gets the method, the path, the version and the headers of the head that was received,
and then the rest of the stream. -/
def Faithful (bytes : List UInt8) : Prop :=
  ∃ (head : Head) (headers : List (Text × Text)) (sent rest : List UInt8), head.WellFormed ∧
    latin1 bytes = head.text ++ crlf ++ latin1 rest ∧ forward bytes = .ok (sent ++ rest) ∧
    latin1 sent = (Request.mk head.method head.path head.version headers).pieces.flatten ∧
    List.Forall₂ (fun received sent => SameButBlanks received.1 sent.1 ∧
      SameButBlanks received.2 sent.2) head.headers headers

section total
variable {f g : Char → Int} {a b text : Text}

def total (f : Char → Int) (text : Text) : Int := (text.map f).sum

@[simp] theorem total_nil : total f [] = 0 := rfl

@[simp] theorem total_cons (c : Char) (text : Text) : total f (c :: text) = f c + total f text :=
  List.sum_cons

@[simp] theorem total_append (a b : Text) : total f (a ++ b) = total f a + total f b := by
  simp [total]

private theorem total_le_total (h : ∀ c ∈ text, f c ≤ g c) : total f text ≤ total g text :=
  List.sum_le_sum h

private theorem total_eq_zero (h : ∀ c ∈ text, f c = 0) : total f text = 0 := by
  refine List.sum_eq_zero ?_
  simpa using h

private theorem total_nonpos (h : ∀ c ∈ text, f c ≤ 0) : total f text ≤ 0 :=
  (total_le_total h).trans_eq (total_eq_zero (f := fun _ => 0) fun _ _ => rfl)

/-- A measure that separators do not have: they are written in other places than they were read. -/
structure Free (f : Char → Int) : Prop where
  space : f ' ' = 0
  colon : f ':' = 0
  cr : f '\r' = 0
  lf : f '\n' = 0

/-- What a head or request weighs are its fields. -/
def totalFields (f : Char → Int) (method path version : Text) (headers : List (Text × Text)) : Int :=
  total f method + total f path + total f version +
    (headers.map (fun header => total f header.1 + total f header.2)).sum

theorem Free.total_pieces (hf : Free f) (request : Request) : total f request.pieces.flatten =
    totalFields f request.method request.path request.version request.headers := by
  have hheaders (headers : List (Text × Text)) :
      total f (headers.flatMap (fun header => [header.1, [':', ' '], header.2, crlf])).flatten =
        (headers.map (fun header => total f header.1 + total f header.2)).sum := by
    induction headers with
    | nil => rfl
    | cons header headers ih =>
      simp only [List.flatMap_cons, List.flatten_append, total_append, ih, List.map_cons, List.sum_cons]
      simp [crlf, hf.space, hf.colon, hf.cr, hf.lf]
  simp only [Request.pieces, List.flatten_append, total_append, hheaders, totalFields]
  simp [crlf, hf.space, hf.cr, hf.lf, add_assoc]

theorem Free.total_text (hf : Free f) (head : Head) : total f (head.text ++ crlf) =
    totalFields f head.method head.path head.version head.headers := by
  have hheaders (headers : List (Text × Text)) :
      total f ((headers.map Head.headerLine).flatMap (· ++ crlf)) =
        (headers.map (fun header => total f header.1 + total f header.2)).sum := by
    induction headers with
    | nil => rfl
    | cons header headers ih =>
      simp only [List.map_cons, List.flatMap_cons, total_append, ih, List.sum_cons]
      simp [Head.headerLine, crlf, hf.colon, hf.cr, hf.lf]
  simp only [Head.text, Head.lines, List.flatMap_cons, total_append, hheaders, totalFields]
  simp [Head.requestLine, crlf, hf.space, hf.cr, hf.lf, add_assoc]

end total

/-- The weight of a character that was read. Written out, every character beyond ASCII weighs more
than before, and the two blanks beyond ASCII weigh less than nothing. -/
def weight (c : Char) : Int :=
  match c.toNat with
  | 0x83 | 0xC2 => 1
  | 0xC3 => 3
  | 0x85 | 0xA0 => -1
  | _ => 0

/-- One for every character beyond ASCII. -/
def beyondAscii (c : Char) : Int := if c.toNat < 128 then 0 else 1

/-- What a character weighs once it is written out and read again byte by byte. -/
def echo (c : Char) : Int := total weight (latin1 (String.utf8EncodeChar c))

private theorem byteChar_forall {P : Char → Prop} (h : ∀ n : Fin 256, P (Char.ofNat n)) {c : Char}
    (hc : c.toNat < 256) : P c := by
  have hn := h ⟨c.toNat, hc⟩
  rwa [Char.ofNat_toNat] at hn

private theorem weight_add_beyondAscii_le {c : Char} (hc : c.toNat < 256) :
    weight c + beyondAscii c ≤ echo c :=
  byteChar_forall (P := fun c => weight c + beyondAscii c ≤ echo c) (by decide +kernel) hc

private theorem weight_add_beyondAscii_whitespace {c : Char} (hc : c.toNat < 256) (h : isWhitespace c) :
    weight c + beyondAscii c ≤ 0 :=
  byteChar_forall (P := fun c => isWhitespace c → weight c + beyondAscii c ≤ 0) (by decide +kernel) hc h

private theorem weight_asciiBlank {c : Char} (h : asciiBlank c) : weight c = 0 := by
  have hc : c.toNat < 256 := by
    simp only [asciiBlank, Bool.or_eq_true, Bool.and_eq_true, decide_eq_true_eq, beq_iff_eq] at h
    omega
  exact byteChar_forall (P := fun c => asciiBlank c → weight c = 0) (by decide +kernel) hc h

private theorem free_weight : Free weight := ⟨rfl, rfl, rfl, rfl⟩

private theorem free_echo : Free echo := ⟨rfl, rfl, rfl, rfl⟩

private theorem free_weight_add : Free (fun c => weight c + beyondAscii c) := ⟨rfl, rfl, rfl, rfl⟩

private theorem total_weight_latin1_utf8 (text : Text) : total weight (latin1 (utf8 text)) = total echo text := by
  induction text with
  | nil => rfl
  | cons c text ih =>
    rw [utf8, List.flatMap_cons, latin1_append, total_append, total_cons]
    exact congrArg (echo c + ·) ih

theorem wire_eq (request : Request) : request.wire = utf8 request.pieces.flatten := by
  unfold Request.wire
  induction request.pieces with
  | nil => rfl
  | cons piece pieces ih => rw [List.flatMap_cons, ih, List.flatten_cons, utf8, utf8, utf8, List.flatMap_append]

/-- Cutting off blanks that weigh less than nothing takes no weight away. -/
private theorem total_le_trim {f : Char → Int} {text : Text} (h : ∀ c ∈ text, isWhitespace c → f c ≤ 0) :
    total f text ≤ total f (trim text) := by
  obtain ⟨before, after, heq, hbefore, hafter⟩ := exists_trim text
  have hb : total f before ≤ 0 := total_nonpos fun c hc => h c (by rw [heq]; simp [hc]) (hbefore c hc)
  have ha : total f after ≤ 0 := total_nonpos fun c hc => h c (by rw [heq]; simp [hc]) (hafter c hc)
  have htotal := congrArg (total f) heq
  rw [total_append, total_append] at htotal
  omega

private theorem total_sameButBlanks {received sent : Text} (h : SameButBlanks received sent) :
    total weight sent = total weight received := by
  obtain ⟨before, after, rfl, hbefore, hafter⟩ := h
  have hb : total weight before = 0 := total_eq_zero fun c hc => weight_asciiBlank (hbefore c hc)
  have ha : total weight after = 0 := total_eq_zero fun c hc => weight_asciiBlank (hafter c hc)
  rw [total_append, total_append, hb, ha]
  omega

/-- A received field weighs at most what its bytes weigh when they are written out trimmed. -/
private theorem total_le_echo_trim {text : Text} (h : ∀ c ∈ text, c.toNat < 256) :
    total (fun c => weight c + beyondAscii c) text ≤ total echo (trim text) := by
  obtain ⟨before, after, heq, _, _⟩ := exists_trim text
  refine (total_le_trim fun c hc => weight_add_beyondAscii_whitespace (h c hc)).trans ?_
  refine total_le_total fun c hc => weight_add_beyondAscii_le (h c ?_)
  rw [heq]
  simp [hc]

private theorem totalFields_mono {f g : Char → Int} {method path version : Text}
    {headers headers' : List (Text × Text)} (hmethod : total f method ≤ total g method)
    (hpath : total f path ≤ total g path) (hversion : total f version ≤ total g version)
    (hheaders : List.Forall₂ (fun h h' => total f h.1 ≤ total g h'.1 ∧ total f h.2 ≤ total g h'.2)
      headers headers') :
    totalFields f method path version headers ≤ totalFields g method path version headers' := by
  have hsum : (headers.map (fun header => total f header.1 + total f header.2)).sum ≤
      (headers'.map (fun header => total g header.1 + total g header.2)).sum := by
    refine List.Forall₂.sum_le_sum ?_
    rw [List.forall₂_map_left_iff, List.forall₂_map_right_iff]
    exact hheaders.imp fun _ _ h => add_le_add h.1 h.2
  unfold totalFields
  omega

/-- A head weighs at most what its bytes weigh when the request is written out, one more for every
character beyond ASCII. -/
private theorem total_le_wire {head : Head} (h : ∀ c ∈ head.text, c.toNat < 256) :
    total weight (head.text ++ crlf) + total beyondAscii (head.text ++ crlf) ≤
      total weight (latin1 head.request.wire) := by
  have hsplit : total (fun c => weight c + beyondAscii c) (head.text ++ crlf) =
      total weight (head.text ++ crlf) + total beyondAscii (head.text ++ crlf) := List.sum_map_add
  obtain ⟨hmethod, hpath, hversion, hfields⟩ := Head.forall_mem_text h
  rw [← hsplit, free_weight_add.total_text, wire_eq, total_weight_latin1_utf8, free_echo.total_pieces]
  refine totalFields_mono (total_le_total fun c hc => weight_add_beyondAscii_le (hmethod c hc))
    (total_le_total fun c hc => weight_add_beyondAscii_le (hpath c hc))
    (total_le_total fun c hc => weight_add_beyondAscii_le (hversion c hc)) ?_
  refine List.forall₂_map_right_iff.mpr (List.forall₂_same.mpr fun header hheader => ?_)
  exact ⟨total_le_echo_trim (hfields header hheader).1, total_le_echo_trim (hfields header hheader).2⟩

/-- A head printed with the same fields, blanks apart, weighs the same. -/
private theorem total_pieces_sameButBlanks {head : Head} {headers : List (Text × Text)}
    (h : List.Forall₂ (fun received sent => SameButBlanks received.1 sent.1 ∧
      SameButBlanks received.2 sent.2) head.headers headers) :
    total weight (Request.mk head.method head.path head.version headers).pieces.flatten =
      total weight (head.text ++ crlf) := by
  have hlist : head.headers.map (fun header => total weight header.1 + total weight header.2) =
      headers.map (fun header => total weight header.1 + total weight header.2) := by
    rw [← List.forall₂_eq_eq_eq, List.forall₂_map_left_iff, List.forall₂_map_right_iff]
    exact h.imp fun _ _ hheader => by
      rw [total_sameButBlanks hheader.1, total_sameButBlanks hheader.2]
  rw [free_weight.total_pieces, free_weight.total_text, totalFields, totalFields, hlist]

private theorem ascii_of_total {bytes : List UInt8} (h : total beyondAscii (latin1 bytes) ≤ 0) :
    ∀ byte ∈ bytes, byte.toNat < 128 := by
  have hpos : ∀ n ∈ (latin1 bytes).map beyondAscii, 0 ≤ n := by
    intro n hn
    obtain ⟨c, _, rfl⟩ := List.mem_map.mp hn
    unfold beyondAscii
    split <;> decide
  intro byte hbyte
  have hmem : beyondAscii (Char.ofNat byte.toNat) ∈ (latin1 bytes).map beyondAscii :=
    List.mem_map_of_mem (List.mem_map_of_mem hbyte)
  have hle := (List.single_le_sum hpos _ hmem).trans h
  by_contra hbig
  rw [beyondAscii, toNat_ofNat_byte, if_neg hbig] at hle
  exact absurd hle (by decide)

theorem latin1_utf8 {text : Text} (h : ∀ c ∈ text, c.toNat < 128) : latin1 (utf8 text) = text := by
  have hchar {c : Char} (hc : c.toNat < 128) : latin1 (String.utf8EncodeChar c) = [c] :=
    byteChar_forall (P := fun c => c.toNat < 128 → latin1 (String.utf8EncodeChar c) = [c])
      (by decide +kernel) (by omega) hc
  induction text with
  | nil => rfl
  | cons c text ih =>
    rw [List.forall_mem_cons] at h
    rw [utf8, List.flatMap_cons, latin1_append, hchar h.1]
    exact congrArg (c :: ·) (ih h.2)

/-- The fields of a request and the separators are all there is to its pieces. -/
theorem forall_mem_pieces {P : Char → Prop} {request : Request}
    (hseparators : P ' ' ∧ P ':' ∧ P '\r' ∧ P '\n') (hmethod : ∀ c ∈ request.method, P c)
    (hpath : ∀ c ∈ request.path, P c) (hversion : ∀ c ∈ request.version, P c)
    (hheaders : ∀ header ∈ request.headers, (∀ c ∈ header.1, P c) ∧ ∀ c ∈ header.2, P c) :
    ∀ c ∈ request.pieces.flatten, P c := by
  obtain ⟨hspace, hcolon, hcr, hlf⟩ := hseparators
  have hcrlf : ∀ c ∈ crlf, P c := by simp [crlf, hcr, hlf]
  intro c hc
  obtain ⟨piece, hpiece, hc⟩ := List.mem_flatten.mp hc
  rw [Request.pieces, List.mem_append, List.mem_append, List.mem_flatMap] at hpiece
  rcases hpiece with (hline | ⟨header, hheader, hpiece⟩) | hend
  · simp only [List.mem_cons, List.not_mem_nil, or_false] at hline
    rcases hline with rfl | rfl | rfl | rfl | rfl | rfl
    · exact hmethod c hc
    · exact List.mem_singleton.mp hc ▸ hspace
    · exact hpath c hc
    · exact List.mem_singleton.mp hc ▸ hspace
    · exact hversion c hc
    · exact hcrlf c hc
  · simp only [List.mem_cons, List.not_mem_nil, or_false] at hpiece
    rcases hpiece with rfl | rfl | rfl | rfl
    · exact (hheaders header hheader).1 c hc
    · simp only [List.mem_cons, List.not_mem_nil, or_false] at hc
      rcases hc with rfl | rfl
      · exact hcolon
      · exact hspace
    · exact (hheaders header hheader).2 c hc
    · exact hcrlf c hc
  · exact hcrlf c (List.mem_singleton.mp hend ▸ hc)

/-- Of an ASCII text nothing but ASCII blanks is trimmed. -/
private theorem sameButBlanks_trim {text : Text} (h : ∀ c ∈ text, c.toNat < 128) :
    SameButBlanks text (trim text) := by
  have hblank {c : Char} (hc : c.toNat < 128) (hw : isWhitespace c) : asciiBlank c :=
    byteChar_forall (P := fun c => c.toNat < 128 → isWhitespace c → asciiBlank c)
      (by decide +kernel) (by omega) hc hw
  obtain ⟨before, after, heq, hbefore, hafter⟩ := exists_trim text
  refine ⟨before, after, heq, fun c hc => hblank (h c ?_) (hbefore c hc),
    fun c hc => hblank (h c ?_) (hafter c hc)⟩
  · rw [heq]
    simp [hc]
  · rw [heq]
    simp [hc]

section accepted
variable {read rest : List UInt8} {data : Text} {request : Request}
  (hread : readUntilEmptyLine [] (read ++ rest) = .ok (data, rest)) (hnew : Request.new data = .ok request)
include hread hnew

theorem exists_head_of_read : ∃ head : Head, head.WellFormed ∧ latin1 read = head.text ++ crlf ∧
    request = head.request := by
  obtain ⟨read', head, hbytes, rfl, hwell, hdata, hrequest⟩ := exists_head hread hnew
  obtain rfl := List.append_cancel_right hbytes
  exact ⟨head, hwell, hdata, hrequest⟩

theorem forward_eq : forward (read ++ rest) = .ok (request.wire ++ rest) := by
  simp only [forward, hread, hnew, bind, Except.bind]
  rfl

/-- The head comes out as heavy as it went in only if it was ASCII. -/
theorem Faithful.ascii (h : Faithful (read ++ rest)) : ∀ byte ∈ read, byte.toNat < 128 := by
  obtain ⟨head, _, hdata, rfl⟩ := exists_head_of_read hread hnew
  obtain ⟨head', headers, sent, rest', _, hbytes, hforward, hsent, hheaders⟩ := h
  rw [forward_eq hread hnew] at hforward
  have hwire : total weight (latin1 head.request.wire) + total weight (latin1 rest) =
      total weight (latin1 sent) + total weight (latin1 rest') := by
    rw [← total_append, ← total_append, ← latin1_append, ← latin1_append, Except.ok.inj hforward]
  have hstream : total weight (head.text ++ crlf) + total weight (latin1 rest) =
      total weight (head'.text ++ crlf) + total weight (latin1 rest') := by
    rw [← hdata, ← total_append, ← total_append, ← latin1_append, hbytes]
  have hsame : total weight (latin1 sent) = total weight (head'.text ++ crlf) := by
    rw [hsent, total_pieces_sameButBlanks hheaders]
  have hwritten := total_le_wire fun c hc =>
    toNat_lt_of_mem_latin1 (hdata ▸ List.mem_append_left crlf hc : c ∈ latin1 read)
  refine ascii_of_total ?_
  rw [hdata]
  omega

theorem faithful_of_ascii (h : ∀ byte ∈ read, byte.toNat < 128) : Faithful (read ++ rest) := by
  obtain ⟨head, hwell, hdata, rfl⟩ := exists_head_of_read hread hnew
  have hascii : ∀ c ∈ head.text ++ crlf, c.toNat < 128 := by
    rw [← hdata]
    intro c hc
    obtain ⟨byte, hbyte, rfl⟩ := List.mem_map.mp hc
    rw [toNat_ofNat_byte]
    exact h byte hbyte
  obtain ⟨hmethod, hpath, hversion, hfields⟩ :=
    Head.forall_mem_text fun c hc => hascii c (List.mem_append_left crlf hc)
  refine ⟨head, head.request.headers, head.request.wire, rest, hwell, ?_, forward_eq hread hnew, ?_, ?_⟩
  · rw [latin1_append, hdata]
  · rw [wire_eq]
    refine latin1_utf8 (forall_mem_pieces (by decide) hmethod hpath hversion fun header hheader => ?_)
    obtain ⟨raw, hraw, rfl⟩ := List.mem_map.mp hheader
    exact ⟨fun c hc => (hfields raw hraw).1 c (mem_of_mem_trim hc),
      fun c hc => (hfields raw hraw).2 c (mem_of_mem_trim hc)⟩
  · refine List.forall₂_map_right_iff.mpr (List.forall₂_same.mpr fun header hheader => ?_)
    exact ⟨sameButBlanks_trim (hfields header hheader).1, sameButBlanks_trim (hfields header hheader).2⟩

/-- A head arrives as it was sent exactly when it is ASCII: any other byte is read as one character
and written as two bytes, or trimmed as a blank. -/
theorem forwarded_faithfully_iff :
    Faithful (read ++ rest) ↔ ∀ byte ∈ read, byte.toNat < 128 :=
  ⟨Faithful.ascii hread hnew, faithful_of_ascii hread hnew⟩

end accepted

/-- A request line and one header. -/
def headBytes (path value : List UInt8) : List UInt8 :=
  (utf8 "GET /".toList) ++ path ++ (utf8 " HTTP/1.1\r\nName:".toList) ++ value ++ utf8 (crlf ++ crlf)

theorem forwarded_faithfully_iff_plainHead :
    Faithful (headBytes [0x70] [0x20, 0x76, 0x20] ++ [0, 255]) := by
  have hread : readUntilEmptyLine [] (headBytes [0x70] [0x20, 0x76, 0x20] ++ [0, 255]) =
      .ok (latin1 (headBytes [0x70] [0x20, 0x76, 0x20]), [0, 255]) := by decide +kernel
  have hnew : Request.new (latin1 (headBytes [0x70] [0x20, 0x76, 0x20])) =
      .ok ⟨"GET".toList, "/p".toList, "HTTP/1.1".toList, [("Name".toList, "v".toList)]⟩ := by
    decide +kernel
  exact (forwarded_faithfully_iff hread hnew).mpr (by decide +kernel)

/-- A path with the single byte 0xE9 is accepted, and the server gets two bytes for it. -/
theorem not_forwarded_faithfully_latin1Path :
    forward (headBytes [0xE9] [0x76]) =
      .ok (utf8 "GET /".toList ++ [0xC3, 0xA9] ++ utf8 " HTTP/1.1\r\nName: v\r\n\r\n".toList) ∧
      ¬ Faithful (headBytes [0xE9] [0x76]) := by
  have hread : readUntilEmptyLine [] (headBytes [0xE9] [0x76] ++ []) =
      .ok (latin1 (headBytes [0xE9] [0x76]), []) := by decide +kernel
  have hnew : Request.new (latin1 (headBytes [0xE9] [0x76])) = .ok
      ⟨"GET".toList, '/' :: latin1 [0xE9], "HTTP/1.1".toList, [("Name".toList, "v".toList)]⟩ := by
    decide +kernel
  refine ⟨by decide +kernel, fun h => ?_⟩
  rw [← List.append_nil (headBytes _ _)] at h
  exact absurd (h.ascii hread hnew 0xE9 (by decide +kernel)) (by decide)

end WayPoint.Gateway
