import Talk2Text.Format.Bytes
import Talk2Text.Format.Utf8

/-!
# Multipart forms

The writer of Go's `mime/multipart` over a buffer, whose writes do not fail, and a parser of multipart bodies. A body is
a sequence of parts, each after a line with the boundary; the parser skips what is before the first boundary and behind
the last one, and it takes a part to end at the first occurrence of `delimiter`.

- `encode_eq`: what one writer makes of a list of parts;
- `parse_encode`: the parser gives the parts back, if the delimiter is in none of them;
- `names_fileHeader`: the names of a file are read from its header.
-/

namespace Talk2Text.Format.Multipart

/-! ## Parts -/

def crlf : List UInt8 := [13, 10]

def dashBoundary (boundary : List UInt8) : List UInt8 := utf8 "--" ++ boundary

/-- The line break before a boundary belongs to the boundary. -/
def delimiter (boundary : List UInt8) : List UInt8 := crlf ++ dashBoundary boundary

/-- The header fields are in the order of their keys, in which they are written. -/
structure Part where
  header : List (List UInt8 × List UInt8)
  content : List UInt8
  deriving DecidableEq, Repr

def headerBytes (header : List (List UInt8 × List UInt8)) : List UInt8 :=
  header.flatMap fun (key, value) => key ++ utf8 ": " ++ value ++ crlf

/-- What is between two delimiter lines. -/
def Part.bytes (p : Part) : List UInt8 := headerBytes p.header ++ crlf ++ p.content

/-! ## The writer -/

structure Writer where
  out : List UInt8
  boundary : List UInt8
  /-- The number of parts created. -/
  created : Nat
  /-- The part that may be written to. -/
  lastPart : Option Nat
  deriving DecidableEq, Repr

def hexDigit (n : UInt8) : UInt8 := if n < 10 then 48 + n else 87 + n

/-- `randomBoundary`: thirty random bytes in hexadecimal. -/
def randomBoundary (rand : Vector UInt8 30) : List UInt8 :=
  rand.toList.flatMap fun b => [hexDigit (b / 16), hexDigit (b % 16)]

/-- `NewWriter`. -/
def newWriter (rand : Vector UInt8 30) : Writer := ⟨[], randomBoundary rand, 0, none⟩

/-- A character of a boundary; a space is none at the end. -/
def isBoundaryChar (b : UInt8) : Bool :=
  (65 ≤ b && b ≤ 90) || (97 ≤ b && b ≤ 122) || (48 ≤ b && b ≤ 57) || (utf8 "'()+_,-./:=? ").contains b

namespace Writer

/-- `SetBoundary`. -/
def setBoundary (w : Writer) (boundary : List UInt8) : Except String Writer :=
  if w.lastPart ≠ none then .error "mime: SetBoundary called after write"
  else if boundary.length < 1 ∨ 70 < boundary.length then .error "mime: invalid boundary length"
  else if !boundary.all isBoundaryChar ∨ boundary.getLast? = some 32 then .error "mime: invalid boundary character"
  else .ok { w with boundary := boundary }

/-- `CreatePart`. -/
def createPart (w : Writer) (header : List (List UInt8 × List UInt8)) : Writer × Nat :=
  ({ w with
    out := w.out ++ (if w.lastPart = none then [] else crlf) ++ dashBoundary w.boundary ++ crlf ++
      headerBytes header ++ crlf
    created := w.created + 1
    lastPart := some w.created }, w.created)

/-- `Write` of a part. -/
def write (w : Writer) (part : Nat) (data : List UInt8) : Except String Writer :=
  if w.lastPart = some part then .ok { w with out := w.out ++ data }
  else .error "multipart: can't write to finished part"

/-- `Close`. -/
def close (w : Writer) : Writer :=
  { w with out := w.out ++ delimiter w.boundary ++ utf8 "--" ++ crlf, lastPart := none }

end Writer

/-! ## Forms -/

/-- `escapeQuotes`. -/
def escapeQuotes (s : List UInt8) : List UInt8 :=
  s.flatMap fun b => if b = 92 then [92, 92] else if b = 34 then [92, 34] else [b]

def dispositionKey : List UInt8 := utf8 "Content-Disposition"

/-- The header of `CreateFormField`. -/
def fieldHeader (name : List UInt8) : List (List UInt8 × List UInt8) :=
  [(dispositionKey, utf8 "form-data; name=\"" ++ escapeQuotes name ++ utf8 "\"")]

/-- The header of `CreateFormFile`. -/
def fileHeader (name filename : List UInt8) : List (List UInt8 × List UInt8) :=
  [(dispositionKey, utf8 "form-data; name=\"" ++ escapeQuotes name ++ utf8 "\"; filename=\"" ++
      escapeQuotes filename ++ utf8 "\""),
    (utf8 "Content-Type", utf8 "application/octet-stream")]

namespace Writer

/-- `CreateFormFile`. -/
def createFormFile (w : Writer) (name filename : List UInt8) : Writer × Nat := w.createPart (fileHeader name filename)

/-- `WriteField`. -/
def writeField (w : Writer) (name value : List UInt8) : Except String Writer :=
  let (w, part) := w.createPart (fieldHeader name)
  w.write part value

/-- `FormDataContentType`. -/
def formDataContentType (w : Writer) : List UInt8 :=
  let special := w.boundary.any fun b => (utf8 "()<>@,;:\\\"/[]?= ").contains b
  utf8 "multipart/form-data; boundary=" ++ if special then utf8 "\"" ++ w.boundary ++ utf8 "\"" else w.boundary

/-- The parts, one after another. -/
def writeParts (w : Writer) : List Part → Except String Writer
  | [] => .ok w
  | p :: ps => do
    let (w, part) := w.createPart p.header
    let w ← w.write part p.content
    w.writeParts ps

end Writer

/-- What one writer makes of the parts. -/
def encode (boundary : List UInt8) (ps : List Part) : Except String (List UInt8) := do
  let w ← Writer.writeParts ⟨[], boundary, 0, none⟩ ps
  return w.close.out

/-! ## The parser -/

/-- The fields of a header and what is behind the empty line. -/
def parseHeader : Nat → List UInt8 → Option (List (List UInt8 × List UInt8) × List UInt8)
  | 0, _ => none
  | n + 1, bs => do
    let (line, rest) ← breakOn crlf bs
    if line = [] then some ([], rest)
    else
      let field ← breakOn (utf8 ": ") line
      let (header, content) ← parseHeader n rest
      some (field :: header, content)

def parsePart (bs : List UInt8) : Option Part := do
  let (header, content) ← parseHeader bs.length bs
  some ⟨header, content⟩

/-- The parts, from behind a delimiter on. -/
def parseParts (boundary : List UInt8) : Nat → List UInt8 → Option (List Part)
  | 0, _ => none
  | n + 1, bs =>
    if (utf8 "--").isPrefixOf bs then some []
    else
      -- transport padding
      match bs.dropWhile fun b => b = 32 ∨ b = 9 with
      | 13 :: 10 :: rest => do
        let (part, rest) ← breakOn (delimiter boundary) rest
        let p ← parsePart part
        let ps ← parseParts boundary n rest
        some (p :: ps)
      | _ => none

def parse (boundary body : List UInt8) : Option (List Part) := do
  let (_, rest) ← breakOn (delimiter boundary) (crlf ++ body)
  parseParts boundary body.length rest

/-! ## Forms that are read -/

/-- The value behind a key of `form-data`, with no quotes in it, and what is behind it. -/
def formName (key value : List UInt8) : Option (List UInt8 × List UInt8) :=
  if key.isPrefixOf value then breakOn (utf8 "\"") (value.drop key.length) else none

/-- The name of a part. -/
def Part.name (p : Part) : Option (List UInt8) := do
  let value ← p.header.lookup dispositionKey
  let (name, _) ← formName (utf8 "form-data; name=\"") value
  some name

/-- The filename of a part. -/
def Part.filename (p : Part) : Option (List UInt8) := do
  let value ← p.header.lookup dispositionKey
  let (_, rest) ← formName (utf8 "form-data; name=\"") value
  let (filename, _) ← formName (utf8 "; filename=\"") rest
  some filename

/-- The part of a form with this name. -/
def part? (ps : List Part) (name : List UInt8) : Option Part := ps.find? fun p => p.name = some name

/-- A list without the first symbol of a delimiter does not have the delimiter. -/
theorem not_infix_of_not_mem {c : UInt8} {d l : List UInt8} (h : c ∉ l) : ¬(c :: d) <:+: l :=
  fun hi => h (hi.subset List.mem_cons_self)

section Names

variable {name filename content : List UInt8}

theorem escapeQuotes_eq (hquote : 34 ∉ name) (hslash : 92 ∉ name) : escapeQuotes name = name := by
  refine (List.flatMap_congr fun b hb => ?_).trans (List.flatMap_singleton' _)
  rw [if_neg fun h : b = 92 => hslash (h ▸ hb), if_neg fun h : b = 34 => hquote (h ▸ hb)]

theorem formName_append (key rest : List UInt8) (h : 34 ∉ name) :
    formName key (key ++ (name ++ (utf8 "\"" ++ rest))) = some (name, rest) := by
  have hkey : key.isPrefixOf (key ++ (name ++ (utf8 "\"" ++ rest))) = true := by simp
  rw [formName, if_pos hkey, List.drop_left]
  exact breakOn_append List.not_mem_nil (not_infix_of_not_mem h)

/-- **The names of a file are read back**, if they need no escapes. -/
theorem names_fileHeader (hname : 34 ∉ name) (hname' : 92 ∉ name) (hfile : 34 ∉ filename) (hfile' : 92 ∉ filename) :
    Part.name ⟨fileHeader name filename, content⟩ = some name ∧
      Part.filename ⟨fileHeader name filename, content⟩ = some filename := by
  have hlookup : (fileHeader name filename).lookup dispositionKey = some (utf8 "form-data; name=\"" ++
      (name ++ (utf8 "\"" ++ (utf8 "; filename=\"" ++ (filename ++ (utf8 "\"" ++ [])))))) := by
    rw [fileHeader, List.lookup_cons_self, escapeQuotes_eq hname hname', escapeQuotes_eq hfile hfile',
      show utf8 "\"; filename=\"" = utf8 "\"" ++ utf8 "; filename=\"" from rfl]
    simp only [List.append_assoc, List.append_nil]
  simp only [Part.name, Part.filename, hlookup, Option.bind_eq_bind, Option.bind_some, formName_append _ _ hname,
    formName_append _ _ hfile, and_self]

end Names

/-! ## Random boundaries -/

section Boundary

variable {rand : Vector UInt8 30} {x : UInt8}

theorem exists_of_mem_randomBoundary (h : x ∈ randomBoundary rand) : ∃ i : Fin 16, x = hexDigit (UInt8.ofNat i) := by
  obtain ⟨b, -, hx⟩ := List.mem_flatMap.mp h
  have hb := b.toNat_lt
  rcases List.mem_pair.mp hx with rfl | rfl
  · refine ⟨⟨b.toNat / 16, by omega⟩, ?_⟩
    congr 1
    exact UInt8.toNat_inj.mp (by simp; omega)
  · refine ⟨⟨b.toNat % 16, by omega⟩, ?_⟩
    congr 1
    exact UInt8.toNat_inj.mp (by simp; omega)

theorem length_randomBoundary (rand : Vector UInt8 30) : (randomBoundary rand).length = 60 := by
  simp [randomBoundary, List.length_flatMap]

theorem not_mem_randomBoundary (rand : Vector UInt8 30) : 13 ∉ randomBoundary rand := by
  intro h
  obtain ⟨i, hi⟩ := exists_of_mem_randomBoundary h
  revert hi
  exact (by decide : ∀ i : Fin 16, 13 ≠ hexDigit (UInt8.ofNat i)) i

/-- **A random boundary is accepted** by a writer that has not been written to. -/
theorem setBoundary_randomBoundary {w : Writer} (hw : w.lastPart = none) (rand : Vector UInt8 30) :
    w.setBoundary (randomBoundary rand) = .ok { w with boundary := randomBoundary rand } := by
  have hall : (randomBoundary rand).all isBoundaryChar = true := by
    refine List.all_eq_true.mpr fun x hx => ?_
    obtain ⟨i, rfl⟩ := exists_of_mem_randomBoundary hx
    exact (by decide : ∀ i : Fin 16, isBoundaryChar (hexDigit (UInt8.ofNat i)) = true) i
  have hlast : (randomBoundary rand).getLast? ≠ some 32 := by
    intro h
    obtain ⟨i, hi⟩ := exists_of_mem_randomBoundary (List.mem_of_getLast? h)
    revert hi
    exact (by decide : ∀ i : Fin 16, 32 ≠ hexDigit (UInt8.ofNat i)) i
  simp [Writer.setBoundary, hw, length_randomBoundary, hall, hlast]

end Boundary

/-! ## What a writer writes -/

section Write

variable (w : Writer) (header : List (List UInt8 × List UInt8)) (data data' : List UInt8)

/-- A part can be written to after it is created. -/
@[simp] theorem write_createPart : (w.createPart header).1.write (w.createPart header).2 data =
    .ok { (w.createPart header).1 with out := (w.createPart header).1.out ++ data } := if_pos rfl

theorem writeParts_cons (p : Part) (ps : List Part) : w.writeParts (p :: ps) =
    Writer.writeParts { (w.createPart p.header).1 with out := (w.createPart p.header).1.out ++ p.content } ps := by
  show ((w.createPart p.header).1.write (w.createPart p.header).2 p.content >>= fun w => w.writeParts ps) = _
  rw [write_createPart]
  rfl

theorem writeField_eq (name value : List UInt8) : w.writeField name value = w.writeParts [⟨fieldHeader name, value⟩] := by
  rw [writeParts_cons]
  exact write_createPart w (fieldHeader name) value

theorem writeParts_append (ps qs : List Part) : w.writeParts (ps ++ qs) = w.writeParts ps >>= fun w => w.writeParts qs := by
  induction ps generalizing w with
  | nil => rfl
  | cons p ps ih =>
    rw [List.cons_append, writeParts_cons, writeParts_cons]
    exact ih _

theorem exists_writeParts (ps : List Part) : ∃ w', w.writeParts ps = .ok w' ∧ w'.boundary = w.boundary := by
  induction ps generalizing w with
  | nil => exact ⟨w, rfl, rfl⟩
  | cons p ps ih =>
    rw [writeParts_cons]
    exact ih _

/-- What follows a delimiter: the parts and the end of the body. -/
def afterDelimiter (boundary : List UInt8) : List Part → List UInt8
  | [] => utf8 "--" ++ crlf
  | p :: ps => crlf ++ p.bytes ++ (delimiter boundary ++ afterDelimiter boundary ps)

/-- **What a writer in a part makes of more parts.** -/
theorem out_close (hw : w.lastPart ≠ none) (ps : List Part) : ∃ w', w.writeParts ps = .ok w' ∧
    w'.close.out = w.out ++ (delimiter w.boundary ++ afterDelimiter w.boundary ps) := by
  induction ps generalizing w with
  | nil => exact ⟨w, rfl, by simp [Writer.close, afterDelimiter]⟩
  | cons p ps ih =>
    rw [writeParts_cons]
    obtain ⟨w', hw', hout⟩ := ih { (w.createPart p.header).1 with out := (w.createPart p.header).1.out ++ p.content }
      (Option.some_ne_none _)
    refine ⟨w', hw', hout.trans ?_⟩
    simp [Writer.createPart, hw, afterDelimiter, Part.bytes, delimiter]

/-- **What one writer makes of the parts**, with a line break before it. -/
theorem encode_eq (boundary : List UInt8) (ps : List Part) : ∃ body, encode boundary ps = .ok body ∧
    crlf ++ body = (if ps = [] then crlf else []) ++ (delimiter boundary ++ afterDelimiter boundary ps) := by
  cases ps with
  | nil => exact ⟨_, rfl, by simp [Writer.close, afterDelimiter]⟩
  | cons p ps =>
    let w : Writer := ⟨[], boundary, 0, none⟩
    obtain ⟨w', hw', hout⟩ := out_close
      { (w.createPart p.header).1 with out := (w.createPart p.header).1.out ++ p.content } (Option.some_ne_none _) ps
    refine ⟨w'.close.out, ?_, ?_⟩
    · show (w.writeParts (p :: ps) >>= fun w => Except.ok w.close.out) = _
      rw [writeParts_cons, hw']
      rfl
    · rw [hout]
      simp [w, Writer.createPart, afterDelimiter, Part.bytes, delimiter]

end Write

/-! ## Parsing what is written -/

section Parse

variable {boundary : List UInt8}

/-- The header can be read back: no line break, and no colon in a key. -/
def Part.Readable (p : Part) : Prop := ∀ f ∈ p.header, 13 ∉ f.1 ∧ 13 ∉ f.2 ∧ 58 ∉ f.1

theorem breakOn_crlf {line rest : List UInt8} (h : 13 ∉ line) :
    breakOn crlf (line ++ (crlf ++ rest)) = some (line, rest) :=
  breakOn_append (by decide) (not_infix_of_not_mem h)

theorem breakOn_colon {key value : List UInt8} (h : 58 ∉ key) :
    breakOn (utf8 ": ") (key ++ (utf8 ": " ++ value)) = some (key, value) :=
  breakOn_append (by decide) (not_infix_of_not_mem h)

theorem parseHeader_bytes {header : List (List UInt8 × List UInt8)} (content : List UInt8) {n : Nat}
    (hn : header.length < n) (h : ∀ f ∈ header, 13 ∉ f.1 ∧ 13 ∉ f.2 ∧ 58 ∉ f.1) :
    parseHeader n (headerBytes header ++ crlf ++ content) = some (header, content) := by
  induction header generalizing n with
  | nil =>
    cases n with
    | zero => cases hn
    | succ n =>
      have hempty : breakOn crlf (headerBytes [] ++ crlf ++ content) = some ([], content) :=
        @breakOn_crlf [] content List.not_mem_nil
      rw [parseHeader, hempty]
      rfl
  | cons f header ih =>
    cases n with
    | zero => cases hn
    | succ n =>
      obtain ⟨⟨hkey, hvalue, hcolon⟩, hrest⟩ := List.forall_mem_cons.mp h
      have hline : (13 : UInt8) ∉ f.1 ++ (utf8 ": " ++ f.2) := by
        simp only [List.mem_append, not_or]
        exact ⟨hkey, by decide, hvalue⟩
      have hbytes : headerBytes (f :: header) ++ crlf ++ content =
          (f.1 ++ (utf8 ": " ++ f.2)) ++ (crlf ++ (headerBytes header ++ crlf ++ content)) := by
        simp [headerBytes]
      have hne : f.1 ++ (utf8 ": " ++ f.2) ≠ [] :=
        List.append_ne_nil_of_right_ne_nil _ (List.append_ne_nil_of_left_ne_nil (by decide) _)
      rw [hbytes, parseHeader, breakOn_crlf hline]
      simp only [Option.bind_eq_bind, Option.bind_some, if_neg hne]
      rw [breakOn_colon hcolon, ih (Nat.lt_of_succ_lt_succ hn) hrest]
      rfl

theorem length_headerBytes (header : List (List UInt8 × List UInt8)) : header.length ≤ (headerBytes header).length := by
  induction header with
  | nil => exact Nat.le_refl 0
  | cons f header ih =>
    simp only [headerBytes, List.flatMap_cons, List.length_append, List.length_cons, crlf] at ih ⊢
    omega

theorem parsePart_bytes {p : Part} (h : p.Readable) : parsePart p.bytes = some p := by
  have hn : p.header.length < p.bytes.length := by
    have := length_headerBytes p.header
    simp only [Part.bytes, List.length_append, crlf, List.length_cons]
    omega
  rw [parsePart, show parseHeader _ p.bytes = _ from parseHeader_bytes p.content hn h]
  rfl

theorem breakOn_delimiter (hb : 13 ∉ boundary) {part : List UInt8} (h : ¬delimiter boundary <:+: part)
    (rest : List UInt8) :
    breakOn (delimiter boundary) (part ++ (delimiter boundary ++ rest)) = some (part, rest) := by
  refine breakOn_append ?_ h
  intro hm
  rcases List.mem_append.mp hm with hm | hm
  · exact absurd hm (by decide)
  · exact hb (List.mem_append.mp hm |>.resolve_left (by decide))

theorem length_afterDelimiter (boundary : List UInt8) (ps : List Part) : ps.length < (afterDelimiter boundary ps).length := by
  induction ps with
  | nil => exact (by decide : 0 < 4)
  | cons p ps ih =>
    simp only [afterDelimiter, List.length_append, List.length_cons, crlf]
    omega

/-- **The parts behind a delimiter.** -/
theorem parseParts_afterDelimiter (hb : 13 ∉ boundary) {ps : List Part} {n : Nat} (hn : ps.length < n)
    (hread : ∀ p ∈ ps, p.Readable) (hd : ∀ p ∈ ps, ¬delimiter boundary <:+: p.bytes) :
    parseParts boundary n (afterDelimiter boundary ps) = some ps := by
  induction ps generalizing n with
  | nil =>
    cases n with
    | zero => cases hn
    | succ n => rfl
  | cons p ps ih =>
    cases n with
    | zero => cases hn
    | succ n =>
      obtain ⟨hp, hps⟩ := List.forall_mem_cons.mp hread
      obtain ⟨hdp, hdps⟩ := List.forall_mem_cons.mp hd
      have hpart := breakOn_delimiter hb hdp (afterDelimiter boundary ps)
      have hrest := ih (Nat.lt_of_succ_lt_succ hn) hps hdps
      rw [afterDelimiter, List.append_assoc]
      show ((breakOn (delimiter boundary) (p.bytes ++ (delimiter boundary ++ afterDelimiter boundary ps))).bind fun x =>
        (parsePart x.1).bind fun q => (parseParts boundary n x.2).bind fun qs => some (q :: qs)) = some (p :: ps)
      rw [hpart, Option.bind_some, parsePart_bytes hp, Option.bind_some, hrest, Option.bind_some]

/-- **The parts are read back**, if the delimiter is in none of them. -/
theorem parse_encode (hb : 13 ∉ boundary) {ps : List Part} {body : List UInt8}
    (h : encode boundary ps = .ok body) (hread : ∀ p ∈ ps, p.Readable)
    (hd : ∀ p ∈ ps, ¬delimiter boundary <:+: p.bytes) : parse boundary body = some ps := by
  obtain ⟨body', hbody', heq⟩ := encode_eq boundary ps
  obtain rfl : body = body' := Except.ok.inj (h.symm.trans hbody')
  have hstart : ¬delimiter boundary <:+: if ps = [] then crlf else [] := by
    intro hi
    have hlen := hi.length_le
    have htwo : (if ps = [] then crlf else []).length ≤ 2 := by split_ifs <;> decide
    simp only [delimiter, dashBoundary, List.length_append, crlf, List.length_cons, List.length_nil,
      show (utf8 "--").length = 2 from rfl] at hlen htwo
    omega
  have hn : ps.length < body.length := by
    have hafter := length_afterDelimiter boundary ps
    have hlen := congrArg List.length heq
    have htwo : (if ps = [] then crlf else []).length ≤ 2 := by split_ifs <;> decide
    simp only [delimiter, dashBoundary, List.length_append, crlf, List.length_cons, List.length_nil] at hlen
    omega
  rw [parse, heq, breakOn_delimiter hb hstart _]
  exact parseParts_afterDelimiter hb hn hread hd

end Parse

end Talk2Text.Format.Multipart
