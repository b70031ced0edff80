import Talk2Text.Format.Multipart
import Talk2Text.Whisper.Wav

/-!
# The body of a Whisper request

`multipartBodyReader` of `whisper/whisper.go`: the PCM is not copied into the body. One multipart writer writes what is
before it and a second one, with the boundary of the first, what is behind it; the body is read from the three pieces.

- `multipartBodyReader_eq`: the pieces make up what one writer writes for `formParts`;
- `multipart_body_exact`: that, and the form and the WAV file that a server finds in the body.
-/

namespace Talk2Text.Whisper

open Format Format.Multipart

/-! ## Building the body -/

/-- `writeMultipartTextFields`. -/
def writeMultipartTextFields (mp : Writer) (prompt : List UInt8) : Except String Writer := do
  let mp ← mp.writeField (utf8 "temperature") (utf8 "0")
  let mp ← mp.writeField (utf8 "temperature_inc") (utf8 "0.9")
  let mp ← mp.writeField (utf8 "response_format") (utf8 "json")
  if prompt ≠ [] then mp.writeField (utf8 "prompt") prompt else return mp

/-- `fmt.Sprintf("%d.wav", clipID)`. -/
def wavName (clipID : Int) : List UInt8 := utf8 (toString clipID ++ ".wav")

/-- `multipartBodyReader`: the pieces of the body and its content type, with the random bytes of both writers. -/
def multipartBodyReader (rand rand' : Vector UInt8 30) (clipID : Int) (prompt pcm : List UInt8) :
    Except String (List (List UInt8) × List UInt8) := do
  let mp ← writeMultipartTextFields (newWriter rand) prompt
  let (mp, fileWriter) := mp.createFormFile (utf8 "file") (wavName clipID)
  let mp ← writeWavHeader (mp.write fileWriter) pcm.length
  let contentType := mp.formDataContentType
  let suffixMP ← (newWriter rand').setBoundary mp.boundary
  return ([mp.out, pcm, suffixMP.close.out], contentType)

/-! ## The form -/

def fieldPart (name value : String) : Part := ⟨fieldHeader (utf8 name), utf8 value⟩

/-- The fields before the file. -/
def textParts (prompt : List UInt8) : List Part :=
  [fieldPart "temperature" "0", fieldPart "temperature_inc" "0.9", fieldPart "response_format" "json"] ++
    if prompt ≠ [] then [⟨fieldHeader (utf8 "prompt"), prompt⟩] else []

def filePart (clipID : Int) (pcm : List UInt8) : Part := ⟨fileHeader (utf8 "file") (wavName clipID), wavFile pcm⟩

/-- The form that is meant. -/
def formParts (clipID : Int) (prompt pcm : List UInt8) : List Part := textParts prompt ++ [filePart clipID pcm]

section Body

variable (rand rand' : Vector UInt8 30) (clipID : Int) (prompt pcm : List UInt8)

theorem writeMultipartTextFields_eq (mp : Writer) :
    writeMultipartTextFields mp prompt = mp.writeParts (textParts prompt) := by
  have hparts : textParts prompt = [fieldPart "temperature" "0"] ++ ([fieldPart "temperature_inc" "0.9"] ++
      ([fieldPart "response_format" "json"] ++
        if prompt ≠ [] then [⟨fieldHeader (utf8 "prompt"), prompt⟩] else [])) := rfl
  rw [hparts]
  simp only [writeMultipartTextFields, writeField_eq, writeParts_append]
  split_ifs <;> rfl

/-- **The pieces are what one writer writes.** -/
theorem multipartBodyReader_eq (h : pcm.length ≤ 2 ^ 32 - 1 - riffChunkSizeBase) :
    ∃ pieces, multipartBodyReader rand rand' clipID prompt pcm =
        .ok (pieces, (newWriter rand).formDataContentType) ∧
      encode (randomBoundary rand) (formParts clipID prompt pcm) = .ok pieces.flatten := by
  obtain ⟨mp, hmp, hb⟩ := exists_writeParts (newWriter rand) (textParts prompt)
  let file := (mp.createFormFile (utf8 "file") (wavName clipID)).1
  let header := (wavHeader pcm.length).bytes
  -- the writer of the suffix, once it has the boundary of the first one
  let suffixMP : Writer := { newWriter rand' with boundary := randomBoundary rand }
  have hheader : writeWavHeader (file.write mp.created) pcm.length = .ok { file with out := file.out ++ header } := by
    rw [writeWavHeader, if_neg (Nat.not_lt.mpr h)]
    exact write_createPart mp _ header
  have hsuffix : (newWriter rand').setBoundary file.boundary = .ok suffixMP := by
    rw [show file.boundary = randomBoundary rand from hb]
    exact setBoundary_randomBoundary rfl rand
  refine ⟨[file.out ++ header, pcm, suffixMP.close.out], ?_, ?_⟩
  · have htype : Writer.formDataContentType { file with out := file.out ++ header } =
        (newWriter rand).formDataContentType := by
      unfold Writer.formDataContentType
      rw [show file.boundary = randomBoundary rand from hb]
      rfl
    rw [multipartBodyReader, writeMultipartTextFields_eq, hmp]
    show (writeWavHeader (file.write mp.created) pcm.length >>= fun mp => (newWriter rand').setBoundary mp.boundary >>=
      fun s => .ok ([mp.out, pcm, s.close.out], mp.formDataContentType)) = _
    rw [hheader]
    show ((newWriter rand').setBoundary file.boundary >>= fun s => _) = _
    rw [hsuffix, ← htype]
    rfl
  · show (Writer.writeParts (newWriter rand) (formParts clipID prompt pcm) >>= fun w => .ok w.close.out) = _
    rw [formParts, writeParts_append, hmp]
    show (mp.writeParts [filePart clipID pcm] >>= fun w => .ok w.close.out) = _
    rw [writeParts_cons]
    show Except.ok (file.out ++ wavFile pcm ++ delimiter file.boundary ++ utf8 "--" ++ crlf) = _
    rw [show file.boundary = randomBoundary rand from hb]
    simp [wavFile, header, Writer.close, suffixMP, newWriter]

theorem multipartBodyReader_tooLarge (h : 2 ^ 32 - 1 - riffChunkSizeBase < pcm.length) :
    multipartBodyReader rand rand' clipID prompt pcm = .error "pcm payload too large to encode" := by
  obtain ⟨mp, hmp, -⟩ := exists_writeParts (newWriter rand) (textParts prompt)
  rw [multipartBodyReader, writeMultipartTextFields_eq, hmp]
  show (writeWavHeader _ pcm.length >>= fun mp => _) = _
  rw [writeWavHeader, if_pos h]
  rfl

/-! ## The form that is read -/

theorem mem_wavName {c : Char} (h : c ∈ (toString clipID ++ ".wav").toList) :
    c.isDigit = true ∨ c ∈ ['-', '.', 'w', 'a', 'v'] := by
  rw [String.toList_append, List.mem_append] at h
  rcases h with h | h
  · cases clipID with
    | ofNat n =>
      have h : c ∈ (Nat.repr n).toList := h
      rw [Nat.toList_repr] at h
      exact Or.inl (Nat.isDigit_of_mem_toDigits (by decide) (by decide) h)
    | negSucc n =>
      have h : c ∈ ("-" ++ Nat.repr (n + 1)).toList := h
      rw [String.toList_append, List.mem_append, Nat.toList_repr] at h
      rcases h with h | h
      · exact Or.inr (List.mem_of_mem_head? (by rw [List.mem_singleton.mp h]; rfl))
      · exact Or.inl (Nat.isDigit_of_mem_toDigits (by decide) (by decide) h)
  · exact Or.inr (List.mem_cons_of_mem _ h)

/-- The filename needs no escapes and breaks no line. -/
theorem not_mem_wavName {b : UInt8} (hb : b = 13 ∨ b = 34 ∨ b = 92) : b ∉ wavName clipID := by
  intro h
  have hascii : b.toNat < 128 := by rcases hb with rfl | rfl | rfl <;> decide
  obtain ⟨c, hc, hcb⟩ := (mem_encodeRunes_ascii hascii).mp h
  have hchar : c.toNat ≠ 13 ∧ c.toNat ≠ 34 ∧ c.toNat ≠ 92 := by
    rcases mem_wavName clipID hc with hdigit | hother
    · have hrange : 48 ≤ c.toNat ∧ c.toNat ≤ 57 := by simpa [Char.isDigit, UInt32.le_iff_toNat_le] using hdigit
      omega
    · simp only [List.mem_cons, List.not_mem_nil, or_false] at hother
      rcases hother with rfl | rfl | rfl | rfl | rfl <;> decide
  rcases hb with rfl | rfl | rfl
  · exact hchar.1 hcb
  · exact hchar.2.1 hcb
  · exact hchar.2.2 hcb

theorem escapeQuotes_wavName : escapeQuotes (wavName clipID) = wavName clipID :=
  escapeQuotes_eq (not_mem_wavName clipID (Or.inr (Or.inl rfl))) (not_mem_wavName clipID (Or.inr (Or.inr rfl)))

theorem readable_formParts : ∀ p ∈ formParts clipID prompt pcm, p.Readable := by
  have hname : (13 : UInt8) ∉ utf8 "form-data; name=\"" ++ escapeQuotes (utf8 "file") ++ utf8 "\"; filename=\"" ++
      escapeQuotes (wavName clipID) ++ utf8 "\"" := by
    rw [escapeQuotes_wavName, List.mem_append, List.mem_append, not_or, not_or]
    exact ⟨⟨by decide, not_mem_wavName clipID (Or.inl rfl)⟩, by decide⟩
  have hfile : (filePart clipID pcm).Readable :=
    List.forall_mem_cons.mpr ⟨⟨(by decide : 13 ∉ dispositionKey), hname, (by decide : 58 ∉ dispositionKey)⟩, by decide⟩
  have hprompt : ∀ f ∈ fieldHeader (utf8 "prompt"), 13 ∉ f.1 ∧ 13 ∉ f.2 ∧ 58 ∉ f.1 := by decide
  have hfixed : ∀ p ∈ [fieldPart "temperature" "0", fieldPart "temperature_inc" "0.9",
      fieldPart "response_format" "json"], ∀ f ∈ p.header, 13 ∉ f.1 ∧ 13 ∉ f.2 ∧ 58 ∉ f.1 := by decide
  refine List.forall_mem_append.mpr ⟨List.forall_mem_append.mpr ⟨hfixed, fun p hp => ?_⟩,
    List.forall_mem_singleton.mpr hfile⟩
  split_ifs at hp
  · rw [List.mem_singleton.mp hp]
    exact hprompt
  · cases hp

theorem filename_filePart : (filePart clipID pcm).filename = some (wavName clipID) :=
  (names_fileHeader (by decide) (by decide) (not_mem_wavName clipID (Or.inr (Or.inl rfl)))
    (not_mem_wavName clipID (Or.inr (Or.inr rfl)))).2

/-- The prompt is in the form iff there is one. -/
theorem part?_prompt : (part? (formParts clipID prompt pcm) (utf8 "prompt")).map Part.content =
    if prompt = [] then none else some prompt := by
  by_cases h : prompt = []
  · subst h
    rfl
  · simp only [formParts, textParts, if_pos h, if_neg h]
    rfl

theorem part?_file : part? (formParts clipID prompt pcm) (utf8 "file") = some (filePart clipID pcm) := by
  by_cases h : prompt = []
  · subst h
    rfl
  · simp only [formParts, textParts, if_pos h]
    rfl

end Body

/-- **The streamed request carries exactly the clip**: the pieces of the body are the form that one writer would write, a
server that parses it finds the prompt and a WAV file with the PCM, and a clip that is too large has no body. -/
theorem multipart_body_exact (rand rand' : Vector UInt8 30) (clipID : Int) (prompt pcm : List UInt8) :
    (pcm.length ≤ 2 ^ 32 - 1 - 36 → ∃ pieces,
      multipartBodyReader rand rand' clipID prompt pcm = .ok (pieces, (newWriter rand).formDataContentType) ∧
      encode (randomBoundary rand) (formParts clipID prompt pcm) = .ok pieces.flatten ∧
      (wavHeader pcm.length).bytes.length = 44 ∧
      ((∀ p ∈ formParts clipID prompt pcm, ¬delimiter (randomBoundary rand) <:+: p.bytes) →
        ∃ ps file wav, parse (randomBoundary rand) pieces.flatten = some ps ∧ ps = formParts clipID prompt pcm ∧
          (part? ps (utf8 "prompt")).map Part.content = (if prompt = [] then none else some prompt) ∧
          part? ps (utf8 "file") = some file ∧ file.filename = some (wavName clipID) ∧
          parseWav file.content = some wav ∧ wav.Exact file.content pcm)) ∧
    (2 ^ 32 - 1 - 36 < pcm.length →
      multipartBodyReader rand rand' clipID prompt pcm = .error "pcm payload too large to encode") := by
  refine ⟨fun h => ?_, multipartBodyReader_tooLarge rand rand' clipID prompt pcm⟩
  obtain ⟨pieces, hpieces, hencode⟩ := multipartBodyReader_eq rand rand' clipID prompt pcm h
  refine ⟨pieces, hpieces, hencode, length_bytes_wavHeader _, fun hd => ?_⟩
  obtain ⟨wav, hwav, hexact⟩ := parseWav_wavFile h
  exact ⟨_, _, wav, parse_encode (not_mem_randomBoundary rand) hencode (readable_formParts clipID prompt pcm) hd, rfl,
    part?_prompt clipID prompt pcm, part?_file clipID prompt pcm, filename_filePart clipID pcm, hwav, hexact⟩

/-- Two samples and a prompt. -/
theorem multipart_body_exact_clip : ∃ pieces ps,
    multipartBodyReader (Vector.replicate 30 0) (Vector.replicate 30 1) 7 (utf8 "hi") [1, 0, 2, 0] =
      .ok (pieces, utf8 "multipart/form-data; boundary=" ++ List.replicate 60 48) ∧
    parse (List.replicate 60 48) pieces.flatten = some ps ∧
    (part? ps (utf8 "prompt")).map Part.content = some (utf8 "hi") ∧
    ∃ file wav, part? ps (utf8 "file") = some file ∧ file.filename = some (utf8 "7.wav") ∧
      parseWav file.content = some wav ∧ wav.Exact file.content [1, 0, 2, 0] := by
  obtain ⟨pieces, hpieces, -, -, hparse⟩ := (multipart_body_exact (Vector.replicate 30 0) (Vector.replicate 30 1) 7
    (utf8 "hi") [1, 0, 2, 0]).1 (by decide)
  obtain ⟨ps, file, wav, hps, -, hprompt, hrest⟩ := hparse (by decide +kernel)
  exact ⟨pieces, ps, hpieces, hps, hprompt, file, wav, hrest⟩

end Talk2Text.Whisper
