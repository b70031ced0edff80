import Talk2Text.Json.Struct
import Talk2Text.Util.Text

/-!
# The answer of Whisper

`whisper.Client.Transcribe` from the response on: which answers give a text, and which text.

- `transcribe_ok_iff`: an answer gives a text iff its status is that of a success, it arrives in full, and it is an object
  whose text is a string; the text is the words of that string.
-/

namespace Talk2Text.Whisper

open Format Json Util

/-- `http.Response`; `status` is its status line. -/
structure HttpResponse where
  statusCode : Int
  status : String
  body : Reader
  deriving DecidableEq, Repr

def maxErrorBodyBytes : Nat := 256

/-- The errors of `Transcribe` from the request on. -/
inductive TranscribeError
  /-- The error of `client.Do`. -/
  | request (err : String)
  | status (status : String) (body : List UInt8)
  | read (err : Ending)
  | parse (err : Error)
  | missingText
  deriving DecidableEq, Repr

/-- The texts of the errors; `endingText` and `jsonText` give those of the connection and of `encoding/json`. -/
def TranscribeError.text (endingText : Ending → String) (jsonText : Error → String) : TranscribeError → List UInt8
  | .request err => utf8 ("failed to send request or receive response: " ++ err)
  | .status line body => utf8 ("whisper returned " ++ line ++ ": ") ++ body
  | .read err => utf8 ("failed to read response body: " ++ endingText err)
  | .parse err => utf8 ("failed to parse response: " ++ jsonText err)
  | .missingText => utf8 "whisper response missing text"

/-- The only field of the response, a pointer to a string. -/
def textField : Json.Field (Option String) where
  name := "text"
  store r
    | .string s => (some s, none)
    | .null => (none, none)
    | v => (some (r.getD ""), typeError v "string")

/-- The type of the response. -/
def textStruct : String := "struct \x7b Text *string \"json:\\\"text\\\"\" \x7d"

/-- `json.Unmarshal` into the response. -/
def decodeText (respBody : List UInt8) : Except Error (Option String) :=
  unmarshal respBody >>= unmarshalStruct [textField] none textStruct

/-- `io.ReadAll`. -/
def readAll (r : Reader) : Except Ending (List UInt8) :=
  match r.ending with
  | .eof => .ok r.data
  | ending => .error ending

/-- `Transcribe`, from the response on. -/
def transcribe (response : Except String HttpResponse) : Except TranscribeError String :=
  match response with
  | .error err => .error (.request err)
  | .ok resp =>
    if resp.statusCode < 200 ∨ 300 ≤ resp.statusCode then
      .error (.status resp.status (resp.body.data.take maxErrorBodyBytes))
    else
      match readAll resp.body with
      | .error err => .error (.read err)
      | .ok respBody =>
        match decodeText respBody with
        | .error err => .error (.parse err)
        | .ok none => .error .missingText
        | .ok (some text) => .ok (collapseSpace text)

/-! ## Which text -/

/-- The member is stored in the field. -/
def isText (m : String × Value) : Bool := foldedName "text" = foldedName m.1

/-- The values for the field, in order. -/
def textValues (ms : List (String × Value)) : List Value := (ms.filter isText).map Prod.snd

/-- A value that can be stored. -/
def Storable (v : Value) : Prop := v = .null ∨ ∃ s, v = .string s

/-- The string that a value stores. -/
def stringOf : Value → Option String
  | .string s => some s
  | _ => none

/-- The last value is the string `s`; `r` is what is there without a value. -/
def EndsWith (r : Option String) (vs : List Value) (s : String) : Prop :=
  vs.getLast?.elim (r = some s) fun v => v = .string s

section Members

variable {r : Option String} {e : Error} {m : String × Value} {ms : List (String × Value)} {v : Value} {vs : List Value}
  {s : String}

theorem findField_text (m : String × Value) :
    findField [textField] m.1 = if isText m then some textField else none := by
  have hfold : ([textField].find? fun f => foldedName f.name = foldedName m.1) =
      if isText m then some textField else none := by
    rw [isText]
    by_cases h : foldedName "text" = foldedName m.1
    · rw [if_pos (decide_eq_true h)]
      exact List.find?_cons_of_pos (decide_eq_true h)
    · rw [if_neg (by simpa using h)]
      exact List.find?_cons_of_neg (by rw [decide_eq_true_eq]; exact h)
  rw [findField, hfold]
  by_cases hname : "text" = m.1
  · have hexact : ([textField].find? fun f => f.name = m.1) = some textField :=
      List.find?_cons_of_pos (decide_eq_true hname)
    rw [hexact, Option.some_or, if_pos (by rw [isText, hname]; exact decide_eq_true rfl)]
  · have hexact : ([textField].find? fun f => f.name = m.1) = none :=
      List.find?_cons_of_neg (by rw [decide_eq_true_eq]; exact hname)
    rw [hexact, Option.none_or]

/-- The first error stays. -/
theorem storeMembers_error (r : Option String) (ms : List (String × Value)) :
    (storeMembers [textField] r (some e) ms).2 = some e := by
  induction ms generalizing r with
  | nil => rfl
  | cons m ms ih =>
    rw [storeMembers]
    split
    · exact ih r
    · exact ih _

theorem endsWith_cons : EndsWith r (v :: vs) s ↔ EndsWith (stringOf v) vs s := by
  rw [EndsWith, List.getLast?_cons, EndsWith]
  cases vs.getLast? with
  | none => cases v <;> simp [stringOf]
  | some w => rfl

/-- **What is stored**: the last value, if all are strings or null. -/
theorem storeMembers_text : storeMembers [textField] r none ms = (some s, none) ↔
    (∀ v ∈ textValues ms, Storable v) ∧ EndsWith r (textValues ms) s := by
  induction ms generalizing r with
  | nil =>
    rw [storeMembers]
    simp [textValues, EndsWith]
  | cons m ms ih =>
    rw [storeMembers, findField_text, textValues]
    by_cases ht : isText m = true
    · rw [if_pos ht, List.filter_cons_of_pos ht, List.map_cons, List.forall_mem_cons, endsWith_cons]
      obtain ⟨name, v⟩ := m
      -- a value of another type is an error, which stays
      have hother : ∀ e, (textField.store r v).2 = some e → ¬Storable v →
          (storeMembers [textField] (textField.store r v).1 (Option.or none (textField.store r v).2) ms =
              (some s, none) ↔
            (Storable v ∧ ∀ v ∈ textValues ms, Storable v) ∧ EndsWith (stringOf v) (textValues ms) s) := by
        intro e he hv
        refine ⟨fun h => ?_, fun h => absurd h.1.1 hv⟩
        rw [he, Option.none_or] at h
        have herr := storeMembers_error (e := e) (textField.store r v).1 ms
        rw [h] at herr
        cases herr
      cases v with
      | string s' =>
        have hv : Storable (.string s') := .inr ⟨s', rfl⟩
        exact (ih (r := some s')).trans ⟨fun h => ⟨⟨hv, h.1⟩, h.2⟩, fun h => ⟨h.1.2, h.2⟩⟩
      | null =>
        have hv : Storable .null := .inl rfl
        exact (ih (r := none)).trans ⟨fun h => ⟨⟨hv, h.1⟩, h.2⟩, fun h => ⟨h.1.2, h.2⟩⟩
      | bool | number | array | object => exact hother _ rfl (by rintro (h | ⟨s, h⟩) <;> cases h)
    · rw [if_neg ht, List.filter_cons_of_neg ht]
      exact ih

theorem endsWith_none : EndsWith none vs s ↔ vs.getLast? = some (.string s) := by
  rw [EndsWith]
  cases vs.getLast? with
  | none => simp
  | some v => simp

/-- The text is the words of `s`. -/
theorem eq_collapseSpace_iff {text : String} :
    collapseSpace s = text ↔ fields text.toList = fields s.toList ∧ collapseSpace text = text := by
  constructor
  · rintro rfl
    exact ⟨fields_collapseSpace s, collapseSpace_idem s⟩
  · rintro ⟨hfields, hcollapse⟩
    rw [← hcollapse, collapseSpace, ← hfields, collapseSpace]

theorem decodeText_some {respBody : List UInt8} : decodeText respBody = .ok (some s) ↔
    ∃ ms, unmarshal respBody = .ok (.object ms) ∧ (∀ v ∈ textValues ms, Storable v) ∧
      (textValues ms).getLast? = some (.string s) := by
  have hobject : ∀ ms, unmarshalStruct [textField] none textStruct (.object ms) = .ok (some s) ↔
      (∀ v ∈ textValues ms, Storable v) ∧ (textValues ms).getLast? = some (.string s) := by
    intro ms
    rw [← endsWith_none, ← storeMembers_text, unmarshalStruct]
    rcases storeMembers [textField] none none ms with ⟨r, _ | e⟩
    · simp
    · simp
  rw [decodeText]
  cases hu : unmarshal respBody with
  | error e =>
    constructor
    · intro h
      cases h
    · rintro ⟨ms, h, -⟩
      cases h
  | ok v =>
    show unmarshalStruct [textField] none textStruct v = _ ↔ _
    cases v with
    | object ms =>
      rw [hobject]
      constructor
      · exact fun h => ⟨ms, rfl, h⟩
      · rintro ⟨ms', h, h'⟩
        cases h
        exact h'
    | null | bool | number | string | array =>
      constructor
      · intro h
        cases h
      · rintro ⟨ms, h, -⟩
        cases h

end Members

/-- The text of an answer. -/
theorem transcribe_eq_ok {response : Except String HttpResponse} {text : String} :
    transcribe response = .ok text ↔
      ∃ resp ms s, response = .ok resp ∧ 200 ≤ resp.statusCode ∧ resp.statusCode < 300 ∧ resp.body.ending = .eof ∧
        unmarshal resp.body.data = .ok (.object ms) ∧ (∀ v ∈ textValues ms, Storable v) ∧
        (textValues ms).getLast? = some (.string s) ∧ collapseSpace s = text := by
  cases response with
  | error err =>
    constructor
    · intro h
      cases h
    · rintro ⟨resp, ms, s, h, -⟩
      cases h
  | ok resp =>
    have hbody : ∀ body, (match decodeText body with
        | .error err => Except.error (TranscribeError.parse err)
        | .ok none => .error .missingText
        | .ok (some text) => .ok (collapseSpace text)) = .ok text ↔
        ∃ s, decodeText body = .ok (some s) ∧ collapseSpace s = text := by
      intro body
      rcases decodeText body with e | _ | s
      · simp
      · simp
      · simp
    rw [transcribe]
    by_cases hstatus : resp.statusCode < 200 ∨ 300 ≤ resp.statusCode
    · rw [if_pos hstatus]
      constructor
      · intro h
        cases h
      · rintro ⟨resp', ms, s, h, hlo, hhi, -⟩
        cases h
        omega
    · rw [if_neg hstatus]
      have hread : resp.body.ending ≠ .eof → ∃ err, readAll resp.body = .error err := by
        intro hne
        rw [readAll]
        cases he : resp.body.ending with
        | eof => exact absurd he hne
        | timeout => exact ⟨_, rfl⟩
        | failed err => exact ⟨_, rfl⟩
      by_cases hend : resp.body.ending = .eof
      · have hall : readAll resp.body = .ok resp.body.data := by rw [readAll, hend]
        rw [hall]
        refine (hbody resp.body.data).trans ?_
        constructor
        · rintro ⟨s, hs, htext⟩
          obtain ⟨ms, hms⟩ := decodeText_some.mp hs
          exact ⟨resp, ms, s, rfl, by omega, by omega, hend, hms.1, hms.2.1, hms.2.2, htext⟩
        · rintro ⟨resp', ms, s, h, -, -, -, hu, hv, hlast, htext⟩
          cases h
          exact ⟨s, decodeText_some.mpr ⟨ms, hu, hv, hlast⟩, htext⟩
      · obtain ⟨err, herr⟩ := hread hend
        rw [herr]
        constructor
        · intro h
          cases h
        · rintro ⟨resp', ms, s, h, -, -, he, -⟩
          cases h
          exact absurd he hend

/-- A text is collapsed. -/
theorem collapsed_of_transcribe {response : Except String HttpResponse} {text : String}
    (h : transcribe response = .ok text) : collapseSpace text = text := by
  obtain ⟨resp, ms, s, -, -, -, -, -, -, -, rfl⟩ := transcribe_eq_ok.mp h
  exact collapseSpace_idem s

/-- **Which answers give a text**: the status is that of a success, the body arrives in full and is an object in which
all values for the text are strings or null, and the last one is a string. The text is the words of that string, with
single spaces in between. -/
theorem transcribe_ok_iff (response : Except String HttpResponse) (text : String) :
    transcribe response = .ok text ↔
      ∃ resp ms s, response = .ok resp ∧ 200 ≤ resp.statusCode ∧ resp.statusCode < 300 ∧ resp.body.ending = .eof ∧
        unmarshal resp.body.data = .ok (.object ms) ∧ (∀ v ∈ textValues ms, Storable v) ∧
        (textValues ms).getLast? = some (.string s) ∧ fields text.toList = fields s.toList ∧
        collapseSpace text = text := by
  rw [transcribe_eq_ok]
  constructor
  · rintro ⟨resp, ms, s, hresp, hlo, hhi, heof, hbody, hstorable, hlast, htext⟩
    exact ⟨resp, ms, s, hresp, hlo, hhi, heof, hbody, hstorable, hlast, eq_collapseSpace_iff.mp htext⟩
  · rintro ⟨resp, ms, s, hresp, hlo, hhi, heof, hbody, hstorable, hlast, htext⟩
    exact ⟨resp, ms, s, hresp, hlo, hhi, heof, hbody, hstorable, hlast, eq_collapseSpace_iff.mpr htext⟩

end Talk2Text.Whisper
