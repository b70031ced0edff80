/-!
# Request environments

`requestenv`: the environment values a request may supply, and the identifier that makes its sender the owner of a
recording. A request environment is a Go `map[string]string`: a list of members with distinct names, in the order in
which a `range` over the map happens to visit them.
-/

namespace Talk2Text

/-- A `map[string]string` with the order of one traversal. -/
abbrev Environment := List (String × String)

namespace RequestEnv

def sessionIDName : String := "TALK2TEXT_SESSION_ID"

def xdgSessionIDName : String := "XDG_SESSION_ID"

/-- `environment[name]`: the empty string when absent. -/
def get (environment : Environment) (name : String) : String := (environment.lookup name).getD ""

/-- `OriginID`: the request's recording owner identifier. -/
def originID (environment : Environment) : String :=
  let value := get environment sessionIDName
  if value ≠ "" then value else get environment xdgSessionIDName

/-! ## Validation -/

def outputTargetName : String := "TALK2TEXT_OUTPUT_TARGET"
def displayName : String := "DISPLAY"
def waylandDisplayName : String := "WAYLAND_DISPLAY"
def xAuthorityName : String := "XAUTHORITY"
def dbusSessionBusAddressName : String := "DBUS_SESSION_BUS_ADDRESS"
def xdgRuntimeDirName : String := "XDG_RUNTIME_DIR"
def xdgSessionTypeName : String := "XDG_SESSION_TYPE"
def xdgSessionDesktopName : String := "XDG_SESSION_DESKTOP"
def xdgCurrentDesktopName : String := "XDG_CURRENT_DESKTOP"

def maxEncodedEnvironmentBytes : Nat := 8192
def maxNameBytes : Nat := 256
def maxValueBytes : Nat := 4096

def predefinedNames : List String :=
  [sessionIDName, xdgSessionIDName, outputTargetName, displayName, waylandDisplayName, xAuthorityName,
    dbusSessionBusAddressName, xdgRuntimeDirName, xdgSessionTypeName, xdgSessionDesktopName, xdgCurrentDesktopName]

/-- The error of `ValidateName`. -/
def validateName (name : String) : Option String :=
  if name = "" then some "environment variable name must not be empty"
  else if maxNameBytes < name.utf8ByteSize then some s!"environment variable name exceeds {maxNameBytes} bytes"
  else if name.toList.any fun c => c = '=' || c = ',' || c = Char.ofNat 0 then
    some "environment variable name must not contain '=', comma, or NUL"
  else none

/-- The error of `ValidateValue`. -/
def validateValue (value : String) : Option String :=
  if maxValueBytes < value.utf8ByteSize then some s!"environment variable value exceeds {maxValueBytes} bytes"
  else if value.toList.any fun c => c = Char.ofNat 0 then some "environment variable value must not contain NUL"
  else none

/-- The error of `ValidateAllowed`: of the first member, in the order of the traversal, that is not allowed or has an
invalid value. -/
def validateAllowed (environment : Environment) (additional : List String) : Option String :=
  match environment with
  | [] => none
  | (name, value) :: rest =>
    if !(predefinedNames ++ additional).contains name then some ("environment variable " ++ name ++ " is not allowed")
    else
      match validateValue value with
      | some err => some ("environment variable " ++ name ++ " has invalid value: " ++ err)
      | none => validateAllowed rest additional

/-- **What `ValidateAllowed` accepts**: only allowed names, with valid values. -/
theorem validateAllowed_eq_none {environment : Environment} {additional : List String} :
    validateAllowed environment additional = none ↔
      ∀ m ∈ environment, m.1 ∈ predefinedNames ++ additional ∧ validateValue m.2 = none := by
  induction environment with
  | nil => simp [validateAllowed]
  | cons m rest ih =>
    obtain ⟨name, value⟩ := m
    rw [List.forall_mem_cons, ← ih, validateAllowed]
    by_cases hm : name ∈ predefinedNames ++ additional
    · have hc : (predefinedNames ++ additional).contains name = true := List.contains_iff_mem.mpr hm
      simp only [hc, Bool.not_true, Bool.false_eq_true, if_false, hm, true_and]
      cases validateValue value <;> simp
    · simp [hm]

/-- The predefined names are valid. -/
theorem validateName_predefined : ∀ name ∈ predefinedNames, validateName name = none := by decide +kernel

end RequestEnv

end Talk2Text
