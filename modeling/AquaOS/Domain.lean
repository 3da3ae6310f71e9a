import AquaOS.Timeline

/-! Identifiers, errors and the scalar types shared by the modelled packages.
Strings are Go's byte strings seen through their UTF-8 bytes. -/
namespace AquaOS
namespace Domain

abbrev CommandID := String
abbrev CorrelationID := String
abbrev EquipmentID := String
abbrev EntityID := String
abbrev OverrideID := String
abbrev RuleID := String
abbrev AlarmID := String
abbrev EndpointID := String
abbrev DeviceID := String
abbrev SensorID := String

/-- A canonical-state revision, `uint64` in the source. -/
abbrev Revision := ℕ

inductive Failure
  | message (text : String)
  | quoted (context value : String)
  | wrapped (context : String) (cause : Failure)
  | stateNotFound | commandNotFound | conflict | invalidTransition
  | external (text : String)
  deriving DecidableEq

/-- `errors.Is(err, state.ErrNotFound)`, which looks through wrapping. -/
def Failure.isStateNotFound : Failure → Bool
  | .stateNotFound => true
  | .wrapped _ cause => cause.isStateNotFound
  | _ => false

def bytes (s : String) : List UInt8 := s.toUTF8.data.toList

theorem bytes_append (s t : String) : bytes (s++t) = bytes s++bytes t := by
  simp [bytes,String.toUTF8,String.toByteArray_append]

theorem bytes_inj {s t : String} (h : bytes s = bytes t) : s = t := by
  rw [← String.toByteArray_inj]
  exact ByteArray.ext (Array.toList_inj.mp h)

theorem bytes_ofList (l : List Char) :
    bytes (String.ofList l) = l.flatMap String.utf8EncodeChar := by
  simp [bytes,String.toUTF8,List.utf8Encode]

theorem utf8EncodeChar_ascii {c : Char} (h : c.toNat < 128) :
    String.utf8EncodeChar c = [UInt8.ofNat c.toNat] := by
  unfold String.utf8EncodeChar
  exact if_pos (Nat.le_of_lt_succ h)

/-- An ASCII character of a text is one of its bytes. -/
theorem mem_bytes {s : String} {c : Char} (hc : c.toNat < 128) (h : c ∈ s.toList) :
    UInt8.ofNat c.toNat ∈ bytes s := by
  have hs : bytes s = s.toList.flatMap String.utf8EncodeChar := by
    rw [← bytes_ofList,String.ofList_toList]
  rw [hs,List.mem_flatMap]
  exact ⟨c,h,by rw [utf8EncodeChar_ascii hc]; exact List.mem_singleton_self _⟩

def hyphen : UInt8 := 0x2d

def isHexDigit (b : UInt8) : Bool :=
  (0x30 ≤ b && b ≤ 0x39) || (0x61 ≤ b && b ≤ 0x66) || (0x41 ≤ b && b ≤ 0x46)

/-- `hex.DecodeString` succeeds on an even number of hexadecimal digits. -/
def hexDecodes (value : List UInt8) : Bool := value.length % 2 == 0 && value.all isHexDigit

def uuidFailure : Failure := .message "must be a canonical RFC 4122 UUID"

/-- Four fixed hyphens are required; the hexadecimal test runs after every hyphen,
wherever it stands, has been dropped. -/
def validateUUID (value : List UInt8) : Option Failure :=
  if value.length ≠ 36 ∨ value[8]? ≠ some hyphen ∨ value[13]? ≠ some hyphen ∨
      value[18]? ≠ some hyphen ∨ value[23]? ≠ some hyphen then some uuidFailure
  else if hexDecodes (value.filter (· ≠ hyphen)) then none
  else some uuidFailure

/-- Every identifier type validates its text the same way. -/
def validateID (id : String) : Option Failure := validateUUID (bytes id)

/-- Capabilities of devices and equipment; any text can be configured. -/
inductive Capability
  | observe | switch | variableOutput | commandAcknowledgement | reportedState | powerTelemetry
  | other (text : String)
  deriving DecidableEq

def Capability.validate : Capability → Option Failure
  | .other text => some (.quoted "unsupported capability" text)
  | _ => none

def Capability.text : Capability → String
  | .observe => "observe"
  | .switch => "switch"
  | .variableOutput => "variable-output"
  | .commandAcknowledgement => "command-acknowledgement"
  | .reportedState => "reported-state"
  | .powerTelemetry => "power-telemetry"
  | .other text => text

/-- The loop of `ValidateCapabilities`, with the capabilities already seen. -/
def validateDistinct (seen : List Capability) : List Capability → Option Failure
  | [] => none
  | c::cs =>
    match c.validate with
    | some e => some e
    | none =>
      if c ∈ seen then some (.quoted "duplicate capability" c.text)
      else validateDistinct (c::seen) cs

def validateCapabilities (values : List Capability) : Option Failure :=
  if values = [] then some (.message "at least one capability is required")
  else validateDistinct [] values

def supportsAll (available required : List Capability) : Bool :=
  required.all (· ∈ available)

inductive Quality
  | good | suspect | stale | invalid | unavailable
  deriving DecidableEq

end Domain
end AquaOS
