import Xsmp.Text.Utf8

/-!
# Entries of an authority file

Clients find the cookie with which they may connect in an authority file. It is
a sequence of entries of five fields, and each field is its length in two bytes,
the high one first, and that many bytes. Three of the fields are text; bytes
that are no text are replaced when they are read. A field that is too long to
be written is cut.
-/

namespace Xsmp

/-- One entry of an authority file. -/
structure AuthorityEntry where
  protocolName : String
  protocolData : Bytes
  networkId : String
  authName : String
  authData : Bytes
  deriving DecidableEq

namespace AuthorityEntry

/-- The longest field, in bytes. -/
def maxField : Nat := 65535

def encodeField (value : Bytes) : Bytes :=
  let value := value.take maxField
  UInt8.ofNat (value.length / 256) :: UInt8.ofNat (value.length % 256) :: value

def encode (entry : AuthorityEntry) : Bytes :=
  encodeField (utf8 entry.protocolName) ++ encodeField entry.protocolData
    ++ encodeField (utf8 entry.networkId) ++ encodeField (utf8 entry.authName)
    ++ encodeField entry.authData

def encodeAll (entries : List AuthorityEntry) : Bytes := entries.flatMap encode

/-- Read one field and what follows it. -/
def field? : Bytes → Option (Bytes × Bytes)
  | high :: low :: rest =>
    let length := high.toNat * 256 + low.toNat
    let value := rest.take length
    if value.length < length then none else some (value, rest.drop length)
  | _ => none

/-- Read one entry and what follows it. -/
def decodeOne? (bytes : Bytes) : Option (AuthorityEntry × Bytes) := do
  let (protocolName, bytes) ← field? bytes
  let (protocolData, bytes) ← field? bytes
  let (networkId, bytes) ← field? bytes
  let (authName, bytes) ← field? bytes
  let (authData, bytes) ← field? bytes
  return ({
    protocolName := Utf8.decodeLossy protocolName
    protocolData
    networkId := Utf8.decodeLossy networkId
    authName := Utf8.decodeLossy authName
    authData }, bytes)

theorem length_of_field? {bytes value rest : Bytes} (h : field? bytes = some (value, rest)) :
    rest.length < bytes.length := by
  unfold field? at h
  split at h
  · simp only [Option.ite_none_left_eq_some, Option.some.injEq, Prod.mk.injEq] at h
    rw [← h.2.2]
    simp only [List.length_drop, List.length_cons]
    omega
  · simp at h

theorem length_of_decodeOne? {bytes rest : Bytes} {entry : AuthorityEntry}
    (h : decodeOne? bytes = some (entry, rest)) : rest.length < bytes.length := by
  simp only [decodeOne?, Option.bind_eq_bind, Option.bind_eq_some_iff, Prod.exists,
    Option.pure_def, Option.some.injEq, Prod.mk.injEq] at h
  obtain ⟨_, r₁, h₁, _, r₂, h₂, _, r₃, h₃, _, r₄, h₄, _, r₅, h₅, _, rfl⟩ := h
  have l₁ := length_of_field? h₁
  have l₂ := length_of_field? h₂
  have l₃ := length_of_field? h₃
  have l₄ := length_of_field? h₄
  have l₅ := length_of_field? h₅
  omega

/-- Read the entries of a file. There is no result if the last one is cut short. -/
def decodeAll? (bytes : Bytes) : Option (List AuthorityEntry) :=
  if bytes.isEmpty then some []
  else match h : decodeOne? bytes with
    | none => none
    | some (entry, rest) =>
      have := length_of_decodeOne? h
      (decodeAll? rest).map (entry :: ·)
termination_by bytes.length

end AuthorityEntry

end Xsmp
