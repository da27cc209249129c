import RtmpEndpoint.Bytes

/-!
# UTF-8

Text travels as UTF-8. Reading either gives the text or says where the first ill-formed sequence
starts and how many of its bytes could still have begun a character.
-/

namespace RtmpEndpoint.Utf8

/-- Where well-formed text ends. `length` is missing when the bytes end inside a character. -/
structure Fault where
  validUpTo : Nat
  length : Option Nat
  deriving DecidableEq, Repr

def Fault.message (fault : Fault) : String :=
  match fault.length with
  | some n =>
    "invalid utf-8 sequence of " ++ toString n ++ " bytes from index " ++ toString fault.validUpTo
  | none => "incomplete utf-8 byte sequence from index " ++ toString fault.validUpTo

/-- A character that has begun: where it starts, how many of its bytes were read, how many are
owed, and the range of the next one. -/
structure Begun where
  start : Nat
  read : Nat
  owed : Nat
  low : UInt8
  high : UInt8

/-- What a first byte announces: nothing valid, a whole character, or a longer one. -/
inductive Lead where
  | invalid
  | whole
  | long (owed : Nat) (low high : UInt8)

/-- The second byte of some characters has a narrower range, which rules out overlong forms,
surrogates and code points past the last one. -/
def Lead.ofByte (b : UInt8) : Lead :=
  if b < 0x80 then .whole
  else if b < 0xC2 then .invalid
  else if b < 0xE0 then .long 1 0x80 0xBF
  else if b = 0xE0 then .long 2 0xA0 0xBF
  else if b = 0xED then .long 2 0x80 0x9F
  else if b < 0xF0 then .long 2 0x80 0xBF
  else if b = 0xF0 then .long 3 0x90 0xBF
  else if b < 0xF4 then .long 3 0x80 0xBF
  else if b = 0xF4 then .long 3 0x80 0x8F
  else .invalid

/-- The first fault at or after `index`. -/
def scan : Option Begun → Nat → Bytes → Option Fault
  | none, _, [] => none
  | some c, _, [] => some ⟨c.start, none⟩
  | none, index, b :: rest =>
    match Lead.ofByte b with
    | .invalid => some ⟨index, some 1⟩
    | .whole => scan none (index + 1) rest
    | .long owed low high => scan (some ⟨index, 1, owed, low, high⟩) (index + 1) rest
  | some c, index, b :: rest =>
    if c.low ≤ b ∧ b ≤ c.high then
      if c.owed = 1 then scan none (index + 1) rest
      else scan (some ⟨c.start, c.read + 1, c.owed - 1, 0x80, 0xBF⟩) (index + 1) rest
    else some ⟨c.start, some c.read⟩

def encode (text : String) : Bytes := text.toUTF8.data.toList

def decode (bytes : Bytes) : Except Fault String :=
  match String.fromUTF8? ⟨bytes.toArray⟩ with
  | some text => .ok text
  | none => .error ((scan none 0 bytes).getD ⟨0, some 1⟩)

/-- Writing a text and reading it gives the text. -/
theorem decode_encode (text : String) : decode (encode text) = .ok text := by
  have h : String.fromUTF8? ⟨(encode text).toArray⟩ = some text := by
    simp [encode, String.fromUTF8?, String.fromUTF8, text.isValidUTF8]
  simp [decode, h]

/-- Only the written form of a text reads as that text. -/
theorem encode_of_decode {bytes : Bytes} {text : String} (h : decode bytes = .ok text) :
    encode text = bytes := by
  unfold decode at h
  split at h
  · next t ht =>
    cases h
    simp only [String.fromUTF8?] at ht
    split at ht
    · cases ht
      simp [encode, String.fromUTF8]
    · cases ht
  · cases h

end RtmpEndpoint.Utf8
