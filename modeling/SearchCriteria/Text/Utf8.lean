/-!
# Texts as bytes

The UTF-8 form of a text, and back. Where bytes are not well formed, each longest
run of them that begins like a character, or else a single byte, is one fault.
-/

namespace SearchCriteria.Text.Utf8

/-- A character whose first bytes have been read. -/
structure Sequence where
  /-- The bits read so far. -/
  bits : Nat
  /-- How many bytes follow. -/
  missing : Nat
  /-- The least next byte. -/
  low : UInt8
  /-- The greatest next byte. -/
  high : UInt8

/-- What a byte begins. -/
inductive Lead where
  | character (c : Char)
  | sequence (sequence : Sequence)
  | fault

/-- What a byte begins. The second byte is bounded so that each character has one
form, and so that surrogates and numbers beyond Unicode have none. -/
def lead (byte : UInt8) : Lead :=
  if byte < 0x80 then .character (Char.ofNat byte.toNat)
  else if byte < 0xc2 then .fault
  else if byte < 0xe0 then .sequence ⟨byte.toNat - 0xc0, 1, 0x80, 0xbf⟩
  else if byte < 0xf0 then
    .sequence ⟨byte.toNat - 0xe0, 2, if byte = 0xe0 then 0xa0 else 0x80,
      if byte = 0xed then 0x9f else 0xbf⟩
  else if byte < 0xf5 then
    .sequence ⟨byte.toNat - 0xf0, 3, if byte = 0xf0 then 0x90 else 0x80,
      if byte = 0xf4 then 0x8f else 0xbf⟩
  else .fault

/-- The characters of bytes that follow those of an open sequence, with `none` for
each fault. -/
def decodeFrom : Option Sequence → List UInt8 → List (Option Char)
  | none, [] => []
  | some _, [] => [none]
  | none, byte :: rest =>
    match lead byte with
    | .character c => some c :: decodeFrom none rest
    | .sequence sequence => decodeFrom (some sequence) rest
    | .fault => none :: decodeFrom none rest
  | some sequence, byte :: rest =>
    if sequence.low ≤ byte ∧ byte ≤ sequence.high then
      let bits := 64 * sequence.bits + (byte.toNat - 0x80)
      if sequence.missing ≤ 1 then some (Char.ofNat bits) :: decodeFrom none rest
      else decodeFrom (some ⟨bits, sequence.missing - 1, 0x80, 0xbf⟩) rest
    else
      none :: match lead byte with
        | .character c => some c :: decodeFrom none rest
        | .sequence sequence => decodeFrom (some sequence) rest
        | .fault => none :: decodeFrom none rest

/-- The characters of bytes, with `none` for each fault. -/
def decode (bytes : List UInt8) : List (Option Char) := decodeFrom none bytes

/-- The bytes of a text. -/
def encode (text : String) : List UInt8 := text.toList.flatMap String.utf8EncodeChar

/-- The text of well-formed bytes. -/
def text? (bytes : List UInt8) : Option String :=
  ((decode bytes).mapM id).map String.ofList

/-- The text of bytes, with the replacement character for each fault. -/
def lossyText (bytes : List UInt8) : String :=
  String.ofList ((decode bytes).map (·.getD '\ufffd'))

end SearchCriteria.Text.Utf8
