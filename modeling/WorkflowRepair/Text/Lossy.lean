/-!
# Reading bytes as text

Bytes that should be UTF-8 but may not be. `decodeLossy` puts the replacement character in place of
every longest piece that could still have begun a character; `decode?` refuses such bytes.
-/

namespace WorkflowRepair.Text

/-- The replacement character. -/
def replacement : Char := Char.ofNat 0xFFFD

/-- Whether a byte continues a character. -/
def isContinuation (b : UInt8) : Bool := 0x80 ≤ b && b ≤ 0xBF

/-- The bytes that may follow `lead` in a character: their range, and how many bytes follow in
all. None if `lead` begins no longer character. -/
def followers? (lead : UInt8) : Option (UInt8 × UInt8 × Nat) :=
  if 0xC2 ≤ lead && lead ≤ 0xDF then some (0x80, 0xBF, 1)
  else if lead == 0xE0 then some (0xA0, 0xBF, 2)
  else if lead == 0xED then some (0x80, 0x9F, 2)
  else if 0xE1 ≤ lead && lead ≤ 0xEF then some (0x80, 0xBF, 2)
  else if lead == 0xF0 then some (0x90, 0xBF, 3)
  else if lead == 0xF4 then some (0x80, 0x8F, 3)
  else if 0xF1 ≤ lead && lead ≤ 0xF3 then some (0x80, 0xBF, 3)
  else none

/-- The part of a code point that a lead byte carries, when `following` bytes come after it. -/
def leadBits (lead : UInt8) (following : Nat) : Nat := lead.toNat % Nat.pow 2 (6 - following)

/-- The character that begins with `lead`, or the replacement character, and how many of the bytes
behind `lead` it takes. -/
def decodeStep (lead : UInt8) (behind : List UInt8) : Char × Nat :=
  if lead < 0x80 then (Char.ofNat lead.toNat, 0)
  else match followers? lead with
    | none => (replacement, 0)
    | some (low, high, following) =>
      match behind with
      | [] => (replacement, 0)
      | second :: rest =>
        if low ≤ second && second ≤ high then
          let tail := (rest.take (following - 1)).takeWhile isContinuation
          if tail.length + 1 = following then
            (Char.ofNat ((second :: tail).foldl (fun n b => n * 64 + b.toNat % 64)
              (leadBits lead following)), following)
          else (replacement, tail.length + 1)
        else (replacement, 0)

/-- Decode, passing over the next `skip` bytes, which belong to a character already decoded. -/
def decodeFrom : (skip : Nat) → List UInt8 → List Char
  | _, [] => []
  | skip + 1, _ :: rest => decodeFrom skip rest
  | 0, b :: rest =>
    let (c, length) := decodeStep b rest
    c :: decodeFrom length rest

/-- The text of bytes that may not be UTF-8. -/
def decodeLossy (bytes : List UInt8) : String := String.ofList (decodeFrom 0 bytes)

/-- The text of bytes that are UTF-8. -/
def decode? (bytes : List UInt8) : Option String := String.fromUTF8? ⟨bytes.toArray⟩

/-- The bytes of a text. -/
def encode (s : String) : List UInt8 := s.toUTF8.data.toList

end WorkflowRepair.Text
