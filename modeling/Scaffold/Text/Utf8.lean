/-
**Bytes as text.**

UTF-8 is read byte by byte. Bytes that encode no character, encode one in more bytes than it needs,
or stop inside one, are no text.
-/

import Scaffold.Text.Basic

namespace Scaffold.Text

/-- A character that has begun: how many bytes are missing, the value so far, and what the next
byte may be. -/
structure Unfinished where
  missing : Nat
  value : Nat
  least : Nat
  greatest : Nat
  deriving DecidableEq, Repr

/-- A byte where a character starts: the character, or its beginning. -/
def startByte? (byte : Nat) : Option (Char ⊕ Unfinished) :=
  if byte < 0x80 then some (.inl (Char.ofNat byte))
  else if 0xC2 ≤ byte ∧ byte ≤ 0xDF then some (.inr ⟨1, byte - 0xC0, 0x80, 0xBF⟩)
  else if byte = 0xE0 then some (.inr ⟨2, 0, 0xA0, 0xBF⟩)
  else if byte = 0xED then some (.inr ⟨2, 0xD, 0x80, 0x9F⟩)
  else if 0xE1 ≤ byte ∧ byte ≤ 0xEF then some (.inr ⟨2, byte - 0xE0, 0x80, 0xBF⟩)
  else if byte = 0xF0 then some (.inr ⟨3, 0, 0x90, 0xBF⟩)
  else if 0xF1 ≤ byte ∧ byte ≤ 0xF3 then some (.inr ⟨3, byte - 0xF0, 0x80, 0xBF⟩)
  else if byte = 0xF4 then some (.inr ⟨3, 4, 0x80, 0x8F⟩)
  else none

/-- The next byte: the character that it finishes, or what is begun after it. -/
def nextByte? (begun : Option Unfinished) (byte : Nat) : Option (Char ⊕ Unfinished) :=
  match begun with
  | none => startByte? byte
  | some unfinished =>
    if unfinished.least ≤ byte ∧ byte ≤ unfinished.greatest then
      let value := unfinished.value * 64 + (byte - 0x80)
      if unfinished.missing ≤ 1 then some (.inl (Char.ofNat value))
      else some (.inr ⟨unfinished.missing - 1, value, 0x80, 0xBF⟩)
    else none

/-- The characters that bytes encode after the beginning of one, if one has begun. -/
def decodeFrom? : (begun : Option Unfinished) → List UInt8 → Option Text
  | none, [] => some []
  | some _, [] => none
  | begun, byte :: rest =>
    match nextByte? begun byte.toNat with
    | none => none
    | some (.inl char) => (decodeFrom? none rest).map (char :: ·)
    | some (.inr unfinished) => decodeFrom? (some unfinished) rest

/-- The text that bytes encode. -/
def decode? (bytes : List UInt8) : Option Text := decodeFrom? none bytes

end Scaffold.Text
