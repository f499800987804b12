/-!
This module contains the lossy reading of bytes as UTF-8 text. Bytes that start no character, and
the longest beginning of a character that is then not completed, are read as one replacement
character each.
-/

namespace BringUp.Text.Utf8

def replacement : Char := '\ufffd'

/--
The beginning of a character: how many bytes are still owed, the range of the next one and the bits
read so far.
-/
structure Beginning where
  owed : Nat
  low : UInt8
  high : UInt8
  bits : Nat

inductive Lead where
  | char (c : Char)
  | beginning (p : Beginning)

/--
Classify the first byte of a character. The narrower ranges of the second byte keep out overlong
forms, surrogates and values above the last code point.
-/
def lead (b : UInt8) : Lead :=
  if b < 0x80 then .char (Char.ofNat b.toNat)
  else if b < 0xC2 then .char replacement
  else if b < 0xE0 then .beginning ⟨1, 0x80, 0xBF, b.toNat % 32⟩
  else if b = 0xE0 then .beginning ⟨2, 0xA0, 0xBF, 0⟩
  else if b = 0xED then .beginning ⟨2, 0x80, 0x9F, 13⟩
  else if b < 0xF0 then .beginning ⟨2, 0x80, 0xBF, b.toNat % 16⟩
  else if b = 0xF0 then .beginning ⟨3, 0x90, 0xBF, 0⟩
  else if b < 0xF4 then .beginning ⟨3, 0x80, 0xBF, b.toNat % 8⟩
  else if b = 0xF4 then .beginning ⟨3, 0x80, 0x8F, 4⟩
  else .char replacement

/--
Read bytes as text, with one replacement character for each maximal ill-formed part.
-/
def decodeLossy (bytes : List UInt8) : String :=
  String.ofList (go none bytes)
where
  go : Option Beginning → List UInt8 → List Char
    | none, [] => []
    | some _, [] => [replacement]
    | none, b :: bs =>
      match lead b with
      | .char c => c :: go none bs
      | .beginning p => go (some p) bs
    | some p, b :: bs =>
      if p.low ≤ b ∧ b ≤ p.high then
        let bits := p.bits * 64 + b.toNat % 64
        if p.owed ≤ 1 then Char.ofNat bits :: go none bs
        else go (some ⟨p.owed - 1, 0x80, 0xBF, bits⟩) bs
      else
        match lead b with
        | .char c => replacement :: c :: go none bs
        | .beginning q => replacement :: go (some q) bs

def encode (text : String) : List UInt8 :=
  text.toUTF8.toList

end BringUp.Text.Utf8
