/-!
# Reading text from bytes that may not be text

A message comes from a library as bytes. Well-formed UTF-8 is read as it is; each
longest piece of a broken sequence, or a byte that starts none, becomes one
replacement character, and reading goes on at the next byte.

`Lead.ofByte?` says what may follow a first byte: how many continuation bytes, and
the range of the first of them (which keeps out overlong forms, surrogates and code
points past the last one).
-/

namespace DiffTensor.Text.Utf8

/-- What a byte that starts a longer sequence asks for. -/
structure Lead where
  /-- The bits that the first byte contributes. -/
  bits : Nat
  /-- How many bytes have to follow. -/
  following : Nat
  /-- The range of the first byte that follows. -/
  low : Nat
  high : Nat
  deriving DecidableEq, Repr

/-- The demands of a byte that starts a sequence of two to four bytes. -/
def Lead.ofByte? (b : Nat) : Option Lead :=
  if 0xC2 ≤ b ∧ b ≤ 0xDF then some ⟨b - 0xC0, 1, 0x80, 0xBF⟩
  else if b = 0xE0 then some ⟨0, 2, 0xA0, 0xBF⟩
  else if b = 0xED then some ⟨0xD, 2, 0x80, 0x9F⟩
  else if 0xE1 ≤ b ∧ b ≤ 0xEF then some ⟨b - 0xE0, 2, 0x80, 0xBF⟩
  else if b = 0xF0 then some ⟨0, 3, 0x90, 0xBF⟩
  else if 0xF1 ≤ b ∧ b ≤ 0xF3 then some ⟨b - 0xF0, 3, 0x80, 0xBF⟩
  else if b = 0xF4 then some ⟨4, 3, 0x80, 0x8F⟩
  else none

/-- A sequence that is being read: the code point so far, the bytes still missing, and the
range that the next one has to lie in. -/
structure Pending where
  point : Nat
  missing : Nat
  low : Nat
  high : Nat
  deriving DecidableEq, Repr

/-- The character that stands for what cannot be read. -/
def replacement : Char := '\uFFFD'

/-- Takes a byte that starts a new character. -/
def start (b : Nat) : List Char × Option Pending :=
  if b < 0x80 then ([Char.ofNat b], none)
  else
    match Lead.ofByte? b with
    | some lead => ([], some ⟨lead.bits, lead.following, lead.low, lead.high⟩)
    | none => ([replacement], none)

/-- Takes one byte: the characters that it finishes, and the sequence that is open afterwards. -/
def take (open? : Option Pending) (b : Nat) : List Char × Option Pending :=
  match open? with
  | none => start b
  | some p =>
    if p.low ≤ b ∧ b ≤ p.high then
      let point := p.point * 64 + (b - 0x80)
      if p.missing ≤ 1 then ([Char.ofNat point], none)
      else ([], some ⟨point, p.missing - 1, 0x80, 0xBF⟩)
    else
      let (finished, next) := start b
      (replacement :: finished, next)

/-- Reads the rest of the bytes after an unfinished sequence. -/
def decodeFrom (open? : Option Pending) : List UInt8 → List Char
  | [] => if open?.isSome then [replacement] else []
  | b :: bytes =>
    let (finished, next) := take open? b.toNat
    finished ++ decodeFrom next bytes

/-- The text of a list of bytes; what is not well-formed is replaced. -/
def decode (bytes : List UInt8) : String := String.ofList (decodeFrom none bytes)

/-- The bytes of a text. -/
def encode (s : String) : List UInt8 := s.toUTF8.toList

end DiffTensor.Text.Utf8
