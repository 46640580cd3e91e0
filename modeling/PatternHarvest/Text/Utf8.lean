/-!
# Characters from bytes

`Utf8.encode` writes characters as UTF-8. `Utf8.decode` reads any bytes: what is no character is
replaced, each longest beginning of a character that is not finished by one replacement, each byte
that begins none by another. The reader is a machine that takes one byte at a time, so an ASCII
byte always stands for itself, whatever comes before it.
-/

namespace PatternHarvest.Text.Utf8

/-- Characters as UTF-8. -/
def encode (s : List Char) : List UInt8 :=
  s.flatMap String.utf8EncodeChar

/-- The bytes of a text. -/
def bytes (s : String) : List UInt8 :=
  encode s.toList

/-- The number of bytes that characters take. -/
def size : List Char → Nat
  | [] => 0
  | c :: s => c.utf8Size + size s

/-- The character that stands for bytes that are none. -/
def replacement : Char := '\uFFFD'

/-- A character of which the first bytes were read. -/
structure Started where
  /-- How many bytes are missing, but one. -/
  more : Nat
  /-- The least byte that may come next. -/
  low : UInt8
  /-- The greatest byte that may come next. -/
  high : UInt8
  /-- The bits of the bytes that were read. -/
  bits : Nat
  deriving DecidableEq, Repr

/-- What a byte does where a character may begin. -/
inductive First where
  | char (c : Char)
  | started (s : Started)
  /-- No character begins with the byte. -/
  | invalid
  deriving DecidableEq, Repr

/-- What a byte does where a character may begin. The bounds on the second byte keep out spellings
that are too long, halves of surrogate pairs, and numbers beyond the last character. -/
def first (b : UInt8) : First :=
  if b < 0x80 then .char (Char.ofNat b.toNat)
  else if b < 0xC2 then .invalid
  else if b < 0xE0 then .started ⟨0, 0x80, 0xBF, b.toNat % 0x20⟩
  else if b < 0xF0 then
    .started ⟨1, if b = 0xE0 then 0xA0 else 0x80, if b = 0xED then 0x9F else 0xBF, b.toNat % 0x10⟩
  else if b < 0xF5 then
    .started ⟨2, if b = 0xF0 then 0x90 else 0x80, if b = 0xF4 then 0x8F else 0xBF, b.toNat % 8⟩
  else .invalid

/-- Take a byte that continues a character into its bits. -/
def Started.push (s : Started) (b : UInt8) : Nat :=
  s.bits * 0x40 + b.toNat % 0x40

/-- The middle of a reading: the characters read, the last first, and the one that was begun. -/
structure Decoder where
  read : List Char := []
  pending : Option Started := none
  deriving DecidableEq, Repr

namespace Decoder

/-- Read a byte where a character may begin. -/
def begin (read : List Char) (b : UInt8) : Decoder :=
  match first b with
  | .char c => ⟨c :: read, none⟩
  | .started s => ⟨read, some s⟩
  | .invalid => ⟨replacement :: read, none⟩

/-- Read a byte. One that does not continue the character that was begun begins another. -/
def step (d : Decoder) (b : UInt8) : Decoder :=
  match d.pending with
  | none => begin d.read b
  | some s =>
    if s.low ≤ b ∧ b ≤ s.high then
      match s.more with
      | 0 => ⟨Char.ofNat (s.push b) :: d.read, none⟩
      | more + 1 => ⟨d.read, some ⟨more, 0x80, 0xBF, s.push b⟩⟩
    else begin (replacement :: d.read) b

/-- The characters read, one that is not finished being replaced. -/
def finish (d : Decoder) : List Char :=
  match d.pending with
  | none => d.read.reverse
  | some _ => (replacement :: d.read).reverse

end Decoder

/-- The characters that bytes stand for. -/
def decode (bs : List UInt8) : List Char :=
  (bs.foldl Decoder.step {}).finish

/-- The text that bytes stand for. -/
def text (bs : List UInt8) : String :=
  String.ofList (decode bs)

end PatternHarvest.Text.Utf8
