/-!
# UTF-8 — bytes that may not be text

`decode?` accepts exactly well-formed UTF-8.  `decodeLossy` reads any bytes: each longest piece that
could have begun a character but did not become one is shown as the replacement character.
-/
namespace Phrasebook.Text.Utf8

/-- The text that the bytes encode, if they are well-formed UTF-8. -/
def decode? (bytes : ByteArray) : Option String := String.fromUTF8? bytes

/-! ## One byte at a time

Between bytes the machine knows the bits read so far, how many continuation bytes it still owes,
and between which bounds the next one must lie; the bounds keep out overlong forms, surrogates and
values above U+10FFFF. -/

structure Partial where
  bits  : Nat
  owed  : Nat
  least : Nat
  most  : Nat

/-- What a byte means where a character may begin. -/
inductive Lead where
  | character (c : Char)
  | opens (p : Partial)
  | stray

def lead (b : Nat) : Lead :=
  if b ≤ 0x7F then .character (Char.ofNat b)
  else if b < 0xC2 then .stray
  else if b ≤ 0xDF then .opens ⟨b - 0xC0, 1, 0x80, 0xBF⟩
  else if b = 0xE0 then .opens ⟨0, 2, 0xA0, 0xBF⟩
  else if b = 0xED then .opens ⟨0xD, 2, 0x80, 0x9F⟩
  else if b ≤ 0xEF then .opens ⟨b - 0xE0, 2, 0x80, 0xBF⟩
  else if b = 0xF0 then .opens ⟨0, 3, 0x90, 0xBF⟩
  else if b ≤ 0xF3 then .opens ⟨b - 0xF0, 3, 0x80, 0xBF⟩
  else if b = 0xF4 then .opens ⟨4, 3, 0x80, 0x8F⟩
  else .stray

/-- Stands for a piece of input that is no character. -/
def replacement : Char := '\uFFFD'

/-- The characters read so far, newest first, and the character that is under way. -/
structure State where
  read    : List Char
  pending : Option Partial

def begin (read : List Char) (b : Nat) : State :=
  match lead b with
  | .character c => ⟨c :: read, none⟩
  | .opens p     => ⟨read, some p⟩
  | .stray       => ⟨replacement :: read, none⟩

/-- A byte that cannot continue the character under way ends it, and is read as a beginning. -/
def step (s : State) (byte : UInt8) : State :=
  let b := byte.toNat
  match s.pending with
  | none   => begin s.read b
  | some p =>
    if p.least ≤ b ∧ b ≤ p.most then
      let bits := p.bits * 0x40 + (b - 0x80)
      if p.owed = 1 then ⟨Char.ofNat bits :: s.read, none⟩
      else ⟨s.read, some ⟨bits, p.owed - 1, 0x80, 0xBF⟩⟩
    else begin (replacement :: s.read) b

def finish (s : State) : List Char :=
  match s.pending with
  | none   => s.read.reverse
  | some _ => (replacement :: s.read).reverse

/-- The text of the bytes, with the replacement character where they are not UTF-8. -/
def decodeLossy (bytes : ByteArray) : String :=
  match decode? bytes with
  | some text => text
  | none      => String.ofList (finish (bytes.toList.foldl step ⟨[], none⟩))

end Phrasebook.Text.Utf8
