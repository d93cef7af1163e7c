import Phrasebook.Random.Source
/-!
# Seeded sources — the ChaCha stream with twelve rounds

The eight key words are spread from a 64-bit seed by a linear congruential generator whose output
is permuted.  Word `n` of the stream is word `n % 16` of block `n / 16`.
-/
namespace Phrasebook.Random.ChaCha

abbrev State := Vector UInt32 16

/-- Rotates to the left by `k` bits, `0 < k < 32`. -/
def rotate (x : UInt32) (k : UInt32) : UInt32 := (x <<< k) ||| (x >>> (32 - k))

/-- Mixes four words of the state. -/
def quarter (s : State) (a b c d : Fin 16) : State :=
  let s := s.set a (s[a] + s[b])
  let s := s.set d (rotate (s[d] ^^^ s[a]) 16)
  let s := s.set c (s[c] + s[d])
  let s := s.set b (rotate (s[b] ^^^ s[c]) 12)
  let s := s.set a (s[a] + s[b])
  let s := s.set d (rotate (s[d] ^^^ s[a]) 8)
  let s := s.set c (s[c] + s[d])
  s.set b (rotate (s[b] ^^^ s[c]) 7)

/-- Mixes the columns, then the diagonals. -/
def doubleRound (s : State) : State :=
  let s := quarter s 0 4 8 12
  let s := quarter s 1 5 9 13
  let s := quarter s 2 6 10 14
  let s := quarter s 3 7 11 15
  let s := quarter s 0 5 10 15
  let s := quarter s 1 6 11 12
  let s := quarter s 2 7 8 13
  quarter s 3 4 9 14

def rounds : Nat → State → State
  | 0,     s => s
  | n + 1, s => rounds n (doubleRound s)

/-- The state before the rounds: four constants, the key, the block number, and two zeros. -/
def start (key : Vector UInt32 8) (number : Nat) : State :=
  #v[0x61707865, 0x3320646e, 0x79622d32, 0x6b206574,
    key[0], key[1], key[2], key[3], key[4], key[5], key[6], key[7],
    UInt32.ofNat number, UInt32.ofNat (number / 0x100000000), 0, 0]

def block (key : Vector UInt32 8) (number : Nat) : State :=
  let s := start key number
  (rounds 6 s).zipWith (· + ·) s

/-! ## The key of a seed -/

def nextSeed (s : UInt64) : UInt64 := s * 6364136223846793005 + 11634580027462260723

def seedWord (s : UInt64) : UInt32 :=
  let x := (((s >>> 18) ^^^ s) >>> 27).toUInt32
  let k := (s >>> 59).toUInt32
  (x >>> k) ||| (x <<< ((32 - k) % 32))

def key (seed : UInt64) : Vector UInt32 8 :=
  let s0 := nextSeed seed
  let s1 := nextSeed s0
  let s2 := nextSeed s1
  let s3 := nextSeed s2
  let s4 := nextSeed s3
  let s5 := nextSeed s4
  let s6 := nextSeed s5
  let s7 := nextSeed s6
  #v[seedWord s0, seedWord s1, seedWord s2, seedWord s3,
    seedWord s4, seedWord s5, seedWord s6, seedWord s7]

end Phrasebook.Random.ChaCha

namespace Phrasebook

def Source.seeded (seed : UInt64) : Source :=
  let key := Random.ChaCha.key seed
  ⟨fun n => (Random.ChaCha.block key (n / 16)).get ⟨n % 16, Nat.mod_lt n (by decide)⟩, 0⟩

end Phrasebook
