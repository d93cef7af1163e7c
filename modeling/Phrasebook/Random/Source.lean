import Phrasebook.Power
/-!
# Random sources — an endless stream of words, and how many of them are used up

A source is a stream of 32-bit words together with the number of words drawn so far.  Everything
that draws passes the source on, so the order of the draws is the order of the words.
-/
namespace Phrasebook

structure Source where
  word  : Nat → UInt32
  drawn : Nat := 0

namespace Source

/-- The words of a list over and over; no words at all are zeros. -/
def cycle (words : Array UInt32) : Source := ⟨fun n => words.getD (n % words.size) 0, 0⟩

def next32 (s : Source) : Nat × Source := ((s.word s.drawn).toNat, ⟨s.word, s.drawn + 1⟩)

/-- Two words, the low half first. -/
def next64 (s : Source) : Nat × Source :=
  ((s.word s.drawn).toNat + 0x100000000 * (s.word (s.drawn + 1)).toNat, ⟨s.word, s.drawn + 2⟩)

/-- An index below `size` by multiplication: the part of a draw times `size` above its width.  The
part below it is as good as exact unless it is so large that a second draw may carry into the
index; only then is there one. -/
def indexBy (width size : Nat) (next : Source → Nat × Source) (s : Source) : Nat × Source :=
  let (x, s) := next s
  let high := x * size / twoTo width
  let low := x * size % twoTo width
  if twoTo width - size < low then
    let (y, s) := next s
    (if twoTo width ≤ low + y * size / twoTo width then high + 1 else high, s)
  else (high, s)

/-- Draws an index below `size`.  Sizes of 32 bits take one word or two, larger ones two or four. -/
def index (size : Nat) (s : Source) : Nat × Source :=
  if size < 0x100000000 then indexBy 32 size next32 s else indexBy 64 size next64 s

theorem drawn_lt_indexBy {next : Source → Nat × Source} (h : ∀ s, s.drawn < (next s).2.drawn)
    (width size : Nat) (s : Source) : s.drawn < (indexBy width size next s).2.drawn := by
  unfold indexBy
  simp only
  split
  · exact Nat.lt_trans (h s) (h (next s).2)
  · exact h s

/-- No index is drawn without a word. -/
theorem drawn_lt_index (s : Source) (size : Nat) : s.drawn < (s.index size).2.drawn := by
  unfold index
  split
  · exact drawn_lt_indexBy (fun s => Nat.lt_succ_self s.drawn) 32 size s
  · exact drawn_lt_indexBy (fun s => Nat.lt_add_of_pos_right (by decide)) 64 size s

end Source

end Phrasebook
