import Mathlib.Algebra.Order.Floor.Div
import Mathlib.Data.List.GetD
import Mathlib.Data.Set.Card
import Mathlib.Order.Interval.Finset.Nat
import Phrasebook.Render.Basic
/-!
# Uniform draws — every member of a group has its share of the words

Two words are the digits of a fraction, and the size of a group times this fraction is the index of
a member.  The second word is drawn only where it may matter; `index_eq_scaled` says that the index
is the same in any case.  So the share of a member is an interval of fractions, and no two shares
differ by more than one pair of words.
-/
namespace Phrasebook

namespace Source

/-! ## Multiplication with a carry -/

/-- The whole part of a product whose second factor has two digits: what the first digit makes of
it, and the carry from the second. -/
theorem scaled_digits {base size x y : Nat} (hsize : size ≤ base) (hy : y < base) :
    (x * base + y) * size / (base * base) =
      x * size / base + if base ≤ x * size % base + y * size / base then 1 else 0 := by
  have hbase : 0 < base := Nat.zero_lt_of_lt hy
  have hcarry : y * size / base < base :=
    Nat.div_lt_of_lt_mul (Nat.mul_lt_mul_of_lt_of_le hy hsize hbase)
  have hdigits : (x * base + y) * size / base = x * size + y * size / base := by
    rw [Nat.add_mul, Nat.mul_right_comm, Nat.mul_comm _ base, Nat.mul_add_div hbase]
  rw [← Nat.div_div_eq_div_mul, hdigits, Nat.add_div hbase, Nat.div_eq_of_lt hcarry,
    Nat.mod_eq_of_lt hcarry, Nat.add_zero]

/-- The second digit carries less than the size, so where that is missing to the base, it does not
matter. -/
theorem no_carry {base size low y : Nat} (hpos : 0 < size) (hsize : size ≤ base)
    (hlow : low ≤ base - size) (hy : y < base) : ¬ base ≤ low + y * size / base := by
  have hcarry : y * size / base < size :=
    Nat.div_lt_of_lt_mul ((Nat.mul_lt_mul_right hpos).2 hy)
  omega

theorem indexBy_eq {width size : Nat} (hpos : 0 < size) (hsize : size ≤ twoTo width)
    (next : Source → Nat × Source) (s : Source) (hnext : (next (next s).2).1 < twoTo width) :
    (indexBy width size next s).1 =
      ((next s).1 * twoTo width + (next (next s).2).1) * size / (twoTo width * twoTo width) := by
  rw [scaled_digits hsize hnext, indexBy]
  simp only
  split
  · split <;> simp
  · rename_i hlow
    rw [if_neg (no_carry hpos hsize (Nat.not_lt.1 hlow) hnext), Nat.add_zero]

/-! ## Pairs of words -/

/-- The words that come next. -/
def upcoming (s : Source) : UInt32 × UInt32 := (s.word s.drawn, s.word (s.drawn + 1))

/-- The number with these words as digits. -/
def number (words : UInt32 × UInt32) : Nat := words.1.toNat * 2 ^ 32 + words.2.toNat

/-- The index that is as far below `size` as the number is below all numbers of two words. -/
def scaled (size : Nat) (words : UInt32 × UInt32) : Nat := number words * size / 2 ^ 64

/-- **An index is scaled from two words**, be the second one drawn or not. -/
theorem index_eq_scaled {size : Nat} (hpos : 0 < size) (hsize : size < 2 ^ 32) (s : Source) :
    (s.index size).1 = scaled size s.upcoming := by
  have htwo : twoTo 32 = 2 ^ 32 := by decide
  have hsize' : size < 0x100000000 := hsize
  have hnext : (next32 (next32 s).2).1 < twoTo 32 := UInt32.toNat_lt _
  rw [index, if_pos hsize', indexBy_eq hpos (htwo ▸ hsize.le) next32 s hnext, htwo]
  rfl

theorem number_lt (words : UInt32 × UInt32) : number words < 2 ^ 64 := by
  have hx := words.1.toNat_lt
  have hy := words.2.toNat_lt
  unfold number
  omega

theorem number_injective : Function.Injective number := by
  intro v w h
  unfold number at h
  have hv := v.2.toNat_lt
  have hw := w.2.toNat_lt
  refine Prod.ext (UInt32.toNat_inj.1 ?_) (UInt32.toNat_inj.1 ?_) <;> omega

theorem exists_number {z : Nat} (hz : z < 2 ^ 64) : ∃ words, number words = z := by
  refine ⟨(UInt32.ofNat (z / 2 ^ 32), UInt32.ofNat (z % 2 ^ 32)), ?_⟩
  have hhigh : (UInt32.ofNat (z / 2 ^ 32)).toNat = z / 2 ^ 32 := by
    rw [UInt32.toNat_ofNat', Nat.mod_eq_of_lt (by omega)]
  have hlow : (UInt32.ofNat (z % 2 ^ 32)).toNat = z % 2 ^ 32 := by
    rw [UInt32.toNat_ofNat', Nat.mod_mod]
  unfold number
  rw [hhigh, hlow]
  omega

theorem scaled_lt {size : Nat} (hpos : 0 < size) (words : UInt32 × UInt32) :
    scaled size words < size :=
  Nat.div_lt_of_lt_mul ((Nat.mul_lt_mul_right hpos).2 (number_lt words))

/-! ## Shares -/

/-- Where the share of the index `k` begins. -/
def shareStart (size k : Nat) : Nat := (2 ^ 64 * k) ⌈/⌉ size

section

variable {size k : Nat}

theorem shareStart_le_iff (hpos : 0 < size) {z : Nat} :
    shareStart size k ≤ z ↔ 2 ^ 64 * k ≤ size * z := ceilDiv_le_iff_le_mul hpos

theorem scaled_eq_iff (hpos : 0 < size) (words : UInt32 × UInt32) : scaled size words = k ↔
    number words ∈ Finset.Ico (shareStart size k) (shareStart size (k + 1)) := by
  rw [Finset.mem_Ico, ← Nat.not_le, shareStart_le_iff hpos, shareStart_le_iff hpos, scaled,
    Nat.div_eq_iff (by decide)]
  rw [Nat.mul_comm size]
  omega

theorem image_number (hpos : 0 < size) (hk : k < size) : number '' {words | scaled size words = k} =
    Finset.Ico (shareStart size k) (shareStart size (k + 1)) := by
  ext z
  rw [Finset.mem_coe]
  constructor
  · rintro ⟨words, hwords, rfl⟩
    exact (scaled_eq_iff hpos words).1 hwords
  · intro hz
    have hend : shareStart size (k + 1) ≤ 2 ^ 64 := by
      rw [shareStart_le_iff hpos, Nat.mul_comm size]
      exact Nat.mul_le_mul_left _ hk
    obtain ⟨words, rfl⟩ := exists_number ((Finset.mem_Ico.1 hz).2.trans_le hend)
    exact ⟨words, (scaled_eq_iff hpos words).2 hz, rfl⟩

theorem ncard_scaled (hpos : 0 < size) (hk : k < size) :
    {words | scaled size words = k}.ncard = shareStart size (k + 1) - shareStart size k := by
  rw [← Set.ncard_image_of_injective _ number_injective, image_number hpos hk,
    Set.ncard_coe_finset, Nat.card_Ico]

end

/-- The rounded ends of an interval are its length apart, rounded down or up. -/
theorem ceilDiv_add_sub {a b n : Nat} (hn : 0 < n) :
    (a + b) ⌈/⌉ n - a ⌈/⌉ n = b / n ∨ (a + b) ⌈/⌉ n - a ⌈/⌉ n = b ⌈/⌉ n := by
  have hup : ∀ c : Nat, c ≤ n * (c ⌈/⌉ n) := fun c => (ceilDiv_le_iff_le_mul hn).1 le_rfl
  have hle : (a + b) ⌈/⌉ n ≤ a ⌈/⌉ n + b ⌈/⌉ n := by
    rw [ceilDiv_le_iff_le_mul hn, Nat.mul_add]
    exact Nat.add_le_add (hup a) (hup b)
  have hge : a ⌈/⌉ n ≤ (a + b) ⌈/⌉ n - b / n := by
    have hfloor : n * (b / n) ≤ b := Nat.mul_div_le b n
    have hend := hup (a + b)
    rw [ceilDiv_le_iff_le_mul hn, Nat.mul_sub]
    omega
  have hfit : b / n ≤ (a + b) ⌈/⌉ n :=
    Nat.div_le_of_le_mul ((Nat.le_add_left b a).trans (hup (a + b)))
  have hceil : b ⌈/⌉ n ≤ b / n + 1 := by
    rw [ceilDiv_le_iff_le_mul hn]
    exact (Nat.lt_mul_div_succ b hn).le
  omega

/-- Every index has its share of the pairs, up to one. -/
theorem ncard_scaled_eq {size k : Nat} (hpos : 0 < size) (hk : k < size) :
    {words | scaled size words = k}.ncard = 2 ^ 64 / size ∨
      {words | scaled size words = k}.ncard = 2 ^ 64 ⌈/⌉ size := by
  rw [ncard_scaled hpos hk, shareStart, shareStart, Nat.mul_succ]
  exact ceilDiv_add_sub hpos

/-- No share is empty. -/
theorem exists_scaled_eq {size k : Nat} (hpos : 0 < size) (hsize : size < 2 ^ 32) (hk : k < size) :
    ∃ words, scaled size words = k := by
  have hshare : 0 < 2 ^ 64 / size := Nat.div_pos (hsize.le.trans (by decide)) hpos
  have hceil : 2 ^ 64 / size ≤ 2 ^ 64 ⌈/⌉ size :=
    (Nat.floorDiv_eq_div (2 ^ 64) size).ge.trans floorDiv_le_ceilDiv
  have hcard : {words | scaled size words = k}.ncard ≠ 0 := by
    rcases ncard_scaled_eq hpos hk with h | h <;> omega
  exact Set.nonempty_of_ncard_ne_zero hcard

end Source

namespace Render

open Source

variable {size : Nat}

theorem draw_eq_scaled (hpos : 0 < size) (hsize : size < 2 ^ 32) (state : State) :
    (draw size state).1 = scaled size state.source.upcoming ∧
      (draw size state).2.trace = .drew size (scaled size state.source.upcoming) :: state.trace := by
  rw [← index_eq_scaled hpos hsize]
  exact ⟨rfl, rfl⟩

theorem choose_variants (hpos : 0 < size) (hsize : size < 2 ^ 32) (state : State)
    {es : List Expression} (hes : es.length = size) :
    (choose (.variants es) state).1 = es[scaled size state.source.upcoming]? ∧
      (choose (.variants es) state).2.trace =
        .drew size (scaled size state.source.upcoming) :: state.trace := by
  subst hes
  cases es with
  | nil => cases hpos
  | cons e es =>
    obtain ⟨hindex, htrace⟩ := draw_eq_scaled hpos hsize state
    refine ⟨?_, htrace⟩
    rw [← hindex]
    rfl

theorem renderRaw_list (hpos : 0 < size) (hsize : size < 2 ^ 32) (state : State) (key : String)
    {items : List String} (hitems : items.length = size) :
    some (renderRaw key (some (.list items)) state).1 =
        items[scaled size state.source.upcoming]? ∧
      (renderRaw key (some (.list items)) state).2.trace =
        .drew size (scaled size state.source.upcoming) :: state.trace := by
  subst hitems
  cases items with
  | nil => cases hpos
  | cons item items =>
    obtain ⟨hindex, htrace⟩ := draw_eq_scaled hpos hsize state
    refine ⟨?_, htrace⟩
    have hlt := scaled_lt hpos state.source.upcoming
    rw [List.getElem?_eq_getElem hlt, ← List.getD_eq_getElem _ "" hlt, ← hindex]
    rfl

/-- **Every member of a group is as likely as any other.**  The member is the one whose index is
scaled from the two words that come next, be the second one drawn or not; this index is in the
group, and each index is that of one pair of words in `size`, rounded down or up. -/
theorem group_selection (hpos : 0 < size) (hsize : size < 2 ^ 32) :
    (∀ state : State,
      (∀ es : List Expression, es.length = size →
        (choose (.variants es) state).1 = es[scaled size state.source.upcoming]? ∧
          (choose (.variants es) state).2.trace =
            .drew size (scaled size state.source.upcoming) :: state.trace) ∧
      ∀ (key : String) (items : List String), items.length = size →
        some (renderRaw key (some (.list items)) state).1 =
            items[scaled size state.source.upcoming]? ∧
          (renderRaw key (some (.list items)) state).2.trace =
            .drew size (scaled size state.source.upcoming) :: state.trace) ∧
    (∀ words, scaled size words < size) ∧
    ∀ k < size, (∃ words, scaled size words = k) ∧
      ({words | scaled size words = k}.ncard = 2 ^ 64 / size ∨
        {words | scaled size words = k}.ncard = 2 ^ 64 ⌈/⌉ size) :=
  ⟨fun state => ⟨fun _ => choose_variants hpos hsize state,
      fun key _ => renderRaw_list hpos hsize state key⟩,
    scaled_lt hpos,
    fun _ hk => ⟨exists_scaled_eq hpos hsize hk, ncard_scaled_eq hpos hk⟩⟩

/-- Two thirds are repeating digits, so that here the second word decides between the last member
and the one before it. -/
theorem last_of_three :
    (choose (.variants [⟨[.text "a"]⟩, ⟨[.text "b"]⟩, ⟨[.text "c"]⟩])
        ⟨⟨8, []⟩, .cycle #[0xAAAAAAAA, 0xAAAAAAAB], []⟩).1 = some ⟨[.text "c"]⟩ ∧
      (renderRaw "k" (some (.list ["a", "b", "c"]))
        ⟨⟨8, []⟩, .cycle #[0xAAAAAAAA, 0xAAAAAAAA], []⟩).1 = "b" ∧
      ∃ words, scaled 3 words = 2 := by
  obtain ⟨hmember, -, hshare⟩ := group_selection (show 0 < 3 by decide) (show 3 < 2 ^ 32 by decide)
  refine ⟨((hmember _).1 _ rfl).1.trans ?_,
    Option.some.inj (((hmember _).2 "k" _ rfl).1.trans ?_), (hshare 2 (by decide)).1⟩
  · rw [show scaled 3 _ = 2 by decide +kernel]
    rfl
  · rw [show scaled 3 _ = 1 by decide +kernel]
    rfl

end Render

end Phrasebook
