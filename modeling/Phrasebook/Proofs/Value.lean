import Mathlib.Algebra.Order.Field.Rat
import Mathlib.Algebra.Order.Ring.Abs
import Mathlib.Data.List.TakeWhile
import Mathlib.Data.Rat.Cast.Order
import Mathlib.Tactic.Linarith
import Phrasebook.Proofs.Template.Canonical
import Phrasebook.Proofs.Text.Class
import Phrasebook.Value
/-!
# Values as integers — which number a value denotes, and which integer it becomes

An integer denotes itself, a float the rational number that its bits encode, and a text the decimal
integer that it spells between its blanks.  Reading a value as an integer gives that number if it is
whole and fits into 64 bits, and nothing otherwise, with one exception: a float that is too large or
too small becomes the last integer on its side.
-/
namespace Phrasebook

/-! ## Decimal text -/

/-- A decimal integer: digits, with at most one sign in front of them. -/
inductive IntegerText : List Char → Int → Prop where
  | digits {ds : List Char} : Template.Digits ds → IntegerText ds (Nat.ofDigitChars 10 ds 0)
  | plus {ds : List Char} : Template.Digits ds → IntegerText ('+' :: ds) (Nat.ofDigitChars 10 ds 0)
  | minus {ds : List Char} : Template.Digits ds →
    IntegerText ('-' :: ds) (-(Nat.ofDigitChars 10 ds 0 : Int))

theorem decimalValue_eq_ofDigitChars (ds : List Char) :
    decimalValue ds = Nat.ofDigitChars 10 ds 0 := by
  rw [Nat.ofDigitChars_eq_foldl]
  simp only [decimalValue, Nat.mul_comm 10]

theorem readDigits?_eq_some_iff {cs : List Char} {n : Nat} :
    readDigits? cs = some n ↔ Template.Digits cs ∧ Nat.ofDigitChars 10 cs 0 = n := by
  rw [← decimalValue_eq_ofDigitChars]
  simp [readDigits?, Template.Digits, and_assoc]

theorem readInt?_minus (ds : List Char) :
    readInt? ('-' :: ds) = (readDigits? ds).map fun n : Nat => -(n : Int) := by
  rw [readInt?]
  cases readDigits? ds <;> rfl

/-- A sign is no digit. -/
theorem readInt?_of_digits {ds : List Char} (h : Template.Digits ds) :
    readInt? ds = some (Nat.ofDigitChars 10 ds 0 : Int) := by
  unfold readInt?
  split
  · exact absurd (h.2 '-' (List.mem_cons_self ..)) (by decide)
  · exact absurd (h.2 '+' (List.mem_cons_self ..)) (by decide)
  · rw [readDigits?_eq_some_iff.2 ⟨h, rfl⟩]
    rfl

theorem readInt?_eq_some_iff {cs : List Char} {z : Int} :
    readInt? cs = some z ↔ IntegerText cs z := by
  constructor
  · intro h
    by_cases hminus : ∃ ds, cs = '-' :: ds
    · obtain ⟨ds, rfl⟩ := hminus
      rw [readInt?_minus] at h
      obtain ⟨n, hn, rfl⟩ := Option.map_eq_some_iff.1 h
      obtain ⟨hds, rfl⟩ := readDigits?_eq_some_iff.1 hn
      exact .minus hds
    · unfold readInt? at h
      split at h
      · exact absurd ⟨_, rfl⟩ hminus
      all_goals
        obtain ⟨n, hn, rfl⟩ := Option.map_eq_some_iff.1 h
        obtain ⟨hds, rfl⟩ := readDigits?_eq_some_iff.1 hn
      · exact .plus hds
      · exact .digits hds
  · rintro (hds | hds | hds)
    · exact readInt?_of_digits hds
    · rw [readInt?, readDigits?_eq_some_iff.2 ⟨hds, rfl⟩]
      rfl
    · rw [readInt?_minus, readDigits?_eq_some_iff.2 ⟨hds, rfl⟩]
      rfl

theorem IntegerText.ne_nil {cs : List Char} {z : Int} (h : IntegerText cs z) : cs ≠ [] := by
  cases h with
  | digits hds => exact hds.1
  | plus | minus => exact List.cons_ne_nil _ _

theorem IntegerText.not_blank {cs : List Char} {z : Int} (h : IntegerText cs z) :
    ∀ c ∈ cs, Text.isBlank c = false := by
  have hdigits {ds : List Char} (hds : Template.Digits ds) : ∀ c ∈ ds, Text.isBlank c = false :=
    fun c hc => Text.isBlank_eq_false_of_isAlphanum (Text.isAlphanum_of_isDigit (hds.2 c hc))
  cases h with
  | digits hds => exact hdigits hds
  | plus hds | minus hds => exact List.forall_mem_cons.2 ⟨by decide, hdigits hds⟩

theorem integerText_decimal (n : Int) : IntegerText (decimal n) n := by
  have hds := Template.digits_toDigits n.natAbs
  have hvalue : Nat.ofDigitChars 10 (Nat.toDigits 10 n.natAbs) 0 = n.natAbs :=
    Nat.ofDigitChars_ten_toDigits
  unfold decimal
  split
  · have h := IntegerText.minus hds
    rwa [hvalue, show -(n.natAbs : Int) = n by omega] at h
  · have h := IntegerText.digits hds
    rwa [hvalue, show (n.natAbs : Int) = n by omega] at h

/-! ## The text between the blanks -/

namespace Text

variable {before cs after : List Char}

theorem dropWhile_isBlank (hb : ∀ c ∈ before, isBlank c = true) (hne : cs ≠ [])
    (hcs : ∀ c ∈ cs, isBlank c = false) :
    (before ++ (cs ++ after)).dropWhile isBlank = cs ++ after := by
  obtain ⟨c, cs, rfl⟩ := List.exists_cons_of_ne_nil hne
  rw [List.dropWhile_append_of_pos hb, List.cons_append,
    List.dropWhile_cons_of_neg (by rw [hcs c (List.mem_cons_self ..)]; decide)]

theorem strip_append (hb : ∀ c ∈ before, isBlank c = true) (ha : ∀ c ∈ after, isBlank c = true)
    (hne : cs ≠ []) (hcs : ∀ c ∈ cs, isBlank c = false) : strip (before ++ cs ++ after) = cs := by
  have hback := @dropWhile_isBlank after.reverse cs.reverse []
    (fun c hc => ha c (List.mem_reverse.1 hc)) (List.reverse_ne_nil_iff.2 hne)
    (fun c hc => hcs c (List.mem_reverse.1 hc))
  rw [List.append_nil] at hback
  rw [strip, List.append_assoc, dropWhile_isBlank hb hne hcs, List.reverse_append, hback,
    List.reverse_reverse]

theorem exists_strip (cs : List Char) : ∃ before after, (∀ c ∈ before, isBlank c = true) ∧
    (∀ c ∈ after, isBlank c = true) ∧ cs = before ++ strip cs ++ after := by
  refine ⟨cs.takeWhile isBlank, ((cs.dropWhile isBlank).reverse.takeWhile isBlank).reverse,
    fun c hc => List.mem_takeWhile_imp hc,
    fun c hc => List.mem_takeWhile_imp (List.mem_reverse.1 hc), ?_⟩
  rw [strip, List.append_assoc, ← List.reverse_append, List.takeWhile_append_dropWhile,
    List.reverse_reverse, List.takeWhile_append_dropWhile]

end Text

/-! ## The number that a float encodes -/

namespace Double

/-- The number that the bits encode: one bit of sign, eleven of exponent, 52 of fraction.  An
exponent of ones is that of no number; unless it is zero, a one stands before the fraction. -/
def number? (x : Double) : Option Rat :=
  let word : Nat := x.bits.toNat
  let sign : Nat := word / 2 ^ 63
  let biased : Nat := word / 2 ^ 52 % 2 ^ 11
  let fraction : Nat := word % 2 ^ 52
  if biased = 2047 then none
  else if biased = 0 then some ((-1) ^ sign * ((fraction : Rat) * 2 ^ (-1074 : Int)))
  else some ((-1) ^ sign * ((2 ^ 52 + fraction : Rat) * 2 ^ ((biased : Int) - 1075)))

variable {x : Double}

/-- Minus one for a negative float, zero included. -/
def signFactor (x : Double) : Int := if x.negative then -1 else 1

theorem neg_one_pow_sign (x : Double) :
    (-1 : Rat) ^ (x.bits.toNat / 2 ^ 63) = x.signFactor := by
  have hword : x.bits.toNat < 2 ^ 64 := x.bits.toNat_lt
  by_cases hneg : signUnit ≤ x.bits.toNat
  · have hsign : x.bits.toNat / 2 ^ 63 = 1 := by unfold signUnit at hneg; omega
    rw [hsign, signFactor, negative, decide_eq_true hneg]
    rfl
  · have hsign : x.bits.toNat / 2 ^ 63 = 0 := by unfold signUnit at hneg; omega
    rw [hsign, signFactor, negative, decide_eq_false hneg]
    rfl

theorem magnitude_den_pos (x : Double) : 0 < x.magnitude.2 := by
  unfold magnitude
  split
  · exact Nat.one_pos
  · exact Nat.pow_pos Nat.two_pos

theorem significand_lt (x : Double) : x.significand < 2 ^ 53 := by
  have : x.fraction < exponentUnit := Nat.mod_lt _ (by decide)
  unfold significand exponentUnit at *
  split <;> omega

theorem magnitude_eq (x : Double) :
    (x.magnitude.1 : Rat) / x.magnitude.2 = x.significand * 2 ^ x.exponent := by
  unfold magnitude
  split
  case isTrue h =>
    have hpow : (2 : Rat) ^ x.exponent = 2 ^ x.exponent.toNat := by
      rw [← zpow_natCast, Int.toNat_of_nonneg h]
    simp [hpow, twoTo]
  case isFalse h =>
    have hpow : (2 : Rat) ^ x.exponent = (2 ^ (-x.exponent).toNat)⁻¹ := by
      rw [← zpow_natCast, Int.toNat_of_nonneg (by omega), zpow_neg, inv_inv]
    simp [hpow, twoTo, div_eq_mul_inv]

/-- A finite float is its magnitude with its sign. -/
theorem number?_eq_some_iff {q : Rat} : x.number? = some q ↔ x.isFinite = true ∧
    q = x.signFactor * ((x.magnitude.1 : Rat) / x.magnitude.2) := by
  have hbiased : x.bits.toNat / 2 ^ 52 % 2 ^ 11 = x.biased := rfl
  have hfraction : x.bits.toNat % 2 ^ 52 = x.fraction := rfl
  unfold number?
  simp only [hbiased, hfraction, neg_one_pow_sign, magnitude_eq, isFinite, decide_eq_true_eq]
  by_cases hinf : x.biased = 2047
  · simp [hinf]
  · rw [if_neg hinf]
    by_cases hzero : x.biased = 0
    · simp [hzero, significand, exponent, eq_comm]
    · have hmax : max x.biased 1 = x.biased := by omega
      simp [hinf, hzero, significand, exponent, hmax, exponentUnit, eq_comm]
      norm_num

theorem signFactor_mul_self (x : Double) : (x.signFactor : Rat) * x.signFactor = 1 := by
  unfold signFactor
  split <;> norm_num

/-- The whole number of a float, if its denominator divides its numerator. -/
theorem toInt?_of_dvd {m : Nat} (hfin : x.isFinite = true)
    (hm : x.magnitude.1 = m * x.magnitude.2) : x.toInt? = some (x.signFactor * m) := by
  have hdiv : x.magnitude.1 / x.magnitude.2 = m := by
    rw [hm, Nat.mul_div_cancel _ x.magnitude_den_pos]
  have hmod : x.magnitude.1 % x.magnitude.2 = 0 := by rw [hm, Nat.mul_mod_left]
  unfold toInt? signFactor
  rw [if_pos hfin]
  simp only [hmod, hdiv, if_true]
  split <;> simp

/-- A float is read as an integer exactly if it encodes one. -/
theorem toInt?_eq_some_iff {z : Int} : x.toInt? = some z ↔ x.number? = some (z : Rat) := by
  have hden : (x.magnitude.2 : Rat) ≠ 0 := Nat.cast_ne_zero.2 x.magnitude_den_pos.ne'
  rw [number?_eq_some_iff]
  constructor
  · intro h
    have hfin : x.isFinite = true := by
      by_contra hinf
      simp [toInt?, hinf] at h
    have hdvd : x.magnitude.2 ∣ x.magnitude.1 := by
      by_contra hrest
      simp [toInt?, hfin, Nat.dvd_iff_mod_eq_zero.not.1 hrest] at h
    obtain ⟨m, hm⟩ := exists_eq_mul_left_of_dvd hdvd
    rw [toInt?_of_dvd hfin hm, Option.some_inj] at h
    refine ⟨hfin, ?_⟩
    rw [← h, hm, Nat.cast_mul, mul_div_cancel_right₀ _ hden, Int.cast_mul, Int.cast_natCast]
  · rintro ⟨hfin, hz⟩
    -- the magnitude is the integer with its sign taken off
    have hmag : (x.magnitude.1 : Rat) = (x.signFactor * z : Int) * x.magnitude.2 := by
      rw [← div_eq_iff hden, Int.cast_mul, hz, ← mul_assoc, signFactor_mul_self, one_mul]
    have hmagInt : (x.magnitude.1 : Int) = x.signFactor * z * x.magnitude.2 := by
      exact_mod_cast hmag
    have hnonneg : 0 ≤ x.signFactor * z := by
      by_contra hneg
      have := mul_neg_of_neg_of_pos (not_le.1 hneg) (Int.natCast_pos.2 x.magnitude_den_pos)
      omega
    obtain ⟨m, hm⟩ := Int.eq_ofNat_of_zero_le hnonneg
    rw [hm] at hmagInt
    rw [toInt?_of_dvd hfin (by exact_mod_cast hmagInt), ← hm, ← mul_assoc]
    have hself : x.signFactor * x.signFactor = 1 := by exact_mod_cast x.signFactor_mul_self
    rw [hself, one_mul]

/-- A float from `2 ^ 53` on has no places behind the point. -/
theorem exists_int_of_large {q : Rat} (hq : x.number? = some q) (hlarge : 2 ^ 53 ≤ |q|) :
    ∃ z : Int, x.toInt? = some z ∧ q = z := by
  obtain ⟨hfin, hvalue⟩ := number?_eq_some_iff.1 hq
  have hsign : |(x.signFactor : Rat)| = 1 := by
    unfold signFactor
    split <;> norm_num
  have hexp : 0 ≤ x.exponent := by
    by_contra hneg
    have hle : (2 : Rat) ^ x.exponent ≤ 1 := zpow_le_one_of_nonpos₀ (by norm_num) (by omega)
    have hlt : (x.significand : Rat) < 2 ^ 53 := by exact_mod_cast x.significand_lt
    rw [hvalue, abs_mul, hsign, one_mul, magnitude_eq,
      abs_of_nonneg (mul_nonneg (Nat.cast_nonneg _) (zpow_nonneg zero_le_two _))] at hlarge
    have := mul_le_of_le_one_right (Nat.cast_nonneg (α := Rat) x.significand) hle
    linarith
  have hden : x.magnitude.2 = 1 := by rw [magnitude, if_pos hexp]
  have hwhole := toInt?_of_dvd hfin (show x.magnitude.1 = _ * _ by rw [hden, mul_one])
  exact ⟨_, hwhole, Option.some_inj.1 (hq.symm.trans (toInt?_eq_some_iff.1 hwhole))⟩

end Double

/-! ## Integers of 64 bits -/

theorem toInt64?_eq_some_iff {z : Int} {n : Int64} : toInt64? z = some n ↔ z = n.toInt := by
  have hlow := n.le_toInt
  have hhigh := n.toInt_lt
  unfold toInt64?
  constructor
  · intro h
    obtain ⟨hz, hn⟩ := Option.ite_none_right_eq_some.1 h
    obtain rfl := Option.some_inj.1 hn
    exact (Int64.toInt_ofInt_of_le (by omega) (by omega)).symm
  · rintro rfl
    rw [if_pos (by omega), Int64.ofInt_toInt]

theorem clampInt64_eq_iff {z : Int} {n : Int64} : clampInt64 z = n ↔
    z = n.toInt ∨ (2 ^ 63 ≤ z ∧ n = Int64.maxValue) ∨ (z < -2 ^ 63 ∧ n = Int64.minValue) := by
  have hclamp : (clampInt64 z).toInt = max (-2 ^ 63) (min z (2 ^ 63 - 1)) :=
    Int64.toInt_ofInt_of_le (by omega) (by omega)
  have hlow := n.le_toInt
  have hhigh := n.toInt_lt
  simp only [← Int64.toInt_inj, hclamp, Int64.toInt_maxValue, Int64.toInt_minValue]
  omega

/-! ## Values -/

namespace Value

/-- The number that a value denotes, if it denotes one. -/
inductive Denotes : Value → Rat → Prop where
  | int (n : Int64) : Denotes (.int n) n.toInt
  | float {x : Double} {q : Rat} : x.number? = some q → Denotes (.float x) q
  | str {before cs after : List Char} {z : Int} : (∀ c ∈ before, Text.isBlank c = true) →
    (∀ c ∈ after, Text.isBlank c = true) → IntegerText cs z →
    Denotes (.str (String.ofList (before ++ cs ++ after))) z

/-- The floats beyond the integers of 64 bits, each with the last integer on its side. -/
inductive Saturates : Value → Int64 → Prop where
  | high {x : Double} {q : Rat} : x.number? = some q → 2 ^ 63 ≤ q →
    Saturates (.float x) Int64.maxValue
  | low {x : Double} {q : Rat} : x.number? = some q → q < -2 ^ 63 →
    Saturates (.float x) Int64.minValue

variable {n : Int64} {x : Double} {s : String}

theorem denotes_int_iff {m : Int64} {q : Rat} : (Value.int m).Denotes q ↔ q = m.toInt := by
  constructor
  · rintro ⟨⟩
    rfl
  · rintro rfl
    exact .int m

theorem denotes_float_iff {q : Rat} : (Value.float x).Denotes q ↔ x.number? = some q :=
  ⟨fun h => by cases h; assumption, .float⟩

theorem denotes_str_iff {q : Rat} :
    (Value.str s).Denotes q ↔ ∃ z : Int, readInt? (Text.strip s.toList) = some z ∧ q = z := by
  constructor
  · rintro (_ | _ | ⟨hb, ha, htext⟩)
    rw [String.toList_ofList, Text.strip_append hb ha htext.ne_nil htext.not_blank]
    exact ⟨_, readInt?_eq_some_iff.2 htext, rfl⟩
  · rintro ⟨z, hz, rfl⟩
    obtain ⟨before, after, hb, ha, heq⟩ := Text.exists_strip s.toList
    have h := Denotes.str hb ha (readInt?_eq_some_iff.1 hz)
    rwa [← heq, String.ofList_toList] at h

/-- A value denotes one number at most. -/
theorem Denotes.unique {v : Value} {q q' : Rat} (h : v.Denotes q) (h' : v.Denotes q') : q = q' := by
  cases v with
  | int m => rw [denotes_int_iff.1 h, denotes_int_iff.1 h']
  | float x => exact Option.some_inj.1 ((denotes_float_iff.1 h).symm.trans (denotes_float_iff.1 h'))
  | str s =>
    obtain ⟨z, hz, rfl⟩ := denotes_str_iff.1 h
    obtain ⟨z', hz', rfl⟩ := denotes_str_iff.1 h'
    rw [Option.some_inj.1 (hz.symm.trans hz')]
  | bool b => cases h
  | key path => cases h

theorem asInt_float_iff :
    (Value.float x).asInt = some n ↔ (Value.float x).Denotes n.toInt ∨ Saturates (.float x) n := by
  rw [asInt, Option.map_eq_some_iff, denotes_float_iff]
  constructor
  · rintro ⟨z, hz, hn⟩
    have hnumber := Double.toInt?_eq_some_iff.1 hz
    obtain rfl | ⟨hz, rfl⟩ | ⟨hz, rfl⟩ := clampInt64_eq_iff.1 hn
    · exact .inl hnumber
    · exact .inr (.high hnumber (by exact_mod_cast hz))
    · exact .inr (.low hnumber (by exact_mod_cast hz))
  · rintro (h | ⟨hq, hbeyond⟩ | ⟨hq, hbeyond⟩)
    · exact ⟨n.toInt, Double.toInt?_eq_some_iff.2 h, clampInt64_eq_iff.2 (.inl rfl)⟩
    · obtain ⟨z, hz, rfl⟩ := Double.exists_int_of_large hq (le_abs.2 (.inl (by linarith)))
      exact ⟨z, hz, clampInt64_eq_iff.2 (.inr (.inl ⟨by exact_mod_cast hbeyond, rfl⟩))⟩
    · obtain ⟨z, hz, rfl⟩ := Double.exists_int_of_large hq (le_abs.2 (.inr (by linarith)))
      exact ⟨z, hz, clampInt64_eq_iff.2 (.inr (.inr ⟨by exact_mod_cast hbeyond, rfl⟩))⟩

theorem asInt_str_iff : (Value.str s).asInt = some n ↔ (Value.str s).Denotes n.toInt := by
  rw [asInt, readInt64?, denotes_str_iff, Option.bind_eq_some_iff]
  simp only [toInt64?_eq_some_iff, Int.cast_inj, eq_comm (a := n.toInt)]

/-- **A value becomes the integer that it denotes, or a float beyond them the last one on its
side.**  A value denotes one number at most, so that the answer is this number or there is none;
and the text of an integer reads back, whatever blanks stand around it. -/
theorem asInt_denotes (v : Value) (n : Int64) :
    (v.asInt = some n ↔ v.Denotes n.toInt ∨ v.Saturates n) ∧
    (∀ q q' : Rat, v.Denotes q → v.Denotes q' → q = q') ∧
    ∀ before after : List Char, (∀ c ∈ before, Text.isBlank c = true) →
      (∀ c ∈ after, Text.isBlank c = true) →
      (Value.str (String.ofList (before ++ (Value.int n).display.toList ++ after))).asInt =
        some n := by
  refine ⟨?_, fun _ _ => Denotes.unique, fun before after hb ha => ?_⟩
  · cases v with
    | int m =>
      rw [asInt, Option.some_inj, denotes_int_iff, or_iff_left (fun h => by cases h),
        Int.cast_inj, Int64.toInt_inj, eq_comm]
    | float x => exact asInt_float_iff
    | str s => exact asInt_str_iff.trans (or_iff_left (fun h => by cases h)).symm
    | bool b => exact iff_of_false (fun h => by cases h) (by rintro (h | h) <;> cases h)
    | key path => exact iff_of_false (fun h => by cases h) (by rintro (h | h) <;> cases h)
  · rw [display, String.toList_ofList, asInt_str_iff]
    exact .str hb ha (integerText_decimal n.toInt)

/-- The least integer, between a blank and a line break. -/
theorem asInt_denotes_least :
    (∀ c ∈ [' '], Text.isBlank c = true) ∧ (∀ c ∈ ['\n'], Text.isBlank c = true) ∧
    (Value.str " -9223372036854775808\n").asInt = some Int64.minValue ∧
    (∃ q : Rat, (Value.str " -9223372036854775808\n").Denotes q ∧ q = Int64.minValue.toInt) := by
  have hb : ∀ c ∈ [' '], Text.isBlank c = true := List.forall_mem_singleton.2 (by decide)
  have ha : ∀ c ∈ ['\n'], Text.isBlank c = true := List.forall_mem_singleton.2 (by decide)
  have htext : String.ofList ([' '] ++ (Value.int Int64.minValue).display.toList ++ ['\n']) =
      " -9223372036854775808\n" := by decide
  obtain ⟨hiff, -, hback⟩ :=
    asInt_denotes (.str " -9223372036854775808\n") Int64.minValue
  have hread := hback _ _ hb ha
  rw [htext] at hread
  refine ⟨hb, ha, hread, _, ?_, rfl⟩
  exact (hiff.1 hread).resolve_right (fun h => by cases h)

/-- A float is clamped where its text is refused. -/
theorem asInt_clamps_two_pow_63 :
    (Value.float ⟨0x43E0000000000000⟩).Denotes (2 ^ 63) ∧
    (Value.float ⟨0x43E0000000000000⟩).asInt = some Int64.maxValue ∧
    ¬ (Value.float ⟨0x43E0000000000000⟩).Denotes Int64.maxValue.toInt ∧
    (Value.str "9223372036854775808").asInt = none := by
  have hdenotes : (Value.float ⟨0x43E0000000000000⟩).Denotes (2 ^ 63) := by
    have hwhole : Double.toInt? ⟨0x43E0000000000000⟩ = some (2 ^ 63) := by decide
    exact .float (by exact_mod_cast Double.toInt?_eq_some_iff.1 hwhole)
  refine ⟨hdenotes, by decide, fun h => ?_, by decide⟩
  have := hdenotes.unique h
  rw [Int64.toInt_maxValue] at this
  norm_num at this

end Value

end Phrasebook
