import Mathlib
import Lox.Number.Nearest
import Lox.Number.Shortest

/-!
# What rounds to a double

The rounding interval of a finite word holds rational numbers, and reading rounds each of them to this word
(`nearestWord_of_holds`).
-/

namespace Lox.Number

/-! ## Powers -/

theorem powerPart_pos {base : Nat} (pos : 0 < base) (exponent : Int) : 0 < powerPart base exponent :=
  Nat.pow_pos pos

theorem powerPart_div {base : Nat} (pos : 0 < base) (exponent : Int) :
    (powerPart base exponent : ℚ) / powerPart base (-exponent) = (base : ℚ) ^ exponent := by
  have nonzero : (base : ℚ) ≠ 0 := by positivity
  show ((base ^ exponent.toNat : ℕ) : ℚ) / ((base ^ (-exponent).toNat : ℕ) : ℚ) = _
  rw [Nat.cast_pow, Nat.cast_pow, ← zpow_natCast, ← zpow_natCast, ← zpow_sub₀ nonzero]
  congr 1
  omega

theorem two_zpow_pos (e : Int) : (0 : ℚ) < 2 ^ e := zpow_pos (by norm_num) e

/-! ## Rounding -/

theorem lt_half_iff {r b : Nat} (pos : 0 < b) : (r : ℚ) / b < 1 / 2 ↔ 2 * r < b := by
  have positive : (0 : ℚ) < b := by exact_mod_cast pos
  rw [div_lt_div_iff₀ positive two_pos, one_mul, mul_comm]
  norm_cast

theorem half_lt_iff {r b : Nat} (pos : 0 < b) : 1 / 2 < (r : ℚ) / b ↔ b < 2 * r := by
  have positive : (0 : ℚ) < b := by exact_mod_cast pos
  rw [div_lt_div_iff₀ two_pos positive, one_mul, mul_comm (r : ℚ)]
  norm_cast

theorem roundHalfEven_eq {a b n : Nat} (pos : 0 < b) (low : (n : ℚ) - 1 / 2 ≤ a / b) (high : (a : ℚ) / b ≤ n + 1 / 2)
    (tie : n % 2 = 1 → (n : ℚ) - 1 / 2 < a / b ∧ (a : ℚ) / b < n + 1 / 2) : roundHalfEven a b = n := by
  have positive : (0 : ℚ) < b := by exact_mod_cast pos
  have parts : (a : ℚ) = b * (a / b : ℕ) + (a % b : ℕ) := by exact_mod_cast (Nat.div_add_mod a b).symm
  have small : ((a % b : ℕ) : ℚ) < b := by exact_mod_cast Nat.mod_lt a pos
  unfold roundHalfEven
  generalize a / b = q at parts ⊢
  generalize a % b = r at parts small ⊢
  have value : (a : ℚ) / b = q + r / b := by
    rw [parts]
    field_simp
  rw [value] at low high tie
  have nonneg : (0 : ℚ) ≤ r / b := by positivity
  have less : (r : ℚ) / b < 1 := (div_lt_one positive).mpr small
  dsimp only
  -- `r / b` is how far the fraction is above `q`, and half of the way the parity of `q` decides
  split
  · rename_i below
    have half := (lt_half_iff pos).mpr (Nat.compare_eq_lt.mp below)
    have upper : n < q + 1 := by exact_mod_cast (by linarith : (n : ℚ) < q + 1)
    have lower : q < n + 1 := by exact_mod_cast (by linarith : (q : ℚ) < n + 1)
    omega
  · rename_i middle
    have same := Nat.compare_eq_eq.mp middle
    have half : (r : ℚ) / b = 1 / 2 :=
      le_antisymm (not_lt.mp fun above => ((half_lt_iff pos).mp above).ne' same)
        (not_lt.mp fun below => ((lt_half_iff pos).mp below).ne same)
    rw [half] at low high tie
    have upper : n ≤ q + 1 := by exact_mod_cast (by linarith : (n : ℚ) ≤ q + 1)
    have lower : q ≤ n := by exact_mod_cast (by linarith : (q : ℚ) ≤ n)
    have even : n % 2 ≠ 1 := by
      intro odd
      obtain ⟨above, under⟩ := tie odd
      have less : n < q + 1 := by exact_mod_cast (by linarith : (n : ℚ) < q + 1)
      have more : q < n := by exact_mod_cast (by linarith : (q : ℚ) < n)
      omega
    omega
  · rename_i above
    have half := (half_lt_iff pos).mpr (Nat.compare_eq_gt.mp above)
    have upper : n < q + 2 := by exact_mod_cast (by linarith : (n : ℚ) < q + 2)
    have lower : q < n := by exact_mod_cast (by linarith : (q : ℚ) < n)
    omega

theorem log2_bounds {n : Nat} (pos : 0 < n) : (2 : ℚ) ^ (n.log2 : ℤ) ≤ n ∧ (n : ℚ) < 2 ^ ((n.log2 : ℤ) + 1) := by
  constructor
  · rw [zpow_natCast]
    exact_mod_cast Nat.log2_self_le pos.ne'
  · rw [← Nat.cast_succ, zpow_natCast]
    exact_mod_cast Nat.lt_log2_self

theorem floorLog2_bounds {num den : Nat} (positive : 0 < num) (pos : 0 < den) :
    (2 : ℚ) ^ floorLog2 num den ≤ num / den ∧ (num : ℚ) / den < 2 ^ (floorLog2 num den + 1) := by
  have den_pos : (0 : ℚ) < den := by exact_mod_cast pos
  have two : (2 : ℚ) ≠ 0 := by norm_num
  obtain ⟨num_low, num_high⟩ := log2_bounds positive
  obtain ⟨den_low, den_high⟩ := log2_bounds pos
  unfold floorLog2
  generalize (num.log2 : ℤ) = a at num_low num_high ⊢
  generalize (den.log2 : ℤ) = b at den_low den_high ⊢
  have least : (2 : ℚ) ^ (a - b - 1) ≤ num / den := by
    rw [le_div_iff₀ den_pos]
    calc (2 : ℚ) ^ (a - b - 1) * den ≤ 2 ^ (a - b - 1) * 2 ^ (b + 1) := by gcongr
      _ = 2 ^ a := by rw [← zpow_add₀ two]; congr 1; ring
      _ ≤ num := num_low
  have most : (num : ℚ) / den < 2 ^ (a - b + 1) := by
    rw [div_lt_iff₀ den_pos]
    calc (num : ℚ) < 2 ^ (a + 1) := num_high
      _ = 2 ^ (a - b + 1) * 2 ^ b := by rw [← zpow_add₀ two]; congr 1; ring
      _ ≤ 2 ^ (a - b + 1) * den := by gcongr
  have guess : den * powerPart 2 (a - b) ≤ num * powerPart 2 (-(a - b)) ↔ (2 : ℚ) ^ (a - b) ≤ num / den := by
    have pos' : (0 : ℚ) < powerPart 2 (-(a - b)) := by exact_mod_cast powerPart_pos Nat.zero_lt_two _
    have parts := powerPart_div Nat.zero_lt_two (a - b)
    push_cast at parts
    rw [← parts, div_le_div_iff₀ pos' den_pos, ← Nat.cast_le (α := ℚ)]
    push_cast
    rw [mul_comm (den : ℚ)]
  dsimp only
  split
  · rename_i holds
    exact ⟨guess.mp holds, most⟩
  · rename_i fails
    rw [sub_add_cancel]
    exact ⟨least, not_le.mp fun holds => fails (guess.mpr holds)⟩

/-- The word that comes out where the fraction is scaled by the right power and is nearest to a number there. -/
theorem nearestWord_eq {num den n : Nat} {e : Int} (positive : 0 < num) (pos : 0 < den)
    (scaled : max leastExponent (floorLog2 num den - 52) = e) (low : (n : ℚ) - 1 / 2 ≤ num / den / 2 ^ e)
    (high : (num : ℚ) / den / 2 ^ e ≤ n + 1 / 2)
    (tie : n % 2 = 1 → (n : ℚ) - 1 / 2 < num / den / 2 ^ e ∧ (num : ℚ) / den / 2 ^ e < n + 1 / 2) :
    nearestWord num den = min infinityWord ((e - leastExponent).toNat * binade + n) := by
  have fraction : ((num * powerPart 2 (-e) : ℕ) : ℚ) / (den * powerPart 2 e : ℕ) = num / den / 2 ^ e := by
    have parts := powerPart_div Nat.zero_lt_two e
    have pos' : (powerPart 2 (-e) : ℚ) ≠ 0 := by exact_mod_cast (powerPart_pos Nat.zero_lt_two _).ne'
    push_cast at parts ⊢
    rw [← parts, mul_div_mul_comm, div_div_eq_mul_div, mul_div_assoc]
  have rounded : roundHalfEven (num * powerPart 2 (-e)) (den * powerPart 2 e) = n := by
    rw [← fraction] at low high tie
    exact roundHalfEven_eq (Nat.mul_pos pos (powerPart_pos Nat.zero_lt_two e)) low high tie
  rw [nearestWord, if_neg positive.ne']
  simp only [scaled, rounded]

/-! ## Words -/

section Words

variable {word : Nat}

theorem word_eq (word : Nat) : (exponent word - leastExponent).toNat * binade + significand word = word := by
  unfold exponent significand
  have parts := Nat.div_add_mod word binade
  split
  · simp
  · rename_i large
    have quotient : 1 ≤ word / binade := (Nat.one_le_div_iff (by decide)).mpr (Nat.le_of_not_lt large)
    have carried : (leastExponent + (word / binade : ℕ) - 1 - leastExponent).toNat = word / binade - 1 := by omega
    rw [carried, Nat.sub_mul, Nat.mul_comm (word / binade)]
    have le : 1 * binade ≤ binade * (word / binade) := by
      rw [Nat.mul_comm]
      exact Nat.mul_le_mul_left _ quotient
    omega

theorem leastExponent_le (word : Nat) : leastExponent ≤ exponent word := by
  unfold exponent
  split
  · exact Int.le_refl _
  · rename_i large
    have quotient : 1 ≤ word / binade := (Nat.one_le_div_iff (by decide)).mpr (Nat.le_of_not_lt large)
    omega

theorem significand_lt (word : Nat) : significand word < 2 * binade := by
  unfold significand
  split
  · omega
  · have := Nat.mod_lt word (show 0 < binade by decide)
    omega

/-- Only the words of the least exponent have significands below a binade. -/
theorem exponent_of_small (small : significand word < binade) : exponent word = leastExponent := by
  unfold significand at small
  split at small
  · rename_i below
    exact if_pos below
  · omega

theorem significand_pos (nonzero : word ≠ 0) : 0 < significand word := by
  unfold significand
  split
  · exact Nat.pos_of_ne_zero nonzero
  · have : 0 < binade := by decide
    omega

end Words

/-! ## Rounding intervals -/

namespace Interval

/-- The order that the ends of the interval are compared in. -/
def Below (i : Interval) (x y : ℚ) : Prop := if i.closed then x ≤ y else x < y

def Holds (i : Interval) (x : ℚ) : Prop := i.Below (i.low / i.unit) x ∧ i.Below x (i.high / i.unit)

variable {i : Interval} {x y : ℚ}

theorem Below.le (below : i.Below x y) : x ≤ y := by
  unfold Below at below
  split at below
  · exact below
  · exact below.le

theorem Below.lt (below : i.Below x y) (opened : i.closed = false) : x < y := by
  simpa [Below, opened] using below

theorem below_of_lt (less : x < y) : i.Below x y := by
  unfold Below
  split
  · exact less.le
  · exact less

end Interval

/-- How far the interval reaches down, in units of the last place. -/
def reach (word : Nat) : ℚ := if significand word = binade ∧ exponent word ≠ leastExponent then 1 / 4 else 1 / 2

variable {word : Nat}

theorem quarters (k : Nat) (e : Int) : ((k * powerPart 2 (e - 2) : ℕ) : ℚ) / powerPart 2 (2 - e) = k / 4 * 2 ^ e := by
  have parts := powerPart_div Nat.zero_lt_two (e - 2)
  rw [neg_sub] at parts
  push_cast at parts ⊢
  rw [mul_div_assoc, parts, zpow_sub₀ two_ne_zero]
  norm_num
  ring

theorem low_eq (nonzero : word ≠ 0) :
    ((Interval.ofWord word).low : ℚ) / (Interval.ofWord word).unit = (significand word - reach word) * 2 ^ exponent word := by
  have pos := significand_pos nonzero
  refine (quarters _ _).trans ?_
  unfold reach
  split
  · rw [Nat.cast_sub (by omega)]
    push_cast
    ring
  · rw [Nat.cast_sub (by omega)]
    push_cast
    ring

theorem value_eq (word : Nat) :
    ((Interval.ofWord word).value : ℚ) / (Interval.ofWord word).unit = significand word * 2 ^ exponent word := by
  refine (quarters _ _).trans ?_
  push_cast
  ring

theorem high_eq (word : Nat) :
    ((Interval.ofWord word).high : ℚ) / (Interval.ofWord word).unit = (significand word + 1 / 2) * 2 ^ exponent word := by
  refine (quarters _ _).trans ?_
  push_cast
  ring

theorem closed_eq (word : Nat) : (Interval.ofWord word).closed = decide (significand word % 2 = 0) := rfl

theorem reach_le (word : Nat) : reach word ≤ 1 / 2 := by
  unfold reach
  split <;> norm_num

/-! ## Reading what is in an interval -/

section Reading

variable {num den : Nat}

/-- In units of the last place, the fraction is near the significand, and nearer if that is odd. -/
theorem near_of_holds (nonzero : word ≠ 0) {x : ℚ} (holds : (Interval.ofWord word).Holds x) :
    (significand word : ℚ) - reach word ≤ x / 2 ^ exponent word ∧ x / 2 ^ exponent word ≤ significand word + 1 / 2 ∧
      (significand word % 2 = 1 → (significand word : ℚ) - reach word < x / 2 ^ exponent word ∧
        x / 2 ^ exponent word < significand word + 1 / 2) := by
  have unit := two_zpow_pos (exponent word)
  obtain ⟨low, high⟩ := holds
  rw [low_eq nonzero] at low
  rw [high_eq] at high
  refine ⟨(le_div_iff₀ unit).mpr low.le, (div_le_iff₀ unit).mpr high.le, fun odd => ?_⟩
  have opened : (Interval.ofWord word).closed = false := by
    rw [closed_eq]
    exact decide_eq_false (by omega)
  exact ⟨(lt_div_iff₀ unit).mpr (low.lt opened), (div_lt_iff₀ unit).mpr (high.lt opened)⟩

theorem floorLog2_lt (positive : 0 < num) (pos : 0 < den) {k : Int} (less : (num : ℚ) / den < 2 ^ k) :
    floorLog2 num den < k := by
  obtain ⟨least, -⟩ := floorLog2_bounds positive pos
  exact (zpow_lt_zpow_iff_right₀ one_lt_two).mp (least.trans_lt less)

theorem le_floorLog2 (positive : 0 < num) (pos : 0 < den) {k : Int} (le : (2 : ℚ) ^ k ≤ num / den) :
    k ≤ floorLog2 num den := by
  obtain ⟨-, most⟩ := floorLog2_bounds positive pos
  exact Int.lt_add_one_iff.mp ((zpow_lt_zpow_iff_right₀ one_lt_two).mp (le.trans_lt most))

theorem binade_mul (e : Int) : (binade : ℚ) * 2 ^ e = 2 ^ (e + 52) := by
  rw [add_comm, zpow_add₀ two_ne_zero]
  norm_num [binade]

/-- Below the least significand of a binade the unit of the last place is half as large. -/
theorem nearestWord_of_under (nonzero : word ≠ 0) (finite : word < infinityWord) (positive : 0 < num) (pos : 0 < den)
    (holds : (Interval.ofWord word).Holds (num / den)) (start : significand word = binade)
    (inside : exponent word ≠ leastExponent) (under : (num : ℚ) / den < 2 ^ (exponent word + 52)) :
    nearestWord num den = word := by
  have least := leastExponent_le word
  have same := word_eq word
  obtain ⟨low, -, -⟩ := near_of_holds nonzero holds
  have unit := two_zpow_pos (exponent word)
  -- here the lower end is only a quarter of a unit away
  rw [reach, if_pos ⟨start, inside⟩, start] at low
  rw [← binade_mul, ← div_lt_iff₀ unit] at under
  have halved : (num : ℚ) / den / 2 ^ (exponent word - 1) = 2 * (num / den / 2 ^ exponent word) := by
    rw [zpow_sub₀ two_ne_zero]
    field_simp
  have below : floorLog2 num den < exponent word + 52 := by
    refine floorLog2_lt positive pos ?_
    rwa [← binade_mul, ← div_lt_iff₀ unit]
  have above : exponent word + 51 ≤ floorLog2 num den := by
    refine le_floorLog2 positive pos ?_
    rw [add_comm, zpow_add₀ two_ne_zero, ← le_div_iff₀ unit]
    norm_num [binade] at low ⊢
    linarith
  -- the fraction is scaled by half the unit, and what it is nearest to carries over into the next binade
  rw [nearestWord_eq (n := 2 * binade) (e := exponent word - 1) positive pos (by omega)]
  · have shifted : (exponent word - leastExponent).toNat = (exponent word - 1 - leastExponent).toNat + 1 := by omega
    rw [shifted, Nat.add_one_mul, start] at same
    rw [Nat.two_mul, ← Nat.add_assoc, same]
    exact Nat.min_eq_right finite.le
  · rw [halved]
    push_cast
    linarith
  · rw [halved]
    push_cast
    linarith
  · intro odd
    omega

theorem nearestWord_of_holds (nonzero : word ≠ 0) (finite : word < infinityWord) (positive : 0 < num) (pos : 0 < den)
    (holds : (Interval.ofWord word).Holds (num / den)) : nearestWord num den = word := by
  obtain ⟨low, high, tie⟩ := near_of_holds nonzero holds
  have unit := two_zpow_pos (exponent word)
  have least := leastExponent_le word
  have near := reach_le word
  by_cases start : (num : ℚ) / den < 2 ^ (exponent word + 52) ∧ significand word = binade ∧ exponent word ≠ leastExponent
  · obtain ⟨under, first, inside⟩ := start
    exact nearestWord_of_under nonzero finite positive pos holds first inside under
  · have scaled : max leastExponent (floorLog2 num den - 52) = exponent word := by
      by_cases under : (num : ℚ) / den < 2 ^ (exponent word + 52)
      · have lowest : exponent word = leastExponent := by
          -- otherwise the significand is not the least one, so the interval does not reach below the binade
          by_contra inside
          have large : binade + 1 ≤ significand word := by
            have : ¬ significand word < binade := mt exponent_of_small inside
            have : significand word ≠ binade := fun first => start ⟨under, first, inside⟩
            omega
          have beyond : (binade : ℚ) + 1 ≤ significand word := by exact_mod_cast large
          rw [← binade_mul, ← div_lt_iff₀ unit] at under
          linarith
        have := floorLog2_lt positive pos under
        omega
      · have above := le_floorLog2 positive pos (not_lt.mp under)
        have below : floorLog2 num den < exponent word + 52 + 1 := by
          refine floorLog2_lt positive pos ?_
          have most : (significand word : ℚ) + 1 ≤ 2 * binade := by exact_mod_cast significand_lt word
          rw [zpow_add_one₀ two_ne_zero, ← binade_mul, mul_right_comm, ← div_lt_iff₀ unit]
          linarith
        omega
    rw [nearestWord_eq positive pos scaled (by linarith) high, word_eq]
    · omega
    · intro odd
      obtain ⟨above, below⟩ := tie odd
      exact ⟨by linarith, below⟩

end Reading

end Lox.Number
