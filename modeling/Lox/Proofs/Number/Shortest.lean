import Mathlib
import Lox.Proofs.Number.Rounding

/-!
# The shortest decimal reads back

Seventeen digits are enough for each double: the grid of decimals with that many digits is finer than the
rounding interval is wide. So the search for the shortest decimal ends with one that is in the interval
(`shortest_holds`), and such a decimal is read as the double.
-/

namespace Lox.Number

def Decimal.value (d : Decimal) : ℚ := d.digits * 10 ^ d.power

theorem Decimal.value_trim (d : Decimal) : d.trim.value = d.value := by
  fun_induction Decimal.trim d with
  | case1 d more ih =>
      rw [ih]
      have parts : (d.digits : ℚ) = 10 * (d.digits / 10 : ℕ) := by
        exact_mod_cast (Nat.mul_div_cancel' (Nat.dvd_of_mod_eq_zero more.1)).symm
      rw [Decimal.value, Decimal.value, parts, zpow_add_one₀ (by norm_num)]
      ring
  | case2 => rfl

theorem Decimal.power_le_trim (d : Decimal) : d.power ≤ d.trim.power := by
  fun_induction Decimal.trim d with
  | case1 d more ih => exact le_trans (by simp) ih
  | case2 => rfl

namespace Interval

structure Proper (i : Interval) : Prop where
  low : i.low < i.value
  high : i.value < i.high
  unit : 0 < i.unit

variable {i : Interval} {a n : Nat} {power : Int}

theorem admits_iff {x y : Nat} : i.admits x y = true ↔ i.Below x y := by
  unfold admits Below
  split <;> simp

theorem below_mul_iff {c x y : ℚ} (pos : 0 < c) : i.Below (x * c) (y * c) ↔ i.Below x y := by
  unfold Below
  split
  · exact mul_le_mul_iff_of_pos_right pos
  · exact mul_lt_mul_iff_of_pos_right pos

theorem common (proper : i.Proper) (a n : Nat) (power : Int) :
    0 < (i.unit * powerPart 10 (-power) : ℚ) ∧
      ((a * powerPart 10 (-power) : ℕ) : ℚ) = a / i.unit * (i.unit * powerPart 10 (-power)) ∧
      ((n * (i.unit * powerPart 10 power) : ℕ) : ℚ) = n * 10 ^ power * (i.unit * powerPart 10 (-power)) := by
  have unit : (0 : ℚ) < i.unit := by exact_mod_cast proper.unit
  have scale : (0 : ℚ) < powerPart 10 (-power) := by exact_mod_cast powerPart_pos (by norm_num) _
  have parts := powerPart_div (by norm_num : 0 < 10) power
  rw [div_eq_iff scale.ne'] at parts
  push_cast at parts ⊢
  refine ⟨by positivity, by field_simp, ?_⟩
  rw [parts]
  ring

theorem admits_grid (proper : i.Proper) :
    i.admits (a * powerPart 10 (-power)) (n * (i.unit * powerPart 10 power)) = true ↔
      i.Below (a / i.unit) (n * 10 ^ power) := by
  obtain ⟨pos, left, right⟩ := common proper a n power
  rw [admits_iff, left, right, below_mul_iff pos]

theorem grid_admits (proper : i.Proper) :
    i.admits (n * (i.unit * powerPart 10 power)) (a * powerPart 10 (-power)) = true ↔
      i.Below (n * 10 ^ power) (a / i.unit) := by
  obtain ⟨pos, left, right⟩ := common proper a n power
  rw [admits_iff, left, right, below_mul_iff pos]

theorem between (proper : i.Proper) (power : Int) :
    let below := i.value * powerPart 10 (-power) / (i.unit * powerPart 10 power)
    (below : ℚ) * 10 ^ power ≤ i.value / i.unit ∧ (i.value : ℚ) / i.unit < (below + 1 : ℕ) * 10 ^ power := by
  intro below
  have grid : 0 < i.unit * powerPart 10 power := Nat.mul_pos proper.unit (powerPart_pos (by norm_num) _)
  obtain ⟨pos, value, least⟩ := common proper i.value below power
  obtain ⟨-, -, most⟩ := common proper i.value (below + 1) power
  constructor
  · rw [← mul_le_mul_iff_of_pos_right pos, ← value, ← least]
    exact_mod_cast Nat.div_mul_le_self _ _
  · rw [← mul_lt_mul_iff_of_pos_right pos, ← value, ← most]
    exact_mod_cast Nat.lt_mul_of_div_lt (Nat.lt_succ_self below) grid

theorem Proper.low_lt (proper : i.Proper) : (i.low : ℚ) / i.unit < i.value / i.unit := by
  have unit : (0 : ℚ) < i.unit := by exact_mod_cast proper.unit
  have less : (i.low : ℚ) < i.value := by exact_mod_cast proper.low
  gcongr

theorem Proper.lt_high (proper : i.Proper) : (i.value : ℚ) / i.unit < i.high / i.unit := by
  have unit : (0 : ℚ) < i.unit := by exact_mod_cast proper.unit
  have less : (i.value : ℚ) < i.high := by exact_mod_cast proper.high
  gcongr

theorem Proper.holds (proper : i.Proper) : i.Holds (i.value / i.unit) :=
  ⟨below_of_lt proper.low_lt, below_of_lt proper.lt_high⟩

theorem pick?_holds (proper : i.Proper) {tie : Tie} {d : Decimal} (picked : i.pick? tie power = some d) :
    i.Holds d.value := by
  obtain ⟨least, most⟩ := between proper power
  unfold pick? at picked
  dsimp only at picked
  generalize i.value * powerPart 10 (-power) / (i.unit * powerPart 10 power) = below at least most picked
  have first (inside : i.admits (i.low * powerPart 10 (-power)) (below * (i.unit * powerPart 10 power)) = true) :
      i.Holds (Decimal.value ⟨below, power⟩) :=
    ⟨(admits_grid proper).mp inside, below_of_lt (least.trans_lt proper.lt_high)⟩
  have second (inside : i.admits ((below + 1) * (i.unit * powerPart 10 power)) (i.high * powerPart 10 (-power)) = true) :
      i.Holds (Decimal.value ⟨below + 1, power⟩) :=
    ⟨below_of_lt (proper.low_lt.trans most), (grid_admits proper).mp inside⟩
  split at picked
  · cases picked
  · rename_i lower upper
    cases picked
    exact first lower
  · rename_i lower upper
    cases picked
    exact second upper
  · rename_i lower upper
    split at picked <;> cases picked
    · exact first lower
    · exact second upper
    · exact second upper
    · rcases Nat.mod_two_eq_zero_or_one below with even | odd
      · rw [even]
        exact first lower
      · rw [odd]
        exact second upper

/-- On a grid that is finer than the interval is wide, a neighbour is inside. -/
theorem pick?_of_wide (proper : i.Proper) (tie : Tie) (wide : (i.low : ℚ) / i.unit + 10 ^ power < i.high / i.unit) :
    (i.pick? tie power).isSome := by
  obtain ⟨least, most⟩ := between proper power
  have inside :
      let below := i.value * powerPart 10 (-power) / (i.unit * powerPart 10 power)
      i.admits (i.low * powerPart 10 (-power)) (below * (i.unit * powerPart 10 power)) = true ∨
        i.admits ((below + 1) * (i.unit * powerPart 10 power)) (i.high * powerPart 10 (-power)) = true := by
    intro below
    rw [admits_grid proper, grid_admits proper]
    by_cases under : (i.low : ℚ) / i.unit < below * 10 ^ power
    · exact .inl (below_of_lt under)
    · refine .inr (below_of_lt ?_)
      push_cast
      linarith
  unfold pick?
  dsimp only at inside ⊢
  split
  · rename_i lower upper
    simp [lower, upper] at inside
  · rfl
  · rfl
  · split <;> rfl

theorem power_of_pick? {tie : Tie} {d : Decimal} (picked : i.pick? tie power = some d) :
    d.power = power := by
  unfold pick? at picked
  dsimp only at picked
  split at picked
  · cases picked
  · cases picked
    rfl
  · cases picked
    rfl
  · split at picked <;> cases picked <;> rfl

theorem pick?_of_grid {tie : Tie} (proper : i.Proper)
    (value : (i.value : ℚ) / i.unit = n * 10 ^ power) : (i.pick? tie power).isSome := by
  obtain ⟨least, most⟩ := between proper power
  have grid : (0 : ℚ) < 10 ^ power := zpow_pos (by norm_num) _
  rw [value, mul_le_mul_iff_of_pos_right grid, Nat.cast_le] at least
  rw [value, mul_lt_mul_iff_of_pos_right grid, Nat.cast_lt] at most
  have same := Nat.le_antisymm least (Nat.lt_succ_iff.mp most)
  have inside : i.admits (i.low * powerPart 10 (-power)) (n * (i.unit * powerPart 10 power)) = true := by
    rw [admits_grid proper, ← value]
    exact below_of_lt proper.low_lt
  unfold pick?
  dsimp only
  rw [same, inside]
  split
  · contradiction
  · rfl
  · rfl
  · split <;> rfl

theorem first_digit_le {n : Nat} (pos : 0 < n) : 10 ^ ((Nat.toDigits 10 n).length - 1) ≤ n := by
  rcases Nat.eq_zero_or_pos ((Nat.toDigits 10 n).length - 1) with none | some
  · rw [none]
    exact pos
  · by_contra less
    have short := (Nat.length_toDigits_le_iff (by norm_num) some).mpr (not_le.mp less)
    omega

theorem lt_first_digit (n : Nat) : n < 10 ^ (Nat.toDigits 10 n).length :=
  (Nat.length_toDigits_le_iff (by norm_num) Nat.length_toDigits_pos).mp Nat.le.refl

theorem leadingPower_le (proper : i.Proper) : (10 : ℚ) ^ i.leadingPower ≤ i.value / i.unit := by
  have positive : 0 < i.value := Nat.zero_lt_of_lt proper.low
  have unit : (0 : ℚ) < i.unit := by exact_mod_cast proper.unit
  unfold leadingPower
  split
  · rename_i large
    have some := Nat.length_toDigits_pos (b := 10) (n := i.value / i.unit)
    have power : ((Nat.toDigits 10 (i.value / i.unit)).length : ℤ) - 1 =
        ((Nat.toDigits 10 (i.value / i.unit)).length - 1 : ℕ) := by omega
    rw [power, zpow_natCast]
    calc (10 : ℚ) ^ ((Nat.toDigits 10 (i.value / i.unit)).length - 1) ≤ (i.value / i.unit : ℕ) := by
          exact_mod_cast first_digit_le (Nat.div_pos large proper.unit)
      _ ≤ i.value / i.unit := Nat.cast_div_le
  · have quotient := Nat.lt_mul_div_succ (i.unit + i.value - 1) positive
    have digits := lt_first_digit ((i.unit + i.value - 1) / i.value - 1)
    generalize (i.unit + i.value - 1) / i.value = c at quotient digits ⊢
    have covered : i.unit ≤ i.value * 10 ^ (Nat.toDigits 10 (c - 1)).length := by
      rw [Nat.mul_succ] at quotient
      calc i.unit ≤ i.value * c := by omega
        _ ≤ i.value * 10 ^ (Nat.toDigits 10 (c - 1)).length := Nat.mul_le_mul_left _ (by omega)
    have covered' : (i.unit : ℚ) ≤ i.value * 10 ^ (Nat.toDigits 10 (c - 1)).length := by exact_mod_cast covered
    rw [zpow_neg, zpow_natCast, inv_eq_one_div, div_le_div_iff₀ (by positivity) unit]
    linarith

end Interval

/-! ## Words -/

section Words

variable {word : Nat}

theorem proper_ofWord (nonzero : word ≠ 0) : (Interval.ofWord word).Proper := by
  have pos := significand_pos nonzero
  have scale : 0 < powerPart 2 (exponent word - 2) := powerPart_pos Nat.zero_lt_two _
  refine ⟨?_, ?_, powerPart_pos Nat.zero_lt_two _⟩
  · refine Nat.mul_lt_mul_of_pos_right ?_ scale
    split <;> omega
  · exact Nat.mul_lt_mul_of_pos_right (Nat.lt_add_of_pos_right Nat.zero_lt_two) scale

/-- The grid of decimals with seventeen digits is finer than the interval is wide. -/
theorem seventeen_suffice (nonzero : word ≠ 0) :
    let i := Interval.ofWord word
    (i.low : ℚ) / i.unit + 10 ^ (i.leadingPower - 16) < i.high / i.unit := by
  intro i
  have proper := proper_ofWord nonzero
  have leading := i.leadingPower_le proper
  have unit := two_zpow_pos (exponent word)
  have grid : (10 : ℚ) ^ (i.leadingPower - 16) ≤ significand word / 10 ^ 16 * 2 ^ exponent word := by
    rw [value_eq] at leading
    rw [zpow_sub₀ (by norm_num), div_mul_eq_mul_div]
    exact div_le_div_of_nonneg_right leading (by norm_num)
  have width : (significand word : ℚ) / 10 ^ 16 < reach word + 1 / 2 := by
    unfold reach
    split
    · rename_i start
      rw [start.1]
      norm_num [binade]
    · have most : (significand word : ℚ) < (2 * binade : ℕ) := by exact_mod_cast significand_lt word
      rw [div_lt_iff₀ (by norm_num)]
      refine most.trans ?_
      norm_num [binade]
  have wide := mul_lt_mul_of_pos_right width unit
  rw [low_eq nonzero, high_eq]
  linarith

theorem shortest_holds (tie : Tie) (nonzero : word ≠ 0) : (Interval.ofWord word).Holds (shortest tie word).value := by
  have proper := proper_ofWord nonzero
  rw [shortest, if_neg nonzero]
  dsimp only
  split
  · rename_i d found
    obtain ⟨more, -, picked⟩ := List.exists_of_findSome?_eq_some found
    rw [Decimal.value_trim]
    exact Interval.pick?_holds proper picked
  · rename_i nothing
    have last := List.findSome?_eq_none_iff.mp nothing 16 (by decide)
    have picked := Interval.pick?_of_wide proper tie (seventeen_suffice nonzero)
    rw [Nat.cast_ofNat] at last
    rw [last] at picked
    cases picked

theorem ofDecimal_of_holds {d : Decimal} (nonzero : word ≠ 0) (finite : word < infinityWord)
    (holds : (Interval.ofWord word).Holds d.value) : ofDecimal d.digits d.power = .ofBits (.ofNat word) := by
  have fraction : ((d.digits * powerPart 10 d.power : ℕ) : ℚ) / powerPart 10 (-d.power) = d.value := by
    have parts := powerPart_div (by norm_num : 0 < 10) d.power
    push_cast at parts ⊢
    rw [mul_div_assoc, parts, Decimal.value]
  have positive : 0 < d.value := by
    obtain ⟨low, -, -⟩ := near_of_holds nonzero holds
    have pos : (1 : ℚ) ≤ significand word := by exact_mod_cast significand_pos nonzero
    have near := reach_le word
    have away : 0 < significand word - reach word := by linarith
    exact (div_pos_iff_of_pos_right (two_zpow_pos _)).mp (away.trans_le low)
  have some : 0 < d.digits * powerPart 10 d.power := by
    refine Nat.pos_of_ne_zero fun none => ?_
    rw [← fraction, none, Nat.cast_zero, zero_div] at positive
    exact positive.false
  rw [← fraction] at holds
  rw [ofDecimal, nearestWord_of_holds nonzero finite some (powerPart_pos (by norm_num) _) holds]

theorem ofDecimal_shortest (tie : Tie) (finite : word < infinityWord) :
    ofDecimal (shortest tie word).digits (shortest tie word).power = .ofBits (.ofNat word) := by
  by_cases nonzero : word = 0
  · rw [nonzero, shortest, if_pos rfl]
    decide
  · exact ofDecimal_of_holds nonzero finite (shortest_holds tie nonzero)

/-! ## Whole numbers -/

theorem findSome?_range {α : Type} {f : Nat → Option α} {n k : Nat} {a : α}
    (found : (List.range n).findSome? f = some a) (some : (f k).isSome) : ∃ j ≤ k, f j = .some a := by
  obtain ⟨before, j, after, range, here, nothing⟩ := List.findSome?_eq_some_iff.mp found
  rw [List.range_eq_range', List.range'_eq_append_iff] at range
  obtain ⟨start, -, rfl, rest⟩ := range
  obtain ⟨first, -⟩ := List.range'_eq_cons_iff.mp rest.symm
  refine ⟨j, not_lt.mp fun less => ?_, here⟩
  have none := nothing k (by simp; omega)
  simp [none] at some

theorem floor_eq (whole : isWhole word = true) :
    (floor word : ℚ) = (Interval.ofWord word).value / (Interval.ofWord word).unit := by
  have pos := powerPart_pos Nat.zero_lt_two (-exponent word)
  have exact : powerPart 2 (-exponent word) ∣ significand word * powerPart 2 (exponent word) :=
    Nat.dvd_mul_right_of_dvd (Nat.dvd_of_mod_eq_zero (by simpa [isWhole] using whole)) _
  have parts := powerPart_div Nat.zero_lt_two (exponent word)
  rw [Nat.cast_ofNat] at parts
  rw [floor, Nat.cast_div exact (by exact_mod_cast pos.ne'), value_eq, Nat.cast_mul, mul_div_assoc, parts]

theorem floor_mul_unit (nonzero : word ≠ 0) (whole : isWhole word = true) :
    floor word * (Interval.ofWord word).unit = (Interval.ofWord word).value := by
  have unit : ((Interval.ofWord word).unit : ℚ) ≠ 0 := by exact_mod_cast (proper_ofWord nonzero).unit.ne'
  exact_mod_cast (eq_div_iff unit).mp (floor_eq whole)

theorem floor_pos (nonzero : word ≠ 0) (whole : isWhole word = true) : 0 < floor word := by
  have value := Nat.zero_lt_of_lt (proper_ofWord nonzero).low
  rw [← floor_mul_unit nonzero whole] at value
  exact Nat.pos_of_mul_pos_right value

/-- The units of a whole number below `2 ^ 53` are at least as large as the gaps between doubles there. -/
theorem exponent_nonpos (small : floor word < 2 * binade) : exponent word ≤ 0 := by
  by_contra large
  obtain ⟨k, power⟩ := Int.eq_ofNat_of_zero_le (not_le.mp large).le
  have normal : binade ≤ significand word := by
    by_contra less
    have least := exponent_of_small (not_le.mp less)
    rw [least] at large
    exact large (by decide)
  have most : 2 ^ k * binade ≤ floor word := by
    simpa [floor, powerPart, power, Nat.mul_comm] using Nat.mul_le_mul_left (2 ^ k) normal
  have double : 2 * binade ≤ 2 ^ k * binade :=
    Nat.mul_le_mul_right _ (Nat.le_self_pow (by omega) 2)
  omega

/-- The interval of a whole number below `2 ^ 53` has no other whole number. -/
theorem eq_floor_of_holds (nonzero : word ≠ 0) (whole : isWhole word = true) (small : floor word < 2 * binade) {n : Nat}
    (holds : (Interval.ofWord word).Holds n) : n = floor word := by
  have value := floor_eq whole
  have step := two_zpow_pos (exponent word)
  have short : (2 : ℚ) ^ exponent word ≤ 1 := zpow_le_one_of_nonpos₀ (by norm_num) (exponent_nonpos small)
  have width : reach word * 2 ^ exponent word ≤ 1 / 2 * 1 := mul_le_mul (reach_le word) short step.le (by norm_num)
  obtain ⟨low, high, -⟩ := near_of_holds nonzero holds
  rw [value_eq] at value
  rw [le_div_iff₀ step, sub_mul, ← value] at low
  rw [div_le_iff₀ step, add_mul, ← value] at high
  have least : (floor word : ℚ) < (n + 1 : ℕ) := by
    push_cast
    linarith
  have most : (n : ℚ) < (floor word + 1 : ℕ) := by
    push_cast
    linarith
  exact Nat.le_antisymm (Nat.lt_succ_iff.mp (by exact_mod_cast most)) (Nat.lt_succ_iff.mp (by exact_mod_cast least))

/-- The grid of the whole numbers is tried, and the decimals that are tried before it have no fraction either. -/
theorem shortest_power (tie : Tie) (nonzero : word ≠ 0) (whole : isWhole word = true) : 0 ≤ (shortest tie word).power := by
  have proper := proper_ofWord nonzero
  have leading : (Interval.ofWord word).leadingPower = ((Nat.toDigits 10 (floor word)).length - 1 : ℕ) := by
    have length := Nat.length_toDigits_pos (b := 10) (n := floor word)
    rw [Interval.leadingPower, ← floor_mul_unit nonzero whole, if_pos (Nat.le_mul_of_pos_left _ (floor_pos nonzero whole)),
      Nat.mul_div_cancel _ proper.unit]
    omega
  have picked : ((Interval.ofWord word).pick? tie 0).isSome :=
    Interval.pick?_of_grid proper (by rw [← floor_eq whole, zpow_zero, mul_one])
  rw [shortest, if_neg nonzero]
  dsimp only
  split
  · rename_i d found
    rw [leading] at found
    obtain ⟨more, le, here⟩ :=
      findSome?_range found (k := (Nat.toDigits 10 (floor word)).length - 1) (by simpa using picked)
    have power := Interval.power_of_pick? here
    have trimmed := d.power_le_trim
    omega
  · exact le_rfl

theorem shortest_whole (tie : Tie) (nonzero : word ≠ 0) (whole : isWhole word = true) (small : floor word < 2 * binade) :
    (shortest tie word).value = floor word := by
  have holds := shortest_holds tie nonzero
  obtain ⟨zeros, power⟩ := Int.eq_ofNat_of_zero_le (shortest_power tie nonzero whole)
  have natural : (shortest tie word).value = ((shortest tie word).digits * 10 ^ zeros : ℕ) := by
    rw [Decimal.value, power, zpow_natCast, Nat.cast_mul, Nat.cast_pow, Nat.cast_ofNat]
  rw [natural] at holds ⊢
  rw [eq_floor_of_holds nonzero whole small holds]

end Words

end Lox.Number
