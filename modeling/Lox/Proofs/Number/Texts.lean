import Mathlib
import Lox.Number.Text
import Lox.Proofs.Number.Bits
import Lox.Proofs.Number.Shortest
import Lox.Proofs.Scanner.Layout

/-!
# Number texts are number tokens

A decimal that is written without an exponent has a point between digits only, so it is one number token. With
the shortest digits, or with all digits of a whole number, the token denotes the double that was written.
-/

namespace Lox.Number

variable {word : Nat}

/-! ## Decimals without exponent -/

theorem digit_of_mem_chars {d : Decimal} {c : Char} (mem : c ∈ d.chars) : c.isDigit = true :=
  Nat.isDigit_of_mem_toDigits (by decide) (by decide) mem

theorem digit_of_mem_zeros {n : Nat} {c : Char} (mem : c ∈ List.replicate n '0') : c.isDigit = true := by
  rw [List.eq_of_mem_replicate mem]
  decide

theorem ofDecimal_shift (digits zeros : Nat) : ofDecimal (10 ^ zeros * digits) 0 = ofDecimal digits zeros := by
  simp [ofDecimal, powerPart, Nat.mul_comm]

/-- A decimal is written as its digits with zeros behind, with a point inside, or with zeros in front. -/
theorem spells_plain (d : Decimal) : Spells (.number (ofDecimal d.digits d.power)) (plain d).toList := by
  have value : Nat.ofDigitChars 10 d.chars 0 = d.digits := Nat.ofDigitChars_ten_toDigits
  have some : 0 < d.chars.length := Nat.length_toDigits_pos
  unfold plain
  dsimp only
  split
  · rename_i whole
    obtain ⟨zeros, power⟩ := Int.eq_ofNat_of_zero_le whole
    have spells : Spells _ (d.chars ++ List.replicate zeros '0') :=
      .whole (List.append_ne_nil_of_left_ne_nil (List.length_pos_iff.mp some) _)
        fun c mem => (List.mem_append.mp mem).elim digit_of_mem_chars digit_of_mem_zeros
    rw [Nat.ofDigitChars_append, value, Nat.ofDigitChars_replicate_zero, ofDecimal_shift] at spells
    simpa [power] using spells
  · rename_i fraction
    obtain ⟨places, power⟩ := Int.exists_eq_neg_ofNat (not_le.mp fraction).le
    rw [power, neg_neg, Int.toNat_natCast]
    split
    · rename_i short
      have spells : Spells _ (d.chars.take (d.chars.length - places) ++ '.' :: d.chars.drop (d.chars.length - places)) :=
        .decimal (List.length_pos_iff.mp (by simp; omega)) (fun c mem => digit_of_mem_chars (List.mem_of_mem_take mem))
          (List.length_pos_iff.mp (by simp; omega)) fun c mem => digit_of_mem_chars (List.mem_of_mem_drop mem)
      rw [List.take_append_drop, value, List.length_drop, Nat.sub_sub_self short.le] at spells
      simpa using spells
    · rename_i long
      have spells : Spells _ (['0'] ++ '.' :: (List.replicate (places - d.chars.length) '0' ++ d.chars)) :=
        .decimal (by simp) (by simp) (List.length_pos_iff.mp (by simp; omega))
          fun c mem => (List.mem_append.mp mem).elim digit_of_mem_zeros digit_of_mem_chars
      rw [List.singleton_append, Nat.ofDigitChars_cons, Nat.ofDigitChars_append, Nat.ofDigitChars_replicate_zero,
        List.length_append, List.length_replicate, Nat.sub_add_cancel (not_lt.mp long)] at spells
      simpa [value] using spells

/-! ## Doubles -/

theorem spells_shortest (tie : Tie) (finite : word < infinityWord) :
    Spells (.number (ofParts false word)) (plain (shortest tie word)).toList := by
  have spells := spells_plain (shortest tie word)
  rw [ofDecimal_shortest tie finite] at spells
  simpa [ofParts, bits] using spells

theorem spells_floor (finite : word < infinityWord) (whole : isWhole word = true) :
    Spells (.number (ofParts false word)) (toString (floor word) ++ ".0").toList := by
  have spells : Spells _ (Nat.toDigits 10 (floor word) ++ '.' :: ['0']) :=
    .decimal Nat.toDigits_ne_nil (fun c mem => Nat.isDigit_of_mem_toDigits (by decide) (by decide) mem) (by simp) (by simp)
  have reads : ofDecimal (10 * floor word) (-1) = ofParts false word := by
    by_cases nonzero : word = 0
    · have none : floor word = 0 := by simp [nonzero, floor, significand, binade]
      rw [none, nonzero]
      decide
    · have holds := (proper_ofWord nonzero).holds
      rw [← floor_eq whole] at holds
      have value : (Decimal.mk (10 * floor word) (-1)).value = floor word := by
        simp [Decimal.value]
        ring
      rw [← value] at holds
      simpa [ofParts, bits] using ofDecimal_of_holds nonzero finite holds
  rw [Nat.ofDigitChars_append, Nat.ofDigitChars_ten_toDigits] at spells
  simpa [Nat.ofDigitChars_cons, reads] using spells

/-! ## Prefix forms -/

theorem ofParts_of_spells {v : Float} {chars : List Char} (spells : Spells (.number v) chars)
    (finite : v.isFinite = true) : ∃ word < infinityWord, v = ofParts false word := by
  have read (digits : Nat) (power : Int) (finite : (ofDecimal digits power).isFinite = true) :
      ∃ word < infinityWord, ofDecimal digits power = ofParts false word := by
    rw [ofDecimal] at finite ⊢
    have bound : nearestWord (digits * powerPart 10 power) (powerPart 10 (-power)) ≤ infinityWord := by
      unfold nearestWord
      split
      · decide
      · exact Nat.min_le_left _ _
    generalize nearestWord (digits * powerPart 10 power) (powerPart 10 (-power)) = word at bound finite
    refine ⟨word, lt_of_le_of_ne bound ?_, by simp [ofParts, bits]⟩
    rintro rfl
    revert finite
    decide
  cases spells with
  | whole => exact read _ _ finite
  | decimal => exact read _ _ finite

theorem spells_prefixForm {v : Float} {chars : List Char} (spells : Spells (.number v) chars)
    (finite : v.isFinite = true) : Spells (.number v) (prefixForm v).toList := by
  obtain ⟨word, small, rfl⟩ := ofParts_of_spells spells finite
  rw [prefixForm, write, shape_ofParts small]
  simp only [signed, Bool.false_eq_true, if_false]
  split
  · rename_i whole
    exact spells_floor small whole
  · exact spells_shortest .up small

/-! ## Whole numbers as integers -/

theorem toDigits_append_zeros {n : Nat} (pos : 0 < n) (zeros : Nat) :
    Nat.toDigits 10 n ++ List.replicate zeros '0' = Nat.toDigits 10 (n * 10 ^ zeros) := by
  induction zeros with
  | zero => simp
  | succ zeros ih =>
      have last := Nat.toDigits_append_toDigits (b := 10) (n := n * 10 ^ zeros) (d := 0) (by decide) (by positivity)
        (by decide)
      rw [List.replicate_succ', ← List.append_assoc, ih, pow_succ]
      calc Nat.toDigits 10 (n * 10 ^ zeros) ++ ['0'] = Nat.toDigits 10 (10 * (n * 10 ^ zeros) + 0) := last
        _ = Nat.toDigits 10 (n * (10 ^ zeros * 10)) := by ring_nf

theorem plain_of_value {d : Decimal} {n : Nat} (power : 0 ≤ d.power) (some : n ≠ 0) (value : d.value = n) :
    plain d = toString n := by
  obtain ⟨zeros, exact⟩ := Int.eq_ofNat_of_zero_le power
  have product : d.digits * 10 ^ zeros = n := by
    rw [Decimal.value, exact, zpow_natCast] at value
    exact_mod_cast value
  have pos : 0 < d.digits := Nat.pos_of_ne_zero fun none => some (by rw [← product, none, Nat.zero_mul])
  unfold plain
  dsimp only
  rw [if_pos power, exact, Int.toNat_natCast, Decimal.chars, toDigits_append_zeros pos, product]
  rfl

theorem plain_shortest_whole (tie : Tie) (whole : isWhole word = true) (small : floor word < 2 * binade) :
    plain (shortest tie word) = toString (floor word) := by
  by_cases nonzero : word = 0
  · have none : floor word = 0 := by simp [nonzero, floor, significand, binade]
    rw [none, nonzero, shortest, if_pos rfl]
    decide
  · have value := shortest_whole tie nonzero whole small
    exact plain_of_value (shortest_power tie nonzero whole) (floor_pos nonzero whole).ne' value

theorem display_whole {v : Float} {negative : Bool} (shaped : shape v = .finite negative word) (whole : isWhole word = true)
    (small : floor word < 2 * binade) : display v = signed negative (toString (floor word)) := by
  rw [display, write, shaped, ← plain_shortest_whole .up whole small]

end Lox.Number
