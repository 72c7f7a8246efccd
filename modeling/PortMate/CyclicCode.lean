import Mathlib.Algebra.Field.ZMod
import Mathlib.Algebra.Polynomial.RingDivision

namespace PortMate

open List Polynomial

section Words

variable {R : Type} [CommRing R]

/-- A word as a polynomial, the first symbol with the highest power. -/
noncomputable def wordPolynomial : List R → R[X]
  | [] => 0
  | symbol :: word => C symbol * X ^ word.length + wordPolynomial word

theorem wordPolynomial_append (front back : List R) :
    wordPolynomial (front ++ back) =
      wordPolynomial front * X ^ back.length + wordPolynomial back := by
  induction front with
  | nil => simp [wordPolynomial]
  | cons symbol front ih =>
    rw [cons_append, wordPolynomial, wordPolynomial, ih, length_append, pow_add]
    ring

theorem wordPolynomial_coeff (word : List R) (i : ℕ) :
    (wordPolynomial word).coeff i = (word.reverse[i]?).getD 0 := by
  induction word with
  | nil => simp [wordPolynomial]
  | cons symbol word ih =>
    rw [wordPolynomial, coeff_add, coeff_C_mul, coeff_X_pow, ih, reverse_cons,
      getElem?_append, length_reverse]
    by_cases last : i = word.length
    · subst last
      simp
    · by_cases inside : i < word.length
      · simp [last, inside]
      · have beyond : 1 ≤ i - word.length := by omega
        simp [last, inside, beyond, getElem?_eq_none]

theorem wordPolynomial_degree (word : List R) : (wordPolynomial word).degree < word.length := by
  rw [degree_lt_iff_coeff_zero]
  intro i beyond
  rw [wordPolynomial_coeff, getElem?_eq_none (by rwa [length_reverse])]
  rfl

theorem wordPolynomial_injective {first second : List R} (same : first.length = second.length)
    (equal : wordPolynomial first = wordPolynomial second) : first = second := by
  apply reverse_injective
  apply ext_getElem?
  intro i
  have coefficient := congrArg (fun p => coeff p i) equal
  simp only [wordPolynomial_coeff] at coefficient
  by_cases inside : i < first.length
  · rw [getElem?_eq_getElem (by rwa [length_reverse]),
      getElem?_eq_getElem (by rwa [length_reverse, ← same])] at coefficient ⊢
    exact congrArg some coefficient
  · rw [getElem?_eq_none (by rw [length_reverse]; omega),
      getElem?_eq_none (by rw [length_reverse]; omega)]

end Words

/-- Two words that differ, and only inside a window of at most `width` symbols. -/
def BurstApart {α : Type} (width : ℕ) (sent received : List α) : Prop :=
  ∃ front first second back, sent = front ++ first ++ back ∧ received = front ++ second ++ back ∧
    first.length = second.length ∧ first.length ≤ width ∧ first ≠ second

theorem BurstApart.length {α : Type} {width : ℕ} {sent received : List α}
    (apart : BurstApart width sent received) : received.length = sent.length := by
  obtain ⟨front, first, second, back, rfl, rfl, same, -, -⟩ := apart
  simp [same]

theorem BurstApart.map {α β : Type} {f : α → β} (injective : Function.Injective f) {width : ℕ}
    {sent received : List α} (apart : BurstApart width sent received) :
    BurstApart width (sent.map f) (received.map f) := by
  obtain ⟨front, first, second, back, rfl, rfl, same, short, differ⟩ := apart
  refine ⟨front.map f, first.map f, second.map f, back.map f, by simp, by simp, by simp [same],
    by simpa using short, fun equal => differ (map_injective_iff.mpr injective equal)⟩

theorem burst_detected {R : Type} [CommRing R] [IsDomain R] {g : R[X]} (constant : g.coeff 0 ≠ 0)
    {width : ℕ} (narrow : (width : WithBot ℕ) ≤ g.degree) {sent received : List R}
    (apart : BurstApart width sent received) (valid : g ∣ wordPolynomial sent) :
    ¬ g ∣ wordPolynomial received := by
  intro accepted
  obtain ⟨front, first, second, back, rfl, rfl, same, short, differ⟩ := apart
  have shifted : g ∣ (wordPolynomial first - wordPolynomial second) * X ^ back.length := by
    have difference := dvd_sub valid accepted
    simp only [wordPolynomial_append, same] at difference
    convert difference using 1
    ring
  obtain ⟨quotient, factored⟩ := shifted
  have powers : X ^ back.length ∣ quotient :=
    prime_X.pow_dvd_of_dvd_mul_left _ (fun divides => constant (X_dvd_iff.mp divides))
      ⟨_, factored.symm.trans (mul_comm _ _)⟩
  obtain ⟨remaining, rfl⟩ := powers
  have divides : g ∣ wordPolynomial first - wordPolynomial second := by
    refine ⟨remaining, mul_right_cancel₀ (pow_ne_zero back.length X_ne_zero) ?_⟩
    rw [factored]
    ring
  have small : (wordPolynomial first - wordPolynomial second).degree < g.degree := by
    refine lt_of_lt_of_le (lt_of_le_of_lt (degree_sub_le _ _) (max_lt ?_ ?_)) narrow
    · exact (wordPolynomial_degree first).trans_le (by exact_mod_cast short)
    · exact (wordPolynomial_degree second).trans_le (by exact_mod_cast same ▸ short)
  have equal := sub_eq_zero.mp (eq_zero_of_dvd_of_degree_lt divides small)
  exact differ (wordPolynomial_injective same equal)

theorem remainder_mul {R : Type} [CommRing R] {g : R[X]} (monic : g.Monic) (p q : R[X]) :
    (p %ₘ g * q) %ₘ g = (p * q) %ₘ g := by
  apply modByMonic_eq_of_dvd_sub monic
  rw [← sub_mul]
  exact (dvd_modByMonic_sub p g).mul_right q

section Register

variable {w : ℕ}

def bitValue (bit : Bool) : ZMod 2 := if bit then 1 else 0

theorem bitValue_injective : Function.Injective bitValue := by decide

theorem bitValue_xor (a b : Bool) : bitValue (a ^^ b) = bitValue a + bitValue b := by
  revert a b
  decide

def bitsOf (value : BitVec w) : List Bool := ((List.range w).map value.getLsbD).reverse

@[simp] theorem bitsOf_length (value : BitVec w) : (bitsOf value).length = w := by simp [bitsOf]

theorem bitsOf_append {m n : ℕ} (high : BitVec m) (low : BitVec n) :
    bitsOf (high ++ low) = bitsOf high ++ bitsOf low := by
  have places : List.range (m + n) = List.range n ++ (List.range m).map (n + ·) := by
    rw [Nat.add_comm, range_add]
  simp only [bitsOf, ← reverse_append, reverse_inj, places, map_append, map_map]
  congr 1
  · refine map_congr_left fun i mem => ?_
    rw [BitVec.getLsbD_append, if_pos (mem_range.mp mem)]
  · refine map_congr_left fun i _ => ?_
    simp [BitVec.getLsbD_append]

/-- Bits as a polynomial over the field of two elements. -/
noncomputable def bitsPolynomial (bits : List Bool) : (ZMod 2)[X] :=
  wordPolynomial (bits.map bitValue)

theorem bitsPolynomial_append (front back : List Bool) :
    bitsPolynomial (front ++ back) =
      bitsPolynomial front * X ^ back.length + bitsPolynomial back := by
  simp [bitsPolynomial, wordPolynomial_append]

theorem bitsPolynomial_coeff (value : BitVec w) (i : ℕ) :
    (bitsPolynomial (bitsOf value)).coeff i = bitValue (value.getLsbD i) := by
  rw [bitsPolynomial, wordPolynomial_coeff, bitsOf, ← map_reverse, reverse_reverse]
  by_cases inside : i < w
  · simp [inside]
  · simp [inside, bitValue, BitVec.getLsbD_of_ge value i (by omega)]

theorem bitsPolynomial_injective {a b : BitVec w}
    (equal : bitsPolynomial (bitsOf a) = bitsPolynomial (bitsOf b)) : a = b := by
  refine BitVec.eq_of_getLsbD_eq fun i _ => bitValue_injective ?_
  rw [← bitsPolynomial_coeff, ← bitsPolynomial_coeff, equal]

theorem bitsPolynomial_degree (value : BitVec w) : (bitsPolynomial (bitsOf value)).degree < w := by
  have degree := wordPolynomial_degree ((bitsOf value).map bitValue)
  rwa [length_map, bitsOf_length] at degree

theorem bitsPolynomial_xor (a b : BitVec w) :
    bitsPolynomial (bitsOf (a ^^^ b)) = bitsPolynomial (bitsOf a) + bitsPolynomial (bitsOf b) := by
  ext i
  rw [coeff_add, bitsPolynomial_coeff, bitsPolynomial_coeff, bitsPolynomial_coeff,
    BitVec.getLsbD_xor, bitValue_xor]

theorem bitsPolynomial_shifted {n : ℕ} (symbol : BitVec n) (fits : n ≤ w) :
    bitsPolynomial (bitsOf (symbol.setWidth w <<< (w - n))) =
      bitsPolynomial (bitsOf symbol) * X ^ (w - n) := by
  ext i
  rw [coeff_mul_X_pow', bitsPolynomial_coeff, bitsPolynomial_coeff, BitVec.getLsbD_shiftLeft]
  by_cases low : w - n ≤ i
  · by_cases inside : i < w
    · simp [low, inside, show ¬ i < w - n by omega, show i - (w - n) < w by omega]
    · simp [low, inside, BitVec.getLsbD_of_ge symbol (i - (w - n)) (by omega)]
  · simp [low, show i < w - n by omega, bitValue]

theorem bitsPolynomial_shift (register : BitVec w) :
    bitsPolynomial (bitsOf (register <<< 1)) + C (bitValue register.msb) * X ^ w =
      bitsPolynomial (bitsOf register) * X := by
  ext i
  rw [coeff_add, coeff_C_mul, coeff_X_pow, bitsPolynomial_coeff, BitVec.getLsbD_shiftLeft,
    BitVec.msb_eq_getLsbD_last]
  cases i with
  | zero =>
    by_cases empty : w = 0
    · subst empty
      simp [bitValue]
    · simp [bitValue, Ne.symm empty]
  | succ i =>
    rw [coeff_mul_X, bitsPolynomial_coeff]
    by_cases inside : i + 1 < w
    · simp [inside, show i + 1 ≠ w by omega]
    · by_cases last : i + 1 = w
      · simp [bitValue, ← last]
      · simp [inside, last, bitValue, BitVec.getLsbD_of_ge register i (by omega)]

/-- One shift of a check register, where `generator` holds the generator without its leading
term. -/
def cyclicShift (generator register : BitVec w) : BitVec w :=
  if register.msb then (register <<< 1) ^^^ generator else register <<< 1

noncomputable def generatorPolynomial (generator : BitVec w) : (ZMod 2)[X] :=
  X ^ w + bitsPolynomial (bitsOf generator)

variable (generator : BitVec w)

theorem generator_monic : (generatorPolynomial generator).Monic :=
  monic_X_pow_add (bitsPolynomial_degree generator)

theorem generator_degree : (generatorPolynomial generator).degree = w := by
  rw [generatorPolynomial, degree_add_eq_left_of_degree_lt] <;> rw [degree_X_pow]
  exact bitsPolynomial_degree generator

theorem register_remainder (register : BitVec w) :
    bitsPolynomial (bitsOf register) %ₘ generatorPolynomial generator =
      bitsPolynomial (bitsOf register) := by
  rw [modByMonic_eq_self_iff (generator_monic generator), generator_degree]
  exact bitsPolynomial_degree register

theorem double_eq_zero (p : (ZMod 2)[X]) : p + p = 0 := CharTwo.add_self_eq_zero p

theorem cyclicShift_polynomial (register : BitVec w) :
    bitsPolynomial (bitsOf (cyclicShift generator register)) =
      (bitsPolynomial (bitsOf register) * X) %ₘ generatorPolynomial generator := by
  rw [← register_remainder generator (cyclicShift generator register)]
  apply modByMonic_eq_of_dvd_sub (generator_monic generator)
  rw [← bitsPolynomial_shift register]
  unfold cyclicShift
  split
  next top =>
    refine ⟨-1, ?_⟩
    rw [bitsPolynomial_xor, top, generatorPolynomial]
    have twice := double_eq_zero (bitsPolynomial (bitsOf generator))
    simp only [bitValue, if_true, map_one]
    calc _ = (X ^ w + bitsPolynomial (bitsOf generator)) * -1 +
          (bitsPolynomial (bitsOf generator) + bitsPolynomial (bitsOf generator)) := by ring
      _ = _ := by rw [twice, add_zero]
  next low =>
    simp [Bool.eq_false_of_not_eq_true low, bitValue]

theorem cyclicShift_iterate (n : ℕ) (register : BitVec w) :
    bitsPolynomial (bitsOf ((cyclicShift generator)^[n] register)) =
      (bitsPolynomial (bitsOf register) * X ^ n) %ₘ generatorPolynomial generator := by
  induction n with
  | zero => simp [register_remainder]
  | succ n ih =>
    rw [Function.iterate_succ_apply', cyclicShift_polynomial, ih,
      remainder_mul (generator_monic generator), mul_assoc, ← pow_succ]

variable {n : ℕ} (fits : n ≤ w)

/-- The register after it has taken a symbol of `n` bits. -/
def cyclicStep (register : BitVec w) (symbol : BitVec n) : BitVec w :=
  (cyclicShift generator)^[n] (register ^^^ (symbol.setWidth w <<< (w - n)))

include fits

theorem cyclicStep_polynomial (register : BitVec w) (symbol : BitVec n) :
    bitsPolynomial (bitsOf (cyclicStep generator register symbol)) =
      (bitsPolynomial (bitsOf register) * X ^ n + bitsPolynomial (bitsOf symbol) * X ^ w) %ₘ
        generatorPolynomial generator := by
  have raised : (X : (ZMod 2)[X]) ^ (w - n) * X ^ n = X ^ w := by
    rw [← pow_add, Nat.sub_add_cancel fits]
  rw [cyclicStep, cyclicShift_iterate, bitsPolynomial_xor, bitsPolynomial_shifted symbol fits,
    add_mul, mul_assoc, raised]

theorem cyclicRegister_polynomial (register : BitVec w) (symbols : List (BitVec n)) :
    bitsPolynomial (bitsOf (symbols.foldl (cyclicStep generator) register)) =
      (bitsPolynomial (bitsOf register) * X ^ (n * symbols.length) +
        bitsPolynomial (symbols.flatMap bitsOf) * X ^ w) %ₘ generatorPolynomial generator := by
  induction symbols generalizing register with
  | nil =>
    have nothing : bitsPolynomial [] = 0 := rfl
    simp [nothing, register_remainder]
  | cons symbol symbols ih =>
    have size : (symbols.flatMap bitsOf).length = n * symbols.length := by
      simp [length_flatMap, Nat.mul_comm]
    rw [foldl_cons, ih, cyclicStep_polynomial generator fits, add_modByMonic,
      remainder_mul (generator_monic generator), ← add_modByMonic, flatMap_cons,
      bitsPolynomial_append, size, length_cons, Nat.mul_succ, pow_add]
    exact congrArg (· %ₘ generatorPolynomial generator) (by ring)

theorem cyclicRegister_empty (symbols : List (BitVec n)) :
    bitsPolynomial (bitsOf (symbols.foldl (cyclicStep generator) 0)) =
      (bitsPolynomial (symbols.flatMap bitsOf) * X ^ w) %ₘ generatorPolynomial generator := by
  have zero : bitsPolynomial (bitsOf (0 : BitVec w)) = 0 := by
    ext i
    simp [bitsPolynomial_coeff, bitValue]
  rw [cyclicRegister_polynomial generator fits, zero, zero_mul, zero_add]

theorem check_accepted_iff (symbols : List (BitVec n)) (check : BitVec w) :
    check = symbols.foldl (cyclicStep generator) 0 ↔
      generatorPolynomial generator ∣ bitsPolynomial (symbols.flatMap bitsOf ++ bitsOf check) := by
  rw [bitsPolynomial_append, bitsOf_length, ← modByMonic_eq_zero_iff_dvd (generator_monic generator),
    add_modByMonic, ← cyclicRegister_empty generator fits, register_remainder]
  constructor
  · rintro rfl
    exact double_eq_zero _
  · intro sum
    apply bitsPolynomial_injective
    calc bitsPolynomial (bitsOf check)
        = bitsPolynomial (bitsOf (symbols.foldl (cyclicStep generator) 0)) +
            (bitsPolynomial (bitsOf (symbols.foldl (cyclicStep generator) 0)) +
              bitsPolynomial (bitsOf check)) := by rw [← add_assoc, double_eq_zero, zero_add]
      _ = _ := by rw [sum, add_zero]

end Register

end PortMate
