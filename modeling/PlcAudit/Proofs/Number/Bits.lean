import Mathlib.Data.Int.Bitwise
import PlcAudit.Code.Literal

/-!
Words and whole numbers. A 64-bit word stands for a whole number, whose bits in two's complement are
those of the word and, above them, the sign. So operations on the bits of words are operations on
the bits of the numbers, and a number fits in a word if some word stands for it.
-/

namespace PlcAudit

/-- Whole numbers are given by their bits. -/
theorem int_eq_of_testBit {first second : Int}
    (same : ∀ position, first.testBit position = second.testBit position) : first = second := by
  -- Far up, a number that is not negative has zeros and a negative one has ones.
  have apart (small large : Nat) :
      ¬ ∀ position, Nat.testBit small position = !Nat.testBit large position := by
    intro opposite
    have above := opposite (small + large)
    rw [Nat.testBit_lt_two_pow, Nat.testBit_lt_two_pow] at above
    · cases above
    · exact Nat.lt_of_le_of_lt (Nat.le_add_left large small) Nat.lt_two_pow_self
    · exact Nat.lt_of_le_of_lt (Nat.le_add_right small large) Nat.lt_two_pow_self
  match first, second with
  | .ofNat first, .ofNat second => exact congrArg _ (Nat.eq_of_testBit_eq same)
  | .ofNat first, .negSucc second => exact absurd same (apart first second)
  | .negSucc first, .ofNat second =>
    exact absurd (fun position => (same position).symm) (apart second first)
  | .negSucc first, .negSucc second =>
    exact congrArg _ (Nat.eq_of_testBit_eq fun position => Bool.not_inj (same position))

/-- The number of a word has the bits of the word, and its sign above them. -/
theorem testBit_toInt {width : Nat} (word : BitVec width) (position : Nat) :
    word.toInt.testBit position =
      if position < width then word.getLsbD position else word.msb := by
  rw [BitVec.toInt_eq_msb_cond]
  cases sign : word.msb with
  | false =>
    change word.toNat.testBit position = _
    rw [BitVec.testBit_toNat]
    split
    · rfl
    · rename_i above
      exact BitVec.getLsbD_of_ge _ _ (Nat.not_lt.mp above)
  | true =>
    have below := word.isLt
    have negative : (word.toNat : Int) - (2 ^ width : Nat) =
        .negSucc (2 ^ width - (word.toNat + 1)) := by
      omega
    rw [if_pos rfl, negative]
    change (!Nat.testBit _ position) = _
    rw [Nat.testBit_two_pow_sub_succ below, BitVec.testBit_toNat]
    by_cases inside : position < width <;> simp [inside]

/-- What combines words bit by bit combines their numbers bit by bit. -/
theorem toInt_bitwise {combine : Bool → Bool → Bool} {words : BitVec 64 → BitVec 64 → BitVec 64}
    {numbers : Int → Int → Int}
    (bits : ∀ first second position, (words first second).getLsbD position =
      combine (first.getLsbD position) (second.getLsbD position))
    (signs : ∀ first second, (words first second).msb = combine first.msb second.msb)
    (all : ∀ first second position, (numbers first second).testBit position =
      combine (first.testBit position) (second.testBit position))
    (first second : BitVec 64) :
    (words first second).toInt = numbers first.toInt second.toInt := by
  apply int_eq_of_testBit
  intro position
  rw [all, testBit_toInt, testBit_toInt, testBit_toInt, bits, signs]
  split <;> rfl

theorem toInt_and (first second : Int64) :
    (first &&& second).toInt = first.toInt.land second.toInt :=
  toInt_bitwise (fun _ _ _ => BitVec.getLsbD_and) (fun _ _ => BitVec.msb_and) Int.testBit_land ..

theorem toInt_or (first second : Int64) :
    (first ||| second).toInt = first.toInt.lor second.toInt :=
  toInt_bitwise (fun _ _ _ => BitVec.getLsbD_or) (fun _ _ => BitVec.msb_or) Int.testBit_lor ..

theorem toInt_xor (first second : Int64) :
    (first ^^^ second).toInt = first.toInt.xor second.toInt :=
  toInt_bitwise (fun _ _ _ => BitVec.getLsbD_xor) (fun _ _ => BitVec.msb_xor) Int.testBit_lxor ..

theorem toInt_not (word : Int64) : (~~~word).toInt = word.toInt.lnot := by
  apply int_eq_of_testBit
  intro position
  rw [Int.testBit_lnot, ← Int64.toInt_toBitVec, ← Int64.toInt_toBitVec, testBit_toInt,
    testBit_toInt, Int64.toBitVec_not, BitVec.getLsbD_not, BitVec.msb_not]
  split
  · rename_i inside
    simp [inside]
  · simp

/-- A number is narrowed to the word that stands for it. -/
theorem narrow?_eq_some_iff (value : Int) (word : Int64) :
    Code.narrow? value = some word ↔ word.toInt = value := by
  unfold Code.narrow?
  constructor
  · intro narrowed
    split at narrowed
    · rename_i range
      cases narrowed
      have above : value < 2 ^ 63 := Int.lt_of_le_of_lt range.2 (by decide)
      exact Int64.toInt_ofInt_of_le range.1 above
    · cases narrowed
  · rintro rfl
    rw [if_pos ⟨word.minValue_le_toInt, word.toInt_le⟩, Int64.ofInt_toInt]

end PlcAudit
