import PlcAudit.Text.Alphabet

/-!
Characters by their codes. Letters and digits are ranges of ASCII, and a letter has its other case
at a fixed distance. Word characters and blanks are the same in any letter case, and no character is
both.
-/

namespace PlcAudit

/-! Letters and digits -/

theorem isUpper_iff {c : Char} : c.isUpper = true ↔ 65 ≤ c.toNat ∧ c.toNat ≤ 90 :=
  decide_eq_true_iff

theorem isLower_iff {c : Char} : c.isLower = true ↔ 97 ≤ c.toNat ∧ c.toNat ≤ 122 :=
  Bool.and_eq_true_iff.trans (and_congr decide_eq_true_iff decide_eq_true_iff)

theorem isAlpha_iff {c : Char} :
    c.isAlpha = true ↔ (65 ≤ c.toNat ∧ c.toNat ≤ 90) ∨ (97 ≤ c.toNat ∧ c.toNat ≤ 122) :=
  Bool.or_eq_true_iff.trans (or_congr isUpper_iff isLower_iff)

theorem isDigit_iff {c : Char} : c.isDigit = true ↔ 48 ≤ c.toNat ∧ c.toNat ≤ 57 :=
  Bool.and_eq_true_iff.trans (and_congr decide_eq_true_iff decide_eq_true_iff)

theorem toNat_toUpper (c : Char) :
    c.toUpper.toNat = if 97 ≤ c.toNat ∧ c.toNat ≤ 122 then c.toNat - 32 else c.toNat := by
  split
  · rename_i bounds
    -- Codes are words of 32 bits, so that 32 is taken away by adding its complement.
    have shifted : c.toUpper.toNat = (c.toNat + 4294967264) % 2 ^ 32 :=
      (congrArg Char.toNat (dif_pos bounds)).trans (UInt32.toNat_add ..)
    omega
  · rename_i other
    exact congrArg Char.toNat (dif_neg other)

theorem toNat_toLower (c : Char) :
    c.toLower.toNat = if 65 ≤ c.toNat ∧ c.toNat ≤ 90 then c.toNat + 32 else c.toNat := by
  split
  · rename_i bounds
    have shifted : c.toLower.toNat = (c.toNat + 32) % 2 ^ 32 :=
      (congrArg Char.toNat (dif_pos bounds)).trans (UInt32.toNat_add ..)
    omega
  · rename_i other
    exact congrArg Char.toNat (dif_neg other)

theorem isAlpha_toUpper {c : Char} (lower : c.isLower = true) : c.toUpper.isAlpha = true := by
  have bounds := isLower_iff.mp lower
  rw [isAlpha_iff, toNat_toUpper, if_pos bounds]
  omega

theorem isAlpha_toLower {c : Char} (upper : c.isUpper = true) : c.toLower.isAlpha = true := by
  have bounds := isUpper_iff.mp upper
  rw [isAlpha_iff, toNat_toLower, if_pos bounds]
  omega

/-! Word characters and blanks -/

theorem isWord_of_isAlpha {c : Char} (alpha : c.isAlpha = true) : Text.isWord c = true := by
  have bounds := isAlpha_iff.mp alpha
  have ascii : c.toNat < 0x80 := by omega
  simp [Text.isWord, ascii, Char.isAlphanum, alpha]

theorem isWord_toUpper (c : Char) : Text.isWord c.toUpper = Text.isWord c := by
  cases lower : c.isLower with
  | true =>
    have alpha : c.isAlpha = true := isAlpha_iff.mpr (.inr (isLower_iff.mp lower))
    rw [isWord_of_isAlpha alpha, isWord_of_isAlpha (isAlpha_toUpper lower)]
  | false =>
    have same : c.toUpper = c := by
      apply Char.toNat_inj.mp
      rw [toNat_toUpper, if_neg]
      rw [← isLower_iff, lower]
      decide
    rw [same]

/-- Every range of word characters lies between two blanks. -/
theorem wordRanges_between : ∀ range ∈ Text.wordRanges,
    0x3000 < range.1 ∨ 0xA0 < range.1 ∧ range.2 < 0x1680 ∨ 0x1680 < range.1 ∧ range.2 < 0x2000 ∨
      0x200A < range.1 ∧ range.2 < 0x2028 ∨ 0x202F < range.1 ∧ range.2 < 0x205F ∨
      0x205F < range.1 ∧ range.2 < 0x3000 := by
  decide +kernel

theorem not_isWord_of_isBlank {c : Char} (blank : Text.isBlank c = true) :
    Text.isWord c = false := by
  have code : ∃ range ∈ Text.blankRanges, range.1 ≤ c.toNat ∧ c.toNat ≤ range.2 := by
    simpa [Text.isBlank, Text.inRanges] using blank
  simp only [Text.blankRanges, List.mem_cons, List.not_mem_nil, or_false, exists_eq_or_imp,
    exists_eq_left] at code
  rw [Bool.eq_false_iff]
  intro word
  rw [Text.isWord] at word
  split at word
  · simp only [Char.isAlphanum, Bool.or_eq_true, isAlpha_iff, isDigit_iff, beq_iff_eq,
      ← Char.toNat_inj, Char.reduceToNat] at word
    omega
  · obtain ⟨range, member, inside⟩ := List.any_eq_true.mp word
    simp only [Bool.and_eq_true, decide_eq_true_eq] at inside
    have between := wordRanges_between range member
    omega

theorem not_isBlank_of_isWord {c : Char} (word : Text.isWord c = true) :
    Text.isBlank c = false := by
  rw [← Bool.not_eq_true]
  intro blank
  rw [not_isWord_of_isBlank blank] at word
  cases word

end PlcAudit
