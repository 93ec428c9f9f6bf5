import Mathlib.Data.List.Forall2
import Mathlib.Data.List.Induction
import Mathlib.Data.Nat.Digits.Defs
import PlcAudit.Proofs.Code.Legible
import PlcAudit.Proofs.Number.Bits
import PlcAudit.Proofs.Text.Character

/-!
Texts of integers. A literal is read exactly if it is a numeral with a sign or without, in a base
that may stand before a number sign, and the number has 64 bits. So every form in which an integer
can be written is read as that integer, wherever underscores are put in.
-/

namespace PlcAudit.Code

/-! Digits and numerals -/

/-- A character stands for a digit: a numeral up to nine, and a letter of either case behind. -/
inductive StandsFor (c : Char) (digit : Nat) : Prop where
  | numeral (small : digit < 10) (code : c.toNat = 48 + digit)
  | lower (large : 10 ≤ digit) (last : digit < 36) (code : c.toNat = 87 + digit)
  | upper (large : 10 ≤ digit) (last : digit < 36) (code : c.toNat = 55 + digit)

/-- A number written in a base: a digit, or a number with one digit more at its end. -/
inductive Numeral (base : Nat) : Nat → List Char → Prop where
  | single {digit : Nat} {c : Char} (stands : StandsFor c digit) (below : digit < base) :
      Numeral base digit [c]
  | snoc {value digit : Nat} {text : List Char} {c : Char} (before : Numeral base value text)
      (stands : StandsFor c digit) (below : digit < base) :
      Numeral base (base * value + digit) (text ++ [c])

theorem digitValue?_eq_some_iff {c : Char} {digit : Nat} :
    digitValue? c = some digit ↔ StandsFor c digit := by
  have lower : ('a' ≤ c ∧ c ≤ 'z') ↔ 97 ≤ c.toNat ∧ c.toNat ≤ 122 := Iff.rfl
  have upper : ('A' ≤ c ∧ c ≤ 'Z') ↔ 65 ≤ c.toNat ∧ c.toNat ≤ 90 := Iff.rfl
  rw [digitValue?]
  simp only [isDigit_iff, lower, upper, Char.reduceToNat]
  constructor
  · intro read
    split_ifs at read with isNumeral isLower isUpper
    · cases read
      exact .numeral (by omega) (by omega)
    · cases read
      exact .lower (by omega) (by omega) (by omega)
    · cases read
      exact .upper (by omega) (by omega) (by omega)
  · rintro (⟨small, code⟩ | ⟨large, last, code⟩ | ⟨large, last, code⟩)
    · rw [if_pos (by omega), code, Nat.add_sub_cancel_left]
    · rw [if_neg (by omega), if_pos (by omega)]
      congr 1
      omega
    · rw [if_neg (by omega), if_neg (by omega), if_pos (by omega)]
      congr 1
      omega

instance (c : Char) (digit : Nat) : Decidable (StandsFor c digit) :=
  decidable_of_iff _ digitValue?_eq_some_iff

theorem digitsFrom?_snoc (base value : Nat) (text : List Char) (c : Char) :
    digitsFrom? base value (text ++ [c]) = (digitsFrom? base value text).bind fun before =>
      (digitValue? c).bind fun digit =>
        if digit < base then some (base * before + digit) else none := by
  induction text generalizing value with
  | nil =>
    rw [List.nil_append, digitsFrom?]
    cases read : digitValue? c <;> simp [digitsFrom?, read]
  | cons first rest ih =>
    rw [List.cons_append, digitsFrom?, digitsFrom?]
    cases digitValue? first with
    | none => rfl
    | some digit => by_cases below : digit < base <;> simp [below, ih]

theorem natural?_snoc (base : Nat) {text : List Char} (begun : text ≠ []) (c : Char) :
    natural? base (text ++ [c]) = (natural? base text).bind fun before =>
      (digitValue? c).bind fun digit =>
        if digit < base then some (base * before + digit) else none := by
  cases text with
  | nil => exact absurd rfl begun
  | cons first rest => exact digitsFrom?_snoc base 0 (first :: rest) c

theorem natural?_single (base : Nat) (c : Char) :
    natural? base [c] =
      (digitValue? c).bind fun digit => if digit < base then some digit else none := by
  calc natural? base [c]
    _ = digitsFrom? base 0 ([] ++ [c]) := rfl
    _ = _ := by rw [digitsFrom?_snoc]; simp [digitsFrom?]

theorem Numeral.ne_nil {base value : Nat} {text : List Char} (numeral : Numeral base value text) :
    text ≠ [] := by
  cases numeral <;> simp

/-- Reading accepts exactly the numerals of the base. -/
theorem natural?_eq_some_iff {base value : Nat} {text : List Char} :
    natural? base text = some value ↔ Numeral base value text := by
  constructor
  · intro read
    induction text using List.reverseRecOn generalizing value with
    | nil => cases read
    | append_singleton text c ih =>
      by_cases empty : text = []
      · subst empty
        rw [List.nil_append, natural?_single] at read
        obtain ⟨digit, stands, read⟩ := Option.bind_eq_some_iff.mp read
        split at read
        · rename_i below
          cases read
          exact .single (digitValue?_eq_some_iff.mp stands) below
        · cases read
      · rw [natural?_snoc base empty] at read
        obtain ⟨before, first, read⟩ := Option.bind_eq_some_iff.mp read
        obtain ⟨digit, stands, read⟩ := Option.bind_eq_some_iff.mp read
        split at read
        · rename_i below
          cases read
          exact .snoc (ih first) (digitValue?_eq_some_iff.mp stands) below
        · cases read
  · intro numeral
    induction numeral with
    | single stands below =>
      rw [natural?_single, digitValue?_eq_some_iff.mpr stands, Option.bind_some, if_pos below]
    | snoc before stands below ih =>
      rw [natural?_snoc base before.ne_nil, ih, Option.bind_some,
        digitValue?_eq_some_iff.mpr stands, Option.bind_some, if_pos below]

/-- Signs, the number sign and underscores stand for no digit. -/
theorem StandsFor.not_mark {c : Char} {digit : Nat} (stands : StandsFor c digit) :
    c ∉ ['+', '-', '#', '_'] := by
  simp only [List.mem_cons, List.not_mem_nil, or_false, ← Char.toNat_inj, Char.reduceToNat]
  rcases stands with ⟨small, code⟩ | ⟨large, last, code⟩ | ⟨large, last, code⟩ <;> omega

theorem Numeral.not_mem {base value : Nat} {text : List Char} (numeral : Numeral base value text)
    {c : Char} (mark : c ∈ ['+', '-', '#', '_']) : c ∉ text := by
  induction numeral with
  | single stands =>
    rintro member
    obtain rfl := List.mem_singleton.mp member
    exact stands.not_mark mark
  | snoc before stands below ih =>
    intro member
    rcases List.mem_append.mp member with earlier | last
    · exact ih earlier
    · obtain rfl := List.mem_singleton.mp last
      exact stands.not_mark mark

/-! Signs, bases and underscores -/

/-- A numeral of an integer, with a sign in front of it or without. -/
inductive SignedNumeral (base : Nat) : Int → List Char → Prop where
  | bare {value : Nat} {text : List Char} (numeral : Numeral base value text) :
      SignedNumeral base value text
  | plus {value : Nat} {text : List Char} (numeral : Numeral base value text) :
      SignedNumeral base value ('+' :: text)
  | minus {value : Nat} {text : List Char} (numeral : Numeral base value text) :
      SignedNumeral base (-value) ('-' :: text)

theorem signed?_of_numeral {base : Nat} {value : Int} {text : List Char}
    (numeral : SignedNumeral base value text) : signed? base text = narrow? value := by
  cases numeral with
  | plus numeral => rw [signed?, natural?_eq_some_iff.mpr numeral, Option.bind_some]
  | minus numeral => rw [signed?, natural?_eq_some_iff.mpr numeral, Option.bind_some]
  | bare numeral =>
    unfold signed?
    split
    · exact absurd List.mem_cons_self (numeral.not_mem (by decide))
    · exact absurd List.mem_cons_self (numeral.not_mem (by decide))
    · rw [natural?_eq_some_iff.mpr numeral, Option.bind_some]

theorem signedNumeral_of_signed? {base : Nat} {value : Int64} {text : List Char}
    (read : signed? base text = some value) : SignedNumeral base value.toInt text := by
  unfold signed? at read
  split at read <;> obtain ⟨number, numeral, narrowed⟩ := Option.bind_eq_some_iff.mp read <;>
    rw [natural?_eq_some_iff] at numeral <;> rw [(narrow?_eq_some_iff ..).mp narrowed]
  · exact .minus numeral
  · exact .plus numeral
  · exact .bare numeral

/-- The base of a numeral as it stands before the number sign. -/
inductive BaseNumeral (base : Nat) : List Char → Prop where
  | bare {text : List Char} (numeral : Numeral 10 base text) : BaseNumeral base text
  | plus {text : List Char} (numeral : Numeral 10 base text) : BaseNumeral base ('+' :: text)

theorem baseNumber?_eq_some_iff {base : Nat} {text : List Char} :
    baseNumber? text = some base ↔ BaseNumeral base text ∧ base < UInt32.size := by
  constructor
  · intro read
    unfold baseNumber? at read
    split at read <;> obtain ⟨numeral, small⟩ := Option.filter_eq_some_iff.mp read <;>
      rw [natural?_eq_some_iff] at numeral <;> rw [decide_eq_true_eq] at small
    · exact ⟨.plus numeral, small⟩
    · exact ⟨.bare numeral, small⟩
  · rintro ⟨named, small⟩
    have fits : (some base).filter (· < UInt32.size) = some base := by simpa using small
    cases named with
    | plus numeral => rw [baseNumber?, natural?_eq_some_iff.mpr numeral, fits]
    | bare numeral =>
      unfold baseNumber?
      split
      · exact absurd List.mem_cons_self (numeral.not_mem (by decide))
      · rw [natural?_eq_some_iff.mpr numeral, fits]

theorem SignedNumeral.not_mem {base : Nat} {value : Int} {text : List Char}
    (numeral : SignedNumeral base value text) {c : Char} (mark : c ∈ ['#', '_']) : c ∉ text := by
  have apart : c ≠ '+' ∧ c ≠ '-' ∧ c ∈ ['+', '-', '#', '_'] := by
    simp only [List.mem_cons, List.not_mem_nil, or_false] at mark
    rcases mark with rfl | rfl <;> decide
  cases numeral with
  | bare numeral => exact numeral.not_mem apart.2.2
  | plus numeral => simpa [apart.1] using numeral.not_mem apart.2.2
  | minus numeral => simpa [apart.2.1] using numeral.not_mem apart.2.2

theorem BaseNumeral.not_mem {base : Nat} {text : List Char} (named : BaseNumeral base text)
    {c : Char} (mark : c ∈ ['#', '_']) : c ∉ text := by
  cases named with
  | bare numeral => exact (SignedNumeral.bare numeral).not_mem mark
  | plus numeral => exact (SignedNumeral.plus numeral).not_mem mark

/-- A text of an integer without underscores: in base ten, or in a base that it names. -/
inductive PlainInteger (value : Int) : List Char → Prop where
  | decimal {text : List Char} (numeral : SignedNumeral 10 value text) : PlainInteger value text
  | based {base : Nat} {front text : List Char} (first : 2 ≤ base) (last : base ≤ 36)
      (named : BaseNumeral base front) (numeral : SignedNumeral base value text) :
      PlainInteger value (front ++ '#' :: text)

/-- A text with underscores put in at any places. -/
inductive Separated : List Char → List Char → Prop where
  | nil : Separated [] []
  | char {plain text : List Char} (c : Char) (rest : Separated plain text) :
      Separated (c :: plain) (c :: text)
  | underscore {plain text : List Char} (rest : Separated plain text) :
      Separated plain ('_' :: text)

theorem Separated.filter {plain text : List Char} (separated : Separated plain text) :
    text.filter (· != '_') = plain.filter (· != '_') := by
  induction separated with
  | nil => rfl
  | char c rest ih => rw [List.filter_cons, List.filter_cons, ih]
  | underscore rest ih => simpa using ih

theorem Separated.of_filter {plain text : List Char} (same : text.filter (· != '_') = plain) :
    Separated plain text := by
  induction text generalizing plain with
  | nil =>
    subst same
    exact .nil
  | cons c rest ih =>
    subst same
    by_cases underscore : c = '_'
    · subst underscore
      exact .underscore (ih rfl)
    · rw [List.filter_cons_of_pos (by simpa using underscore)]
      exact .char c (ih rfl)

theorem PlainInteger.no_underscore {value : Int} {text : List Char}
    (plain : PlainInteger value text) : '_' ∉ text := by
  cases plain with
  | decimal numeral => exact numeral.not_mem (by decide)
  | based first last named numeral =>
    have front := named.not_mem (c := '_') (by decide)
    have behind := numeral.not_mem (c := '_') (by decide)
    simp [front, behind]

/-- A text of an integer, with underscores at any places. -/
def IntegerText (value : Int) (text : String) : Prop :=
  ∃ plain, Separated plain text.toList ∧ PlainInteger value plain

theorem integerText_iff {value : Int} {text : String} :
    IntegerText value text ↔ PlainInteger value (text.toList.filter (· != '_')) := by
  constructor
  · rintro ⟨plain, separated, integer⟩
    have kept : plain.filter (· != '_') = plain := by
      apply List.filter_eq_self.mpr
      intro c member
      have apart : c ≠ '_' := fun same => integer.no_underscore (same ▸ member)
      simpa using apart
    rwa [separated.filter, kept]
  · intro integer
    exact ⟨_, .of_filter rfl, integer⟩

/-- What stands before the first number sign is the base of what stands behind it. -/
theorem int?_marked {text : String} {front digits : List Char} (unmarked : '#' ∉ front)
    (plain : text.toList.filter (· != '_') = front ++ '#' :: digits) :
    LiteralKind.integer.int? text = (baseNumber? front).bind fun base =>
      if isBase base then signed? base digits else none := by
  have passed : ∀ c ∈ front, (c != '#') = true := by
    intro c member
    have apart : c ≠ '#' := fun same => unmarked (same ▸ member)
    simpa using apart
  have marked : '#' ∈ front ++ '#' :: digits := by simp
  have cut : baseAndDigits? text = (baseNumber? front).map fun base => (base, digits) := by
    simp only [baseAndDigits?, plain, Text.cutFirst?_singleton, if_pos marked,
      List.takeWhile_append_of_pos passed, List.dropWhile_append_of_pos passed]
    simp
  rw [LiteralKind.int?, if_pos (by rfl), cut]
  cases baseNumber? front <;> rfl

theorem int?_unmarked {text : String} (unmarked : '#' ∉ text.toList.filter (· != '_')) :
    LiteralKind.integer.int? text = signed? 10 (text.toList.filter (· != '_')) := by
  have whole : baseAndDigits? text = some (10, text.toList.filter (· != '_')) := by
    simp only [baseAndDigits?, Text.cutFirst?_singleton, if_neg unmarked]
  rw [LiteralKind.int?, if_pos (by rfl), whole]
  rfl

theorem isBase_iff {base : Nat} : isBase base = true ↔ 2 ≤ base ∧ base ≤ 36 := by
  simp [isBase]

theorem int?_of_integerText {value : Int} {text : String} (integer : IntegerText value text) :
    LiteralKind.integer.int? text = narrow? value := by
  rw [integerText_iff] at integer
  generalize plain : text.toList.filter (· != '_') = written at integer
  cases integer with
  | decimal numeral =>
    have unmarked := numeral.not_mem (c := '#') (by decide)
    rw [← plain] at unmarked numeral
    rw [int?_unmarked unmarked]
    exact signed?_of_numeral numeral
  | @based base front digits first last named numeral =>
    have small : base < UInt32.size := Nat.lt_of_le_of_lt last (by decide)
    rw [int?_marked (named.not_mem (by decide)) plain, baseNumber?_eq_some_iff.mpr ⟨named, small⟩,
      Option.bind_some, if_pos (isBase_iff.mpr ⟨first, last⟩)]
    exact signed?_of_numeral numeral

theorem integerText_of_int? {value : Int64} {text : String}
    (read : LiteralKind.integer.int? text = some value) : IntegerText value.toInt text := by
  rw [integerText_iff]
  by_cases marked : '#' ∈ text.toList.filter (· != '_')
  · obtain ⟨front, digits, plain, unmarked⟩ := List.eq_append_cons_of_mem marked
    rw [int?_marked unmarked plain] at read
    obtain ⟨base, named, read⟩ := Option.bind_eq_some_iff.mp read
    obtain ⟨named, -⟩ := baseNumber?_eq_some_iff.mp named
    split at read
    · rename_i proper
      obtain ⟨first, last⟩ := isBase_iff.mp proper
      rw [plain]
      exact .based first last named (signedNumeral_of_signed? read)
    · cases read
  · rw [int?_unmarked marked] at read
    exact .decimal (signedNumeral_of_signed? read)

/-! Integers as they are written -/

/-- The digits of a number in a base, the highest first. Zero has one digit. -/
def digitsOf (base value : Nat) : List Nat :=
  if value = 0 then [0] else (base.digits value).reverse

/-- The texts that an integer is usually given: its decimal form, or a base in decimal form and
behind a number sign the digits in this base, of either case, after the sign. -/
inductive UsualText (value : Int) : List Char → Prop where
  | decimal : UsualText value (toString value).toList
  | based {base : Nat} {digits : List Char} (first : 2 ≤ base) (last : base ≤ 36)
      (spelled : List.Forall₂ StandsFor digits (digitsOf base value.natAbs)) :
      UsualText value
        ((toString base).toList ++ '#' :: if value < 0 then '-' :: digits else digits)

theorem digitsOf_eq {base : Nat} (proper : 1 < base) (value : Nat) :
    digitsOf base value =
      if value < base then [value] else digitsOf base (value / base) ++ [value % base] := by
  unfold digitsOf
  by_cases zero : value = 0
  · subst zero
    simp [Nat.lt_of_succ_lt proper]
  · rw [if_neg zero, Nat.digits_def' proper (Nat.pos_of_ne_zero zero), List.reverse_cons]
    by_cases small : value < base
    · rw [if_pos small, Nat.div_eq_of_lt small, Nat.mod_eq_of_lt small]
      simp
    · have rest : value / base ≠ 0 := by
        rw [Ne, Nat.div_eq_zero_iff]
        omega
      rw [if_neg small, if_neg rest]

/-- The digits of a number in a base, as characters of either case, are a numeral of it. -/
theorem numeral_of_digits {base : Nat} (proper : 1 < base) {value : Nat} {text : List Char}
    (spelled : List.Forall₂ StandsFor text (digitsOf base value)) : Numeral base value text := by
  induction value using Nat.strongRecOn generalizing text with
  | ind value ih =>
    rw [digitsOf_eq proper] at spelled
    split at spelled
    · rename_i small
      obtain ⟨c, rest, stands, nothing, rfl⟩ := List.forall₂_cons_right_iff.mp spelled
      obtain rfl := List.forall₂_nil_right_iff.mp nothing
      exact .single stands small
    · rename_i large
      have shorter : value / base < value := Nat.div_lt_self (by omega) proper
      have front := ih _ shorter (List.forall₂_take_append _ _ _ spelled)
      have behind := List.forall₂_drop_append _ _ _ spelled
      obtain ⟨c, rest, stands, nothing, last⟩ := List.forall₂_cons_right_iff.mp behind
      obtain rfl := List.forall₂_nil_right_iff.mp nothing
      have whole := front.snoc stands (Nat.mod_lt value (by omega))
      rwa [Nat.div_add_mod, ← last, List.take_append_drop] at whole

theorem standsFor_digitChar : ∀ digit < 10, StandsFor digit.digitChar digit := by
  intro digit small
  have code : ∀ digit < 10, digit.digitChar.toNat = 48 + digit := by decide
  exact .numeral small (code digit small)

theorem numeral_decimal (value : Nat) : Numeral 10 value (toString value).toList := by
  have shown (value : Nat) : (toString value).toList = Nat.toDigits 10 value :=
    String.toList_ofList
  induction value using Nat.strongRecOn with
  | ind value ih =>
    rw [shown, Nat.toDigits_eq_if (by decide)]
    split
    · rename_i small
      exact .single (standsFor_digitChar value small) small
    · rename_i large
      have front := ih (value / 10) (by omega)
      have below := Nat.mod_lt value (show 0 < 10 by decide)
      have whole := front.snoc (standsFor_digitChar _ below) below
      rwa [Nat.div_add_mod, shown] at whole

theorem signedNumeral_decimal (value : Int) :
    SignedNumeral 10 value (toString value).toList := by
  cases value with
  | ofNat value => exact .bare (numeral_decimal value)
  | negSucc value =>
    have shown : (toString (Int.negSucc value)).toList = '-' :: (toString (value + 1)).toList := by
      exact String.toList_append ..
    rw [shown]
    exact .minus (numeral_decimal (value + 1))

theorem UsualText.plainInteger {value : Int} {text : List Char} (usual : UsualText value text) :
    PlainInteger value text := by
  cases usual with
  | decimal => exact .decimal (signedNumeral_decimal value)
  | @based base digits first last spelled =>
    have numeral := numeral_of_digits first spelled
    refine .based first last (.bare (numeral_decimal base)) ?_
    split
    · rename_i negative
      have minus := SignedNumeral.minus numeral
      rwa [Int.ofNat_natAbs_of_nonpos (by omega), Int.neg_neg] at minus
    · rename_i positive
      have bare := SignedNumeral.bare numeral
      rwa [Int.natAbs_of_nonneg (by omega)] at bare

theorem narrow?_eq_none {value : Int} (outside : value < -2 ^ 63 ∨ 2 ^ 63 ≤ value) :
    narrow? value = none := by
  have least : Int64.minValue.toInt = -2 ^ 63 := by decide
  have greatest : Int64.maxValue.toInt = 2 ^ 63 - 1 := by decide
  rw [narrow?, least, greatest, if_neg (by omega)]

/-- Integers are read exactly. A literal has a value exactly if its text is one of an integer of 64
bits: a numeral of digits, with underscores anywhere, perhaps with a sign, and perhaps behind the
number of its base. So every integer is read from each text it is usually given, and where it does
not fit, there is no value. -/
theorem integer_read_exactly (text : String) :
    (∀ value : Int64,
      LiteralKind.integer.int? text = some value ↔ IntegerText value.toInt text) ∧
    ∀ (value : Int) (plain : List Char), UsualText value plain → Separated plain text.toList →
      (∀ word : Int64, word.toInt = value → LiteralKind.integer.int? text = some word) ∧
      (value < -2 ^ 63 ∨ 2 ^ 63 ≤ value → LiteralKind.integer.int? text = none) := by
  constructor
  · refine fun value => ⟨integerText_of_int?, fun integer => ?_⟩
    rw [int?_of_integerText integer]
    exact (narrow?_eq_some_iff _ value).mpr rfl
  · intro value plain usual separated
    rw [int?_of_integerText ⟨plain, separated, usual.plainInteger⟩]
    exact ⟨fun word same => (narrow?_eq_some_iff value word).mpr same, narrow?_eq_none⟩

/-- The lowest integer in base 36, in letters of both cases and with underscores around the number
sign, and the integer below it. -/
theorem integer_read_exactly_lowest :
    LiteralKind.integer.int? "3_6_#_-1Y2p0iJ32E8e8" = some Int64.minValue ∧
      LiteralKind.integer.int? "3_6_#_-1Y2p0iJ32E8e9" = none := by
  have lowest : UsualText (-2 ^ 63) "36#-1Y2p0iJ32E8e8".toList :=
    @UsualText.based _ 36 "1Y2p0iJ32E8e8".toList (by decide) (by decide) (by decide)
  have below : UsualText (-2 ^ 63 - 1) "36#-1Y2p0iJ32E8e9".toList :=
    @UsualText.based _ 36 "1Y2p0iJ32E8e9".toList (by decide) (by decide) (by decide)
  obtain ⟨fits, -⟩ :=
    (integer_read_exactly "3_6_#_-1Y2p0iJ32E8e8").2 _ _ lowest (.of_filter (by decide))
  obtain ⟨-, beyond⟩ :=
    (integer_read_exactly "3_6_#_-1Y2p0iJ32E8e9").2 _ _ below (.of_filter (by decide))
  exact ⟨fits _ (by decide), beyond (by decide)⟩

end PlcAudit.Code
