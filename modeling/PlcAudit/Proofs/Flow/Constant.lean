import PlcAudit.Flow.Constant
import PlcAudit.Proofs.Number.Bits

/-!
Constant folding against exact arithmetic. Expressions have values over truth values and whole
numbers without bounds, where an operator may be undefined. What folding finds is that value, and it
finds one for every expression of literals and constants as long as all numbers on the way fit in 64
bits.
-/

namespace PlcAudit.Flow

open Code

/-- A truth value or a whole number of any size. -/
inductive Exact where
  | bool (value : Bool)
  | int (value : Int)
  deriving DecidableEq, Repr

/-- The value that a folded constant stands for. -/
def Value.exact : Value → Exact
  | .bool value => .bool value
  | .int value => .int value.toInt

namespace Exact

/-- Operators on whole numbers. Quotients go toward zero, and bits are those of two's complement. -/
def ofInts? (op : BinaryOp) (left right : Int) : Option Exact :=
  match op with
  | .add => some (.int (left + right))
  | .subtract => some (.int (left - right))
  | .multiply => some (.int (left * right))
  | .divide => if right = 0 then none else some (.int (left.tdiv right))
  | .modulo => if right = 0 then none else some (.int (left.tmod right))
  | .equal => some (.bool (left = right))
  | .notEqual => some (.bool (left ≠ right))
  | .less => some (.bool (left < right))
  | .lessEqual => some (.bool (left ≤ right))
  | .greater => some (.bool (left > right))
  | .greaterEqual => some (.bool (left ≥ right))
  | .and => some (.int (left.land right))
  | .or => some (.int (left.lor right))
  | .xor => some (.int (left.xor right))

/-- Operators on truth values. -/
def ofBools? (op : BinaryOp) (left right : Bool) : Option Exact :=
  match op with
  | .and => some (.bool (left && right))
  | .or => some (.bool (left || right))
  | .xor => some (.bool (left ^^ right))
  | .equal => some (.bool (left = right))
  | .notEqual => some (.bool (left ≠ right))
  | _ => none

/-- Operators are defined on two values of one kind. -/
def binary? (op : BinaryOp) : Exact → Exact → Option Exact
  | .int left, .int right => ofInts? op left right
  | .bool left, .bool right => ofBools? op left right
  | _, _ => none

def unary? : UnaryOp → Exact → Option Exact
  | .not, .bool value => some (.bool !value)
  | .not, .int value => some (.int value.lnot)
  | .minus, .int value => some (.int (-value))
  | .minus, .bool _ => none

/-- Some folded constant stands for the value. -/
def Fits (value : Exact) : Prop := ∃ folded : Value, folded.exact = value

end Exact

/-- What names stand for, and what fields, elements, dereferenced variables and calls give. -/
structure Environment (α : Type) where
  named? : String → Option Exact
  other? : Expr α → Option Exact

/-- Where constants and environment both know a name, they give it the same value. -/
def Environment.Agrees {α : Type} (environment : Environment α) (constants : Constants) : Prop :=
  ∀ name folded exact, constants.find? (Text.upper name) = some folded →
    environment.named? name = some exact → folded.exact = exact

/-- The exact value of an expression, if it is defined. -/
def evaluate? {α : Type} (environment : Environment α) : Expr α → Option Exact
  | .binary _ op left right =>
    (evaluate? environment left).bind fun left =>
      (evaluate? environment right).bind fun right => Exact.binary? op left right
  | .unary _ op operand => (evaluate? environment operand).bind (Exact.unary? op)
  | .literal _ kind text =>
    match kind.bool? text, kind.int? text with
    | some value, _ => some (.bool value)
    | none, some value => some (.int value.toInt)
    | none, none => none
  | .variable tag name path indices dereference =>
    if path = [] ∧ indices.isEmpty ∧ dereference = false then environment.named? name
    else environment.other? (.variable tag name path indices dereference)
  | .call tag name args => environment.other? (.call tag name args)

variable {α : Type} {constants : Constants} {environment : Environment α}

/-! Operators -/

@[simp] theorem Value.exact_bool (value : Bool) : (Value.bool value).exact = .bool value := rfl

@[simp] theorem Value.exact_int (word : Int64) : (Value.int word).exact = .int word.toInt := rfl

theorem Value.exact_inj {first second : Value} : first.exact = second.exact ↔ first = second := by
  cases first <;> cases second <;> simp [Int64.toInt_inj]

theorem found_bool_iff {value exact : Bool} (same : value = exact) (folded : Value) :
    some (.bool value) = some folded ↔ some (.bool exact) = some folded.exact := by
  rw [← same, ← Value.exact_bool, Option.some_inj, Option.some_inj, Value.exact_inj]

theorem found_int_iff {word : Int64} {exact : Int} (same : word.toInt = exact) (folded : Value) :
    some (.int word) = some folded ↔ some (.int exact) = some folded.exact := by
  rw [← same, ← Value.exact_int, Option.some_inj, Option.some_inj, Value.exact_inj]

/-- A number is folded if it fits. -/
theorem narrowed_iff (value : Int) (folded : Value) :
    (narrow? value).map Value.int = some folded ↔ some (.int value) = some folded.exact := by
  simp only [Option.map_eq_some_iff, narrow?_eq_some_iff, Option.some_inj]
  constructor
  · rintro ⟨word, rfl, rfl⟩
    rfl
  · intro same
    cases folded with
    | bool value => cases same
    | int word => exact ⟨word, (Exact.int.inj same).symm, rfl⟩

theorem fits_int_iff (value : Int) :
    Exact.Fits (.int value) ↔ ∃ word, narrow? value = some word := by
  constructor
  · rintro ⟨folded, same⟩
    obtain ⟨word, narrowed, _⟩ := Option.map_eq_some_iff.mp
      ((narrowed_iff value folded).mpr (congrArg some same.symm))
    exact ⟨word, narrowed⟩
  · rintro ⟨word, narrowed⟩
    exact ⟨.int word, congrArg _ ((narrow?_eq_some_iff value word).mp narrowed)⟩

theorem toInt_eq_zero_iff (word : Int64) : word.toInt = 0 ↔ word = 0 := by
  rw [← Int64.toInt_zero, Int64.toInt_inj]

/-- Only remainders have a second condition. -/
theorem iff_and_of_ne {op : BinaryOp} (different : op ≠ .modulo) (first second : Prop) :
    first ↔ first ∧ (op = .modulo → second) :=
  (and_iff_left fun same => absurd same different).symm

/-- Two numbers are folded exactly when the value is defined and fits; a remainder, only where the
quotient fits as well. -/
theorem foldInts_eq_some_iff (op : BinaryOp) (left right : Int64) (folded : Value) :
    foldInts op left right = some folded ↔
      Exact.ofInts? op left.toInt right.toInt = some folded.exact ∧
      (op = .modulo → Exact.Fits (.int (left.toInt.tdiv right.toInt))) := by
  cases op with
  | modulo =>
    simp only [foldInts, remainder?, quotient?, Exact.ofInts?, toInt_eq_zero_iff, fits_int_iff]
    split
    · simp
    · cases narrowed : narrow? (left.toInt.tdiv right.toInt) with
      | none => simp
      | some word => simpa using narrowed_iff _ folded
  | divide =>
    refine Iff.trans ?_ (iff_and_of_ne (by decide) _ _)
    simp only [foldInts, quotient?, Exact.ofInts?, toInt_eq_zero_iff]
    split
    · simp
    · exact narrowed_iff _ folded
  | add | subtract | multiply => exact (narrowed_iff _ folded).trans (iff_and_of_ne (by decide) _ _)
  | equal | notEqual =>
    refine Iff.trans (found_bool_iff ?_ folded) (iff_and_of_ne (by decide) _ _)
    simp [Int64.toInt_inj]
  | less | lessEqual | greater | greaterEqual =>
    refine Iff.trans (found_bool_iff ?_ folded) (iff_and_of_ne (by decide) _ _)
    simp [Int64.lt_iff_toInt_lt, Int64.le_iff_toInt_le]
  | and => exact (found_int_iff (toInt_and ..) folded).trans (iff_and_of_ne (by decide) _ _)
  | or => exact (found_int_iff (toInt_or ..) folded).trans (iff_and_of_ne (by decide) _ _)
  | xor => exact (found_int_iff (toInt_xor ..) folded).trans (iff_and_of_ne (by decide) _ _)

theorem foldBools_eq_some_iff (op : BinaryOp) (left right : Bool) (folded : Value) :
    foldBools op left right = some folded ↔ Exact.ofBools? op left right = some folded.exact := by
  cases op with
  | and | or => exact found_bool_iff rfl folded
  | xor | equal | notEqual =>
    refine found_bool_iff ?_ folded
    cases left <;> cases right <;> rfl
  | _ => constructor <;> intro found <;> cases found

/-- FALSE decides AND and TRUE decides OR, whatever truth value the other operand has. -/
theorem decidedBy_exact {op : BinaryOp} {left right : Option Value} {first second exact : Exact}
    {folded : Value} (leftExact : ∀ value, left = some value → value.exact = first)
    (rightExact : ∀ value, right = some value → value.exact = second)
    (found : decidedBy op left right = some folded)
    (defined : Exact.binary? op first second = some exact) : folded.exact = exact := by
  unfold decidedBy at found
  split at found
  · split at found
    · rename_i decides
      cases found
      rcases decides with here | there
      · rw [← leftExact _ here] at defined
        cases second <;> cases defined
        rfl
      · rw [← rightExact _ there] at defined
        cases first <;> cases defined
        rw [Bool.and_false, Value.exact_bool]
    · cases found
  · split at found
    · rename_i decides
      cases found
      rcases decides with here | there
      · rw [← leftExact _ here] at defined
        cases second <;> cases defined
        rfl
      · rw [← rightExact _ there] at defined
        cases first <;> cases defined
        rw [Bool.or_true, Value.exact_bool]
    · cases found
  · cases found

/-- Where operands are folded to their values, so is the operator. -/
theorem foldBinary_exact {op : BinaryOp} {left right : Option Value} {first second exact : Exact}
    {folded : Value} (leftExact : ∀ value, left = some value → value.exact = first)
    (rightExact : ∀ value, right = some value → value.exact = second)
    (found : foldBinary op left right = some folded)
    (defined : Exact.binary? op first second = some exact) : folded.exact = exact := by
  unfold foldBinary at found
  split at found
  · rename_i value decided
    cases found
    exact decidedBy_exact leftExact rightExact decided defined
  · split at found
    · rw [← leftExact _ rfl, ← rightExact _ rfl] at defined
      have same := ((foldInts_eq_some_iff ..).mp found).1
      exact Option.some.inj (same.symm.trans defined)
    · rw [← leftExact _ rfl, ← rightExact _ rfl] at defined
      have same := (foldBools_eq_some_iff ..).mp found
      exact Option.some.inj (same.symm.trans defined)
    · cases found

theorem foldUnary_eq_some_iff (op : UnaryOp) (operand folded : Value) :
    foldUnary op (some operand) = some folded ↔
      Exact.unary? op operand.exact = some folded.exact := by
  cases op <;> cases operand
  · exact found_bool_iff rfl folded
  · exact found_int_iff (toInt_not _) folded
  · constructor <;> intro found <;> cases found
  · exact narrowed_iff _ folded

theorem foldUnary_exact {op : UnaryOp} {operand : Option Value} {value exact : Exact}
    {folded : Value} (operandExact : ∀ known, operand = some known → known.exact = value)
    (found : foldUnary op operand = some folded)
    (defined : Exact.unary? op value = some exact) : folded.exact = exact := by
  cases operand with
  | none => cases op <;> cases found
  | some known =>
    rw [← operandExact known rfl] at defined
    exact Option.some.inj (((foldUnary_eq_some_iff op known folded).mp found).symm.trans defined)

/-! Expressions -/

theorem evaluate?_literal (environment : Environment α) (tag : α) (kind : LiteralKind)
    (text : String) :
    evaluate? environment (.literal tag kind text) = (foldLiteral kind text).map Value.exact := by
  simp only [evaluate?, foldLiteral]
  cases kind.bool? text with
  | some value => rfl
  | none => cases kind.int? text <;> rfl

/-- What folding finds is the exact value, if the expression has one. -/
theorem exact_of_foldExpr (agrees : environment.Agrees constants) :
    (expr : Expr α) → ∀ folded exact, foldExpr constants expr = some folded →
      evaluate? environment expr = some exact → folded.exact = exact
  | .binary tag op left right => by
    intro folded exact found defined
    obtain ⟨first, one, defined⟩ := Option.bind_eq_some_iff.mp defined
    obtain ⟨second, two, defined⟩ := Option.bind_eq_some_iff.mp defined
    exact foldBinary_exact
      (fun value known => exact_of_foldExpr agrees left value first known one)
      (fun value known => exact_of_foldExpr agrees right value second known two) found defined
  | .unary tag op operand => by
    intro folded exact found defined
    obtain ⟨value, known, defined⟩ := Option.bind_eq_some_iff.mp defined
    exact foldUnary_exact
      (fun found here => exact_of_foldExpr agrees operand found value here known) found defined
  | .literal tag kind text => by
    intro folded exact found defined
    have known : foldLiteral kind text = some folded := found
    rw [evaluate?_literal, known] at defined
    exact Option.some.inj defined
  | .variable tag name path indices dereference => by
    intro folded exact found defined
    simp only [foldExpr] at found
    split at found
    · rename_i plain
      have isPlain : path = [] ∧ indices.isEmpty ∧ dereference = false := by
        simpa [and_assoc] using plain
      rw [evaluate?, if_pos isPlain] at defined
      exact agrees name folded exact found defined
    · cases found
  | .call tag name args => by
    intro folded exact found
    cases found

/-- An expression of literals and constants, all parts of which have exact values that fit in 64
bits. A remainder counts if the quotient fits too. -/
inductive Bounded (constants : Constants) : Expr α → Exact → Prop where
  | literal {tag : α} {kind : LiteralKind} {text : String} {value : Value}
      (read : foldLiteral kind text = some value) :
      Bounded constants (.literal tag kind text) value.exact
  | name {tag : α} {name : String} {value : Value}
      (known : constants.find? (Text.upper name) = some value) :
      Bounded constants (.variable tag name [] [] false) value.exact
  | unary {tag : α} {op : UnaryOp} {operand : Expr α} {value result : Exact}
      (bounded : Bounded constants operand value) (defined : Exact.unary? op value = some result)
      (fits : result.Fits) : Bounded constants (.unary tag op operand) result
  | binary {tag : α} {op : BinaryOp} {left right : Expr α} {first second result : Exact}
      (leftBounded : Bounded constants left first) (rightBounded : Bounded constants right second)
      (defined : Exact.binary? op first second = some result) (fits : result.Fits)
      (quotient : op = .modulo →
        ∃ whole, Exact.binary? .divide first second = some whole ∧ whole.Fits) :
      Bounded constants (.binary tag op left right) result

theorem foldBinary_of_fits {op : BinaryOp} {left right folded : Value}
    (defined : Exact.binary? op left.exact right.exact = some folded.exact)
    (quotient : op = .modulo →
      ∃ whole, Exact.binary? .divide left.exact right.exact = some whole ∧ whole.Fits) :
    foldBinary op (some left) (some right) = some folded := by
  unfold foldBinary
  cases decided : decidedBy op (some left) (some right) with
  | some value =>
    have same := decidedBy_exact (fun _ known => congrArg _ (Option.some.inj known).symm)
      (fun _ known => congrArg _ (Option.some.inj known).symm) decided defined
    exact congrArg some (Value.exact_inj.mp same)
  | none =>
    match left, right with
    | .int left, .int right =>
      refine (foldInts_eq_some_iff op left right folded).mpr ⟨defined, fun remainder => ?_⟩
      obtain ⟨whole, divided, fits⟩ := quotient remainder
      rw [Value.exact_int, Value.exact_int, Exact.binary?, Exact.ofInts?] at divided
      split at divided
      · cases divided
      · exact Option.some.inj divided ▸ fits
    | .bool left, .bool right => exact (foldBools_eq_some_iff op left right folded).mpr defined
    | .int _, .bool _ | .bool _, .int _ => cases defined

/-- Folding finds the value of every expression whose parts stay within bounds. -/
theorem Bounded.folded {expr : Expr α} {exact : Exact} (bounded : Bounded constants expr exact) :
    ∃ folded, foldExpr constants expr = some folded ∧ folded.exact = exact := by
  induction bounded with
  | literal read => exact ⟨_, read, rfl⟩
  | name known => exact ⟨_, known, rfl⟩
  | @unary tag op operand value result _ defined fits ih =>
    obtain ⟨inner, known, rfl⟩ := ih
    obtain ⟨folded, rfl⟩ := fits
    refine ⟨folded, ?_, rfl⟩
    rw [foldExpr, known]
    exact (foldUnary_eq_some_iff op inner folded).mpr defined
  | @binary tag op left right first second result _ _ defined fits quotient ihLeft ihRight =>
    obtain ⟨one, knownLeft, rfl⟩ := ihLeft
    obtain ⟨two, knownRight, rfl⟩ := ihRight
    obtain ⟨folded, rfl⟩ := fits
    refine ⟨folded, ?_, rfl⟩
    rw [foldExpr, knownLeft, knownRight]
    exact foldBinary_of_fits defined quotient

/-- Constant folding is exact: where it finds a value and the expression has one, whatever fields,
elements, dereferenced variables and calls give, they are the same, so that a number never wraps
around; and it finds the value of every expression of literals and constants all parts of which fit
in 64 bits. -/
theorem foldExpr_exact (agrees : environment.Agrees constants) (expr : Expr α) :
    (∀ folded exact, foldExpr constants expr = some folded →
      evaluate? environment expr = some exact → folded.exact = exact) ∧
    ∀ exact, Bounded constants expr exact →
      ∃ folded, foldExpr constants expr = some folded ∧ folded.exact = exact :=
  ⟨exact_of_foldExpr agrees expr, fun _ bounded => bounded.folded⟩

/-- Names mean what constants say, and all fields, elements, dereferenced variables and calls give
one value. -/
def Environment.ofConstants (constants : Constants) (other : Exact) : Environment α where
  named? name := (constants.find? (Text.upper name)).map Value.exact
  other? _ := some other

theorem Environment.ofConstants_agrees (constants : Constants) (other : Exact) :
    (ofConstants (α := α) constants other).Agrees constants := by
  intro name folded exact known named
  simp only [ofConstants, known, Option.map_some] at named
  exact Option.some.inj named

/-- The constant `LOWEST` is the least number of 64 bits. -/
def lowestOnly : Constants := .ofList [("LOWEST", .int Int64.minValue)]

/-- The expression `Lowest + 1`. -/
def aboveLowest : Expr Unit :=
  .binary () .add (.variable () "Lowest" [] [] false) (.literal () .integer "1")

/-- The expression `(ready() AND FALSE) OR (Lowest + 1 < Lowest MOD 16#10)`. -/
def lowestGuard : Expr Unit :=
  .binary () .or
    (.binary () .and (.call () "ready" []) (.literal () .boolean "FALSE"))
    (.binary () .less aboveLowest
      (.binary () .modulo (.variable () "Lowest" [] [] false) (.literal () .integer "16#10")))

theorem foldExpr_exact_lowest :
    (Environment.ofConstants (α := Unit) lowestOnly (.bool true)).Agrees lowestOnly ∧
    (∃ exact, evaluate? (.ofConstants lowestOnly (.bool true)) lowestGuard = some exact ∧
      (Value.bool true).exact = exact) ∧
    ∃ folded, foldExpr lowestOnly aboveLowest = some folded ∧
      folded.exact = .int (-2 ^ 63 + 1) := by
  have agrees := Environment.ofConstants_agrees (α := Unit) lowestOnly (.bool true)
  have folded : foldExpr lowestOnly lowestGuard = some (.bool true) := by decide +kernel
  have evaluated : evaluate? (.ofConstants lowestOnly (.bool true)) lowestGuard =
      some (.bool true) := by decide +kernel
  have bounded : Bounded lowestOnly aboveLowest (.int (-2 ^ 63 + 1)) :=
    .binary (.name rfl) (.literal rfl) rfl ⟨.int (Int64.minValue + 1), by decide⟩
      BinaryOp.noConfusion
  exact ⟨agrees, ⟨_, evaluated, (foldExpr_exact agrees lowestGuard).1 _ _ folded evaluated⟩,
    (foldExpr_exact agrees aboveLowest).2 _ bounded⟩

/-- The opposite of the least number does not fit, and it is no constant. -/
example : foldExpr lowestOnly (.unary () .minus (.variable () "lowest" [] [] false)) = none := by
  decide +kernel

end PlcAudit.Flow
