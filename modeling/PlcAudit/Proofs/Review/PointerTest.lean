import Mathlib.Data.List.Infix
import PlcAudit.Proofs.Review.NullTest
import PlcAudit.Proofs.Review.PointerUse

/-!
Reports about pointers. A pointer that is used is reported once, in whatever letter case it is
written, unless the code compares it with null. A validity test excuses every pointer of the code,
not only the one it is about.
-/

namespace PlcAudit.Review

open Pattern

/-! Validity tests as they are written -/

/-- A validity test of a pointer as in `__ISVALIDREF(p)`, in the pieces it is written with. -/
structure ValidityTest (name : String) where
  keyword : List Char
  gap : List Char
  inner : List Char
  tested : List Char
  tail : List Char
  isKeyword : Spells keyword "__ISVALIDREF"
  isGap : IsGap gap
  isInner : IsGap inner
  isName : Spells tested name
  isTail : IsGap tail

def ValidityTest.text {name : String} (test : ValidityTest name) : List Char :=
  test.keyword ++ test.gap ++ ['('] ++ test.inner ++ test.tested ++ test.tail ++ [')']

/-- The code applies the validity test to the pointer. -/
def ValidityTested (code name : String) : Prop :=
  ∃ test : ValidityTest name, test.text <:+: code.toList

/-- The code has the word somewhere, in any letter case. -/
def Mentions (code word : String) : Prop :=
  ∃ piece, piece <:+: code.toList ∧ Spells piece word

/-! Reports -/

/-- The pointer that a report is about stands in front of the first caret of its description. -/
def reportedPointer (issue : Issue) : String :=
  String.ofList (issue.description.toList.takeWhile (· != '^'))

/-- Number of reports about a pointer. -/
def reportCount (name : String) (issues : List Issue) : Nat :=
  issues.countP fun issue => Text.sameName (reportedPointer issue) name

/-- The report about a use that no test excuses. -/
def pointerIssue (change : LogicChange) (use : Nat × String × String) : Issue :=
  uncheckedPointer.issue change.file (pointerFinding change use)

theorem uncheckedPointer_logicIssues {change : LogicChange} {code : String}
    (adds : change.edit.addsCode = true) (isNew : change.newCode = some code) :
    uncheckedPointer.logicIssues change =
      ((dereferences code.toList).filter fun use => !isNullTested code use.2.2).map
        (pointerIssue change) := by
  have checked : change.codeToCheck? = some code := by
    simp [LogicChange.codeToCheck?, adds, isNew]
  rw [Rule.logicIssues, uncheckedPointer]
  simp only [checked, Option.getD_some, List.map_map]
  rfl

theorem reportedPointer_pointerIssue (change : LogicChange) {use : Nat × String × String}
    (word : ∀ c ∈ use.2.2.toList, Text.isWord c = true) :
    reportedPointer (pointerIssue change use) = use.2.2 := by
  have description : (pointerIssue change use).description =
      use.2.2 ++ "^ is dereferenced without checking " ++ use.2.2 ++ " <> 0" := rfl
  have caret : "^ is dereferenced without checking ".toList =
      '^' :: " is dereferenced without checking ".toList := by decide
  have uncut : ∀ c ∈ use.2.2.toList, (c != '^') = true := by
    intro c inside
    rw [bne_iff_ne]
    rintro rfl
    exact absurd (word _ inside) (by decide)
  rw [reportedPointer, description]
  simp only [String.toList_append, List.append_assoc]
  rw [List.takeWhile_append_of_pos uncut, caret, List.cons_append,
    List.takeWhile_cons_of_neg (by decide), List.append_nil, String.ofList_toList]

/-- A test of one spelling of a pointer is a test of every other. -/
theorem isNullTested_congr {code left right : String} (same : Text.sameName left right = true) :
    isNullTested code left = isNullTested code right := by
  have spelled : Text.upper left = Text.upper right := by simpa [Text.sameName] using same
  simp only [isNullTested, Text.sameName, spelled]

/-- A pointer is reported once if it is used and not tested. -/
theorem reportCount_eq {change : LogicChange} {code name : String}
    (adds : change.edit.addsCode = true) (isNew : change.newCode = some code)
    (used : Dereferenced code name) :
    reportCount name (uncheckedPointer.logicIssues change) =
      if isNullTested code name then 0 else 1 := by
  have met : (pointerUses code.toList).any (usesPointer name) = true := by
    obtain ⟨use, member, named⟩ := used.exists_use
    exact List.any_eq_true.mpr ⟨use, member, by simp [usesPointer, Text.sameName, named]⟩
  have once := dereferences_keepsOne name code.toList
  rw [KeepsOne, met, if_pos rfl] at once
  have counted : reportCount name (uncheckedPointer.logicIssues change) =
      (dereferences code.toList).countP fun use =>
        usesPointer name use && !isNullTested code name := by
    rw [uncheckedPointer_logicIssues adds isNew, reportCount, List.countP_map, List.countP_filter]
    refine List.countP_congr fun use member => ?_
    have listed : use ∈ pointerUses code.toList := foldl_keepNew_subset _ [] member
    have word := isWord_of_mem_pointerUses listed
    simp only [Function.comp_apply, reportedPointer_pointerIssue change word, usesPointer,
      Bool.and_eq_true]
    exact and_congr_right fun same => by rw [isNullTested_congr same]
  rw [counted]
  cases isNullTested code name with
  | true => simp
  | false => simpa using once

theorem mentions_iff {code word : String} :
    Text.contains (Text.upper code) (Text.upper word) = true ↔ Mentions code word := by
  rw [Text.contains_iff_infix, Text.upper, Text.upper, String.toList_ofList, String.toList_ofList,
    List.infix_map_iff]
  simp only [Mentions, spells_iff, eq_comm]

theorem Dereferenced.mentions {code name : String} (used : Dereferenced code name) :
    Mentions code name := by
  obtain ⟨before, after, shape, -⟩ := used.used
  refine ⟨name.toList, ⟨before, '^' :: after, ?_⟩, spells_iff.mpr rfl⟩
  rw [shape, List.append_assoc]

theorem ValidityTested.mentions {code name : String} (tested : ValidityTested code name) :
    Mentions code "__ISVALIDREF" := by
  obtain ⟨test, present⟩ := tested
  refine ⟨test.keyword, List.IsInfix.trans ?_ present, test.isKeyword⟩
  simp only [ValidityTest.text, List.append_assoc]
  exact (List.prefix_append ..).isInfix

/-- What excuses the use of a pointer: a comparison with null, or any mention of the validity
test. -/
theorem isNullTested_iff {code name : String} (used : Dereferenced code name) :
    isNullTested code name = true ↔ NullTested code name ∨ Mentions code "__ISVALIDREF" := by
  have keyword : Text.upper "__ISVALIDREF" = "__ISVALIDREF" := by decide
  have mentions : Text.contains (Text.upper code) "__ISVALIDREF" = true ↔
      Mentions code "__ISVALIDREF" := by
    rw [← mentions_iff, keyword]
  have compared : ((nullTestPattern.findAll code.toList).any fun found =>
      (found.group? code.toList 1).any fun tested => Text.sameName tested name) = true ↔
        NullTested code name := by
    simp only [List.any_eq_true, Option.any_eq_true]
    constructor
    · rintro ⟨found, member, tested, group, same⟩
      obtain ⟨start, first, last, less, more, value, stop, test, rfl⟩ :=
        group_nullTests_iff.mp ⟨found, member, group⟩
      exact test.exists_nullTest same
    · rintro ⟨test, present⟩
      obtain ⟨start, first, last, less, more, value, stop, place, same⟩ :=
        test.exists_nullTestAt used.nonempty used.word present
      obtain ⟨found, member, group⟩ := group_nullTests_iff.mpr
        ⟨start, first, last, less, more, value, stop, place, same⟩
      exact ⟨found, member, _, group, test.isName⟩
  have named := mentions_iff.mpr used.mentions
  simp only [isNullTested, named, Bool.and_true, Bool.or_eq_true, compared, mentions]
  exact or_comm

/-- A pointer that is used is reported once, in whatever letter case, unless it is compared with
null or the code has a validity test; that excuses the pointer also where it is about another. -/
theorem uncheckedPointer_excused {change : LogicChange} {code name : String}
    (adds : change.edit.addsCode = true) (isNew : change.newCode = some code)
    (used : Dereferenced code name) :
    (NullTested code name ∨ ValidityTested code name →
      reportCount name (uncheckedPointer.logicIssues change) = 0) ∧
    (Mentions code "__ISVALIDREF" →
      reportCount name (uncheckedPointer.logicIssues change) = 0) ∧
    (¬ NullTested code name → ¬ Mentions code "__ISVALIDREF" →
      reportCount name (uncheckedPointer.logicIssues change) = 1) := by
  rw [reportCount_eq adds isNew used]
  have excused := isNullTested_iff used
  refine ⟨?_, fun mentioned => ?_, fun untested unmentioned => ?_⟩
  · rintro (compared | tested)
    · rw [if_pos (excused.mpr (.inl compared))]
    · rw [if_pos (excused.mpr (.inr tested.mentions))]
  · rw [if_pos (excused.mpr (.inr mentioned))]
  · rw [if_neg fun tested => (excused.mp tested).elim untested unmentioned]

/-- A change that adds a code. -/
def addition (code : String) : LogicChange :=
  { name := "Main", file := "main.st", firstLine := 1, lastLine := 1, newCode := some code }

def comparedCode : String := "IF q <> 0 THEN x := p^ + Q^; END_IF"

theorem uncheckedPointer_excused_compared :
    (Dereferenced comparedCode "p" ∧
      reportCount "p" (uncheckedPointer.logicIssues (addition comparedCode)) = 1) ∧
    (Dereferenced comparedCode "Q" ∧ NullTested comparedCode "Q" ∧
      reportCount "Q" (uncheckedPointer.logicIssues (addition comparedCode)) = 0) := by
  have p : Dereferenced comparedCode "p" :=
    ⟨by decide, List.all_eq_true.mp (by decide), "IF q <> 0 THEN x := ".toList,
      " + Q^; END_IF".toList, by decide, by decide⟩
  have q : Dereferenced comparedCode "Q" :=
    ⟨by decide, List.all_eq_true.mp (by decide), "IF q <> 0 THEN x := p^ + ".toList,
      "; END_IF".toList, by decide, by decide⟩
  have plain : ¬ Mentions comparedCode "__ISVALIDREF" := by
    rw [← mentions_iff]
    decide +kernel
  have untested : ¬ NullTested comparedCode "p" := fun tested =>
    absurd ((isNullTested_iff p).mpr (.inl tested)) (by decide +kernel)
  have compared : NullTested comparedCode "Q" := by
    refine ⟨⟨"IF".toList, " ".toList, "q".toList, " ".toList, [], " ".toList, "0".toList, by decide,
      by decide, by decide, by decide, by decide, by decide, by decide, "0", by decide, by decide⟩,
      [], " THEN x := p^ + Q^; END_IF".toList, by decide⟩
  obtain ⟨-, -, reported⟩ := @uncheckedPointer_excused (addition comparedCode) _ _ rfl rfl p
  obtain ⟨excused, -, -⟩ := @uncheckedPointer_excused (addition comparedCode) _ _ rfl rfl q
  exact ⟨⟨p, reported untested plain⟩, q, compared, excused (.inl compared)⟩

/-- A use of one pointer and a validity test of another. -/
def foreignTest : String := "x := p^; ok := __ISVALIDREF(q);"

/-- The report about a pointer is gone as soon as another pointer is tested. -/
theorem foreignTest_hides_use :
    Dereferenced foreignTest "p" ∧ ¬ NullTested foreignTest "p" ∧ ¬ ValidityTested foreignTest "p" ∧
    reportCount "p" (uncheckedPointer.logicIssues (addition "x := p^;")) = 1 ∧
    reportCount "p" (uncheckedPointer.logicIssues (addition foreignTest)) = 0 := by
  have used : Dereferenced foreignTest "p" :=
    ⟨by decide, List.all_eq_true.mp (by decide), "x := ".toList,
      "; ok := __ISVALIDREF(q);".toList, by decide, by decide⟩
  have alone : Dereferenced "x := p^;" "p" :=
    ⟨by decide, List.all_eq_true.mp (by decide), "x := ".toList, ";".toList, by decide, by decide⟩
  refine ⟨used, ?_, ?_, ?_, ?_⟩
  · -- There is no comparison at all.
    rintro ⟨test, present⟩
    have less : '<' ∈ foreignTest.toList := present.subset (by simp [NullTest.text])
    exact absurd less (by decide)
  · -- What stands in the only parentheses is no spelling of the pointer.
    rintro ⟨⟨keyword, gap, inner, tested, tail, _, _, isInner, isName, _⟩, before, after, shape⟩
    have split : "x := p^; ok := __ISVALIDREF".toList ++ '(' :: "q);".toList =
        before ++ keyword ++ gap ++ '(' :: (inner ++ (tested ++ (tail ++ ')' :: after))) := by
      have parts : "x := p^; ok := __ISVALIDREF".toList ++ '(' :: "q);".toList =
          foreignTest.toList := by decide
      rw [parts, ← shape]
      simp [ValidityTest.text]
    obtain ⟨-, -, argument⟩ := (List.append_cons_inj_of_notMem (by decide) (by decide)).mp split
    obtain ⟨c, rfl⟩ := List.length_eq_one_iff.mp isName.length_eq
    cases inner with
    | nil =>
      obtain rfl : 'q' = c := by simpa using congrArg List.head? argument
      exact absurd isName (by decide)
    | cons blank inner =>
      obtain rfl : 'q' = blank := by simpa using congrArg List.head? argument
      exact absurd (isInner 'q' List.mem_cons_self) (by decide)
  · rw [@reportCount_eq (addition "x := p^;") _ _ rfl rfl alone]
    decide +kernel
  · rw [@reportCount_eq (addition foreignTest) _ _ rfl rfl used]
    decide +kernel

end PlcAudit.Review
