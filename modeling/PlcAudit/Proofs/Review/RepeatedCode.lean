import Mathlib.Data.List.Basic
import Mathlib.Tactic.Common
import PlcAudit.Proofs.Code.Origin
import PlcAudit.Review.Rule.Extent

/-!
Code that occurs twice. The search for repeated blocks keeps the first place of each digest only and
passes over repetitions that overlap it; no repetition is missed for that, since a place behind some
occurrence of its block is also behind the first. Whole additions are compared in the same way.
Digests stand for the lines they are taken of wherever no two of the compared blocks share one.
A repetition inside an addition is placed by indices of normalized lines, and so too far up by the
lines above it that normalization drops.
-/

namespace PlcAudit.Review

open Code

/-- Blocks with the same digest are the same. -/
def DigestsApart (blocks : List (List String)) : Prop :=
  ∀ left ∈ blocks, ∀ right ∈ blocks, blockDigest left = blockDigest right → left = right

/-! Blocks of one addition -/

/-- Five lines from one place on occur again at a later place, without overlap. -/
structure Repeats (lines : List String) (first second : Nat) : Prop where
  apart : first + 5 ≤ second
  inside : second + 5 ≤ lines.length
  same : ∀ offset < 5, lines[first + offset]? = lines[second + offset]?

section

variable {lines : List String}

theorem getElem?_windows (lines : List String) (start : Nat) :
    (windows lines)[start]? =
      if start + 5 ≤ lines.length then some ((lines.drop start).take 5) else none := by
  rw [windows, List.getElem?_map, windowSize]
  split
  · rw [List.getElem?_range (by omega)]
    rfl
  · rw [List.getElem?_eq_none (by rw [List.length_range]; omega)]
    rfl

theorem take_drop_eq_iff (lines : List String) (first second : Nat) :
    (lines.drop first).take 5 = (lines.drop second).take 5 ↔
      ∀ offset < 5, lines[first + offset]? = lines[second + offset]? := by
  constructor
  · intro same offset below
    have read := congrArg (·[offset]?) same
    simpa [List.getElem?_take, List.getElem?_drop, below] using read
  · intro same
    apply List.ext_getElem?
    intro offset
    by_cases below : offset < 5
    · simpa [List.getElem?_take, List.getElem?_drop, below] using same offset below
    · rw [List.getElem?_take, if_neg below, List.getElem?_take, if_neg below]

/-- The digests of the blocks of an addition, by the place of the block. -/
def digests (lines : List String) : List String :=
  (windows lines).map blockDigest

/-- Where digests tell the blocks apart, blocks with one digest are a repetition. -/
theorem repeats_iff (known : DigestsApart (windows lines)) {first second : Nat} :
    Repeats lines first second ↔
      first + 5 ≤ second ∧ ∃ digest,
        (digests lines)[first]? = some digest ∧ (digests lines)[second]? = some digest := by
  simp only [digests, List.getElem?_map, getElem?_windows]
  constructor
  · intro found
    have inside := found.inside
    have apart := found.apart
    rw [if_pos inside, if_pos (by omega), (take_drop_eq_iff lines first second).mpr found.same]
    exact ⟨apart, _, rfl, rfl⟩
  · rintro ⟨apart, digest, left, right⟩
    by_cases inside : second + 5 ≤ lines.length
    · have block (start : Nat) (fits : start + 5 ≤ lines.length) :
          (lines.drop start).take 5 ∈ windows lines := by
        apply List.mem_of_getElem? (i := start)
        rw [getElem?_windows, if_pos fits]
      rw [if_pos (by omega), Option.map_some, Option.some.injEq] at left
      rw [if_pos inside, Option.map_some, Option.some.injEq] at right
      refine ⟨apart, inside, (take_drop_eq_iff lines first second).mp ?_⟩
      exact known _ (block first (by omega)) _ (block second inside) (left.trans right.symm)
    · simp [inside] at right

end

/-- A place of a block with its first place, if that one lies far enough ahead. -/
def repetitionAt? (blocks : List String) : String × Nat → Option (Nat × Nat)
  | (block, index) =>
    if blocks.idxOf block + 5 ≤ index then some (index, blocks.idxOf block) else none

/-- What is remembered of the blocks in front: the first place of each. -/
def FirstPlaces (front : List String) (seen : List (String × Nat)) : Prop :=
  ∀ block, seen.lookup block = if block ∈ front then some (front.idxOf block) else none

section

variable {front rest : List String} {seen : List (String × Nat)} {block : String}

theorem FirstPlaces.remember (known : FirstPlaces front seen) (new : block ∉ front) :
    FirstPlaces (front ++ [block]) ((block, front.length) :: seen) := by
  intro other
  by_cases same : other = block
  · subst same
    simp [List.idxOf_append_of_notMem new]
  · have different : (other == block) = false := beq_false_of_ne same
    by_cases old : other ∈ front
    · simp [List.lookup_cons, different, old, known other, List.idxOf_append_of_mem old]
    · simp [List.lookup_cons, different, same, old, known other]

theorem FirstPlaces.pass (known : FirstPlaces front seen) (old : block ∈ front) :
    FirstPlaces (front ++ [block]) seen := by
  intro other
  rw [known other]
  by_cases member : other ∈ front
  · simp [member, List.idxOf_append_of_mem member]
  · have different : other ≠ block := fun same => member (same ▸ old)
    simp [member, different]

/-- The search gives the first place that lies far enough behind the first one of its block. -/
theorem repetitionFrom_eq (known : FirstPlaces front seen) :
    repetitionFrom seen (rest.zipIdx front.length) =
      (rest.zipIdx front.length).findSome? (repetitionAt? (front ++ rest)) := by
  induction rest generalizing front seen with
  | nil => rfl
  | cons block rest ih =>
    have regroup : front ++ block :: rest = front ++ [block] ++ rest := by simp
    have length : front.length + 1 = (front ++ [block]).length := by simp
    rw [List.zipIdx_cons, repetitionFrom, List.findSome?_cons, known block, repetitionAt?]
    by_cases old : block ∈ front
    · rw [if_pos old, List.idxOf_append_of_mem old]
      by_cases far : front.idxOf block + 5 ≤ front.length
      · simp [windowSize, far]
      · simp only [windowSize, far, if_false]
        rw [length, ih (known.pass old), regroup]
    · -- A block that is new is its own first place.
      rw [if_neg old, List.idxOf_append_of_notMem old, List.idxOf_cons_self]
      have here : ¬ front.length + 0 + 5 ≤ front.length := by omega
      simp only [here, if_false]
      rw [length, ih (known.remember old), regroup]

end

section

variable {lines : List String} {index first : Nat}

theorem repetition?_eq (lines : List String) :
    repetition? lines = (digests lines).zipIdx.findSome? (repetitionAt? (digests lines)) := by
  have start : FirstPlaces [] [] := fun _ => rfl
  rw [repetition?]
  split
  · rename_i short
    refine (List.findSome?_eq_none_iff.mpr fun ⟨block, index⟩ member => ?_).symm
    have bound := List.snd_lt_of_mem_zipIdx member
    simp only [digests, List.length_map, windows, List.length_range, windowSize] at bound short
    rw [repetitionAt?, if_neg (by omega)]
  · exact repetitionFrom_eq start

/-- A repetition that is found leads from some place of a block back to its first place. -/
theorem repetition?_sound (found : repetition? lines = some (index, first)) :
    first + 5 ≤ index ∧ ∃ digest,
      (digests lines)[first]? = some digest ∧ (digests lines)[index]? = some digest := by
  rw [repetition?_eq] at found
  obtain ⟨⟨digest, place⟩, member, here⟩ := List.exists_of_findSome?_eq_some found
  have read : (digests lines)[place]? = some digest := List.mem_zipIdx_iff_getElem?.mp member
  simp only [repetitionAt?, Option.ite_none_right_eq_some, Option.some.injEq, Prod.mk.injEq] at here
  obtain ⟨far, rfl, rfl⟩ := here
  exact ⟨far, digest, List.getElem?_idxOf (List.mem_of_getElem? read), read⟩

/-- Where two blocks that do not overlap have one digest, a repetition is found. -/
theorem repetition?_complete {second : Nat} {digest : String} (apart : first + 5 ≤ second)
    (left : (digests lines)[first]? = some digest)
    (right : (digests lines)[second]? = some digest) : (repetition? lines).isSome := by
  rw [repetition?_eq, List.findSome?_isSome_iff]
  refine ⟨(digest, second), List.mem_zipIdx_iff_getElem?.mpr right, ?_⟩
  -- The first place of the digest is at or before this one.
  have earliest : (digests lines).idxOf digest < first + 1 := by
    rw [← List.mem_take_iff_idxOf_lt (List.mem_of_getElem? left)]
    exact List.mem_of_getElem? (by rwa [List.getElem?_take_of_lt (Nat.lt_succ_self _)])
  rw [repetitionAt?, if_pos (by omega)]
  rfl

theorem repetition?_isSome_iff (known : DigestsApart (windows lines)) :
    (repetition? lines).isSome ↔ ∃ first second, Repeats lines first second := by
  constructor
  · intro found
    obtain ⟨⟨index, first⟩, found⟩ := Option.isSome_iff_exists.mp found
    exact ⟨first, index, (repeats_iff known).mpr (repetition?_sound found)⟩
  · rintro ⟨first, second, found⟩
    obtain ⟨apart, digest, left, right⟩ := (repeats_iff known).mp found
    exact repetition?_complete apart left right

end

/-- The issue about a repetition in an addition. -/
def repetitionIssue (change : LogicChange) (index first : Nat) : Issue :=
  duplicateCode.issue change.file
    (repetitionFinding change index s!"{change.file}:{change.firstLine + first}")

theorem repetitionIssue_description (change : LogicChange) (index first : Nat) :
    (repetitionIssue change index first).description =
      s!"{windowSize}+ lines of {change.name} repeat code at {change.file}:" ++
        toString (change.firstLine + first) := by
  simp only [repetitionIssue, Rule.issue, repetitionFinding, String.append_assoc]
  rfl

theorem duplicateCode_logicIssues {change : LogicChange} {code : String}
    (added : change.edit = .added) (isNew : change.newCode = some code) :
    duplicateCode.logicIssues change =
      ((repetition? (normalizedLines code)).map fun place =>
        repetitionIssue change place.1 place.2).toList := by
  have lines : change.addedLines? = some (normalizedLines code) := by
    simp [LogicChange.addedLines?, added, isNew]
  rw [Rule.logicIssues, duplicateCode]
  simp only [lines, Option.bind_some]
  cases repetition? (normalizedLines code) with
  | none => rfl
  | some place => rfl

/-! Whole additions -/

/-- The lines of an addition that is long enough to be compared. -/
def LogicChange.comparedLines? (change : LogicChange) : Option (List String) :=
  change.addedLines?.filter (5 ≤ ·.length)

/-- The change at a place of a list, with the earliest in front of it that has the same lines. -/
def originalOf? (logic : List LogicChange) (place : Nat) : Option (LogicChange × LogicChange) :=
  logic[place]?.bind fun change => change.comparedLines?.bind fun lines =>
    ((logic.take place).find? fun earlier => earlier.comparedLines? = some lines).map
      fun earlier => (change, earlier)

/-- The change at a place of a list consists of five lines at least, and an addition in front of it
has the same lines. -/
def RepeatsEarlier (logic : List LogicChange) (place : Nat) : Prop :=
  ∃ change lines, logic[place]? = some change ∧ change.addedLines? = some lines ∧
    5 ≤ lines.length ∧ ∃ earlier ∈ logic.take place, earlier.addedLines? = some lines

theorem LogicChange.comparedLines?_eq_some_iff {change : LogicChange} {lines : List String} :
    change.comparedLines? = some lines ↔ change.addedLines? = some lines ∧ 5 ≤ lines.length := by
  simp [comparedLines?, Option.filter_eq_some_iff]

theorem originalOf?_isSome_iff (logic : List LogicChange) (place : Nat) :
    (originalOf? logic place).isSome ↔ RepeatsEarlier logic place := by
  constructor
  · intro found
    obtain ⟨pair, found⟩ := Option.isSome_iff_exists.mp found
    obtain ⟨change, here, found⟩ := Option.bind_eq_some_iff.mp found
    obtain ⟨lines, compared, found⟩ := Option.bind_eq_some_iff.mp found
    obtain ⟨earlier, found, -⟩ := Option.map_eq_some_iff.mp found
    obtain ⟨added, long⟩ := LogicChange.comparedLines?_eq_some_iff.mp compared
    have alike : earlier.comparedLines? = some lines := by simpa using List.find?_some found
    exact ⟨change, lines, here, added, long, earlier, List.mem_of_find?_eq_some found,
      (LogicChange.comparedLines?_eq_some_iff.mp alike).1⟩
  · rintro ⟨change, lines, here, added, long, earlier, ahead, alike⟩
    have compared := LogicChange.comparedLines?_eq_some_iff.mpr ⟨added, long⟩
    have also := LogicChange.comparedLines?_eq_some_iff.mpr ⟨alike, long⟩
    rw [originalOf?, here, Option.bind_some, compared, Option.bind_some, Option.isSome_map,
      List.find?_isSome]
    exact ⟨earlier, ahead, by simpa using also⟩

/-- What is remembered of the additions in front: the earliest with given lines. -/
def Remembers (logic front : List LogicChange) (seen : List (String × LogicChange)) : Prop :=
  ∀ lines ∈ logic.filterMap (·.comparedLines?), seen.lookup (blockDigest lines) =
    front.find? fun earlier => earlier.comparedLines? = some lines

theorem repeatedBlocks_cons (seen : List (String × LogicChange)) (change : LogicChange)
    (rest : List LogicChange) :
    repeatedBlocks seen (change :: rest) =
      match change.comparedLines? with
      | none => repeatedBlocks seen rest
      | some lines =>
        match seen.lookup (blockDigest lines) with
        | some earlier => (change, earlier) :: repeatedBlocks seen rest
        | none => repeatedBlocks ((blockDigest lines, change) :: seen) rest := by
  rw [repeatedBlocks, LogicChange.comparedLines?]
  cases change.addedLines? with
  | none => rfl
  | some lines =>
    by_cases long : 5 ≤ lines.length
    · rw [Option.filter_some, if_pos (decide_eq_true long)]
      exact if_neg (Nat.not_lt.mpr long)
    · rw [Option.filter_some, if_neg (by simpa using long)]
      exact if_pos (Nat.not_le.mp long)

section

variable {logic front rest : List LogicChange} {seen : List (String × LogicChange)}
  {change : LogicChange}

theorem Remembers.pass (known : Remembers logic front seen)
    (old : ∀ lines, change.comparedLines? = some lines → (seen.lookup (blockDigest lines)).isSome) :
    Remembers logic (front ++ [change]) seen := by
  intro lines member
  rw [known lines member, List.find?_append]
  cases found : front.find? fun earlier => earlier.comparedLines? = some lines with
  | some earlier => rfl
  | none =>
    have other : change.comparedLines? ≠ some lines := by
      intro same
      have present := old lines same
      rw [known lines member, found] at present
      cases present
    simp [other]

theorem Remembers.remember (known : Remembers logic front seen)
    (apart : DigestsApart (logic.filterMap (·.comparedLines?))) {lines : List String}
    (member : lines ∈ logic.filterMap (·.comparedLines?))
    (compared : change.comparedLines? = some lines)
    (new : seen.lookup (blockDigest lines) = none) :
    Remembers logic (front ++ [change]) ((blockDigest lines, change) :: seen) := by
  intro others present
  rw [List.find?_append, ← known others present]
  by_cases same : others = lines
  · subst same
    simp [new, compared]
  · have different : (blockDigest others == blockDigest lines) = false :=
      beq_false_of_ne fun equal => same (apart others present lines member equal)
    simp [List.lookup_cons, different, compared, Ne.symm same]

/-- The additions that repeat earlier ones are reported place by place. -/
theorem repeatedBlocks_eq (apart : DigestsApart ((front ++ rest).filterMap (·.comparedLines?)))
    (known : Remembers (front ++ rest) front seen) :
    repeatedBlocks seen rest =
      (List.range rest.length).filterMap fun offset =>
        originalOf? (front ++ rest) (front.length + offset) := by
  induction rest generalizing front seen with
  | nil => rfl
  | cons change rest ih =>
    have later (remembered : List (String × LogicChange))
        (still : Remembers (front ++ change :: rest) (front ++ [change]) remembered) :
        repeatedBlocks remembered rest = (List.range rest.length).filterMap
          ((fun offset => originalOf? (front ++ change :: rest) (front.length + offset)) ∘
            Nat.succ) := by
      have regroup : front ++ change :: rest = front ++ [change] ++ rest := by simp
      rw [regroup] at apart still ⊢
      rw [ih apart still]
      refine List.filterMap_congr fun offset _ => ?_
      rw [Function.comp_apply, List.length_append, List.length_singleton]
      congr 1
      omega
    have here : originalOf? (front ++ change :: rest) (front.length + 0) =
        change.comparedLines?.bind fun lines =>
          (front.find? fun earlier => earlier.comparedLines? = some lines).map
            fun earlier => (change, earlier) := by
      simp [originalOf?]
    rw [repeatedBlocks_cons, List.length_cons, List.range_succ_eq_map, List.filterMap_cons,
      List.filterMap_map, here]
    cases compared : change.comparedLines? with
    | none => exact later seen (known.pass (by simp [compared]))
    | some lines =>
      have member : lines ∈ (front ++ change :: rest).filterMap (·.comparedLines?) :=
        List.mem_filterMap.mpr ⟨change, by simp, compared⟩
      rw [Option.bind_some, ← known lines member]
      dsimp only
      cases found : seen.lookup (blockDigest lines) with
      | some earlier =>
        refine congrArg _ (later seen (known.pass fun others same => ?_))
        rw [← Option.some.inj (compared.symm.trans same), found]
        rfl
      | none => exact later _ (known.remember apart member compared found)

end

/-- The issue about an addition that repeats an earlier one. -/
def repeatedIssue (change earlier : LogicChange) : Issue :=
  duplicateCode.issue change.file
    (repetitionFinding change 0 s!"{earlier.file}:{earlier.firstLine}")

theorem duplicateCode_setIssues {changes : ChangeSet}
    (apart : DigestsApart (changes.logic.filterMap (·.comparedLines?))) :
    duplicateCode.setIssues changes =
      (List.range changes.logic.length).filterMap fun place =>
        (originalOf? changes.logic place).map fun (change, earlier) =>
          repeatedIssue change earlier := by
  have start : Remembers changes.logic [] [] := fun _ _ => rfl
  have blocks : repeatedBlocks [] changes.logic =
      (List.range changes.logic.length).filterMap (originalOf? changes.logic) := by
    simpa using @repeatedBlocks_eq [] changes.logic [] apart start
  have findings : duplicateCode.onSet changes =
      (repeatedBlocks [] changes.logic).map fun (change, earlier) =>
        (change.file, repetitionFinding change 0 s!"{earlier.file}:{earlier.firstLine}") := rfl
  rw [Rule.setIssues, findings, blocks, List.map_map, List.map_filterMap]
  rfl

/-- An addition is reported exactly if five of its lines occur again without overlap, and then once.
Of a set exactly the additions of at least five lines are reported that have the same lines as one
in front of them, each with the earliest such. Both hold wherever digests tell the blocks that are
compared apart. -/
theorem duplicateCode_exact :
    (∀ (change : LogicChange) (code : String), change.edit = .added → change.newCode = some code →
      DigestsApart (windows (normalizedLines code)) →
      (duplicateCode.logicIssues change ≠ [] ↔
        ∃ first second, Repeats (normalizedLines code) first second) ∧
      (duplicateCode.logicIssues change).length ≤ 1) ∧
    ∀ changes : ChangeSet, DigestsApart (changes.logic.filterMap (·.comparedLines?)) →
      (duplicateCode.setIssues changes =
        (List.range changes.logic.length).filterMap fun place =>
          (originalOf? changes.logic place).map fun (change, earlier) =>
            repeatedIssue change earlier) ∧
      ∀ place, (originalOf? changes.logic place).isSome ↔ RepeatsEarlier changes.logic place := by
  constructor
  · intro change code added isNew apart
    rw [duplicateCode_logicIssues added isNew, ← repetition?_isSome_iff apart]
    cases repetition? (normalizedLines code) with
    | none => simp
    | some place => simp
  · intro changes apart
    exact ⟨duplicateCode_setIssues apart, originalOf?_isSome_iff changes.logic⟩

/-- Two lines by turns, so that most blocks overlap the first one they repeat. -/
def alternatingCode : String := "x;\ny;\nx;\ny;\nx;\ny;\nx;\ny;\nx;\ny;\nx;"

def alternation (line : Nat) : LogicChange :=
  { name := "Main", file := "main.st", firstLine := line, lastLine := line + 10,
    newCode := some alternatingCode }

theorem normalizedLines_alternatingCode :
    normalizedLines alternatingCode =
      ["X;", "Y;", "X;", "Y;", "X;", "Y;", "X;", "Y;", "X;", "Y;", "X;"] := by
  decide +kernel

theorem alternatingCode_apart : DigestsApart (windows (normalizedLines alternatingCode)) := by
  have blocks : ∀ block ∈ windows (normalizedLines alternatingCode),
      block = ["X;", "Y;", "X;", "Y;", "X;"] ∨ block = ["Y;", "X;", "Y;", "X;", "Y;"] := by
    rw [normalizedLines_alternatingCode]
    decide
  have different : blockDigest ["X;", "Y;", "X;", "Y;", "X;"] ≠
      blockDigest ["Y;", "X;", "Y;", "X;", "Y;"] := by decide +kernel
  intro left isLeft right isRight same
  rcases blocks left isLeft with rfl | rfl <;> rcases blocks right isRight with rfl | rfl
  · rfl
  · exact absurd same different
  · exact absurd same.symm different
  · rfl

theorem comparedLines?_alternation (line : Nat) :
    (alternation line).comparedLines? = some (normalizedLines alternatingCode) :=
  LogicChange.comparedLines?_eq_some_iff.mpr
    ⟨rfl, by rw [normalizedLines_alternatingCode]; decide⟩

/-- The seventh block is the first that repeats one without overlap, and a second addition of the
code repeats the first one. -/
theorem duplicateCode_exact_alternation :
    DigestsApart (windows (normalizedLines alternatingCode)) ∧
    (duplicateCode.logicIssues (alternation 1)).length = 1 ∧
    DigestsApart ([alternation 1, alternation 20].filterMap (·.comparedLines?)) ∧
    repeatedIssue (alternation 20) (alternation 1) ∈
      duplicateCode.setIssues { logic := [alternation 1, alternation 20] } := by
  obtain ⟨ofChange, ofSet⟩ := duplicateCode_exact
  obtain ⟨reported, once⟩ := ofChange (alternation 1) alternatingCode rfl rfl alternatingCode_apart
  have repeats : Repeats (normalizedLines alternatingCode) 0 6 := by
    rw [normalizedLines_alternatingCode]
    exact ⟨by decide, by decide, by decide⟩
  have apart : DigestsApart ([alternation 1, alternation 20].filterMap (·.comparedLines?)) := by
    simp [DigestsApart, comparedLines?_alternation]
  obtain ⟨listed, -⟩ := ofSet { logic := [alternation 1, alternation 20] } apart
  refine ⟨alternatingCode_apart, ?_, apart, ?_⟩
  · have present := List.length_pos_iff.mpr (reported.mpr ⟨0, 6, repeats⟩)
    omega
  · rw [listed, List.mem_filterMap]
    exact ⟨1, by simp, by simp [originalOf?, comparedLines?_alternation]⟩

/-! Places of repetitions -/

theorem lt_length_of_digest {lines : List String} {index : Nat} {digest : String}
    (read : (digests lines)[index]? = some digest) : index < lines.length := by
  have inside := (List.getElem?_eq_some_iff.mp read).1
  simp only [digests, List.length_map, windows, List.length_range, windowSize] at inside
  omega

/-- The line of a reported repetition, and the line of the original that the issue names, lie above
the lines these come from in the source, by as many lines as normalization drops above them. -/
theorem duplicateCode_shortOf_passedOver {change : LogicChange} {code : String}
    (added : change.edit = .added) (isNew : change.newCode = some code) :
    ∀ issue ∈ duplicateCode.logicIssues change, ∃ index first source original named,
      repetition? (normalizedLines code) = some (index, first) ∧
      (sourceLines code)[index]? = some source ∧
      (sourceLines code)[first]? = some original ∧
      issue.line + passedOver code source = change.firstLine + source ∧
      named + passedOver code original = change.firstLine + original ∧
      issue.description =
        s!"{windowSize}+ lines of {change.name} repeat code at {change.file}:" ++ toString named := by
  intro issue reported
  rw [duplicateCode_logicIssues added isNew, Option.mem_toList] at reported
  obtain ⟨⟨index, first⟩, found, rfl⟩ := Option.map_eq_some_iff.mp reported
  obtain ⟨-, digest, left, right⟩ := repetition?_sound found
  obtain ⟨source, here⟩ := exists_sourceLine (lt_length_of_digest right)
  obtain ⟨original, there⟩ := exists_sourceLine (lt_length_of_digest left)
  have shifted {place line : Nat} (comes : (sourceLines code)[place]? = some line) :
      change.firstLine + place + passedOver code line = change.firstLine + line := by
    rw [Nat.add_assoc, index_add_passedOver comes]
  exact ⟨index, first, source, original, change.firstLine + first, found, here, there,
    shifted here, shifted there, repetitionIssue_description change index first⟩

/-- Five statements twice, below a comment. -/
def headedCopies : String := "// twice\na;\nb;\nc;\nd;\ne;\na;\nb;\nc;\nd;\ne;"

def headedChange : LogicChange :=
  { name := "Main", file := "main.st", firstLine := 1, lastLine := 11,
    newCode := some headedCopies }

theorem sourceLines_headedCopies : sourceLines headedCopies = [1, 2, 3, 4, 5, 6, 7, 8, 9, 10] := by
  decide +kernel

/-- Ten lines have room for one repetition only. -/
theorem repetition?_headedCopies : repetition? (normalizedLines headedCopies) = some (5, 0) := by
  have lines : normalizedLines headedCopies =
      ["A;", "B;", "C;", "D;", "E;", "A;", "B;", "C;", "D;", "E;"] := by decide +kernel
  rw [lines]
  have copied (place : Nat) (here : place = 0 ∨ place = 5) :
      (digests ["A;", "B;", "C;", "D;", "E;", "A;", "B;", "C;", "D;", "E;"])[place]? =
        some (blockDigest ["A;", "B;", "C;", "D;", "E;"]) := by
    rcases here with rfl | rfl <;> simp [digests, getElem?_windows]
  have present := repetition?_complete (by decide) (copied 0 (.inl rfl)) (copied 5 (.inr rfl))
  obtain ⟨⟨index, first⟩, found⟩ := Option.isSome_iff_exists.mp present
  obtain ⟨apart, digest, -, read⟩ := repetition?_sound found
  have inside := (List.getElem?_eq_some_iff.mp read).1
  simp only [digests, List.length_map, windows, List.length_range, windowSize, List.length_cons,
    List.length_nil] at inside
  obtain ⟨rfl, rfl⟩ : index = 5 ∧ first = 0 := by omega
  exact found

theorem duplicateCode_shortOf_passedOver_headedCopies :
    ∃ issue ∈ duplicateCode.logicIssues headedChange,
      issue.line + passedOver headedCopies 6 = headedChange.firstLine + 6 := by
  have reported : repetitionIssue headedChange 5 0 ∈ duplicateCode.logicIssues headedChange := by
    rw [duplicateCode_logicIssues rfl rfl, repetition?_headedCopies]
    exact List.mem_singleton_self _
  obtain ⟨index, first, source, original, named, found, here, there, short, -⟩ :=
    duplicateCode_shortOf_passedOver rfl rfl _ reported
  obtain ⟨rfl, rfl⟩ := Prod.mk.inj (Option.some.inj (found.symm.trans repetition?_headedCopies))
  rw [sourceLines_headedCopies] at here
  obtain rfl := Option.some.inj here
  exact ⟨_, reported, short⟩

/-- The repetition that starts on the seventh line is reported on the sixth, as one of the comment
line. -/
theorem headedCopies_misplaced :
    ∃ issue ∈ duplicateCode.logicIssues headedChange, ∃ source original,
      repetition? (normalizedLines headedCopies) = some (5, 0) ∧
      (sourceLines headedCopies)[5]? = some source ∧
      (sourceLines headedCopies)[0]? = some original ∧
      issue.line ≠ headedChange.firstLine + source ∧
      issue.description ≠
        s!"{windowSize}+ lines of {headedChange.name} repeat code at {headedChange.file}:" ++
          toString (headedChange.firstLine + original) := by
  refine ⟨repetitionIssue headedChange 5 0, ?_, 6, 1, repetition?_headedCopies, ?_, ?_, ?_, ?_⟩
  · rw [duplicateCode_logicIssues rfl rfl, repetition?_headedCopies]
    exact List.mem_singleton_self _
  · rw [sourceLines_headedCopies]
    rfl
  · rw [sourceLines_headedCopies]
    rfl
  · decide
  · decide

end PlcAudit.Review
