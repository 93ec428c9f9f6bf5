import Mathlib.Algebra.GroupWithZero.Nat
import PlcAudit.Proofs.Review.Keyword

/-!
How often keywords stand in a text. A keyword does not reach beyond a line feed, so a text has as
many keywords as its lines have together.
-/

namespace PlcAudit.Review

open Pattern Code

section

variable {text other left right : List Char} {word : String} {start start' : Nat}

/-- Whether a word stands at a place depends on the characters there and on both sides. -/
theorem wordAt_congr
    (same : ∀ index, index < word.length → text[start + index]? = other[start' + index]?)
    (before : (before? text start).any Text.isWord = (before? other start').any Text.isWord)
    (behind : text[start + word.length]?.any Text.isWord =
      other[start' + word.length]?.any Text.isWord) :
    WordAt text word start ↔ WordAt other word start' := by
  have reads : Reads text word start ↔ Reads other word start' := by
    refine forall_congr' fun index => forall_congr' fun c => imp_congr_right fun found => ?_
    have inside := (List.getElem?_eq_some_iff.mp found).1
    rw [String.length_toList] at inside
    rw [same index inside]
  constructor
  · intro here
    exact ⟨reads.mp here.reads, before ▸ here.before, behind ▸ here.behind⟩
  · intro here
    exact ⟨reads.mpr here.reads, before ▸ here.before, behind ▸ here.behind⟩

/-- Words in the first line of a text. -/
theorem wordAt_front_iff (inside : start + word.length ≤ left.length) :
    WordAt (left ++ '\n' :: right) word start ↔ WordAt left word start := by
  refine wordAt_congr (fun index within => ?_) ?_ ?_
  · exact List.getElem?_append_left (by omega)
  · cases start with
    | zero => rfl
    | succ start =>
      rw [before?, before?, if_neg (Nat.succ_ne_zero start), if_neg (Nat.succ_ne_zero start),
        List.getElem?_append_left (by omega)]
  · rcases Nat.eq_or_lt_of_le inside with last | within
    · rw [last, List.getElem?_append_right (Nat.le_refl _), Nat.sub_self, List.getElem?_length]
      rfl
    · rw [List.getElem?_append_left within]

/-- Words behind the first line of a text. -/
theorem wordAt_behind_iff :
    WordAt (left ++ '\n' :: right) word (left.length + 1 + start) ↔ WordAt right word start := by
  have read (place : Nat) :
      (left ++ '\n' :: right)[left.length + 1 + place]? = right[place]? := by
    rw [List.getElem?_append_right (by omega),
      show left.length + 1 + place - left.length = place + 1 by omega, List.getElem?_cons_succ]
  refine wordAt_congr (fun index _ => ?_) ?_ ?_
  · rw [Nat.add_assoc, read]
  · cases start with
    | zero =>
      rw [before?, if_neg (by omega), Nat.add_zero, Nat.add_sub_cancel,
        List.getElem?_append_right (Nat.le_refl _), Nat.sub_self]
      rfl
    | succ start =>
      rw [before?, before?, if_neg (by omega), if_neg (Nat.succ_ne_zero start),
        show left.length + 1 + (start + 1) - 1 = left.length + 1 + start by omega, read]
      rfl
  · rw [Nat.add_assoc, read]

/-- No word reaches beyond a line feed. -/
theorem WordAt.one_side (here : WordAt (left ++ '\n' :: right) word start)
    (keyword : isKeyword word = true) :
    start + word.length ≤ left.length ∨ left.length + 1 ≤ start := by
  by_contra across
  rw [not_or] at across
  obtain ⟨d, read, letter⟩ := here.reads.exists_isWord keyword
    (show left.length - start < word.length by omega)
  rw [show start + (left.length - start) = left.length by omega,
    List.getElem?_append_right (Nat.le_refl _), Nat.sub_self, List.getElem?_cons_zero,
    Option.some.injEq] at read
  subst read
  exact absurd letter (by decide)

end

section

variable {expr : Expr} {words : List String} {left right : List Char}

theorem FindsWords.endsAt_iff (finds : FindsWords expr words) {text : List Char} {stop : Nat} :
    expr.EndsAt text stop ↔
      ∃ start, ∃ word ∈ words, WordAt text word start ∧ stop = start + word.length :=
  exists_congr fun _ => finds.matched_iff

theorem FindsWords.length_findAll_cut (finds : FindsWords expr words) :
    (expr.program.findAll (left ++ '\n' :: right)).length =
      (expr.program.findAll left).length + (expr.program.findAll right).length := by
  refine finds.countable.length_findAll_parts (Nat.lt_succ_self left.length)
    (fun stop early => ?_) fun stop => ?_
  · rw [finds.endsAt_iff, finds.endsAt_iff]
    refine exists_congr fun start => exists_congr fun word => and_congr_right fun _ =>
      and_congr_left fun same => wordAt_front_iff (by omega)
  · rw [finds.endsAt_iff, finds.endsAt_iff]
    constructor
    · rintro ⟨start, word, listed, here, same⟩
      rcases here.one_side (finds.keywords word listed) with before | behind
      · omega
      · obtain ⟨place, rfl⟩ := Nat.exists_eq_add_of_le behind
        exact ⟨place, word, listed, wordAt_behind_iff.mp here, by omega⟩
    · rintro ⟨start, word, listed, here, rfl⟩
      exact ⟨_, word, listed, wordAt_behind_iff.mpr here, by omega⟩

/-- A text without word characters has no keywords. -/
theorem FindsWords.length_findAll_eq_zero (finds : FindsWords expr words) {text : List Char}
    (wordless : ∀ c ∈ text, Text.isWord c = false) :
    (expr.program.findAll text).length = 0 := by
  refine finds.countable.length_findAll_eq_zero fun stop ends => ?_
  obtain ⟨start, word, listed, here, -⟩ := finds.endsAt_iff.mp ends
  have keyword := finds.keywords word listed
  obtain ⟨d, read, letter⟩ := here.reads.exists_isWord keyword (length_pos_of_isKeyword keyword)
  rw [wordless d (List.mem_of_getElem? read)] at letter
  cases letter

/-- A text has as many keywords as its lines have together. -/
theorem FindsWords.count_joined (finds : FindsWords expr words) (lines : List String) :
    expr.program.count (Text.joined "\n" lines) = (lines.map expr.program.count).sum := by
  induction lines with
  | nil => exact finds.length_findAll_eq_zero nofun
  | cons line rest ih =>
    cases rest with
    | nil => simp [Text.joined]
    | cons next others =>
      have text : (Text.joined "\n" (line :: next :: others)).toList =
          line.toList ++ '\n' :: (Text.joined "\n" (next :: others)).toList := by
        rw [Text.joined, String.intercalate_cons_of_ne_nil (List.cons_ne_nil _ _)]
        simp [Text.joined]
      rw [Program.count, text, finds.length_findAll_cut, List.map_cons, List.sum_cons, ← ih]
      rfl

end

end PlcAudit.Review
