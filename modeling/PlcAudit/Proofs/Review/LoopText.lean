import PlcAudit.Proofs.Code.Outline
import PlcAudit.Proofs.Review.Keyword
import PlcAudit.Proofs.Review.Location

/-!
The text on which a loop is judged. A loop is read from its opening line up to the first line that
ends a loop of its kind, and the search for loops goes on behind that line. So an outermost loop is
judged on its own text if no line in it ends such a loop, and a loop that stands in another one is
not judged on its own text at all.
-/

namespace PlcAudit.Review

open Code Pattern

/-! Loops as they are laid out -/

def LoopKind.ending : LoopKind → String
  | .whileLoop => "END_WHILE"
  | .repeatLoop => "UNTIL"

/-- Loops open and close with lines of their own; no other line begins with a keyword of loops. -/
def loopLayout : Layout where
  Role := Unit
  Kind := LoopKind
  stands _ line := ∀ kind : LoopKind, ¬ Begins line kind.keyword ∧ ¬ Begins line kind.ending
  opens kind line := Begins line kind.keyword
  closes kind line := Begins line kind.ending

/-- The loop that starts at a line, with the lines it consists of, without comments. -/
def loopOver (kind : LoopKind) (start : Nat) (lines : List String) : LoopBlock :=
  { kind, start, text := Text.joined "\n" (lines.map uncommented) }

/-- The loops of a code that stand in no other loop. -/
def outerLoops : Nat → Outline loopLayout → List LoopBlock
  | _, .done => []
  | start, .line _ _ _ rest => outerLoops (start + 1) rest
  | start, .block kind head _ body foot _ rest =>
    loopOver kind start (head :: (body.lines ++ [foot])) ::
      outerLoops (start + 1 + body.lines.length + 1) rest

/-- All loops of a code. -/
def allLoops : Nat → Outline loopLayout → List LoopBlock
  | _, .done => []
  | start, .line _ _ _ rest => allLoops (start + 1) rest
  | start, .block kind head _ body foot _ rest =>
    loopOver kind start (head :: (body.lines ++ [foot])) ::
      (allLoops (start + 1) body ++ allLoops (start + 1 + body.lines.length + 1) rest)

/-- The line starts with the letters of the word, and may go on as a longer word. -/
def StartsLike (line word : String) : Prop :=
  Reads (bareLine line).toList word 0

instance (line word : String) : Decidable (StartsLike line word) :=
  inferInstanceAs (Decidable (Reads ..))

/-- Behind the keyword at the start of the line there is a blank, or nothing. -/
def Spaced (line word : String) : Prop :=
  (bareLine line).toList[word.length]?.all (· == ' ') = true

instance (line word : String) : Decidable (Spaced line word) :=
  inferInstanceAs (Decidable (_ = true))

/-- The opening line of a loop is taken for one: nothing but a blank may follow `WHILE`. -/
def Recognized (kind : LoopKind) (head : String) : Prop :=
  kind = .whileLoop → Spaced head "WHILE"

/-- Every outermost loop ends at the first line below its opening that looks like the end of a loop
of its kind, and each is recognized where it opens, but no other line is taken for a loop. -/
def OwnEnds : Outline loopLayout → Prop
  | .done => True
  | .line _ text _ rest => ¬ StartsLike text "REPEAT" ∧ OwnEnds rest
  | .block kind head _ body _ _ rest =>
    Recognized kind head ∧
      (∀ line ∈ body.lines, ¬ StartsLike line kind.ending) ∧ OwnEnds rest

/-! Lines that open and close loops -/

section

variable {line : String} {kind : LoopKind}

theorem closedBy_iff :
    kind.closedBy (Text.upper (bareLine line)) = true ↔ StartsLike line kind.ending := by
  cases kind with
  | whileLoop => exact hasStart_upper_iff (by decide)
  | repeatLoop => exact hasStart_upper_iff (by decide)

/-- A line is taken for the start of a `WHILE` loop where a blank or nothing follows the keyword. -/
theorem opensWhile_iff :
    (Text.hasStart (Text.upper (bareLine line)) "WHILE " ||
        Text.upper (bareLine line) == "WHILE") = true ↔
      StartsLike line "WHILE" ∧ Spaced line "WHILE" := by
  rw [Bool.or_eq_true, beq_iff_eq, hasStart_upper_iff (by decide), upper_eq_iff (by decide),
    show "WHILE " = "WHILE" ++ String.singleton ' ' by decide, reads_append_iff, ← and_or_left,
    StartsLike, Spaced]
  refine and_congr_right fun reads => ?_
  have bound := reads.end_le (by decide)
  rw [reads_symbol_iff (by decide) (by decide)]
  cases read : (bareLine line).toList[0 + "WHILE".length]? with
  | none =>
    have outside := List.getElem?_eq_none_iff.mp read
    rw [Nat.zero_add] at read outside bound
    simpa [read] using Nat.le_antisymm outside bound
  | some c =>
    have inside := (List.getElem?_eq_some_iff.mp read).1
    rw [Nat.zero_add] at read inside
    simp only [read, Option.some.injEq, Option.all_some, beq_iff_eq, or_iff_left_iff_imp]
    omega

theorem not_opensWhile_of_stands (stands : ¬ Begins line "WHILE") :
    ¬ (StartsLike line "WHILE" ∧ Spaced line "WHILE") := by
  rintro ⟨reads, spaced⟩
  refine stands ⟨reads, rfl, ?_⟩
  rw [Spaced] at spaced
  rw [Nat.zero_add]
  cases read : (bareLine line).toList["WHILE".length]? with
  | none => rfl
  | some c =>
    rw [read, Option.all_some, beq_iff_eq] at spaced
    subst spaced
    decide

/-- What a line is taken for that is not taken for the start of a `WHILE` loop. -/
theorem openedBy?_of_not_opensWhile (plain : ¬ (StartsLike line "WHILE" ∧ Spaced line "WHILE")) :
    LoopKind.openedBy? (Text.upper (bareLine line)) =
      if StartsLike line "REPEAT" then some .repeatLoop else none := by
  rw [← opensWhile_iff, Bool.not_eq_true] at plain
  rw [LoopKind.openedBy?, plain, if_neg Bool.false_ne_true]
  exact if_congr (hasStart_upper_iff (by decide)) rfl rfl

theorem not_startsLike_both : ¬ (StartsLike line "WHILE" ∧ StartsLike line "REPEAT") := by
  rintro ⟨first, second⟩
  exact absurd (first.letter_eq second (c := 'W') (d := 'R') rfl rfl (by decide)) (by decide)

theorem openedBy?_of_begins (begins : Begins line kind.keyword) (seen : Recognized kind line) :
    LoopKind.openedBy? (Text.upper (bareLine line)) = some kind := by
  cases kind with
  | whileLoop =>
    rw [LoopKind.openedBy?, opensWhile_iff.mpr ⟨begins.reads, seen rfl⟩]
    rfl
  | repeatLoop =>
    have like : StartsLike line "REPEAT" := begins.reads
    rw [openedBy?_of_not_opensWhile fun first => not_startsLike_both ⟨first.1, like⟩, if_pos like]

theorem openedBy?_eq_none (begins : Begins line kind.keyword) (unseen : ¬ Recognized kind line) :
    LoopKind.openedBy? (Text.upper (bareLine line)) = none := by
  obtain ⟨rfl, unspaced⟩ := Classical.not_imp.mp unseen
  rw [openedBy?_of_not_opensWhile fun first => unspaced first.2,
    if_neg fun second => not_startsLike_both ⟨begins.reads, second⟩]

end

/-! The search for loops -/

theorem loopBlocks_eq (code : String) :
    loopBlocks code = loopBlocksFrom none (placed uncommented 0 (Text.lines code)) := rfl

section

variable {line : String} {kind : LoopKind} (place : Nat) (rest : List (String × Nat))

theorem loopBlocksFrom_opening
    (opens : LoopKind.openedBy? (Text.upper (Text.trim line)) = some kind) :
    loopBlocksFrom none ((line, place) :: rest) =
      loopBlocksFrom (some { kind, start := place, text := line }) rest := by
  conv =>
    lhs
    unfold loopBlocksFrom
  simp only [opens]

theorem loopBlocksFrom_passing
    (passed : LoopKind.openedBy? (Text.upper (Text.trim line)) = none) :
    loopBlocksFrom none ((line, place) :: rest) = loopBlocksFrom none rest := by
  conv =>
    lhs
    unfold loopBlocksFrom
  simp only [passed]

theorem loopBlocksFrom_within (block : LoopBlock) :
    loopBlocksFrom (some block) ((line, place) :: rest) =
      if block.kind.closedBy (Text.upper (Text.trim line)) then
        { block with text := block.text ++ "\n" ++ line } :: loopBlocksFrom none rest
      else loopBlocksFrom (some { block with text := block.text ++ "\n" ++ line }) rest := by
  conv =>
    lhs
    unfold loopBlocksFrom

end

section

variable {start : Nat} {line head foot : String} {lines front back rest : List String}
  {kind : LoopKind} {block : LoopBlock}

/-- The text of a loop with further lines. -/
def gathered (text : String) (lines : List String) : String :=
  lines.foldl (fun text line => text ++ "\n" ++ uncommented line) text

theorem gathered_append (text : String) (front back : List String) :
    gathered text (front ++ back) = gathered (gathered text front) back :=
  List.foldl_append

theorem length_gathered_le (text : String) (lines : List String) :
    text.length ≤ (gathered text lines).length := by
  induction lines generalizing text with
  | nil => exact Nat.le_refl _
  | cons line rest ih =>
    refine Nat.le_trans ?_ (ih _)
    rw [String.length_append, String.length_append]
    omega

/-- Every further line makes the text longer. -/
theorem length_gathered_lt (text : String) (more : lines ≠ []) :
    text.length < (gathered text lines).length := by
  obtain ⟨line, rest, rfl⟩ := List.exists_cons_of_ne_nil more
  refine Nat.lt_of_lt_of_le ?_ (length_gathered_le (text ++ "\n" ++ uncommented line) rest)
  have mark : "\n".length = 1 := by decide
  rw [String.length_append, String.length_append, mark]
  omega

theorem append_gathered (before text : String) (lines : List String) :
    gathered (before ++ text) lines = before ++ gathered text lines := by
  induction lines generalizing text with
  | nil => rfl
  | cons line rest ih =>
    calc gathered (before ++ text) (line :: rest)
      _ = gathered (before ++ text ++ "\n" ++ uncommented line) rest := rfl
      _ = gathered (before ++ (text ++ "\n" ++ uncommented line)) rest := by
        simp only [String.append_assoc]
      _ = before ++ gathered text (line :: rest) := ih _

theorem loopOver_eq (kind : LoopKind) (start : Nat) (head : String) (lines : List String) :
    loopOver kind start (head :: lines) =
      { kind, start, text := gathered (uncommented head) lines } := by
  have joined : Text.joined "\n" ((head :: lines).map uncommented) =
      gathered (uncommented head) lines := by
    induction lines generalizing head with
    | nil => rfl
    | cons line rest ih =>
      calc Text.joined "\n" ((head :: line :: rest).map uncommented)
        _ = uncommented head ++ "\n" ++ Text.joined "\n" ((line :: rest).map uncommented) :=
          String.intercalate_cons_of_ne_nil (by simp)
        _ = uncommented head ++ "\n" ++ gathered (uncommented line) rest := by rw [ih]
        _ = gathered (uncommented head) (line :: rest) := (append_gathered ..).symm
  rw [loopOver, joined]

theorem loopOver_inj {other : List String}
    (same : loopOver kind start (head :: (lines ++ [line])) =
      loopOver kind start (head :: (lines ++ [line] ++ other))) : other = [] := by
  by_contra more
  have longer := length_gathered_lt (gathered (uncommented head) (lines ++ [line])) more
  rw [← gathered_append] at longer
  have texts := congrArg LoopBlock.text same
  simp only [loopOver_eq] at texts
  exact absurd (congrArg String.length texts) (Nat.ne_of_lt longer)

/-- Inside a loop, lines are gathered up to the first that looks like its end. -/
theorem loopBlocksFrom_inside (open_ : ∀ line ∈ lines, ¬ StartsLike line kind.ending)
    (text : String) (begun : Nat) (rest : List (String × Nat)) :
    loopBlocksFrom (some { kind, start := begun, text }) (placed uncommented start lines ++ rest) =
      loopBlocksFrom (some { kind, start := begun, text := gathered text lines }) rest := by
  induction lines generalizing start text with
  | nil => rfl
  | cons line others ih =>
    obtain ⟨here, later⟩ := List.forall_mem_cons.mp open_
    have stays : ¬ kind.closedBy (Text.upper (Text.trim (uncommented line))) = true :=
      mt closedBy_iff.mp here
    rw [placed_cons, List.cons_append, loopBlocksFrom_within, if_neg stays]
    exact ih later _

/-- From its opening line a loop is read up to the first line that looks like its end. -/
theorem loopBlocksFrom_loop
    (opened : LoopKind.openedBy? (Text.upper (bareLine head)) = some kind)
    (open_ : ∀ line ∈ lines, ¬ StartsLike line kind.ending) (ends : StartsLike foot kind.ending)
    (rest : List String) :
    loopBlocksFrom none (placed uncommented start (head :: (lines ++ foot :: rest))) =
      loopOver kind start (head :: (lines ++ [foot])) ::
        loopBlocksFrom none (placed uncommented (start + 1 + lines.length + 1) rest) := by
  have closed : kind.closedBy (Text.upper (Text.trim (uncommented foot))) = true :=
    closedBy_iff.mpr ends
  rw [placed_cons, loopBlocksFrom_opening _ _ opened, placed_append,
    loopBlocksFrom_inside open_, placed_cons, loopBlocksFrom_within, if_pos closed, loopOver_eq,
    gathered_append]
  rfl

/-- A loop that has been opened is found, whatever follows. -/
theorem exists_of_opened {lines : List (String × Nat)} :
    ∃ found ∈ loopBlocksFrom (some block) lines, found.start = block.start := by
  induction lines generalizing block with
  | nil => exact ⟨block, List.mem_singleton_self _, rfl⟩
  | cons line rest ih =>
    rw [loopBlocksFrom_within]
    split
    · exact ⟨_, List.mem_cons_self, rfl⟩
    · obtain ⟨found, member, same⟩ := @ih { block with text := block.text ++ "\n" ++ line.1 }
      exact ⟨found, member, same⟩

/-- A line that opens no loop is passed. -/
theorem loopBlocksFrom_pass (unopened : LoopKind.openedBy? (Text.upper (bareLine line)) = none)
    (rest : List String) :
    loopBlocksFrom none (placed uncommented start (line :: rest)) =
      loopBlocksFrom none (placed uncommented (start + 1) rest) := by
  rw [placed_cons, loopBlocksFrom_passing _ _ unopened]

/-- What is found among lines starts there. -/
theorem le_start_of_mem (member : block ∈ loopBlocksFrom none (placed uncommented start lines)) :
    start ≤ block.start :=
  loopBlocksFrom_starts (start ≤ ·) (by simp)
    (fun _ placed => (List.le_snd_of_mem_zipIdx placed)) block member

/-- A loop that is found with all its lines was recognized, and none of its lines was taken for its
end. -/
theorem uncut_of_mem (begins : Begins head kind.keyword)
    (found : loopOver kind start (head :: (lines ++ [foot])) ∈
      loopBlocksFrom none (placed uncommented start (head :: (lines ++ foot :: rest)))) :
    Recognized kind head ∧ ∀ line ∈ lines, ¬ StartsLike line kind.ending := by
  by_cases seen : Recognized kind head
  · refine ⟨seen, ?_⟩
    by_contra closed
    obtain ⟨line, first⟩ :
        ∃ line, lines.find? (fun line => decide (StartsLike line kind.ending)) = some line := by
      rw [← Option.isSome_iff_exists, List.find?_isSome]
      simpa using closed
    obtain ⟨ends, front, back, rfl, unended⟩ := List.find?_eq_some_iff_append.mp first
    have open_ : ∀ line ∈ front, ¬ StartsLike line kind.ending := by simpa using unended
    -- The loop is cut off at this line, and what is found behind it starts later.
    rw [List.append_assoc, List.cons_append,
      loopBlocksFrom_loop (openedBy?_of_begins begins seen) open_ (of_decide_eq_true ends)] at found
    rcases List.mem_cons.mp found with cut | below
    · have whole : head :: (front ++ line :: back ++ [foot]) =
          head :: (front ++ [line] ++ (back ++ [foot])) := by simp
      rw [whole] at cut
      simpa using loopOver_inj cut.symm
    · have late := le_start_of_mem below
      simp only [loopOver] at late
      omega
  · rw [loopBlocksFrom_pass (openedBy?_eq_none begins seen)] at found
    exact absurd (le_start_of_mem found) (Nat.not_succ_le_self start)

end

/-! Codes that are laid out -/

section

variable {start : Nat} {block : LoopBlock} {outline : Outline loopLayout}

theorem outerLoops_subset : outerLoops start outline ⊆ allLoops start outline := by
  induction outline generalizing start with
  | done => exact List.Subset.refl _
  | line _ _ _ rest ih => exact ih
  | block kind head _ body foot _ rest _ rest_ih =>
    refine List.cons_subset_cons _ ?_
    exact List.Subset.trans rest_ih (List.subset_append_right ..)

/-- Loops stand at the lines of the code. -/
theorem bounds_of_mem_allLoops (member : block ∈ allLoops start outline) :
    start ≤ block.start ∧ block.start < start + outline.lines.length := by
  induction outline generalizing start with
  | done => cases member
  | line _ _ _ rest ih =>
    have bounds := ih member
    rw [Outline.lines, List.length_cons]
    omega
  | block kind head _ body foot _ rest body_ih rest_ih =>
    rw [Outline.lines, List.length_cons, List.length_append, List.length_cons]
    rw [allLoops, List.mem_cons, List.mem_append] at member
    rcases member with rfl | inside | below
    · simp only [loopOver]
      omega
    · have bounds := body_ih inside
      omega
    · have bounds := rest_ih below
      omega

/-- Where every outermost loop ends at its own end, each is read on its own text. -/
theorem loopBlocksFrom_of_ownEnds (ends : OwnEnds outline) :
    loopBlocksFrom none (placed uncommented start outline.lines) = outerLoops start outline := by
  induction outline generalizing start with
  | done => rfl
  | line _ text stands rest ih =>
    obtain ⟨unlike, later⟩ := ends
    have unopened := openedBy?_of_not_opensWhile (not_opensWhile_of_stands (stands .whileLoop).1)
    rw [if_neg unlike] at unopened
    rw [Outline.lines, loopBlocksFrom_pass unopened, ih later, outerLoops]
  | block kind head opens body foot closes rest _ rest_ih =>
    obtain ⟨seen, open_, later⟩ := ends
    rw [Outline.lines, loopBlocksFrom_loop (openedBy?_of_begins opens seen) open_ closes.reads,
      rest_ih later, outerLoops]

/-- If every outermost loop is read on its own text, and nothing else where no loop starts, then
each of them ends at its own end. -/
theorem ownEnds_of_loopBlocksFrom
    (found : outerLoops start outline ⊆
      loopBlocksFrom none (placed uncommented start outline.lines))
    (only : ∀ block ∈ loopBlocksFrom none (placed uncommented start outline.lines),
      ∃ loop ∈ allLoops start outline, loop.start = block.start) : OwnEnds outline := by
  induction outline generalizing start with
  | done => trivial
  | line _ text stands rest ih =>
    have opened := openedBy?_of_not_opensWhile (not_opensWhile_of_stands (stands .whileLoop).1)
    by_cases like : StartsLike text "REPEAT"
    · -- The line would be taken for a loop, but none starts there.
      rw [if_pos like] at opened
      rw [Outline.lines, placed_cons, loopBlocksFrom_opening _ _ opened] at only
      obtain ⟨block, member, started⟩ := exists_of_opened
      obtain ⟨loop, listed, same⟩ := only block member
      have bounds := bounds_of_mem_allLoops (show loop ∈ allLoops (start + 1) rest from listed)
      rw [same, started] at bounds
      exact absurd bounds.1 (Nat.not_succ_le_self start)
    · rw [if_neg like] at opened
      rw [Outline.lines, loopBlocksFrom_pass opened] at found only
      exact ⟨like, ih found only⟩
  | block kind head opens body foot closes rest _ rest_ih =>
    obtain ⟨seen, open_⟩ := uncut_of_mem opens (found List.mem_cons_self)
    rw [Outline.lines, loopBlocksFrom_loop (openedBy?_of_begins opens seen) open_ closes.reads]
      at found only
    refine ⟨seen, open_, @rest_ih (start + 1 + body.lines.length + 1) ?_ ?_⟩
    · intro block member
      -- It starts below this loop, so it is one of those found below.
      have bounds := bounds_of_mem_allLoops (outerLoops_subset member)
      rcases List.mem_cons.mp (found (List.mem_cons_of_mem _ member)) with rfl | below
      · simp only [loopOver] at bounds
        omega
      · exact below
    · intro block member
      have below := le_start_of_mem member
      obtain ⟨loop, listed, same⟩ := only block (List.mem_cons_of_mem _ member)
      rw [allLoops, List.mem_cons, List.mem_append] at listed
      rcases listed with rfl | inside | beyond
      · simp only [loopOver] at same
        omega
      · have bounds := bounds_of_mem_allLoops inside
        omega
      · exact ⟨loop, beyond, same⟩

theorem allLoops_eq_nil_iff : allLoops start outline = [] ↔ outline.IsFlat := by
  induction outline generalizing start with
  | done => exact iff_of_true rfl trivial
  | line _ _ _ rest ih => exact ih
  | block => exact iff_of_false (List.cons_ne_nil _ _) id

theorem outerLoops_sublist : (outerLoops start outline).Sublist (allLoops start outline) := by
  induction outline generalizing start with
  | done => exact .slnil
  | line _ _ _ rest ih => exact ih
  | block kind head _ body foot _ rest _ rest_ih =>
    exact (rest_ih.trans (List.sublist_append_right ..)).cons_cons _

/-- The outermost loops are all there are if no loop stands in another. -/
theorem outerLoops_eq_iff : outerLoops start outline = allLoops start outline ↔
    outline.IsShallow := by
  induction outline generalizing start with
  | done => exact iff_of_true rfl trivial
  | line _ _ _ rest ih => exact ih
  | block kind head _ body foot _ rest _ rest_ih =>
    rw [outerLoops, allLoops, List.cons_inj_right, Outline.IsShallow]
    constructor
    · intro same
      have lengths := congrArg List.length same
      have fewer := (@outerLoops_sublist (start + 1 + body.lines.length + 1) rest).length_le
      rw [List.length_append] at lengths
      have none : allLoops (start + 1) body = [] := List.eq_nil_of_length_eq_zero (by omega)
      rw [none, List.nil_append] at same
      exact ⟨allLoops_eq_nil_iff.mp none, rest_ih.mp same⟩
    · rintro ⟨flat, shallow⟩
      rw [allLoops_eq_nil_iff.mpr flat, List.nil_append, rest_ih.mpr shallow]

end

theorem unboundedLoop_lines {change : LogicChange} {code : String}
    (checked : change.codeToCheck? = some code) :
    (unboundedLoop.logicIssues change).map (·.line) =
      ((loopBlocks code).filter fun loop => !loop.isBounded).map fun loop =>
        change.firstLine + loop.start := by
  simp only [Rule.logicIssues, unboundedLoop, checked, Option.getD_some, List.map_map]
  rfl

/-- The outermost loops of a code are read on their own texts exactly if each of them ends at its
own end. All loops are read on their own texts exactly if, besides, none stands in another one; then
a report is about a loop whose own lines show no way out. -/
theorem loops_read_on_own_text {outline : Outline loopLayout} {code : String}
    (laidOut : outline.LaysOut code) :
    (loopBlocks code = outerLoops 0 outline ↔ OwnEnds outline) ∧
    ((loopBlocks code).Perm (allLoops 0 outline) ↔ OwnEnds outline ∧ outline.IsShallow) ∧
    (OwnEnds outline → outline.IsShallow → ∀ change : LogicChange,
      change.codeToCheck? = some code →
        (unboundedLoop.logicIssues change).map (·.line) =
          ((allLoops 0 outline).filter fun loop => !loop.isBounded).map fun loop =>
            change.firstLine + loop.start) := by
  have scan : loopBlocks code = loopBlocksFrom none (placed uncommented 0 outline.lines) := by
    rw [loopBlocks_eq, laidOut]
  have own (ends : OwnEnds outline) : loopBlocks code = outerLoops 0 outline :=
    scan.trans (loopBlocksFrom_of_ownEnds ends)
  have ends_of_found (found : outerLoops 0 outline ⊆ loopBlocks code)
      (only : loopBlocks code ⊆ allLoops 0 outline) : OwnEnds outline := by
    rw [scan] at found only
    exact ownEnds_of_loopBlocksFrom found fun block member => ⟨block, only member, rfl⟩
  refine ⟨⟨fun same => ?_, own⟩, ⟨fun perm => ?_, ?_⟩, ?_⟩
  · rw [same] at ends_of_found
    exact ends_of_found (List.Subset.refl _) outerLoops_subset
  · have ends := ends_of_found (List.Subset.trans outerLoops_subset perm.symm.subset) perm.subset
    rw [own ends] at perm
    exact ⟨ends, outerLoops_eq_iff.mp (outerLoops_sublist.eq_of_length perm.length_eq)⟩
  · rintro ⟨ends, shallow⟩
    rw [own ends, outerLoops_eq_iff.mpr shallow]
  · intro ends shallow change checked
    rw [unboundedLoop_lines checked, own ends, outerLoops_eq_iff.mpr shallow]

instance (kind : LoopKind) (line : String) : Decidable (loopLayout.opens kind line) :=
  inferInstanceAs (Decidable (Begins ..))

instance (kind : LoopKind) (line : String) : Decidable (loopLayout.closes kind line) :=
  inferInstanceAs (Decidable (Begins ..))

/-- A line of its own, where it begins with no keyword of loops. -/
def plainLine (text : String) (stands : ∀ kind ∈ [LoopKind.whileLoop, .repeatLoop],
    ¬ Begins text kind.keyword ∧ ¬ Begins text kind.ending) (rest : Outline loopLayout) :
    Outline loopLayout :=
  .line () text (fun kind => stands kind (by cases kind <;> simp)) rest

/-- A loop with a way out above one without. -/
def separateLoops : Outline loopLayout :=
  .block .whileLoop "while ready do" (by decide)
    (plainLine "  EXIT;" (by decide) .done) "END_WHILE;" (by decide)
  (.block .repeatLoop "REPEAT // once more" (by decide)
    (plainLine "  x := x + 1;" (by decide) .done) "until done END_REPEAT" (by decide) .done)

def separateCode : String :=
  "while ready do\n  EXIT;\nEND_WHILE;\nREPEAT // once more\n  x := x + 1;\nuntil done END_REPEAT"

theorem loops_read_on_own_text_separateLoops :
    separateLoops.LaysOut separateCode ∧ OwnEnds separateLoops ∧ separateLoops.IsShallow ∧
      loopBlocks separateCode = outerLoops 0 separateLoops := by
  have laidOut : separateLoops.LaysOut separateCode := by
    unfold Outline.LaysOut
    decide +kernel
  have ends : OwnEnds separateLoops :=
    ⟨fun _ => by decide, by decide, nofun, by decide, trivial⟩
  exact ⟨laidOut, ends, ⟨trivial, trivial, trivial⟩, (loops_read_on_own_text laidOut).1.mpr ends⟩

/-- A loop without a way out in one that has its way out behind it. -/
def nestedLoops : Outline loopLayout :=
  .block .whileLoop "WHILE a DO" (by decide)
    (.block .whileLoop "  WHILE b DO" (by decide)
      (plainLine "    x := 1;" (by decide) .done) "  END_WHILE" (by decide)
      (plainLine "  EXIT;" (by decide) .done))
    "END_WHILE" (by decide) .done

def nestedCode : String :=
  "WHILE a DO\n  WHILE b DO\n    x := 1;\n  END_WHILE\n  EXIT;\nEND_WHILE"

/-- The outer loop is cut off at the end of the inner one and reported although it has a way out,
and the inner loop is not looked at. -/
theorem nestedLoops_cut_off :
    nestedLoops.LaysOut nestedCode ∧ ¬ (loopBlocks nestedCode).Perm (allLoops 0 nestedLoops) ∧
      ((allLoops 0 nestedLoops).filter fun loop => !loop.isBounded).map (·.start) = [1] ∧
      ((loopBlocks nestedCode).filter fun loop => !loop.isBounded).map (·.start) = [0] := by
  refine ⟨?_, fun perm => ?_, ?_, ?_⟩
  · unfold Outline.LaysOut
    decide +kernel
  · exact absurd perm.length_eq (by decide +kernel)
  · decide +kernel
  · decide +kernel

end PlcAudit.Review
