import Mathlib.Algebra.Order.Ring.Int
import PlcAudit.Confidence.Basic

/-!
The aggregate of several bags of evidence. Running through the bags keeps the earliest of those with
the best score so far; what is kept at the end decides score, level and breakdown of the aggregate,
so that the order of the bags shows in the reasons and the breakdown at most.
-/

namespace PlcAudit.Confidence

/-! The earliest of the best -/

/-- No item of the list has a better score than this one, and none ahead of it has the same. -/
structure EarliestBest {α : Type} (score : α → Nat) (items : List α) (best : α) : Prop where
  greatest : ∀ item ∈ items, score item ≤ score best
  earliest : ∃ front behind, items = front ++ best :: behind ∧
    ∀ item ∈ front, score item < score best

/-- The first item that no other item of the list surpasses. -/
def earliestBest? {α : Type} (score : α → Nat) (items : List α) : Option α :=
  items.find? fun item => items.all fun other => score other ≤ score item

/-- The later of two items if its score is better, else the earlier one. -/
def betterBy {α : Type} (score : α → Nat) (best next : α) : α :=
  if score best < score next then next else best

section

variable {α : Type} {score : α → Nat} {items : List α} {best : α}

theorem EarliestBest.mem (chosen : EarliestBest score items best) : best ∈ items := by
  obtain ⟨front, behind, rfl, -⟩ := chosen.earliest
  exact List.mem_append_right front List.mem_cons_self

theorem EarliestBest.found (chosen : EarliestBest score items best) :
    earliestBest? score items = some best := by
  obtain ⟨front, behind, split, less⟩ := chosen.earliest
  refine List.find?_eq_some_iff_append.mpr
    ⟨by simpa using chosen.greatest, front, behind, split, ?_⟩
  intro item ahead
  have surpassed := less item ahead
  simpa using ⟨best, chosen.mem, surpassed⟩

/-- One more item takes the place of the best so far only with a better score. -/
theorem EarliestBest.snoc (chosen : EarliestBest score items best) (next : α) :
    EarliestBest score (items ++ [next]) (betterBy score best next) := by
  unfold betterBy
  split
  · rename_i better
    have above : ∀ item ∈ items, score item < score next :=
      fun item member => Nat.lt_of_le_of_lt (chosen.greatest item member) better
    refine ⟨?_, items, [], rfl, above⟩
    rw [List.forall_mem_append, List.forall_mem_singleton]
    exact ⟨fun item member => Nat.le_of_lt (above item member), Nat.le_refl _⟩
  · rename_i noBetter
    obtain ⟨front, behind, split, less⟩ := chosen.earliest
    refine ⟨?_, front, behind ++ [next], by simp [split], less⟩
    rw [List.forall_mem_append, List.forall_mem_singleton]
    exact ⟨chosen.greatest, Nat.le_of_not_lt noBetter⟩

theorem EarliestBest.foldl (chosen : EarliestBest score items best) (others : List α) :
    EarliestBest score (items ++ others) (others.foldl (betterBy score) best) := by
  induction others generalizing items best with
  | nil => simpa using chosen
  | cons next rest ih => simpa using ih (chosen.snoc next)

end

/-! One bag of evidence -/

/-- The weights that were noted account for the score. -/
def Balance.Audited (balance : Balance) : Prop :=
  balance.score = 50 + (balance.breakdown.map Prod.snd).sum

/-- A piece of evidence enters the score and the weights alike. -/
theorem Balance.Audited.apply {balance : Balance} (audited : balance.Audited) (factor : Factor) :
    (balance.apply factor).Audited := by
  unfold Balance.apply
  split
  · unfold Balance.Audited at audited ⊢
    simp only [List.map_append, List.map_cons, List.map_nil, List.sum_append, List.sum_singleton]
    omega
  · exact audited

theorem weigh_audited (signals : Signals) (issue : Option Issue) :
    (weigh signals issue).Audited :=
  List.foldlRecOn _ _ rfl fun _ audited factor _ => audited.apply factor

theorem evaluate_level (signals : Signals) (issue : Option Issue) :
    (evaluate signals issue).level = .ofScore (evaluate signals issue).score := rfl

/-- The breakdown of a result accounts for its score. -/
theorem evaluate_score (signals : Signals) (issue : Option Issue) :
    ((evaluate signals issue).score : Int) =
      max 0 (min 100 (50 + ((evaluate signals issue).breakdown.map Prod.snd).sum)) := by
  have score : (evaluate signals issue).score =
      clamped (50 + ((evaluate signals issue).breakdown.map Prod.snd).sum) :=
    congrArg clamped (weigh_audited signals issue)
  rw [score, clamped]
  omega

/-! Several bags -/

/-- The score of one bag of evidence alone. -/
def scoreOf (issue : Option Issue) (signals : Signals) : Nat :=
  (calculate (some signals) issue).score

/-- A result with one more reason, the number of results it was chosen from. -/
def Result.chosenFrom (count : Nat) (result : Result) : Result :=
  { result with reasons := result.reasons ++ [s!"{count} analyses, best selected"] }

theorem exists_earliestBest {bags : List Signals} (present : bags ≠ []) (issue : Option Issue) :
    ∃ best, EarliestBest (scoreOf issue) bags best ∧
      aggregate bags issue = (calculate (some best) issue).chosenFrom bags.length := by
  obtain ⟨first, rest, rfl⟩ := List.exists_cons_of_ne_nil present
  have single : EarliestBest (scoreOf issue) [first] first :=
    ⟨List.forall_mem_singleton.mpr (Nat.le_refl _), [], [], rfl, List.forall_mem_nil _⟩
  refine ⟨rest.foldl (betterBy (scoreOf issue)) first, single.foldl rest, ?_⟩
  -- Choosing among the results is choosing among the bags.
  have results : (rest.map (evaluate · issue)).foldl
      (fun best next => if best.score < next.score then next else best) (evaluate first issue) =
        evaluate (rest.foldl (betterBy (scoreOf issue)) first) issue := by
    rw [List.foldl_map]
    refine List.foldl_hom (evaluate · issue) fun best next => ?_
    exact (apply_ite (evaluate · issue) _ next best).symm
  simp only [aggregate, List.map_cons, results]
  rfl

/-- The aggregate of some bags of evidence is the result of the earliest bag with the best score,
with one more reason. No bag scores better, the level is that of the score, and the breakdown
accounts for it. Another order of the bags gives the same score and level. -/
theorem aggregate_earliestBest (bags : List Signals) (issue : Option Issue) (present : bags ≠ []) :
    (∃ best, earliestBest? (scoreOf issue) bags = some best ∧
      aggregate bags issue = (calculate (some best) issue).chosenFrom bags.length) ∧
    (∀ bag ∈ bags, (calculate (some bag) issue).score ≤ (aggregate bags issue).score) ∧
    (aggregate bags issue).level = .ofScore (aggregate bags issue).score ∧
    ((aggregate bags issue).score : Int) =
      max 0 (min 100 (50 + ((aggregate bags issue).breakdown.map Prod.snd).sum)) ∧
    ∀ others, others.Perm bags →
      (aggregate others issue).score = (aggregate bags issue).score ∧
      (aggregate others issue).level = (aggregate bags issue).level := by
  obtain ⟨best, earliest, chosen⟩ := exists_earliestBest present issue
  refine ⟨⟨best, earliest.found, chosen⟩, ?_, ?_, ?_, fun others perm => ?_⟩
  · rw [chosen]
    exact earliest.greatest
  · rw [chosen]
    exact evaluate_level best issue
  · rw [chosen]
    exact evaluate_score best issue
  · have stillPresent : others ≠ [] := fun empty => present (List.nil_perm.mp (empty ▸ perm))
    obtain ⟨other, otherEarliest, otherChosen⟩ := exists_earliestBest stillPresent issue
    have same : scoreOf issue other = scoreOf issue best :=
      Nat.le_antisymm (earliest.greatest other (perm.mem_iff.mp otherEarliest.mem))
        (otherEarliest.greatest best (perm.mem_iff.mpr earliest.mem))
    rw [chosen, otherChosen]
    exact ⟨same, congrArg Level.ofScore same⟩

/-- Evidence from the syntax tree, with a note on where it comes from. -/
def treeEvidence (note : String) : Signals :=
  { confirmedByAst := true, notes := [note] }

/-- Of two bags with the best score the earlier one gives the reasons. -/
theorem aggregate_earliestBest_tied :
    let bags := [{}, treeEvidence "pass", treeEvidence "rerun"]
    bags ≠ [] ∧
      aggregate bags none = (calculate (some (treeEvidence "pass")) none).chosenFrom 3 := by
  intro bags
  have present : bags ≠ [] := List.cons_ne_nil _ _
  obtain ⟨⟨best, found, chosen⟩, -⟩ := aggregate_earliestBest bags none present
  have earlier : earliestBest? (scoreOf none) bags = some (treeEvidence "pass") := by decide
  obtain rfl := Option.some.inj (found.symm.trans earlier)
  exact ⟨present, chosen⟩

end PlcAudit.Confidence
