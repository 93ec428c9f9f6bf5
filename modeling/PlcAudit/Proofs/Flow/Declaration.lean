import PlcAudit.Proofs.Flow.Reachability
import PlcAudit.Proofs.Flow.Record

/-!
The declarations of a unit in order: what their initial values expose and call, and where each
declaration stands among the facts.
-/

namespace PlcAudit.Flow

open Code

/-- The declarations of a unit with their blocks. -/
abbrev Decls := List (VarBlock Mark × VarDecl Mark)

@[simp] theorem accessed_append (first second : List Access) :
    accessed (first ++ second) = accessed first ++ accessed second :=
  List.map_append

@[simp] theorem initialAccesses_append (first second : Decls) :
    initialAccesses (first ++ second) = initialAccesses first ++ initialAccesses second :=
  List.flatMap_append

theorem initialAccesses_cons (block : VarBlock Mark) (decl : VarDecl Mark) (rest : Decls) :
    initialAccesses ((block, decl) :: rest) =
      optionAccesses decl.initial ++ initialAccesses rest :=
  List.flatMap_cons

/-- What walking declarations adds to the names and facts known before. -/
structure Declared.Adds (before after : Declared) (decls : Decls) (facts : List Fact) : Prop where
  grown : after.facts = before.facts ++ facts
  declares : ∀ block decl, .declare block decl ∈ facts ↔ (block, decl) ∈ decls
  unnoted : ∀ fact ∈ facts, fact.statement? = none
  happens : ∀ fact ∈ facts, ∀ event, fact.event? = some event →
    event ∈ accessed (initialAccesses decls)
  assigned : ∀ written, before.assigned ⊆ written →
    after.assigned ⊆ writtenAfter written (accessed (initialAccesses decls))
  exposes : ∀ written name line, before.assigned ⊆ written →
    Exposed written (accessed (initialAccesses decls)) name line → .read name line true ∈ facts
  calls : ∀ name line, .access (.call name line) ∈ accessed (initialAccesses decls) →
    .call name line ∈ facts

/-- Accesses become facts of their own kinds only. -/
theorem observe_plain {reachable : Bool} {assigned : Names} {accesses : List Access} {fact : Fact}
    (member : fact ∈ (observe reachable assigned accesses).1) :
    fact.statement? = none ∧ ∀ block decl, fact ≠ .declare block decl := by
  induction accesses generalizing assigned with
  | nil => simp [observe] at member
  | cons access rest ih =>
    rcases access with ⟨name, line⟩ | ⟨name, line⟩ | ⟨name, line⟩
    all_goals
      rcases List.mem_cons.mp member with same | later
      · subst fact
        exact ⟨rfl, fun _ _ same => by cases same⟩
      · exact ih later

theorem Declared.adds_one (declared : Declared) (block : VarBlock Mark) (decl : VarDecl Mark) :
    Adds declared (declared.add block decl) [(block, decl)]
      ((observe true declared.assigned (optionAccesses decl.initial)).1 ++
        [.declare block decl]) where
  grown := List.append_assoc ..
  declares := by
    intro other variable_
    simp only [List.mem_append, List.mem_singleton]
    refine ⟨?_, fun same => .inr (by cases same; rfl)⟩
    rintro (seen | same)
    · exact absurd rfl ((observe_plain seen).2 other variable_)
    · cases same
      rfl
  unnoted := by
    intro fact member
    rcases List.mem_append.mp member with seen | last
    · exact (observe_plain seen).1
    · rw [List.mem_singleton.mp last]
      rfl
  happens := by
    intro fact member event shown
    rcases List.mem_append.mp member with seen | last
    · simpa [initialAccesses] using observe_event_mem seen shown
    · rw [List.mem_singleton.mp last] at shown
      cases shown
  assigned := by
    intro written included
    simp only [Declared.add, initialAccesses, List.flatMap_cons, List.flatMap_nil, List.append_nil]
    exact List.Subset.trans (observe_after_subset ..) (writtenAfter_mono included _)
  exposes := by
    intro written name line included exposed
    simp only [initialAccesses, List.flatMap_cons, List.flatMap_nil, List.append_nil] at exposed
    exact List.mem_append_left _ (observe_exposed (exposed.mono included))
  calls := by
    intro name line called
    rw [initialAccesses_cons, initialAccesses, List.flatMap_nil, List.append_nil] at called
    exact List.mem_append_left _ (observe_called called)

theorem Declared.Adds.append {first second third : Declared} {decls later : Decls}
    {facts more : List Fact} (front : Adds first second decls facts)
    (back : Adds second third later more) :
    Adds first third (decls ++ later) (facts ++ more) where
  grown := by rw [back.grown, front.grown, List.append_assoc]
  declares := fun block decl => by
    rw [List.mem_append, List.mem_append, front.declares, back.declares]
  unnoted := fun fact member => (List.mem_append.mp member).elim (front.unnoted fact)
    (back.unnoted fact)
  happens := by
    intro fact member event shown
    rw [initialAccesses_append, accessed_append, List.mem_append]
    exact (List.mem_append.mp member).imp (fun seen => front.happens fact seen event shown)
      fun seen => back.happens fact seen event shown
  assigned := by
    intro written included
    rw [initialAccesses_append, accessed_append, writtenAfter_append]
    exact back.assigned _ (front.assigned written included)
  exposes := by
    intro written name line included exposed
    rw [initialAccesses_append, accessed_append] at exposed
    have kept := front.assigned written included
    rcases exposed.of_append with early | late
    · exact List.mem_append_left _ (front.exposes written name line included early)
    · exact List.mem_append_right _ (back.exposes _ name line kept late)
  calls := by
    intro name line called
    rw [initialAccesses_append, accessed_append, List.mem_append] at called
    rw [List.mem_append]
    exact called.imp (front.calls name line) (back.calls name line)

theorem Declared.adds_nil (declared : Declared) : Adds declared declared [] [] where
  grown := (List.append_nil _).symm
  declares := by simp
  unnoted := by simp
  happens := by simp
  assigned := fun _ included => included
  exposes := fun _ _ _ _ exposed => absurd exposed not_exposed_nil
  calls := fun _ _ called => absurd called List.not_mem_nil

def Declared.addAll (declared : Declared) (decls : Decls) : Declared :=
  decls.foldl (fun declared (block, decl) => declared.add block decl) declared

/-- Declarations add facts one after another. -/
theorem Declared.adds_all (declared : Declared) (decls : Decls) :
    ∃ facts, Adds declared (declared.addAll decls) decls facts := by
  induction decls generalizing declared with
  | nil => exact ⟨[], declared.adds_nil⟩
  | cons head rest ih =>
    obtain ⟨block, decl⟩ := head
    obtain ⟨more, adds⟩ := ih (declared.add block decl)
    exact ⟨_, (declared.adds_one block decl).append adds⟩

/-! Units -/

/-- What the pass finds in the body of a unit. -/
def bodyFlow (pou : Pou Mark) : Outcome :=
  blockFlow { constants := (declarations pou).constants } (declarations pou).assigned pou.body

theorem pouFacts_eq (pou : Pou Mark) :
    pouFacts pou = (declarations pou).facts ++ (bodyFlow pou).facts := rfl

theorem declarations_add (pou : Pou Mark) :
    ∃ facts, Declared.Adds {} (declarations pou) pou.decls facts :=
  Declared.adds_all {} pou.decls

/-- The facts of the body cover every path through it. -/
theorem body_noted {pou : Pou Mark} {inside : List Event} {ending : Ending}
    (path : Path (declarations pou).constants (.block pou.body) inside ending) :
    Noted (bodyFlow pou).facts (writtenAfter [] (accessed (initialAccesses pou.decls))) inside := by
  obtain ⟨facts, adds⟩ := declarations_add pou
  exact (path.covered _ _ _ ⟨rfl, rfl⟩ (adds.assigned [] (List.Subset.refl _))).noted

/-- The facts of the body speak of events on paths through it. -/
theorem body_happens (pou : Pou Mark) :
    Happens (declarations pou).constants (.block pou.body) (bodyFlow pou).facts :=
  (block_realized ⟨rfl, rfl⟩ _ pou.body).facts

end PlcAudit.Flow
