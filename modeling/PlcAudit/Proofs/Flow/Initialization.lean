import PlcAudit.Proofs.Flow.Declaration

/-!
Reads without an assignment. A variable that has to be assigned is reported as soon as a structural
path reads it unassigned anywhere behind its declaration; initial values above the declaration are
not held against it.
-/

namespace PlcAudit.Flow

open Code

/-- A structural path reads a variable behind its first `start` events. -/
def ReadFrom (pou : Pou Mark) (start : Nat) (key : String) : Prop :=
  ∃ before name line after, PouPath pou (before ++ .access (.read name line) :: after) ∧
    Text.upper name = key ∧ start ≤ before.length

/-- A structural path reads a variable behind its first `start` events and has not written it
before. -/
def ReadUnwritten (pou : Pou Mark) (start : Nat) (key : String) : Prop :=
  ∃ before name line after, PouPath pou (before ++ .access (.read name line) :: after) ∧
    Text.upper name = key ∧ start ≤ before.length ∧
    ∀ other at_, .access (.write other at_) ∈ before → Text.upper other ≠ key

theorem initial_eq_none {strict : Bool} {block : VarBlock Mark} {decl : VarDecl Mark}
    (needs : needsAssignment strict block decl = true) : decl.initial = none := by
  simp only [needsAssignment, Bool.and_eq_true, Option.isNone_iff_eq_none] at needs
  exact needs.1.2

theorem isLocal_of_needsAssignment {strict : Bool} {block : VarBlock Mark} {decl : VarDecl Mark}
    (needs : needsAssignment strict block decl = true) : block.scope.isLocal = true := by
  simp only [needsAssignment, Bool.and_eq_true] at needs
  exact needs.1.1

/-- The facts of a unit around one of its declarations. -/
theorem pouFacts_split {pou : Pou Mark} {earlier later : Decls} {block : VarBlock Mark}
    {decl : VarDecl Mark} (listed : pou.decls = earlier ++ (block, decl) :: later)
    (bare : decl.initial = none) :
    ∃ first front back, Declared.Adds {} first earlier front ∧
      Declared.Adds (first.add block decl) (declarations pou) later back ∧
      pouFacts pou = front ++ .declare block decl :: (back ++ (bodyFlow pou).facts) := by
  obtain ⟨front, adds⟩ := Declared.adds_all {} earlier
  obtain ⟨back, follows⟩ := ((Declared.addAll {} earlier).add block decl).adds_all later
  have all : ((Declared.addAll {} earlier).add block decl).addAll later = declarations pou := by
    simp only [declarations, listed, Declared.addAll, List.foldl_append, List.foldl_cons]
  rw [all] at follows
  refine ⟨_, front, back, adds, follows, ?_⟩
  rw [pouFacts_eq, follows.grown]
  simp [Declared.add, bare, optionAccesses, observe, adds.grown]

theorem initialAccesses_split {pou : Pou Mark} {earlier later : Decls} {block : VarBlock Mark}
    {decl : VarDecl Mark} (listed : pou.decls = earlier ++ (block, decl) :: later)
    (bare : decl.initial = none) :
    accessed (initialAccesses pou.decls) =
      accessed (initialAccesses earlier) ++ accessed (initialAccesses later) := by
  rw [listed, initialAccesses_append, initialAccesses_cons, bare, accessed_append]
  rfl

section Declaration

variable {strict : Bool} {file : String} {pou : Pou Mark}
variable {earlier later : Decls} {block : VarBlock Mark} {decl : VarDecl Mark}

/-- What a path does behind a declaration is done by the initial values below it or by the body. -/
theorem PouPath.behind (listed : pou.decls = earlier ++ (block, decl) :: later)
    (bare : decl.initial = none) {before after : List Event} (path : PouPath pou (before ++ after))
    (far : (initialAccesses earlier).length ≤ before.length) :
    ∃ rest inside ending, before = accessed (initialAccesses earlier) ++ rest ∧
      Path (declarations pou).constants (.block pou.body) inside ending ∧
      rest ++ after = accessed (initialAccesses later) ++ inside := by
  obtain ⟨inside, ending, path, split⟩ := path
  rw [initialAccesses_split listed bare, List.append_assoc] at split
  have long : (accessed (initialAccesses earlier)).length ≤ before.length := by
    simpa [accessed] using far
  obtain ⟨rest, rfl⟩ : accessed (initialAccesses earlier) <+: before :=
    List.prefix_of_prefix_length_le ⟨_, split.symm⟩ (List.prefix_append ..) long
  rw [List.append_assoc] at split
  exact ⟨rest, inside, ending, rfl, path, List.append_cancel_left split⟩

/-- A read behind the declaration that no write precedes is exposed there. -/
theorem exposed_of_readUnwritten (listed : pou.decls = earlier ++ (block, decl) :: later)
    (bare : decl.initial = none) {key : String}
    (unwritten : ReadUnwritten pou (initialAccesses earlier).length key) :
    ∃ name line inside ending, Text.upper name = key ∧
      Path (declarations pou).constants (.block pou.body) inside ending ∧
      Exposed (writtenAfter [] (accessed (initialAccesses earlier)))
        (accessed (initialAccesses later) ++ inside) name line := by
  obtain ⟨before, name, line, after, path, same, far, unwritten⟩ := unwritten
  obtain ⟨rest, inside, ending, rfl, path, split⟩ := path.behind listed bare far
  refine ⟨name, line, inside, ending, same, path, rest, after, split.symm, ?_⟩
  rw [← writtenAfter_append, same]
  intro written
  rcases mem_writtenAfter written with start | ⟨other, at_, present, equal⟩
  · cases start
  · exact unwritten other at_ present equal

/-- A variable that is read unassigned behind its declaration is reported. -/
theorem reports_of_readUnwritten (strict : Bool) (file : String)
    (listed : pou.decls = earlier ++ (block, decl) :: later)
    (needs : needsAssignment strict block decl = true)
    (unwritten : ReadUnwritten pou (initialAccesses earlier).length (Text.upper decl.name)) :
    (pouFlow strict file pou).Reports (Text.upper decl.name) := by
  have bare := initial_eq_none needs
  obtain ⟨first, front, back, adds, follows, split⟩ := pouFacts_split listed bare
  obtain ⟨name, line, inside, ending, same, path, exposed⟩ :=
    exposed_of_readUnwritten listed bare unwritten
  have included : (first.add block decl).assigned ⊆
      writtenAfter [] (accessed (initialAccesses earlier)) := by
    simpa [Declared.add, bare, optionAccesses, observe] using
      adds.assigned [] (List.Subset.refl _)
  have member : .read name line true ∈ back ++ (bodyFlow pou).facts := by
    rcases exposed.of_append with early | late
    · exact List.mem_append_left _ (follows.exposes _ name line included early)
    · apply List.mem_append_right
      apply (body_noted path).reads name line
      rw [initialAccesses_split listed bare, writtenAfter_append]
      exact late
  obtain ⟨head, tail, around⟩ := List.append_of_mem member
  rw [pouFlow_reports_iff]
  refine ⟨front ++ .declare block decl :: head, name, line, tail, ?_, same, block, decl, ?_, needs,
    rfl⟩
  · rw [split, around, List.append_assoc, List.cons_append]
  · exact List.mem_append_right _ (List.mem_cons_self ..)

/-- An exposed read among the facts behind a declaration lies on a path behind it. -/
theorem readFrom_of_fact (listed : pou.decls = earlier ++ (block, decl) :: later)
    (bare : decl.initial = none) {first : Declared} {back : List Fact} {name : String} {line : Nat}
    (follows : Declared.Adds first (declarations pou) later back)
    (member : .read name line true ∈ back ++ (bodyFlow pou).facts) :
    ReadFrom pou (initialAccesses earlier).length (Text.upper name) := by
  have far : ∀ more, (initialAccesses earlier).length ≤
      (accessed (initialAccesses earlier) ++ more).length := fun more => by simp [accessed]
  have start := initialAccesses_split listed bare
  rcases List.mem_append.mp member with early | late
  · obtain ⟨head, tail, around⟩ := List.append_of_mem (follows.happens _ early _ rfl)
    obtain ⟨inside, ending, path⟩ := block_has_path (declarations pou).constants pou.body
    refine ⟨accessed (initialAccesses earlier) ++ head, name, line, tail ++ inside,
      ⟨inside, ending, path, ?_⟩, rfl, far head⟩
    rw [start, around]
    simp
  · obtain ⟨inside, ending, path, happens⟩ := body_happens pou _ late _ rfl
    obtain ⟨head, tail, around⟩ := List.append_of_mem happens
    refine ⟨accessed (initialAccesses earlier) ++ (accessed (initialAccesses later) ++ head), name,
      line, tail, ⟨inside, ending, path, ?_⟩, rfl, far _⟩
    rw [start, around]
    simp

/-- A variable that is declared for the first time is reported only for a read behind its
declaration. -/
theorem readFrom_of_reports {strict : Bool} {file : String}
    (listed : pou.decls = earlier ++ (block, decl) :: later) (bare : decl.initial = none)
    (fresh : ∀ other ∈ earlier, Text.upper other.2.name ≠ Text.upper decl.name)
    (reported : (pouFlow strict file pou).Reports (Text.upper decl.name)) :
    ReadFrom pou (initialAccesses earlier).length (Text.upper decl.name) := by
  obtain ⟨first, front, back, adds, follows, split⟩ := pouFacts_split listed bare
  obtain ⟨head, name, line, tail, around, same, other, again, declared, _, equal⟩ :=
    (pouFlow_reports_iff ..).mp reported
  rw [← same]
  apply readFrom_of_fact listed bare follows
  -- Were the read in front of the declaration, an earlier one would declare the variable too.
  rcases List.append_eq_append_iff.mp (split.symm.trans around) with
    ⟨middle, behind, rest⟩ | ⟨middle, before, rest⟩
  · cases middle with
    | nil => cases rest
    | cons fact middle =>
      obtain ⟨_, rest⟩ := List.cons.inj rest
      rw [rest]
      exact List.mem_append_right _ (List.mem_cons_self ..)
  · have early : .declare other again ∈ front := before ▸ List.mem_append_left _ declared
    have present : (other, again) ∈ earlier := (adds.declares other again).mp early
    exact (fresh (other, again) present equal).elim

end Declaration

/-- A variable that has to be assigned is reported if some structural path reads it unassigned
behind its declaration. One that is declared only once is reported for no other read, so that reads
in initial values above the declaration are passed over. -/
theorem uninitialized_read_reported {strict : Bool} {file : String} {pou : Pou Mark}
    {flow : PouFlow} {earlier later : Decls} {block : VarBlock Mark} {decl : VarDecl Mark}
    (analyzed : analyzePou strict file pou = .ok flow)
    (listed : pou.decls = earlier ++ (block, decl) :: later)
    (needs : needsAssignment strict block decl = true) :
    (ReadUnwritten pou (initialAccesses earlier).length (Text.upper decl.name) →
      flow.Reports (Text.upper decl.name)) ∧
    ((∀ other ∈ earlier, Text.upper other.2.name ≠ Text.upper decl.name) →
      flow.Reports (Text.upper decl.name) →
      ReadFrom pou (initialAccesses earlier).length (Text.upper decl.name)) := by
  rw [analyzePou_eq_ok analyzed]
  constructor
  · exact reports_of_readUnwritten strict file listed needs
  · exact readFrom_of_reports listed (initial_eq_none needs)

/-- `VAR p : POINTER TO INT; END_VAR  a := p;` -/
def danglingRead : Pou Mark where
  tag := ⟨0, .lines 1 4⟩
  kind := .program
  name := "Main"
  blocks := [{
    tag := ⟨1, .line 1⟩
    scope := .local_
    decls := [
      { tag := ⟨2, .line 2⟩, name := "p", dataType := "POINTER TO INT", pointer := true }] }]
  body := [.assign ⟨3, .line 4⟩ { tag := ⟨4, .line 4⟩, name := "a" }
    (.variable ⟨5, .line 4⟩ "p" [] [] false)]

theorem uninitialized_read_reported_dangling : ∃ flow,
    analyzePou false "main.st" danglingRead = .ok flow ∧
      ReadUnwritten danglingRead 0 (Text.upper "p") ∧ flow.Reports (Text.upper "p") := by
  have analyzed : analyzePou false "main.st" danglingRead =
      .ok (pouFlow false "main.st" danglingRead) := rfl
  have listed : danglingRead.decls = [] ++ (_, _) :: [] := rfl
  have read : ReadUnwritten danglingRead 0 (Text.upper "p") :=
    ⟨[.enter 3], "p", 4, _, ⟨_, _, .next .assign .done, rfl⟩, rfl, Nat.zero_le _, by simp⟩
  exact ⟨_, analyzed, read, (uninitialized_read_reported analyzed listed (by decide)).1 read⟩

/-- `VAR a : INT := p; p : POINTER TO INT; END_VAR` -/
def forwardInitial : Pou Mark where
  tag := ⟨0, .lines 1 4⟩
  kind := .program
  name := "Main"
  blocks := [{
    tag := ⟨1, .line 1⟩
    scope := .local_
    decls := [
      { tag := ⟨2, .line 2⟩, name := "a", dataType := "INT"
        initial := some (.variable ⟨3, .line 2⟩ "p" [] [] false) },
      { tag := ⟨4, .line 3⟩, name := "p", dataType := "POINTER TO INT", pointer := true }] }]

/-- An initial value reads the pointer below it, and nothing is reported. -/
theorem forwardInitial_unreported : ∃ flow block decl,
    analyzePou false "main.st" forwardInitial = .ok flow ∧
      (block, decl) ∈ forwardInitial.decls ∧ needsAssignment false block decl = true ∧
      ReadUnwritten forwardInitial 0 (Text.upper decl.name) ∧
      ¬ flow.Reports (Text.upper decl.name) := by
  refine ⟨_, _, _, rfl, .tail _ (.head _), by decide, ?_, ?_⟩
  · exact ⟨[], "p", 2, [], ⟨_, _, .done, rfl⟩, rfl, Nat.zero_le _, by simp⟩
  · rintro ⟨report, member, _⟩
    have nothing : (pouFlow false "main.st" forwardInitial).uninitializedReads = [] := by decide
    rw [nothing] at member
    cases member

end PlcAudit.Flow
