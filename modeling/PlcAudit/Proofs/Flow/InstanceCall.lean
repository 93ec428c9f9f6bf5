import PlcAudit.Proofs.Flow.AccessRecord
import PlcAudit.Proofs.Flow.Initialization

/-!
Calls of instances. To call a variable is to use it, and the call goes to its type; but a variable
that has to be assigned is checked where it is read only. One that paths call and never read is not
reported, whether or not they assign it.
-/

namespace PlcAudit.Flow

open Code

/-! One variable along the pass -/

/-- What an access does to the record of the variable that it mentions. -/
def DefUse.met (info : DefUse) : Access → DefUse
  | .read _ line => { info with uses := info.uses ++ [line] }
  | .write _ line => { info with definitions := info.definitions ++ [line] }
  | .call _ line =>
    if info.dataType.isEmpty then info else { info with uses := info.uses ++ [line] }

theorem DefUse.tally_met (accesses : List Access) {access : Access}
    {entry : VarBlock Mark × VarDecl Mark} (mentions : access.key = Text.upper entry.2.name) :
    (tally accesses entry).met access = tally (accesses ++ [access]) entry := by
  rw [tally_snoc]
  cases access with
  | read name line =>
    have same : Text.upper name = Text.upper entry.2.name := mentions
    simp [met, useLine?, definitionLine?, same]
  | write name line =>
    have same : Text.upper name = Text.upper entry.2.name := mentions
    simp [met, useLine?, definitionLine?, same]
  | call name line =>
    have same : Text.upper name = Text.upper entry.2.name := mentions
    by_cases typed : entry.2.dataType.isEmpty = true
    · simp [met, useLine?, definitionLine?, same, tally, typed]
    · simp [met, useLine?, definitionLine?, same, tally, typed]

namespace Record

variable {record : Record} {fact : Fact} {key : String}

/-- A fact about other names leaves the record of a variable alone. -/
theorem find?_uses_of_ne (strict : Bool)
    (unmentioned : ∀ access, fact.access? = some access → access.key ≠ key)
    (undeclared : ∀ block decl, fact = .declare block decl → Text.upper decl.name ≠ key) :
    (record.add strict fact).flow.uses.find? key = record.flow.uses.find? key := by
  cases fact with
  | declare block decl => exact Table.find?_insert_of_ne _ (undeclared block decl rfl).symm _
  | read name line exposed =>
    have other : key ≠ Text.upper name := (unmentioned _ rfl).symm
    simp only [Record.add, Record.read]
    split
    · rfl
    · split <;> exact Table.find?_modify_of_ne _ other _
  | write name line =>
    have other : key ≠ Text.upper name := (unmentioned _ rfl).symm
    simp only [Record.add, Record.write]
    split
    · exact Table.find?_modify_of_ne _ other _
    · split <;> rfl
  | call name line =>
    have other : key ≠ Text.upper name := (unmentioned _ rfl).symm
    simp only [Record.add, Record.call]
    split
    · exact Table.find?_modify_of_ne _ other _
    · rfl
  | statement id info => rfl
  | dead kind startLine endLine description => rfl

/-- Only a variable with a type is called as an instance. -/
theorem filter_typed (info : DefUse) (found : record.flow.uses.find? key = some info) :
    (record.flow.uses.find? key).filter (!·.dataType.isEmpty) =
      if info.dataType.isEmpty then none else some info := by
  rw [found]
  by_cases typed : info.dataType.isEmpty = true <;> simp [Option.filter, typed]

/-- A fact that mentions a variable goes into its record. -/
theorem find?_uses_met (strict : Bool) {access : Access} {info : DefUse}
    (mentions : fact.access? = some access)
    (found : record.flow.uses.find? access.key = some info) :
    (record.add strict fact).flow.uses.find? access.key = some (info.met access) := by
  cases fact with
  | read name line exposed =>
    cases mentions
    simp only [Access.key] at found ⊢
    simp only [Record.add, Record.read, found]
    split <;> simp [Table.find?_modify_self, found, DefUse.met]
  | write name line =>
    cases mentions
    simp only [Access.key] at found ⊢
    simp [Record.add, Record.write, Table.contains, Table.find?_modify_self, found, DefUse.met]
  | call name line =>
    cases mentions
    simp only [Access.key] at found ⊢
    simp only [Record.add, Record.call, filter_typed info found, DefUse.met]
    by_cases typed : info.dataType.isEmpty = true
    · simp only [typed, if_true]
      exact found
    · simp only [typed, Bool.false_eq_true, if_false, Table.find?_modify_self, found,
        Option.map_some]
  | declare block decl => cases mentions
  | statement id info => cases mentions
  | dead kind startLine endLine description => cases mentions

/-- Recorded calls stay. -/
theorem calls_subset_add (record : Record) (strict : Bool) (fact : Fact) :
    record.flow.calls ⊆ (record.add strict fact).flow.calls := by
  cases fact with
  | read name line exposed =>
    simp only [Record.add, Record.read]
    split
    · exact List.Subset.refl _
    · split <;> exact List.Subset.refl _
  | write name line =>
    simp only [Record.add, Record.write]
    split
    · exact List.Subset.refl _
    · split <;> exact List.Subset.refl _
  | call name line =>
    simp only [Record.add, Record.call]
    split <;> exact List.subset_append_left ..
  | declare block decl => exact List.Subset.refl _
  | statement id info => exact List.Subset.refl _
  | dead kind startLine endLine description => exact List.Subset.refl _

/-- The call of an instance is a call of its type. -/
theorem mem_calls_call {info : DefUse} {name : String} (line : Nat)
    (found : record.flow.uses.find? (Text.upper name) = some info)
    (typed : info.dataType.isEmpty = false) :
    ⟨info.dataType, line, some name⟩ ∈ (record.call name line).flow.calls := by
  simp only [Record.call, filter_typed info found, typed, Bool.false_eq_true, if_false]
  exact List.mem_append_right _ (List.mem_singleton_self _)

/-- Records hold these accesses of one variable, with all its calls. -/
structure Follows (record : Record) (entry : VarBlock Mark × VarDecl Mark)
    (accesses : List Access) : Prop where
  tally : record.flow.uses.find? (Text.upper entry.2.name) = some (DefUse.tally accesses entry)
  calls : entry.2.dataType.isEmpty = false → ∀ name line, .call name line ∈ accesses →
    Text.upper name = Text.upper entry.2.name →
      ⟨entry.2.dataType, line, some name⟩ ∈ record.flow.calls

variable {entry : VarBlock Mark × VarDecl Mark} {accesses : List Access}

theorem Follows.add (known : record.Follows entry accesses) (strict : Bool) (fact : Fact)
    (undeclared : ∀ block decl, fact = .declare block decl →
      Text.upper decl.name ≠ Text.upper entry.2.name) :
    (record.add strict fact).Follows entry (accesses ++ fact.access?.toList) := by
  cases met : fact.access? with
  | none =>
    rw [Option.toList_none, List.append_nil]
    refine ⟨(find?_uses_of_ne strict (by simp [met]) undeclared).trans known.tally, ?_⟩
    exact fun typed name line called same =>
      calls_subset_add record strict fact (known.calls typed name line called same)
  | some access =>
    rw [Option.toList_some]
    constructor
    · by_cases mentions : access.key = Text.upper entry.2.name
      · rw [← DefUse.tally_met accesses mentions, ← mentions]
        exact find?_uses_met strict met (mentions ▸ known.tally)
      · have unmentioned : ∀ other, fact.access? = some other →
            other.key ≠ Text.upper entry.2.name := by
          intro other present
          cases met.symm.trans present
          exact mentions
        rw [find?_uses_of_ne strict unmentioned undeclared, known.tally]
        simp [DefUse.tally_snoc, useLine?_of_ne mentions, definitionLine?_of_ne mentions]
    · intro typed name line called same
      rcases List.mem_append.mp called with early | now
      · exact calls_subset_add record strict fact (known.calls typed name line early same)
      · cases List.mem_singleton.mp now
        cases fact with
        | call _ _ =>
          cases met
          exact mem_calls_call line (same ▸ known.tally) typed
        | _ => cases met

theorem Follows.fold (known : record.Follows entry accesses) (strict : Bool) {facts : List Fact}
    (undeclared : ∀ block decl, .declare block decl ∈ facts →
      Text.upper decl.name ≠ Text.upper entry.2.name) :
    (facts.foldl (Record.add strict) record).Follows entry (accesses ++ metAccesses facts) := by
  induction facts generalizing record accesses with
  | nil => simpa [metAccesses] using known
  | cons fact rest ih =>
    have next := known.add strict fact fun block decl same =>
      undeclared block decl (same ▸ List.mem_cons_self ..)
    have whole := ih next fun block decl later =>
      undeclared block decl (List.mem_cons_of_mem _ later)
    rwa [metAccesses_cons, ← List.append_assoc]

theorem follows_declare (record : Record) (strict : Bool) (block : VarBlock Mark)
    (decl : VarDecl Mark) : (record.declare strict block decl).Follows (block, decl) [] where
  tally := Table.find?_insert_self ..
  calls := fun _ _ _ called => absurd called List.not_mem_nil

end Record

/-! Calls on paths -/

/-- A structural path calls a variable behind its first `start` events. -/
def CalledFrom (pou : Pou Mark) (start : Nat) (name : String) (line : Nat) : Prop :=
  ∃ before after, PouPath pou (before ++ .access (.call name line) :: after) ∧
    start ≤ before.length

section Declaration

variable {pou : Pou Mark} {earlier later : Decls} {block : VarBlock Mark} {decl : VarDecl Mark}

/-- The pass meets every call that a path makes behind a declaration. -/
theorem CalledFrom.met {name : String} {line : Nat}
    (called : CalledFrom pou (initialAccesses earlier).length name line)
    (listed : pou.decls = earlier ++ (block, decl) :: later) (bare : decl.initial = none)
    {first : Declared} {back : List Fact}
    (follows : Declared.Adds first (declarations pou) later back) :
    .call name line ∈ metAccesses (back ++ (bodyFlow pou).facts) := by
  obtain ⟨before, after, path, far⟩ := called
  obtain ⟨rest, inside, ending, _, path, split⟩ := path.behind listed bare far
  have happens : .access (.call name line) ∈ accessed (initialAccesses later) ++ inside := by
    rw [← split]
    exact List.mem_append_right _ (List.mem_cons_self ..)
  refine List.mem_filterMap.mpr ⟨.call name line, List.mem_append.mpr ?_, rfl⟩
  exact (List.mem_append.mp happens).imp (follows.calls name line)
    ((body_noted path).calls name line)

/-- The record of a variable that nothing else declares tallies what is met behind its
declaration, and no call of it is missing. -/
theorem follows_pouFacts (strict : Bool) (file : String)
    (listed : pou.decls = earlier ++ (block, decl) :: later) (bare : decl.initial = none)
    (alone : ∀ other ∈ later, Text.upper other.2.name ≠ Text.upper decl.name) :
    ∃ accesses, (∀ name line, CalledFrom pou (initialAccesses earlier).length name line →
        .call name line ∈ accesses) ∧
      Record.Follows ((pouFacts pou).foldl (Record.add strict)
        { flow := { pouName := pou.name, file } }) (block, decl) accesses := by
  obtain ⟨first, front, back, _, follows, split⟩ := pouFacts_split listed bare
  refine ⟨_, fun name line called => called.met listed bare follows, ?_⟩
  have undeclared : ∀ other variable_, .declare other variable_ ∈ back ++ (bodyFlow pou).facts →
      Text.upper variable_.name ≠ Text.upper decl.name := by
    intro other variable_ member
    rcases List.mem_append.mp member with declared | inBody
    · exact alone (other, variable_) ((follows.declares other variable_).mp declared)
    · have nothing := (block_accounts { constants := (declarations pou).constants }
        (declarations pou).assigned pou.body).undeclared _ inBody
      cases nothing
  rw [split, List.foldl_append, List.foldl_cons]
  exact (Record.follows_declare _ strict block decl).fold strict undeclared

end Declaration

/-- Lines alone tell that a variable is used undefined if no line above a use defines it. -/
theorem DefUse.finished_undefined {info : DefUse} {line : Nat} (inside : info.scope.isLocal = true)
    (bare : info.isInitialized = false) (used : line ∈ info.uses)
    (undefined : ∀ definition ∈ info.definitions, line ≤ definition) :
    info.finished.definedBeforeUse = false := by
  obtain ⟨firstRead, least⟩ := Option.isSome_iff_exists.mp
    (List.isSome_min?_of_mem used)
  have early : firstRead ≤ line := (List.min?_eq_some_iff.mp least).2 line used
  cases defined : info.definitions.min? with
  | none => simp [finished, inside, bare, defined, least]
  | some firstWrite =>
    have late : firstRead ≤ firstWrite :=
      Nat.le_trans early (undefined firstWrite (List.min?_mem defined))
    simpa [finished, inside, bare, defined, least] using late

/-- The records of a unit hold a call of a variable as a use of it and as a call of its type. By
lines alone, the use counts as one without a definition unless a line above it defines the
variable. -/
structure PouFlow.HoldsCall (flow : PouFlow) (decl : VarDecl Mark) (name : String)
    (line : Nat) : Prop where
  used : ∃ info, flow.uses.find? (Text.upper decl.name) = some info ∧ line ∈ info.uses ∧
    (TypeText.hasImplicitDefault decl.dataType = false →
      (∀ definition ∈ info.definitions, line ≤ definition) → info.definedBeforeUse = false)
  called : ⟨decl.dataType, line, some name⟩ ∈ flow.calls

/-- Calls of a variable that has to be assigned are recorded as uses of it, but only reads are
checked: it is reported if some structural path reads it unassigned behind its declaration, and not
reported unless some path reads it there, whatever calls it. -/
theorem instance_call_unchecked {strict : Bool} {file : String} {pou : Pou Mark} {flow : PouFlow}
    {earlier later : Decls} {block : VarBlock Mark} {decl : VarDecl Mark}
    (analyzed : analyzePou strict file pou = .ok flow)
    (listed : pou.decls = earlier ++ (block, decl) :: later)
    (alone : ∀ other ∈ earlier ++ later, Text.upper other.2.name ≠ Text.upper decl.name)
    (needs : needsAssignment strict block decl = true) (typed : decl.dataType.isEmpty = false) :
    (∀ name line, CalledFrom pou (initialAccesses earlier).length name line →
      Text.upper name = Text.upper decl.name → flow.HoldsCall decl name line) ∧
    (ReadUnwritten pou (initialAccesses earlier).length (Text.upper decl.name) →
      flow.Reports (Text.upper decl.name)) ∧
    (flow.Reports (Text.upper decl.name) →
      ReadFrom pou (initialAccesses earlier).length (Text.upper decl.name)) := by
  obtain rfl := analyzePou_eq_ok analyzed
  have bare := initial_eq_none needs
  obtain ⟨fresh, unshadowed⟩ := List.forall_mem_append.mp alone
  refine ⟨fun name line called same => ?_, reports_of_readUnwritten strict file listed needs,
    readFrom_of_reports listed bare fresh⟩
  obtain ⟨accesses, meets, follows⟩ := follows_pouFacts strict file listed bare unshadowed
  have met := meets name line called
  have found : (pouFlow strict file pou).uses.find? (Text.upper decl.name) = some _ :=
    (Table.find?_mapValues ..).trans (congrArg (Option.map DefUse.finished) follows.tally)
  have used : line ∈ (DefUse.tally accesses (block, decl)).uses :=
    List.mem_filterMap.mpr ⟨_, met, by simp [useLine?, same, typed]⟩
  refine ⟨⟨_, found, used, fun plain undefined => ?_⟩, follows.calls typed name line met same⟩
  exact DefUse.finished_undefined (isLocal_of_needsAssignment needs)
    (by simp [DefUse.isInitialized, DefUse.tally, bare, plain]) used undefined

/-- `VAR motor : REFERENCE TO FB_Motor; END_VAR  motor();` -/
def danglingCall : Pou Mark where
  tag := ⟨0, .lines 1 4⟩
  kind := .program
  name := "Main"
  blocks := [{
    tag := ⟨1, .line 1⟩
    scope := .local_
    decls := [
      { tag := ⟨2, .line 2⟩, name := "motor", dataType := "REFERENCE TO FB_Motor"
        reference := true }] }]
  body := [.call ⟨3, .line 4⟩ "motor" []]

/-- The body calls the reference, and nothing has been written. -/
theorem danglingCall_path :
    PouPath danglingCall ([.enter 3] ++ .access (.call "motor" 4) :: []) :=
  ⟨_, _, .next .call .done, rfl⟩

theorem instance_call_unchecked_dangling : ∃ flow decl,
    analyzePou false "main.st" danglingCall = .ok flow ∧ decl.name = "motor" ∧
      flow.HoldsCall decl "motor" 4 := by
  have analyzed : analyzePou false "main.st" danglingCall =
      .ok (pouFlow false "main.st" danglingCall) := rfl
  have listed : danglingCall.decls = [] ++ (_, _) :: [] := rfl
  have unchecked := instance_call_unchecked analyzed listed (by simp) (by decide) (by decide)
  exact ⟨_, _, analyzed, rfl, unchecked.1 "motor" 4 ⟨_, _, danglingCall_path, Nat.zero_le _⟩ rfl⟩

/-- A local reference is called before anything is written to it, by lines alone it is used
undefined, and nothing is reported. -/
theorem danglingCall_unreported : ∃ flow block decl before after,
    analyzePou false "main.st" danglingCall = .ok flow ∧
      (block, decl) ∈ danglingCall.decls ∧ needsAssignment false block decl = true ∧
      TypeText.isIndirection decl.dataType = true ∧
      PouPath danglingCall (before ++ .access (.call decl.name 4) :: after) ∧
      (∀ name line, .access (.write name line) ∉ before) ∧
      (flow.uses.find? (Text.upper decl.name)).map DefUse.definedBeforeUse = some false ∧
      ¬ flow.Reports (Text.upper decl.name) := by
  have nothing : (pouFlow false "main.st" danglingCall).uninitializedReads = [] := by decide
  exact ⟨_, _, _, _, _, rfl, .head _, by decide, by decide, danglingCall_path, by simp, by decide,
    PouFlow.not_reports_of_eq_nil nothing _⟩

end PlcAudit.Flow
