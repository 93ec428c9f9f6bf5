import Mathlib.Data.List.Basic
import PlcAudit.Proofs.Flow.Traversal
import PlcAudit.Usage

/-!
The records of a unit hold what the pass meets, access by access: the uses and definitions of each
variable, the lines of names that the unit does not declare, and the calls. No access that is met is
lost, and none is made up.
-/

namespace PlcAudit.Flow

open Code

/-! What an access stands for -/

/-- The key of the name that an access mentions. -/
def Access.key : Access → String
  | .read name _ => Text.upper name
  | .write name _ => Text.upper name
  | .call name _ => Text.upper name

/-- The declaration of a key. -/
def declared? (decls : Decls) (key : String) : Option (VarBlock Mark × VarDecl Mark) :=
  decls.find? fun entry => Text.upper entry.2.name == key

/-- A variable is used where it is read, and where it is called as an instance of its type. -/
def useLine? (decl : VarDecl Mark) : Access → Option Nat
  | .read name line => if Text.upper name = Text.upper decl.name then some line else none
  | .write .. => none
  | .call name line =>
    if Text.upper name = Text.upper decl.name ∧ ¬ decl.dataType.isEmpty then some line else none

/-- A variable is defined where it is written. -/
def definitionLine? (decl : VarDecl Mark) : Access → Option Nat
  | .write name line => if Text.upper name = Text.upper decl.name then some line else none
  | _ => none

/-- An external read of a name goes to a name without a declaration. -/
def externalRead? (decls : Decls) (name : String) : Access → Option Nat
  | .read other line =>
    if other = name ∧ declared? decls (Text.upper other) = none then some line else none
  | _ => none

/-- An external write of a name goes neither to a declaration nor to the result of the unit. -/
def externalWrite? (pouName : String) (decls : Decls) (name : String) : Access → Option Nat
  | .write other line =>
    if other = name ∧ declared? decls (Text.upper other) = none ∧
        Text.upper other ≠ Text.upper pouName then some line else none
  | _ => none

/-- A call of a variable with a type goes to its type, any other call to the name itself. -/
def callSite? (decls : Decls) : Access → Option CallSite
  | .call name line =>
    match (declared? decls (Text.upper name)).filter fun entry => !entry.2.dataType.isEmpty with
    | some entry => some ⟨entry.2.dataType, line, some name⟩
    | none => some ⟨name, line, none⟩
  | _ => none

/-- The record of a variable whose accesses are among the given ones. -/
def DefUse.tally (accesses : List Access) (entry : VarBlock Mark × VarDecl Mark) : DefUse where
  name := entry.2.name
  scope := entry.1.scope
  dataType := entry.2.dataType
  declaredLine := entry.2.tag.line
  constant := entry.1.constant
  definitions := accesses.filterMap (definitionLine? entry.2)
  uses := accesses.filterMap (useLine? entry.2)
  initializedAtDeclaration := entry.2.initial.isSome
  implicitDefault := TypeText.hasImplicitDefault entry.2.dataType

theorem DefUse.tally_snoc (accesses : List Access) (access : Access)
    (entry : VarBlock Mark × VarDecl Mark) :
    tally (accesses ++ [access]) entry =
      { tally accesses entry with
        definitions := (tally accesses entry).definitions ++
          (definitionLine? entry.2 access).toList
        uses := (tally accesses entry).uses ++ (useLine? entry.2 access).toList } := by
  cases defined : definitionLine? entry.2 access <;> cases used : useLine? entry.2 access <;>
    simp [tally, defined, used]

theorem declared?_key {decls : Decls} {key : String} {entry : VarBlock Mark × VarDecl Mark}
    (found : declared? decls key = some entry) : Text.upper entry.2.name = key := by
  have same := List.find?_some found
  exact beq_iff_eq.mp same

theorem declared?_snoc_self {decls : Decls} {decl : VarDecl Mark} (block : VarBlock Mark)
    (fresh : declared? decls (Text.upper decl.name) = none) :
    declared? (decls ++ [(block, decl)]) (Text.upper decl.name) = some (block, decl) := by
  rw [declared?, List.find?_append, ← declared?, fresh]
  simp

theorem declared?_snoc_of_ne (decls : Decls) {decl : VarDecl Mark} (block : VarBlock Mark)
    {key : String} (other : key ≠ Text.upper decl.name) :
    declared? (decls ++ [(block, decl)]) key = declared? decls key := by
  rw [declared?, List.find?_append, ← declared?]
  simp [Ne.symm other]

/-- A variable that an access does not mention is neither used nor defined by it. -/
theorem useLine?_of_ne {decl : VarDecl Mark} {access : Access}
    (other : access.key ≠ Text.upper decl.name) : useLine? decl access = none := by
  cases access <;> simp_all [useLine?, Access.key]

theorem definitionLine?_of_ne {decl : VarDecl Mark} {access : Access}
    (other : access.key ≠ Text.upper decl.name) : definitionLine? decl access = none := by
  cases access <;> simp_all [definitionLine?, Access.key]

theorem DefUse.tally_unmentioned {accesses : List Access} {block : VarBlock Mark}
    {decl : VarDecl Mark} (unmentioned : ∀ access ∈ accesses, access.key ≠ Text.upper decl.name) :
    tally accesses (block, decl) = tally [] (block, decl) := by
  have unused : accesses.filterMap (useLine? decl) = [] :=
    List.filterMap_eq_nil_iff.mpr fun access member => useLine?_of_ne (unmentioned access member)
  have undefined : accesses.filterMap (definitionLine? decl) = [] :=
    List.filterMap_eq_nil_iff.mpr fun access member =>
      definitionLine?_of_ne (unmentioned access member)
  simp [tally, unused, undefined]

/-! Tables that follow the accesses -/

/-- A table holds the record of every declared variable. -/
def Tallies (uses : Table String DefUse) (decls : Decls) (accesses : List Access) : Prop :=
  ∀ key, uses.find? key = (declared? decls key).map (DefUse.tally accesses)

section

variable {uses : Table String DefUse} {decls : Decls} {accesses : List Access} (access : Access)

/-- An access that changes no record of its name changes no record. -/
theorem Tallies.skip (known : Tallies uses decls accesses)
    (unchanged : ∀ entry, declared? decls access.key = some entry →
      useLine? entry.2 access = none ∧ definitionLine? entry.2 access = none) :
    Tallies uses decls (accesses ++ [access]) := by
  intro key
  rw [known key]
  cases found : declared? decls key with
  | none => rfl
  | some entry =>
    have same : useLine? entry.2 access = none ∧ definitionLine? entry.2 access = none := by
      by_cases mentioned : access.key = key
      · exact unchanged entry (mentioned ▸ found)
      · have other : access.key ≠ Text.upper entry.2.name := declared?_key found ▸ mentioned
        exact ⟨useLine?_of_ne other, definitionLine?_of_ne other⟩
    simp [DefUse.tally_snoc, same]

/-- An access changes the record of the name that it mentions. -/
theorem Tallies.modify {change : DefUse → DefUse} (known : Tallies uses decls accesses)
    (changes : ∀ entry, declared? decls access.key = some entry →
      DefUse.tally (accesses ++ [access]) entry = change (DefUse.tally accesses entry)) :
    Tallies (uses.modify access.key change) decls (accesses ++ [access]) := by
  intro key
  by_cases mentioned : key = access.key
  · subst key
    rw [Table.find?_modify_self, known]
    cases found : declared? decls access.key with
    | none => rfl
    | some entry => simp [changes entry found]
  · rw [Table.find?_modify_of_ne _ mentioned, known]
    cases found : declared? decls key with
    | none => rfl
    | some entry =>
      have other : access.key ≠ Text.upper entry.2.name := declared?_key found ▸ Ne.symm mentioned
      simp [DefUse.tally_snoc, useLine?_of_ne other, definitionLine?_of_ne other]

end

/-- Lines under a name, where there are any. -/
def lines? : List Nat → Option (List Nat)
  | [] => none
  | line :: rest => some (line :: rest)

/-- A table lists, under each name, the lines that are picked for it. -/
def Lists (table : Table String (List Nat)) (pick : String → Access → Option Nat)
    (accesses : List Access) : Prop :=
  ∀ name, table.find? name = lines? (accesses.filterMap (pick name))

section

variable {table : Table String (List Nat)} {pick : String → Access → Option Nat}
  {accesses : List Access} (access : Access)

theorem Lists.skip (known : Lists table pick accesses)
    (unpicked : ∀ name, pick name access = none) :
    Lists table pick (accesses ++ [access]) := by
  intro name
  simpa [unpicked] using known name

theorem Lists.congr {others : String → Access → Option Nat} (known : Lists table pick accesses)
    (same : ∀ name, ∀ access ∈ accesses, pick name access = others name access) :
    Lists table others accesses := by
  intro name
  rw [known name, List.filterMap_congr (same name)]

theorem Lists.alter {name : String} {line : Nat} (known : Lists table pick accesses)
    (picked : pick name access = some line)
    (unpicked : ∀ other, other ≠ name → pick other access = none) :
    Lists (table.alter name (Record.addLine line)) pick (accesses ++ [access]) := by
  intro other
  by_cases same : other = name
  · subst other
    rw [Table.find?_alter_self, known name]
    cases before : accesses.filterMap (pick name) with
    | nil => simp [before, picked, lines?, Record.addLine]
    | cons first rest => simp [before, picked, lines?, Record.addLine]
  · rw [Table.find?_alter_of_ne _ same, known other]
    simp [unpicked other same]

end

/-! Records along the pass -/

/-- Records hold some accesses of a unit with these declarations. -/
structure Record.Holds (record : Record) (pouName : String) (decls : Decls)
    (accesses : List Access) : Prop where
  named : record.flow.pouName = pouName
  tallies : Tallies record.flow.uses decls accesses
  externalReads : Lists record.flow.externalReads (externalRead? decls) accesses
  externalWrites : Lists record.flow.externalWrites (externalWrite? pouName decls) accesses
  calls : record.flow.calls = accesses.filterMap (callSite? decls)

namespace Record

variable {record : Record} {pouName : String} {decls : Decls} {accesses : List Access}

theorem start_holds (pouName file : String) :
    Holds { flow := { pouName, file } } pouName [] [] where
  named := rfl
  tallies := fun _ => rfl
  externalReads := fun _ => rfl
  externalWrites := fun _ => rfl
  calls := rfl

theorem Holds.read (known : record.Holds pouName decls accesses) (name : String) (line : Nat)
    (exposed : Bool) :
    (record.read name line exposed).Holds pouName decls (accesses ++ [.read name line]) := by
  have found := known.tallies (Text.upper name)
  have writes := known.externalWrites.skip (.read name line) fun _ => rfl
  have calls : record.flow.calls =
      (accesses ++ [Access.read name line]).filterMap (callSite? decls) := by
    simp [List.filterMap_cons, callSite?, known.calls]
  simp only [Record.read]
  -- A declared name changes its record only, any other name the external reads only.
  cases declaration : declared? decls (Text.upper name) with
  | none =>
    rw [declaration] at found
    simp only [found, Option.map_none]
    refine ⟨known.named, known.tallies.skip _ fun entry present => ?_, ?_, writes, calls⟩
    · exact absurd (declaration.symm.trans present) (by simp)
    · exact known.externalReads.alter _ (by simp [externalRead?, declaration])
        fun other different => by simp [externalRead?, Ne.symm different]
  | some entry =>
    rw [declaration] at found
    simp only [found, Option.map_some]
    have reads := known.externalReads.skip (.read name line)
      fun other => by simp [externalRead?, declaration]
    have tallies : Tallies (record.flow.uses.modify (Text.upper name) fun info =>
        { info with uses := info.uses ++ [line] }) decls (accesses ++ [.read name line]) := by
      refine known.tallies.modify (.read name line) fun entry present => ?_
      have same : Text.upper entry.2.name = Text.upper name := declared?_key present
      simp [DefUse.tally_snoc, useLine?, definitionLine?, same]
    split
    · exact ⟨known.named, tallies, reads, writes, calls⟩
    · exact ⟨known.named, tallies, reads, writes, calls⟩

theorem Holds.write (known : record.Holds pouName decls accesses) (name : String) (line : Nat) :
    (record.write name line).Holds pouName decls (accesses ++ [.write name line]) := by
  obtain rfl := known.named
  have found := known.tallies (Text.upper name)
  have reads := known.externalReads.skip (.write name line) fun _ => rfl
  have calls : record.flow.calls =
      (accesses ++ [Access.write name line]).filterMap (callSite? decls) := by
    simp [List.filterMap_cons, callSite?, known.calls]
  simp only [Record.write, Table.contains]
  cases declaration : declared? decls (Text.upper name) with
  | none =>
    rw [declaration] at found
    simp only [found, Option.map_none, Option.isSome_none, Bool.false_eq_true, if_false,
      beq_iff_eq]
    have tallies : Tallies record.flow.uses decls (accesses ++ [.write name line]) :=
      known.tallies.skip _ fun entry present =>
        absurd (declaration.symm.trans present) (by simp)
    split
    · rename_i result
      exact ⟨known.named, tallies, reads,
        known.externalWrites.skip _ fun other => by simp [externalWrite?, result], calls⟩
    · rename_i different
      exact ⟨known.named, tallies, reads,
        known.externalWrites.alter _ (by simp [externalWrite?, declaration, different])
          fun other apart => by simp [externalWrite?, Ne.symm apart], calls⟩
  | some entry =>
    rw [declaration] at found
    simp only [found, Option.map_some, Option.isSome_some, if_true]
    refine ⟨known.named, ?_, reads, known.externalWrites.skip _ fun other => by
      simp [externalWrite?, declaration], calls⟩
    refine known.tallies.modify (.write name line) fun entry present => ?_
    have same : Text.upper entry.2.name = Text.upper name := declared?_key present
    simp [DefUse.tally_snoc, useLine?, definitionLine?, same]

theorem Holds.call (known : record.Holds pouName decls accesses) (name : String) (line : Nat) :
    (record.call name line).Holds pouName decls (accesses ++ [.call name line]) := by
  have found := known.tallies (Text.upper name)
  have reads := known.externalReads.skip (.call name line) fun _ => rfl
  have writes := known.externalWrites.skip (.call name line) fun _ => rfl
  have typed : (record.flow.uses.find? (Text.upper name)).filter (!·.dataType.isEmpty) =
      ((declared? decls (Text.upper name)).filter (!·.2.dataType.isEmpty)).map
        (DefUse.tally accesses) := by
    rw [found, Option.filter_map]
    rfl
  simp only [Record.call, typed]
  cases kept : (declared? decls (Text.upper name)).filter (!·.2.dataType.isEmpty) with
  | none =>
    -- The name may be declared without a type; calling it is then no use of it.
    refine ⟨known.named, known.tallies.skip _ fun entry present => ?_, reads, writes, ?_⟩
    · have untyped : entry.2.dataType.isEmpty = true := by
        simpa [show declared? decls (Text.upper name) = some entry from present] using kept
      simp [useLine?, definitionLine?, untyped]
    · simp [callSite?, kept, known.calls]
  | some entry =>
    obtain ⟨present, instantiable⟩ := Option.filter_eq_some_iff.mp kept
    refine ⟨known.named, ?_, reads, writes, ?_⟩
    · refine known.tallies.modify (.call name line) fun other found => ?_
      obtain rfl := Option.some.inj (present.symm.trans found)
      have same : Text.upper entry.2.name = Text.upper name := declared?_key present
      have typed : entry.2.dataType.isEmpty = false := by simpa using instantiable
      simp [DefUse.tally_snoc, useLine?, definitionLine?, same, typed]
    · simp [callSite?, kept, known.calls, DefUse.tally]

/-- Facts of a body add the accesses among them. -/
theorem Holds.add (known : record.Holds pouName decls accesses) (strict : Bool) (fact : Fact)
    (undeclared : fact.isDeclaration = false) :
    (record.add strict fact).Holds pouName decls (accesses ++ fact.access?.toList) := by
  cases fact with
  | declare block decl => cases undeclared
  | read name line exposed => exact known.read name line exposed
  | write name line => exact known.write name line
  | call name line => exact known.call name line
  | statement id info =>
    simp only [Fact.access?, Option.toList_none, List.append_nil]
    exact ⟨known.named, known.tallies, known.externalReads, known.externalWrites, known.calls⟩
  | dead kind startLine endLine description =>
    simp only [Fact.access?, Option.toList_none, List.append_nil]
    exact ⟨known.named, known.tallies, known.externalReads, known.externalWrites, known.calls⟩

theorem Holds.fold (known : record.Holds pouName decls accesses) (strict : Bool)
    {facts : List Fact} (undeclared : ∀ fact ∈ facts, fact.isDeclaration = false) :
    (facts.foldl (Record.add strict) record).Holds pouName decls
      (accesses ++ metAccesses facts) := by
  induction facts generalizing record accesses with
  | nil => simpa [metAccesses] using known
  | cons fact rest ih =>
    obtain ⟨first, later⟩ := List.forall_mem_cons.mp undeclared
    have whole := ih (known.add strict fact first) later
    rw [metAccesses_cons, ← List.append_assoc]
    exact whole

/-- A declaration of a name that nothing has mentioned so far leaves the meaning of all accesses
as it is. -/
theorem Holds.declare (known : record.Holds pouName decls accesses) (strict : Bool)
    (block : VarBlock Mark) {decl : VarDecl Mark}
    (fresh : declared? decls (Text.upper decl.name) = none)
    (unmentioned : ∀ access ∈ accesses, access.key ≠ Text.upper decl.name) :
    (record.declare strict block decl).Holds pouName (decls ++ [(block, decl)]) accesses where
  named := known.named
  tallies := by
    intro key
    by_cases same : key = Text.upper decl.name
    · subst key
      rw [declared?_snoc_self block fresh, Option.map_some, DefUse.tally_unmentioned unmentioned]
      exact Table.find?_insert_self ..
    · rw [declared?_snoc_of_ne decls block same]
      exact (Table.find?_insert_of_ne _ same _).trans (known.tallies key)
  externalReads := known.externalReads.congr fun name access member => by
    have same := declared?_snoc_of_ne decls block (unmentioned access member)
    cases access with
    | read other line =>
      simp only [externalRead?, Access.key] at same ⊢
      rw [same]
    | _ => rfl
  externalWrites := known.externalWrites.congr fun name access member => by
    have same := declared?_snoc_of_ne decls block (unmentioned access member)
    cases access with
    | write other line =>
      simp only [externalWrite?, Access.key] at same ⊢
      rw [same]
    | _ => rfl
  calls := known.calls.trans <| List.filterMap_congr fun access member => by
    have same := declared?_snoc_of_ne decls block (unmentioned access member)
    cases access with
    | call name line =>
      simp only [callSite?, Access.key] at same ⊢
      rw [same]
    | _ => rfl

end Record

/-! Declarations in order -/

/-- Declarations with distinct names whose initial values mention only names above them. -/
structure Decls.Backward (decls : Decls) : Prop where
  distinct : (decls.map fun entry => Text.upper entry.2.name).Nodup
  notItself : ∀ entry ∈ decls, ∀ access ∈ optionAccesses entry.2.initial,
    access.key ≠ Text.upper entry.2.name
  notLater : decls.Pairwise fun earlier later => ∀ access ∈ optionAccesses earlier.2.initial,
    access.key ≠ Text.upper later.2.name

section

variable {done rest : Decls} {block : VarBlock Mark} {decl : VarDecl Mark}

theorem Decls.Backward.fresh (backward : Backward (done ++ (block, decl) :: rest)) :
    declared? done (Text.upper decl.name) = none := by
  apply List.find?_eq_none.mpr
  intro entry earlier same
  have distinct := backward.distinct
  rw [List.map_append, List.nodup_append] at distinct
  exact distinct.2.2 _ (List.mem_map_of_mem earlier) _ (List.mem_cons_self ..) (beq_iff_eq.mp same)

theorem Decls.Backward.unmentioned (backward : Backward (done ++ (block, decl) :: rest)) :
    ∀ access ∈ initialAccesses done ++ optionAccesses decl.initial,
      access.key ≠ Text.upper decl.name := by
  intro access member
  rcases List.mem_append.mp member with early | own
  · obtain ⟨entry, earlier, inside⟩ := List.mem_flatMap.mp early
    exact (List.pairwise_append.mp backward.notLater).2.2 entry earlier _ (List.mem_cons_self ..)
      access inside
  · exact backward.notItself (block, decl) (by simp) access own

end

/-- Declarations in order: each initial value is recorded, then the variable is declared. -/
theorem Record.Holds.declareAll {start : Record} {pouName : String} (strict : Bool)
    (declared : Declared) (done rest : Decls) (backward : Decls.Backward (done ++ rest))
    (known : Holds (declared.facts.foldl (Record.add strict) start) pouName done
      (initialAccesses done)) :
    Holds ((declared.addAll rest).facts.foldl (Record.add strict) start) pouName (done ++ rest)
      (initialAccesses (done ++ rest)) := by
  -- Each step moves one declaration from `rest` to `done`; its initial value comes first.
  induction rest generalizing declared done with
  | nil => simpa [Declared.addAll] using known
  | cons entry rest ih =>
    obtain ⟨block, decl⟩ := entry
    have initial := known.fold strict
      (accounts_observe true declared.assigned (.refl (optionAccesses decl.initial))).undeclared
    rw [metAccesses_observe] at initial
    have next := initial.declare strict block backward.fresh backward.unmentioned
    rw [List.append_cons] at backward ⊢
    refine ih (declared.add block decl) _ backward ?_
    simpa [Declared.add, initialAccesses, List.foldl_append, Record.add] using next

/-! Units -/

/-- The data flow of a unit holds exactly the given accesses. -/
structure PouFlow.Records (flow : PouFlow) (pou : Pou Mark) (accesses : List Access) : Prop where
  tallies : ∀ key, flow.uses.find? key =
    (declared? pou.decls key).map fun entry => (DefUse.tally accesses entry).finished
  externalReads : Lists flow.externalReads (externalRead? pou.decls) accesses
  externalWrites : Lists flow.externalWrites (externalWrite? pou.name pou.decls) accesses
  calls : flow.calls = accesses.filterMap (callSite? pou.decls)

/-- The records hold all accesses that the pass meets. -/
theorem pouFlow_records (strict : Bool) (file : String) (pou : Pou Mark)
    (backward : Decls.Backward pou.decls) :
    (pouFlow strict file pou).Records pou (pouMet pou) := by
  have start := Record.start_holds pou.name file
  have declared : Record.Holds _ pou.name pou.decls (initialAccesses pou.decls) :=
    Record.Holds.declareAll strict {} [] pou.decls backward start
  have whole := declared.fold strict (block_accounts { constants := (declarations pou).constants }
    (declarations pou).assigned pou.body).undeclared
  rw [← List.foldl_append] at whole
  refine ⟨fun key => ?_, whole.externalReads, whole.externalWrites, whole.calls⟩
  have found := congrArg (Option.map DefUse.finished) (whole.tallies key)
  rw [Option.map_map] at found
  exact (Table.find?_mapValues ..).trans found

/-- Whatever its scope, a variable that is read is of use. -/
theorem unread_of_isUnused {scope : Scope} {reads writes : Nat}
    (unused : Usage.isUnused scope reads writes = true) : reads = 0 := by
  cases scope <;> simp_all [Usage.isUnused]

/-- A variable that some recorded access reads is not reported. -/
theorem PouFlow.Records.read_used {flow : PouFlow} {pou : Pou Mark} {accesses : List Access}
    (records : flow.Records pou accesses) {unused : Usage.UnusedVariable}
    (reported : unused ∈ Usage.pouUnused flow) {name : String} {line : Nat}
    (met : .read name line ∈ accesses) : Text.upper name ≠ Text.upper unused.name := by
  obtain ⟨info, listed, rfl⟩ := List.mem_map.mp reported
  obtain ⟨present, idle⟩ := List.mem_filter.mp listed
  obtain ⟨key, found⟩ := (Table.mem_values_iff ..).mp present
  rw [records.tallies] at found
  obtain ⟨entry, declaration, rfl⟩ := Option.map_eq_some_iff.mp found
  have unread : accesses.filterMap (useLine? entry.2) = [] :=
    List.eq_nil_of_length_eq_zero (unread_of_isUnused idle)
  have missed := List.filterMap_eq_nil_iff.mp unread _ met
  intro same
  exact absurd ((if_pos same).symm.trans missed) (by simp)

/-- The records of a unit are made from the accesses of its tree, except for those in the labels of
CASE and in conditions of ELSIF behind an always true one. A variable is reported as unused only if
no other access reads it. -/
theorem accesses_recorded {strict : Bool} {file : String} {pou : Pou Mark} {flow : PouFlow}
    (analyzed : analyzePou strict file pou = .ok flow) (backward : Decls.Backward pou.decls) :
    ∃ recorded, (recorded ++ pouOmits pou).Perm (pouAccesses pou) ∧ flow.Records pou recorded ∧
      ∀ unused ∈ Usage.pouUnused flow, ∀ name line, .read name line ∈ recorded →
        Text.upper name ≠ Text.upper unused.name := by
  obtain rfl := analyzePou_eq_ok analyzed
  have records := pouFlow_records strict file pou backward
  exact ⟨pouMet pou, pou_accounts pou, records,
    fun _ reported _ _ met => records.read_used reported met⟩

/-- A constant that is a label of CASE, and a variable in a condition of ELSIF behind TRUE. -/
def maskedReads : Pou Mark where
  tag := ⟨0, .lines 1 9⟩
  kind := .program
  name := "Main"
  blocks := [
    { tag := ⟨1, .line 2⟩, scope := .local_, constant := true
      decls := [{ tag := ⟨2, .line 2⟩, name := "limit", dataType := "INT"
                  initial := some (.literal ⟨3, .line 2⟩ .integer "3") }] },
    { tag := ⟨4, .line 3⟩, scope := .local_
      decls := [{ tag := ⟨5, .line 3⟩, name := "state", dataType := "INT" },
                { tag := ⟨6, .line 4⟩, name := "ready", dataType := "BOOL" }] }]
  body := [
    .select ⟨7, .line 5⟩ (.variable ⟨8, .line 5⟩ "state" [] [] false)
      [.mk [.variable ⟨9, .line 6⟩ "limit" [] [] false] []] none,
    .cond ⟨10, .line 7⟩ (.literal ⟨11, .line 7⟩ .boolean "TRUE") []
      [.mk (.line 8) (.variable ⟨12, .line 8⟩ "ready" [] [] false) []] none]

theorem maskedReads_backward : Decls.Backward maskedReads.decls where
  distinct := by decide
  notItself := by decide
  notLater := by decide

theorem accesses_recorded_maskedReads : ∃ flow recorded,
    analyzePou false "main.st" maskedReads = .ok flow ∧
      (recorded ++ [.read "limit" 6, .read "ready" 8]).Perm (pouAccesses maskedReads) ∧
      flow.Records maskedReads recorded := by
  have analyzed : analyzePou false "main.st" maskedReads = .ok _ := rfl
  obtain ⟨recorded, total, records, _⟩ := accesses_recorded analyzed maskedReads_backward
  exact ⟨_, recorded, analyzed, total, records⟩

/-- Both are reported as unused, although the tree reads them. -/
theorem maskedReads_unused : ∃ flow, analyzePou false "main.st" maskedReads = .ok flow ∧
    Decls.Backward maskedReads.decls ∧
    .read "limit" 6 ∈ pouAccesses maskedReads ∧ .read "ready" 8 ∈ pouAccesses maskedReads ∧
    (flow.uses.find? "LIMIT").map DefUse.uses = some [] ∧
    (flow.uses.find? "READY").map DefUse.uses = some [] ∧
    (Usage.pouUnused flow).map Usage.UnusedVariable.name = ["limit", "ready"] := by
  refine ⟨_, rfl, maskedReads_backward, ?_, ?_, ?_, ?_, ?_⟩
  · decide
  · decide
  · decide
  · decide
  · decide

end PlcAudit.Flow
