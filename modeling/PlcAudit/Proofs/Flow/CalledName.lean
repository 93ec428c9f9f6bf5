import PlcAudit.Proofs.Flow.AccessRecord

/-!
What the calls of a unit are recorded as. A call of a variable goes by the type of the last
declaration of that name above the call; a call in a body has all declarations above it, one in an
initial value only those before its own.
-/

namespace PlcAudit.Flow

open Code

/-! The names of calls -/

/-- The type of a name by its last declaration. -/
def lastType? (decls : Decls) (key : String) : Option String :=
  (decls.reverse.find? fun entry => Text.upper entry.2.name == key).map fun entry =>
    entry.2.dataType

/-- A call of a variable with a type is a call of the type, any other call goes by its name. -/
def calleeAmong (decls : Decls) (name : String) : String :=
  ((lastType? decls (Text.upper name)).filter (!·.isEmpty)).getD name

theorem lastType?_snoc (decls : Decls) (block : VarBlock Mark) (decl : VarDecl Mark)
    (key : String) :
    lastType? (decls ++ [(block, decl)]) key =
      if Text.upper decl.name = key then some decl.dataType else lastType? decls key := by
  rw [lastType?, List.reverse_append, List.reverse_singleton, List.singleton_append,
    List.find?_cons]
  by_cases same : Text.upper decl.name = key
  · simp [same]
  · rw [if_neg same, beq_false_of_ne same]
    rfl

/-- A name without a declaration is called as it is written. -/
theorem lastType?_eq_none_iff {decls : Decls} {key : String} :
    lastType? decls key = none ↔ ∀ entry ∈ decls, Text.upper entry.2.name ≠ key := by
  simp [lastType?]

/-- What an access adds to the names of the calls. -/
def callee? (decls : Decls) : Access → Option String
  | .call name _ => some (calleeAmong decls name)
  | _ => none

/-! Records of calls -/

/-- Records know the types of some declarations, and have listed some names of calls. -/
structure Record.NamesCalls (record : Record) (decls : Decls) (callees : List String) : Prop where
  types : ∀ key, (record.flow.uses.find? key).map DefUse.dataType = lastType? decls key
  calls : record.flow.calls.map CallSite.callee = callees

namespace Record

variable {record : Record} {decls : Decls} {callees : List String}

/-- Changes that leave the type of a variable alone keep all types. -/
theorem NamesCalls.types_modify (known : record.NamesCalls decls callees)
    (change : DefUse → DefUse) (kept : ∀ info, (change info).dataType = info.dataType)
    (changed key : String) :
    ((record.flow.uses.modify changed change).find? key).map DefUse.dataType =
      lastType? decls key := by
  rw [← known.types]
  by_cases same : key = changed
  · subst key
    rw [Table.find?_modify_self, Option.map_map]
    exact congrArg (fun view => (record.flow.uses.find? changed).map view) (funext kept)
  · rw [Table.find?_modify_of_ne _ same]

theorem NamesCalls.read (known : record.NamesCalls decls callees) (name : String) (line : Nat)
    (exposed : Bool) : (record.read name line exposed).NamesCalls decls callees := by
  have types := known.types_modify (fun info => { info with uses := info.uses ++ [line] })
    (fun _ => rfl) (Text.upper name)
  simp only [Record.read]
  split
  · exact ⟨known.types, known.calls⟩
  · split
    · exact ⟨types, known.calls⟩
    · exact ⟨types, known.calls⟩

theorem NamesCalls.write (known : record.NamesCalls decls callees) (name : String) (line : Nat) :
    (record.write name line).NamesCalls decls callees := by
  have types := known.types_modify
    (fun info => { info with definitions := info.definitions ++ [line] }) (fun _ => rfl)
    (Text.upper name)
  simp only [Record.write]
  split
  · exact ⟨types, known.calls⟩
  · split
    · exact known
    · exact ⟨known.types, known.calls⟩

theorem NamesCalls.call (known : record.NamesCalls decls callees) (name : String) (line : Nat) :
    (record.call name line).NamesCalls decls (callees ++ [calleeAmong decls name]) := by
  have types := known.types_modify (fun info => { info with uses := info.uses ++ [line] })
    (fun _ => rfl) (Text.upper name)
  have typed : ((record.flow.uses.find? (Text.upper name)).filter (!·.dataType.isEmpty)).map
      DefUse.dataType = (lastType? decls (Text.upper name)).filter (!·.isEmpty) := by
    rw [← known.types, Option.filter_map]
    rfl
  simp only [Record.call]
  split
  · rename_i info found
    have callee : calleeAmong decls name = info.dataType := by
      rw [calleeAmong, ← typed, found]
      rfl
    refine ⟨types, ?_⟩
    rw [List.map_append, known.calls, callee]
    rfl
  · rename_i found
    have callee : calleeAmong decls name = name := by
      rw [calleeAmong, ← typed, found]
      rfl
    refine ⟨known.types, ?_⟩
    rw [List.map_append, known.calls, callee]
    rfl

theorem NamesCalls.add (known : record.NamesCalls decls callees) (strict : Bool) (fact : Fact)
    (undeclared : fact.isDeclaration = false) :
    (record.add strict fact).NamesCalls decls
      (callees ++ (fact.access?.bind (callee? decls)).toList) := by
  cases fact with
  | declare block decl => cases undeclared
  | call name line => exact known.call name line
  | read name line exposed =>
    simp only [Fact.access?, Option.bind_some, callee?, Option.toList_none, List.append_nil]
    exact known.read name line exposed
  | write name line =>
    simp only [Fact.access?, Option.bind_some, callee?, Option.toList_none, List.append_nil]
    exact known.write name line
  | statement id info =>
    simp only [Fact.access?, Option.bind_none, Option.toList_none, List.append_nil]
    exact ⟨known.types, known.calls⟩
  | dead kind startLine endLine description =>
    simp only [Fact.access?, Option.bind_none, Option.toList_none, List.append_nil]
    exact ⟨known.types, known.calls⟩

theorem NamesCalls.fold (known : record.NamesCalls decls callees) (strict : Bool)
    {facts : List Fact} (undeclared : ∀ fact ∈ facts, fact.isDeclaration = false) :
    (facts.foldl (Record.add strict) record).NamesCalls decls
      (callees ++ (metAccesses facts).filterMap (callee? decls)) := by
  induction facts generalizing record callees with
  | nil => simpa [metAccesses] using known
  | cons fact rest ih =>
    obtain ⟨first, later⟩ := List.forall_mem_cons.mp undeclared
    have whole := ih (known.add strict fact first) later
    have met : (fact.access?.bind (callee? decls)).toList =
        fact.access?.toList.filterMap (callee? decls) := by
      cases fact.access? with
      | none => rfl
      | some access => cases callee : callee? decls access <;> simp [callee]
    rwa [metAccesses_cons, List.filterMap_append, ← met, ← List.append_assoc]

theorem NamesCalls.declare (known : record.NamesCalls decls callees) (strict : Bool)
    (block : VarBlock Mark) (decl : VarDecl Mark) :
    (record.declare strict block decl).NamesCalls (decls ++ [(block, decl)]) callees := by
  refine ⟨fun key => ?_, known.calls⟩
  rw [lastType?_snoc]
  by_cases same : Text.upper decl.name = key
  · subst key
    rw [if_pos rfl]
    exact congrArg (Option.map DefUse.dataType) (Table.find?_insert_self ..)
  · rw [if_neg same, ← known.types]
    exact congrArg (Option.map DefUse.dataType) (Table.find?_insert_of_ne _ (Ne.symm same) _)

end Record

/-- The names of the calls in initial values, each by the declarations above it. -/
def initialCallees (above : Decls) : Decls → List String
  | [] => []
  | entry :: below =>
    (optionAccesses entry.2.initial).filterMap (callee? above) ++
      initialCallees (above ++ [entry]) below

theorem Record.NamesCalls.declareAll {start : Record} (strict : Bool) (declared : Declared)
    (above below : Decls) {callees : List String}
    (known : NamesCalls (declared.facts.foldl (Record.add strict) start) above callees) :
    NamesCalls ((declared.addAll below).facts.foldl (Record.add strict) start) (above ++ below)
      (callees ++ initialCallees above below) := by
  induction below generalizing declared above callees with
  | nil => simpa [Declared.addAll, initialCallees] using known
  | cons entry rest ih =>
    obtain ⟨block, decl⟩ := entry
    have initial := known.fold strict
      (accounts_observe true declared.assigned (.refl (optionAccesses decl.initial))).undeclared
    rw [metAccesses_observe] at initial
    have next := ih (declared.add block decl) (above ++ [(block, decl)]) (by
      simpa [Declared.add, List.foldl_append, Record.add] using initial.declare strict block decl)
    rw [List.append_cons, initialCallees, ← List.append_assoc]
    exact next

/-- The recorded calls of a unit are those of its initial values and those that the pass meets in
its body. -/
theorem pouFlow_callees (strict : Bool) (file : String) (pou : Pou Mark) :
    (pouFlow strict file pou).calls.map CallSite.callee =
      initialCallees [] pou.decls ++
        (metAccesses (bodyFlow pou).facts).filterMap (callee? pou.decls) := by
  have start : Record.NamesCalls { flow := { pouName := pou.name, file } } [] [] :=
    ⟨fun _ => rfl, rfl⟩
  have declared := Record.NamesCalls.declareAll strict {} [] pou.decls start
  have whole := declared.fold strict (block_accounts { constants := (declarations pou).constants }
    (declarations pou).assigned pou.body).undeclared
  rw [← List.foldl_append] at whole
  exact whole.calls

/-! Calls with what is declared above them -/

/-- The pass meets a call in a body, or in an initial value with some declarations above it. -/
def Meets (pou : Pou Mark) (above : Decls) (name : String) (line : Nat) : Prop :=
  above = pou.decls ∧ .call name line ∈ metAccesses (bodyFlow pou).facts ∨
    ∃ entry below, pou.decls = above ++ entry :: below ∧
      .call name line ∈ optionAccesses entry.2.initial

theorem mem_initialCallees (front above : Decls) {entry : VarBlock Mark × VarDecl Mark}
    {below : Decls} {name : String} {line : Nat}
    (called : .call name line ∈ optionAccesses entry.2.initial) :
    calleeAmong (front ++ above) name ∈ initialCallees front (above ++ entry :: below) := by
  induction above generalizing front with
  | nil =>
    rw [List.append_nil]
    exact List.mem_append_left _ (List.mem_filterMap.mpr ⟨_, called, rfl⟩)
  | cons first rest ih =>
    have later := ih (front ++ [first])
    rw [List.append_assoc, List.singleton_append] at later
    exact List.mem_append_right _ later

/-- A call that the pass meets is recorded under the name that the declarations above give it. -/
theorem Meets.recorded {pou : Pou Mark} {above : Decls} {name : String} {line : Nat}
    (meets : Meets pou above name line) (strict : Bool) (file : String) :
    calleeAmong above name ∈ (pouFlow strict file pou).calls.map CallSite.callee := by
  rw [pouFlow_callees]
  rcases meets with ⟨rfl, body⟩ | ⟨entry, below, split, initial⟩
  · exact List.mem_append_right _ (List.mem_filterMap.mpr ⟨_, body, rfl⟩)
  · rw [split]
    exact List.mem_append_left _ (mem_initialCallees [] above initial)

/-- Every call of the tree is met somewhere or omitted. -/
theorem meets_of_mem {pou : Pou Mark} {name : String} {line : Nat}
    (present : .call name line ∈ pouAccesses pou) :
    .call name line ∈ pouOmits pou ∨ ∃ above, Meets pou above name line := by
  rcases List.mem_append.mp ((pou_accounts pou).mem_iff.mpr present) with met | omitted
  · right
    rcases List.mem_append.mp met with initial | body
    · obtain ⟨entry, declared, inside⟩ := List.mem_flatMap.mp initial
      obtain ⟨above, below, split⟩ := List.append_of_mem declared
      exact ⟨above, .inr ⟨entry, below, split, inside⟩⟩
    · exact ⟨pou.decls, .inl ⟨rfl, body⟩⟩
  · exact .inl omitted

/-- The declarations above a call are declarations of the unit. -/
theorem Meets.subset {pou : Pou Mark} {above : Decls} {name : String} {line : Nat}
    (meets : Meets pou above name line) : above ⊆ pou.decls := by
  rcases meets with ⟨rfl, _⟩ | ⟨entry, below, split, _⟩
  · exact List.Subset.refl _
  · rw [split]
    exact List.subset_append_left ..

end PlcAudit.Flow
