import PlcAudit.Proofs.Flow.Initialization

/-!
The order in which a call accesses its arguments. They are met as they are listed, so an output that
is bound in front of an input is written before the input is read. Where no such binding hides it, a
variable that is both read as an input and bound to an output is checked by its use as an input.
-/

namespace PlcAudit.Flow

open Code

def Access.isRead : Access → Bool
  | .read .. => true
  | _ => false

def Access.isWrite : Access → Bool
  | .write .. => true
  | _ => false

def isInput : Arg Mark → Bool
  | .mk _ _ output => !output

/-- A variable is bound to an output of the call. -/
def bindsOutput : Arg Mark → Bool
  | .mk _ (.variable ..) true => true
  | _ => false

/-- The accesses of the arguments of a call, each with the argument that makes it. -/
def accessesByArg (args : List (Arg Mark)) : List (Arg Mark × Access) :=
  args.flatMap fun arg => (argAccesses [arg]).map (arg, ·)

/-- All that inputs read is read before any output binding writes. -/
def ReadsFirst (args : List (Arg Mark)) : Prop :=
  (accessesByArg args).Pairwise fun earlier later =>
    bindsOutput earlier.1 = true → earlier.2.isWrite = true → isInput later.1 = true →
      later.2.isRead = false

/-- No input stands behind an output binding and reads something. -/
def InputsInFront (args : List (Arg Mark)) : Prop :=
  args.Pairwise fun earlier later => bindsOutput earlier = true → isInput later = true →
    ∀ access ∈ argAccesses [later], access.isRead = false

instance (args : List (Arg Mark)) : Decidable (ReadsFirst args) :=
  inferInstanceAs (Decidable (List.Pairwise _ _))

/-! One argument after another -/

theorem argAccesses_cons (arg : Arg Mark) (rest : List (Arg Mark)) :
    argAccesses (arg :: rest) = argAccesses [arg] ++ argAccesses rest := by
  obtain ⟨name, value, output⟩ := arg
  cases value <;> cases output <;> simp [argAccesses]

theorem argAccesses_append (first second : List (Arg Mark)) :
    argAccesses (first ++ second) = argAccesses first ++ argAccesses second := by
  induction first with
  | nil => simp [argAccesses]
  | cons arg rest ih =>
    rw [List.cons_append, argAccesses_cons, ih, argAccesses_cons arg rest, List.append_assoc]

theorem accessesByArg_accesses (args : List (Arg Mark)) :
    (accessesByArg args).map Prod.snd = argAccesses args := by
  induction args with
  | nil => simp [accessesByArg, argAccesses]
  | cons arg rest ih =>
    rw [argAccesses_cons, ← ih]
    simp [accessesByArg, Function.comp_def]

/-- An access of several arguments is made by one of them. -/
theorem mem_argAccesses {args : List (Arg Mark)} {access : Access} :
    access ∈ argAccesses args ↔ ∃ arg ∈ args, access ∈ argAccesses [arg] := by
  rw [← accessesByArg_accesses]
  simp [accessesByArg]

/-- An output binding writes its variable. -/
theorem exists_write_of_bindsOutput {arg : Arg Mark} (binds : bindsOutput arg = true) :
    ∃ access ∈ argAccesses [arg], access.isWrite = true := by
  obtain ⟨name, value, output⟩ := arg
  cases value <;> cases output <;> simp only [bindsOutput, Bool.false_eq_true] at binds
  exact ⟨_, by rw [argAccesses]; exact List.mem_append_right _ (List.mem_cons_self ..), rfl⟩

theorem bindsOutput_of_isInput {arg : Arg Mark} (input : isInput arg = true) :
    bindsOutput arg = false := by
  obtain ⟨name, value, output⟩ := arg
  cases output with
  | false => cases value <;> rfl
  | true => cases input

/-- The order of the arguments decides. -/
theorem readsFirst_iff (args : List (Arg Mark)) : ReadsFirst args ↔ InputsInFront args := by
  rw [ReadsFirst, accessesByArg, List.pairwise_flatMap]
  constructor
  · rintro ⟨_, apart⟩
    refine apart.imp fun {earlier later} behind binds input access member => ?_
    obtain ⟨write, present, writes⟩ := exists_write_of_bindsOutput binds
    exact behind _ (List.mem_map_of_mem present) _ (List.mem_map_of_mem member) binds writes input
  · intro inFront
    refine ⟨fun arg _ => ?_, inFront.imp fun {earlier later} front entry made read found => ?_⟩
    · rw [List.pairwise_map, List.pairwise_iff_forall_sublist]
      exact fun _ binds _ input => absurd (bindsOutput_of_isInput input) (by simp [binds])
    · obtain ⟨_, _, rfl⟩ := List.mem_map.mp made
      obtain ⟨access, member, rfl⟩ := List.mem_map.mp found
      exact fun binds _ input => front binds input access member

/-! The check of variables -/

/-- A structural path makes a call with these arguments behind its first `start` events, and has not
written the variable before. -/
def CallsUnwritten (pou : Pou Mark) (start : Nat) (key : String) (args : List (Arg Mark)) : Prop :=
  ∃ before name line after,
    PouPath pou (before ++ accessed (.call name line :: argAccesses args) ++ after) ∧
    start ≤ before.length ∧
    ∀ other at_, .access (.write other at_) ∈ before → Text.upper other ≠ key

/-- Some input reads the variable. -/
def ReadByInput (key : String) (args : List (Arg Mark)) : Prop :=
  ∃ arg ∈ args, isInput arg = true ∧
    ∃ name line, .read name line ∈ argAccesses [arg] ∧ Text.upper name = key

/-- Of the arguments, only output bindings write the variable. -/
def WrittenByOutputs (key : String) (args : List (Arg Mark)) : Prop :=
  ∀ arg ∈ args, ∀ name line, .write name line ∈ argAccesses [arg] → Text.upper name = key →
    bindsOutput arg = true

/-- The input is read before anything writes the variable. -/
theorem ReadByInput.unwritten {key : String} {args : List (Arg Mark)}
    (read : ReadByInput key args) (inFront : InputsInFront args)
    (outputs : WrittenByOutputs key args) :
    ∃ front name line back, argAccesses args = front ++ .read name line :: back ∧
      Text.upper name = key ∧ ∀ other at_, .write other at_ ∈ front → Text.upper other ≠ key := by
  obtain ⟨arg, member, input, name, line, found, same⟩ := read
  obtain ⟨earlier, later, rfl⟩ := List.append_of_mem member
  obtain ⟨front, back, split⟩ := List.append_of_mem found
  refine ⟨argAccesses earlier ++ front, name, line, back ++ argAccesses later, ?_, same, ?_⟩
  · rw [argAccesses_append, argAccesses_cons, split]
    simp
  · intro other at_ written equal
    rcases List.mem_append.mp written with before | own
    · obtain ⟨binding, listed, writes⟩ := mem_argAccesses.mp before
      have binds := outputs binding (List.mem_append_left _ listed) other at_ writes equal
      have silent := (List.pairwise_append.mp inFront).2.2 binding listed arg
        (List.mem_cons_self ..) binds input _ found
      cases silent
    · have writes : .write other at_ ∈ argAccesses [arg] := by
        rw [split]
        exact List.mem_append_left _ own
      have binds := outputs arg member other at_ writes equal
      exact absurd (bindsOutput_of_isInput input) (by simp [binds])

/-- A path that makes the call unassigned reads the variable unassigned. -/
theorem CallsUnwritten.readUnwritten {pou : Pou Mark} {start : Nat} {key : String}
    {args : List (Arg Mark)} (calls : CallsUnwritten pou start key args)
    (inFront : InputsInFront args) (read : ReadByInput key args)
    (outputs : WrittenByOutputs key args) : ReadUnwritten pou start key := by
  obtain ⟨before, callee, at_, after, path, far, unwritten⟩ := calls
  obtain ⟨front, name, line, back, split, same, clean⟩ := read.unwritten inFront outputs
  refine ⟨before ++ accessed (.call callee at_ :: front), name, line, accessed back ++ after, ?_,
    same, ?_, ?_⟩
  · simpa [split, accessed] using path
  · rw [List.length_append]
    omega
  · intro other place written
    rcases List.mem_append.mp written with early | own
    · exact unwritten other place early
    · obtain ⟨access, member, equal⟩ := List.mem_map.mp own
      cases equal
      rcases List.mem_cons.mp member with call | inside
      · cases call
      · exact clean other place inside

/-- The accesses of a call come in the order of its arguments. So what inputs read comes before what
output bindings write exactly if no input that reads something stands behind an output binding; and
then a variable that has to be assigned and that only outputs of the call write is reported where an
input reads it on a path without an assignment. -/
theorem call_reads_before_writes (tag : Mark) (callee : String) (args : List (Arg Mark)) :
    exprAccesses (.call tag callee args) =
      .call callee tag.line :: (accessesByArg args).map Prod.snd ∧
    (ReadsFirst args ↔ InputsInFront args) ∧
    (ReadsFirst args → ∀ {strict file pou flow earlier later block decl},
      analyzePou strict file pou = .ok flow → pou.decls = earlier ++ (block, decl) :: later →
      needsAssignment strict block decl = true →
      CallsUnwritten pou (initialAccesses earlier).length (Text.upper decl.name) args →
      ReadByInput (Text.upper decl.name) args → WrittenByOutputs (Text.upper decl.name) args →
      flow.Reports (Text.upper decl.name)) := by
  refine ⟨?_, readsFirst_iff args, ?_⟩
  · rw [exprAccesses, accessesByArg_accesses]
  · intro first strict file pou flow earlier later block decl analyzed listed needs calls read
      outputs
    rw [analyzePou_eq_ok analyzed]
    exact reports_of_readUnwritten strict file listed needs
      (calls.readUnwritten ((readsFirst_iff args).mp first) read outputs)

/-- `start := p` -/
def startInput : Arg Mark := .mk (some "start") (.variable ⟨4, .line 4⟩ "p" [] [] false) false

/-- `result => p` -/
def resultOutput : Arg Mark := .mk (some "result") (.variable ⟨5, .line 4⟩ "p" [] [] false) true

/-- `VAR p : POINTER TO INT; END_VAR  Find(...);` -/
def findCall (args : List (Arg Mark)) : Pou Mark where
  tag := ⟨0, .lines 1 4⟩
  kind := .program
  name := "Main"
  blocks := [{
    tag := ⟨1, .line 1⟩
    scope := .local_
    decls := [
      { tag := ⟨2, .line 2⟩, name := "p", dataType := "POINTER TO INT", pointer := true }] }]
  body := [.call ⟨3, .line 4⟩ "Find" args]

theorem findCall_callsUnwritten (args : List (Arg Mark)) :
    CallsUnwritten (findCall args) 0 (Text.upper "p") args :=
  ⟨[.enter 3], "Find", 4, [], ⟨_, _, .next .call .done, rfl⟩, Nat.zero_le _, by simp⟩

theorem startInput_reads {args : List (Arg Mark)} (member : startInput ∈ args) :
    ReadByInput (Text.upper "p") args :=
  ⟨startInput, member, rfl, "p", 4, by decide, rfl⟩

/-- The pointer is given in as an input and got back as an output behind it. -/
theorem call_reads_before_writes_find : ∃ flow,
    analyzePou false "main.st" (findCall [startInput, resultOutput]) = .ok flow ∧
      ReadsFirst [startInput, resultOutput] ∧ flow.Reports (Text.upper "p") := by
  have analyzed : analyzePou false "main.st" (findCall [startInput, resultOutput]) =
      .ok (pouFlow false "main.st" (findCall [startInput, resultOutput])) := rfl
  have listed : (findCall [startInput, resultOutput]).decls = [] ++ (_, _) :: [] := rfl
  have first : ReadsFirst [startInput, resultOutput] := by decide
  have outputs : WrittenByOutputs (Text.upper "p") [startInput, resultOutput] := by
    intro arg member name line written _
    rw [List.mem_cons, List.mem_singleton] at member
    rcases member with rfl | rfl
    · simp [startInput, argAccesses, exprAccesses, indexAccesses] at written
    · rfl
  have ordered := (call_reads_before_writes ⟨3, .line 4⟩ "Find" [startInput, resultOutput]).2.2
  have reported := ordered first analyzed listed (by decide) (findCall_callsUnwritten _)
    (startInput_reads (List.mem_cons_self ..)) outputs
  exact ⟨_, analyzed, first, reported⟩

/-- With the output in front of the input, the pointer is written first and nothing is reported. -/
theorem findCall_output_hides_input : ∃ flow block decl,
    analyzePou false "main.st" (findCall [resultOutput, startInput]) = .ok flow ∧
      (block, decl) ∈ (findCall [resultOutput, startInput]).decls ∧
      needsAssignment false block decl = true ∧
      CallsUnwritten (findCall [resultOutput, startInput]) 0 (Text.upper decl.name)
        [resultOutput, startInput] ∧
      ReadByInput (Text.upper decl.name) [resultOutput, startInput] ∧
      ¬ ReadsFirst [resultOutput, startInput] ∧ ¬ flow.Reports (Text.upper decl.name) := by
  have nothing : (pouFlow false "main.st"
      (findCall [resultOutput, startInput])).uninitializedReads = [] := by decide
  exact ⟨_, _, _, rfl, .head _, by decide, findCall_callsUnwritten _, startInput_reads (by simp),
    by decide, PouFlow.not_reports_of_eq_nil nothing _⟩

end PlcAudit.Flow
