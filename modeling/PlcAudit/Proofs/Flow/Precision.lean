import PlcAudit.Proofs.Flow.Initialization

/-!
Precision of reported reads: behind every report stands a structural path that reads the variable
at the reported line. The pass forgets what the conditions of ELSIF clauses write, so a write made
there may come before the read; no other write of the variable does.
-/

namespace PlcAudit.Flow

open Code

/-- A variable under constants that are known, and the writes of it that are excused. -/
structure Suspect where
  constants : Constants
  key : String
  excused : Access → Prop

namespace Suspect

/-- Every write of the variable on a stretch of a path is excused. -/
def Spares (suspect : Suspect) (trace : List Event) : Prop :=
  ∀ name line, .access (.write name line) ∈ trace → Text.upper name = suspect.key →
    suspect.excused (.write name line)

/-- Some path leaves a piece of code this way and spares the variable. -/
def Spared (suspect : Suspect) (piece : Piece) (ending : Ending) : Prop :=
  ∃ trace, Path suspect.constants piece trace ending ∧ suspect.Spares trace

/-- Some path reads a name at a line and spares the variable until then. -/
def Reads (suspect : Suspect) (piece : Piece) (name : String) (line : Nat) : Prop :=
  ∃ before after ending,
    Path suspect.constants piece (before ++ .access (.read name line) :: after) ending ∧
      suspect.Spares before

/-- All paths through one piece of code are paths through another behind one stretch that spares
the variable. -/
def Opens (suspect : Suspect) (inner outer : Piece) : Prop :=
  ∃ front, suspect.Spares front ∧ ∀ trace ending, Path suspect.constants inner trace ending →
    Path suspect.constants outer (front ++ trace) ending

/-- Every exposed read of the variable among facts lies on a path that spares it until then, and
the variable is not assigned at the start. -/
def Shown (suspect : Suspect) (piece : Piece) (assigned : Names) (facts : List Fact) : Prop :=
  ∀ name line, .read name line true ∈ facts → Text.upper name = suspect.key →
    suspect.key ∉ assigned ∧ suspect.Reads piece name line

variable {suspect : Suspect} {piece inner outer : Piece} {ending : Ending}
variable {assigned before : Names} {first second : List Event} {facts more : List Fact}

theorem spares_nil : suspect.Spares [] := fun _ _ member => absurd member List.not_mem_nil

theorem Spares.append (front : suspect.Spares first) (back : suspect.Spares second) :
    suspect.Spares (first ++ second) := fun name line member =>
  (List.mem_append.mp member).elim (front name line) (back name line)

theorem Spares.enter {id : Nat} (spares : suspect.Spares first) :
    suspect.Spares (.enter id :: first) := by
  intro name line member
  rcases List.mem_cons.mp member with same | later
  · cases same
  · exact spares name line later

/-- Accesses that are excused spare the variable. -/
theorem spares_of_excused {accesses : List Access}
    (excused : ∀ access ∈ accesses, suspect.excused access) :
    suspect.Spares (accessed accesses) := by
  intro name line member _
  obtain ⟨access, present, same⟩ := List.mem_map.mp member
  cases same
  exact excused _ present

theorem Opens.spared (opens : suspect.Opens inner outer) (spared : suspect.Spared inner ending) :
    suspect.Spared outer ending := by
  obtain ⟨front, spares, leads⟩ := opens
  obtain ⟨trace, path, kept⟩ := spared
  exact ⟨_, leads _ _ path, spares.append kept⟩

theorem Opens.reads {name : String} {line : Nat} (opens : suspect.Opens inner outer)
    (reads : suspect.Reads inner name line) : suspect.Reads outer name line := by
  obtain ⟨front, spares, leads⟩ := opens
  obtain ⟨before, after, ending, path, kept⟩ := reads
  refine ⟨front ++ before, after, ending, ?_, spares.append kept⟩
  simpa using leads _ _ path

theorem Opens.trans {middle : Piece} (one : suspect.Opens inner middle)
    (two : suspect.Opens middle outer) : suspect.Opens inner outer := by
  obtain ⟨front, spares, leads⟩ := two
  obtain ⟨back, kept, follows⟩ := one
  refine ⟨front ++ back, spares.append kept, fun trace ending path => ?_⟩
  simpa using leads _ _ (follows _ _ path)

theorem Shown.append (front : suspect.Shown piece assigned facts)
    (back : suspect.Shown piece assigned more) : suspect.Shown piece assigned (facts ++ more) :=
  fun name line member => (List.mem_append.mp member).elim (front name line) (back name line)

theorem shown_of_silent (silent : Silent facts) : suspect.Shown piece assigned facts := by
  intro name line member _
  have unseen := silent.event _ member
  simp [Fact.event?] at unseen

/-- Facts of an inner piece hold for the outer one it opens, if nothing was unassigned between. -/
theorem Shown.lift (shown : suspect.Shown inner before facts) (kept : assigned ⊆ before)
    (opens : suspect.key ∉ before → suspect.Opens inner outer) :
    suspect.Shown outer assigned facts := by
  intro name line member same
  obtain ⟨unassigned, reads⟩ := shown name line member same
  exact ⟨fun early => unassigned (kept early), (opens unassigned).reads reads⟩

end Suspect

/-! Accesses -/

section Accesses

variable {suspect : Suspect} {reachable : Bool} {assigned : Names} {accesses : List Access}

/-- Accesses only add to the names assigned. -/
theorem subset_observe : assigned ⊆ (observe reachable assigned accesses).2 := by
  induction accesses generalizing assigned with
  | nil => exact List.Subset.refl _
  | cons access rest ih =>
    rcases access with ⟨name, line⟩ | ⟨name, line⟩ | ⟨name, line⟩
    case write => exact fun key member => ih (Names.mem_insert.mpr (.inr member))
    all_goals exact ih

/-- A name that is not assigned after some accesses is not written by them. -/
theorem spares_of_observe (unassigned : suspect.key ∉ (observe reachable assigned accesses).2) :
    suspect.Spares (accessed accesses) := by
  induction accesses generalizing assigned with
  | nil => exact Suspect.spares_nil
  | cons access rest ih =>
    intro name line member same
    rcases List.mem_cons.mp member with here | later
    · cases here
      have written : suspect.key ∈ (observe reachable (assigned.insert name) rest).2 :=
        subset_observe (Names.mem_insert.mpr (.inl same.symm))
      exact absurd written unassigned
    · rcases access with ⟨other, at_⟩ | ⟨other, at_⟩ | ⟨other, at_⟩
      all_goals exact ih unassigned name line later same

/-- An exposed read stands behind accesses that do not write the variable. -/
theorem observe_read {name : String} {line : Nat}
    (member : .read name line true ∈ (observe reachable assigned accesses).1) :
    ∃ front back, accesses = front ++ .read name line :: back ∧
      Text.upper name ∉ (observe reachable assigned front).2 := by
  induction accesses generalizing assigned with
  | nil => simp [observe] at member
  | cons access rest ih =>
    rcases access with ⟨other, at_⟩ | ⟨other, at_⟩ | ⟨other, at_⟩
    case read =>
      rcases List.mem_cons.mp member with here | later
      · simp only [Fact.read.injEq] at here
        obtain ⟨rfl, rfl, exposed⟩ := here
        refine ⟨[], rest, rfl, ?_⟩
        simpa [observe] using (Bool.and_eq_true_iff.mp exposed.symm).2
      · obtain ⟨front, back, split, unassigned⟩ := ih later
        exact ⟨_ :: front, back, congrArg _ split, unassigned⟩
    all_goals
      rcases List.mem_cons.mp member with here | later
      · cases here
      · obtain ⟨front, back, split, unassigned⟩ := ih later
        exact ⟨_ :: front, back, congrArg _ split, unassigned⟩

/-- Accesses that a path meets first show what they read. -/
theorem shown_observe {piece : Piece} (reachable : Bool) (assigned : Names)
    (met : ∃ trace ending, Path suspect.constants piece (accessed accesses ++ trace) ending) :
    suspect.Shown piece assigned (observe reachable assigned accesses).1 := by
  intro name line member same
  obtain ⟨front, back, split, unassigned⟩ := observe_read member
  obtain ⟨trace, ending, path⟩ := met
  rw [same] at unassigned
  refine ⟨fun early => unassigned (subset_observe early), accessed front, accessed back ++ trace,
    ending, ?_, spares_of_observe unassigned⟩
  simpa [split, accessed] using path

end Accesses

/-- What the pass says of the variable behind a piece of code, with the names assigned before it: a
path that spares the variable wherever it is not assigned. -/
structure Outcome.Precise (suspect : Suspect) (piece : Piece) (assigned : Names)
    (outcome : Outcome) : Prop where
  kept : assigned ⊆ outcome.assigned
  falls : outcome.stops = false → suspect.key ∉ outcome.assigned → suspect.Spared piece .falls
  exits : ∀ state ∈ outcome.exits, assigned ⊆ state ∧
    (suspect.key ∉ state → suspect.Spared piece .exits)
  reads : suspect.Shown piece assigned outcome.facts

/-- Code that only makes accesses. -/
theorem precise_accesses {suspect : Suspect} {piece : Piece} {accesses : List Access}
    (reachable : Bool) (assigned : Names)
    (path : Path suspect.constants piece (accessed accesses) .falls) :
    Outcome.Precise suspect piece assigned
      { assigned := (observe reachable assigned accesses).2
        facts := (observe reachable assigned accesses).1 } where
  kept := subset_observe
  falls := fun _ unassigned => ⟨_, path, spares_of_observe unassigned⟩
  exits := fun _ member => absurd member List.not_mem_nil
  reads := shown_observe _ _ ⟨[], _, by simpa using path⟩

theorem Names.mem_common {states : List Names} {fallback : Names} {key : String}
    (nonempty : states ≠ []) :
    key ∈ (Names.common? states).getD fallback ↔ ∀ state ∈ states, key ∈ state := by
  cases states with
  | nil => exact absurd rfl nonempty
  | cons first rest => simp [Names.common?]

/-- A name that not all of several lists have is missing in one of them. -/
theorem Names.missing_of_common {states : List Names} {fallback : Names} {key : String}
    (nonempty : states ≠ []) (missing : key ∉ (Names.common? states).getD fallback) :
    ∃ state ∈ states, key ∉ state := by
  simpa [Names.mem_common nonempty] using missing

/-- What all lists have is kept by what they have in common. -/
theorem Names.subset_common {states : List Names} {names fallback : Names}
    (every : ∀ state ∈ states, names ⊆ state) (otherwise : names ⊆ fallback) :
    names ⊆ (Names.common? states).getD fallback := by
  cases states with
  | nil => exact otherwise
  | cons first rest =>
    intro key member
    exact (Names.mem_common (by simp)).mpr fun state present => every state present member

namespace Branches

/-- The same for the branches of a conditional statement, which all begin with the same names. -/
structure Precise (suspect : Suspect) (piece : Piece) (assigned before : Names)
    (branches : Branches) : Prop where
  begins : assigned ⊆ before
  ends : ∀ state ∈ branches.ends, before ⊆ state ∧
    (suspect.key ∉ state → suspect.Spared piece .falls)
  nonempty : branches.allStop = false → branches.ends ≠ []
  exits : ∀ state ∈ branches.exits, before ⊆ state ∧
    (suspect.key ∉ state → suspect.Spared piece .exits)
  reads : suspect.Shown piece assigned branches.facts

variable {suspect : Suspect} {piece : Piece} {assigned before : Names} {branches : Branches}
variable {walked : Outcome} {body : List (Stmt Mark)}

/-- Branches behind accesses that every path meets first. -/
theorem Precise.start {accesses : List Access} (reachable : Bool) (assigned : Names)
    (met : ∃ trace ending, Path suspect.constants piece (accessed accesses ++ trace) ending) :
    Precise suspect piece assigned (observe reachable assigned accesses).2
      { facts := (observe reachable assigned accesses).1 } :=
  ⟨subset_observe, by simp, by simp, by simp, shown_observe _ _ met⟩

theorem Precise.note {facts : List Fact} (known : branches.Precise suspect piece assigned before)
    (shown : suspect.Shown piece assigned facts) :
    (branches.note facts).Precise suspect piece assigned before :=
  ⟨known.begins, known.ends, known.nonempty, known.exits, known.reads.append shown⟩

theorem Precise.skip (known : branches.Precise suspect piece assigned before)
    (past : suspect.key ∉ before → suspect.Spared piece .falls) :
    (branches.skip before).Precise suspect piece assigned before where
  begins := known.begins
  ends := fun state member => by
    rcases List.mem_append.mp member with old | new
    · exact known.ends state old
    · rw [List.mem_singleton.mp new]
      exact ⟨List.Subset.refl _, past⟩
  nonempty := fun _ => by simp [Branches.skip]
  exits := known.exits
  reads := known.reads

/-- A branch that can run brings its own paths, behind the way that leads to it. -/
theorem Precise.join (known : branches.Precise suspect piece assigned before)
    (inside : walked.Precise suspect (.block body) before)
    (opens : suspect.key ∉ before → suspect.Opens (.block body) piece) :
    (branches.join walked).Precise suspect piece assigned before where
  begins := known.begins
  ends := fun state member => by
    by_cases stops : walked.stops = true
    · exact known.ends state (by simpa [Branches.join, stops] using member)
    · simp only [Branches.join, stops] at member
      rcases List.mem_append.mp member with old | new
      · exact known.ends state old
      · rw [List.mem_singleton.mp new]
        refine ⟨inside.kept, fun missing => ?_⟩
        exact (opens fun early => missing (inside.kept early)).spared
          (inside.falls (by simpa using stops) missing)
  nonempty := fun goesOn => by
    rcases Bool.and_eq_false_iff.mp goesOn with old | new
    · have nonempty := known.nonempty old
      by_cases stops : walked.stops = true <;> simp [Branches.join, stops, nonempty]
    · simp [Branches.join, new]
  exits := fun state member => by
    rcases List.mem_append.mp member with old | new
    · exact known.exits state old
    · obtain ⟨kept, leaves⟩ := inside.exits state new
      exact ⟨kept, fun missing => (opens fun early => missing (kept early)).spared (leaves missing)⟩
  reads := known.reads.append (inside.reads.lift known.begins opens)

theorem Precise.add {constant : Option Bool} (context : Context) (line : Nat)
    (known : branches.Precise suspect piece assigned before)
    (inside : branches.isLive constant = true → walked.Precise suspect (.block body) before)
    (dead : branches.isLive constant = false → Silent walked.facts)
    (opens : branches.decided = none → constant ≠ some false → suspect.key ∉ before →
      suspect.Opens (.block body) piece) :
    (branches.add context constant line body walked).Precise suspect piece assigned before := by
  unfold Branches.add
  split
  · rename_i trueLine decided
    have silent := dead (by simp [isLive, decided])
    exact known.note (Suspect.shown_of_silent ((silent_deadFact ..).append silent))
  · rename_i undecided
    split
    · have silent := dead (by simp [isLive])
      exact known.note (Suspect.shown_of_silent ((silent_deadFact ..).append silent))
    · have joined := known.join (inside (by simp [isLive, undecided]))
        (opens undecided (by simp))
      exact ⟨joined.begins, joined.ends, joined.nonempty, joined.exits, joined.reads⟩
    · exact known.join (inside (by simp [isLive, undecided])) (opens undecided (by simp))

theorem Precise.outcome (known : branches.Precise suspect piece assigned before) (line : Nat) :
    (branches.outcome before line).Precise suspect piece assigned where
  kept := List.Subset.trans known.begins
    (Names.subset_common (fun state member => (known.ends state member).1) (List.Subset.refl _))
  falls := fun goesOn missing => by
    obtain ⟨state, member, absent⟩ := Names.missing_of_common (known.nonempty goesOn) missing
    exact (known.ends state member).2 absent
  exits := fun state member =>
    ⟨List.Subset.trans known.begins (known.exits state member).1, (known.exits state member).2⟩
  reads := known.reads

end Branches

section Loops

variable {suspect : Suspect} {body : List (Stmt Mark)} {name : String} {line : Nat}

theorem Suspect.Reads.round (condition : List Access)
    (reads : suspect.Reads (.block body) name line) :
    suspect.Reads (.rounds condition body) name line := by
  obtain ⟨before, after, ending, path, spares⟩ := reads
  cases ending with
  | falls => exact ⟨before, _, _, by simpa using Path.round path .enough, spares⟩
  | exits => exact ⟨before, after, _, .roundExit path, spares⟩
  | returns => exact ⟨before, after, _, .roundReturn path, spares⟩

theorem Suspect.Reads.repeat {tag : Mark} {until_ : Expr Mark}
    (reads : suspect.Reads (.block body) name line) :
    suspect.Reads (.stmt (.repeatLoop tag body until_)) name line := by
  obtain ⟨before, after, ending, path, spares⟩ := reads
  cases ending with
  | falls => exact ⟨before, _, _, by simpa using Path.repeatLoop path .enough, spares⟩
  | exits => exact ⟨before, after, _, .repeatExit path, spares⟩
  | returns => exact ⟨before, after, _, .repeatReturn path, spares⟩

/-- A loop that may turn zero times keeps the names assigned before its first turn. -/
theorem precise_loop {piece : Piece} {inner : Outcome} {assigned : Names} {reachable : Bool}
    {head turn : List Access}
    (inside : inner.Precise suspect (.block body) (observe reachable assigned head).2)
    (leads : ∀ trace ending, Path suspect.constants (.rounds turn body) trace ending →
      Path suspect.constants piece (accessed head ++ trace) ending) :
    Outcome.Precise suspect piece assigned
      { assigned := (observe reachable assigned head).2
        facts := (observe reachable assigned head).1 ++ inner.facts } where
  kept := subset_observe
  falls := fun _ unassigned =>
    ⟨_, leads _ _ .enough, (spares_of_observe unassigned).append Suspect.spares_nil⟩
  exits := fun _ member => absurd member List.not_mem_nil
  reads := by
    refine Suspect.Shown.append (shown_observe _ _ ⟨_, _, leads _ _ .enough⟩) ?_
    have turns : suspect.Shown (.rounds turn body) (observe reachable assigned head).2
        inner.facts := fun name line member same =>
      ⟨(inside.reads name line member same).1, (inside.reads name line member same).2.round turn⟩
    exact turns.lift subset_observe fun unassigned => ⟨_, spares_of_observe unassigned, leads⟩

/-- REPEAT goes on behind its condition or behind an EXIT. -/
theorem precise_repeat {context : Context} {assigned : Names} {until_ : Expr Mark} {tag : Mark}
    (realized : (blockFlow context.inLoop assigned body).Realized suspect.constants (.block body))
    (inside : (blockFlow context.inLoop assigned body).Precise suspect (.block body) assigned) :
    (stmtFlow context assigned (.repeatLoop tag body until_)).Precise suspect
      (.stmt (.repeatLoop tag body until_)) assigned := by
  simp only [stmtFlow]
  generalize blockFlow context.inLoop assigned body = inner at realized inside ⊢
  generalize met : observe (context.reachable && !inner.stops) inner.assigned
    (exprAccesses until_) = observed
  have after : inner.assigned ⊆ observed.2 := met ▸ subset_observe
  -- The state at each end of the loop, with a path that gets there.
  have ends : ∀ state ∈ (if inner.stops then inner.exits else inner.exits ++ [observed.2]),
      assigned ⊆ state ∧ (suspect.key ∉ state →
        suspect.Spared (.stmt (.repeatLoop tag body until_)) .falls) := by
    intro state member
    have leaves : state ∈ inner.exits → assigned ⊆ state ∧ (suspect.key ∉ state →
        suspect.Spared (.stmt (.repeatLoop tag body until_)) .falls) := fun exit => by
      obtain ⟨kept, leaves⟩ := inside.exits state exit
      refine ⟨kept, fun missing => ?_⟩
      obtain ⟨trace, path, spares⟩ := leaves missing
      exact ⟨trace, .repeatExit path, spares⟩
    by_cases stops : inner.stops = true
    · exact leaves (by simpa [stops] using member)
    · simp only [stops] at member
      rcases List.mem_append.mp member with exit | last
      · exact leaves exit
      · rw [List.mem_singleton.mp last]
        refine ⟨List.Subset.trans inside.kept after, fun missing => ?_⟩
        obtain ⟨trace, path, spares⟩ :=
          inside.falls (by simpa using stops) fun early => missing (after early)
        have condition : suspect.Spares (accessed (exprAccesses until_)) :=
          spares_of_observe (met ▸ missing)
        exact ⟨_, .repeatLoop path .enough, (spares.append condition).append Suspect.spares_nil⟩
  refine ⟨?_, ?_, fun _ member => absurd member List.not_mem_nil, ?_⟩
  · exact Names.subset_common (fun state member => (ends state member).1) (List.Subset.refl _)
  · intro goesOn missing
    have nonempty : (if inner.stops then inner.exits else inner.exits ++ [observed.2]) ≠ [] := by
      by_cases stops : inner.stops = true
      · by_cases returns : inner.returns = true
        · simpa [stops, returns] using goesOn
        · simpa [stops] using realized.leaves stops (by simpa using returns)
      · simp [stops]
    obtain ⟨state, member, absent⟩ := Names.missing_of_common nonempty missing
    exact (ends state member).2 absent
  · refine Suspect.Shown.append (fun name line member same => ?_) ?_
    · exact ⟨(inside.reads name line member same).1, (inside.reads name line member same).2.repeat⟩
    · subst met
      by_cases stops : inner.stops = true
      · simp only [stops, Bool.not_true, Bool.and_false]
        exact Suspect.shown_of_silent (silent_observe ..)
      · intro name line member same
        obtain ⟨front, back, split, unassigned⟩ := observe_read member
        rw [same] at unassigned
        have missing : suspect.key ∉ inner.assigned := fun early =>
          unassigned (subset_observe early)
        obtain ⟨trace, path, spares⟩ := inside.falls (by simpa using stops) missing
        refine ⟨fun early => missing (inside.kept early), trace ++ accessed front, accessed back,
          .falls, ?_, spares.append (spares_of_observe unassigned)⟩
        have whole : Path suspect.constants (.stmt (.repeatLoop tag body until_)) _ .falls :=
          .repeatLoop path .enough
        simpa [split, accessed] using whole

end Loops

section Blocks

variable {suspect : Suspect} {stmt : Stmt Mark} {rest : List (Stmt Mark)}

theorem Suspect.Reads.head {name : String} {line : Nat}
    (reads : suspect.Reads (.stmt stmt) name line) :
    suspect.Reads (.block (stmt :: rest)) name line := by
  obtain ⟨before, after, ending, path, spares⟩ := reads
  by_cases goesOn : ending = .falls
  · subst goesOn
    obtain ⟨later, last, tail⟩ := block_has_path suspect.constants rest
    exact ⟨_ :: before, after ++ later, last, by simpa using Path.next path tail, spares.enter⟩
  · exact ⟨_ :: before, after, ending, .stop path goesOn, spares.enter⟩

/-- A statement at the head of a block: the rest begins with the names assigned behind it. -/
theorem precise_cons {context : Context} {assigned : Names}
    (head : (stmtFlow context assigned stmt).Precise suspect (.stmt stmt) assigned)
    (tail : (blockFlow context (stmtFlow context assigned stmt).assigned rest).Precise suspect
      (.block rest) (stmtFlow context assigned stmt).assigned) :
    (blockFlow context assigned (stmt :: rest)).Precise suspect (.block (stmt :: rest))
      assigned := by
  have entered : suspect.Shown (.block (stmt :: rest)) assigned
      (.statement stmt.tag.id context.info :: (stmtFlow context assigned stmt).facts) := by
    intro name line member same
    rcases List.mem_cons.mp member with other | inner
    · cases other
    · exact ⟨(head.reads name line inner same).1, (head.reads name line inner same).2.head⟩
  have leave : ∀ state ∈ (stmtFlow context assigned stmt).exits, assigned ⊆ state ∧
      (suspect.key ∉ state → suspect.Spared (.block (stmt :: rest)) .exits) := by
    intro state member
    refine ⟨(head.exits state member).1, fun missing => ?_⟩
    obtain ⟨trace, path, spares⟩ := (head.exits state member).2 missing
    exact ⟨_, .stop path (by simp), spares.enter⟩
  by_cases stops : (stmtFlow context assigned stmt).stops = true
  · simp only [blockFlow, stops, if_true]
    split
    · exact ⟨head.kept, by simp, leave, entered⟩
    · refine ⟨head.kept, by simp, leave, (entered.append ?_).append ?_⟩
      · exact Suspect.shown_of_silent (silent_deadFact ..)
      · exact Suspect.shown_of_silent (silent_block (by simp [Context.only]) _ rest)
  · have goesOn : (stmtFlow context assigned stmt).stops = false := by simpa using stops
    have opens : suspect.key ∉ (stmtFlow context assigned stmt).assigned →
        suspect.Opens (.block rest) (.block (stmt :: rest)) := fun missing => by
      obtain ⟨trace, path, spares⟩ := head.falls goesOn missing
      exact ⟨_, spares.enter, fun _ _ later => .next path later⟩
    rw [blockFlow_of_falls rest goesOn]
    refine ⟨List.Subset.trans head.kept tail.kept, fun falls missing => ?_, ?_, ?_⟩
    · exact (opens fun early => missing (tail.kept early)).spared (tail.falls falls missing)
    · intro state member
      rcases List.mem_append.mp member with first | later
      · exact leave state first
      · obtain ⟨kept, leaves⟩ := tail.exits state later
        exact ⟨List.Subset.trans head.kept kept, fun missing =>
          (opens fun early => missing (kept early)).spared (leaves missing)⟩
    · exact entered.append (tail.reads.lift head.kept opens)

end Blocks

/-- Whatever the condition of a clause does is excused. -/
def Suspect.ExcusesClauses (suspect : Suspect) (elsifs : List (Clause Mark)) : Prop :=
  ∀ clause ∈ elsifs, ∀ access ∈ exprAccesses clause.condition, suspect.excused access

/-- The same for the clauses of a statement, if it has any. -/
def Suspect.Excuses (suspect : Suspect) : Stmt Mark → Prop
  | .cond _ _ _ elsifs _ => suspect.ExcusesClauses elsifs
  | _ => True

mutual

/-- Wherever the pass misses an assignment of the variable, some path spares it, if the conditions
of ELSIF clauses are excused. -/
theorem stmt_precise {context : Context} {suspect : Suspect}
    (live : context.Live suspect.constants) (assigned : Names) :
    ∀ stmt, (∀ part ∈ stmtParts stmt, suspect.Excuses part) →
      (stmtFlow context assigned stmt).Precise suspect (.stmt stmt) assigned
  | .assign .., _ => by
    simp only [stmtFlow]
    exact precise_accesses _ _ .assign
  | .cond tag condition thenBody elsifs elseBody, excused => by
    simp only [stmtParts, List.forall_mem_cons, List.forall_mem_append] at excused
    obtain ⟨clauses, ⟨inThen, inClauses⟩, inElse⟩ := excused
    have inner := live.inConditional
    simp only [stmtFlow, live.constants]
    have started := Branches.Precise.start context.reachable assigned
      (met_first_cond suspect.constants tag condition thenBody elsifs elseBody)
    have spares : suspect.key ∉ (observe context.reachable assigned (exprAccesses condition)).2 →
        suspect.Spares (accessed (exprAccesses condition)) := spares_of_observe
    generalize (observe context.reachable assigned (exprAccesses condition)).2 = before
      at started spares ⊢
    have added := started.add context.inConditional tag.line
      (fun runs => block_precise (inner.only runs) before thenBody inThen)
      (fun never => silent_block (by simp [Context.only, never]) before thenBody)
      (fun _ open_ missing => ⟨_, spares missing, fun _ _ path => .thenBranch open_ path⟩)
    obtain ⟨known, opens⟩ := clauses_precise inner elsifs clauses inClauses added
      fun undecided missing => ⟨_, spares missing, fun _ _ path =>
        .pastThen (Branches.undecided_of_add undecided).2 path⟩
    exact (else_precise inner tag.line elseBody inElse known opens).outcome tag.line
  | .select tag selector elements elseBody, excused => by
    simp only [stmtParts, List.forall_mem_cons, List.forall_mem_append] at excused
    obtain ⟨_, inElements, inElse⟩ := excused
    have inner := live.inConditional
    obtain ⟨trace, ending, inside⟩ := else_has_path suspect.constants elseBody
    have met : Path suspect.constants (.stmt (.select tag selector elements elseBody))
        (accessed (exprAccesses selector) ++ trace) ending := .noElement inside
    simp only [stmtFlow]
    have started := Branches.Precise.start context.reachable assigned ⟨trace, ending, met⟩
    have spares : suspect.key ∉ (observe context.reachable assigned (exprAccesses selector)).2 →
        suspect.Spares (accessed (exprAccesses selector)) := spares_of_observe
    generalize (observe context.reachable assigned (exprAccesses selector)).2 = before
      at started spares ⊢
    have known := elements_precise inner elements inElements started
      fun labels body member missing => ⟨_, spares missing, fun _ _ path => .element member path⟩
    refine (else_precise inner tag.line elseBody inElse known ?_).outcome tag.line
    exact fun _ missing => ⟨_, spares missing, fun _ _ path => .noElement path⟩
  | .forLoop tag counter start stop step body, excused => by
    simp only [stmtParts, List.forall_mem_cons] at excused
    simp only [stmtFlow]
    exact precise_loop (block_precise live.inLoop _ body excused.2) fun _ _ => .forLoop
  | .whileLoop tag condition body, excused => by
    simp only [stmtParts, List.forall_mem_cons] at excused
    simp only [stmtFlow, live.constants]
    split
    · rename_i closed
      have path : Path suspect.constants (.stmt (.whileLoop tag condition body))
          (accessed (exprAccesses condition)) .falls := .whileNever closed
      have plain := precise_accesses context.reachable assigned path
      refine ⟨plain.kept, plain.falls, plain.exits, (plain.reads.append ?_).append ?_⟩
      · exact Suspect.shown_of_silent (silent_deadFact ..)
      · exact Suspect.shown_of_silent (silent_block (by simp [Context.only]) _ body)
    · rename_i open_
      exact precise_loop (block_precise live.inLoop _ body excused.2) fun _ _ => .whileLoop open_
  | .repeatLoop _ body _, excused => by
    simp only [stmtParts, List.forall_mem_cons] at excused
    exact precise_repeat (block_realized live.inLoop assigned body)
      (block_precise live.inLoop assigned body excused.2)
  | .exit _, _ => by
    simp only [stmtFlow, live.reachable, if_true]
    refine ⟨List.Subset.refl _, by simp, fun state member => ?_, Suspect.shown_of_silent .nil⟩
    rw [List.mem_singleton.mp member]
    exact ⟨List.Subset.refl _, fun _ => ⟨_, .exit, Suspect.spares_nil⟩⟩
  | .return_ _, _ => by
    simp only [stmtFlow]
    exact ⟨List.Subset.refl _, by simp, by simp, Suspect.shown_of_silent .nil⟩
  | .call .., _ => by
    simp only [stmtFlow]
    exact precise_accesses _ _ .call

theorem block_precise {context : Context} {suspect : Suspect}
    (live : context.Live suspect.constants) (assigned : Names) :
    ∀ body, (∀ part ∈ blockParts body, suspect.Excuses part) →
      (blockFlow context assigned body).Precise suspect (.block body) assigned
  | [], _ => by
    simp only [blockFlow]
    exact ⟨List.Subset.refl _, fun _ _ => ⟨_, .done, Suspect.spares_nil⟩, by simp,
      Suspect.shown_of_silent .nil⟩
  | stmt :: rest, excused => by
    simp only [blockParts, List.forall_mem_append] at excused
    exact precise_cons (stmt_precise live assigned stmt excused.1)
      (block_precise live _ rest excused.2)

theorem clauses_precise {context : Context} {suspect : Suspect} {piece : Piece}
    {branches : Branches} {assigned before : Names} {elseBody : Option (List (Stmt Mark))}
    (live : context.Live suspect.constants) (elsifs : List (Clause Mark))
    (clauses : suspect.ExcusesClauses elsifs)
    (excused : ∀ part ∈ clauseParts elsifs, suspect.Excuses part)
    (known : branches.Precise suspect piece assigned before)
    (opens : branches.decided = none → suspect.key ∉ before →
      suspect.Opens (.clauses elsifs elseBody) piece) :
    (clauseFlow context before branches elsifs).Precise suspect piece assigned before ∧
      ((clauseFlow context before branches elsifs).decided = none → suspect.key ∉ before →
        suspect.Opens (.clauses [] elseBody) piece) := by
  match elsifs with
  | [] =>
    simp only [clauseFlow]
    exact ⟨known, opens⟩
  | .mk span condition body :: rest =>
    simp only [clauseParts, List.forall_mem_append] at excused
    simp only [clauseFlow, live.constants]
    have noted : (if branches.decided.isNone then
        branches.note (observe context.reachable before (exprAccesses condition)).1
        else branches).Precise suspect piece assigned before := by
      split
      · rename_i undecided
        have shown := shown_observe context.reachable before
          (met_first_clause suspect.constants span condition body rest elseBody)
        exact known.note (shown.lift known.begins (opens (by simpa using undecided)))
      · exact known
    have same : (if branches.decided.isNone then
        branches.note (observe context.reachable before (exprAccesses condition)).1
        else branches).decided = branches.decided := by split <;> rfl
    generalize (if branches.decided.isNone then
        branches.note (observe context.reachable before (exprAccesses condition)).1
        else branches) = met at noted same ⊢
    have spares : suspect.Spares (accessed (exprAccesses condition)) :=
      Suspect.spares_of_excused (clauses _ (List.mem_cons_self ..))
    have added := noted.add context span.startLine
      (fun runs => block_precise (live.only runs) before body excused.1)
      (fun never => silent_block (by simp [Context.only, never]) before body)
      (fun undecided open_ missing => Suspect.Opens.trans
        ⟨_, spares, fun _ _ path => .clause open_ path⟩
        (opens (same.symm.trans undecided) missing))
    refine clauses_precise live rest
      (fun clause member => clauses clause (List.mem_cons_of_mem _ member))
      excused.2 added fun undecided missing => ?_
    obtain ⟨start, open_⟩ := Branches.undecided_of_add undecided
    exact Suspect.Opens.trans ⟨_, spares, fun _ _ path => .pastClause open_ path⟩
      (opens (same.symm.trans start) missing)

theorem elements_precise {context : Context} {suspect : Suspect} {piece : Piece}
    {branches : Branches} {assigned before : Names} (live : context.Live suspect.constants)
    (elements : List (Element Mark))
    (excused : ∀ part ∈ elementParts elements, suspect.Excuses part)
    (known : branches.Precise suspect piece assigned before)
    (opens : ∀ labels body, .mk labels body ∈ elements → suspect.key ∉ before →
      suspect.Opens (.block body) piece) :
    (elementFlow context before branches elements).Precise suspect piece assigned before := by
  match elements with
  | [] =>
    simp only [elementFlow]
    exact known
  | .mk labels body :: rest =>
    simp only [elementParts, List.forall_mem_append] at excused
    simp only [elementFlow]
    apply elements_precise live rest excused.2
    · exact known.join (block_precise live before body excused.1)
        (opens labels body (List.mem_cons_self ..))
    · exact fun labels body member => opens labels body (List.mem_cons_of_mem _ member)

theorem else_precise {context : Context} {suspect : Suspect} {piece : Piece}
    {branches : Branches} {assigned before : Names} (live : context.Live suspect.constants)
    (line : Nat) (elseBody : Option (List (Stmt Mark)))
    (excused : ∀ part ∈ elseParts elseBody, suspect.Excuses part)
    (known : branches.Precise suspect piece assigned before)
    (opens : branches.decided = none → suspect.key ∉ before →
      suspect.Opens (.clauses [] elseBody) piece) :
    (elseFlow context before line branches elseBody).Precise suspect piece assigned before := by
  match elseBody with
  | none =>
    simp only [elseFlow]
    split
    · exact known
    · rename_i undecided
      refine known.skip fun missing => ?_
      exact (opens (by simpa using undecided) missing).spared ⟨_, .past, Suspect.spares_nil⟩
  | some body =>
    simp only [elseFlow]
    split
    · rename_i trueLine decided
      have dead : (context.only branches.decided.isNone).reachable = false := by
        simp [Context.only, decided]
      exact known.note
        (Suspect.shown_of_silent ((silent_deadFact ..).append (silent_block dead before body)))
    · rename_i undecided
      refine known.join (block_precise (live.only (by simp [undecided])) before body excused)
        fun missing => ?_
      exact Suspect.Opens.trans
        ⟨[], Suspect.spares_nil, fun _ _ path => .elseBranch path⟩ (opens undecided missing)

end

/-! Units -/

theorem observe_append (reachable : Bool) (assigned : Names) (first second : List Access) :
    observe reachable assigned (first ++ second) =
      ((observe reachable assigned first).1 ++
        (observe reachable (observe reachable assigned first).2 second).1,
        (observe reachable (observe reachable assigned first).2 second).2) := by
  induction first generalizing assigned with
  | nil => rfl
  | cons access rest ih =>
    rcases access with ⟨name, line⟩ | ⟨name, line⟩ | ⟨name, line⟩ <;> simp [observe, ih]

/-- Declarations assign and read what their initial values do, one after another. -/
theorem Declared.addAll_observes (declared : Declared) (decls : Decls) :
    (declared.addAll decls).assigned =
        (observe true declared.assigned (initialAccesses decls)).2 ∧
      ∀ name line exposed, .read name line exposed ∈ (declared.addAll decls).facts →
        .read name line exposed ∈ declared.facts ∨
          .read name line exposed ∈
            (observe true declared.assigned (initialAccesses decls)).1 := by
  induction decls generalizing declared with
  | nil => exact ⟨rfl, fun _ _ _ => .inl⟩
  | cons head rest ih =>
    obtain ⟨block, decl⟩ := head
    obtain ⟨assigned, reads⟩ := ih (declared.add block decl)
    rw [initialAccesses_cons, observe_append]
    refine ⟨assigned, fun name line exposed member => ?_⟩
    rcases reads name line exposed member with early | late
    · have seen : .read name line exposed ∈ declared.facts ∨ .read name line exposed ∈
          (observe true declared.assigned (optionAccesses decl.initial)).1 := by
        simpa [Declared.add] using early
      exact seen.imp_right (List.mem_append_left _)
    · exact .inr (List.mem_append_right _ late)

/-- The condition of an ELSIF clause somewhere in a body makes the access. -/
def MadeInElsif (body : List (Stmt Mark)) (access : Access) : Prop :=
  ∃ tag condition thenBody elsifs elseBody,
    .cond tag condition thenBody elsifs elseBody ∈ blockParts body ∧
      ∃ clause ∈ elsifs, access ∈ exprAccesses clause.condition

/-- Every report has a structural path that reads the variable at the reported line, and no write
of the variable comes before that read but those in conditions of ELSIF clauses. -/
theorem report_on_path {strict : Bool} {file : String} {pou : Pou Mark} {flow : PouFlow}
    {report : UninitializedRead} (analyzed : analyzePou strict file pou = .ok flow)
    (member : report ∈ flow.uninitializedReads) :
    ∃ before name after, PouPath pou (before ++ .access (.read name report.line) :: after) ∧
      Text.upper name = Text.upper report.name ∧
      ∀ other at_, .access (.write other at_) ∈ before →
        Text.upper other = Text.upper report.name → MadeInElsif pou.body (.write other at_) := by
  rw [analyzePou_eq_ok analyzed] at member
  obtain ⟨name, fact, same⟩ := read_of_report member
  let suspect : Suspect :=
    ⟨(declarations pou).constants, Text.upper report.name, MadeInElsif pou.body⟩
  obtain ⟨assigned, reads⟩ := Declared.addAll_observes {} pou.decls
  rw [pouFacts_eq, List.mem_append] at fact
  rcases fact with initial | inBody
  · rcases reads name report.line true initial with start | observed
    · cases start
    · obtain ⟨front, back, split, unassigned⟩ := observe_read observed
      obtain ⟨inside, ending, path⟩ := block_has_path (declarations pou).constants pou.body
      have spares : suspect.Spares (accessed front) := spares_of_observe (same ▸ unassigned)
      refine ⟨accessed front, name, accessed back ++ inside, ⟨inside, ending, path, ?_⟩, same,
        spares⟩
      simp [split, accessed]
  · have excused : ∀ part ∈ blockParts pou.body, suspect.Excuses part := by
      intro part present
      cases part with
      | cond tag condition thenBody elsifs elseBody =>
        exact fun clause inside access made =>
          ⟨tag, condition, thenBody, elsifs, elseBody, present, clause, inside, made⟩
      | _ => trivial
    have precise : (bodyFlow pou).Precise suspect (.block pou.body) (declarations pou).assigned :=
      block_precise ⟨rfl, rfl⟩ _ pou.body excused
    obtain ⟨missing, before, after, ending, path, spares⟩ :=
      precise.reads name report.line inBody same
    refine ⟨accessed (initialAccesses pou.decls) ++ before, name, after,
      ⟨_, ending, path, by simp⟩, same, ?_⟩
    have start : suspect.Spares (accessed (initialAccesses pou.decls)) :=
      spares_of_observe (assigned ▸ missing)
    exact start.append spares

/-- `VAR p : POINTER TO INT; a : BOOL; q : POINTER TO INT; END_VAR` and
`IF a THEN ELSIF Find(result => p) THEN q := p; END_IF` -/
def elsifBinding : Pou Mark where
  tag := ⟨0, .lines 1 7⟩
  kind := .program
  name := "Main"
  blocks := [{
    tag := ⟨1, .line 1⟩
    scope := .local_
    decls := [
      { tag := ⟨2, .line 2⟩, name := "p", dataType := "POINTER TO INT", pointer := true },
      { tag := ⟨10, .line 3⟩, name := "a", dataType := "BOOL" },
      { tag := ⟨11, .line 3⟩, name := "q", dataType := "POINTER TO INT", pointer := true }] }]
  body := [.cond ⟨3, .lines 4 7⟩ (.variable ⟨4, .line 4⟩ "a" [] [] false) []
    [.mk (.lines 5 6) (.call ⟨5, .line 5⟩ "Find"
        [.mk (some "result") (.variable ⟨6, .line 5⟩ "p" [] [] false) true])
      [.assign ⟨7, .line 6⟩ { tag := ⟨8, .line 6⟩, name := "q" }
        (.variable ⟨9, .line 6⟩ "p" [] [] false)]]
    none]

theorem elsifBinding_reports :
    (pouFlow false "main.st" elsifBinding).uninitializedReads = [⟨"p", 6, 2⟩] := by decide

/-- The report of a variable that an ELSIF condition assigns, with the path that is behind it. -/
theorem report_on_path_elsifBinding : ∃ flow,
    analyzePou false "main.st" elsifBinding = .ok flow ∧
      ⟨"p", 6, 2⟩ ∈ flow.uninitializedReads ∧
      ∃ before name after, PouPath elsifBinding (before ++ .access (.read name 6) :: after) ∧
        Text.upper name = Text.upper "p" ∧
        ∀ other at_, .access (.write other at_) ∈ before → Text.upper other = Text.upper "p" →
          MadeInElsif elsifBinding.body (.write other at_) := by
  have analyzed : analyzePou false "main.st" elsifBinding =
      .ok (pouFlow false "main.st" elsifBinding) := rfl
  have member : ⟨"p", 6, 2⟩ ∈ (pouFlow false "main.st" elsifBinding).uninitializedReads := by
    rw [elsifBinding_reports]
    exact List.mem_singleton_self _
  exact ⟨_, analyzed, member, report_on_path analyzed member⟩

/-- Past the first condition, every path assigns the pointer in the second. -/
theorem elsifBinding_path {trace : List Event} (path : PouPath elsifBinding trace) :
    trace = [.enter 3, .access (.read "a" 4)] ∨
      ∃ later, trace = .enter 3 :: .access (.read "a" 4) :: .access (.call "Find" 5) ::
        .access (.write "p" 5) :: later := by
  have through : ∀ stmt inside ending, [stmt] = elsifBinding.body →
      Path (declarations elsifBinding).constants (.stmt stmt) inside ending →
      inside = [.access (.read "a" 4)] ∨ ∃ later, inside = .access (.read "a" 4) ::
        .access (.call "Find" 5) :: .access (.write "p" 5) :: later := by
    rintro stmt inside ending ⟨⟩ head
    cases head with
    | thenBranch _ inside => cases inside; exact .inl rfl
    | pastThen _ inside =>
      cases inside with
      | clause _ inside => exact .inr ⟨_, rfl⟩
      | pastClause _ inside => exact .inr ⟨_, rfl⟩
  obtain ⟨inside, ending, path, rfl⟩ := path
  generalize same : elsifBinding.body = body at path
  cases path with
  | done => cases same
  | next head tail =>
    cases same
    cases tail
    rcases through _ _ _ rfl head with none | ⟨later, some⟩
    · exact .inl (by rw [none]; rfl)
    · exact .inr ⟨later, by rw [some, List.append_nil]; rfl⟩
  | stop head leaves =>
    cases same
    rcases through _ _ _ rfl head with none | ⟨later, some⟩
    · exact .inl (by rw [none]; rfl)
    · exact .inr ⟨later, by rw [some]; rfl⟩

/-- A pointer is reported though every structural path that reads it has written it before. -/
theorem elsifBinding_assigned_yet_reported : ∃ flow report,
    analyzePou false "main.st" elsifBinding = .ok flow ∧ report ∈ flow.uninitializedReads ∧
      (elsifBinding.decls.map fun entry => Text.upper entry.2.name).Nodup ∧
      ¬ ReadUnwritten elsifBinding 0 (Text.upper report.name) := by
  refine ⟨pouFlow false "main.st" elsifBinding, ⟨"p", 6, 2⟩, rfl, ?_, ?_, ?_⟩
  · rw [elsifBinding_reports]
    exact List.mem_singleton_self _
  · decide
  · rintro ⟨before, name, line, after, path, same, -, unwritten⟩
    have exposed : Exposed [] (before ++ .access (.read name line) :: after) name line := by
      refine ⟨before, after, rfl, fun written => ?_⟩
      rcases mem_writtenAfter written with start | ⟨other, at_, present, equal⟩
      · cases start
      · exact unwritten other at_ present (equal.trans same)
    have behind : ∀ rest, Exposed [] (.enter 3 :: .access (.read "a" 4) :: rest) name line →
        Exposed [] rest name line := by
      intro rest early
      rcases early.of_cons with ⟨⟨⟩, _⟩ | early
      rcases early.of_cons with ⟨⟨⟩, _⟩ | late
      · exact absurd same (by decide)
      · exact late
    rcases elsifBinding_path path with whole | ⟨later, whole⟩
    · exact not_exposed_nil (behind [] (whole ▸ exposed))
    · rcases (behind _ (whole ▸ exposed)).of_cons with ⟨⟨⟩, _⟩ | late
      rcases late.of_cons with ⟨⟨⟩, _⟩ | last
      exact last.fresh (by rw [same]; exact List.mem_cons_self ..)

end PlcAudit.Flow
