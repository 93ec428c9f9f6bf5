import PlcAudit.Proofs.Flow.Coverage
import PlcAudit.Proofs.Flow.Noting

/-!
The converse of coverage: whatever the structural pass takes to be possible happens on some
structural path. Code that it takes for dead leaves no trace, and control goes on or leaves a loop
where the pass says so.
-/

namespace PlcAudit.Flow

open Code

/-- The event of a path that a fact speaks of: a statement that can be reached, or a read that some
path reaches without an assignment. -/
def Fact.event? : Fact → Option Event
  | .statement id info => if info.reachable then some (.enter id) else none
  | .read name line exposed => if exposed then some (.access (.read name line)) else none
  | _ => none

/-- Facts that speak of no event. -/
structure Silent (facts : List Fact) : Prop where
  event : ∀ fact ∈ facts, fact.event? = none

theorem Silent.nil : Silent [] := ⟨fun _ member => absurd member List.not_mem_nil⟩

theorem Silent.append {first second : List Fact} (front : Silent first) (back : Silent second) :
    Silent (first ++ second) :=
  ⟨fun fact member => (List.mem_append.mp member).elim (front.event fact) (back.event fact)⟩

theorem Silent.cons {fact : Fact} {rest : List Fact} (unseen : fact.event? = none)
    (silent : Silent rest) : Silent (fact :: rest) :=
  ⟨fun other member => (List.mem_cons.mp member).elim (fun same => same ▸ unseen)
    (silent.event other)⟩

theorem silent_deadFact (context : Context) (kind : DeadKind) (startLine endLine : Nat)
    (description : String) : Silent (context.deadFact kind startLine endLine description) := by
  unfold Context.deadFact
  split
  · exact .cons rfl .nil
  · exact .nil

/-- Where code never runs, no fact speaks of an event. -/
theorem kept_silent :
    Kept fun reachable fact => reachable = false → fact.event? = none where
  read := by
    intro reachable name line exposed runs dead
    have hidden : exposed = false := by
      cases exposed with
      | false => rfl
      | true => exact absurd (runs rfl) (by simp [dead])
    simp [Fact.event?, hidden]
  write := fun _ _ _ _ => rfl
  call := fun _ _ _ _ => rfl
  statement := fun id info dead => by simp [Fact.event?, dead]
  dead := fun _ _ _ _ _ _ => rfl
  around := fun _ _ live => absurd live (by simp)

/-- Dead code speaks of no event. -/
theorem silent_block {context : Context} (dead : context.reachable = false) (assigned : Names)
    (body : List (Stmt Mark)) : Silent (blockFlow context assigned body).facts :=
  ⟨fun fact member => kept_block kept_silent context assigned body fact member dead⟩

theorem silent_observe (assigned : Names) (accesses : List Access) :
    Silent (observe false assigned accesses).1 :=
  ⟨fun fact member => kept_silent.observed fact member rfl⟩

/-! Paths that exist -/

section Existence

variable (constants : Constants)

mutual

/-- Every piece of code has a structural path. -/
theorem stmt_has_path : ∀ stmt, ∃ trace ending, Path constants (.stmt stmt) trace ending
  | .assign .. => ⟨_, _, .assign⟩
  | .cond _ condition thenBody elsifs elseBody => by
    by_cases open_ : foldCondition constants condition = some true
    · obtain ⟨trace, ending, inside⟩ := block_has_path thenBody
      exact ⟨_, ending, .thenBranch (by simp [open_]) inside⟩
    · obtain ⟨trace, ending, inside⟩ := clauses_have_path (else_has_path elseBody) elsifs
      exact ⟨_, ending, .pastThen open_ inside⟩
  | .select _ _ _ elseBody => by
    obtain ⟨trace, ending, inside⟩ := else_has_path elseBody
    exact ⟨_, ending, .noElement inside⟩
  | .forLoop .. => ⟨_, _, .forLoop .enough⟩
  | .whileLoop _ condition _ => by
    by_cases closed : foldCondition constants condition = some false
    · exact ⟨_, _, .whileNever closed⟩
    · exact ⟨_, _, .whileLoop closed .enough⟩
  | .repeatLoop _ body _ => by
    obtain ⟨trace, ending, inside⟩ := block_has_path body
    cases ending with
    | falls => exact ⟨_, _, .repeatLoop inside .enough⟩
    | exits => exact ⟨_, _, .repeatExit inside⟩
    | returns => exact ⟨_, _, .repeatReturn inside⟩
  | .exit _ => ⟨_, _, .exit⟩
  | .return_ _ => ⟨_, _, .return_⟩
  | .call .. => ⟨_, _, .call⟩

theorem block_has_path : ∀ body, ∃ trace ending, Path constants (.block body) trace ending
  | [] => ⟨_, _, .done⟩
  | stmt :: rest => by
    obtain ⟨trace, ending, head⟩ := stmt_has_path stmt
    by_cases goesOn : ending = .falls
    · subst goesOn
      obtain ⟨later, last, tail⟩ := block_has_path rest
      exact ⟨_, last, .next head tail⟩
    · exact ⟨_, ending, .stop head goesOn⟩

theorem clauses_have_path {elseBody : Option (List (Stmt Mark))}
    (last : ∃ trace ending, Path constants (.clauses [] elseBody) trace ending) :
    ∀ elsifs, ∃ trace ending, Path constants (.clauses elsifs elseBody) trace ending
  | [] => last
  | .mk span condition body :: rest => by
    by_cases open_ : foldCondition constants condition = some true
    · obtain ⟨trace, ending, inside⟩ := block_has_path body
      exact ⟨_, ending, .clause (by simp [open_]) inside⟩
    · obtain ⟨trace, ending, inside⟩ := clauses_have_path last rest
      exact ⟨_, ending, .pastClause open_ inside⟩

theorem else_has_path :
    ∀ elseBody, ∃ trace ending, Path constants (.clauses [] elseBody) trace ending
  | none => ⟨_, _, .past⟩
  | some body => by
    obtain ⟨trace, ending, inside⟩ := block_has_path body
    exact ⟨_, ending, .elseBranch inside⟩

end

end Existence

/-- An event that happens on some path. -/
def OnPath (constants : Constants) (piece : Piece) (event : Event) : Prop :=
  ∃ trace ending, Path constants piece trace ending ∧ event ∈ trace

/-- Every path through one piece of code is the last stretch of a path through another. -/
def Leads (constants : Constants) (inner outer : Piece) : Prop :=
  ∀ trace ending, Path constants inner trace ending →
    ∃ front, Path constants outer (front ++ trace) ending

theorem Leads.trans {constants : Constants} {first second third : Piece}
    (inner : Leads constants first second) (outer : Leads constants second third) :
    Leads constants first third := by
  intro trace ending path
  obtain ⟨front, middle⟩ := inner trace ending path
  obtain ⟨start, whole⟩ := outer _ ending middle
  exact ⟨start ++ front, by simpa using whole⟩

theorem Leads.onPath {constants : Constants} {inner outer : Piece} {event : Event}
    (leads : Leads constants inner outer) (happens : OnPath constants inner event) :
    OnPath constants outer event := by
  obtain ⟨trace, ending, path, member⟩ := happens
  obtain ⟨front, whole⟩ := leads trace ending path
  exact ⟨_, ending, whole, List.mem_append_right _ member⟩

/-- Facts whose events happen on paths through a piece of code. -/
def Happens (constants : Constants) (piece : Piece) (facts : List Fact) : Prop :=
  ∀ fact ∈ facts, ∀ event, fact.event? = some event → OnPath constants piece event

theorem Silent.happens {facts : List Fact} (silent : Silent facts) (constants : Constants)
    (piece : Piece) : Happens constants piece facts := by
  intro fact member event shown
  rw [silent.event fact member] at shown
  cases shown

theorem Happens.append {constants : Constants} {piece : Piece} {first second : List Fact}
    (front : Happens constants piece first) (back : Happens constants piece second) :
    Happens constants piece (first ++ second) := fun fact member =>
  (List.mem_append.mp member).elim (front fact) (back fact)

theorem observe_event_mem {reachable : Bool} {assigned : Names} {accesses : List Access}
    {fact : Fact} {event : Event} (member : fact ∈ (observe reachable assigned accesses).1)
    (shown : fact.event? = some event) : event ∈ accessed accesses := by
  induction accesses generalizing assigned with
  | nil => simp [observe] at member
  | cons access rest ih =>
    rcases access with ⟨name, line⟩ | ⟨name, line⟩ | ⟨name, line⟩
    · rcases List.mem_cons.mp member with same | later
      · subst fact
        simp only [Fact.event?] at shown
        split at shown
        · cases shown
          exact List.mem_cons_self ..
        · cases shown
      · exact List.mem_cons_of_mem _ (ih later)
    all_goals
      rcases List.mem_cons.mp member with same | later
      · subst fact
        cases shown
      · exact List.mem_cons_of_mem _ (ih later)

/-- Accesses that every path meets happen on one. -/
theorem happens_observe {constants : Constants} {piece : Piece} {accesses : List Access}
    (reachable : Bool) (assigned : Names)
    (met : ∃ trace ending, Path constants piece (accessed accesses ++ trace) ending) :
    Happens constants piece (observe reachable assigned accesses).1 := by
  intro fact member event shown
  obtain ⟨trace, ending, path⟩ := met
  exact ⟨_, ending, path, List.mem_append_left _ (observe_event_mem member shown)⟩

/-- What the pass takes to be possible for a piece of code happens on a path through it. -/
structure Outcome.Realized (constants : Constants) (piece : Piece) (outcome : Outcome) : Prop where
  falls : outcome.stops = false → ∃ trace, Path constants piece trace .falls
  exits : outcome.exits ≠ [] → ∃ trace, Path constants piece trace .exits
  leaves : outcome.stops = true → outcome.returns = false → outcome.exits ≠ []
  facts : Happens constants piece outcome.facts

/-- Code that goes on and leaves no loop. -/
theorem realized_of_falls {constants : Constants} {piece : Piece} {assigned : Names}
    {facts : List Fact} (goesOn : ∃ trace, Path constants piece trace .falls)
    (happens : Happens constants piece facts) :
    Outcome.Realized constants piece { assigned, facts } where
  falls := fun _ => goesOn
  exits := fun nonempty => absurd rfl nonempty
  leaves := fun stops => absurd stops (by simp)
  facts := happens

namespace Branches

/-- The same for the branches of a conditional statement. -/
structure Realized (constants : Constants) (piece : Piece) (branches : Branches) : Prop where
  falls : branches.allStop = false → ∃ trace, Path constants piece trace .falls
  exits : branches.exits ≠ [] → ∃ trace, Path constants piece trace .exits
  leaves : branches.allReturn = false → branches.exits ≠ []
  facts : Happens constants piece branches.facts

variable {constants : Constants} {piece : Piece} {branches : Branches} {walked : Outcome}
variable {body : List (Stmt Mark)}

theorem Realized.start {facts : List Fact} (happens : Happens constants piece facts) :
    Realized constants piece { facts } :=
  ⟨by simp, by simp, by simp, happens⟩

theorem Realized.outcome (known : branches.Realized constants piece) (before : Names)
    (line : Nat) : (branches.outcome before line).Realized constants piece where
  falls := known.falls
  exits := known.exits
  leaves := fun stops returns => by
    have all : branches.allStop = true := stops
    exact known.leaves (by simpa [Branches.outcome, all] using returns)
  facts := known.facts

theorem Realized.note {facts : List Fact} (known : branches.Realized constants piece)
    (happens : Happens constants piece facts) : (branches.note facts).Realized constants piece :=
  ⟨known.falls, known.exits, known.leaves, known.facts.append happens⟩

theorem Realized.skip {assigned : Names} (known : branches.Realized constants piece)
    (past : ∃ trace, Path constants piece trace .falls) :
    (branches.skip assigned).Realized constants piece :=
  ⟨fun _ => past, known.exits, known.leaves, known.facts⟩

theorem Realized.join (known : branches.Realized constants piece)
    (inside : walked.Realized constants (.block body))
    (leads : Leads constants (.block body) piece) :
    (branches.join walked).Realized constants piece where
  falls := fun goesOn => by
    rcases Bool.and_eq_false_iff.mp goesOn with before | here
    · exact known.falls before
    · obtain ⟨trace, path⟩ := inside.falls here
      obtain ⟨front, whole⟩ := leads _ _ path
      exact ⟨_, whole⟩
  exits := fun nonempty => by
    by_cases before : branches.exits = []
    · have here : walked.exits ≠ [] := by simpa [Branches.join, before] using nonempty
      obtain ⟨trace, path⟩ := inside.exits here
      obtain ⟨front, whole⟩ := leads _ _ path
      exact ⟨_, whole⟩
    · exact known.exits before
  leaves := fun notAll => by
    rcases Bool.and_eq_false_iff.mp notAll with before | here
    · have nonempty := known.leaves before
      simp [Branches.join, nonempty]
    · have stops : walked.stops = true ∧ walked.returns = false := by simpa using here
      have nonempty := inside.leaves stops.1 stops.2
      simp [Branches.join, nonempty]
  facts := known.facts.append fun fact member event shown =>
    leads.onPath (inside.facts fact member event shown)

/-- A branch that can run adds its paths, one that cannot adds nothing. -/
theorem Realized.add {constant : Option Bool} (context : Context) (line : Nat)
    (known : branches.Realized constants piece)
    (inside : branches.isLive constant = true → walked.Realized constants (.block body))
    (dead : branches.isLive constant = false → Silent walked.facts)
    (leads : branches.decided = none → constant ≠ some false →
      Leads constants (.block body) piece) :
    (branches.add context constant line body walked).Realized constants piece := by
  unfold Branches.add
  split
  · rename_i trueLine decided
    have silent := dead (by simp [isLive, decided])
    exact known.note (((silent_deadFact ..).append silent).happens _ _)
  · rename_i undecided
    split
    · have silent := dead (by simp [isLive])
      exact known.note (((silent_deadFact ..).append silent).happens _ _)
    · have joined := known.join (inside (by simp [isLive, undecided])) (leads undecided (by simp))
      exact ⟨joined.falls, joined.exits, joined.leaves, joined.facts⟩
    · exact known.join (inside (by simp [isLive, undecided])) (leads undecided (by simp))

theorem undecided_of_add {constant : Option Bool} {context : Context} {line : Nat}
    (undecided : (branches.add context constant line body walked).decided = none) :
    branches.decided = none ∧ constant ≠ some true := by
  unfold Branches.add at undecided
  split at undecided
  · rename_i trueLine decided
    exact absurd (decided.symm.trans undecided) (by simp)
  · rename_i start
    refine ⟨start, ?_⟩
    intro isTrue
    subst constant
    cases undecided

end Branches

section Loops

variable {constants : Constants} {body : List (Stmt Mark)} {event : Event}

theorem OnPath.round (condition : List Access) (happens : OnPath constants (.block body) event) :
    OnPath constants (.rounds condition body) event := by
  obtain ⟨trace, ending, path, member⟩ := happens
  cases ending with
  | falls => exact ⟨_, _, .round path .enough, by simp [member]⟩
  | exits => exact ⟨_, _, .roundExit path, member⟩
  | returns => exact ⟨_, _, .roundReturn path, member⟩

theorem OnPath.repeat {until_ : Expr Mark} {tag : Mark}
    (happens : OnPath constants (.block body) event) :
    OnPath constants (.stmt (.repeatLoop tag body until_)) event := by
  obtain ⟨trace, ending, path, member⟩ := happens
  cases ending with
  | falls => exact ⟨_, _, .repeatLoop path .enough, by simp [member]⟩
  | exits => exact ⟨_, _, .repeatExit path, member⟩
  | returns => exact ⟨_, _, .repeatReturn path, member⟩

/-- A loop that may turn zero times goes on, and what happens in its body happens in one turn. -/
private theorem realized_loop {piece : Piece} {inner : Outcome} {before assigned : Names}
    {reachable : Bool} {head turn : List Access}
    (inside : inner.Realized constants (.block body))
    (leads : ∀ trace ending, Path constants (.rounds turn body) trace ending →
      Path constants piece (accessed head ++ trace) ending) :
    Outcome.Realized constants piece
      { assigned := before, facts := (observe reachable assigned head).1 ++ inner.facts } := by
  apply realized_of_falls ⟨_, leads _ _ .enough⟩
  apply Happens.append
  · exact happens_observe _ _ ⟨_, _, leads _ _ .enough⟩
  · intro fact member event shown
    have step : Leads constants (.rounds turn body) piece := fun trace ending path =>
      ⟨_, leads trace ending path⟩
    exact step.onPath ((inside.facts fact member event shown).round turn)

private theorem realized_repeat {context : Context} {assigned : Names} {until_ : Expr Mark}
    {tag : Mark}
    (inside : (blockFlow context.inLoop assigned body).Realized constants (.block body)) :
    (stmtFlow context assigned (.repeatLoop tag body until_)).Realized constants
      (.stmt (.repeatLoop tag body until_)) := by
  simp only [stmtFlow]
  generalize blockFlow context.inLoop assigned body = inner at inside ⊢
  refine ⟨?_, fun nonempty => absurd rfl nonempty, ?_, ?_⟩
  · intro goesOn
    by_cases stops : inner.stops = true
    · -- A body that stops without always returning leaves the loop through EXIT.
      have nonempty : inner.exits ≠ [] := by
        by_cases returns : inner.returns = true
        · simpa [stops, returns] using goesOn
        · exact inside.leaves stops (by simpa using returns)
      obtain ⟨trace, path⟩ := inside.exits nonempty
      exact ⟨_, .repeatExit path⟩
    · obtain ⟨trace, path⟩ := inside.falls (by simpa using stops)
      exact ⟨_, .repeatLoop path .enough⟩
  · intro stops notReturns
    exact absurd (stops.symm.trans notReturns) (by simp)
  · refine Happens.append ?_ ?_
    · intro fact member event shown
      exact (inside.facts fact member event shown).repeat
    · by_cases stops : inner.stops = true
      · simp only [stops, Bool.not_true, Bool.and_false]
        exact (silent_observe ..).happens _ _
      · obtain ⟨trace, path⟩ := inside.falls (by simpa using stops)
        intro fact member event shown
        have met := observe_event_mem member shown
        exact ⟨_, _, .repeatLoop path .enough, by simp [met]⟩

end Loops

section Blocks

variable {constants : Constants} {stmt : Stmt Mark} {rest : List (Stmt Mark)}

theorem OnPath.head {event : Event} (happens : OnPath constants (.stmt stmt) event) :
    OnPath constants (.block (stmt :: rest)) event := by
  obtain ⟨trace, ending, path, member⟩ := happens
  by_cases goesOn : ending = .falls
  · subst goesOn
    obtain ⟨later, last, tail⟩ := block_has_path constants rest
    exact ⟨_, last, .next path tail, by simp [member]⟩
  · exact ⟨_, ending, .stop path goesOn, List.mem_cons_of_mem _ member⟩

theorem onPath_enter : OnPath constants (.block (stmt :: rest)) (.enter stmt.tag.id) := by
  obtain ⟨trace, ending, path⟩ := block_has_path constants (stmt :: rest)
  cases path with
  | next head tail => exact ⟨_, _, .next head tail, by simp⟩
  | stop head leaves => exact ⟨_, _, .stop head leaves, List.mem_cons_self ..⟩

private theorem realized_cons {context : Context} {assigned : Names}
    (live : context.Live constants)
    (head : (stmtFlow context assigned stmt).Realized constants (.stmt stmt))
    (tail : (blockFlow context (stmtFlow context assigned stmt).assigned rest).Realized constants
      (.block rest)) :
    (blockFlow context assigned (stmt :: rest)).Realized constants (.block (stmt :: rest)) := by
  have entered : Happens constants (.block (stmt :: rest))
      (.statement stmt.tag.id context.info :: (stmtFlow context assigned stmt).facts) := by
    intro fact member event shown
    rcases List.mem_cons.mp member with same | inner
    · subst fact
      have enters : event = .enter stmt.tag.id := by
        simpa [Fact.event?, Context.info, live.reachable, eq_comm] using shown
      exact enters ▸ onPath_enter
    · exact (head.facts fact inner event shown).head
  have leave : (stmtFlow context assigned stmt).exits ≠ [] →
      ∃ trace, Path constants (.block (stmt :: rest)) trace .exits := fun nonempty =>
    have ⟨_, path⟩ := head.exits nonempty
    ⟨_, .stop path (by simp)⟩
  by_cases stops : (stmtFlow context assigned stmt).stops = true
  · simp only [blockFlow, stops, if_true]
    split
    · exact ⟨by simp, leave, fun _ => head.leaves stops, entered⟩
    · refine ⟨by simp, leave, fun _ => head.leaves stops, (entered.append ?_).append ?_⟩
      · exact (silent_deadFact ..).happens _ _
      · exact (silent_block (by simp [Context.only]) _ rest).happens _ _
  · have goesOn : (stmtFlow context assigned stmt).stops = false := by simpa using stops
    obtain ⟨trace, path⟩ := head.falls goesOn
    have leads : Leads constants (.block rest) (.block (stmt :: rest)) := fun _ _ later =>
      ⟨_, .next path later⟩
    rw [blockFlow_of_falls rest goesOn]
    refine ⟨?_, ?_, ?_, ?_⟩
    · intro falls
      obtain ⟨later, behind⟩ := tail.falls falls
      exact ⟨_, .next path behind⟩
    · intro nonempty
      by_cases first : (stmtFlow context assigned stmt).exits = []
      · obtain ⟨later, behind⟩ := tail.exits (by simpa [first] using nonempty)
        exact ⟨_, .next path behind⟩
      · exact leave first
    · intro stops returns
      have nonempty := tail.leaves stops returns
      simp [nonempty]
    · refine Happens.append entered ?_
      exact fun fact member event shown => leads.onPath (tail.facts fact member event shown)

end Blocks

/-- A path through an IF statement meets its condition first. -/
theorem met_first_cond (constants : Constants) (tag : Mark) (condition : Expr Mark)
    (thenBody : List (Stmt Mark)) (elsifs : List (Clause Mark))
    (elseBody : Option (List (Stmt Mark))) :
    ∃ trace ending, Path constants (.stmt (.cond tag condition thenBody elsifs elseBody))
      (accessed (exprAccesses condition) ++ trace) ending := by
  obtain ⟨trace, ending, path⟩ :=
    stmt_has_path constants (.cond tag condition thenBody elsifs elseBody)
  cases path with
  | thenBranch open_ inside => exact ⟨_, _, .thenBranch open_ inside⟩
  | pastThen open_ inside => exact ⟨_, _, .pastThen open_ inside⟩

/-- A path through ELSIF clauses meets the first condition first. -/
theorem met_first_clause (constants : Constants) (span : Span) (condition : Expr Mark)
    (body : List (Stmt Mark)) (rest : List (Clause Mark))
    (elseBody : Option (List (Stmt Mark))) :
    ∃ trace ending, Path constants (.clauses (.mk span condition body :: rest) elseBody)
      (accessed (exprAccesses condition) ++ trace) ending := by
  obtain ⟨trace, ending, path⟩ := clauses_have_path constants (else_has_path constants elseBody)
    (.mk span condition body :: rest)
  cases path with
  | clause open_ inside => exact ⟨_, _, .clause open_ inside⟩
  | pastClause open_ inside => exact ⟨_, _, .pastClause open_ inside⟩

mutual

/-- Whatever the pass takes to be possible for code that can run happens on a path. -/
theorem stmt_realized {context : Context} {constants : Constants}
    (live : context.Live constants) (assigned : Names) :
    ∀ stmt, (stmtFlow context assigned stmt).Realized constants (.stmt stmt)
  | .assign .. => by
    simp only [stmtFlow]
    exact realized_of_falls ⟨_, .assign⟩ (happens_observe _ _ ⟨[], _, by simpa using Path.assign⟩)
  | .cond tag condition thenBody elsifs elseBody => by
    have inner := live.inConditional
    simp only [stmtFlow, live.constants]
    have started := Branches.Realized.start
      (happens_observe context.reachable assigned
        (met_first_cond constants tag condition thenBody elsifs elseBody))
    generalize (observe context.reachable assigned (exprAccesses condition)).2 = before
    have added := started.add context.inConditional tag.line
      (fun runs => block_realized (inner.only runs) before thenBody)
      (fun never => silent_block (by simp [Context.only, never]) before thenBody)
      (fun _ open_ trace ending path => ⟨_, .thenBranch open_ path⟩)
    obtain ⟨known, leads⟩ := clauses_realized inner before elsifs added fun undecided _ _ path =>
      ⟨_, .pastThen (Branches.undecided_of_add undecided).2 path⟩
    exact (else_realized inner _ _ elseBody known leads).outcome _ _
  | .select tag selector elements elseBody => by
    obtain ⟨trace, ending, inside⟩ := else_has_path constants elseBody
    have met : Path constants (.stmt (.select tag selector elements elseBody))
        (accessed (exprAccesses selector) ++ trace) ending := .noElement inside
    have started := Branches.Realized.start
      (happens_observe context.reachable assigned ⟨trace, ending, met⟩)
    simp only [stmtFlow]
    generalize (observe context.reachable assigned (exprAccesses selector)).2 = before
    have known := elements_realized live.inConditional before elements started
      fun labels body member trace ending path => ⟨_, .element member path⟩
    refine (else_realized live.inConditional _ _ elseBody known ?_).outcome _ _
    exact fun _ trace ending path => ⟨_, .noElement path⟩
  | .forLoop tag counter start stop step body => by
    simp only [stmtFlow]
    exact realized_loop (block_realized live.inLoop _ body) fun _ _ => .forLoop
  | .whileLoop tag condition body => by
    simp only [stmtFlow, live.constants]
    split
    · rename_i closed
      have met : Path constants (.stmt (.whileLoop tag condition body))
          (accessed (exprAccesses condition) ++ []) .falls := by simpa using Path.whileNever closed
      apply realized_of_falls ⟨_, met⟩
      refine Happens.append (.append (happens_observe _ _ ⟨_, _, met⟩) ?_) ?_
      · exact (silent_deadFact ..).happens _ _
      · exact (silent_block (by simp [Context.only]) _ body).happens _ _
    · rename_i open_
      exact realized_loop (block_realized live.inLoop _ body) fun _ _ => .whileLoop open_
  | .repeatLoop _ body _ => realized_repeat (block_realized live.inLoop assigned body)
  | .exit _ => by
    simp only [stmtFlow]
    exact ⟨by simp, fun _ => ⟨_, .exit⟩, by simp [live.reachable], Silent.nil.happens _ _⟩
  | .return_ _ => by
    simp only [stmtFlow]
    exact ⟨by simp, fun nonempty => absurd rfl nonempty, by simp, Silent.nil.happens _ _⟩
  | .call .. => by
    simp only [stmtFlow]
    exact realized_of_falls ⟨_, .call⟩ (happens_observe _ _ ⟨[], _, by simpa using Path.call⟩)

theorem block_realized {context : Context} {constants : Constants}
    (live : context.Live constants) (assigned : Names) :
    ∀ body, (blockFlow context assigned body).Realized constants (.block body)
  | [] => by
    simp only [blockFlow]
    exact realized_of_falls ⟨_, .done⟩ (Silent.nil.happens _ _)
  | stmt :: rest =>
    realized_cons live (stmt_realized live assigned stmt) (block_realized live _ rest)

theorem clauses_realized {context : Context} {constants : Constants} {piece : Piece}
    {branches : Branches} {elseBody : Option (List (Stmt Mark))} (live : context.Live constants)
    (before : Names) (elsifs : List (Clause Mark)) (known : branches.Realized constants piece)
    (leads : branches.decided = none → Leads constants (.clauses elsifs elseBody) piece) :
    (clauseFlow context before branches elsifs).Realized constants piece ∧
      ((clauseFlow context before branches elsifs).decided = none →
        Leads constants (.clauses [] elseBody) piece) := by
  match elsifs with
  | [] =>
    simp only [clauseFlow]
    exact ⟨known, leads⟩
  | .mk span condition body :: rest =>
    simp only [clauseFlow, live.constants]
    have noted : (if branches.decided.isNone then
        branches.note (observe context.reachable before (exprAccesses condition)).1
        else branches).Realized constants piece := by
      split
      · rename_i undecided
        have observed := happens_observe context.reachable before
          (met_first_clause constants span condition body rest elseBody)
        exact known.note fun fact member event shown =>
          (leads (by simpa using undecided)).onPath (observed fact member event shown)
      · exact known
    have same : (if branches.decided.isNone then
        branches.note (observe context.reachable before (exprAccesses condition)).1
        else branches).decided = branches.decided := by split <;> rfl
    generalize (if branches.decided.isNone then
        branches.note (observe context.reachable before (exprAccesses condition)).1
        else branches) = met at noted same ⊢
    have added := noted.add context span.startLine
      (fun runs => block_realized (live.only runs) before body)
      (fun never => silent_block (by simp [Context.only, never]) before body)
      (fun undecided open_ => Leads.trans (fun trace ending path => ⟨_, .clause open_ path⟩)
        (leads (same.symm.trans undecided)))
    refine clauses_realized live before rest added fun undecided => ?_
    obtain ⟨start, open_⟩ := Branches.undecided_of_add undecided
    exact Leads.trans (fun trace ending path => ⟨_, .pastClause open_ path⟩)
      (leads (same.symm.trans start))

theorem elements_realized {context : Context} {constants : Constants} {piece : Piece}
    {branches : Branches} (live : context.Live constants) (before : Names)
    (elements : List (Element Mark)) (known : branches.Realized constants piece)
    (leads : ∀ labels body, .mk labels body ∈ elements → Leads constants (.block body) piece) :
    (elementFlow context before branches elements).Realized constants piece := by
  match elements with
  | [] =>
    simp only [elementFlow]
    exact known
  | .mk labels body :: rest =>
    simp only [elementFlow]
    apply elements_realized live before rest
    · exact known.join (block_realized live before body) (leads labels body (List.mem_cons_self ..))
    · exact fun labels body member => leads labels body (List.mem_cons_of_mem _ member)

theorem else_realized {context : Context} {constants : Constants} {piece : Piece}
    {branches : Branches} (live : context.Live constants) (before : Names) (line : Nat)
    (elseBody : Option (List (Stmt Mark))) (known : branches.Realized constants piece)
    (leads : branches.decided = none → Leads constants (.clauses [] elseBody) piece) :
    (elseFlow context before line branches elseBody).Realized constants piece := by
  match elseBody with
  | none =>
    simp only [elseFlow]
    split
    · exact known
    · rename_i undecided
      obtain ⟨front, whole⟩ := leads (by simpa using undecided) _ _ .past
      exact known.skip ⟨_, whole⟩
  | some body =>
    simp only [elseFlow]
    split
    · rename_i trueLine decided
      have dead : (context.only branches.decided.isNone).reachable = false := by
        simp [Context.only, decided]
      have silent := silent_block dead before body
      exact known.note (((silent_deadFact ..).append silent).happens _ _)
    · rename_i undecided
      refine known.join (block_realized (live.only (by simp [undecided])) before body) ?_
      exact fun trace ending path => leads undecided _ _ (.elseBranch path)

end

end PlcAudit.Flow
