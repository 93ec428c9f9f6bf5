import PlcAudit.Proofs.Review.Run

/-!
Runs of the review engine that end early. Where a failing check aborts the run, the first one does,
and it leaves the counters alone; running the checkers beside each other aborts in the same cases. A
run that is cancelled, by a checker or by others, reports what the checkers before it found, as if
no others were registered.
-/

namespace PlcAudit.Review

/-! What one checker gives -/

/-- The token that a check cancels. -/
def Reply.cancelled? : Reply → Option Nat
  | .cancels token => some token
  | _ => none

/-- The run ended by the first of the failures, if there is one and the policy is to abort. -/
def abortedBy? (policy : FailurePolicy) (failures : List CheckFailure) : Option RunAborted :=
  match policy with
  | .abort => failures.head?.map fun failure => ⟨failure.ruleId, failure.message⟩
  | .skipAndContinue => none

/-- A value, unless the run is ended by a failure. -/
def unlessAborted {α : Type} (value : α) : Option RunAborted → Except RunAborted α
  | some aborted => .error aborted
  | none => .ok value

namespace Checker

/-- The tokens that a checker cancels on the way through a change set. -/
def cancelledTokens (checker : Checker) (changes : ChangeSet) : List Nat :=
  (checker.replies changes).filterMap (·.2.cancelled?)

/-- What a checker comes to: its tally, or the end of the run. -/
def attempt (checker : Checker) (policy : FailurePolicy) (changes : ChangeSet) :
    Except RunAborted Tally :=
  unlessAborted (checker.tally changes) (abortedBy? policy (checker.failures changes))

end Checker

theorem tallyReplies_outcome (policy : FailurePolicy) (ruleId : String)
    (replies : List (Subject × Reply)) (cancelled : List Nat) :
    (tallyReplies policy ruleId replies cancelled).1 =
      unlessAborted ⟨replies.flatMap (·.2.issues),
          replies.filterMap fun answer => answer.2.failure? ruleId answer.1⟩
        (abortedBy? policy
          (replies.filterMap fun answer => answer.2.failure? ruleId answer.1)) := by
  induction replies generalizing cancelled with
  | nil => cases policy <;> rfl
  | cons answer rest ih =>
    obtain ⟨subject, reply⟩ := answer
    cases reply with
    | found issues =>
      simp only [tallyReplies, ih, Reply.failure?, List.filterMap_cons]
      cases abortedBy? policy _ <;>
        simp [unlessAborted, Except.map, Tally.append, Reply.issues]
    | cancels token =>
      simp only [tallyReplies, ih, Reply.failure?, List.filterMap_cons]
      cases abortedBy? policy _ <;>
        simp [unlessAborted, Except.map, Tally.append, Reply.issues]
    | failed message =>
      cases policy <;>
        simp [tallyReplies, ih, Reply.failure?, abortedBy?, unlessAborted, Except.map,
          Tally.append, Reply.issues, unexplained]

/-- Unless the run is aborted, the tokens that a checker cancels are cancelled behind it. -/
theorem mem_tallyReplies_cancelled {policy : FailurePolicy} {ruleId : String}
    {replies : List (Subject × Reply)} {cancelled : List Nat} {tally : Tally}
    (done : (tallyReplies policy ruleId replies cancelled).1 = .ok tally) (token : Nat) :
    token ∈ (tallyReplies policy ruleId replies cancelled).2 ↔
      token ∈ cancelled ∨ token ∈ replies.filterMap (·.2.cancelled?) := by
  induction replies generalizing cancelled tally with
  | nil => simp [tallyReplies]
  | cons answer rest ih =>
    obtain ⟨subject, reply⟩ := answer
    have onward {cancelled : List Nat} {first : Tally}
        (more : (tallyReplies policy ruleId rest cancelled).1.map first.append = .ok tally) :
        token ∈ (tallyReplies policy ruleId rest cancelled).2 ↔
          token ∈ cancelled ∨ token ∈ rest.filterMap (·.2.cancelled?) := by
      cases later : (tallyReplies policy ruleId rest cancelled).1 with
      | error aborted => rw [later] at more; cases more
      | ok tally => exact ih later
    cases reply with
    | found issues => simpa [tallyReplies, Reply.cancelled?] using onward done
    | cancels other =>
      have behind := onward done
      rw [List.mem_cons] at behind
      simpa [tallyReplies, Reply.cancelled?, or_assoc, or_left_comm] using behind
    | failed message =>
      cases policy with
      | abort => cases done
      | skipAndContinue => simpa [tallyReplies, Reply.cancelled?] using onward done

namespace Checker

variable (checker : Checker) (policy : FailurePolicy) (changes : ChangeSet)

theorem tallied_outcome (cancelled : List Nat) :
    (tallyReplies policy checker.id (checker.replies changes) cancelled).1 =
      checker.attempt policy changes := by
  rw [tallyReplies_outcome, checker.replies_issues, checker.replies_failures]
  rfl

end Checker

/-! What several checkers give -/

/-- What checkers come to one after another: their tallies, or the end of the run. -/
def attemptAll (policy : FailurePolicy) (changes : ChangeSet) (checkers : List Checker) :
    Except RunAborted (List Tally) :=
  unlessAborted (checkers.map (·.tally changes))
    (abortedBy? policy (checkers.flatMap (·.failures changes)))

theorem abortedBy?_append (policy : FailurePolicy) (first second : List CheckFailure) :
    abortedBy? policy (first ++ second) =
      (abortedBy? policy first).or (abortedBy? policy second) := by
  cases policy with
  | skipAndContinue => rfl
  | abort => cases first <;> simp [abortedBy?]

/-- The first checker that ends the run is the last one to start. -/
theorem attemptAll_cons (policy : FailurePolicy) (changes : ChangeSet) (checker : Checker)
    (rest : List Checker) :
    attemptAll policy changes (checker :: rest) =
      match checker.attempt policy changes with
      | .error aborted => .error aborted
      | .ok tally => (attemptAll policy changes rest).map (tally :: ·) := by
  rw [attemptAll, attemptAll, Checker.attempt, List.flatMap_cons, abortedBy?_append]
  cases abortedBy? policy (checker.failures changes) with
  | some aborted => rfl
  | none => cases abortedBy? policy (rest.flatMap (·.failures changes)) <;> rfl

theorem attemptAll_eq_error_iff {policy : FailurePolicy} {changes : ChangeSet}
    {checkers : List Checker} {aborted : RunAborted} :
    attemptAll policy changes checkers = .error aborted ↔
      abortedBy? policy (checkers.flatMap (·.failures changes)) = some aborted := by
  rw [attemptAll]
  cases abortedBy? policy (checkers.flatMap (·.failures changes)) <;> simp [unlessAborted]

theorem abortedBy?_isSome_iff (failures : List CheckFailure) :
    (∃ aborted, abortedBy? .abort failures = some aborted) ↔ failures ≠ [] := by
  cases failures <;> simp [abortedBy?]

/-! Runs that are watched -/

/-- What can stop a run: the token that it holds, the tokens that are cancelled at its start, and
those that others cancel in its course, by the number of checkers that have finished by then. -/
structure Watch where
  token : Option Nat
  cancelled : List Nat := []
  outside : Nat → List Nat := fun _ => []

namespace Watch

/-- The tokens that are known to be cancelled when a checker is due. -/
def known (watch : Watch) : List Nat :=
  watch.outside 0 ++ watch.cancelled

def isStopped (watch : Watch) : Bool :=
  watch.token.any watch.known.contains

/-- The watch behind a checker that leaves some tokens cancelled. -/
def after (watch : Watch) (cancelled : List Nat) : Watch :=
  { watch with cancelled, outside := fun finished => watch.outside (finished + 1) }

/-- The token is cancelled when the checker at a position is due: it was so at the start, or others
have cancelled it by then, or one of the checkers before. -/
def Seen (watch : Watch) (changes : ChangeSet) (checkers : List Checker) (position : Nat) : Prop :=
  ∃ held, watch.token = some held ∧
    (held ∈ watch.cancelled ∨ (∃ finished ≤ position, held ∈ watch.outside finished) ∨
      ∃ checker ∈ checkers.take position, held ∈ checker.cancelledTokens changes)

/-- The first position at which the token is seen to be cancelled. -/
def FirstSeen (watch : Watch) (changes : ChangeSet) (checkers : List Checker)
    (position : Nat) : Prop :=
  watch.Seen changes checkers position ∧ ∀ earlier < position, ¬ watch.Seen changes checkers earlier

end Watch

/-- Runs checkers in order until the token of the run is seen to be cancelled. -/
def runWatched (policy : FailurePolicy) (changes : ChangeSet) :
    Watch → List Checker → Except RunAborted (List Tally × Bool)
  | _, [] => .ok ([], false)
  | watch, checker :: rest =>
    if watch.isStopped then .ok ([], true)
    else
      match tallyReplies policy checker.id (checker.replies changes) watch.known with
      | (.error aborted, _) => .error aborted
      | (.ok tally, cancelled) =>
        (runWatched policy changes (watch.after cancelled) rest).map
          fun (tallies, stopped) => (tally :: tallies, stopped)

/-- Where nobody else cancels tokens, a watched run is a run. -/
theorem runCheckers_outcome (policy : FailurePolicy) (changes : ChangeSet) (token : Option Nat)
    (checkers : List Checker) (cancelled : List Nat) :
    (runCheckers policy changes token checkers cancelled).1 =
      runWatched policy changes { token, cancelled } checkers := by
  induction checkers generalizing cancelled with
  | nil => rfl
  | cons checker rest ih =>
    have polled : ({ token, cancelled } : Watch).isStopped = token.any cancelled.contains := rfl
    have known : ({ token, cancelled } : Watch).known = cancelled := rfl
    rw [runCheckers, runWatched, polled, known]
    cases token.any cancelled.contains with
    | true => rfl
    | false =>
      rcases tallyReplies policy checker.id (checker.replies changes) cancelled with
        ⟨aborted | tally, later⟩
      · rfl
      · exact congrArg (Except.map _) (ih later)

namespace Watch

variable {watch : Watch} {policy : FailurePolicy} {changes : ChangeSet} {checker : Checker}
  {checkers : List Checker}

theorem isStopped_iff : watch.isStopped = true ↔ watch.Seen changes checkers 0 := by
  simp [isStopped, known, Seen, Option.any_eq_true, or_comm]

/-- Behind a checker, the watch sees what it saw one position later before it. -/
theorem seen_after (rest : List Checker) (position : Nat) {tally : Tally}
    (done : (tallyReplies policy checker.id (checker.replies changes) watch.known).1 = .ok tally) :
    (watch.after (tallyReplies policy checker.id (checker.replies changes) watch.known).2).Seen
        changes rest position ↔ watch.Seen changes (checker :: rest) (position + 1) := by
  have cancelled := mem_tallyReplies_cancelled done
  constructor
  · rintro ⟨held, isHeld, inside⟩
    refine ⟨held, isHeld, ?_⟩
    rcases inside with known | ⟨finished, bound, member⟩ | ⟨other, among, member⟩
    · rcases (cancelled held).mp known with before | own
      · rcases List.mem_append.mp before with outside | start
        · exact .inr (.inl ⟨0, Nat.zero_le _, outside⟩)
        · exact .inl start
      · exact .inr (.inr ⟨checker, by simp, own⟩)
    · exact .inr (.inl ⟨finished + 1, Nat.succ_le_succ bound, member⟩)
    · exact .inr (.inr ⟨other, List.mem_cons_of_mem _ among, member⟩)
  · rintro ⟨held, isHeld, inside⟩
    refine ⟨held, isHeld, ?_⟩
    rcases inside with start | ⟨finished, bound, member⟩ | ⟨other, among, member⟩
    · exact .inl ((cancelled held).mpr (.inl (List.mem_append_right _ start)))
    · cases finished with
      | zero => exact .inl ((cancelled held).mpr (.inl (List.mem_append_left _ member)))
      | succ finished => exact .inr (.inl ⟨finished, Nat.le_of_succ_le_succ bound, member⟩)
    · rw [List.take_succ_cons] at among
      rcases List.mem_cons.mp among with rfl | later
      · exact .inl ((cancelled held).mpr (.inr member))
      · exact .inr (.inr ⟨other, later, member⟩)

end Watch

section

variable {policy : FailurePolicy} {changes : ChangeSet}

/-- One step of a watched run that goes on. -/
theorem runWatched_cons {watch : Watch} {checker : Checker} {rest : List Checker}
    (going : watch.isStopped = false) :
    runWatched policy changes watch (checker :: rest) =
      match checker.attempt policy changes with
      | .error aborted => .error aborted
      | .ok tally =>
        (runWatched policy changes (watch.after
          (tallyReplies policy checker.id (checker.replies changes) watch.known).2) rest).map
            fun (tallies, stopped) => (tally :: tallies, stopped) := by
  rw [← checker.tallied_outcome policy changes watch.known, runWatched, going]
  rcases tallyReplies policy checker.id (checker.replies changes) watch.known with
    ⟨aborted | tally, cancelled⟩ <;> rfl

/-- A watched run takes the checkers up to the one at which it is stopped. `stopped` tells whether
there is such a one. -/
theorem runWatched_take {watch : Watch} {checkers : List Checker} (position : Nat) (stopped : Bool)
    (reached : stopped = true → position < checkers.length ∧ watch.Seen changes checkers position)
    (ended : stopped = false → position = checkers.length)
    (unseen : ∀ earlier < position, ¬ watch.Seen changes checkers earlier) :
    runWatched policy changes watch checkers =
      (attemptAll policy changes (checkers.take position)).map
        fun tallies => (tallies, stopped) := by
  induction checkers generalizing watch position with
  | nil =>
    cases stopped with
    | true => exact absurd (reached rfl).1 (Nat.not_lt_zero _)
    | false =>
      rw [List.take_nil]
      cases policy <;> rfl
  | cons checker rest ih =>
    cases position with
    | zero =>
      cases stopped with
      | false => cases ended rfl
      | true =>
        rw [runWatched, Watch.isStopped_iff.mpr (reached rfl).2]
        cases policy <;> rfl
    | succ position =>
      have going : watch.isStopped = false := by
        simpa using mt Watch.isStopped_iff.mp (unseen 0 (Nat.zero_lt_succ _))
      rw [runWatched_cons going, List.take_succ_cons, attemptAll_cons]
      cases attempted : checker.attempt policy changes with
      | error aborted => rfl
      | ok tally =>
        have shifted (position : Nat) := Watch.seen_after rest position
          ((checker.tallied_outcome policy changes watch.known).trans attempted)
        simp only
        rw [ih position]
        · cases attemptAll policy changes (rest.take position) <;> rfl
        · intro isStopped
          obtain ⟨bound, seen⟩ := reached isStopped
          exact ⟨Nat.lt_of_succ_lt_succ bound, (shifted position).mpr seen⟩
        · intro goesOn
          exact Nat.succ.inj (ended goesOn)
        · intro earlier before
          exact mt (shifted earlier).mp (unseen (earlier + 1) (Nat.succ_lt_succ before))

theorem runWatched_unseen {watch : Watch} {checkers : List Checker}
    (unseen : ∀ position < checkers.length, ¬ watch.Seen changes checkers position) :
    runWatched policy changes watch checkers =
      (attemptAll policy changes checkers).map fun tallies => (tallies, false) := by
  rw [runWatched_take _ false nofun (fun _ => rfl) unseen, List.take_length]

/-- Beside each other, checkers abort the run if one of them fails. -/
theorem runSlots_aborts_iff (changes : ChangeSet) (finished : List (Checker × Nat))
    (cancelled : List Nat) :
    (∃ aborted, (runSlots .abort changes finished cancelled).1 = .error aborted) ↔
      ∃ entry ∈ finished, entry.1.failures changes ≠ [] := by
  induction finished generalizing cancelled with
  | nil => simp [runSlots]
  | cons entry rest ih =>
    obtain ⟨checker, slot⟩ := entry
    have attempted := checker.tallied_outcome .abort changes cancelled
    rw [runSlots]
    revert attempted
    rcases tallyReplies .abort checker.id (checker.replies changes) cancelled with
      ⟨aborted | tally, later⟩
    · intro attempted
      have failing : checker.failures changes ≠ [] := by
        intro none
        simp [Checker.attempt, none, abortedBy?, unlessAborted] at attempted
      simp [failing]
    · intro attempted
      have sound : checker.failures changes = [] := by
        cases failures : checker.failures changes with
        | nil => rfl
        | cons failure more =>
          simp [Checker.attempt, failures, abortedBy?, unlessAborted] at attempted
      have onward := ih later
      cases ran : (runSlots .abort changes rest later).1 with
      | error aborted =>
        rw [ran] at onward
        simpa [ran, sound, Except.map] using onward
      | ok slots =>
        rw [ran] at onward
        simpa [ran, sound, Except.map] using onward

end

namespace Engine

variable (engine : Engine) (changes : ChangeSet)

/-- Runs the enabled checkers over a change set under a watch. -/
def runWatched (watch : Watch) : Except RunAborted RunReport :=
  (Review.runWatched engine.policy changes watch engine.enabledCheckers).map
    fun (tallies, stopped) => { reportOf changes tallies tallies.length with cancelled := stopped }

/-- The engine with the first so many of its enabled checkers and no others. -/
def firstOnly (count : Nat) : Engine :=
  { engine with checkers := engine.enabledCheckers.take count }

theorem run_outcome (token : Option Nat) (cancelled : List Nat) :
    (engine.run changes token cancelled).outcome =
      engine.runWatched changes { token, cancelled } := by
  rw [run, runWatched, ← runCheckers_outcome]
  rcases runCheckers engine.policy changes token engine.enabledCheckers cancelled with
    ⟨aborted | ⟨tallies, stopped⟩, later⟩ <;> rfl

theorem analyze_eq : engine.analyze changes =
    (attemptAll engine.policy changes engine.enabledCheckers).map
      fun tallies => reportOf changes tallies tallies.length := by
  rw [analyze, run_outcome, runWatched, runWatched_unseen]
  · cases attemptAll engine.policy changes engine.enabledCheckers <;> rfl
  · rintro position - ⟨held, nothing, -⟩
    cases nothing

theorem enabledCheckers_firstOnly (count : Nat) :
    (engine.firstOnly count).enabledCheckers = engine.enabledCheckers.take count := by
  refine List.filter_eq_self.mpr fun checker member => ?_
  exact (List.mem_filter.mp (List.mem_of_mem_take member)).2

theorem analyze_eq_error_iff (aborted : RunAborted) :
    engine.analyze changes = .error aborted ↔
      abortedBy? engine.policy (engine.enabledCheckers.flatMap (·.failures changes)) =
        some aborted := by
  rw [analyze_eq, ← attemptAll_eq_error_iff]
  cases attemptAll engine.policy changes engine.enabledCheckers <;> simp [Except.map]

variable {engine changes} in
theorem counts_of_analyze {report : RunReport} (done : engine.analyze changes = .ok report) :
    report.rulesRun = engine.enabledCheckers.length ∧ report.cancelled = false := by
  rw [analyze_eq, attemptAll] at done
  cases ended : abortedBy? engine.policy (engine.enabledCheckers.flatMap (·.failures changes)) with
  | some aborted => rw [ended] at done; cases done
  | none =>
    rw [ended] at done
    cases done
    exact ⟨List.length_map .., rfl⟩

end Engine

/-! Aborted and cancelled runs -/

theorem Checker.mem_failures_iff (checker : Checker) (changes : ChangeSet)
    (failure : CheckFailure) :
    failure ∈ checker.failures changes ↔
      ∃ answer ∈ checker.replies changes, answer.2.failure? checker.id answer.1 = some failure := by
  rw [← checker.replies_failures, List.mem_filterMap]

theorem Checker.ruleId_of_mem_failures {checker : Checker} {changes : ChangeSet}
    {failure : CheckFailure} (member : failure ∈ checker.failures changes) :
    failure.ruleId = checker.id := by
  obtain ⟨⟨subject, reply⟩, -, failed⟩ := (checker.mem_failures_iff changes failure).mp member
  cases reply <;> cases failed
  rfl

/-- A check of the change set fails. -/
def Checker.Fails (checker : Checker) (changes : ChangeSet) : Prop :=
  ∃ answer ∈ checker.replies changes, ∃ message, answer.2 = .failed message

theorem Checker.failures_ne_nil_iff (checker : Checker) (changes : ChangeSet) :
    checker.failures changes ≠ [] ↔ checker.Fails changes := by
  constructor
  · intro some
    obtain ⟨failure, member⟩ := List.exists_mem_of_ne_nil _ some
    obtain ⟨⟨subject, reply⟩, answered, failed⟩ :=
      (checker.mem_failures_iff changes failure).mp member
    cases reply <;> cases failed
    exact ⟨_, answered, _, rfl⟩
  · rintro ⟨⟨subject, reply⟩, answered, message, rfl⟩
    exact List.ne_nil_of_mem ((checker.mem_failures_iff changes _).mpr ⟨_, answered, rfl⟩)

namespace Engine

/-- What it means that failing checks abort the run: there is an error exactly if a check fails, it
is that of the first check that fails of the first checker with such a check, the counters stay as
they are, and checkers that run beside each other abort in the same cases. -/
structure AbortsAtFailure (engine : Engine) (changes : ChangeSet) : Prop where
  failing : (∃ aborted, engine.analyze changes = .error aborted) ↔
    ∃ checker ∈ engine.enabledCheckers, checker.Fails changes
  first : ∀ aborted, engine.analyze changes = .error aborted →
    ∃ before checker behind failure, engine.enabledCheckers = before ++ checker :: behind ∧
      (∀ earlier ∈ before, ¬ earlier.Fails changes) ∧
      (checker.failures changes).head? = some failure ∧
      aborted = { ruleId := checker.id, message := failure.message }
  counters : ∀ token cancelled aborted,
    (engine.run changes token cancelled).outcome = .error aborted →
      (engine.run changes token cancelled).metrics = engine.metrics
  parallel : ∀ schedule cancelled,
    (∃ aborted, (engine.runParallel schedule changes cancelled).outcome = .error aborted) ↔
      ∃ aborted, engine.analyze changes = .error aborted
  parallelCounters : ∀ schedule cancelled aborted,
    (engine.runParallel schedule changes cancelled).outcome = .error aborted →
      (engine.runParallel schedule changes cancelled).metrics = engine.metrics

/-- What it means that a run is stopped at the checker before which its token is first seen to be
cancelled: its outcome is that of the checkers before, and the report says so. Where the token is
never seen to be cancelled, all checkers run. -/
structure StopsWhenSeen (engine : Engine) (changes : ChangeSet) (watch : Watch) : Prop where
  stopped : ∀ position < engine.enabledCheckers.length,
    watch.FirstSeen changes engine.enabledCheckers position →
      engine.runWatched changes watch = ((engine.firstOnly position).analyze changes).map
        (fun report => { report with cancelled := true }) ∧
      ∀ report, (engine.firstOnly position).analyze changes = .ok report →
        report.rulesRun = position
  unseen : (∀ position < engine.enabledCheckers.length,
      ¬ watch.Seen changes engine.enabledCheckers position) →
    engine.runWatched changes watch = engine.analyze changes ∧
    ∀ report, engine.analyze changes = .ok report →
      report.rulesRun = engine.enabledCheckers.length ∧ report.cancelled = false

variable {engine : Engine} {changes : ChangeSet}

theorem exists_failures_iff (checkers : List Checker) :
    checkers.flatMap (·.failures changes) ≠ [] ↔
      ∃ checker ∈ checkers, checker.Fails changes := by
  simp [← Checker.failures_ne_nil_iff, Classical.not_forall]

theorem aborts_iff (policy : engine.policy = .abort) :
    (∃ aborted, engine.analyze changes = .error aborted) ↔
      ∃ checker ∈ engine.enabledCheckers, checker.Fails changes := by
  simp only [analyze_eq_error_iff, policy]
  rw [abortedBy?_isSome_iff, exists_failures_iff]

theorem first_failure_of_analyze (policy : engine.policy = .abort) {aborted : RunAborted}
    (ended : engine.analyze changes = .error aborted) :
    ∃ before checker behind failure, engine.enabledCheckers = before ++ checker :: behind ∧
      (∀ earlier ∈ before, ¬ earlier.Fails changes) ∧
      (checker.failures changes).head? = some failure ∧
      aborted = { ruleId := checker.id, message := failure.message } := by
  rw [analyze_eq_error_iff, policy, abortedBy?, Option.map_eq_some_iff] at ended
  obtain ⟨failure, isFirst, rfl⟩ := ended
  rw [List.head?_flatMap, List.findSome?_eq_some_iff] at isFirst
  obtain ⟨before, checker, behind, split, found, none⟩ := isFirst
  refine ⟨before, checker, behind, failure, split, fun earlier member => ?_, found, ?_⟩
  · rw [← Checker.failures_ne_nil_iff]
    exact not_not_intro (List.head?_eq_none_iff.mp (none earlier member))
  · rw [Checker.ruleId_of_mem_failures (List.mem_of_head? found)]

theorem runParallel_aborts_iff (policy : engine.policy = .abort) (schedule : engine.Schedule)
    (cancelled : List Nat) :
    (∃ aborted, (engine.runParallel schedule changes cancelled).outcome = .error aborted) ↔
      ∃ aborted, engine.analyze changes = .error aborted := by
  have slots := runSlots_aborts_iff changes schedule.finished cancelled
  have listed : (∃ entry ∈ schedule.finished, entry.1.failures changes ≠ []) ↔
      ∃ checker ∈ engine.enabledCheckers, checker.Fails changes := by
    simp only [Checker.failures_ne_nil_iff]
    constructor
    · rintro ⟨entry, member, fails⟩
      exact ⟨_, List.fst_mem_of_mem_zipIdx (schedule.complete.mem_iff.mp member), fails⟩
    · rintro ⟨checker, member, fails⟩
      obtain ⟨slot, bound, rfl⟩ := List.mem_iff_getElem.mp member
      exact ⟨_, schedule.complete.mem_iff.mpr (List.mk_mem_zipIdx_iff_getElem?.mpr
        (List.getElem?_eq_getElem bound)), fails⟩
  rw [aborts_iff policy, ← listed, ← slots, runParallel, policy]
  rcases runSlots .abort changes schedule.finished cancelled with ⟨aborted | filled, later⟩ <;> simp

/-- The counters record reports only, so a run without one leaves them alone. -/
theorem metrics_of_run_aborted {token : Option Nat} {cancelled : List Nat} {aborted : RunAborted}
    (ended : (engine.run changes token cancelled).outcome = .error aborted) :
    (engine.run changes token cancelled).metrics = engine.metrics := by
  unfold run at ended ⊢
  split at ended
  · rfl
  · cases ended

theorem metrics_of_runParallel_aborted {schedule : engine.Schedule} {cancelled : List Nat}
    {aborted : RunAborted}
    (ended : (engine.runParallel schedule changes cancelled).outcome = .error aborted) :
    (engine.runParallel schedule changes cancelled).metrics = engine.metrics := by
  unfold runParallel at ended ⊢
  split at ended
  · rfl
  · cases ended

theorem abortsAtFailure (policy : engine.policy = .abort) : engine.AbortsAtFailure changes where
  failing := aborts_iff policy
  first := fun _ ended => first_failure_of_analyze policy ended
  counters := fun _ _ _ ended => metrics_of_run_aborted ended
  parallel := runParallel_aborts_iff policy
  parallelCounters := fun _ _ _ ended => metrics_of_runParallel_aborted ended

theorem stopsWhenSeen (engine : Engine) (changes : ChangeSet) (watch : Watch) :
    engine.StopsWhenSeen changes watch where
  stopped := by
    rintro position bound ⟨seen, unseen⟩
    constructor
    · rw [runWatched, runWatched_take _ true (fun _ => ⟨bound, seen⟩) nofun unseen,
        analyze_eq, enabledCheckers_firstOnly]
      have samePolicy : (engine.firstOnly position).policy = engine.policy := rfl
      rw [samePolicy]
      cases attemptAll engine.policy changes (engine.enabledCheckers.take position) <;> rfl
    · intro report done
      rw [(counts_of_analyze done).1, enabledCheckers_firstOnly, List.length_take]
      exact Nat.min_eq_left (Nat.le_of_lt bound)
  unseen := by
    intro unseen
    constructor
    · rw [runWatched, runWatched_unseen unseen, analyze_eq]
      cases attemptAll engine.policy changes engine.enabledCheckers <;> rfl
    · exact fun report done => counts_of_analyze done

/-- Runs that end early: failing checks abort as they should where that is the policy, and every run
under a watch stops where its token is first seen to be cancelled. A run on its own is one under a
watch on which nobody else cancels anything. -/
theorem interrupted_runs (engine : Engine) (changes : ChangeSet) :
    (engine.policy = .abort → engine.AbortsAtFailure changes) ∧
    (∀ watch, engine.StopsWhenSeen changes watch) ∧
    ∀ token cancelled,
      (engine.run changes token cancelled).outcome =
        engine.runWatched changes { token, cancelled } :=
  ⟨abortsAtFailure, engine.stopsWhenSeen changes, engine.run_outcome changes⟩

/-- Somebody cancels the token of the run once the first checker has finished. -/
def lateWatch : Watch where
  token := some 7
  outside := fun finished => if finished = 1 then [7] else []

/-- Counts its runs, and aborts them at failures. -/
def abortingEngine : Engine :=
  { mixedEngine with policy := .abort, metrics := some {} }

theorem lateWatch_firstSeen :
    lateWatch.FirstSeen mixedChanges mixedEngine.enabledCheckers 1 := by
  refine ⟨⟨7, rfl, .inr (.inl ⟨1, Nat.le_refl 1, by simp [lateWatch]⟩)⟩, ?_⟩
  intro earlier before
  obtain rfl : earlier = 0 := by omega
  simp [Watch.Seen, lateWatch]

theorem abortingEngine_fails :
    ∃ checker ∈ abortingEngine.enabledCheckers, checker.Fails mixedChanges :=
  ⟨fragileChecker, List.mem_cons_self, (.logic, .failed (some "boom")),
    List.mem_cons_of_mem _ List.mem_cons_self, some "boom", rfl⟩

theorem interrupted_runs_mixedEngine :
    (∃ aborted, abortingEngine.analyze mixedChanges = .error aborted ∧
      (abortingEngine.run mixedChanges none []).metrics = abortingEngine.metrics) ∧
    mixedEngine.runWatched mixedChanges lateWatch =
      ((mixedEngine.firstOnly 1).analyze mixedChanges).map
        fun report => { report with cancelled := true } := by
  constructor
  · have aborts := (abortingEngine.interrupted_runs mixedChanges).1 rfl
    obtain ⟨aborted, ended⟩ := aborts.failing.mpr abortingEngine_fails
    exact ⟨aborted, ended, aborts.counters none [] aborted ended⟩
  · have stops := (mixedEngine.interrupted_runs mixedChanges).2.1 lateWatch
    exact (stops.stopped 1 (by decide) lateWatch_firstSeen).1

end Engine

end PlcAudit.Review
