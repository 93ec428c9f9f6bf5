import PlcAudit.Proofs.Data.Slice
import PlcAudit.Proofs.Graph.CycleSearch
import PlcAudit.Proofs.Graph.Depth

/-!
Searches that keep their path on a stack. Each frame holds a node and the number of its children
that were looked at; the topmost node is left when all of them were. Children, and the part of the
stack that a cycle goes through, are read by position. The searches of a closed graph halt, never
read out of range, and come to what the recursive ones come to.
-/

namespace PlcAudit.Graph

/-- What a search does at a child. -/
inductive Move (ε σ : Type) where
  /-- It goes on behind the child. -/
  | pass (state : σ)
  /-- It puts the child on the stack. -/
  | enter
  | stop (reason : ε)

/-- A search by what it does at a child of the topmost node, given the nodes on the stack from the
bottom up, and by what it does where it leaves a node. It has no move where it would read out of
range. -/
structure StackSearch (ε σ : Type) where
  look : List String → String → σ → Option (Move ε σ)
  leave : String → σ → σ

/-- A node, and how many of its children were looked at. -/
abbrev Frame := String × Nat

/-- The nodes on a stack from the bottom up. -/
def onStack (stack : List Frame) : List String := (stack.map Prod.fst).reverse

/-- A search halts from a stack and a state with an outcome, and all that it reads is in range. -/
inductive Runs {ε σ : Type} (next : String → List String) (search : StackSearch ε σ) :
    List Frame → σ → Except ε σ → Prop where
  | halt : Runs next search [] state (.ok state)
  | pass (read : (next node)[seen]? = some child)
      (looked : search.look (onStack ((node, seen) :: below)) child state = some (.pass after))
      (rest : Runs next search ((node, seen + 1) :: below) after outcome) :
      Runs next search ((node, seen) :: below) state outcome
  | enter (read : (next node)[seen]? = some child)
      (looked : search.look (onStack ((node, seen) :: below)) child state = some .enter)
      (rest : Runs next search ((child, 0) :: (node, seen + 1) :: below) state outcome) :
      Runs next search ((node, seen) :: below) state outcome
  | stop (read : (next node)[seen]? = some child)
      (looked : search.look (onStack ((node, seen) :: below)) child state = some (.stop reason)) :
      Runs next search ((node, seen) :: below) state (.error reason)
  | leave (through : (next node).length ≤ seen)
      (rest : Runs next search below (search.leave node state) outcome) :
      Runs next search ((node, seen) :: below) state outcome

/-- A search from several nodes in turn. Those that it knows already are skipped, and it ends where
it stops. -/
inductive RunsAll {ε σ : Type} (next : String → List String) (search : StackSearch ε σ)
    (isKnown : σ → String → Bool) : List String → σ → Except ε σ → Prop where
  | halt : RunsAll next search isKnown [] state (.ok state)
  | skip (known : isKnown state start = true)
      (rest : RunsAll next search isKnown starts state outcome) :
      RunsAll next search isKnown (start :: starts) state outcome
  | run (new : isKnown state start = false)
      (first : Runs next search [(start, 0)] state (.ok after))
      (rest : RunsAll next search isKnown starts after outcome) :
      RunsAll next search isKnown (start :: starts) state outcome
  | stop (new : isKnown state start = false)
      (first : Runs next search [(start, 0)] state (.error reason)) :
      RunsAll next search isKnown (start :: starts) state (.error reason)

/-- A search goes on from a stack to a lower one with a new state, or stops on the way. -/
def ComesTo {ε σ : Type} (next : String → List String) (search : StackSearch ε σ)
    (stack : List Frame) (state : σ) (lower : List Frame) : Except ε σ → Prop
  | .ok after => ∀ outcome, Runs next search lower after outcome →
      Runs next search stack state outcome
  | .error reason => Runs next search stack state (.error reason)

section Stack

variable {ε σ : Type} {next : String → List String} {search : StackSearch ε σ}
variable {stack middle lower below : List Frame} {state after : σ} {outcome : Except ε σ}
variable {node : String}

theorem ComesTo.trans (first : ComesTo next search stack state middle (.ok after))
    (second : ComesTo next search middle after lower outcome) :
    ComesTo next search stack state lower outcome := by
  cases outcome with
  | ok last => exact fun outcome rest => first outcome (second outcome rest)
  | error reason => exact first (.error reason) second

theorem ComesTo.pass {seen : Nat} {child : String} (read : (next node)[seen]? = some child)
    (looked : search.look (onStack ((node, seen) :: below)) child state = some (.pass after)) :
    ComesTo next search ((node, seen) :: below) state ((node, seen + 1) :: below) (.ok after) :=
  fun _ rest => .pass read looked rest

/-- What comes of a child is what comes of the node above it. -/
theorem ComesTo.enter {seen : Nat} {child : String} (read : (next node)[seen]? = some child)
    (looked : search.look (onStack ((node, seen) :: below)) child state = some .enter)
    (deeper : ComesTo next search ((child, 0) :: (node, seen + 1) :: below) state
      ((node, seen + 1) :: below) outcome) :
    ComesTo next search ((node, seen) :: below) state ((node, seen + 1) :: below) outcome := by
  cases outcome with
  | ok after => exact fun _ rest => .enter read looked (deeper _ rest)
  | error reason => exact .enter read looked deeper

/-- One child after another, and then the node is left. -/
theorem comesTo_children {visit : σ → String → Except ε σ}
    (each : ∀ seen child, (next node)[seen]? = some child → ∀ state,
      ComesTo next search ((node, seen) :: below) state ((node, seen + 1) :: below)
        (visit state child))
    {seen : Nat} {children : List String} (left : (next node).drop seen = children) (state : σ) :
    ComesTo next search ((node, seen) :: below) state below
      ((children.foldlM visit state).map (search.leave node)) := by
  induction children generalizing seen state with
  | nil => exact fun _ rest => .leave (List.drop_eq_nil_iff.mp left) rest
  | cons child children ih =>
    obtain ⟨read, later⟩ := read_of_drop left
    have first := each seen child read state
    rw [List.foldlM_cons]
    cases visited : visit state child with
    | ok after =>
      rw [visited] at first
      exact first.trans (ih later after)
    | error reason =>
      rw [visited] at first
      exact first

theorem ComesTo.runs (run : ComesTo next search stack state [] outcome) :
    Runs next search stack state outcome := by
  cases outcome with
  | ok after => exact run _ .halt
  | error reason => exact run

/-- One start after another. -/
theorem runsAll_starts {isKnown : σ → String → Bool} {visit : σ → String → Except ε σ}
    {starts : List String}
    (skipped : ∀ state start, isKnown state start = true → visit state start = .ok state)
    (each : ∀ start ∈ starts, ∀ state, isKnown state start = false →
      Runs next search [(start, 0)] state (visit state start)) (state : σ) :
    RunsAll next search isKnown starts state (starts.foldlM visit state) := by
  induction starts generalizing state with
  | nil => exact .halt
  | cons start starts ih =>
    have later := ih fun other member => each other (List.mem_cons_of_mem _ member)
    rw [List.foldlM_cons]
    cases known : isKnown state start with
    | true =>
      rw [skipped state start known]
      exact .skip known (later state)
    | false =>
      have first := each start List.mem_cons_self state known
      cases visited : visit state start with
      | ok after =>
        rw [visited] at first
        exact .run known first (later after)
      | error reason =>
        rw [visited] at first
        exact .stop known first

end Stack

/-! Cycles on a stack -/

/-- The part of a stack from a node up to the top. -/
def stackFrom? (node : String) (stack : List String) : Option (List String) :=
  slice? ((stack.findIdx? (· == node)).getD 0) stack

/-- The first position of the smallest node of a cycle. -/
def smallestAt : List String → Nat
  | [] => 0
  | first :: rest => (first :: rest).findIdx (· == rest.foldl smaller first)

theorem stackFrom?_reverse {path : List String} {node : String} (distinct : path.Nodup)
    (present : node ∈ path) : stackFrom? node path.reverse = some (cycleTo node path) := by
  obtain ⟨newer, older, rfl⟩ := List.append_of_mem present
  obtain ⟨_, ofOlder, apart⟩ := List.nodup_append.mp distinct
  have first : (newer ++ node :: older).takeWhile (· ≠ node) = newer := by
    rw [List.takeWhile_append_of_pos fun other member => by
      simpa using apart other member node List.mem_cons_self]
    simp
  have reversed : (newer ++ node :: older).reverse = older.reverse ++ node :: newer.reverse := by
    simp
  rw [cycleTo, first, stackFrom?, reversed]
  refine slice?_findIdx? (fun other member => ?_) (by simp)
  have absent := (List.nodup_cons.mp ofOlder).1
  simpa using fun same : other = node => absent (same ▸ List.mem_reverse.mp member)

theorem turned?_smallestAt (cycle : List String) :
    turned? (smallestAt cycle) cycle = some (rotated cycle) := by
  cases cycle with
  | nil => rfl
  | cons first rest =>
    have different (node : String) : (! node == rest.foldl smaller first) =
        decide (node ≠ rest.foldl smaller first) := by
      rw [beq_eq_decide, decide_not]
    simp only [smallestAt, turned?_findIdx, different, rotated]

/-- The search for cycles. A child on the stack closes one. -/
def cycleSearch : StackSearch Empty CycleSearch where
  look stack child search :=
    if stack.contains child then do
      let cycle ← stackFrom? child stack
      let turned ← turned? (smallestAt cycle) cycle
      return .pass (search.note turned)
    else if search.done.contains child then some (.pass search)
    else some .enter
  leave node search := { search with done := node :: search.done }

/-- The search for depths. It stops at a child on the stack, and would do so with more nodes on the
stack than there are. -/
def depthSearch (graph : Adjacency) : StackSearch (List String) (Table String Nat) where
  look stack child known :=
    if known.contains child then some (.pass known)
    else if stack.contains child || decide (graph.keys.length < stack.length) then
      (stackFrom? child stack).map .stop
    else some .enter
  leave node known := known.insert node (depthAbove known (graph.next node))

section Look

variable {path : List String}

theorem contains_reverse (path : List String) (child : String) :
    path.reverse.contains child = path.contains child := by
  rw [Bool.eq_iff_iff]
  simp

/-- Looking at a child never reads beyond the stack. -/
theorem look_cycleSearch (distinct : path.Nodup) (child : String) (search : CycleSearch) :
    cycleSearch.look path.reverse child search =
      some (if path.contains child then .pass (search.note (rotated (cycleTo child path)))
        else if search.done.contains child then .pass search
        else .enter) := by
  simp only [cycleSearch, contains_reverse]
  split
  · rename_i back
    rw [stackFrom?_reverse distinct (by simpa using back)]
    simp only [Option.bind_eq_bind, Option.bind_some, turned?_smallestAt]
    rfl
  · split <;> rfl

theorem look_depthSearch {graph : Adjacency} (trail : graph.Trail path) (child : String)
    (known : Table String Nat) :
    (depthSearch graph).look path.reverse child known =
      some (if known.contains child then .pass known
        else if path.contains child then .stop (cycleTo child path)
        else .enter) := by
  -- A path is never longer than there are nodes, so that only a child on it stops the search.
  have fits : ¬ graph.keys.length < path.length := Nat.not_lt.mpr trail.length_le
  simp only [depthSearch, contains_reverse, List.length_reverse, fits, decide_false,
    Bool.or_false]
  split
  · rfl
  · split
    · rename_i back
      rw [stackFrom?_reverse trail.distinct (by simpa using back)]
      rfl
    · rfl

end Look

namespace Adjacency

variable {graph : Adjacency} {path : List String} {below : List Frame} {node : String}

theorem onStack_cons (names : below.map Prod.fst = path) (node : String) (seen : Nat) :
    onStack ((node, seen) :: below) = (node :: path).reverse := by
  rw [← names]
  rfl

/-- The recursive search for cycles is one on a stack. -/
theorem explore_comesTo (closed : graph.Closed) {fuel : Nat} (trail : graph.Trail (node :: path))
    (enough : graph.keys.length ≤ fuel + path.length) (names : below.map Prod.fst = path)
    (search : CycleSearch) :
    ComesTo graph.next cycleSearch ((node, 0) :: below) search below
      (.ok (search.explore graph.next fuel path node)) := by
  induction fuel generalizing path node below search with
  | zero =>
    have short := trail.length_le
    simp only [List.length_cons] at short
    omega
  | succ fuel ih =>
    have each : ∀ seen child, (graph.next node)[seen]? = some child → ∀ search,
        ComesTo graph.next cycleSearch ((node, seen) :: below) search ((node, seen + 1) :: below)
          (pure (if (node :: path).contains child then
            search.note (rotated (cycleTo child (node :: path)))
          else if search.done.contains child then search
          else search.explore graph.next fuel (node :: path) child)) := by
      intro seen child read search
      have looked := look_cycleSearch trail.distinct child search
      rw [← onStack_cons names node seen] at looked
      split at looked
      · rename_i back
        rw [if_pos back]
        exact .pass read looked
      · rename_i forward
        rw [if_neg forward]
        split at looked
        · rename_i finished
          rw [if_pos finished]
          exact .pass read looked
        · rename_i fresh
          rw [if_neg fresh]
          refine .enter read looked (ih ?_ ?_ ?_ search)
          · exact trail.push closed (List.mem_of_getElem? read) (by simpa using forward)
          · simp only [List.length_cons]
            omega
          · rw [List.map_cons, names]
    have children := comesTo_children each (List.drop_zero ..) search
    rw [List.foldlM_pure] at children
    exact children

theorem addDepths_comesTo (closed : graph.Closed) {fuel : Nat} (trail : graph.Trail (node :: path))
    (enough : graph.keys.length ≤ fuel + path.length) (names : below.map Prod.fst = path)
    (known : Table String Nat) :
    ComesTo graph.next (depthSearch graph) ((node, 0) :: below) known below
      (addDepths graph.next fuel path node known) := by
  induction fuel generalizing path node below known with
  | zero =>
    have short := trail.length_le
    simp only [List.length_cons] at short
    omega
  | succ fuel ih =>
    have each : ∀ seen child, (graph.next node)[seen]? = some child → ∀ known,
        ComesTo graph.next (depthSearch graph) ((node, seen) :: below) known
          ((node, seen + 1) :: below)
          (if known.contains child then .ok known
          else if (node :: path).contains child then .error (cycleTo child (node :: path))
          else addDepths graph.next fuel (node :: path) child known) := by
      intro seen child read known
      have looked := look_depthSearch trail child known
      rw [← onStack_cons names node seen] at looked
      split at looked
      · rename_i present
        rw [if_pos present]
        exact .pass read looked
      · rename_i new
        rw [if_neg new]
        split at looked
        · rename_i back
          rw [if_pos back]
          exact .stop read looked
        · rename_i forward
          rw [if_neg forward]
          refine .enter read looked (ih ?_ ?_ ?_ known)
          · exact trail.push closed (List.mem_of_getElem? read) (by simpa using forward)
          · simp only [List.length_cons]
            omega
          · rw [List.map_cons, names]
    exact comesTo_children each (List.drop_zero ..) known

/-- The search for cycles from all nodes. -/
def FindsCycles (graph : Adjacency) (cycles : List (List String)) : Prop :=
  ∃ found, RunsAll graph.next cycleSearch (fun search start => search.done.contains start)
    graph.keys {} (.ok found) ∧ found.cycles = cycles

/-- The search for the depth of a node. -/
def FindsDepth (graph : Adjacency) (start : String) (depth : Except (List String) Nat) : Prop :=
  ∃ outcome, Runs graph.next (depthSearch graph) [(start, 0)] .empty outcome ∧
    (outcome.map fun known => (known.find? start).getD 0) = depth

/-- The search for the greatest depth, from all nodes. -/
def FindsMaxDepth (graph : Adjacency) (depth : Except (List String) Nat) : Prop :=
  ∃ outcome, RunsAll graph.next (depthSearch graph) Table.contains graph.keys .empty outcome ∧
    (outcome.map fun known => known.values.foldl max 0) = depth

theorem Closed.findsCycles (closed : graph.Closed) : graph.FindsCycles graph.cycles := by
  have runs : RunsAll graph.next cycleSearch (fun search start => search.done.contains start)
      graph.keys {} (graph.keys.foldlM (fun (search : CycleSearch) start => pure
        (if search.done.contains start then search
        else search.explore graph.next graph.keys.length [] start)) {}) := by
    refine runsAll_starts ?_ ?_ _
    · intro search start finished
      rw [if_pos finished]
      rfl
    · intro start member search fresh
      rw [if_neg (Bool.eq_false_iff.mp fresh)]
      exact (explore_comesTo closed (trail_single member) (Nat.le_refl _) rfl search).runs
  rw [List.foldlM_pure] at runs
  exact ⟨_, runs, rfl⟩

theorem Closed.depths_runs (closed : graph.Closed) {start : String} (member : start ∈ graph.keys)
    {known : Table String Nat} (new : known.contains start = false) :
    Runs graph.next (depthSearch graph) [(start, 0)] known (graph.depths start known) := by
  rw [depths, if_neg (Bool.eq_false_iff.mp new)]
  exact (addDepths_comesTo closed (trail_single member) (Nat.le_refl _) rfl known).runs

theorem Closed.findsDepth (closed : graph.Closed) {start : String} (member : start ∈ graph.keys) :
    graph.FindsDepth start (graph.depthFrom start) :=
  ⟨_, closed.depths_runs member rfl, rfl⟩

theorem Closed.findsMaxDepth (closed : graph.Closed) : graph.FindsMaxDepth graph.maxDepth := by
  refine ⟨_, runsAll_starts ?_ ?_ _, rfl⟩
  · intro known start present
    rw [depths, if_pos present]
  · exact fun start member known new => closed.depths_runs member new

end Adjacency

end PlcAudit.Graph
