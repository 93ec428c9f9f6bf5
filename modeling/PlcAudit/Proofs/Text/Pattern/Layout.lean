import PlcAudit.Proofs.Text.Pattern.Search

/-!
What a pattern matches, and that its layout finds it. A match is read off the pattern alone: it says
where the matched piece ends and which notes its groups make. Threads through the layout of a
pattern arrive exactly where the pattern matches, so a search gives a match from the leftmost place
that has one.
-/

namespace PlcAudit.Pattern

/-- A pattern matches from a position with some notes to a position with some notes. -/
inductive Expr.Matches (text : List Char) : Expr → Nat → Notes → Nat → Notes → Prop where
  | empty {start : Nat} {notes : Notes} : Matches text .empty start notes start notes
  | one {start : Nat} {notes : Notes} {set : CharSet} {c : Char} (read : text[start]? = some c)
      (inside : set.contains c = true) : Matches text (.one set) start notes (start + 1) notes
  | anchor {start : Nat} {notes : Notes} {condition : Anchor}
      (holds : condition.holds (before? text start) text[start]? = true) :
      Matches text (.anchor condition) start notes start notes
  | sequence {first second : Expr} {start middle stop : Nat} {before between after : Notes}
      (head : Matches text first start before middle between)
      (tail : Matches text second middle between stop after) :
      Matches text (.sequence first second) start before stop after
  | preferred {preferred other : Expr} {start stop : Nat} {before after : Notes}
      (inside : Matches text preferred start before stop after) :
      Matches text (.either preferred other) start before stop after
  | other {preferred other : Expr} {start stop : Nat} {before after : Notes}
      (inside : Matches text other start before stop after) :
      Matches text (.either preferred other) start before stop after
  | done {greedy : Bool} {body : Expr} {start : Nat} {notes : Notes} :
      Matches text (.repeated greedy body) start notes start notes
  | again {greedy : Bool} {body : Expr} {start middle stop : Nat} {before between after : Notes}
      (once : Matches text body start before middle between)
      (more : Matches text (.repeated greedy body) middle between stop after) :
      Matches text (.repeated greedy body) start before stop after
  | group {index : Nat} {body : Expr} {start stop : Nat} {before after : Notes}
      (inside : Matches text body start (before.mark (2 * index) start) stop after) :
      Matches text (.group index body) start before stop (after.mark (2 * index + 1) stop)

/-! Matches, part by part -/

section

variable {text : List Char} {start stop : Nat} {notes after : Notes}

@[simp] theorem Expr.matches_empty_iff :
    Expr.empty.Matches text start notes stop after ↔ stop = start ∧ after = notes := by
  constructor
  · intro matched
    cases matched
    exact ⟨rfl, rfl⟩
  · rintro ⟨rfl, rfl⟩
    exact .empty

theorem Expr.matches_one_iff {set : CharSet} :
    (Expr.one set).Matches text start notes stop after ↔
      (∃ c, text[start]? = some c ∧ set.contains c = true) ∧ stop = start + 1 ∧ after = notes := by
  constructor
  · intro matched
    cases matched with
    | one read inside => exact ⟨⟨_, read, inside⟩, rfl, rfl⟩
  · rintro ⟨⟨c, read, inside⟩, rfl, rfl⟩
    exact .one read inside

theorem Expr.matches_anchor_iff {condition : Anchor} :
    (Expr.anchor condition).Matches text start notes stop after ↔
      condition.holds (before? text start) text[start]? = true ∧ stop = start ∧ after = notes := by
  constructor
  · intro matched
    cases matched with
    | anchor holds => exact ⟨holds, rfl, rfl⟩
  · rintro ⟨holds, rfl, rfl⟩
    exact .anchor holds

theorem Expr.matches_sequence_iff {first second : Expr} :
    (Expr.sequence first second).Matches text start notes stop after ↔
      ∃ middle between, first.Matches text start notes middle between ∧
        second.Matches text middle between stop after := by
  constructor
  · intro matched
    cases matched with
    | sequence head tail => exact ⟨_, _, head, tail⟩
  · rintro ⟨middle, between, head, tail⟩
    exact .sequence head tail

theorem Expr.matches_either_iff {preferred other : Expr} :
    (Expr.either preferred other).Matches text start notes stop after ↔
      preferred.Matches text start notes stop after ∨
        other.Matches text start notes stop after := by
  constructor
  · intro matched
    cases matched with
    | preferred inside => exact .inl inside
    | other inside => exact .inr inside
  · rintro (inside | inside)
    · exact .preferred inside
    · exact .other inside

theorem Expr.matches_group_iff {index : Nat} {body : Expr} :
    (Expr.group index body).Matches text start notes stop after ↔
      ∃ inner, body.Matches text start (notes.mark (2 * index) start) stop inner ∧
        after = inner.mark (2 * index + 1) stop := by
  constructor
  · intro matched
    cases matched with
    | group inside => exact ⟨_, inside, rfl⟩
  · rintro ⟨inner, inside, rfl⟩
    exact .group inside

/-- Every character of a piece of text is in the set. -/
def CharSet.Spans (set : CharSet) (text : List Char) (start stop : Nat) : Prop :=
  start ≤ stop ∧ ∀ place, start ≤ place → place < stop →
    ∃ c, text[place]? = some c ∧ set.contains c = true

theorem Expr.matches_run_iff {greedy : Bool} {set : CharSet} :
    (Expr.repeated greedy (.one set)).Matches text start notes stop after ↔
      set.Spans text start stop ∧ after = notes := by
  constructor
  · generalize shape : Expr.repeated greedy (.one set) = expr
    intro matched
    induction matched with
    | done =>
      cases shape
      exact ⟨⟨Nat.le_refl _, fun place _ _ => by omega⟩, rfl⟩
    | again once more _ more_ih =>
      cases shape
      obtain ⟨here, rfl, rfl⟩ := matches_one_iff.mp once
      obtain ⟨⟨ordered, inside⟩, same⟩ := more_ih rfl
      refine ⟨⟨by omega, fun place behind before => ?_⟩, same⟩
      rcases Nat.eq_or_lt_of_le behind with rfl | later
      · exact here
      · exact inside place later before
    | _ => cases shape
  · rintro ⟨⟨ordered, inside⟩, rfl⟩
    obtain ⟨count, rfl⟩ := Nat.exists_eq_add_of_le ordered
    induction count generalizing start with
    | zero => exact .done
    | succ count ih =>
      obtain ⟨c, read, member⟩ := inside start (Nat.le_refl _) (by omega)
      refine .again (.one read member) ?_
      rw [show start + (count + 1) = start + 1 + count by omega]
      exact ih (by omega) fun place behind before => inside place (by omega) (by omega)

end

/-! Steps at their addresses -/

/-- The program has the steps from an address on. -/
def Program.LaidOut (program : Program) (base : Nat) (steps : List Step) : Prop :=
  ∀ index step, steps[index]? = some step → program.steps[base + index]? = some step

section

variable {program : Program} {base : Nat}

theorem Program.laidOut_cons {step : Step} {rest : List Step}
    (laidOut : program.LaidOut base (step :: rest)) :
    program.steps[base]? = some step ∧ program.LaidOut (base + 1) rest := by
  refine ⟨laidOut 0 step rfl, fun index other found => ?_⟩
  have place := laidOut (index + 1) other (by simpa using found)
  rwa [show base + 1 + index = base + (index + 1) by omega]

theorem Program.laidOut_append {first second : List Step}
    (laidOut : program.LaidOut base (first ++ second)) :
    program.LaidOut base first ∧ program.LaidOut (base + first.length) second := by
  constructor
  · intro index step found
    have inside := (List.getElem?_eq_some_iff.mp found).1
    exact laidOut index step (by rwa [List.getElem?_append_left inside])
  · intro index step found
    rw [Nat.add_assoc]
    apply laidOut
    rwa [List.getElem?_append_right (Nat.le_add_right ..), Nat.add_sub_cancel_left]

variable {text : List Char} {position moves : Nat} {address : Nat} {notes result : Notes}

theorem Program.Arrives.of_fork {preferred other : Nat}
    (found : program.steps[address]? = some (.fork preferred other))
    (arrives : program.Arrives text moves position ⟨address, notes⟩ result) :
    ∃ fewer, moves = fewer + 1 ∧
      (program.Arrives text fewer position ⟨preferred, notes⟩ result ∨
        program.Arrives text fewer position ⟨other, notes⟩ result) := by
  obtain ⟨fewer, next, rfl, move, later⟩ := arrives.exists_move (by simp [isWaiting, found])
  simp only [freeMoves, found, List.mem_cons, List.not_mem_nil, or_false] at move
  rcases move with rfl | rfl
  · exact ⟨fewer, rfl, .inl later⟩
  · exact ⟨fewer, rfl, .inr later⟩

theorem Program.Arrives.of_jump {target : Nat}
    (found : program.steps[address]? = some (.jump target))
    (arrives : program.Arrives text moves position ⟨address, notes⟩ result) :
    ∃ fewer, moves = fewer + 1 ∧ program.Arrives text fewer position ⟨target, notes⟩ result := by
  obtain ⟨fewer, next, rfl, move, later⟩ := arrives.exists_move (by simp [isWaiting, found])
  simp only [freeMoves, found, List.mem_singleton] at move
  exact ⟨fewer, rfl, move ▸ later⟩

theorem Program.Arrives.of_mark {slot : Nat}
    (found : program.steps[address]? = some (.mark slot))
    (arrives : program.Arrives text moves position ⟨address, notes⟩ result) :
    ∃ fewer, moves = fewer + 1 ∧
      program.Arrives text fewer position ⟨address + 1, notes.mark slot position⟩ result := by
  obtain ⟨fewer, next, rfl, move, later⟩ := arrives.exists_move (by simp [isWaiting, found])
  simp only [freeMoves, found, List.mem_singleton] at move
  exact ⟨fewer, rfl, move ▸ later⟩

theorem Program.Arrives.of_anchor {condition : Anchor}
    (found : program.steps[address]? = some (.anchor condition))
    (arrives : program.Arrives text moves position ⟨address, notes⟩ result) :
    condition.holds (before? text position) text[position]? = true ∧ ∃ fewer, moves = fewer + 1 ∧
      program.Arrives text fewer position ⟨address + 1, notes⟩ result := by
  obtain ⟨fewer, next, rfl, move, later⟩ := arrives.exists_move (by simp [isWaiting, found])
  simp only [freeMoves, found, List.mem_ite_nil_right, List.mem_singleton] at move
  exact ⟨move.1, fewer, rfl, move.2 ▸ later⟩

theorem Program.Arrives.of_one {set : CharSet}
    (found : program.steps[address]? = some (.one set))
    (arrives : program.Arrives text moves position ⟨address, notes⟩ result) :
    ∃ c fewer, text[position]? = some c ∧ set.contains c = true ∧ moves = fewer + 1 ∧
      program.Arrives text fewer (position + 1) ⟨address + 1, notes⟩ result := by
  rcases arrives_cases arrives with ⟨accept, _⟩ | ⟨_, _, _, move, _⟩ |
    ⟨fewer, other, c, rfl, one, read, inside, later⟩
  · simp [found] at accept
  · simp [freeMoves, found] at move
  · simp only [found, Option.some.injEq, Step.one.injEq] at one
    exact ⟨c, fewer, read, one ▸ inside, rfl, later⟩

theorem Program.Arrives.of_accept (found : program.steps[address]? = some .accept)
    (arrives : program.Arrives text moves position ⟨address, notes⟩ result) : result = notes := by
  rcases arrives_cases arrives with ⟨_, same⟩ | ⟨_, _, _, move, _⟩ | ⟨_, _, _, _, one, _⟩
  · exact same
  · simp [freeMoves, found] at move
  · simp [found] at one

end

/-! Patterns and their layouts -/

theorem layout_sequence_end (first second : Expr) (base : Nat) :
    base + ((Expr.sequence first second).layout base).length =
      base + (first.layout base).length +
        (second.layout (base + (first.layout base).length)).length := by
  change base + (first.layout base ++ _).length = _
  rw [List.length_append, Nat.add_assoc]

theorem layout_either_end (preferred other : Expr) (base : Nat) :
    base + ((Expr.either preferred other).layout base).length =
      base + (preferred.layout (base + 1)).length + 2 +
        (other.layout (base + (preferred.layout (base + 1)).length + 2)).length := by
  change base + (_ :: preferred.layout (base + 1) ++ _ :: _).length = _
  rw [List.length_append, List.length_cons, List.length_cons]
  omega

theorem layout_repeated_end (greedy : Bool) (body : Expr) (base : Nat) :
    base + ((Expr.repeated greedy body).layout base).length =
      base + (body.layout (base + 1)).length + 2 := by
  change base + (_ :: body.layout (base + 1) ++ [_]).length = _
  rw [List.length_append, List.length_cons, List.length_singleton]
  omega

theorem layout_group_end (index : Nat) (body : Expr) (base : Nat) :
    base + ((Expr.group index body).layout base).length =
      base + 1 + (body.layout (base + 1)).length + 1 := by
  change base + (_ :: body.layout (base + 1) ++ [_]).length = _
  rw [List.length_append, List.length_cons, List.length_singleton]
  omega

section

variable {program : Program} {text : List Char}

/-- A thread that arrives from the beginning of a layout matches the pattern on its way. -/
theorem Expr.exists_matches {expr : Expr} {base moves start : Nat} {notes result : Notes}
    (laidOut : program.LaidOut base (expr.layout base))
    (arrives : program.Arrives text moves start ⟨base, notes⟩ result) :
    ∃ stop after fewer, fewer ≤ moves ∧ expr.Matches text start notes stop after ∧
      program.Arrives text fewer stop ⟨base + (expr.layout base).length, after⟩ result := by
  induction expr generalizing base moves start notes with
  | empty => exact ⟨start, notes, moves, Nat.le_refl _, .empty, arrives⟩
  | one set =>
    obtain ⟨c, fewer, read, inside, rfl, later⟩ :=
      arrives.of_one (Program.laidOut_cons laidOut).1
    exact ⟨start + 1, notes, fewer, Nat.le_succ _, .one read inside, later⟩
  | anchor condition =>
    obtain ⟨holds, fewer, rfl, later⟩ := arrives.of_anchor (Program.laidOut_cons laidOut).1
    exact ⟨start, notes, fewer, Nat.le_succ _, .anchor holds, later⟩
  | sequence first second first_ih second_ih =>
    obtain ⟨head, tail⟩ := Program.laidOut_append laidOut
    obtain ⟨middle, between, fewer, less, matched, later⟩ := first_ih head arrives
    obtain ⟨stop, after, least, below, also, beyond⟩ := second_ih tail later
    refine ⟨stop, after, least, Nat.le_trans below less, .sequence matched also, ?_⟩
    rwa [layout_sequence_end]
  | either preferred other preferred_ih other_ih =>
    obtain ⟨fork, inner⟩ := Program.laidOut_cons laidOut
    obtain ⟨head, tail⟩ := Program.laidOut_append inner
    obtain ⟨jump, tail⟩ := Program.laidOut_cons tail
    have place : base + 1 + (preferred.layout (base + 1)).length + 1 =
        base + (preferred.layout (base + 1)).length + 2 := by omega
    rw [place] at tail
    rw [layout_either_end]
    obtain ⟨fewer, rfl, way | way⟩ := arrives.of_fork fork
    · obtain ⟨stop, after, least, below, matched, later⟩ := preferred_ih head way
      obtain ⟨last, rfl, arrived⟩ := later.of_jump jump
      exact ⟨stop, after, last, by omega, .preferred matched, arrived⟩
    · obtain ⟨stop, after, least, below, matched, later⟩ := other_ih tail way
      exact ⟨stop, after, least, by omega, .other matched, later⟩
  | repeated greedy body ih =>
    obtain ⟨fork, inner⟩ := Program.laidOut_cons laidOut
    obtain ⟨inside, jump⟩ := Program.laidOut_append inner
    obtain ⟨jump, _⟩ := Program.laidOut_cons jump
    rw [layout_repeated_end]
    -- Every round spends moves, so the rounds are counted down by them.
    induction moves using Nat.strongRecOn generalizing start notes with
    | ind moves rounds =>
      have way : ∃ fewer, moves = fewer + 1 ∧
          (program.Arrives text fewer start ⟨base + 1, notes⟩ result ∨
            program.Arrives text fewer start
              ⟨base + (body.layout (base + 1)).length + 2, notes⟩ result) := by
        cases greedy with
        | true => exact arrives.of_fork fork
        | false =>
          obtain ⟨fewer, rfl, way⟩ := arrives.of_fork fork
          exact ⟨fewer, rfl, way.symm⟩
      obtain ⟨fewer, rfl, way | way⟩ := way
      · obtain ⟨middle, between, least, below, once, later⟩ := ih inside way
        obtain ⟨last, rfl, back⟩ := later.of_jump jump
        obtain ⟨stop, after, rest, under, more, beyond⟩ := rounds last (by omega) back
        exact ⟨stop, after, rest, by omega, .again once more, beyond⟩
      · exact ⟨start, notes, fewer, Nat.le_succ _, .done, way⟩
  | group index body ih =>
    obtain ⟨opening, inner⟩ := Program.laidOut_cons laidOut
    obtain ⟨inside, closing⟩ := Program.laidOut_append inner
    obtain ⟨closing, _⟩ := Program.laidOut_cons closing
    obtain ⟨fewer, rfl, later⟩ := arrives.of_mark opening
    obtain ⟨stop, after, least, below, matched, beyond⟩ := ih inside later
    obtain ⟨last, rfl, arrived⟩ := beyond.of_mark closing
    refine ⟨stop, _, last, by omega, .group matched, ?_⟩
    rwa [layout_group_end]

/-- Where a pattern matches, a thread can be followed through its layout. -/
theorem Expr.Matches.leads {expr : Expr} {start stop : Nat} {notes after : Notes}
    (matched : expr.Matches text start notes stop after) {base : Nat}
    (laidOut : program.LaidOut base (expr.layout base)) :
    program.Leads text start ⟨base, notes⟩ stop ⟨base + (expr.layout base).length, after⟩ := by
  induction matched generalizing base with
  | empty => exact Program.Leads.refl
  | one read inside =>
    exact fun moves _ arrives =>
      ⟨moves + 1, .take (Program.laidOut_cons laidOut).1 read inside arrives⟩
  | anchor holds =>
    apply Program.leads_of_freeMove
    rw [Program.freeMoves, (Program.laidOut_cons laidOut).1]
    simp only [holds, if_true]
    exact List.mem_singleton_self _
  | @sequence first second start middle stop before between after head tail first_ih second_ih =>
    obtain ⟨here, there⟩ := Program.laidOut_append laidOut
    rw [layout_sequence_end]
    exact (first_ih here).trans (second_ih there)
  | @preferred preferred other start stop before after inside ih =>
    obtain ⟨fork, inner⟩ := Program.laidOut_cons laidOut
    obtain ⟨head, tail⟩ := Program.laidOut_append inner
    obtain ⟨jump, _⟩ := Program.laidOut_cons tail
    rw [layout_either_end]
    refine .trans (Program.leads_of_freeMove ?_) ((ih head).trans (Program.leads_of_freeMove ?_))
    · simp [Program.freeMoves, fork]
    · simp [Program.freeMoves, jump]
  | @other preferred other start stop before after inside ih =>
    obtain ⟨fork, inner⟩ := Program.laidOut_cons laidOut
    obtain ⟨_, tail⟩ := Program.laidOut_append inner
    obtain ⟨_, tail⟩ := Program.laidOut_cons tail
    have place : base + 1 + (preferred.layout (base + 1)).length + 1 =
        base + (preferred.layout (base + 1)).length + 2 := by omega
    rw [place] at tail
    rw [layout_either_end]
    refine .trans (Program.leads_of_freeMove ?_) (ih tail)
    simp [Program.freeMoves, fork]
  | @done greedy body start notes =>
    obtain ⟨fork, _⟩ := Program.laidOut_cons laidOut
    rw [layout_repeated_end]
    apply Program.leads_of_freeMove
    cases greedy <;> simp_all [Program.freeMoves]
  | @again greedy body start middle stop before between after once more once_ih more_ih =>
    obtain ⟨fork, inner⟩ := Program.laidOut_cons laidOut
    obtain ⟨inside, jump⟩ := Program.laidOut_append inner
    obtain ⟨jump, _⟩ := Program.laidOut_cons jump
    refine .trans (Program.leads_of_freeMove ?_)
      ((once_ih inside).trans (.trans (Program.leads_of_freeMove ?_) (more_ih laidOut)))
    · cases greedy <;> simp_all [Program.freeMoves]
    · simp [Program.freeMoves, jump]
  | @group index body start stop before after inside ih =>
    obtain ⟨opening, inner⟩ := Program.laidOut_cons laidOut
    obtain ⟨within, closing⟩ := Program.laidOut_append inner
    obtain ⟨closing, _⟩ := Program.laidOut_cons closing
    rw [layout_group_end]
    refine .trans (Program.leads_of_freeMove ?_)
      ((ih within).trans (Program.leads_of_freeMove ?_))
    · simp [Program.freeMoves, opening]
    · simp [Program.freeMoves, closing]

end

/-! Searching with a pattern -/

/-- The pattern matches from a position on. -/
def Expr.MatchesAt (expr : Expr) (text : List Char) (start : Nat) : Prop :=
  ∃ stop notes, (Expr.group 0 expr).Matches text start [] stop notes

theorem Expr.arrives_program_iff {expr : Expr} {text : List Char} {start : Nat} {notes : Notes} :
    (∃ moves, expr.program.Arrives text moves start ⟨0, []⟩ notes) ↔
      ∃ stop, (Expr.group 0 expr).Matches text start [] stop notes := by
  have whole : expr.program.LaidOut 0 ((Expr.group 0 expr).layout 0 ++ [.accept]) := by
    intro index step found
    rw [Nat.zero_add]
    simpa [Expr.program] using found
  obtain ⟨laidOut, ending⟩ := Program.laidOut_append whole
  have accept := (Program.laidOut_cons ending).1
  constructor
  · rintro ⟨moves, arrives⟩
    obtain ⟨stop, after, fewer, _, matched, arrived⟩ := Expr.exists_matches laidOut arrives
    obtain rfl := arrived.of_accept accept
    exact ⟨stop, matched⟩
  · rintro ⟨stop, matched⟩
    exact matched.leads laidOut 0 notes (.accept accept)

theorem Expr.able_program_iff {expr : Expr} {text : List Char} {start : Nat} :
    expr.program.Able text start ⟨0, []⟩ ↔ expr.MatchesAt text start := by
  constructor
  · intro able
    obtain ⟨moves, notes, arrives⟩ := able.exists_arrives
    obtain ⟨stop, matched⟩ := arrives_program_iff.mp ⟨moves, arrives⟩
    exact ⟨stop, notes, matched⟩
  · rintro ⟨stop, notes, matched⟩
    obtain ⟨moves, arrives⟩ := arrives_program_iff.mpr ⟨stop, matched⟩
    exact arrives.able

/-- A search finds a match from the leftmost place that has one, and finds none only where no place
has one. -/
theorem Expr.findFrom?_leftmost (expr : Expr) (text : List Char) {position : Nat}
    (inside : position ≤ text.length) :
    (∃ start stop notes, position ≤ start ∧ start ≤ text.length ∧
      (Expr.group 0 expr).Matches text start [] stop notes ∧
      (∀ earlier, position ≤ earlier → earlier < start → ¬ expr.MatchesAt text earlier) ∧
      expr.program.findFrom? text position = matchOf? notes) ∨
    ((∀ start, position ≤ start → start ≤ text.length → ¬ expr.MatchesAt text start) ∧
      expr.program.findFrom? text position = none) := by
  have found := (run_finds expr.program text position [] none rfl inside).leftmost
    (by simp) rfl
  have search : expr.program.findFrom? text position =
      (run expr.program position (before? text position) [] none (text.drop position)).bind
        matchOf? := by
    simp only [Program.findFrom?, before?, beq_iff_eq]
  rw [search]
  cases result : run expr.program position (before? text position) [] none (text.drop position) with
  | none =>
    rw [result] at found
    exact .inr ⟨fun start behind bounded matched =>
      found start behind bounded (able_program_iff.mpr matched), rfl⟩
  | some notes =>
    rw [result] at found
    obtain ⟨start, moves, behind, bounded, arrives, least⟩ := found
    obtain ⟨stop, matched⟩ := arrives_program_iff.mp ⟨moves, arrives⟩
    exact .inl ⟨start, stop, notes, behind, bounded, matched,
      fun earlier after before present => least earlier after before (able_program_iff.mpr present),
      rfl⟩

/-- A pattern text that can be read is searched with what it reads as. -/
theorem compile_of_parse {text : String} {expr : Expr} (parsed : parse? text = some expr) :
    compile text = expr.program := by
  rw [compile, parsed]

end PlcAudit.Pattern
