import Mathlib.Tactic.Common
import PlcAudit.Text.Pattern.Matcher

/-!
The search with a laid out pattern. A thread arrives when its steps can be followed to the end of
the layout. Of several threads the search gives notes of the first that can arrive, although it
follows every address only once at each position; of several places to start, it gives notes of the
leftmost from which a thread can arrive.
-/

namespace PlcAudit.Pattern

/-! Moves of a thread -/

/-- The character in front of a position. -/
def before? (text : List Char) (position : Nat) : Option Char :=
  if position = 0 then none else text[position - 1]?

theorem before?_succ (text : List Char) (position : Nat) :
    before? text (position + 1) = text[position]? := rfl

/-- Notes a position in a slot; an earlier note of the slot is dropped. -/
def Notes.mark (notes : Notes) (slot position : Nat) : Notes :=
  (slot, position) :: notes.filter fun note => note.1 != slot

/-- Where a thread may go without a character, in order of preference. -/
def Program.freeMoves (program : Program) (text : List Char) (position : Nat) (thread : Thread) :
    List Thread :=
  match program.steps[thread.address]? with
  | some (.fork preferred other) => [⟨preferred, thread.notes⟩, ⟨other, thread.notes⟩]
  | some (.jump target) => [⟨target, thread.notes⟩]
  | some (.mark slot) => [⟨thread.address + 1, thread.notes.mark slot position⟩]
  | some (.anchor condition) =>
    if condition.holds (before? text position) text[position]? then
      [⟨thread.address + 1, thread.notes⟩]
    else []
  | _ => []

/-- The thread needs a character, or has arrived. -/
def Program.isWaiting (program : Program) (thread : Thread) : Bool :=
  match program.steps[thread.address]? with
  | some (.one _) => true
  | some .accept => true
  | _ => false

/-- A thread can be followed to the end of the layout in a number of moves, and has these notes
there. -/
inductive Program.Arrives (program : Program) (text : List Char) :
    Nat → Nat → Thread → Notes → Prop where
  | accept {position : Nat} {thread : Thread}
      (found : program.steps[thread.address]? = some .accept) :
      Arrives program text 0 position thread thread.notes
  | free {moves position : Nat} {thread next : Thread} {notes : Notes}
      (move : next ∈ program.freeMoves text position thread)
      (later : Arrives program text moves position next notes) :
      Arrives program text (moves + 1) position thread notes
  | take {moves position : Nat} {thread : Thread} {notes : Notes} {set : CharSet} {c : Char}
      (found : program.steps[thread.address]? = some (.one set))
      (read : text[position]? = some c) (inside : set.contains c = true)
      (later : Arrives program text moves (position + 1) ⟨thread.address + 1, thread.notes⟩ notes) :
      Arrives program text (moves + 1) position thread notes

section

variable {program : Program} {text : List Char} {position moves : Nat} {thread : Thread}
  {notes : Notes}

/-- What the step of a thread says about its way. -/
theorem Program.arrives_cases (arrives : program.Arrives text moves position thread notes) :
    (program.steps[thread.address]? = some .accept ∧ notes = thread.notes) ∨
    (∃ fewer next, moves = fewer + 1 ∧ next ∈ program.freeMoves text position thread ∧
      program.Arrives text fewer position next notes) ∨
    ∃ fewer set c, moves = fewer + 1 ∧ program.steps[thread.address]? = some (.one set) ∧
      text[position]? = some c ∧ set.contains c = true ∧
      program.Arrives text fewer (position + 1) ⟨thread.address + 1, thread.notes⟩ notes := by
  cases arrives with
  | accept found => exact .inl ⟨found, rfl⟩
  | free move later => exact .inr (.inl ⟨_, _, rfl, move, later⟩)
  | take found read inside later => exact .inr (.inr ⟨_, _, _, rfl, found, read, inside, later⟩)

/-- A thread that waits for no character goes on by a move. -/
theorem Program.Arrives.exists_move
    (arrives : program.Arrives text moves position thread notes)
    (moving : program.isWaiting thread = false) :
    ∃ fewer next, moves = fewer + 1 ∧ next ∈ program.freeMoves text position thread ∧
      program.Arrives text fewer position next notes := by
  unfold isWaiting at moving
  rcases arrives_cases arrives with ⟨found, _⟩ | moved | ⟨_, _, _, _, found, _⟩
  · simp [found] at moving
  · exact moved
  · simp [found] at moving

theorem Program.freeMoves_of_isWaiting (waiting : program.isWaiting thread = true) :
    program.freeMoves text position thread = [] := by
  unfold isWaiting at waiting
  unfold freeMoves
  split at waiting <;> simp_all

theorem Program.length_freeMoves_le (program : Program) (text : List Char) (position : Nat)
    (thread : Thread) :
    (program.freeMoves text position thread).length ≤ 2 := by
  unfold freeMoves
  split
  · simp
  · simp
  · simp
  · split <;> simp
  · simp

theorem Program.freeMoves_of_size_le (outside : program.steps.size ≤ thread.address) :
    program.freeMoves text position thread = [] := by
  unfold freeMoves
  rw [Array.getElem?_eq_none outside]

/-- Where a thread goes does not depend on its notes. -/
theorem Program.exists_freeMove {next : Thread}
    (move : next ∈ program.freeMoves text position thread) (other : Notes) :
    ∃ also ∈ program.freeMoves text position ⟨thread.address, other⟩,
      also.address = next.address := by
  unfold freeMoves at move ⊢
  dsimp only
  split at move
  · rcases List.mem_cons.mp move with rfl | later
    · exact ⟨_, List.mem_cons_self, rfl⟩
    · obtain rfl := List.mem_singleton.mp later
      exact ⟨_, List.mem_cons_of_mem _ (List.mem_singleton_self _), rfl⟩
  · obtain rfl := List.mem_singleton.mp move
    exact ⟨_, List.mem_singleton_self _, rfl⟩
  · obtain rfl := List.mem_singleton.mp move
    exact ⟨_, List.mem_singleton_self _, rfl⟩
  · split at move
    · obtain rfl := List.mem_singleton.mp move
      rename_i holds
      rw [if_pos holds]
      exact ⟨_, List.mem_singleton_self _, rfl⟩
    · cases move
  · cases move

/-- Whether a thread arrives does not depend on its notes. -/
theorem Program.Arrives.withNotes (arrives : program.Arrives text moves position thread notes)
    (other : Notes) :
    ∃ result, program.Arrives text moves position ⟨thread.address, other⟩ result := by
  induction arrives generalizing other with
  | accept found => exact ⟨_, .accept found⟩
  | free move later ih =>
    obtain ⟨⟨address, carried⟩, also, rfl⟩ := exists_freeMove move other
    obtain ⟨result, arrives⟩ := ih carried
    exact ⟨result, .free also arrives⟩
  | take found read inside later ih =>
    obtain ⟨result, arrives⟩ := ih other
    exact ⟨result, .take found read inside arrives⟩

end

/-! Threads that can arrive -/

/-- Threads at an address arrive in a number of moves. -/
def Program.AbleIn (program : Program) (text : List Char) (moves position address : Nat) : Prop :=
  ∃ notes, program.Arrives text moves position ⟨address, []⟩ notes

/-- The thread can arrive. -/
def Program.Able (program : Program) (text : List Char) (position : Nat) (thread : Thread) : Prop :=
  ∃ moves, program.AbleIn text moves position thread.address

/-- Wherever the second thread arrives, the first one does, from a position at or before it. -/
def Program.Leads (program : Program) (text : List Char) (position : Nat) (thread : Thread)
    (beyond : Nat) (next : Thread) : Prop :=
  ∀ moves notes, program.Arrives text moves beyond next notes →
    ∃ more, program.Arrives text more position thread notes

/-- The first thread of a list that can arrive. -/
def Program.FirstAble (program : Program) (text : List Char) (position : Nat)
    (threads : List Thread) (thread : Thread) : Prop :=
  ∃ front back, threads = front ++ thread :: back ∧
    (∀ other ∈ front, ¬ program.Able text position other) ∧ program.Able text position thread

section

variable {program : Program} {text : List Char} {position moves : Nat} {thread next : Thread}
  {notes : Notes}

theorem Program.ableIn_iff :
    program.AbleIn text moves position thread.address ↔
      ∃ notes, program.Arrives text moves position thread notes :=
  ⟨fun ⟨_, arrives⟩ => arrives.withNotes thread.notes, fun ⟨_, arrives⟩ => arrives.withNotes []⟩

theorem Program.Arrives.able (arrives : program.Arrives text moves position thread notes) :
    program.Able text position thread :=
  ⟨moves, ableIn_iff.mpr ⟨notes, arrives⟩⟩

theorem Program.Able.exists_arrives (able : program.Able text position thread) :
    ∃ moves notes, program.Arrives text moves position thread notes := by
  obtain ⟨moves, ableIn⟩ := able
  obtain ⟨notes, arrives⟩ := ableIn_iff.mp ableIn
  exact ⟨moves, notes, arrives⟩

theorem Program.Leads.refl : program.Leads text position thread position thread :=
  fun moves _ arrives => ⟨moves, arrives⟩

theorem Program.Leads.trans {beyond further : Nat} {last : Thread}
    (first : program.Leads text position thread beyond next)
    (second : program.Leads text beyond next further last) :
    program.Leads text position thread further last := by
  intro moves notes arrives
  obtain ⟨more, arrives⟩ := second moves notes arrives
  exact first more notes arrives

theorem Program.Leads.able {beyond : Nat} (leads : program.Leads text position thread beyond next)
    (able : program.Able text beyond next) : program.Able text position thread := by
  obtain ⟨moves, notes, arrives⟩ := able.exists_arrives
  obtain ⟨more, arrives⟩ := leads moves notes arrives
  exact arrives.able

theorem Program.FirstAble.cons {threads : List Thread}
    (first : program.FirstAble text position threads thread)
    (unable : ¬ program.Able text position next) :
    program.FirstAble text position (next :: threads) thread := by
  obtain ⟨front, back, rfl, before, able⟩ := first
  exact ⟨next :: front, back, rfl, List.forall_mem_cons.mpr ⟨unable, before⟩, able⟩

theorem Program.leads_of_freeMove (move : next ∈ program.freeMoves text position thread) :
    program.Leads text position thread position next :=
  fun moves _ arrives => ⟨moves + 1, .free move arrives⟩

/-- A thread that waits for no character arrives by a move. -/
theorem Program.AbleIn.exists_freeMove (able : program.AbleIn text moves position thread.address)
    (moving : program.isWaiting thread = false) :
    ∃ fewer, moves = fewer + 1 ∧ ∃ next ∈ program.freeMoves text position thread,
      program.AbleIn text fewer position next.address := by
  obtain ⟨notes, arrives⟩ := ableIn_iff.mp able
  obtain ⟨fewer, next, rfl, move, later⟩ := arrives.exists_move moving
  exact ⟨fewer, rfl, next, move, ableIn_iff.mpr ⟨notes, later⟩⟩

end

/-! Following the moves that need no character -/

/-- The threads that wait at a position of a text. -/
def Program.waitingAt (program : Program) (text : List Char) (position fuel seen : Nat)
    (threads : List Thread) : List Thread :=
  expand program position (before? text position) text[position]? fuel seen threads

/-- Number of addresses that are not seen. -/
def Program.unseen (program : Program) (seen : Nat) : Nat :=
  (List.range program.steps.size).countP fun address => !seen.testBit address

theorem testBit_note (seen address other : Nat) :
    (seen ||| 1 <<< address).testBit other = (seen.testBit other || decide (address = other)) := by
  rw [Nat.testBit_or, Nat.one_shiftLeft, Nat.testBit_two_pow]

section

variable {program : Program} {text : List Char} {position : Nat}

theorem Program.waitingAt_cons (fuel seen : Nat) (thread : Thread) (rest : List Thread) :
    program.waitingAt text position (fuel + 1) seen (thread :: rest) =
      if seen.testBit thread.address then program.waitingAt text position fuel seen rest
      else (if program.isWaiting thread then [thread] else []) ++
        program.waitingAt text position fuel (seen ||| 1 <<< thread.address)
          (program.freeMoves text position thread ++ rest) := by
  rw [waitingAt, expand]
  split
  · rfl
  · unfold isWaiting freeMoves waitingAt
    dsimp only
    cases program.steps[thread.address]? with
    | none => rfl
    | some step =>
      cases step with
      | anchor condition =>
        dsimp only
        split <;> rfl
      | _ => rfl

/-- Every new address leaves fewer to see, and no address has more than two moves. -/
theorem Program.length_freeMoves_add_unseen (program : Program) (text : List Char)
    (position : Nat) {seen : Nat} {thread : Thread} (new : seen.testBit thread.address = false) :
    (program.freeMoves text position thread).length +
      2 * program.unseen (seen ||| 1 <<< thread.address) ≤ 2 * program.unseen seen := by
  have kept (addresses : List Nat) :
      addresses.countP (fun address => !(seen ||| 1 <<< thread.address).testBit address) ≤
        addresses.countP fun address => !seen.testBit address := by
    apply List.countP_mono_left
    intro address _ still
    rw [testBit_note] at still
    simp_all
  by_cases inside : thread.address < program.steps.size
  · have counted : program.unseen (seen ||| 1 <<< thread.address) < program.unseen seen := by
      obtain ⟨front, back, split⟩ := List.append_of_mem (List.mem_range.mpr inside)
      have first := kept front
      have second := kept back
      simp only [unseen, split, List.countP_append, List.countP_cons, testBit_note, new] at *
      simp at *
      omega
    have moves := program.length_freeMoves_le text position thread
    omega
  · have fewer := kept (List.range program.steps.size)
    rw [freeMoves_of_size_le (Nat.le_of_not_lt inside), List.length_nil, Nat.zero_add]
    exact Nat.mul_le_mul_left 2 fewer

theorem Program.isWaiting_of_mem {fuel seen : Nat} {threads : List Thread} {thread : Thread}
    (member : thread ∈ program.waitingAt text position fuel seen threads) :
    program.isWaiting thread = true := by
  induction fuel generalizing seen threads with
  | zero => cases member
  | succ fuel ih =>
    cases threads with
    | nil => cases member
    | cons first rest =>
      rw [waitingAt_cons] at member
      split at member
      · exact ih member
      · rcases List.mem_append.mp member with here | later
        · split at here
          · rename_i waiting
            exact List.mem_singleton.mp here ▸ waiting
          · cases here
        · exact ih later

/-- Where no thread can arrive, none of the waiting ones can. -/
theorem Program.unable_waitingAt {fuel seen : Nat} {threads : List Thread}
    (unable : ∀ thread ∈ threads, ¬ program.Able text position thread) :
    ∀ thread ∈ program.waitingAt text position fuel seen threads,
      ¬ program.Able text position thread := by
  induction fuel generalizing seen threads with
  | zero => exact fun _ member => nomatch member
  | succ fuel ih =>
    cases threads with
    | nil => exact fun _ member => nomatch member
    | cons first rest =>
      obtain ⟨here, later⟩ := List.forall_mem_cons.mp unable
      rw [waitingAt_cons]
      split
      · exact ih later
      · intro thread member
        rcases List.mem_append.mp member with same | beyond
        · split at same
          · exact List.mem_singleton.mp same ▸ here
          · cases same
        · refine ih (fun next moved => ?_) thread beyond
          rcases List.mem_append.mp moved with move | other
          · exact fun able => here ((leads_of_freeMove move).able able)
          · exact later next other

/-- The front of a list of threads is what a thread has led to: it leads to all of them that can
arrive, one of them can, and every address that was seen and can still arrive is on its way through
the front. -/
structure Program.Pending (program : Program) (text : List Char) (position : Nat) (thread : Thread)
    (seen : Nat) (front : List Thread) : Prop where
  derived : ∀ other ∈ front, program.Able text position other →
    program.Leads text position thread position other
  able : ∃ other ∈ front, program.Able text position other
  closer : ∀ moves address, seen.testBit address = true →
    program.AbleIn text moves position address →
    ∃ other ∈ front, ∃ fewer < moves, program.AbleIn text fewer position other.address

namespace Program.Pending

variable {thread first : Thread} {seen : Nat} {front : List Thread}

theorem start (unable : ∀ other ∈ front, ¬ program.Able text position other)
    (able : program.Able text position thread) :
    program.Pending text position thread 0 (front ++ [thread]) where
  derived := by
    intro other member other_able
    rcases List.mem_append.mp member with before | last
    · exact absurd other_able (unable other before)
    · exact List.mem_singleton.mp last ▸ Leads.refl
  able := ⟨thread, List.mem_append_right _ (List.mem_singleton_self _), able⟩
  closer := by
    intro moves address found
    rw [Nat.zero_testBit] at found
    cases found

/-- What an address that was seen leads to is on its way already. -/
theorem drop (pending : program.Pending text position thread seen (first :: front))
    (known : seen.testBit first.address = true) :
    program.Pending text position thread seen front := by
  have closer : ∀ moves address, seen.testBit address = true →
      program.AbleIn text moves position address →
      ∃ other ∈ front, ∃ fewer < moves, program.AbleIn text fewer position other.address := by
    intro moves
    induction moves using Nat.strongRecOn with
    | ind moves nearer =>
      intro address found ableIn
      obtain ⟨other, member, fewer, less, other_able⟩ := pending.closer moves address found ableIn
      rcases List.mem_cons.mp member with same | inside
      · obtain ⟨last, inside, least, below, last_able⟩ :=
          nearer fewer less other.address (same ▸ known) other_able
        exact ⟨last, inside, least, Nat.lt_trans below less, last_able⟩
      · exact ⟨other, inside, fewer, less, other_able⟩
  refine ⟨fun other member => pending.derived other (List.mem_cons_of_mem _ member), ?_, closer⟩
  obtain ⟨other, member, moves, other_able⟩ := pending.able
  rcases List.mem_cons.mp member with same | inside
  · obtain ⟨last, inside, least, _, last_able⟩ :=
      closer moves other.address (same ▸ known) other_able
    exact ⟨last, inside, least, last_able⟩
  · exact ⟨other, inside, moves, other_able⟩

/-- A thread that cannot arrive is passed over. -/
theorem pass (pending : program.Pending text position thread seen (first :: front))
    (unable : ¬ program.Able text position first) :
    program.Pending text position thread (seen ||| 1 <<< first.address) front where
  derived := fun other member => pending.derived other (List.mem_cons_of_mem _ member)
  able := by
    obtain ⟨other, member, other_able⟩ := pending.able
    rcases List.mem_cons.mp member with same | inside
    · exact absurd (same ▸ other_able) unable
    · exact ⟨other, inside, other_able⟩
  closer := by
    intro moves address found ableIn
    have elsewhere : first.address ≠ address := by
      intro same
      exact unable ⟨moves, same ▸ ableIn⟩
    rw [testBit_note, decide_eq_false elsewhere, Bool.or_false] at found
    obtain ⟨other, member, fewer, less, other_able⟩ := pending.closer moves address found ableIn
    rcases List.mem_cons.mp member with same | inside
    · exact absurd ⟨fewer, same ▸ other_able⟩ unable
    · exact ⟨other, inside, fewer, less, other_able⟩

/-- The moves of a thread stand for the thread. -/
theorem follow (pending : program.Pending text position thread seen (first :: front))
    (moving : program.isWaiting first = false) :
    program.Pending text position thread (seen ||| 1 <<< first.address)
      (program.freeMoves text position first ++ front) := by
  have next (moves : Nat) (ableIn : program.AbleIn text moves position first.address) :
      ∃ other ∈ program.freeMoves text position first ++ front, ∃ fewer < moves,
        program.AbleIn text fewer position other.address := by
    obtain ⟨fewer, rfl, other, moved, other_able⟩ := ableIn.exists_freeMove moving
    exact ⟨other, List.mem_append_left _ moved, fewer, Nat.lt_succ_self fewer, other_able⟩
  refine ⟨?_, ?_, ?_⟩
  · intro other member other_able
    rcases List.mem_append.mp member with moved | inside
    · have leads := leads_of_freeMove moved
      exact (pending.derived first List.mem_cons_self (leads.able other_able)).trans leads
    · exact pending.derived other (List.mem_cons_of_mem _ inside) other_able
  · obtain ⟨other, member, moves, other_able⟩ := pending.able
    rcases List.mem_cons.mp member with same | inside
    · obtain ⟨last, present, fewer, _, last_able⟩ := next moves (same ▸ other_able)
      exact ⟨last, present, fewer, last_able⟩
    · exact ⟨other, List.mem_append_right _ inside, moves, other_able⟩
  · intro moves address found ableIn
    by_cases here : first.address = address
    · exact next moves (here ▸ ableIn)
    · rw [testBit_note, decide_eq_false here, Bool.or_false] at found
      obtain ⟨other, member, fewer, less, other_able⟩ := pending.closer moves address found ableIn
      rcases List.mem_cons.mp member with same | inside
      · obtain ⟨last, present, least, below, last_able⟩ := next fewer (same ▸ other_able)
        exact ⟨last, present, least, Nat.lt_trans below less, last_able⟩
      · exact ⟨other, List.mem_append_right _ inside, fewer, less, other_able⟩

/-- The first waiting thread that can arrive comes out of the front. -/
theorem exists_firstAble {fuel : Nat} {back : List Thread}
    (pending : program.Pending text position thread seen front)
    (enough : (front ++ back).length + 2 * program.unseen seen ≤ fuel) :
    ∃ waiting, program.FirstAble text position
        (program.waitingAt text position fuel seen (front ++ back)) waiting ∧
      program.Leads text position thread position waiting := by
  induction fuel generalizing seen front with
  | zero =>
    obtain ⟨other, member, _⟩ := pending.able
    have present := List.length_pos_of_mem member
    rw [List.length_append] at enough
    omega
  | succ fuel ih =>
    cases front with
    | nil =>
      obtain ⟨other, member, _⟩ := pending.able
      cases member
    | cons first front =>
      rw [List.cons_append, List.length_cons] at enough
      rw [List.cons_append, waitingAt_cons]
      by_cases known : seen.testBit first.address = true
      · rw [if_pos known]
        exact ih (pending.drop known) (by omega)
      · rw [if_neg known]
        have left := program.length_freeMoves_add_unseen text position (Bool.not_eq_true _ ▸ known)
        by_cases waits : program.isWaiting first = true
        · rw [if_pos waits, freeMoves_of_isWaiting waits, List.nil_append]
          by_cases able : program.Able text position first
          · exact ⟨first, ⟨[], _, rfl, by simp, able⟩,
              pending.derived first List.mem_cons_self able⟩
          · obtain ⟨waiting, found, leads⟩ := ih (pending.pass able) (by omega)
            exact ⟨waiting, found.cons able, leads⟩
        · rw [if_neg waits, List.nil_append, ← List.append_assoc]
          refine ih (pending.follow (Bool.not_eq_true _ ▸ waits)) ?_
          simp only [List.length_append] at enough ⊢
          omega

end Program.Pending

/-- Of threads that start together, the first that can arrive leads to the first of the waiting
ones that can. -/
theorem Program.FirstAble.exists_waiting {fuel : Nat} {threads : List Thread} {thread : Thread}
    (first : program.FirstAble text position threads thread)
    (enough : threads.length + 2 * program.steps.size ≤ fuel) :
    ∃ waiting, program.FirstAble text position
        (program.waitingAt text position fuel 0 threads) waiting ∧
      program.Leads text position thread position waiting := by
  obtain ⟨front, back, rfl, unable, able⟩ := first
  have counted : program.unseen 0 ≤ program.steps.size := by
    have bounded := List.countP_le_length (p := fun address => !Nat.testBit 0 address)
      (l := List.range program.steps.size)
    rwa [List.length_range] at bounded
  rw [List.append_cons] at enough ⊢
  exact (Pending.start unable able).exists_firstAble (by omega)

end

/-! One character -/

section

variable {program : Program} {text : List Char} {position : Nat} {threads : List Thread}

theorem Program.able_of_accept {thread : Thread}
    (found : program.steps[thread.address]? = some .accept) : program.Able text position thread :=
  (Arrives.accept found).able

theorem Program.able_of_take {thread : Thread} {set : CharSet}
    (found : program.steps[thread.address]? = some (.one set))
    (read : text[position]?.any set.contains = true)
    (able : program.Able text (position + 1) ⟨thread.address + 1, thread.notes⟩) :
    program.Able text position thread := by
  obtain ⟨c, here, inside⟩ := (Option.any_eq_true ..).mp read
  obtain ⟨moves, notes, arrives⟩ := able.exists_arrives
  exact (Arrives.take found here inside arrives).able

theorem advance_none (program : Program) (threads : List Thread) :
    (advance program none threads).1 = [] := by
  induction threads with
  | nil => rfl
  | cons first rest ih =>
    unfold advance
    split
    · rfl
    · exact ih
    · exact ih

/-- Where no thread can arrive, none has arrived and none can after the next character. -/
theorem Program.unable_advance (unable : ∀ thread ∈ threads, ¬ program.Able text position thread) :
    (advance program text[position]? threads).2 = none ∧
      ∀ thread ∈ (advance program text[position]? threads).1,
        ¬ program.Able text (position + 1) thread := by
  induction threads with
  | nil => exact ⟨rfl, fun _ member => nomatch member⟩
  | cons first rest ih =>
    obtain ⟨here, later⟩ := List.forall_mem_cons.mp unable
    obtain ⟨arrived, beyond⟩ := ih later
    unfold advance
    split
    · rename_i found
      exact absurd (able_of_accept found) here
    · rename_i set found
      dsimp only
      split
      · rename_i read
        refine ⟨arrived, List.forall_mem_cons.mpr ⟨?_, beyond⟩⟩
        exact fun able => here (able_of_take found read able)
      · exact ⟨arrived, beyond⟩
    · exact ⟨arrived, beyond⟩

/-- The first waiting thread that can arrive either has arrived, or is the first that can arrive
after the next character. -/
theorem Program.FirstAble.advance {thread : Thread}
    (first : program.FirstAble text position threads thread)
    (waiting : program.isWaiting thread = true) :
    ((advance program text[position]? threads).2 = some thread.notes ∧
      program.Arrives text 0 position thread thread.notes ∧
      ∀ other ∈ (advance program text[position]? threads).1,
        ¬ program.Able text (position + 1) other) ∨
    ∃ next, program.FirstAble text (position + 1) (advance program text[position]? threads).1 next ∧
      program.Leads text position thread (position + 1) next := by
  obtain ⟨front, back, rfl, unable, able⟩ := first
  induction front with
  | nil =>
    obtain ⟨moves, notes, arrives⟩ := able.exists_arrives
    rcases arrives_cases arrives with ⟨found, _⟩ | ⟨_, next, _, move, _⟩ |
      ⟨fewer, set, c, _, found, read, inside, later⟩
    · refine .inl ⟨?_, .accept found, ?_⟩ <;> simp [Pattern.advance, found]
    · rw [freeMoves_of_isWaiting waiting] at move
      cases move
    · refine .inr ⟨⟨thread.address + 1, thread.notes⟩,
        ⟨[], (Pattern.advance program text[position]? back).1, ?_, by simp, later.able⟩, ?_⟩
      · simp [Pattern.advance, found, read, inside]
      · exact fun moves notes arrives => ⟨moves + 1, .take found read inside arrives⟩
  | cons other front ih =>
    obtain ⟨here, later⟩ := List.forall_mem_cons.mp unable
    have rest := ih later
    rw [List.cons_append, Pattern.advance]
    split
    · rename_i found
      exact absurd (able_of_accept found) here
    · rename_i set found
      dsimp only
      split
      · rename_i read
        have stuck : ¬ program.Able text (position + 1) ⟨other.address + 1, other.notes⟩ :=
          fun able => here (able_of_take found read able)
        rcases rest with ⟨arrived, arrives, beyond⟩ | ⟨next, able, leads⟩
        · exact .inl ⟨arrived, arrives, List.forall_mem_cons.mpr ⟨stuck, beyond⟩⟩
        · exact .inr ⟨next, able.cons stuck, leads⟩
      · exact rest
    · exact rest

/-- The threads behind the character at a position, and the notes of the best that has arrived
there. -/
def Program.stepped (program : Program) (text : List Char) (position : Nat)
    (threads : List Thread) : List Thread × Option Notes :=
  Pattern.advance program text[position]? (program.waitingAt text position
    (threads.length + 2 * program.steps.size + 1) 0 threads)

theorem Program.unable_stepped (unable : ∀ thread ∈ threads, ¬ program.Able text position thread) :
    (program.stepped text position threads).2 = none ∧
      ∀ thread ∈ (program.stepped text position threads).1,
        ¬ program.Able text (position + 1) thread :=
  unable_advance (unable_waitingAt unable)

theorem Program.FirstAble.stepped {thread : Thread}
    (first : program.FirstAble text position threads thread) :
    (∃ notes moves, (program.stepped text position threads).2 = some notes ∧
      program.Arrives text moves position thread notes ∧
      ∀ other ∈ (program.stepped text position threads).1,
        ¬ program.Able text (position + 1) other) ∨
    ∃ next, program.FirstAble text (position + 1) (program.stepped text position threads).1 next ∧
      program.Leads text position thread (position + 1) next := by
  obtain ⟨waiting, able, leads⟩ := first.exists_waiting (Nat.le_succ _)
  have waits : program.isWaiting waiting = true := by
    obtain ⟨front, back, found, _⟩ := able
    have member : waiting ∈ front ++ waiting :: back :=
      List.mem_append_right _ List.mem_cons_self
    rw [← found] at member
    exact isWaiting_of_mem member
  rcases able.advance waits with ⟨arrived, arrives, unable⟩ | ⟨next, later, beyond⟩
  · obtain ⟨moves, arrives⟩ := leads _ _ arrives
    exact .inl ⟨_, moves, arrived, arrives, unable⟩
  · exact .inr ⟨next, later, leads.trans beyond⟩

end

/-! The whole search -/

/-- A search from a position on finds notes from the leftmost place where a thread can arrive. -/
def Program.Leftmost (program : Program) (text : List Char) (position : Nat) :
    Option Notes → Prop
  | some notes => ∃ start moves, position ≤ start ∧ start ≤ text.length ∧
      program.Arrives text moves start ⟨0, []⟩ notes ∧
      ∀ earlier, position ≤ earlier → earlier < start → ¬ program.Able text earlier ⟨0, []⟩
  | none => ∀ start, position ≤ start → start ≤ text.length → ¬ program.Able text start ⟨0, []⟩

/-- What a search with some threads under way finds: notes of the first that can arrive, else the
best notes so far, else notes from the leftmost place. -/
structure Program.Finds (program : Program) (text : List Char) (position : Nat)
    (threads : List Thread) (best result : Option Notes) : Prop where
  first : ∀ thread, program.FirstAble text position threads thread →
    ∃ moves notes, result = some notes ∧ program.Arrives text moves position thread notes
  kept : (∀ thread ∈ threads, ¬ program.Able text position thread) → best.isSome = true →
    result = best
  leftmost : (∀ thread ∈ threads, ¬ program.Able text position thread) → best = none →
    program.Leftmost text position result

section

variable {program : Program} {text : List Char} {position : Nat} {threads : List Thread}
  {best : Option Notes}

/-- New attempts start at a position until one has arrived. -/
def startedWith (threads : List Thread) (best : Option Notes) : List Thread :=
  if best.isNone then threads ++ [⟨0, []⟩] else threads

theorem Program.FirstAble.startedWith {thread : Thread}
    (first : program.FirstAble text position threads thread) (best : Option Notes) :
    program.FirstAble text position (startedWith threads best) thread := by
  unfold Pattern.startedWith
  split
  · obtain ⟨front, back, rfl, unable, able⟩ := first
    exact ⟨front, back ++ [⟨0, []⟩], by simp, unable, able⟩
  · exact first

/-- A search without threads is done when it has notes, or has no text left. -/
theorem Program.finds_done (finished : best.isSome = true ∨ text.length < position) :
    program.Finds text position [] best best where
  first := by
    rintro thread ⟨front, back, split, _⟩
    cases front <;> cases split
  kept := fun _ _ => rfl
  leftmost := by
    rintro _ rfl start behind inside
    rcases finished with found | beyond
    · cases found
    · omega

/-- What a search finds behind a character is what it finds in front of it. -/
theorem Program.Finds.back {result : Option Notes} (inside : position ≤ text.length)
    (later : program.Finds text (position + 1)
      (program.stepped text position (startedWith threads best)).1
      ((program.stepped text position (startedWith threads best)).2.or best) result) :
    program.Finds text position threads best result := by
  have started (thread : Thread)
      (able : program.FirstAble text position (startedWith threads best) thread) :
      ∃ moves notes, result = some notes ∧ program.Arrives text moves position thread notes := by
    rcases able.stepped with ⟨notes, moves, arrived, arrives, unable⟩ | ⟨next, able, leads⟩
    · rw [arrived] at later
      exact ⟨moves, notes, later.kept unable rfl, arrives⟩
    · obtain ⟨moves, notes, found, arrives⟩ := later.first next able
      obtain ⟨more, arrives⟩ := leads moves notes arrives
      exact ⟨more, notes, found, arrives⟩
  refine ⟨fun thread able => started thread (able.startedWith best), ?_, ?_⟩
  · intro unable known
    have all : startedWith threads best = threads := by
      simp [startedWith, Option.isSome_iff_ne_none.mp known]
    rw [all] at later
    obtain ⟨arrived, beyond⟩ := unable_stepped unable
    rw [arrived, Option.none_or] at later
    exact later.kept beyond known
  · rintro unable rfl
    have all : startedWith threads none = threads ++ [⟨0, []⟩] := rfl
    by_cases able : program.Able text position ⟨0, []⟩
    · obtain ⟨moves, notes, rfl, arrives⟩ := started ⟨0, []⟩ ⟨threads, [], all, unable, able⟩
      exact ⟨position, moves, Nat.le_refl _, inside, arrives, fun _ _ _ => by omega⟩
    · have none_able : ∀ thread ∈ startedWith threads none,
          ¬ program.Able text position thread := by
        intro thread member
        rw [all, List.mem_append, List.mem_singleton] at member
        rcases member with under | rfl
        · exact unable thread under
        · exact able
      obtain ⟨arrived, beyond⟩ := unable_stepped none_able
      rw [arrived, Option.none_or] at later
      have leftmost := later.leftmost beyond rfl
      have here {start : Nat} (behind : position ≤ start)
          (present : program.Able text start ⟨0, []⟩) : position + 1 ≤ start := by
        rcases Nat.eq_or_lt_of_le behind with rfl | less
        · exact absurd present able
        · exact less
      cases result with
      | none =>
        exact fun start behind bounded present =>
          leftmost start (here behind present) bounded present
      | some notes =>
        obtain ⟨start, moves, behind, bounded, arrives, least⟩ := leftmost
        exact ⟨start, moves, by omega, bounded, arrives,
          fun earlier after before present => least earlier (here after present) before present⟩

theorem run_finds (program : Program) (text : List Char) (position : Nat) (threads : List Thread)
    (best : Option Notes) {rest : List Char} (left : text.drop position = rest)
    (inside : position ≤ text.length) :
    program.Finds text position threads best
      (run program position (before? text position) threads best rest) := by
  induction rest generalizing position threads best with
  | nil =>
    have ended : text.length = position := by
      rw [List.drop_eq_nil_iff] at left
      omega
    have read : text[position]? = none := List.getElem?_eq_none (Nat.le_of_eq ended)
    apply Program.Finds.back inside
    have stepped : run program position (before? text position) threads best [] =
        (program.stepped text position (startedWith threads best)).2.or best := by
      rw [run, Program.stepped, Program.waitingAt, read]
      rfl
    have empty : (program.stepped text position (startedWith threads best)).1 = [] := by
      rw [Program.stepped, read]
      exact advance_none ..
    rw [stepped, empty]
    exact Program.finds_done (.inr (by omega))
  | cons c rest ih =>
    have read : text[position]? = some c := by
      rw [← List.head?_drop, left]
      rfl
    have bounded : position < text.length := (List.getElem?_eq_some_iff.mp read).1
    have shorter : text.drop (position + 1) = rest := by
      rw [← List.drop_drop, left]
      rfl
    have stepped : run program position (before? text position) threads best (c :: rest) =
        if (program.stepped text position (startedWith threads best)).1.isEmpty &&
            ((program.stepped text position (startedWith threads best)).2.or best).isSome then
          (program.stepped text position (startedWith threads best)).2.or best
        else run program (position + 1) (before? text (position + 1))
          (program.stepped text position (startedWith threads best)).1
          ((program.stepped text position (startedWith threads best)).2.or best) rest := by
      rw [run, Program.stepped, Program.waitingAt, before?_succ, read]
      rfl
    apply Program.Finds.back inside
    rw [stepped]
    split
    · rename_i finished
      obtain ⟨empty, found⟩ := Bool.and_eq_true_iff.mp finished
      rw [List.isEmpty_iff.mp empty]
      exact Program.finds_done (.inl found)
    · exact ih _ _ _ shorter bounded

end

end PlcAudit.Pattern
