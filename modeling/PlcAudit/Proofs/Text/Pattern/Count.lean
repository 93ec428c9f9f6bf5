import Mathlib.Data.List.Nodup
import PlcAudit.Proofs.Text.Pattern.Occurrence

/-!
Whether and how often a pattern matches. A text matches as soon as the pattern matches from some
place on. Where matches that overlap end together, a text has as many matches as it has places at
which a match ends.
-/

namespace PlcAudit.Pattern

/-! Notes of a match -/

theorem Notes.isSome_at?_iff {notes : Notes} {slot : Nat} :
    (notes.at? slot).isSome = true ↔ ∃ note ∈ notes, note.1 = slot := by
  simp [Notes.at?]

/-- A note may be replaced but does not get lost. -/
theorem Notes.isSome_at?_mark {notes : Notes} {slot : Nat} (noted : (notes.at? slot).isSome = true)
    (other position : Nat) : ((notes.mark other position).at? slot).isSome = true := by
  rw [isSome_at?_iff] at noted ⊢
  obtain ⟨note, member, rfl⟩ := noted
  by_cases same : note.1 = other
  · exact ⟨_, List.mem_cons_self, same.symm⟩
  · exact ⟨note, List.mem_cons_of_mem _ (List.mem_filter.mpr ⟨member, by simpa using same⟩), rfl⟩

section

variable {expr : Expr} {text : List Char}

theorem Expr.Matches.isSome_at? {start stop slot : Nat} {notes after : Notes}
    (matched : expr.Matches text start notes stop after)
    (noted : (notes.at? slot).isSome = true) : (after.at? slot).isSome = true := by
  induction matched with
  | sequence _ _ head tail => exact tail (head noted)
  | again _ _ once more => exact more (once noted)
  | preferred _ ih => exact ih noted
  | other _ ih => exact ih noted
  | group _ ih => exact Notes.isSome_at?_mark (ih (Notes.isSome_at?_mark noted _ _)) _ _
  | _ => exact noted

/-- The notes of a match tell where it begins and ends. -/
theorem Expr.Matches.isSome_matchOf? {start stop : Nat} {notes : Notes}
    (matched : (Expr.group 0 expr).Matches text start [] stop notes) :
    (matchOf? notes).isSome = true := by
  obtain ⟨inner, inside, rfl⟩ := Expr.matches_group_iff.mp matched
  have begun := inside.isSome_at? (Notes.isSome_at?_iff.mpr ⟨_, List.mem_cons_self, rfl⟩)
  have first := Notes.isSome_at?_mark begun (2 * 0 + 1) stop
  have last : ((inner.mark (2 * 0 + 1) stop).at? 1).isSome = true :=
    Notes.isSome_at?_iff.mpr ⟨_, List.mem_cons_self, rfl⟩
  obtain ⟨begins, found⟩ := Option.isSome_iff_exists.mp first
  obtain ⟨ends, reached⟩ := Option.isSome_iff_exists.mp last
  rw [Nat.mul_zero] at found
  simp [matchOf?, found, reached]

theorem Expr.isMatch_iff {text : String} :
    expr.program.isMatch text = true ↔
      ∃ start, start ≤ text.toList.length ∧ expr.MatchesAt text.toList start := by
  rw [Program.isMatch]
  rcases Expr.findFrom?_leftmost expr text.toList (Nat.zero_le _) with
    ⟨start, stop, notes, -, inside, matched, -, result⟩ | ⟨nowhere, result⟩
  · rw [result, matched.isSome_matchOf?]
    exact ⟨fun _ => ⟨start, inside, stop, notes, matched⟩, fun _ => rfl⟩
  · rw [result]
    constructor
    · intro found
      cases found
    · rintro ⟨start, inside, matched⟩
      exact absurd matched (nowhere start (Nat.zero_le _) inside)

/-! The ends of the matches -/

/-- A match of the pattern ends at the position. -/
def Expr.EndsAt (expr : Expr) (text : List Char) (stop : Nat) : Prop :=
  ∃ start notes, (Expr.group 0 expr).Matches text start [] stop notes

/-- Matches that overlap end together. -/
def Expr.Settled (expr : Expr) (text : List Char) : Prop :=
  ∀ start stop notes start' stop' notes',
    (Expr.group 0 expr).Matches text start [] stop notes →
    (Expr.group 0 expr).Matches text start' [] stop' notes' →
    start ≤ start' → start' < stop → stop' = stop

theorem Expr.Solid.stop_le (solid : expr.Solid text) {stop : Nat} (ends : expr.EndsAt text stop) :
    stop ≤ text.length := by
  obtain ⟨start, notes, matched⟩ := ends
  have nonempty := (solid start stop notes matched).1
  have bound := matched.stop_le
  omega

/-- The listed matches end one behind the other. -/
theorem Expr.Solid.stops_increasing_from (solid : expr.Solid text) {fuel position : Nat}
    {last : Option Nat} :
    ((findAllFrom expr.program text fuel position last).map Match.stop).Pairwise (· < ·) ∧
      ∀ found ∈ findAllFrom expr.program text fuel position last, position < found.stop := by
  induction fuel generalizing position last with
  | zero => exact ⟨.nil, fun _ member => nomatch member⟩
  | succ fuel ih =>
    rw [findAllFrom]
    by_cases outside : text.length < position
    · simp [outside]
    · rw [if_neg outside]
      rcases solid.findFrom? (Nat.le_of_not_lt outside) with
        ⟨first, -, behind, nonempty, -, result⟩ | ⟨-, result⟩
      · obtain ⟨ordered, beyond⟩ := @ih first.stop (some first.stop)
        simp only [result, beq_iff_eq, Nat.ne_of_lt nonempty, Bool.and_eq_true, false_and,
          if_false, List.map_cons, List.pairwise_cons, List.forall_mem_cons, List.forall_mem_map]
        exact ⟨⟨beyond, ordered⟩, by omega, fun found member => by
          have later := beyond found member
          omega⟩
      · simp [result]

/-- Where the matches of a text end. -/
def Expr.stops (expr : Expr) (text : List Char) : List Nat :=
  (expr.program.findAll text).map Match.stop

@[simp] theorem Expr.length_stops :
    (expr.stops text).length = (expr.program.findAll text).length :=
  List.length_map ..

theorem Expr.Solid.nodup_stops (solid : expr.Solid text) : (expr.stops text).Nodup :=
  (@Expr.Solid.stops_increasing_from _ _ solid (2 * text.length + 3) 0 none).1.imp Nat.ne_of_lt

theorem Expr.Solid.mem_stops_iff (solid : expr.Solid text) (settled : expr.Settled text)
    {stop : Nat} : stop ∈ expr.stops text ↔ expr.EndsAt text stop := by
  rw [Expr.stops, List.mem_map]
  constructor
  · rintro ⟨found, member, rfl⟩
    obtain ⟨notes, matched, -⟩ := solid.fits_of_mem member
    exact ⟨found.start, notes, matched⟩
  · rintro ⟨start, notes, matched⟩
    obtain ⟨found, member, begun, open_⟩ := solid.exists_mem ⟨stop, notes, matched⟩
    obtain ⟨others, also, -⟩ := solid.fits_of_mem member
    exact ⟨found, member, (settled _ _ _ _ _ _ also matched begun open_).symm⟩

end

/-! Texts in parts -/

/-- In every text, the matches are pieces of it, and those that overlap end together. -/
structure Expr.Countable (expr : Expr) : Prop where
  solid : ∀ text, expr.Solid text
  settled : ∀ text, expr.Settled text

namespace Expr.Countable

variable {expr : Expr} {text left right : List Char} {shift : Nat}

theorem mem_stops_iff (countable : expr.Countable) {stop : Nat} :
    stop ∈ expr.stops text ↔ expr.EndsAt text stop :=
  (countable.solid text).mem_stops_iff (countable.settled text)

/-- There are as many matches as places where one ends. -/
theorem length_findAll (countable : expr.Countable) {places : List Nat} (nodup : places.Nodup)
    (ends : ∀ stop, expr.EndsAt text stop ↔ stop ∈ places) :
    (expr.program.findAll text).length = places.length := by
  have same : (expr.stops text).Perm places :=
    (List.perm_ext_iff_of_nodup (countable.solid text).nodup_stops nodup).mpr fun stop =>
      countable.mem_stops_iff.trans (ends stop)
  rw [← same.length_eq, length_stops]

theorem length_findAll_eq_zero (countable : expr.Countable)
    (nowhere : ∀ stop, ¬ expr.EndsAt text stop) : (expr.program.findAll text).length = 0 :=
  countable.length_findAll List.nodup_nil fun stop => iff_of_false (nowhere stop) List.not_mem_nil

/-- The matches of a text are those that end in its front part and those that end behind it. -/
theorem length_findAll_parts (countable : expr.Countable) (short : left.length < shift)
    (front : ∀ stop, stop < shift → (expr.EndsAt text stop ↔ expr.EndsAt left stop))
    (behind : ∀ stop, expr.EndsAt text (shift + stop) ↔ expr.EndsAt right stop) :
    (expr.program.findAll text).length =
      (expr.program.findAll left).length + (expr.program.findAll right).length := by
  have before {stop : Nat} (member : stop ∈ expr.stops left) : stop < shift :=
    Nat.lt_of_le_of_lt ((countable.solid left).stop_le (countable.mem_stops_iff.mp member)) short
  have nodup : (expr.stops left ++ (expr.stops right).map (shift + ·)).Nodup := by
    refine List.nodup_append.mpr ⟨(countable.solid left).nodup_stops,
      List.Nodup.map (fun _ _ same => Nat.add_left_cancel same)
        (countable.solid right).nodup_stops, ?_⟩
    intro stop member other also
    obtain ⟨place, -, rfl⟩ := List.mem_map.mp also
    have bound := before member
    omega
  rw [countable.length_findAll nodup, List.length_append, List.length_map, length_stops,
    length_stops]
  intro stop
  rw [List.mem_append, List.mem_map]
  by_cases early : stop < shift
  · rw [front stop early, countable.mem_stops_iff, or_iff_left]
    rintro ⟨place, -, rfl⟩
    omega
  · obtain ⟨place, rfl⟩ := Nat.exists_eq_add_of_le (Nat.le_of_not_lt early)
    rw [behind, or_iff_right fun member => early (before member)]
    simp [countable.mem_stops_iff]

/-- Where a text is drawn apart, and no match ends in the gap, it has as many matches as before. -/
theorem length_findAll_apart (countable : expr.Countable) {other : List Char} {gap : Nat}
    (front : ∀ stop, stop < shift → (expr.EndsAt other stop ↔ expr.EndsAt text stop))
    (inside : ∀ stop, stop < gap → ¬ expr.EndsAt other (shift + stop))
    (behind : ∀ stop, expr.EndsAt other (shift + gap + stop) ↔ expr.EndsAt text (shift + stop)) :
    (expr.program.findAll other).length = (expr.program.findAll text).length := by
  let moved (stop : Nat) : Nat := if stop < shift then stop else gap + stop
  have kept {stop : Nat} (early : stop < shift) : moved stop = stop := if_pos early
  have pushed (rest : Nat) : moved (shift + rest) = shift + gap + rest := by
    rw [show moved (shift + rest) = gap + (shift + rest) from if_neg (by omega)]
    omega
  have injective : Function.Injective moved := by
    intro stop stop' same
    simp only [moved] at same
    split at same <;> split at same <;> omega
  rw [countable.length_findAll (List.Nodup.map injective (countable.solid text).nodup_stops),
    List.length_map, length_stops]
  intro stop
  rw [List.mem_map]
  constructor
  · intro ends
    by_cases early : stop < shift
    · exact ⟨stop, countable.mem_stops_iff.mpr ((front stop early).mp ends), kept early⟩
    · obtain ⟨place, rfl⟩ := Nat.exists_eq_add_of_le (Nat.le_of_not_lt early)
      by_cases within : place < gap
      · exact absurd ends (inside place within)
      · obtain ⟨rest, rfl⟩ := Nat.exists_eq_add_of_le (Nat.le_of_not_lt within)
        rw [← Nat.add_assoc, behind] at ends
        exact ⟨shift + rest, countable.mem_stops_iff.mpr ends,
          by rw [pushed, Nat.add_assoc]⟩
  · rintro ⟨place, member, rfl⟩
    have ends := countable.mem_stops_iff.mp member
    by_cases early : place < shift
    · rw [kept early]
      exact (front place early).mpr ends
    · obtain ⟨rest, rfl⟩ := Nat.exists_eq_add_of_le (Nat.le_of_not_lt early)
      rw [pushed]
      exact (behind rest).mpr ends

end Expr.Countable

end PlcAudit.Pattern
