import PlcAudit.Proofs.Flow.Path

/-!
Reads that come before any write on a path, and the bookkeeping of the structural pass about them:
names that are assigned on every path, and accesses as facts.
-/

namespace PlcAudit.Flow

open Code

/-- The names written once an event has happened. -/
def Event.writes (written : Names) : Event → Names
  | .access (.write name _) => Text.upper name :: written
  | _ => written

def writtenAfter (written : Names) (trace : List Event) : Names := trace.foldl Event.writes written

/-- A read on a path before which the variable is not written. -/
def Exposed (written : Names) (trace : List Event) (name : String) (line : Nat) : Prop :=
  ∃ before after, trace = before ++ .access (.read name line) :: after ∧
    Text.upper name ∉ writtenAfter written before

@[simp] theorem writtenAfter_nil (written : Names) : writtenAfter written [] = written := rfl

@[simp] theorem writtenAfter_append (written : Names) (first second : List Event) :
    writtenAfter written (first ++ second) = writtenAfter (writtenAfter written first) second :=
  List.foldl_append

@[simp] theorem writtenAfter_enter (written : Names) (id : Nat) (trace : List Event) :
    writtenAfter written (.enter id :: trace) = writtenAfter written trace := rfl

theorem Event.subset_writes (written : Names) (event : Event) : written ⊆ event.writes written := by
  rcases event with id | ⟨name, line⟩ | ⟨name, line⟩ | ⟨name, line⟩ <;> simp [Event.writes]

theorem Event.writes_mono {fewer more : Names} (included : fewer ⊆ more) (event : Event) :
    event.writes fewer ⊆ event.writes more := by
  rcases event with id | ⟨name, line⟩ | ⟨name, line⟩ | ⟨name, line⟩
  case access.write => exact List.cons_subset_cons _ included
  all_goals exact included

theorem subset_writtenAfter (written : Names) (trace : List Event) :
    written ⊆ writtenAfter written trace := by
  induction trace generalizing written with
  | nil => exact List.Subset.refl _
  | cons event rest ih => exact List.Subset.trans (event.subset_writes written) (ih _)

theorem writtenAfter_mono {fewer more : Names} (included : fewer ⊆ more) (trace : List Event) :
    writtenAfter fewer trace ⊆ writtenAfter more trace := by
  induction trace generalizing fewer more with
  | nil => exact included
  | cons event rest ih => exact ih (event.writes_mono included)

/-- Only a write adds a name. -/
theorem mem_writtenAfter {written : Names} {trace : List Event} {key : String}
    (member : key ∈ writtenAfter written trace) :
    key ∈ written ∨ ∃ name line, .access (.write name line) ∈ trace ∧ Text.upper name = key := by
  induction trace generalizing written with
  | nil => exact .inl member
  | cons event rest ih =>
    rcases ih member with before | ⟨name, line, present, same⟩
    · rcases event with id | ⟨name, line⟩ | ⟨name, line⟩ | ⟨name, line⟩
      case access.write =>
        rcases List.mem_cons.mp before with same | old
        · exact .inr ⟨name, line, List.mem_cons_self .., same.symm⟩
        · exact .inl old
      all_goals exact .inl before
    · exact .inr ⟨name, line, List.mem_cons_of_mem _ present, same⟩

theorem not_exposed_nil {written : Names} {name : String} {line : Nat} :
    ¬ Exposed written [] name line := by
  rintro ⟨before, after, split, _⟩
  simp at split

/-- An exposed read is of a variable not written before. -/
theorem Exposed.fresh {written : Names} {trace : List Event} {name : String} {line : Nat}
    (exposed : Exposed written trace name line) : Text.upper name ∉ written := by
  obtain ⟨before, after, _, unwritten⟩ := exposed
  exact fun early => unwritten (subset_writtenAfter written before early)

/-- A read on two stretches of a path lies on the first or on the second. -/
theorem Exposed.of_append {written : Names} {first second : List Event} {name : String} {line : Nat}
    (exposed : Exposed written (first ++ second) name line) :
    Exposed written first name line ∨ Exposed (writtenAfter written first) second name line := by
  obtain ⟨before, after, split, unwritten⟩ := exposed
  rcases List.append_eq_append_iff.mp split with ⟨middle, front, back⟩ | ⟨middle, front, back⟩
  · subst front
    exact .inr ⟨middle, after, back, by simpa using unwritten⟩
  · cases middle with
    | nil =>
      simp only [List.append_nil] at front
      subst front
      exact .inr ⟨[], after, back.symm, by simpa using unwritten⟩
    | cons event middle =>
      obtain ⟨same, _⟩ := List.cons.inj back
      subst event
      exact .inl ⟨before, middle, front, unwritten⟩

theorem Exposed.of_cons {written : Names} {event : Event} {rest : List Event} {name : String}
    {line : Nat} (exposed : Exposed written (event :: rest) name line) :
    (event = .access (.read name line) ∧ Text.upper name ∉ written) ∨
      Exposed (event.writes written) rest name line := by
  obtain ⟨before, after, split, unwritten⟩ := exposed
  cases before with
  | nil =>
    obtain ⟨same, _⟩ := List.cons.inj split
    exact .inl ⟨same, unwritten⟩
  | cons first before =>
    obtain ⟨same, tail⟩ := List.cons.inj split
    subst first
    exact .inr ⟨before, after, tail, unwritten⟩

/-- Fewer names written before expose more reads. -/
theorem Exposed.mono {fewer more : Names} {trace : List Event} {name : String} {line : Nat}
    (included : fewer ⊆ more) (exposed : Exposed more trace name line) :
    Exposed fewer trace name line := by
  obtain ⟨before, after, split, unwritten⟩ := exposed
  exact ⟨before, after, split, fun member => unwritten (writtenAfter_mono included before member)⟩

/-! Names and accesses of the pass -/

theorem Names.mem_insert {names : Names} {name key : String} :
    key ∈ names.insert name ↔ key = Text.upper name ∨ key ∈ names := by
  unfold Names.insert
  split
  · rename_i present
    have known : Text.upper name ∈ names := by simpa using present
    exact ⟨.inr, fun member => member.elim (fun same => same ▸ known) id⟩
  · exact List.mem_cons

theorem Names.insert_subset_cons (names : Names) (name : String) :
    names.insert name ⊆ Text.upper name :: names := fun _ member =>
  List.mem_cons.mpr (Names.mem_insert.mp member)

/-- What branches have in common is part of what each of them has. -/
theorem Names.common_subset {states : List Names} {state : Names} (before : Names)
    (member : state ∈ states) :
    (Names.common? states).getD before ⊆ state := by
  cases states with
  | nil => simp at member
  | cons first rest =>
    intro name common
    simp only [Names.common?, Option.getD_some, List.mem_filter, List.all_eq_true,
      List.contains_iff_mem] at common
    rcases List.mem_cons.mp member with same | later
    · exact same ▸ common.1
    · exact common.2 state later

theorem observe_after_subset (reachable : Bool) (assigned : Names) (accesses : List Access) :
    (observe reachable assigned accesses).2 ⊆ writtenAfter assigned (accessed accesses) := by
  induction accesses generalizing assigned with
  | nil => exact List.Subset.refl _
  | cons access rest ih =>
    rcases access with ⟨name, line⟩ | ⟨name, line⟩ | ⟨name, line⟩
    case write =>
      exact List.Subset.trans (ih _)
        (writtenAfter_mono (assigned.insert_subset_cons name) (accessed rest))
    all_goals exact ih assigned

/-- Every read that is exposed where code can run becomes an exposed fact. -/
theorem observe_exposed {assigned : Names} {accesses : List Access} {name : String} {line : Nat}
    (exposed : Exposed assigned (accessed accesses) name line) :
    .read name line true ∈ (observe true assigned accesses).1 := by
  induction accesses generalizing assigned with
  | nil => exact absurd exposed not_exposed_nil
  | cons access rest ih =>
    rcases exposed.of_cons with ⟨same, unwritten⟩ | later
    · cases same
      simp [observe, unwritten]
    · rcases access with ⟨other, at_⟩ | ⟨other, at_⟩ | ⟨other, at_⟩
      case write =>
        exact List.mem_cons_of_mem _ (ih (later.mono (assigned.insert_subset_cons other)))
      all_goals exact List.mem_cons_of_mem _ (ih later)

/-- Every call becomes a fact. -/
theorem observe_called {reachable : Bool} {assigned : Names} {accesses : List Access}
    {name : String} {line : Nat} (member : .access (.call name line) ∈ accessed accesses) :
    .call name line ∈ (observe reachable assigned accesses).1 := by
  induction accesses generalizing assigned with
  | nil => cases member
  | cons access rest ih =>
    rcases List.mem_cons.mp member with here | later
    · cases here
      exact List.mem_cons_self ..
    · cases access <;> exact List.mem_cons_of_mem _ (ih later)

theorem not_enter_mem_accessed {id : Nat} {accesses : List Access} :
    .enter id ∉ accessed accesses := by
  simp [accessed]

end PlcAudit.Flow
