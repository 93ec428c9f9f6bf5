import Mathlib.Logic.Relation
import PlcAudit.Code.Tree
import PlcAudit.Proofs.Code.Place
import PlcAudit.Proofs.Data.Table

/-!
The parent index as a forest. An index is built exactly when the nodes of its roots have distinct
identities, and then knows each of them with the node it is a part of. Every node climbs to a root:
that is so when the index is built, and every link that is set later keeps it. So parent links never
close a cycle, and the path to the root is always found.
-/

namespace PlcAudit.Code

open Relation

/-- What the index enters for a visit. -/
def Visit.info (visit : Visit) : NodeInfo :=
  { kind := visit.node.kind, span := visit.node.mark.span, parent := visit.parent }

namespace ParentIndex

variable {index next grown : ParentIndex} {visits : List Visit} {id child parent : Nat}

/-! Entering visits -/

/-- A visit is entered if its identity is new. -/
theorem enter_eq_ok_iff (visit : Visit) :
    index.enter visit = .ok next ↔ index.info? visit.node.id = none ∧
      next = ⟨index.nodes.insert visit.node.id visit.info⟩ := by
  simp only [enter]
  split
  · rename_i info known
    simp only [known, reduceCtorEq, false_and, iff_false]
    split
    · split <;> simp
    · simp
  · rename_i fresh
    simp [fresh, Visit.info, eq_comm]

theorem info?_insert_self (index : ParentIndex) (id : Nat) (info : NodeInfo) :
    info? ⟨index.nodes.insert id info⟩ id = some info :=
  Table.find?_insert_self ..

theorem info?_insert_of_ne (index : ParentIndex) {id other : Nat} (different : other ≠ id)
    (info : NodeInfo) : info? ⟨index.nodes.insert id info⟩ other = index.info? other :=
  Table.find?_insert_of_ne _ different _

/-- A node that is entered keeps its entry. -/
theorem info?_enter {visit : Visit} (entered : index.enter visit = .ok next) {info : NodeInfo}
    (known : index.info? id = some info) : next.info? id = some info := by
  obtain ⟨fresh, rfl⟩ := (enter_eq_ok_iff visit).mp entered
  have different : id ≠ visit.node.id := by
    rintro rfl
    rw [fresh] at known
    cases known
  rw [info?_insert_of_ne _ different, known]

theorem foldlM_enter_cons (visit : Visit) (rest : List Visit) :
    (visit :: rest).foldlM enter index = .ok grown ↔
      ∃ next, index.enter visit = .ok next ∧ rest.foldlM enter next = .ok grown := by
  rw [List.foldlM_cons]
  cases entered : index.enter visit with
  | error problem => simp [bind, Except.bind]
  | ok next => simp [bind, Except.bind]

/-- Visits of new and distinct identities are all entered. -/
theorem exists_foldlM_enter (distinct : (visits.map (·.node.id)).Nodup)
    (fresh : ∀ visit ∈ visits, index.info? visit.node.id = none) :
    ∃ grown, visits.foldlM enter index = .ok grown := by
  induction visits generalizing index with
  | nil => exact ⟨index, rfl⟩
  | cons visit rest ih =>
    obtain ⟨absent, others⟩ := List.nodup_cons.mp distinct
    have entered := (enter_eq_ok_iff visit).mpr ⟨fresh visit (List.mem_cons_self ..), rfl⟩
    have later : ∀ other ∈ rest,
        info? ⟨index.nodes.insert visit.node.id visit.info⟩ other.node.id = none := by
      intro other member
      have different : other.node.id ≠ visit.node.id := fun same =>
        absent (List.mem_map.mpr ⟨other, member, same⟩)
      rw [info?_insert_of_ne _ different, fresh other (List.mem_cons_of_mem _ member)]
    obtain ⟨grown, done⟩ := ih others later
    exact ⟨grown, (foldlM_enter_cons visit rest).mpr ⟨_, entered, done⟩⟩

/-- What an index knows after all visits are entered: nothing is lost, the visits were new and
distinct, and nothing else is added. -/
structure Enters (index : ParentIndex) (visits : List Visit) (grown : ParentIndex) : Prop where
  distinct : (visits.map (·.node.id)).Nodup
  fresh : ∀ visit ∈ visits, index.info? visit.node.id = none
  kept : ∀ id info, index.info? id = some info → grown.info? id = some info
  entered : ∀ visit ∈ visits, grown.info? visit.node.id = some visit.info
  only : ∀ id info, grown.info? id = some info →
    index.info? id = some info ∨ ∃ visit ∈ visits, visit.node.id = id

theorem enters_of_foldlM (done : visits.foldlM enter index = .ok grown) :
    Enters index visits grown := by
  induction visits generalizing index with
  | nil =>
    cases done
    exact ⟨.nil, fun _ member => absurd member List.not_mem_nil, fun _ _ known => known,
      fun _ member => absurd member List.not_mem_nil, fun _ _ known => .inl known⟩
  | cons visit rest ih =>
    obtain ⟨next, first, more⟩ := (foldlM_enter_cons visit rest).mp done
    have later := ih more
    have stays {id : Nat} {info : NodeInfo} (known : index.info? id = some info) :
        next.info? id = some info := info?_enter first known
    obtain ⟨absent, made⟩ := (enter_eq_ok_iff visit).mp first
    have stored : next.info? visit.node.id = some visit.info := made ▸ info?_insert_self ..
    refine ⟨?_, ?_, fun id info known => later.kept id info (stays known), ?_, ?_⟩
    · refine List.nodup_cons.mpr ⟨fun repeated => ?_, later.distinct⟩
      obtain ⟨twin, member, same⟩ := List.mem_map.mp repeated
      have unknown := later.fresh twin member
      rw [same, stored] at unknown
      cases unknown
    · intro other member
      rcases List.mem_cons.mp member with rfl | behind
      · exact absent
      · cases known : index.info? other.node.id with
        | none => rfl
        | some info => exact absurd (later.fresh other behind) (by simp [stays known])
    · intro other member
      rcases List.mem_cons.mp member with rfl | behind
      · exact later.kept _ _ stored
      · exact later.entered other behind
    · intro id info known
      rcases later.only id info known with old | ⟨other, member, same⟩
      · by_cases here : id = visit.node.id
        · exact .inr ⟨visit, List.mem_cons_self .., here.symm⟩
        · rw [made, info?_insert_of_ne _ here] at old
          exact .inl old
      · exact .inr ⟨other, List.mem_cons_of_mem _ member, same⟩

end ParentIndex

/-- The nodes of some roots, each at its place. -/
abbrev RootStands (roots : List (Root Mark)) : List Nat → Node → Option Nat → Prop :=
  Stands none (roots.map Node.ofRoot)

namespace ParentIndex

theorem build_eq (roots : List (Root Mark)) :
    build roots = (visitsOf none (roots.map Node.ofRoot)).foldlM enter empty := by
  rw [build, flatMap_rootVisits]

theorem enters_of_build {roots : List (Root Mark)} {index : ParentIndex}
    (built : build roots = .ok index) :
    Enters empty (visitsOf none (roots.map Node.ofRoot)) index :=
  enters_of_foldlM (build_eq roots ▸ built)

/-- An index can be built exactly when identities are distinct. -/
theorem build_ok_iff (roots : List (Root Mark)) :
    (∃ index, build roots = .ok index) ↔ DistinctIds none (roots.map Node.ofRoot) := by
  rw [distinctIds_iff_nodup]
  constructor
  · rintro ⟨index, built⟩
    exact (enters_of_build built).distinct
  · intro distinct
    have fresh : ∀ visit ∈ visitsOf none (roots.map Node.ofRoot),
        empty.info? visit.node.id = none := fun _ _ => rfl
    obtain ⟨index, done⟩ := exists_foldlM_enter distinct fresh
    exact ⟨index, build_eq roots ▸ done⟩

/-! Chains of parents -/

/-- A node has another one as its parent. -/
def Link (index : ParentIndex) (child parent : Nat) : Prop :=
  index.parent? child = some parent

/-- The nodes on the way from a node up to its root. -/
inductive Climbs (index : ParentIndex) : Nat → List Nat → Prop where
  | root {id : Nat} {info : NodeInfo} (known : index.info? id = some info)
      (top : info.parent = none) : Climbs index id [id]
  | step {id parent : Nat} {chain : List Nat} (link : index.Link id parent)
      (above : Climbs index parent chain) : Climbs index id (id :: chain)

/-- Every node that is known climbs to a root. -/
def IsForest (index : ParentIndex) : Prop :=
  ∀ id info, index.info? id = some info → ∃ chain, index.Climbs id chain

variable {index next : ParentIndex} {id child parent : Nat} {chain : List Nat}

theorem link_iff (child parent : Nat) :
    index.Link child parent ↔ ∃ info, index.info? child = some info ∧ info.parent = some parent :=
  Option.bind_eq_some_iff

theorem Link.unique {other : Nat} (link : index.Link child parent)
    (also : index.Link child other) : parent = other :=
  Option.some.inj (link.symm.trans also)

theorem not_link_of_top {info : NodeInfo} (known : index.info? id = some info)
    (top : info.parent = none) (above : Nat) : ¬ index.Link id above := by
  rw [link_iff]
  rintro ⟨other, found, linked⟩
  obtain rfl := Option.some.inj (known.symm.trans found)
  rw [top] at linked
  cases linked

namespace Climbs

theorem head (climbs : index.Climbs id chain) : ∃ rest, chain = id :: rest := by
  cases climbs with
  | root => exact ⟨[], rfl⟩
  | step _ above => exact ⟨_, rfl⟩

theorem known (climbs : index.Climbs id chain) : ∃ info, index.info? id = some info := by
  cases climbs with
  | root known _ => exact ⟨_, known⟩
  | step link _ =>
    obtain ⟨info, known, _⟩ := (link_iff ..).mp link
    exact ⟨info, known⟩

theorem unique (climbs : index.Climbs id chain) {other : List Nat}
    (also : index.Climbs id other) : chain = other := by
  induction climbs generalizing other with
  | root known top =>
    cases also with
    | root => rfl
    | step link _ => exact absurd link (not_link_of_top known top _)
  | step link _ ih =>
    cases also with
    | root known top => exact absurd link (not_link_of_top known top _)
    | step other above =>
      obtain rfl := link.unique other
      rw [ih above]

/-- Every node on the way climbs along the rest of it. -/
theorem of_mem (climbs : index.Climbs id chain) {member : Nat} (present : member ∈ chain) :
    ∃ front back, chain = front ++ back ∧ index.Climbs member back := by
  induction climbs with
  | root known top =>
    obtain rfl := List.mem_singleton.mp present
    exact ⟨[], _, rfl, .root known top⟩
  | @step id parent chain link above ih =>
    rcases List.mem_cons.mp present with rfl | later
    · exact ⟨[], _, rfl, .step link above⟩
    · obtain ⟨front, back, rfl, rest⟩ := ih later
      exact ⟨id :: front, back, rfl, rest⟩

/-- No node comes twice on the way: the way from it would be longer than itself. -/
theorem nodup (climbs : index.Climbs id chain) : chain.Nodup := by
  induction climbs with
  | root => exact List.nodup_singleton _
  | step link above ih =>
    refine List.nodup_cons.mpr ⟨fun again => ?_, ih⟩
    obtain ⟨front, back, rfl, rest⟩ := above.of_mem again
    have same := congrArg List.length ((Climbs.step link above).unique rest)
    simp only [List.length_cons, List.length_append] at same
    omega

theorem isChain (climbs : index.Climbs id chain) : chain.IsChain index.Link := by
  induction climbs with
  | root => exact .singleton _
  | step link above ih =>
    obtain ⟨rest, rfl⟩ := above.head
    exact .cons_cons link ih

/-- The way ends at a node without a parent. -/
theorem last (climbs : index.Climbs id chain) :
    ∃ top, chain.getLast? = some top ∧ index.parent? top = none := by
  induction climbs with
  | @root id info known top =>
    have none : index.parent? id = none := by rw [parent?, known, Option.bind_some, top]
    exact ⟨id, rfl, none⟩
  | step link above ih =>
    obtain ⟨rest, rfl⟩ := above.head
    exact ih

theorem length_le_size (climbs : index.Climbs id chain) : chain.length ≤ index.size := by
  have bound : chain.length ≤ index.nodes.keys.length := by
    apply climbs.nodup.length_le_of_subset
    intro member present
    obtain ⟨_, _, _, rest⟩ := climbs.of_mem present
    obtain ⟨info, known⟩ := rest.known
    exact Table.mem_keys_of_find? known
  rwa [Table.keys, List.length_map] at bound

/-- The way up holds every ancestor. -/
theorem mem_iff (climbs : index.Climbs id chain) (other : Nat) :
    other ∈ chain ↔ ReflTransGen index.Link id other := by
  constructor
  · intro present
    induction climbs with
    | root =>
      obtain rfl := List.mem_singleton.mp present
      exact .refl
    | step link above ih =>
      rcases List.mem_cons.mp present with rfl | later
      · exact .refl
      · exact .head link (ih later)
  · intro reached
    induction reached using ReflTransGen.head_induction_on generalizing chain with
    | refl =>
      obtain ⟨rest, rfl⟩ := climbs.head
      exact List.mem_cons_self ..
    | head link _ ih =>
      cases climbs with
      | root known top => exact absurd link (not_link_of_top known top _)
      | step other above =>
        obtain rfl := link.unique other
        exact List.mem_cons_of_mem _ (ih above)

end Climbs

/-- A chain of ancestors never leads back to where it starts. -/
theorem IsForest.acyclic (forest : index.IsForest) (id : Nat) :
    ¬ TransGen index.Link id id := by
  intro around
  obtain ⟨parent, link, reached⟩ := TransGen.head'_iff.mp around
  obtain ⟨info, known, _⟩ := (link_iff ..).mp link
  obtain ⟨chain, climbs⟩ := forest id info known
  cases climbs with
  | root known top => exact not_link_of_top known top _ link
  | step other above =>
    obtain rfl := link.unique other
    have distinct := (Climbs.step link above).nodup
    exact (List.nodup_cons.mp distinct).1 ((above.mem_iff id).mpr reached)

/-! Paths to the root -/

theorem climb_top {info : NodeInfo} (known : index.info? id = some info)
    (top : info.parent = none) (start room : Nat) (path : List Nat) :
    index.climb start id room path = .ok path.reverse := by
  obtain ⟨kind, span, _⟩ := info
  obtain rfl : _ = none := top
  unfold climb
  rw [known]

theorem climb_link (link : index.Link id parent) (start room : Nat) (path : List Nat) :
    index.climb start id (room + 1) path = index.climb start parent room (parent :: path) := by
  obtain ⟨⟨kind, span, _⟩, known, above⟩ := (link_iff ..).mp link
  obtain rfl : _ = some parent := above
  conv_lhs => unfold climb
  rw [known]

/-- A climb with room for the whole way comes to its end. -/
theorem climb_of_climbs (climbs : index.Climbs id chain) (start : Nat) {room : Nat}
    (enough : chain.length ≤ room + 1) (path : List Nat) :
    index.climb start id room path = .ok (path.reverse ++ chain.tail) := by
  induction climbs generalizing room path with
  | root known top => rw [climb_top known top, List.tail_cons, List.append_nil]
  | step link above ih =>
    obtain ⟨rest, rfl⟩ := above.head
    obtain ⟨room, rfl⟩ : ∃ less, room = less + 1 := ⟨room - 1, by
      simp only [List.length_cons] at enough
      omega⟩
    rw [climb_link link, ih (by simpa using enough)]
    simp

/-- Without a cycle the path to the root is found, as the number of nodes gives enough room. -/
theorem pathToRoot_of_climbs (climbs : index.Climbs id chain) :
    index.pathToRoot id = .ok chain := by
  rw [pathToRoot, climb_of_climbs climbs id (Nat.le_succ_of_le climbs.length_le_size)]
  obtain ⟨rest, rfl⟩ := climbs.head
  rfl

theorem pathToRoot_unknown (unknown : index.info? id = none) :
    index.pathToRoot id = .error (.unknownNode id) := by
  unfold pathToRoot climb
  rw [unknown]

theorem IsForest.pathToRoot_eq_ok_iff (forest : index.IsForest) (id : Nat) (path : List Nat) :
    index.pathToRoot id = .ok path ↔ index.Climbs id path := by
  refine ⟨fun found => ?_, pathToRoot_of_climbs⟩
  cases known : index.info? id with
  | none =>
    rw [pathToRoot_unknown known] at found
    cases found
  | some info =>
    obtain ⟨chain, climbs⟩ := forest id info known
    rw [pathToRoot_of_climbs climbs] at found
    exact Except.ok.inj found ▸ climbs

/-! Setting parents -/

/-- The index with a node attached under another one. -/
def linked (index : ParentIndex) (child parent : Nat) : ParentIndex :=
  ⟨index.nodes.modify child fun info => { info with parent := some parent }⟩

theorem info?_linked_self (index : ParentIndex) (child parent : Nat) :
    (index.linked child parent).info? child =
      (index.info? child).map fun info => { info with parent := some parent } :=
  Table.find?_modify_self ..

theorem info?_linked_of_ne (index : ParentIndex) (different : id ≠ child) (parent : Nat) :
    (index.linked child parent).info? id = index.info? id :=
  Table.find?_modify_of_ne _ different _

/-- All that a request can do: it is refused and changes nothing, it repeats a link, or it links a
root to a parent that does not descend from it. -/
theorem setParent_cases (index : ParentIndex) (child parent : Nat) :
    (∃ problem, index.setParent child parent = (index, .error problem)) ∨
    ∃ info path, index.info? child = some info ∧ index.pathToRoot parent = .ok path ∧
      child ∉ path ∧
      (info.parent = some parent ∧ index.setParent child parent = (index, .ok ()) ∨
        info.parent = none ∧
          index.setParent child parent = (index.linked child parent, .ok ())) := by
  unfold setParent
  split
  · exact .inl ⟨_, rfl⟩
  · exact .inl ⟨_, rfl⟩
  · rename_i info _ known
    split
    · exact .inl ⟨_, rfl⟩
    · rename_i path found
      split
      · exact .inl ⟨_, rfl⟩
      · rename_i fresh
        have apart : child ∉ path := by simpa using fresh
        split
        · rename_i existing held
          split
          · rename_i same
            exact .inr ⟨info, path, known, found, apart, .inl ⟨same ▸ held, rfl⟩⟩
          · exact .inl ⟨_, rfl⟩
        · rename_i held
          exact .inr ⟨info, path, known, found, apart, .inr ⟨held, rfl⟩⟩

/-- A request that is refused leaves the index as it was. -/
theorem setParent_refused {problem : TreeError}
    (refused : index.setParent child parent = (next, .error problem)) : next = index := by
  obtain ⟨_, same⟩ | ⟨_, _, _, _, _, ⟨_, same⟩ | ⟨_, same⟩⟩ := index.setParent_cases child parent
  · exact congrArg Prod.fst (refused.symm.trans same)
  · cases refused.symm.trans same
  · cases refused.symm.trans same

/-- A request that is granted repeats a link or sets one. -/
theorem setParent_granted (done : index.setParent child parent = (next, .ok ())) :
    ∃ info path, index.info? child = some info ∧ index.pathToRoot parent = .ok path ∧
      child ∉ path ∧ (info.parent = some parent ∧ next = index ∨
        info.parent = none ∧ next = index.linked child parent) := by
  obtain ⟨_, same⟩ | ⟨info, path, known, found, apart, ⟨held, same⟩ | ⟨held, same⟩⟩ :=
    index.setParent_cases child parent
  · cases done.symm.trans same
  · exact ⟨info, path, known, found, apart,
      .inl ⟨held, congrArg Prod.fst (done.symm.trans same)⟩⟩
  · exact ⟨info, path, known, found, apart,
      .inr ⟨held, congrArg Prod.fst (done.symm.trans same)⟩⟩

/-- The index after a request, whatever came of it: it is the same, or has a link from a root to a
node that does not descend from it. -/
theorem setParent_index (index : ParentIndex) (child parent : Nat) :
    (index.setParent child parent).1 = index ∨
    ∃ info path, index.info? child = some info ∧ info.parent = none ∧
      index.pathToRoot parent = .ok path ∧ child ∉ path ∧
      (index.setParent child parent).1 = index.linked child parent := by
  obtain ⟨_, same⟩ | ⟨info, path, known, found, apart, ⟨_, same⟩ | ⟨top, same⟩⟩ :=
    index.setParent_cases child parent
  · exact .inl (congrArg Prod.fst same)
  · exact .inl (congrArg Prod.fst same)
  · exact .inr ⟨info, path, known, top, found, apart, congrArg Prod.fst same⟩

/-- A request is granted exactly when both nodes are known, the new parent does not descend from the
node, and the node has no other parent. -/
theorem IsForest.setParent_ok_iff (forest : index.IsForest) (child parent : Nat) :
    (index.setParent child parent).2 = .ok () ↔
      (∃ info, index.info? parent = some info) ∧
      (∃ info, index.info? child = some info ∧
        (info.parent = none ∨ info.parent = some parent)) ∧
      ¬ ReflTransGen index.Link parent child := by
  constructor
  · intro granted
    have done : index.setParent child parent = ((index.setParent child parent).1, .ok ()) :=
      Prod.ext rfl granted
    obtain ⟨info, path, known, found, fresh, outcome⟩ := setParent_granted done
    have climbs := (forest.pathToRoot_eq_ok_iff parent path).mp found
    refine ⟨climbs.known, ⟨info, known, ?_⟩, mt (climbs.mem_iff child).mpr fresh⟩
    rcases outcome with ⟨held, _⟩ | ⟨held, _⟩
    · exact .inr held
    · exact .inl held
  · rintro ⟨⟨above, there⟩, ⟨info, known, held⟩, apart⟩
    obtain ⟨path, climbs⟩ := forest parent above there
    have fresh : path.contains child = false := by
      simpa using mt (climbs.mem_iff child).mp apart
    unfold setParent
    simp only [there, known, pathToRoot_of_climbs climbs, fresh, Bool.false_eq_true, if_false]
    rcases held with none | same
    · rw [none]
    · rw [same]
      exact congrArg Prod.snd (if_pos rfl)

theorem Climbs.linked_of_not_mem (climbs : index.Climbs id chain) (fresh : child ∉ chain)
    (parent : Nat) : (index.linked child parent).Climbs id chain := by
  induction climbs with
  | @root id info known top =>
    have different : id ≠ child := fun same => fresh (same ▸ List.mem_singleton_self _)
    exact .root ((index.info?_linked_of_ne different parent).trans known) top
  | @step id next chain link above ih =>
    obtain ⟨other, rest⟩ := not_or.mp (mt List.mem_cons.mpr fresh)
    have kept := index.info?_linked_of_ne (Ne.symm other) parent
    refine .step ?_ (ih rest)
    rw [Link, parent?, kept]
    exact link

/-- A root that is attached under a node outside its own tree climbs on along the way of that
node, and all that climbed to it go on likewise. -/
theorem IsForest.linked (forest : index.IsForest) {info : NodeInfo}
    (known : index.info? child = some info) (top : info.parent = none)
    (climbs : index.Climbs parent chain) (fresh : child ∉ chain) :
    (index.linked child parent).IsForest := by
  have beyond := climbs.linked_of_not_mem fresh parent
  have onward {id : Nat} {way : List Nat} (up : index.Climbs id way) :
      ∃ way, (index.linked child parent).Climbs id way := by
    induction up with
    | @root id entry held none =>
      by_cases same : id = child
      · subst same
        have link : (index.linked id parent).Link id parent := by
          rw [Link, parent?, info?_linked_self, held]
          rfl
        exact ⟨_, .step link beyond⟩
      · exact ⟨_, .root ((index.info?_linked_of_ne same parent).trans held) none⟩
    | @step id next way link above ih =>
      have different : id ≠ child := by
        rintro rfl
        exact not_link_of_top known top _ link
      obtain ⟨way, rest⟩ := ih
      refine ⟨_, .step ?_ rest⟩
      rw [Link, parent?, info?_linked_of_ne _ different]
      exact link
  intro id entry found
  by_cases same : id = child
  · obtain ⟨way, up⟩ := forest child info known
    exact same ▸ onward up
  · rw [info?_linked_of_ne _ same] at found
    obtain ⟨way, up⟩ := forest id entry found
    exact onward up

/-- A request keeps the forest, granted or not. -/
theorem IsForest.setParent (forest : index.IsForest) (child parent : Nat) :
    (index.setParent child parent).1.IsForest := by
  rcases index.setParent_index child parent with
    same | ⟨info, path, known, top, found, fresh, linked⟩
  · rwa [same]
  · rw [linked]
    exact forest.linked known top ((forest.pathToRoot_eq_ok_iff parent path).mp found) fresh

/-- A granted request sets the one link, and changes nothing else. -/
theorem info?_setParent (done : index.setParent child parent = (next, .ok ())) (id : Nat) :
    next.info? id = (index.info? id).map fun info =>
      if id = child then { info with parent := some parent } else info := by
  obtain ⟨info, path, known, _, _, ⟨held, rfl⟩ | ⟨_, rfl⟩⟩ := setParent_granted done
  · by_cases same : id = child
    · rw [same, known, Option.map_some, if_pos rfl, ← held]
    · simp [same]
  · by_cases same : id = child
    · simp [same, info?_linked_self]
    · simp [same, info?_linked_of_ne]

/-- A link that is set stays, whatever is requested. -/
theorem Link.setParent {above : Nat} (link : index.Link id above) (child parent : Nat) :
    (index.setParent child parent).1.Link id above := by
  rcases index.setParent_index child parent with same | ⟨info, path, known, top, _, _, linked⟩
  · rwa [same]
  · have different : id ≠ child := by
      rintro rfl
      exact not_link_of_top known top _ link
    rw [linked, Link, parent?, info?_linked_of_ne _ different]
    exact link

/-! The index of some roots -/

theorem exists_climbs_of_info {node : Node} {above : Option Nat}
    (known : index.info? node.id = some (Visit.info ⟨node, above⟩))
    (climbs : ∀ id, above = some id → ∃ chain, index.Climbs id chain) :
    ∃ chain, index.Climbs node.id chain := by
  cases above with
  | none => exact ⟨_, .root known rfl⟩
  | some id =>
    obtain ⟨chain, up⟩ := climbs id rfl
    exact ⟨_, .step ((link_iff ..).mpr ⟨_, known, rfl⟩) up⟩

/-- Where an index has an entry for every node of some trees, all of them climb if the node above
the trees does. -/
theorem exists_climbs_of_stands {above : Option Nat} {nodes : List Node} {place : List Nat}
    {node : Node} {owner : Option Nat} (stands : Stands above nodes place node owner)
    (entered : ∀ place node owner, Stands above nodes place node owner →
      index.info? node.id = some (Visit.info ⟨node, owner⟩))
    (climbs : ∀ id, above = some id → ∃ chain, index.Climbs id chain) :
    ∃ chain, index.Climbs node.id chain := by
  induction stands with
  | top found => exact exists_climbs_of_info (entered _ _ _ (.top found)) climbs
  | part found below ih =>
    apply ih
    · exact fun place node owner inner => entered _ _ _ (.part found inner)
    · rintro id ⟨rfl⟩
      exact exists_climbs_of_info (entered _ _ _ (.top found)) climbs

/-- The index knows the nodes of some roots and no others, each with the node it is a part of. -/
structure Describes (index : ParentIndex) (roots : List (Root Mark)) : Prop where
  entered : ∀ place node above, RootStands roots place node above →
    index.info? node.id =
      some { kind := node.kind, span := node.mark.span, parent := above }
  only : ∀ id info, index.info? id = some info →
    ∃ place node above, RootStands roots place node above ∧ node.id = id

theorem describes_of_build {roots : List (Root Mark)} (built : build roots = .ok index) :
    index.Describes roots := by
  have enters := enters_of_build built
  constructor
  · intro place node above stands
    exact enters.entered ⟨node, above⟩ stands.mem_visitsOf
  · intro id info known
    rcases enters.only id info known with absent | ⟨visit, member, same⟩
    · cases absent
    · obtain ⟨place, stands⟩ := (mem_visitsOf_iff visit).mp member
      exact ⟨place, visit.node, visit.parent, stands, same⟩

theorem Describes.isForest {roots : List (Root Mark)} (describes : index.Describes roots) :
    index.IsForest := by
  intro id info known
  obtain ⟨place, node, above, stands, rfl⟩ := describes.only id info known
  exact exists_climbs_of_stands stands describes.entered fun _ absent => by cases absent

/-! Any number of requests -/

/-- The index after requests to attach one node under another, one after the other. -/
def attachAll (index : ParentIndex) (requests : List (Nat × Nat)) : ParentIndex :=
  requests.foldl (fun index request => (index.setParent request.1 request.2).1) index

theorem IsForest.attachAll (forest : index.IsForest) (requests : List (Nat × Nat)) :
    (index.attachAll requests).IsForest :=
  List.foldlRecOn _ _ forest fun _ forest request _ => forest.setParent request.1 request.2

theorem Link.attachAll (link : index.Link child parent) (requests : List (Nat × Nat)) :
    (index.attachAll requests).Link child parent :=
  List.foldlRecOn (motive := fun index : ParentIndex => index.Link child parent) _ _ link
    fun _ link request _ => link.setParent request.1 request.2

/-- What holds of an index whose links lead to roots: links close no cycle, a link that is set
stays whatever is requested later, a request that is refused changes nothing and one that is granted
sets its link and nothing else, and every node that is known has a path to its root. -/
structure Rooted (index : ParentIndex) : Prop where
  acyclic : ∀ id, ¬ TransGen index.Link id id
  kept : ∀ child parent requests, index.Link child parent →
    (index.attachAll requests).Link child parent
  refused : ∀ child parent next problem,
    index.setParent child parent = (next, .error problem) → next = index
  granted : ∀ child parent, (index.setParent child parent).2 = .ok () ↔
    (∃ info, index.info? parent = some info) ∧
    (∃ info, index.info? child = some info ∧
      (info.parent = none ∨ info.parent = some parent)) ∧
    ¬ ReflTransGen index.Link parent child
  changed : ∀ child parent next, index.setParent child parent = (next, .ok ()) → ∀ id,
    next.info? id = (index.info? id).map fun info =>
      if id = child then { info with parent := some parent } else info
  path : ∀ id info, index.info? id = some info → ∃ path top,
    index.pathToRoot id = .ok path ∧ path.head? = some id ∧ path.IsChain index.Link ∧
      path.Nodup ∧ path.getLast? = some top ∧ index.parent? top = none
  unknown : ∀ id problem, index.pathToRoot id = .error problem →
    problem = .unknownNode id ∧ index.info? id = none

theorem IsForest.rooted (forest : index.IsForest) : index.Rooted where
  acyclic := forest.acyclic
  kept := fun _ _ requests link => link.attachAll requests
  refused := fun _ _ _ _ => setParent_refused
  granted := forest.setParent_ok_iff
  changed := fun _ _ _ done => info?_setParent done
  path := by
    intro id info known
    obtain ⟨path, climbs⟩ := forest id info known
    obtain ⟨rest, starts⟩ := climbs.head
    obtain ⟨top, ends, none⟩ := climbs.last
    exact ⟨path, top, pathToRoot_of_climbs climbs, by rw [starts]; rfl, climbs.isChain,
      climbs.nodup, ends, none⟩
  unknown := by
    intro id problem failed
    cases known : index.info? id with
    | none =>
      rw [pathToRoot_unknown known] at failed
      exact ⟨(Except.error.inj failed).symm, rfl⟩
    | some info =>
      obtain ⟨path, climbs⟩ := forest id info known
      rw [pathToRoot_of_climbs climbs] at failed
      cases failed

/-- An index can be built exactly when the nodes of the roots have distinct identities. It then
knows these nodes, each with the node it is a part of, and its links lead to roots, whatever is
requested later. -/
theorem parentIndex_forest (roots : List (Root Mark)) :
    ((∃ index, build roots = .ok index) ↔ DistinctIds none (roots.map Node.ofRoot)) ∧
    ∀ index, build roots = .ok index →
      index.Describes roots ∧ ∀ requests, (index.attachAll requests).Rooted := by
  refine ⟨build_ok_iff roots, fun index built => ?_⟩
  have describes := describes_of_build built
  exact ⟨describes, fun requests => (describes.isForest.attachAll requests).rooted⟩

/-- A program that assigns a negated variable, and a list of global variables beside it. -/
def programAndGlobals : List (Root Mark) :=
  [.pou { tag := ⟨0, .lines 1 4⟩, kind := .program, name := "Main"
          body := [.assign ⟨1, .line 2⟩ { tag := ⟨2, .line 2⟩, name := "level" }
            (.unary ⟨3, .line 2⟩ .minus (.variable ⟨4, .line 2⟩ "offset" [] [] false))] },
    .globals { tag := ⟨5, .line 6⟩, name := "Limits", blocks := [] }]

/-- The list is attached under the negation; then nothing above the negation goes under the list. -/
theorem parentIndex_forest_programAndGlobals :
    ∃ index, build programAndGlobals = .ok index ∧ index.parent? 4 = some 3 ∧
      (index.attachAll [(5, 3)]).setParent 0 5 =
        (index.attachAll [(5, 3)], .error (.parentCycle 0 5)) ∧
      (index.attachAll [(5, 3), (0, 5)]).pathToRoot 5 = .ok [5, 3, 1, 0] ∧
      ¬ TransGen (index.attachAll [(5, 3), (0, 5)]).Link 5 5 := by
  obtain ⟨index, built⟩ : ∃ index, build programAndGlobals = .ok index := ⟨_, rfl⟩
  obtain ⟨describes, rooted⟩ := (parentIndex_forest programAndGlobals).2 index built
  have stands : RootStands programAndGlobals [0, 0, 1, 0]
      (.expr (.variable ⟨4, .line 2⟩ "offset" [] [] false)) (some 3) :=
    .part rfl (.part rfl (.part rfl (.top rfl)))
  have path : (build programAndGlobals).bind
      (fun index => (index.attachAll [(5, 3), (0, 5)]).pathToRoot 5) = .ok [5, 3, 1, 0] := by
    decide +kernel
  have answer : (build programAndGlobals).bind
      (fun index => ((index.attachAll [(5, 3)]).setParent 0 5).2) =
        .error (.parentCycle 0 5) := by
    decide +kernel
  rw [built] at path answer
  refine ⟨index, built, ?_, ?_, path, (rooted _).acyclic 5⟩
  · have entry := describes.entered _ _ _ stands
    rw [parent?]
    exact (congrArg (Option.bind · NodeInfo.parent) entry).trans rfl
  · exact Prod.ext ((rooted [(5, 3)]).refused 0 5 _ _ (Prod.ext rfl answer)) answer

end ParentIndex

end PlcAudit.Code
