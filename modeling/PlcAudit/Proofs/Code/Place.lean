import Mathlib.Data.List.Nodup
import PlcAudit.Code.Node

/-!
Places of nodes in their trees. A node stands where a list of positions leads: a position among the
roots, then one among the parts of that root, and so on. The visits of a tree are the nodes at all
its places, each with the identity of the node above it, and identities are distinct among the
visits exactly when no two places hold the same one.
-/

namespace PlcAudit.Code

/-! Visits by parts -/

/-- Everything inside a node, in source order. -/
def Node.inside : Node → List Visit
  | .pou node =>
    node.blocks.flatMap (VarBlock.visits (some node.tag.id)) ++
      Stmt.visitsAll (some node.tag.id) node.body
  | .globals node => node.blocks.flatMap (VarBlock.visits (some node.tag.id))
  | .block node => node.decls.flatMap (VarDecl.visits (some node.tag.id))
  | .decl node => Expr.visitsOption (some node.tag.id) node.initial
  | .stmt node => (node.visits none).tail
  | .expr node => (node.visits none).tail
  | .target node => Expr.visitsAll (some node.tag.id) node.indices
  | .dataType node =>
    match node.body with
    | .struct tag fields | .union tag fields =>
      ⟨.struct tag fields, some node.tag.id⟩ :: fields.flatMap (VarDecl.visits (some tag.id))
    | .enum tag values => [⟨.enum tag values, some node.tag.id⟩]
    | .alias _ => []
  | .struct tag fields => fields.flatMap (VarDecl.visits (some tag.id))
  | .enum .. => []

/-- A node and everything inside it. -/
def Node.visits (parent : Option Nat) (node : Node) : List Visit :=
  ⟨node, parent⟩ :: node.inside

/-- The visits of several nodes, one after the other. -/
def visitsOf (parent : Option Nat) (nodes : List Node) : List Visit :=
  nodes.flatMap (Node.visits parent)

theorem visitsOf_cons (parent : Option Nat) (node : Node) (rest : List Node) :
    visitsOf parent (node :: rest) = node.visits parent ++ visitsOf parent rest :=
  List.flatMap_cons ..

theorem visitsOf_append (parent : Option Nat) (first second : List Node) :
    visitsOf parent (first ++ second) = visitsOf parent first ++ visitsOf parent second :=
  List.flatMap_append ..

theorem Expr.visits_eq (parent : Option Nat) (expr : Expr Mark) :
    expr.visits parent = (Node.expr expr).visits parent := by
  cases expr <;> rfl

theorem Stmt.visits_eq (parent : Option Nat) (stmt : Stmt Mark) :
    stmt.visits parent = (Node.stmt stmt).visits parent := by
  cases stmt <;> rfl

theorem Expr.visitsAll_eq (parent : Option Nat) (exprs : List (Expr Mark)) :
    Expr.visitsAll parent exprs = visitsOf parent (exprs.map .expr) := by
  induction exprs with
  | nil => rfl
  | cons expr rest ih => rw [Expr.visitsAll, ih, expr.visits_eq, List.map_cons, visitsOf_cons]

theorem Arg.visitsAll_eq (parent : Option Nat) (args : List (Arg Mark)) :
    Arg.visitsAll parent args = visitsOf parent (args.map fun arg => .expr arg.value) := by
  induction args with
  | nil => rfl
  | cons arg rest ih =>
    cases arg with
    | mk name value output =>
      rw [Arg.visitsAll, ih, value.visits_eq, List.map_cons, visitsOf_cons]
      rfl

theorem Expr.visitsOption_eq (parent : Option Nat) (expr : Option (Expr Mark)) :
    Expr.visitsOption parent expr = visitsOf parent (expr.toList.map .expr) := by
  cases expr with
  | none => rfl
  | some expr =>
    rw [Expr.visitsOption, expr.visits_eq]
    exact (List.append_nil _).symm

theorem Stmt.visitsAll_eq (parent : Option Nat) (body : List (Stmt Mark)) :
    Stmt.visitsAll parent body = visitsOf parent (body.map .stmt) := by
  induction body with
  | nil => rw [Stmt.visitsAll]; rfl
  | cons stmt rest ih => rw [Stmt.visitsAll, ih, stmt.visits_eq, List.map_cons, visitsOf_cons]

theorem Stmt.visitsOption_eq (parent : Option Nat) (body : Option (List (Stmt Mark))) :
    Stmt.visitsOption parent body = visitsOf parent ((body.getD []).map .stmt) := by
  cases body with
  | none => rw [Stmt.visitsOption]; rfl
  | some body => rw [Stmt.visitsOption, Stmt.visitsAll_eq]; rfl

theorem Clause.visitsAll_eq (parent : Option Nat) (clauses : List (Clause Mark)) :
    Clause.visitsAll parent clauses = visitsOf parent
      (clauses.flatMap fun clause => .expr clause.condition :: clause.body.map .stmt) := by
  induction clauses with
  | nil => rw [Clause.visitsAll]; rfl
  | cons clause rest ih =>
    cases clause with
    | mk span condition body =>
      rw [Clause.visitsAll, ih, condition.visits_eq, Stmt.visitsAll_eq, List.flatMap_cons,
        visitsOf_append, visitsOf_cons]
      rfl

theorem Element.visitsAll_eq (parent : Option Nat) (elements : List (Element Mark)) :
    Element.visitsAll parent elements = visitsOf parent
      (elements.flatMap fun element => element.labels.map .expr ++ element.body.map .stmt) := by
  induction elements with
  | nil => rw [Element.visitsAll]; rfl
  | cons element rest ih =>
    cases element with
    | mk labels body =>
      rw [Element.visitsAll, ih, Expr.visitsAll_eq, Stmt.visitsAll_eq, List.flatMap_cons,
        visitsOf_append, visitsOf_append]
      rfl

theorem Target.visits_eq (parent : Option Nat) (target : Target Mark) :
    target.visits parent = (Node.target target).visits parent :=
  rfl

theorem flatMap_visits_eq {α : Type} (parent : Option Nat) (items : List α) (node : α → Node) :
    items.flatMap (fun item => (node item).visits parent) = visitsOf parent (items.map node) :=
  (List.flatMap_map ..).symm

theorem Expr.inside_eq :
    (expr : Expr Mark) → (Node.expr expr).inside = visitsOf (some expr.tag.id) expr.children
  | .binary tag op left right => by
    change left.visits _ ++ right.visits _ =
      (Node.expr left).visits _ ++ ((Node.expr right).visits _ ++ [])
    rw [left.visits_eq, right.visits_eq, List.append_nil]
    rfl
  | .unary tag op operand => by
    change operand.visits _ = _
    rw [operand.visits_eq]
    exact (List.append_nil _).symm
  | .literal .. => rfl
  | .variable .. => Expr.visitsAll_eq ..
  | .call .. => Arg.visitsAll_eq ..

theorem Stmt.inside_eq (stmt : Stmt Mark) :
    (Node.stmt stmt).inside = visitsOf (some stmt.tag.id) stmt.children := by
  cases stmt <;>
    simp only [Node.inside, Stmt.visits, List.tail_cons, Stmt.children, Stmt.tag, visitsOf_append,
      visitsOf_cons, Expr.visits_eq, Target.visits_eq, Stmt.visitsAll_eq, Stmt.visitsOption_eq,
      Clause.visitsAll_eq, Element.visitsAll_eq, Expr.visitsOption_eq, Arg.visitsAll_eq,
      List.append_assoc, List.cons_append]
  all_goals simp [visitsOf]

/-- The inside of a node is made of its parts. -/
theorem Node.inside_eq (node : Node) : node.inside = visitsOf (some node.id) node.children := by
  cases node with
  | pou node =>
    simp only [inside, children, visitsOf_append, Stmt.visitsAll_eq]
    exact congrArg (· ++ _) (flatMap_visits_eq ..)
  | globals node => exact flatMap_visits_eq ..
  | block node => exact flatMap_visits_eq ..
  | decl node => exact Expr.visitsOption_eq ..
  | stmt node => exact node.inside_eq
  | expr node => exact node.inside_eq
  | target node => exact Expr.visitsAll_eq ..
  | dataType node =>
    cases node with
    | mk tag name body =>
      cases body
      case struct | union => exact (List.append_nil _).symm
      all_goals rfl
  | struct tag fields => exact flatMap_visits_eq ..
  | enum => rfl

theorem Node.visits_eq (parent : Option Nat) (node : Node) :
    node.visits parent = ⟨node, parent⟩ :: visitsOf (some node.id) node.children := by
  rw [visits, inside_eq]

theorem Root.visits_eq (root : Root Mark) : root.visits = (Node.ofRoot root).visits none := by
  cases root <;> rfl

theorem flatMap_rootVisits (roots : List (Root Mark)) :
    roots.flatMap Root.visits = visitsOf none (roots.map Node.ofRoot) := by
  rw [← flatMap_visits_eq]
  exact congrArg roots.flatMap (funext Root.visits_eq)

/-- There is less inside a part than inside the whole. -/
theorem Node.length_inside_lt {node part : Node} (member : part ∈ node.children) :
    part.inside.length < node.inside.length := by
  obtain ⟨front, back, split⟩ := List.append_of_mem member
  rw [inside_eq node, split, visitsOf_append, visitsOf_cons, Node.visits]
  simp only [List.length_append, List.length_cons]
  omega

/-- What holds of a node once it holds of all its parts holds of every node. -/
theorem Node.parts_induction {motive : Node → Prop}
    (step : ∀ node, (∀ part ∈ node.children, motive part) → motive node) (node : Node) :
    motive node := by
  induction size : node.inside.length using Nat.strongRecOn generalizing node with
  | _ size smaller =>
    apply step
    intro part member
    exact smaller _ (size ▸ node.length_inside_lt member) part rfl

/-! Places -/

/-- Where a node stands among trees, and the identity of the node above it. The trees themselves
have the parent that is given. -/
inductive Stands : Option Nat → List Node → List Nat → Node → Option Nat → Prop where
  | top (found : nodes[position]? = some node) : Stands parent nodes [position] node parent
  | part (found : nodes[position]? = some node)
      (below : Stands (some node.id) node.children place part above) :
      Stands parent nodes (position :: place) part above

/-- No two places hold nodes of one identity. -/
def DistinctIds (parent : Option Nat) (nodes : List Node) : Prop :=
  ∀ place other node twin above beside, Stands parent nodes place node above →
    Stands parent nodes other twin beside → node.id = twin.id → place = other

variable {parent : Option Nat} {nodes : List Node}

theorem Stands.mem_visitsOf {place : List Nat} {node : Node} {above : Option Nat}
    (stands : Stands parent nodes place node above) : ⟨node, above⟩ ∈ visitsOf parent nodes := by
  induction stands with
  | top found =>
    exact List.mem_flatMap.mpr ⟨_, List.mem_of_getElem? found, List.mem_cons_self ..⟩
  | part found _ member =>
    refine List.mem_flatMap.mpr ⟨_, List.mem_of_getElem? found, ?_⟩
    rw [Node.visits_eq]
    exact List.mem_cons_of_mem _ member

theorem stands_of_mem_visits (node : Node) {position : Nat} (found : nodes[position]? = some node)
    {visit : Visit} (member : visit ∈ node.visits parent) :
    ∃ place, Stands parent nodes (position :: place) visit.node visit.parent := by
  induction node using Node.parts_induction generalizing parent nodes position with
  | step node parts =>
    rw [Node.visits_eq] at member
    rcases List.mem_cons.mp member with rfl | inside
    · exact ⟨[], .top found⟩
    · obtain ⟨part, listed, visited⟩ := List.mem_flatMap.mp inside
      obtain ⟨index, held⟩ := List.mem_iff_getElem?.mp listed
      obtain ⟨place, stands⟩ := parts part listed held visited
      exact ⟨index :: place, .part found stands⟩

/-- The visits of trees are the nodes at all places. -/
theorem mem_visitsOf_iff (visit : Visit) :
    visit ∈ visitsOf parent nodes ↔
      ∃ place, Stands parent nodes place visit.node visit.parent := by
  constructor
  · intro member
    obtain ⟨node, listed, visited⟩ := List.mem_flatMap.mp member
    obtain ⟨position, found⟩ := List.mem_iff_getElem?.mp listed
    obtain ⟨place, stands⟩ := stands_of_mem_visits node found visited
    exact ⟨_, stands⟩
  · rintro ⟨place, stands⟩
    exact stands.mem_visitsOf

/-- The identities of all nodes of some trees, in the order of the visits. -/
def idsOf (parent : Option Nat) (nodes : List Node) : List Nat :=
  (visitsOf parent nodes).map (·.node.id)

theorem mem_idsOf_iff (id : Nat) :
    id ∈ idsOf parent nodes ↔
      ∃ place node above, Stands parent nodes place node above ∧ node.id = id := by
  simp only [idsOf, List.mem_map, mem_visitsOf_iff]
  constructor
  · rintro ⟨visit, ⟨place, stands⟩, same⟩
    exact ⟨place, visit.node, visit.parent, stands, same⟩
  · rintro ⟨place, node, above, stands, same⟩
    exact ⟨⟨node, above⟩, ⟨place, stands⟩, same⟩

/-- The identities of a node and of all that is inside it. -/
def Node.ids (node : Node) : List Nat := node.id :: idsOf (some node.id) node.children

theorem idsOf_eq_flatMap (parent : Option Nat) (nodes : List Node) :
    idsOf parent nodes = nodes.flatMap Node.ids := by
  rw [idsOf, visitsOf, List.map_flatMap]
  congr 1
  funext node
  rw [Node.visits_eq]
  rfl

theorem mem_ids_iff (parent : Option Nat) {node : Node} {position : Nat}
    (found : nodes[position]? = some node) (id : Nat) :
    id ∈ node.ids ↔
      ∃ place member above, Stands parent nodes (position :: place) member above ∧
        member.id = id := by
  rw [Node.ids, List.mem_cons, mem_idsOf_iff]
  constructor
  · rintro (rfl | ⟨place, member, above, stands, same⟩)
    · exact ⟨[], node, parent, .top found, rfl⟩
    · exact ⟨place, member, above, .part found stands, same⟩
  · rintro ⟨place, member, above, stands, same⟩
    cases stands with
    | top held =>
      obtain rfl := Option.some.inj (held.symm.trans found)
      exact .inl same.symm
    | part held below =>
      obtain rfl := Option.some.inj (held.symm.trans found)
      exact .inr ⟨_, _, _, below, same⟩

theorem DistinctIds.children (distinct : DistinctIds parent nodes) {node : Node} {position : Nat}
    (found : nodes[position]? = some node) : DistinctIds (some node.id) node.children := by
  intro place other member twin above beside stands also same
  have whole := distinct _ _ _ _ _ _ (.part found stands) (.part found also) same
  exact (List.cons.inj whole).2

/-- Trees whose nodes have distinct identities list no identity twice, if that is so for the parts
of each of them. -/
private theorem nodup_of_children (distinct : DistinctIds parent nodes)
    (parts : ∀ node ∈ nodes, DistinctIds (some node.id) node.children →
      (idsOf (some node.id) node.children).Nodup) :
    (idsOf parent nodes).Nodup := by
  rw [idsOf_eq_flatMap, List.nodup_flatMap]
  constructor
  · intro node listed
    obtain ⟨position, found⟩ := List.mem_iff_getElem?.mp listed
    refine List.nodup_cons.mpr ⟨?_, parts node listed (distinct.children found)⟩
    intro repeated
    obtain ⟨place, member, above, stands, same⟩ := (mem_idsOf_iff _).mp repeated
    have whole := distinct _ _ _ _ _ _ (.part found stands) (.top found) same
    cases stands <;> cases whole
  · rw [List.pairwise_iff_getElem]
    intro first second inFirst inSecond before id one two
    obtain ⟨place, node, above, stands, same⟩ :=
      (mem_ids_iff parent (List.getElem?_eq_getElem inFirst) id).mp one
    obtain ⟨other, twin, beside, also, equal⟩ :=
      (mem_ids_iff parent (List.getElem?_eq_getElem inSecond) id).mp two
    have whole := distinct _ _ _ _ _ _ stands also (same.trans equal.symm)
    exact absurd (List.cons.inj whole).1 (Nat.ne_of_lt before)

/-- Where no two places hold nodes of one identity, the visits list no identity twice. -/
theorem DistinctIds.nodup (distinct : DistinctIds parent nodes) : (idsOf parent nodes).Nodup := by
  have parts (node : Node) : DistinctIds (some node.id) node.children →
      (idsOf (some node.id) node.children).Nodup := by
    induction node using Node.parts_induction with
    | step node parts => exact fun apart => nodup_of_children apart parts
  exact nodup_of_children distinct fun node _ => parts node

/-- Trees at different positions have no identity in common. -/
theorem position_eq_of_mem_ids (nodup : (idsOf parent nodes).Nodup) {first second id : Nat}
    {node twin : Node} (found : nodes[first]? = some node) (held : nodes[second]? = some twin)
    (one : id ∈ node.ids) (two : id ∈ twin.ids) : first = second := by
  rw [idsOf_eq_flatMap, List.nodup_flatMap, List.pairwise_iff_getElem] at nodup
  obtain ⟨inFirst, rfl⟩ := List.getElem?_eq_some_iff.mp found
  obtain ⟨inSecond, rfl⟩ := List.getElem?_eq_some_iff.mp held
  rcases Nat.lt_trichotomy first second with before | same | behind
  · exact absurd two (nodup.2 first second inFirst inSecond before one)
  · exact same
  · exact absurd one (nodup.2 second first inSecond inFirst behind two)

theorem nodup_ids_of_mem (nodup : (idsOf parent nodes).Nodup) {node : Node}
    (listed : node ∈ nodes) :
    node.id ∉ idsOf (some node.id) node.children ∧ (idsOf (some node.id) node.children).Nodup := by
  rw [idsOf_eq_flatMap, List.nodup_flatMap] at nodup
  exact List.nodup_cons.mp (nodup.1 node listed)

/-- A node that stands among trees is one of the trees or stands among the parts of one. -/
theorem Stands.cases_top {place : List Nat} {member : Node} {above : Option Nat}
    (stands : Stands parent nodes place member above) :
    ∃ position rest node, place = position :: rest ∧ nodes[position]? = some node ∧
      (rest = [] ∧ member = node ∨ Stands (some node.id) node.children rest member above) := by
  cases stands with
  | top found => exact ⟨_, _, _, rfl, found, .inl ⟨rfl, rfl⟩⟩
  | part found below => exact ⟨_, _, _, rfl, found, .inr below⟩

theorem distinctIds_of_nodup (nodup : (idsOf parent nodes).Nodup) :
    DistinctIds parent nodes := by
  intro place other member twin above beside stands also same
  induction place generalizing parent nodes other with
  | nil => cases stands
  | cons position place ih =>
    obtain ⟨_, _, node, ⟨rfl, rfl⟩, found, here⟩ := stands.cases_top
    obtain ⟨second, rest, tree, rfl, held, there⟩ := also.cases_top
    obtain rfl := position_eq_of_mem_ids nodup found held
      ((mem_ids_iff parent found _).mpr ⟨_, _, _, stands, same⟩)
      ((mem_ids_iff parent held _).mpr ⟨_, _, _, also, rfl⟩)
    obtain rfl := Option.some.inj (held.symm.trans found)
    obtain ⟨fresh, inner⟩ := nodup_ids_of_mem nodup (List.mem_of_getElem? found)
    rcases here with ⟨rfl, rfl⟩ | below
    · rcases there with ⟨rfl, _⟩ | beneath
      · rfl
      · exact absurd ((mem_idsOf_iff _).mpr ⟨_, _, _, beneath, same.symm⟩) fresh
    · rcases there with ⟨rfl, rfl⟩ | beneath
      · exact absurd ((mem_idsOf_iff _).mpr ⟨_, _, _, below, same⟩) fresh
      · rw [ih inner rest below beneath]

/-- Identities are distinct exactly when the visits list none of them twice. -/
theorem distinctIds_iff_nodup (parent : Option Nat) (nodes : List Node) :
    DistinctIds parent nodes ↔ (idsOf parent nodes).Nodup :=
  ⟨DistinctIds.nodup, distinctIds_of_nodup⟩

end PlcAudit.Code
