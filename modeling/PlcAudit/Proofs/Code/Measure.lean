import Mathlib.Algebra.GroupWithZero.Nat
import Mathlib.Data.List.Perm.Basic
import PlcAudit.Proofs.Code.Preorder

/-!
Measures of trees. A measure of nodes is summed over all that is inside them, and so is a weight
that depends on what is around a node. Declarations and expressions hold no statements, so a measure
of statements finds nothing in them.
-/

namespace PlcAudit.Code

/-! Nodes that count -/

namespace Node

def isStatement : Node → Bool
  | .stmt _ => true
  | _ => false

def isLoop : Node → Bool
  | .stmt node => node.isLoop
  | _ => false

def isReturn : Node → Bool
  | .stmt (.return_ _) => true
  | _ => false

/-- An AND or an OR. -/
def isLogical : Node → Bool
  | .expr (.binary _ .and _ _) | .expr (.binary _ .or _ _) => true
  | _ => false

def logical (node : Node) : Nat := node.isLogical.toNat

/-- An IF, a CASE or a loop. -/
def isControl : Node → Bool
  | .stmt (.cond ..) | .stmt (.select ..) => true
  | node => node.isLoop

/-- One decision for an IF and for each of its ELSIF clauses, one for each element of a CASE, and
one for a loop. -/
def decisions : Node → Nat
  | .stmt (.cond _ _ _ elsifs _) => 1 + elsifs.length
  | .stmt (.select _ _ elements _) => elements.length
  | node => node.isLoop.toNat

/-- The parts of a statement that the measures do not look at. -/
def passedOver : Node → List Node
  | .stmt (.select _ _ elements _) => elements.flatMap fun element => element.labels.map .expr
  | .stmt (.forLoop _ counter start stop step _) =>
    .target counter :: .expr start :: .expr stop :: step.toList.map .expr
  | _ => []

/-- The parts of a node that the measures look at. -/
def measured : Node → List Node
  | .stmt (.select _ selector elements elseBody) =>
    .expr selector :: elements.flatMap (fun element => element.body.map .stmt) ++
      (elseBody.getD []).map .stmt
  | .stmt (.forLoop _ _ _ _ _ body) => body.map .stmt
  | node => node.children

/-- Declarations and expressions, which hold no statements. -/
def isData : Node → Bool
  | .block _ | .decl _ | .expr _ | .target _ => true
  | _ => false

end Node

/-- A part is either passed over or measured. -/
theorem Node.children_perm : ∀ node : Node, node.children.Perm (node.passedOver ++ node.measured)
  | .stmt (.select tag selector elements elseBody) => by
    have apart := (List.flatMap_append_perm elements (fun element => element.labels.map Node.expr)
      (fun element => element.body.map Node.stmt)).symm
    have behind := apart.append_right ((elseBody.getD []).map Node.stmt)
    rw [List.append_assoc] at behind
    exact (behind.cons _).trans List.perm_middle.symm
  | .stmt (.forLoop ..) => .refl _
  | .stmt (.assign ..) | .stmt (.cond ..) | .stmt (.whileLoop ..) | .stmt (.repeatLoop ..)
  | .stmt (.exit _) | .stmt (.return_ _) | .stmt (.call ..) => .refl _
  | .pou _ | .globals _ | .block _ | .decl _ | .expr _ | .target _ | .dataType _ | .struct ..
  | .enum .. => .refl _

theorem Node.isData_of_mem_children {node part : Node} (data : node.isData = true)
    (member : part ∈ node.children) : part.isData = true := by
  cases node with
  | block _ | decl _ | target _ =>
    obtain ⟨_, _, rfl⟩ := List.mem_map.mp member
    rfl
  | expr expr =>
    cases expr with
    | binary _ _ left right =>
      simp only [children, Expr.children, List.mem_cons, List.not_mem_nil, or_false] at member
      rcases member with rfl | rfl <;> rfl
    | unary _ _ operand =>
      obtain rfl := List.mem_singleton.mp member
      rfl
    | literal => cases member
    | «variable» | call =>
      obtain ⟨_, _, rfl⟩ := List.mem_map.mp member
      rfl
  | _ => cases data

theorem Node.isData_of_mem_listing (node : Node) (data : node.isData = true) :
    ∀ inner ∈ node.listing, inner.isData = true := by
  induction node using Node.parts_induction with
  | step node parts =>
    intro inner listed
    rw [listing_eq] at listed
    rcases List.mem_cons.mp listed with rfl | inside
    · exact data
    · obtain ⟨part, isPart, found⟩ := List.mem_flatMap.mp inside
      exact parts part isPart (isData_of_mem_children data isPart) inner found

/-- A node that adds nothing but logical operators. -/
structure Node.Silent (node : Node) : Prop where
  statement : node.isStatement = false
  loop : node.isLoop = false
  return_ : node.isReturn = false
  decisions : node.decisions = 0
  passedOver : node.passedOver = []

theorem Node.silent_of_isData {node : Node} (data : node.isData = true) : node.Silent := by
  cases node <;> cases data <;> exact ⟨rfl, rfl, rfl, rfl, rfl⟩

theorem Node.isData_of_mem_passedOver {node part : Node} (member : part ∈ node.passedOver) :
    part.isData = true := by
  unfold passedOver at member
  split at member
  · obtain ⟨_, _, labels⟩ := List.mem_flatMap.mp member
    obtain ⟨_, _, rfl⟩ := List.mem_map.mp labels
    rfl
  · rcases List.mem_cons.mp member with rfl | rest
    · rfl
    · simp only [List.mem_cons, List.mem_map] at rest
      rcases rest with rfl | rfl | ⟨_, _, rfl⟩ <;> rfl
  · cases member

/-! Sums over nodes -/

/-- A measure summed over nodes and all that is inside them. -/
def total (measure : Node → Nat) (nodes : List Node) : Nat :=
  ((nodes.flatMap Node.listing).map measure).sum

section Total

variable {measure : Node → Nat} {nodes others : List Node}

theorem total_append :
    total measure (nodes ++ others) = total measure nodes + total measure others := by
  simp [total]

theorem total_perm (same : nodes.Perm others) : total measure nodes = total measure others :=
  ((same.flatMap_right _).map _).sum_nat

theorem total_node (node : Node) :
    total measure [node] = measure node + total measure node.children := by
  simp [total, node.listing_eq]

/-- A measure that counts statements only finds nothing in data. -/
theorem total_data (silent : ∀ node : Node, node.isData = true → measure node = 0)
    (data : ∀ node ∈ nodes, node.isData = true) : total measure nodes = 0 := by
  refine List.sum_eq_zero_iff_forall_eq_nat.mpr fun value listed => ?_
  obtain ⟨inner, found, rfl⟩ := List.mem_map.mp listed
  obtain ⟨node, member, inside⟩ := List.mem_flatMap.mp found
  exact silent inner (node.isData_of_mem_listing (data node member) inner inside)

theorem total_flatMap {α : Type} (items : List α) (parts : α → List Node) :
    total measure (items.flatMap parts) =
      (items.map fun item => total measure (parts item)).sum := by
  induction items with
  | nil => rfl
  | cons item rest ih => rw [List.flatMap_cons, total_append, ih, List.map_cons, List.sum_cons]

theorem total_map {α : Type} (items : List α) (node : α → Node) :
    total measure (items.map node) = (items.map fun item => total measure [node item]).sum := by
  rw [← total_flatMap, List.map_eq_flatMap]

theorem total_logical_children {node : Node} (plain : node.isLogical = false) :
    total Node.logical [node] = total Node.logical node.children := by
  rw [total_node, Node.logical, plain]
  exact Nat.zero_add _

theorem countP_eq_total (test : Node → Bool) (nodes : List Node) :
    (nodes.flatMap Node.listing).countP test = total (fun node => (test node).toNat) nodes := by
  rw [total]
  induction nodes.flatMap Node.listing with
  | nil => rfl
  | cons node rest ih =>
    rw [List.countP_cons, ih, List.map_cons, List.sum_cons, Nat.add_comm]
    cases test node <;> rfl

theorem total_singleton (measure : Node → Nat) (node : Node) :
    total measure [node] = (node.listing.map measure).sum := by
  rw [total, List.flatMap_singleton]

theorem total_toNat (test : Node → Bool) (node : Node) :
    total (fun inner => (test inner).toNat) [node] = node.listing.countP test := by
  rw [← countP_eq_total, List.flatMap_singleton]

end Total

/-! What is around a node -/

/-- A node together with the nodes around it, the nearest first. -/
structure Lineage where
  node : Node
  around : List Node

/-- A node and everything inside it, each with what is around it. -/
def Node.lineages (around : List Node) (node : Node) : List Lineage :=
  ⟨node, around⟩ :: node.children.attach.flatMap fun part => part.1.lineages (node :: around)
termination_by node.inside.length
decreasing_by exact Node.length_inside_lt part.2

theorem Node.lineages_eq (around : List Node) (node : Node) :
    node.lineages around =
      ⟨node, around⟩ :: node.children.flatMap fun part => part.lineages (node :: around) := by
  rw [lineages]
  simp

/-- Every node of the listing is there once. -/
theorem Node.map_node_lineages (around : List Node) (node : Node) :
    (node.lineages around).map (·.node) = node.listing := by
  induction node using Node.parts_induction generalizing around with
  | step node parts =>
    rw [lineages_eq, listing_eq, List.map_cons, List.map_flatMap]
    congr 1
    exact List.flatMap_congr fun part member => parts part member _

/-- The decisions of a node, each weighing one more for every control structure around it. -/
def Lineage.weight (lineage : Lineage) : Nat :=
  lineage.node.decisions * (1 + lineage.around.countP Node.isControl)

/-- The weight of nodes and of all that is inside them. -/
def weightOf (around nodes : List Node) : Nat :=
  ((nodes.flatMap (Node.lineages around)).map Lineage.weight).sum

section Weight

variable {around nodes others : List Node}

theorem weightOf_append :
    weightOf around (nodes ++ others) = weightOf around nodes + weightOf around others := by
  simp [weightOf]

theorem weightOf_perm (same : nodes.Perm others) : weightOf around nodes = weightOf around others :=
  ((same.flatMap_right _).map _).sum_nat

theorem weightOf_node (node : Node) :
    weightOf around [node] =
      node.decisions * (1 + around.countP Node.isControl) +
        weightOf (node :: around) node.children := by
  simp [weightOf, node.lineages_eq, Lineage.weight]

theorem weightOf_data (data : ∀ node ∈ nodes, node.isData = true) : weightOf around nodes = 0 := by
  refine List.sum_eq_zero_iff_forall_eq_nat.mpr fun value listed => ?_
  obtain ⟨lineage, found, rfl⟩ := List.mem_map.mp listed
  obtain ⟨node, member, inside⟩ := List.mem_flatMap.mp found
  have here : lineage.node ∈ node.listing :=
    node.map_node_lineages around ▸ List.mem_map_of_mem inside
  have inner := node.isData_of_mem_listing (data node member) _ here
  rw [Lineage.weight, (Node.silent_of_isData inner).decisions, Nat.zero_mul]

end Weight

end PlcAudit.Code
