import PlcAudit.Code.Walk
import PlcAudit.Proofs.Code.ParentForest

/-!
Two ways through a tree. The listing in source order works off a stack: it takes a node and puts its
parts in its place. The walk follows the order of evaluation and meets a variable that an output is
bound to as a target. Both come by every node exactly once. In the listing a node comes before its
parts, and these in their order.
-/

namespace PlcAudit.Code

/-! The listing of a node -/

/-- A node and everything inside it, in source order. -/
def Node.listing (node : Node) : List Node :=
  node :: node.inside.map (·.node)

/-- The parent that is noted with a visit does not show in the nodes. -/
theorem map_node_visitsOf (parent : Option Nat) (nodes : List Node) :
    (visitsOf parent nodes).map (·.node) = nodes.flatMap Node.listing := by
  rw [visitsOf, List.map_flatMap]
  rfl

theorem Node.listing_eq (node : Node) :
    node.listing = node :: node.children.flatMap Node.listing := by
  rw [listing, inside_eq, map_node_visitsOf]

theorem Tree.descendants_eq (tree : Tree) :
    tree.descendants = (tree.roots.map Node.ofRoot).flatMap Node.listing := by
  rw [descendants, flatMap_rootVisits, map_node_visitsOf]

/-- The nodes on a stack and inside them. The topmost node is taken off, and its parts are put in
its place. -/
def preorder : List Node → List Node
  | [] => []
  | node :: rest => node :: preorder (node.children ++ rest)
termination_by stack => (stack.flatMap Node.listing).length
decreasing_by
  rw [List.flatMap_append, List.flatMap_cons, node.listing_eq]
  simp

/-- What is below the top of the stack is listed behind all that is inside the top. -/
theorem preorder_eq (stack : List Node) : preorder stack = stack.flatMap Node.listing := by
  fun_induction preorder stack with
  | case1 => rfl
  | case2 node rest ih =>
    rw [ih, List.flatMap_append, List.flatMap_cons, node.listing_eq, List.cons_append]

/-! Order in the listing -/

theorem sublist_flatMap_listing (nodes : List Node) :
    nodes.Sublist (nodes.flatMap Node.listing) := by
  induction nodes with
  | nil => exact .slnil
  | cons node rest ih =>
    rw [List.flatMap_cons, Node.listing, List.cons_append]
    exact (ih.trans (List.sublist_append_right ..)).cons_cons node

theorem listing_sublist_of_mem {node : Node} {nodes : List Node} (member : node ∈ nodes) :
    node.listing.Sublist (nodes.flatMap Node.listing) := by
  obtain ⟨front, back, rfl⟩ := List.append_of_mem member
  rw [List.flatMap_append, List.flatMap_cons]
  exact (List.sublist_append_left ..).trans (List.sublist_append_right ..)

/-- Every node of a listing is followed by its parts in their order. -/
theorem Node.parts_sublist_listing (node : Node) {member : Node} (listed : member ∈ node.listing) :
    (member :: member.children).Sublist node.listing := by
  induction node using Node.parts_induction with
  | step node parts =>
    rw [listing_eq] at listed ⊢
    rcases List.mem_cons.mp listed with rfl | inside
    · exact (sublist_flatMap_listing _).cons_cons _
    · obtain ⟨part, isPart, found⟩ := List.mem_flatMap.mp inside
      exact ((parts part isPart found).trans (listing_sublist_of_mem isPart)).cons _

theorem parts_sublist_flatMap {nodes : List Node} {member : Node}
    (listed : member ∈ nodes.flatMap Node.listing) :
    (member :: member.children).Sublist (nodes.flatMap Node.listing) := by
  obtain ⟨node, isNode, found⟩ := List.mem_flatMap.mp listed
  exact (node.parts_sublist_listing found).trans (listing_sublist_of_mem isNode)

/-! The walk beside the listing -/

/-- What tells the nodes of a tree apart. A target looks like the variable that it is. -/
def Node.stamp (node : Node) : NodeKind × Mark := (node.kind, node.mark)

/-- The stamps of nodes and of all that is inside them, in source order. -/
def stampsOf (nodes : List Node) : List (NodeKind × Mark) :=
  (nodes.flatMap Node.listing).map Node.stamp

/-- A walk comes by the same nodes as the listing of some nodes. -/
def Covers (walk nodes : List Node) : Prop :=
  (walk.map Node.stamp).Perm (stampsOf nodes)

@[simp] theorem stampsOf_append (first second : List Node) :
    stampsOf (first ++ second) = stampsOf first ++ stampsOf second := by
  simp [stampsOf]

namespace Covers

variable {walk more nodes others : List Node}

theorem nil : Covers [] [] := List.Perm.nil

theorem append (front : Covers walk nodes) (back : Covers more others) :
    Covers (walk ++ more) (nodes ++ others) := by
  rw [Covers, List.map_append, stampsOf_append]
  exact List.Perm.append front back

/-- A node is covered once its parts are, whatever form the walk meets it in. -/
theorem node {met node : Node} (parts : Covers walk node.children)
    (same : met.stamp = node.stamp) : Covers (met :: walk) [node] := by
  rw [Covers, stampsOf, List.flatMap_cons, List.flatMap_nil, List.append_nil, node.listing_eq,
    List.map_cons, List.map_cons, same]
  exact List.Perm.cons _ parts

theorem swap (known : Covers walk (nodes ++ others)) : Covers walk (others ++ nodes) := by
  rw [Covers, stampsOf_append] at known ⊢
  exact known.trans List.perm_append_comm

theorem flatMap {α : Type} {items : List α} {walk : α → List Node} {node : α → Node}
    (each : ∀ item, Covers (walk item) [node item]) :
    Covers (items.flatMap walk) (items.map node) := by
  induction items with
  | nil => exact .nil
  | cons item rest ih => exact (each item).append ih

end Covers

mutual

theorem Expr.walk_covers : ∀ expr : Expr Mark, Covers expr.walk [.expr expr]
  | .binary _ _ left right => .node ((Expr.walk_covers left).append (Expr.walk_covers right)) rfl
  | .unary _ _ operand => .node (Expr.walk_covers operand) rfl
  | .literal .. => .node .nil rfl
  | .variable _ _ _ indices _ => .node (Expr.walkAll_covers indices) rfl
  | .call _ _ args => .node (Arg.walkAll_covers args) rfl

theorem Expr.walkAll_covers : ∀ exprs, Covers (Expr.walkAll exprs) (exprs.map .expr)
  | [] => .nil
  | expr :: rest => (Expr.walk_covers expr).append (Expr.walkAll_covers rest)

/-- A bound output is met as a target; its indices are met either way. -/
theorem Arg.walkAll_covers :
    ∀ args, Covers (Arg.walkAll args) (args.map fun arg => .expr arg.value)
  | [] => .nil
  | .mk _ (.variable tag name path indices dereference) true :: rest => by
    have bound : Covers
        (.target { tag, name, path, indices, dereference } :: Expr.walkAll indices)
        [.expr (.variable tag name path indices dereference)] :=
      .node (Expr.walkAll_covers indices) rfl
    simpa [Arg.walkAll, Arg.value] using bound.append (Arg.walkAll_covers rest)
  | .mk _ (.variable tag name path indices dereference) false :: rest
  | .mk _ (.binary tag op left right) _ :: rest
  | .mk _ (.unary tag op operand) _ :: rest
  | .mk _ (.literal tag kind text) _ :: rest
  | .mk _ (.call tag callee args) _ :: rest => by
    simp only [Arg.walkAll]
    exact (Expr.walk_covers _).append (Arg.walkAll_covers rest)

end

theorem Expr.walkOption_covers (expr : Option (Expr Mark)) :
    Covers (Expr.walkOption expr) (expr.toList.map .expr) := by
  cases expr with
  | none => exact .nil
  | some expr => exact expr.walk_covers

theorem Target.walk_covers (target : Target Mark) : Covers target.walk [.target target] :=
  .node (Expr.walkAll_covers target.indices) rfl

mutual

theorem Stmt.walk_covers : ∀ stmt : Stmt Mark, Covers stmt.walk [.stmt stmt]
  | .assign _ target value => by
    -- The value is met before the target.
    rw [Stmt.walk]
    exact .node (value.walk_covers.append target.walk_covers).swap rfl
  | .cond _ condition thenBody elsifs elseBody => by
    rw [Stmt.walk]
    exact .node (((condition.walk_covers.append (Stmt.walkAll_covers thenBody)).append
      (Clause.walkAll_covers elsifs)).append (Stmt.walkOption_covers elseBody)) rfl
  | .select _ selector elements elseBody => by
    rw [Stmt.walk]
    exact .node ((selector.walk_covers.append (Element.walkAll_covers elements)).append
      (Stmt.walkOption_covers elseBody)) rfl
  | .forLoop _ counter start stop step body => by
    -- The bounds are met before the variable of the loop.
    rw [Stmt.walk]
    have bounds := (start.walk_covers.append stop.walk_covers).append
      (Expr.walkOption_covers step)
    exact .node ((bounds.append counter.walk_covers).swap.append (Stmt.walkAll_covers body)) rfl
  | .whileLoop _ condition body => by
    rw [Stmt.walk]
    exact .node (condition.walk_covers.append (Stmt.walkAll_covers body)) rfl
  | .repeatLoop _ body until_ => by
    rw [Stmt.walk]
    exact .node ((Stmt.walkAll_covers body).append until_.walk_covers) rfl
  | .exit _ => by
    rw [Stmt.walk]
    exact .node .nil rfl
  | .return_ _ => by
    rw [Stmt.walk]
    exact .node .nil rfl
  | .call _ _ args => by
    rw [Stmt.walk]
    exact .node (Arg.walkAll_covers args) rfl

theorem Stmt.walkAll_covers : ∀ body, Covers (Stmt.walkAll body) (body.map .stmt)
  | [] => by
    rw [Stmt.walkAll]
    exact .nil
  | stmt :: rest => by
    rw [Stmt.walkAll]
    exact (Stmt.walk_covers stmt).append (Stmt.walkAll_covers rest)

theorem Stmt.walkOption_covers :
    ∀ body, Covers (Stmt.walkOption body) ((body.getD []).map .stmt)
  | none => by
    rw [Stmt.walkOption]
    exact .nil
  | some body => by
    rw [Stmt.walkOption]
    exact Stmt.walkAll_covers body

theorem Clause.walkAll_covers : ∀ clauses, Covers (Clause.walkAll clauses)
    (clauses.flatMap fun clause => .expr clause.condition :: clause.body.map .stmt)
  | [] => by
    rw [Clause.walkAll]
    exact .nil
  | .mk span condition body :: rest => by
    rw [Clause.walkAll]
    exact (condition.walk_covers.append (Stmt.walkAll_covers body)).append
      (Clause.walkAll_covers rest)

theorem Element.walkAll_covers : ∀ elements, Covers (Element.walkAll elements)
    (elements.flatMap fun element => element.labels.map .expr ++ element.body.map .stmt)
  | [] => by
    rw [Element.walkAll]
    exact .nil
  | .mk labels body :: rest => by
    rw [Element.walkAll]
    exact ((Expr.walkAll_covers labels).append (Stmt.walkAll_covers body)).append
      (Element.walkAll_covers rest)

end

theorem VarDecl.walk_covers (decl : VarDecl Mark) : Covers decl.walk [.decl decl] :=
  .node (Expr.walkOption_covers decl.initial) rfl

theorem VarBlock.walk_covers (block : VarBlock Mark) : Covers block.walk [.block block] :=
  .node (.flatMap VarDecl.walk_covers) rfl

theorem structWalk_covers (tag : Mark) (fields : List (VarDecl Mark)) :
    Covers (.struct tag fields :: fields.flatMap VarDecl.walk) [.struct tag fields] :=
  .node (.flatMap VarDecl.walk_covers) rfl

theorem Root.walk_covers : ∀ root : Root Mark, Covers root.walk [Node.ofRoot root]
  | .pou declared => by
    have blocks : Covers (declared.blocks.flatMap VarBlock.walk) (declared.blocks.map .block) :=
      .flatMap VarBlock.walk_covers
    exact .node (blocks.append (Stmt.walkAll_covers declared.body)) rfl
  | .globals _ => .node (.flatMap VarBlock.walk_covers) rfl
  | .dataType ⟨_, _, .struct tag fields⟩ => .node (structWalk_covers tag fields) rfl
  | .dataType ⟨_, _, .union tag fields⟩ => .node (structWalk_covers tag fields) rfl
  | .dataType ⟨_, _, .enum tag values⟩ => by
    have listed : Covers [.enum tag values] [.enum tag values] := .node .nil rfl
    exact .node listed rfl
  | .dataType ⟨_, _, .alias _⟩ => .node .nil rfl

/-! Trees with an index -/

/-- An index has one entry for each node. -/
theorem ParentIndex.size_of_build {roots : List (Root Mark)} {index : ParentIndex}
    (built : build roots = .ok index) :
    index.size = ((roots.map Node.ofRoot).flatMap Node.listing).length := by
  have enters := enters_of_build built
  have same : index.nodes.keys.Perm (idsOf none (roots.map Node.ofRoot)) := by
    refine (List.perm_ext_iff_of_nodup index.nodes.keys_nodup enters.distinct).mpr fun id => ?_
    constructor
    · intro member
      obtain ⟨info, known⟩ := Table.find?_of_mem_keys member
      rcases enters.only id info known with absent | ⟨visit, visited, rfl⟩
      · cases absent
      · exact List.mem_map.mpr ⟨visit, visited, rfl⟩
    · intro member
      obtain ⟨visit, visited, rfl⟩ := List.mem_map.mp member
      exact Table.mem_keys_of_find? (enters.entered visit visited)
  rw [← map_node_visitsOf none, List.length_map]
  simpa [idsOf, Table.keys, size, Table.size] using same.length_eq

theorem Tree.ofRoots_eq_ok {file source : String} {roots : List (Root Mark)}
    {errors : List ParseError} {tree : Tree}
    (accepted : ofRoots file source roots errors = .ok tree) :
    tree.roots = roots ∧ ParentIndex.build roots = .ok tree.index := by
  unfold ofRoots at accepted
  split at accepted
  · cases accepted
  · split at accepted
    · cases accepted
    · rename_i index built
      cases accepted
      exact ⟨rfl, built⟩

/-- The walk and the listing in source order come by the same nodes equally often. Of a tree that is
accepted, the listing holds as many nodes as are counted, no identity twice, the roots in order, and
behind every node its parts in order. -/
theorem Tree.traversals_agree (roots : List (Root Mark)) :
    ((roots.flatMap Root.walk).map Node.stamp).Perm
      ((preorder (roots.map Node.ofRoot)).map Node.stamp) ∧
    ∀ file source errors tree, ofRoots file source roots errors = .ok tree →
      tree.descendants = preorder (roots.map Node.ofRoot) ∧
      tree.descendants.length = tree.nodeCount ∧ (tree.descendants.map Node.id).Nodup ∧
      (roots.map Node.ofRoot).Sublist tree.descendants ∧
      ∀ node ∈ tree.descendants, (node :: node.children).Sublist tree.descendants := by
  constructor
  · rw [preorder_eq]
    exact Covers.flatMap Root.walk_covers
  · intro file source errors tree accepted
    obtain ⟨rfl, built⟩ := ofRoots_eq_ok accepted
    have distinct : (tree.descendants.map Node.id).Nodup := by
      rw [descendants, flatMap_rootVisits, List.map_map]
      exact (ParentIndex.enters_of_build built).distinct
    rw [descendants_eq] at distinct ⊢
    refine ⟨(preorder_eq _).symm, (ParentIndex.size_of_build built).symm, distinct,
      sublist_flatMap_listing _, fun node listed => parts_sublist_flatMap listed⟩

/-- A call in a loop that binds an element of an array to an output. -/
def boundOutput : List (Root Mark) :=
  [.pou { tag := ⟨0, .lines 1 4⟩, kind := .program, name := "Main"
          body := [.forLoop ⟨1, .line 2⟩ { tag := ⟨2, .line 2⟩, name := "i" }
            (.literal ⟨3, .line 2⟩ .integer "1") (.literal ⟨4, .line 2⟩ .integer "3") none
            [.call ⟨5, .line 3⟩ "fetch" [.mk (some "level")
              (.variable ⟨6, .line 3⟩ "levels" [] [.variable ⟨7, .line 3⟩ "i" [] [] false] false)
              true]]] }]

/-- The walk meets the loop variable behind the bounds, and the bound element as a target. -/
theorem Tree.traversals_agree_boundOutput :
    (boundOutput.flatMap Root.walk).map Node.id = [0, 1, 3, 4, 2, 5, 6, 7] ∧
    ∃ tree, ofRoots "main.st" "" boundOutput [] = .ok tree ∧
      tree.descendants.map Node.id = [0, 1, 2, 3, 4, 5, 6, 7] ∧ tree.nodeCount = 8 := by
  refine ⟨by decide, ?_⟩
  obtain ⟨tree, accepted⟩ : ∃ tree, ofRoots "main.st" "" boundOutput [] = .ok tree := ⟨_, rfl⟩
  obtain ⟨listed, counted, -⟩ := (traversals_agree boundOutput).2 _ _ _ tree accepted
  have order : tree.descendants.map Node.id = [0, 1, 2, 3, 4, 5, 6, 7] := by
    obtain ⟨same, -⟩ := ofRoots_eq_ok accepted
    rw [descendants, same]
    decide
  refine ⟨tree, accepted, order, ?_⟩
  rw [← counted, ← List.length_map Node.id, order]
  rfl

end PlcAudit.Code
