import Mathlib.Data.List.Intervals
import PlcAudit.Code.Build
import PlcAudit.Proofs.Code.Preorder

/-!
Numbers of a tree that is built from a description. Building hands out one number after the other,
and every number that it hands out is the identity of exactly one node of the tree. So the
identities are the numbers below their count, a tree that is built this way is never refused, and a
part has a smaller number than the whole unless it is built behind it.
-/

namespace PlcAudit.Code

/-! The tags of a program, in the order in which its nodes are built -/

section

variable {α σ : Type}

mutual

def Expr.tags : Expr α → List α
  | .binary tag _ left right => left.tags ++ right.tags ++ [tag]
  | .unary tag _ operand => operand.tags ++ [tag]
  | .literal tag .. => [tag]
  | .variable tag _ _ indices _ => Expr.tagsAll indices ++ [tag]
  | .call tag _ args => Arg.tagsAll args ++ [tag]

def Expr.tagsAll : List (Expr α) → List α
  | [] => []
  | expr :: rest => expr.tags ++ Expr.tagsAll rest

def Arg.tagsAll : List (Arg α) → List α
  | [] => []
  | .mk _ value _ :: rest => value.tags ++ Arg.tagsAll rest

end

def Expr.tagsOption : Option (Expr α) → List α
  | none => []
  | some expr => expr.tags

def Target.tags (target : Target α) : List α :=
  Expr.tagsAll target.indices ++ [target.tag]

mutual

def Stmt.tags : Stmt α σ → List α
  | .assign tag target value => value.tags ++ target.tags ++ [tag]
  | .cond tag condition thenBody elsifs elseBody =>
    condition.tags ++ Stmt.tagsAll thenBody ++ Clause.tagsAll elsifs ++
      Stmt.tagsOption elseBody ++ [tag]
  | .select tag selector elements elseBody =>
    selector.tags ++ Element.tagsAll elements ++ Stmt.tagsOption elseBody ++ [tag]
  | .forLoop tag counter start stop step body =>
    start.tags ++ stop.tags ++ Expr.tagsOption step ++ Stmt.tagsAll body ++ [tag] ++ counter.tags
  | .whileLoop tag condition body => condition.tags ++ Stmt.tagsAll body ++ [tag]
  | .repeatLoop tag body until_ => Stmt.tagsAll body ++ until_.tags ++ [tag]
  | .exit tag => [tag]
  | .return_ tag => [tag]
  | .call tag _ args => Arg.tagsAll args ++ [tag]

def Stmt.tagsAll : List (Stmt α σ) → List α
  | [] => []
  | stmt :: rest => stmt.tags ++ Stmt.tagsAll rest

def Stmt.tagsOption : Option (List (Stmt α σ)) → List α
  | none => []
  | some body => Stmt.tagsAll body

def Clause.tagsAll : List (Clause α σ) → List α
  | [] => []
  | .mk _ condition body :: rest =>
    condition.tags ++ Stmt.tagsAll body ++ Clause.tagsAll rest

def Element.tagsAll : List (Element α σ) → List α
  | [] => []
  | .mk labels body :: rest =>
    Expr.tagsAll labels ++ Stmt.tagsAll body ++ Element.tagsAll rest

end

def VarDecl.tags (decl : VarDecl α) : List α :=
  Expr.tagsOption decl.initial ++ [decl.tag]

def VarBlock.tags (block : VarBlock α) : List α :=
  block.decls.flatMap VarDecl.tags ++ [block.tag]

def TypeDecl.tags (decl : TypeDecl α) : List α :=
  match decl.body with
  | .struct inner fields | .union inner fields => fields.flatMap VarDecl.tags ++ [decl.tag, inner]
  | .enum inner _ => [decl.tag, inner]
  | .alias _ => [decl.tag]

def Root.tags : Root α σ → List α
  | .pou declared =>
    declared.blocks.flatMap VarBlock.tags ++ Stmt.tagsAll declared.body ++ [declared.tag]
  | .globals declared => declared.blocks.flatMap VarBlock.tags ++ [declared.tag]
  | .dataType declared => declared.tags

end

/-! Nodes that fill an interval of numbers -/

/-- The parts that are built behind the node they belong to: the variable of a loop, and the node
of a structure, union or enumeration. -/
inductive BuiltBehind : Node → Node → Prop where
  | counter {tag : Mark} {counter : Target Mark} {start stop : Expr Mark}
      {step : Option (Expr Mark)} {body : List (Stmt Mark)} :
      BuiltBehind (.stmt (.forLoop tag counter start stop step body)) (.target counter)
  | inner {decl : TypeDecl Mark} {part : Node} (member : part ∈ (Node.dataType decl).children) :
      BuiltBehind (.dataType decl) part

/-- Some part is built behind the node. -/
def Node.hasPartBehind : Node → Bool
  | .stmt (.forLoop ..) => true
  | .dataType declared => !(Node.dataType declared).children.isEmpty
  | _ => false

theorem not_builtBehind {node : Node} (plain : node.hasPartBehind = false) (part : Node) :
    ¬ BuiltBehind node part := by
  rintro (_ | member)
  · cases plain
  · simp only [Node.hasPartBehind, Bool.not_eq_false', List.isEmpty_iff] at plain
    rw [plain] at member
    cases member

/-- The parts of a node have smaller numbers, except those that are built behind it. -/
def OrderedParts (node : Node) : Prop :=
  ∀ part ∈ node.children, part.id < node.id ↔ ¬ BuiltBehind node part

/-- The nodes, with all that is inside them, have the numbers from a first one up to the next one
that is free, each number once. There are as many numbers as places that the nodes are built
from. -/
structure Fills (nodes : List Node) (places : List Place) (first next : Nat) : Prop where
  size : first + places.length = next
  ids : ((nodes.flatMap Node.listing).map Node.id).Perm (List.Ico first next)
  ordered : ∀ node ∈ nodes.flatMap Node.listing, OrderedParts node

namespace Fills

variable {nodes others rest : List Node} {node part : Node} {decl : TypeDecl Mark}
  {places more : List Place} {place innerPlace : Place} {first middle next : Nat}

theorem forward (fills : Fills nodes places first next) : first ≤ next :=
  fills.size ▸ Nat.le_add_right ..

theorem nil : Fills [] [] first first where
  size := rfl
  ids := by simp
  ordered := nofun

theorem append (front : Fills nodes places first middle) (back : Fills others more middle next) :
    Fills (nodes ++ others) (places ++ more) first next where
  size := by rw [List.length_append, ← Nat.add_assoc, front.size, back.size]
  ids := by
    rw [List.flatMap_append, List.map_append,
      ← List.Ico.append_consecutive front.forward back.forward]
    exact front.ids.append back.ids
  ordered := by
    rw [List.flatMap_append]
    exact List.forall_mem_append.mpr ⟨front.ordered, back.ordered⟩

theorem swap (fills : Fills (nodes ++ others) places first next) :
    Fills (others ++ nodes) places first next where
  size := fills.size
  ids := by
    have ids := fills.ids
    rw [List.flatMap_append, List.map_append] at ids ⊢
    exact List.perm_append_comm.trans ids
  ordered := by
    have ordered := fills.ordered
    rw [List.flatMap_append] at ordered ⊢
    exact List.forall_mem_append.mpr (List.forall_mem_append.mp ordered).symm

theorem id_mem (fills : Fills nodes places first next) (member : node ∈ nodes) :
    first ≤ node.id ∧ node.id < next := by
  rw [← List.Ico.mem, ← fills.ids.mem_iff]
  exact List.mem_map_of_mem ((sublist_flatMap_listing nodes).subset member)

/-- A node that takes its number when all its parts are built. -/
theorem whole (parts : Fills node.children places first next) (own : node.id = next)
    (plain : node.hasPartBehind = false) :
    Fills [node] (places ++ [place]) first (next + 1) where
  size := by rw [List.length_append, ← Nat.add_assoc, parts.size, List.length_singleton]
  ids := by
    rw [List.flatMap_singleton, node.listing_eq, List.map_cons, own,
      List.Ico.succ_top parts.forward]
    exact (parts.ids.cons next).trans (List.perm_append_singleton ..).symm
  ordered := by
    rw [List.flatMap_singleton, node.listing_eq]
    refine List.forall_mem_cons.mpr ⟨fun part member => ?_, parts.ordered⟩
    rw [own]
    exact iff_of_true (parts.id_mem member).2 (not_builtBehind plain part)

theorem leaf (bare : node.children = []) (own : node.id = first)
    (plain : node.hasPartBehind = false) : Fills [node] [place] first (first + 1) := by
  have parts : Fills node.children [] first first := bare ▸ .nil
  exact parts.whole own plain

/-- A node whose first part is built behind it, while the others are built before. -/
theorem wholeBefore (split : node.children = part :: rest) (parts : Fills rest places first middle)
    (own : node.id = middle) (before : ∀ part ∈ rest, ¬ BuiltBehind node part)
    (behind : Fills [part] more (middle + 1) next) (late : BuiltBehind node part) :
    Fills [node] (places ++ [place] ++ more) first next where
  size := by
    rw [List.length_append, List.length_append, List.length_singleton, ← behind.size, ← parts.size]
    omega
  ids := by
    have above : middle < next := behind.forward
    have ids := behind.ids
    -- The listing has the node, then the part behind it, then the others; the numbers run the
    -- other way round.
    rw [List.flatMap_singleton] at ids
    rw [List.flatMap_singleton, node.listing_eq, List.map_cons, split, own, List.flatMap_cons,
      List.map_append, ← List.Ico.append_consecutive parts.forward above.le,
      List.Ico.eq_cons above]
    exact ((List.perm_append_comm.trans (parts.ids.append ids)).cons middle).trans
      List.perm_middle.symm
  ordered := by
    rw [List.flatMap_singleton, node.listing_eq, split, List.flatMap_cons]
    refine List.forall_mem_cons.mpr ⟨?_, List.forall_mem_append.mpr ⟨?_, parts.ordered⟩⟩
    · rw [OrderedParts, split, own]
      refine List.forall_mem_cons.mpr ⟨?_, fun other member => ?_⟩
      · have beyond := (behind.id_mem (List.mem_singleton_self part)).1
        exact iff_of_false (Nat.not_lt.mpr (Nat.le_of_succ_le beyond)) (not_not_intro late)
      · exact iff_of_true (parts.id_mem member).2 (before other member)
    · have ordered := behind.ordered
      rwa [List.flatMap_singleton] at ordered

/-- A data type with a node of its own inside. Both are built when the parts of the inner one
are. -/
theorem dataType (inner : Node) (held : (Node.dataType decl).children = [inner])
    (parts : Fills inner.children places first next) (own : decl.tag.id = next)
    (behind : inner.id = next + 1) (plain : inner.hasPartBehind = false) :
    Fills [.dataType decl] (places ++ [place, innerPlace]) first (next + 2) where
  size := by rw [List.length_append, ← Nat.add_assoc, parts.size]; rfl
  ids := by
    have shown : (Node.dataType decl).id = next := own
    rw [List.flatMap_singleton, Node.listing_eq, List.map_cons, held, List.flatMap_singleton,
      inner.listing_eq, List.map_cons, shown, behind,
      List.Ico.succ_top (Nat.le_succ_of_le parts.forward), List.Ico.succ_top parts.forward,
      List.append_assoc]
    have behindParts : ([next, next + 1] ++ List.Ico first next).Perm
        (List.Ico first next ++ [next, next + 1]) := List.perm_append_comm
    exact ((parts.ids.cons _).cons _).trans behindParts
  ordered := by
    rw [List.flatMap_singleton, Node.listing_eq, held, List.flatMap_singleton, inner.listing_eq]
    refine List.forall_mem_cons.mpr ⟨?_, List.forall_mem_cons.mpr ⟨?_, parts.ordered⟩⟩
    · have late : BuiltBehind (.dataType decl) inner :=
        .inner (held ▸ List.mem_singleton_self inner)
      have beyond : ¬ inner.id < decl.tag.id := by omega
      rw [OrderedParts, held]
      exact List.forall_mem_singleton.mpr (iff_of_false beyond (not_not_intro late))
    · intro part member
      rw [behind]
      exact iff_of_true (Nat.lt_succ_of_lt (parts.id_mem member).2) (not_builtBehind plain part)

end Fills

/-! Building -/

/-- No node is given an identity by its description. -/
def Unnumbered (places : List Place) : Prop :=
  ∀ place ∈ places, place.id = none

theorem unnumbered_append {front back : List Place} :
    Unnumbered (front ++ back) ↔ Unnumbered front ∧ Unnumbered back :=
  List.forall_mem_append

theorem unnumbered_cons {place : Place} {rest : List Place} :
    Unnumbered (place :: rest) ↔ Unnumbered [place] ∧ Unnumbered rest := by
  simp [Unnumbered]

/-- A node without an identity gets the next number. -/
theorem Unnumbered.getD_id {place : Place} (free : Unnumbered [place]) (next : Nat) :
    place.id.getD next = next := by
  rw [free place (List.mem_singleton_self _), Option.getD_none]

mutual

theorem Expr.build_fills : ∀ (expr : Expr Place) (first : Nat), Unnumbered expr.tags →
    Fills [.expr (expr.build.run first).1] expr.tags first (expr.build.run first).2
  | .binary place op left right, first, free => by
    simp only [Expr.tags, unnumbered_append] at free
    obtain ⟨⟨inLeft, inRight⟩, own⟩ := free
    exact .whole ((left.build_fills _ inLeft).append (right.build_fills _ inRight))
      (own.getD_id _) rfl
  | .unary place op operand, first, free => by
    obtain ⟨inside, own⟩ := unnumbered_append.mp free
    exact .whole (operand.build_fills _ inside) (own.getD_id _) rfl
  | .literal place kind text, first, free => .leaf rfl (Unnumbered.getD_id free _) rfl
  | .variable place name path indices dereference, first, free => by
    obtain ⟨inside, own⟩ := unnumbered_append.mp free
    exact .whole (Expr.buildAll_fills indices _ inside) (own.getD_id _) rfl
  | .call place name args, first, free => by
    obtain ⟨inside, own⟩ := unnumbered_append.mp free
    exact .whole (Arg.buildAll_fills args _ inside) (own.getD_id _) rfl

theorem Expr.buildAll_fills : ∀ (exprs : List (Expr Place)) (first : Nat),
    Unnumbered (Expr.tagsAll exprs) →
    Fills (((Expr.buildAll exprs).run first).1.map .expr) (Expr.tagsAll exprs) first
      ((Expr.buildAll exprs).run first).2
  | [], _, _ => .nil
  | expr :: rest, first, free => by
    obtain ⟨here, later⟩ := unnumbered_append.mp free
    exact (expr.build_fills _ here).append (Expr.buildAll_fills rest _ later)

theorem Arg.buildAll_fills : ∀ (args : List (Arg Place)) (first : Nat),
    Unnumbered (Arg.tagsAll args) →
    Fills (((Arg.buildAll args).run first).1.map fun arg => .expr arg.value) (Arg.tagsAll args)
      first ((Arg.buildAll args).run first).2
  | [], _, _ => .nil
  | .mk name value output :: rest, first, free => by
    obtain ⟨here, later⟩ := unnumbered_append.mp free
    exact (value.build_fills _ here).append (Arg.buildAll_fills rest _ later)

end

theorem Expr.buildOption_fills (expr : Option (Expr Place)) (first : Nat)
    (free : Unnumbered (Expr.tagsOption expr)) :
    Fills (((Expr.buildOption expr).run first).1.toList.map .expr) (Expr.tagsOption expr) first
      ((Expr.buildOption expr).run first).2 := by
  cases expr with
  | none => exact .nil
  | some expr => exact expr.build_fills first free

theorem Target.build_fills (target : Target Place) (first : Nat) (free : Unnumbered target.tags) :
    Fills [.target (target.build.run first).1] target.tags first (target.build.run first).2 := by
  obtain ⟨inside, own⟩ := unnumbered_append.mp free
  exact .whole (Expr.buildAll_fills target.indices _ inside) (own.getD_id _) rfl

mutual

theorem Stmt.build_fills : ∀ (stmt : Stmt Place Unit) (first : Nat), Unnumbered stmt.tags →
    Fills [.stmt (stmt.build.run first).1] stmt.tags first (stmt.build.run first).2
  | .assign place target value, first, free => by
    simp only [Stmt.tags, unnumbered_append] at free
    obtain ⟨⟨inValue, inTarget⟩, own⟩ := free
    rw [Stmt.build, Stmt.tags]
    -- The value is built before the target.
    exact .whole ((value.build_fills _ inValue).append (target.build_fills _ inTarget)).swap
      (own.getD_id _) rfl
  | .cond place condition thenBody elsifs elseBody, first, free => by
    simp only [Stmt.tags, unnumbered_append] at free
    obtain ⟨⟨⟨⟨inCondition, inThen⟩, inElsifs⟩, inElse⟩, own⟩ := free
    rw [Stmt.build, Stmt.tags]
    exact .whole ((((condition.build_fills _ inCondition).append
      (Stmt.buildAll_fills thenBody _ inThen)).append
      (Clause.buildAll_fills elsifs _ inElsifs)).append
      (Stmt.buildOption_fills elseBody _ inElse)) (own.getD_id _) rfl
  | .select place selector elements elseBody, first, free => by
    simp only [Stmt.tags, unnumbered_append] at free
    obtain ⟨⟨⟨inSelector, inElements⟩, inElse⟩, own⟩ := free
    rw [Stmt.build, Stmt.tags]
    exact .whole (((selector.build_fills _ inSelector).append
      (Element.buildAll_fills elements _ inElements)).append
      (Stmt.buildOption_fills elseBody _ inElse)) (own.getD_id _) rfl
  | .forLoop place counter start stop step body, first, free => by
    simp only [Stmt.tags, unnumbered_append] at free
    obtain ⟨⟨⟨⟨⟨inStart, inStop⟩, inStep⟩, inBody⟩, own⟩, inCounter⟩ := free
    rw [Stmt.build, Stmt.tags]
    have parts := (((start.build_fills first inStart).append (stop.build_fills _ inStop)).append
      (Expr.buildOption_fills step _ inStep)).append (Stmt.buildAll_fills body _ inBody)
    refine .wholeBefore rfl parts (own.getD_id _) ?_ (counter.build_fills _ inCounter) .counter
    rintro part member ⟨⟩
    simp at member
  | .whileLoop place condition body, first, free => by
    simp only [Stmt.tags, unnumbered_append] at free
    obtain ⟨⟨inCondition, inBody⟩, own⟩ := free
    rw [Stmt.build, Stmt.tags]
    exact .whole ((condition.build_fills _ inCondition).append
      (Stmt.buildAll_fills body _ inBody)) (own.getD_id _) rfl
  | .repeatLoop place body until_, first, free => by
    simp only [Stmt.tags, unnumbered_append] at free
    obtain ⟨⟨inBody, inUntil⟩, own⟩ := free
    rw [Stmt.build, Stmt.tags]
    exact .whole ((Stmt.buildAll_fills body _ inBody).append
      (until_.build_fills _ inUntil)) (own.getD_id _) rfl
  | .exit place, first, free => by
    rw [Stmt.tags] at free
    rw [Stmt.build, Stmt.tags]
    exact .leaf rfl (free.getD_id _) rfl
  | .return_ place, first, free => by
    rw [Stmt.tags] at free
    rw [Stmt.build, Stmt.tags]
    exact .leaf rfl (free.getD_id _) rfl
  | .call place name args, first, free => by
    simp only [Stmt.tags, unnumbered_append] at free
    obtain ⟨inside, own⟩ := free
    rw [Stmt.build, Stmt.tags]
    exact .whole (Arg.buildAll_fills args _ inside) (own.getD_id _) rfl

theorem Stmt.buildAll_fills : ∀ (body : List (Stmt Place Unit)) (first : Nat),
    Unnumbered (Stmt.tagsAll body) →
    Fills (((Stmt.buildAll body).run first).1.map .stmt) (Stmt.tagsAll body) first
      ((Stmt.buildAll body).run first).2
  | [], _, _ => by
    rw [Stmt.buildAll, Stmt.tagsAll]
    exact .nil
  | stmt :: rest, first, free => by
    rw [Stmt.tagsAll, unnumbered_append] at free
    rw [Stmt.buildAll, Stmt.tagsAll]
    exact (stmt.build_fills _ free.1).append (Stmt.buildAll_fills rest _ free.2)

theorem Stmt.buildOption_fills : ∀ (body : Option (List (Stmt Place Unit))) (first : Nat),
    Unnumbered (Stmt.tagsOption body) →
    Fills ((((Stmt.buildOption body).run first).1.getD []).map .stmt) (Stmt.tagsOption body) first
      ((Stmt.buildOption body).run first).2
  | none, _, _ => by
    rw [Stmt.buildOption, Stmt.tagsOption]
    exact .nil
  | some body, first, free => by
    rw [Stmt.tagsOption] at free
    rw [Stmt.buildOption, Stmt.tagsOption]
    exact Stmt.buildAll_fills body first free

theorem Clause.buildAll_fills : ∀ (clauses : List (Clause Place Unit)) (first : Nat),
    Unnumbered (Clause.tagsAll clauses) →
    Fills (((Clause.buildAll clauses).run first).1.flatMap fun clause =>
      .expr clause.condition :: clause.body.map .stmt) (Clause.tagsAll clauses) first
      ((Clause.buildAll clauses).run first).2
  | [], _, _ => by
    rw [Clause.buildAll, Clause.tagsAll]
    exact .nil
  | .mk _ condition body :: rest, first, free => by
    simp only [Clause.tagsAll, unnumbered_append] at free
    obtain ⟨⟨inCondition, inBody⟩, later⟩ := free
    rw [Clause.buildAll, Clause.tagsAll]
    exact ((condition.build_fills _ inCondition).append
      (Stmt.buildAll_fills body _ inBody)).append (Clause.buildAll_fills rest _ later)

theorem Element.buildAll_fills : ∀ (elements : List (Element Place Unit)) (first : Nat),
    Unnumbered (Element.tagsAll elements) →
    Fills (((Element.buildAll elements).run first).1.flatMap fun element =>
      element.labels.map .expr ++ element.body.map .stmt) (Element.tagsAll elements) first
      ((Element.buildAll elements).run first).2
  | [], _, _ => by
    rw [Element.buildAll, Element.tagsAll]
    exact .nil
  | .mk labels body :: rest, first, free => by
    simp only [Element.tagsAll, unnumbered_append] at free
    obtain ⟨⟨inLabels, inBody⟩, later⟩ := free
    rw [Element.buildAll, Element.tagsAll]
    exact ((Expr.buildAll_fills labels _ inLabels).append
      (Stmt.buildAll_fills body _ inBody)).append (Element.buildAll_fills rest _ later)

end

theorem VarDecl.build_fills (decl : VarDecl Place) (first : Nat) (free : Unnumbered decl.tags) :
    Fills [.decl (decl.build.run first).1] decl.tags first (decl.build.run first).2 := by
  obtain ⟨inside, own⟩ := unnumbered_append.mp free
  exact .whole (Expr.buildOption_fills decl.initial _ inside) (own.getD_id _) rfl

theorem VarDecl.buildAll_fills (decls : List (VarDecl Place)) (first : Nat)
    (free : Unnumbered (decls.flatMap VarDecl.tags)) :
    Fills (((VarDecl.buildAll decls).run first).1.map .decl) (decls.flatMap VarDecl.tags) first
      ((VarDecl.buildAll decls).run first).2 := by
  induction decls generalizing first with
  | nil => exact .nil
  | cons decl rest ih =>
    obtain ⟨here, later⟩ := unnumbered_append.mp free
    exact (decl.build_fills _ here).append (ih _ later)

theorem VarBlock.build_fills (block : VarBlock Place) (first : Nat)
    (free : Unnumbered block.tags) :
    Fills [.block (block.build.run first).1] block.tags first (block.build.run first).2 := by
  obtain ⟨inside, own⟩ := unnumbered_append.mp free
  exact .whole (VarDecl.buildAll_fills block.decls _ inside) (own.getD_id _) rfl

theorem VarBlock.buildAll_fills (blocks : List (VarBlock Place)) (first : Nat)
    (free : Unnumbered (blocks.flatMap VarBlock.tags)) :
    Fills (((VarBlock.buildAll blocks).run first).1.map .block) (blocks.flatMap VarBlock.tags) first
      ((VarBlock.buildAll blocks).run first).2 := by
  induction blocks generalizing first with
  | nil => exact .nil
  | cons block rest ih =>
    obtain ⟨here, later⟩ := unnumbered_append.mp free
    exact (block.build_fills _ here).append (ih _ later)

theorem TypeDecl.build_fills : ∀ (decl : TypeDecl Place) (first : Nat), Unnumbered decl.tags →
    Fills [.dataType (decl.build.run first).1] decl.tags first (decl.build.run first).2
  | ⟨_, _, .struct _ fields⟩, first, free => by
    obtain ⟨inside, own⟩ := unnumbered_append.mp free
    obtain ⟨outer, inner⟩ := unnumbered_cons.mp own
    exact .dataType (.struct _ _) rfl (VarDecl.buildAll_fills fields _ inside) (outer.getD_id _)
      (inner.getD_id _) rfl
  | ⟨_, _, .union _ fields⟩, first, free => by
    obtain ⟨inside, own⟩ := unnumbered_append.mp free
    obtain ⟨outer, inner⟩ := unnumbered_cons.mp own
    exact .dataType (.struct _ _) rfl (VarDecl.buildAll_fills fields _ inside) (outer.getD_id _)
      (inner.getD_id _) rfl
  | ⟨_, _, .enum _ values⟩, first, free => by
    obtain ⟨outer, inner⟩ := unnumbered_cons.mp free
    exact .dataType (.enum ⟨_, _⟩ values) rfl .nil (outer.getD_id _) (inner.getD_id _) rfl
  | ⟨_, _, .alias _⟩, first, free => .leaf rfl (Unnumbered.getD_id free _) rfl

theorem Root.build_fills : ∀ (root : Root Place Unit) (first : Nat), Unnumbered root.tags →
    Fills [Node.ofRoot (root.build.run first).1] root.tags first (root.build.run first).2
  | .pou declared, first, free => by
    simp only [Root.tags, unnumbered_append] at free
    obtain ⟨⟨inBlocks, inBody⟩, own⟩ := free
    exact .whole ((VarBlock.buildAll_fills declared.blocks _ inBlocks).append
      (Stmt.buildAll_fills declared.body _ inBody)) (own.getD_id _) rfl
  | .globals declared, first, free => by
    obtain ⟨inside, own⟩ := unnumbered_append.mp free
    exact .whole (VarBlock.buildAll_fills declared.blocks _ inside) (own.getD_id _) rfl
  | .dataType declared, first, free => declared.build_fills first free

theorem Root.buildAll_fills (roots : List (Root Place Unit)) (first : Nat)
    (free : Unnumbered (roots.flatMap Root.tags)) :
    Fills (((Root.buildAll roots).run first).1.map Node.ofRoot) (roots.flatMap Root.tags) first
      ((Root.buildAll roots).run first).2 := by
  induction roots generalizing first with
  | nil => exact .nil
  | cons root rest ih =>
    obtain ⟨here, later⟩ := unnumbered_append.mp free
    exact (root.build_fills _ here).append (ih _ later)

/-! Trees that are built -/

namespace Tree

theorem map_id_visitsOf (parent : Option Nat) (nodes : List Node) :
    (nodes.flatMap Node.listing).map Node.id = idsOf parent nodes := by
  rw [← map_node_visitsOf parent, List.map_map]
  rfl

/-- Roots whose nodes have distinct identities are refused only if there are none and no error
explains it. -/
theorem exists_ofRoots_iff (file source : String) {roots : List (Root Mark)}
    (errors : List ParseError) (distinct : (idsOf none (roots.map Node.ofRoot)).Nodup) :
    (∃ tree, ofRoots file source roots errors = .ok tree) ↔ roots ≠ [] ∨ errors ≠ [] := by
  obtain ⟨index, built⟩ := (ParentIndex.build_ok_iff roots).mpr (distinctIds_of_nodup distinct)
  simp only [ofRoots, built]
  cases roots <;> cases errors <;> simp

/-- A description that gives no identities is refused only if it has no roots and no error explains
it. In the tree that is built, the identities of the nodes are the numbers below their count, each
once. There are as many as nodes were described and as numbers were handed out. A part has a smaller
number than the node it belongs to, except for the variable of a loop and the node inside a data
type, which have greater ones. -/
theorem ofDescription_numbers (roots : List (Root Place Unit))
    (free : Unnumbered (roots.flatMap Root.tags)) (file source : String)
    (errors : List ParseError) :
    ((∃ tree, ofDescription file source roots errors = .ok tree) ↔ roots ≠ [] ∨ errors ≠ []) ∧
    ∀ tree, ofDescription file source roots errors = .ok tree →
      (tree.descendants.map Node.id).Perm (List.range tree.nodeCount) ∧
      tree.nodeCount = (roots.flatMap Root.tags).length ∧
      tree.nodeCount = ((Root.buildAll roots).run 0).2 ∧
      ∀ node ∈ tree.descendants, ∀ part ∈ node.children,
        part.id < node.id ↔ ¬ BuiltBehind node part := by
  have fills := Root.buildAll_fills roots 0 free
  have described : (roots.flatMap Root.tags).length = ((Root.buildAll roots).run 0).2 :=
    (Nat.zero_add _).symm.trans fills.size
  have ids := fills.ids
  rw [List.Ico.zero_bot] at ids
  constructor
  · -- Numbers of an interval are distinct, so an index of the nodes can be built.
    have distinct : (idsOf none (((Root.buildAll roots).run 0).1.map Node.ofRoot)).Nodup := by
      rw [← map_id_visitsOf]
      exact ids.nodup_iff.mpr List.nodup_range
    have built : ((Root.buildAll roots).run 0).1 ≠ [] ↔ roots ≠ [] := by
      cases roots with
      | nil => exact iff_of_false (not_not_intro rfl) (not_not_intro rfl)
      | cons root rest => exact iff_of_true (List.cons_ne_nil _ _) (List.cons_ne_nil _ _)
    rw [← built]
    exact exists_ofRoots_iff file source errors distinct
  · intro tree accepted
    obtain ⟨same, built⟩ := ofRoots_eq_ok accepted
    have counted : tree.nodeCount = ((Root.buildAll roots).run 0).2 := by
      rw [nodeCount, ParentIndex.size_of_build built, ← List.length_map Node.id, ids.length_eq,
        List.length_range]
    rw [descendants_eq, same, counted]
    exact ⟨ids, described.symm, rfl, fills.ordered⟩

/-- A structure with one field, and a program with a loop that assigns its variable to another. -/
def limitsAndLoop : List (Root Place Unit) :=
  [.dataType { tag := { line := 1 }, name := "Limits"
               body := .struct {} [{ tag := { line := 2 }, name := "low", dataType := "INT" }] },
    .pou { tag := { line := 5, lastLine := some 9 }, kind := .program, name := "Main"
           body := [.forLoop { line := 6 } { tag := { line := 6 }, name := "i" }
             (.literal { line := 6 } .integer "1") (.literal { line := 6 } .integer "3") none
             [.assign { line := 7 } { tag := { line := 7 }, name := "last" }
               (.variable { line := 7 } "i" [] [] false)]] }]

/-- In source order, the structure (2) stands behind its declaration (1) and in front of its field
(0), and the variable of the loop (9) behind the loop (8). -/
theorem ofDescription_numbers_limitsAndLoop :
    ∃ tree, ofDescription "main.st" "" limitsAndLoop [] = .ok tree ∧
      tree.descendants.map Node.id = [1, 2, 0, 10, 8, 9, 3, 4, 7, 6, 5] ∧
      (tree.descendants.map Node.id).Perm (List.range 11) ∧ tree.nodeCount = 11 := by
  have free : Unnumbered (limitsAndLoop.flatMap Root.tags) := by
    unfold Unnumbered
    decide
  obtain ⟨accepted, numbers⟩ := ofDescription_numbers limitsAndLoop free "main.st" "" []
  obtain ⟨tree, built⟩ := accepted.mpr (.inl (List.cons_ne_nil _ _))
  obtain ⟨ids, described, -⟩ := numbers tree built
  have count : tree.nodeCount = 11 := described.trans (by decide)
  rw [count] at ids
  refine ⟨tree, built, ?_, ids, count⟩
  rw [descendants, (ofRoots_eq_ok built).1]
  decide

end Tree

end PlcAudit.Code
