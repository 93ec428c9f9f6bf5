import PlcAudit.Proofs.Graph.WrappedType

/-!
Links to the types of variables. A unit uses the types that its variables are about, and a call of
a variable is a call of its type. What a unit contributes is a link of the project; so a variable of
a wrapped type links its unit to the type wherever the wrappers are taken off.
-/

namespace PlcAudit.Graph

open Code

/-! What a unit contributes -/

section

variable {kindOf : String → Option EntityKind} {pou : Pou Mark} {part : Contribution}

theorem contribution_typeUse (done : contribution kindOf pou = .ok part) {block : VarBlock Mark}
    {decl : VarDecl Mark} (declared : (block, decl) ∈ pou.decls) {type : String}
    (about : referencedType decl.dataType = .ok type)
    (kind : kindOf type = some .functionBlock ∨ kindOf type = some .dataType) :
    ⟨pou.name, type, .typeUse, decl.tag.line⟩ ∈ part.links := by
  obtain ⟨types, resolved, done⟩ := exists_ok_of_bind done
  obtain ⟨called, _, done⟩ := exists_ok_of_bind done
  cases done
  obtain ⟨use, listed, found⟩ := exists_result_of_mapM resolved declared
  simp only [about] at found
  cases found
  refine List.mem_append_left _ (List.mem_append_left _ (List.mem_append_right _ ?_))
  exact List.mem_map.mpr ⟨_, List.mem_filter.mpr ⟨listed, by simpa using kind⟩, rfl⟩

theorem contribution_instanceCall (done : contribution kindOf pou = .ok part) {name : String}
    {line : Nat} (called : (name, line) ∈ callsIn (Root.pou pou).walk) {declared type : String}
    (typed : (localTypes pou).find? (key name) = some declared)
    (about : referencedType declared = .ok type)
    (callable : (kindOf type).any EntityKind.isCallable = true) :
    ⟨pou.name, type, .call, line⟩ ∈ part.links := by
  obtain ⟨types, _, done⟩ := exists_ok_of_bind done
  obtain ⟨targets, resolved, done⟩ := exists_ok_of_bind done
  cases done
  obtain ⟨target, listed, found⟩ := exists_result_of_mapM resolved called
  simp only [typed, about] at found
  cases found
  refine List.mem_append_left _ (List.mem_append_right _ ?_)
  exact List.mem_map.mpr ⟨_, List.mem_filter.mpr ⟨listed, callable⟩, rfl⟩

end

/-! What becomes of it -/

namespace DependencyGraph

theorem contains_addLink (graph : DependencyGraph) (link : Link) (place : LinkKey) :
    (graph.addLink link).links.contains place = true ↔
      graph.links.contains place = true ∨
        place = linkKey link.source link.target link.kind := by
  rw [Table.contains, find?_addLink, Option.isSome_merge, Bool.or_eq_true]
  refine or_congr_right ?_
  split <;> simp_all

theorem contains_foldl_addLink (links : List Link) {graph : DependencyGraph} {place : LinkKey}
    (present : graph.links.contains place = true) :
    (links.foldl addLink graph).links.contains place = true :=
  List.foldlRecOn (motive := fun graph : DependencyGraph => graph.links.contains place = true)
    _ _ present fun graph present link _ => (graph.contains_addLink link place).mpr (.inl present)

/-- A link that is added stays, whatever is added before and behind it. -/
theorem hasLink_of_mem {links : List Link} {link : Link} (member : link ∈ links)
    (graph : DependencyGraph) :
    (links.foldl addLink graph).hasLink link.source link.target link.kind = true := by
  obtain ⟨before, behind, rfl⟩ := List.append_of_mem member
  rw [List.foldl_append, List.foldl_cons]
  exact contains_foldl_addLink behind ((contains_addLink _ link _).mpr (.inr rfl))

theorem contains_merge_iff {graph other : DependencyGraph} (placed : other.Placed)
    (place : LinkKey) :
    (graph.merge other).links.contains place = true ↔
      graph.links.contains place = true ∨ other.links.contains place = true := by
  rw [Table.contains, find?_links_merge placed, Option.isSome_merge, Bool.or_eq_true]
  rfl

end DependencyGraph

/-- What a unit contributes is linked in the graph of its file. -/
theorem hasLink_of_fragment {kindOf : String → Option EntityKind} {tree : Tree}
    {graphs : DependencyGraph × CallGraph} (done : fragment kindOf tree = .ok graphs)
    {pou : Pou Mark} (inTree : pou ∈ tree.pous) :
    ∃ part, contribution kindOf pou = .ok part ∧ ∀ link ∈ part.links,
      graphs.1.hasLink link.source link.target link.kind = true := by
  obtain ⟨parts, made, done⟩ := exists_ok_of_bind done
  cases done
  obtain ⟨entry, listed, reached⟩ := exists_result_of_mapM made inTree
  obtain ⟨part, contributed, rfl⟩ := exists_ok_of_map reached
  refine ⟨part, contributed, fun link member => ?_⟩
  exact DependencyGraph.hasLink_of_mem (List.mem_flatMap.mpr ⟨_, listed, member⟩) {}

/-- The kind of the declaration of a name in the project. -/
def declaredKind? (trees : List Tree) (name : String) : Option EntityKind :=
  ((declaredGraph trees).node? name).map Entity.kind

/-- What a unit contributes is linked in the graph of the project. -/
theorem hasLink_of_analyze {trees : List Tree} {result : Dependencies}
    (done : analyze trees false = .ok result) {tree : Tree} (inTrees : tree ∈ trees)
    {pou : Pou Mark} (inTree : pou ∈ tree.pous) :
    ∃ part, contribution (declaredKind? trees) pou = .ok part ∧ ∀ link ∈ part.links,
      result.graph.hasLink link.source link.target link.kind = true := by
  obtain ⟨fragments, made, done⟩ := exists_ok_of_bind done
  cases done
  obtain ⟨graphs, listed, built⟩ := exists_result_of_mapM made inTrees
  obtain ⟨part, contributed, linked⟩ := hasLink_of_fragment built inTree
  refine ⟨part, contributed, fun link member => ?_⟩
  have placed : ∀ graphs ∈ fragments, graphs.1.Placed := by
    intro graphs member
    obtain ⟨tree, _, built⟩ := exists_item_of_mapM made member
    exact (fragment_agree built).graphBuilt.placed
  obtain ⟨before, behind, rfl⟩ := List.append_of_mem listed
  have present := linked link member
  simp only [Dependencies.ofFragments]
  rw [List.foldl_append, List.foldl_cons]
  refine List.foldlRecOn (motive := fun graph : DependencyGraph =>
    graph.hasLink link.source link.target link.kind = true) _ _ ?_ ?_
  · exact (DependencyGraph.contains_merge_iff (placed graphs listed) _).mpr (.inr present)
  · intro graph stays later member
    refine (DependencyGraph.contains_merge_iff (placed later ?_) _).mpr (.inl stays)
    exact List.mem_append_right _ (List.mem_cons_of_mem _ member)

/-! Variables of wrapped types -/

/-- Of a wrapped type, some wrappers in front are taken off, and all of them exactly if they are
removable. Then a variable of the type links its unit to it: by its use, if the type is one of the
project, and by every call of the variable, if it can be called. -/
theorem wrapped_type_linked {name : String} (identifier : IsIdentifier name)
    (wrappers : List Wrapper) :
    (∃ rest, rest <:+ wrappers ∧
      referencedType (wrapped wrappers name) = .ok (wrapped rest name)) ∧
    (referencedType (wrapped wrappers name) = .ok name ↔ Removable wrappers) ∧
    (Removable wrappers → ∀ trees result, analyze trees false = .ok result →
      ∀ tree ∈ trees, ∀ pou ∈ tree.pous,
        (∀ block decl, (block, decl) ∈ pou.decls → decl.dataType = wrapped wrappers name →
          declaredKind? trees name = some .functionBlock ∨
            declaredKind? trees name = some .dataType →
          result.graph.hasLink pou.name name .typeUse = true) ∧
        ∀ called line, (called, line) ∈ callsIn (Root.pou pou).walk →
          (localTypes pou).find? (key called) = some (wrapped wrappers name) →
          (declaredKind? trees name).any EntityKind.isCallable = true →
          result.graph.hasLink pou.name name .call = true) := by
  have reached := referencedType_wrapped identifier wrappers
  have known : referencedType (wrapped wrappers name) = .ok name ↔ Removable wrappers := by
    rw [reached, Except.ok.injEq, wrapped_eq_name_iff identifier, remaining_eq_nil_iff]
  refine ⟨⟨_, remaining_suffix wrappers, reached⟩, known, ?_⟩
  intro removable trees result done tree inTrees pou inTree
  have about := known.mpr removable
  obtain ⟨part, contributed, linked⟩ := hasLink_of_analyze done inTrees inTree
  constructor
  · intro block decl declared type kind
    rw [← type] at about
    have used := contribution_typeUse contributed declared about kind
    exact linked ⟨pou.name, name, .typeUse, decl.tag.line⟩ used
  · intro called line stands typed callable
    have reaches := contribution_instanceCall contributed stands typed about callable
    exact linked ⟨pou.name, name, .call, line⟩ reaches

/-- A function block, and a program that declares a variable of a type and calls it. -/
def motorFiles (type : String) : List Tree :=
  let tree := fun (file : String) (pou : Pou Mark) =>
    ({ file, source := "", roots := [.pou pou], errors := []
       index := (ParentIndex.build [.pou pou]).toOption.getD .empty } : Tree)
  [tree "motor.st" { tag := ⟨0, .lines 1 2⟩, kind := .functionBlock none [], name := "FB_Motor" },
    tree "main.st" {
      tag := ⟨0, .lines 1 5⟩, kind := .program, name := "Main"
      blocks := [{ tag := ⟨1, .line 1⟩, scope := .local_
                   decls := [.plain ⟨2, .line 2⟩ "motor" type] }]
      body := [.call ⟨3, .line 4⟩ "motor" []] }]

/-- `ARRAY[1..10] OF Pointer To` -/
def arrayOfPointers : List Wrapper :=
  [.array "ARRAY" "1..10" "OF" rfl rfl (by decide) (by decide),
    .indirection .pointer "Pointer To" rfl]

theorem wrapped_type_linked_arrayOfPointers :
    referencedType "ARRAY[1..10] OF Pointer To FB_Motor" = .ok "FB_Motor" ∧
      ∃ result, analyze (motorFiles "ARRAY[1..10] OF Pointer To FB_Motor") false = .ok result ∧
        result.graph.hasLink "Main" "FB_Motor" .typeUse = true ∧
        result.graph.hasLink "Main" "FB_Motor" .call = true := by
  have identifier : IsIdentifier "FB_Motor" := ⟨by decide, List.all_eq_true.mp (by decide)⟩
  have text : wrapped arrayOfPointers "FB_Motor" = "ARRAY[1..10] OF Pointer To FB_Motor" := by
    decide
  have removable : Removable arrayOfPointers :=
    ⟨arrayOfPointers.take 1, arrayOfPointers.drop 1, rfl, .inr ⟨rfl, rfl⟩, by decide⟩
  obtain ⟨_, named, linked⟩ := wrapped_type_linked identifier arrayOfPointers
  rw [text] at named linked
  obtain ⟨result, done⟩ : ∃ result,
      analyze (motorFiles "ARRAY[1..10] OF Pointer To FB_Motor") false = .ok result := ⟨_, rfl⟩
  obtain ⟨used, called⟩ := linked removable _ result done _ (.tail _ (.head _)) _ (.head _)
  refine ⟨named.mpr removable, result, done, ?_, ?_⟩
  · exact used _ _ (.head _) rfl (.inl (by decide))
  · exact called "motor" 4 (.head _) (by decide) (by decide)

/-- `POINTER TO POINTER TO` -/
def pointerToPointer : List Wrapper :=
  [.indirection .pointer "POINTER TO" rfl, .indirection .pointer "POINTER TO" rfl]

/-- `array[1..4] of` -/
def smallArray : List Wrapper :=
  [.array "array" "1..4" "of" rfl rfl (by decide) (by decide)]

/-- The function block does not come out of the wrappers, and a variable of the wrapped type links
the program to nothing. -/
def LeavesUnlinked (wrappers : List Wrapper) : Prop :=
  referencedType (wrapped wrappers "FB_Motor") ≠ .ok "FB_Motor" ∧
    ∃ result, analyze (motorFiles (wrapped wrappers "FB_Motor")) false = .ok result ∧
      result.graph.hasLink "Main" "FB_Motor" .typeUse = false ∧
      result.graph.hasLink "Main" "FB_Motor" .call = false

/-- A second pointer stays, and so does an array in small letters. -/
theorem wrapped_type_unlinked : LeavesUnlinked pointerToPointer ∧ LeavesUnlinked smallArray := by
  constructor
  · exact ⟨by decide +kernel, _, rfl, by decide +kernel, by decide +kernel⟩
  · exact ⟨by decide +kernel, _, rfl, by decide +kernel, by decide +kernel⟩

end PlcAudit.Graph
