import PlcAudit.Code.Literal
import PlcAudit.Proofs.Code.Preorder

/-!
Trees that can be read. An integer literal names no base, or one that digits and letters can write,
and the types that are declared are ASCII.
-/

namespace PlcAudit

theorem Text.cutFirst?_singleton (mark : Char) (text : List Char) :
    cutFirst? [mark] text = if mark ∈ text then
      some (text.takeWhile (· != mark), (text.dropWhile (· != mark)).tail) else none := by
  induction text with
  | nil => rfl
  | cons c rest ih =>
    by_cases same : c = mark
    · simp [cutFirst?, same]
    · have later : mark ≠ c := Ne.symm same
      by_cases present : mark ∈ rest <;> simp [cutFirst?, ih, same, later, present]

namespace Code

/-- An integer text without its underscores names no base before a number sign, or one that digits
and letters can write. A text before the sign that is no number names none. -/
def ReadableInteger (text : String) : Prop :=
  '#' ∉ text.toList.filter (· != '_') ∨
    ∀ base ∈ baseNumber? ((text.toList.filter (· != '_')).takeWhile (· != '#')),
      2 ≤ base ∧ base ≤ 36

def IsAscii (text : List Char) : Prop := ∀ c ∈ text, c.toNat < 128

instance (text : String) : Decidable (ReadableInteger text) :=
  inferInstanceAs (Decidable (_ ∨ _))

instance (text : List Char) : Decidable (IsAscii text) :=
  List.decidableBAll (fun c : Char => c.toNat < 128) text

/-- What stands in a node itself can be read. -/
def Node.Legible : Node → Prop
  | .expr (.literal _ kind text) => kind = .integer → ReadableInteger text
  | .decl declared => IsAscii declared.dataType.toList
  | _ => True

instance : DecidablePred Node.Legible
  | .expr (.literal _ kind text) =>
    inferInstanceAs (Decidable (kind = .integer → ReadableInteger text))
  | .decl declared => inferInstanceAs (Decidable (IsAscii declared.dataType.toList))
  | .expr (.binary ..) | .expr (.unary ..) | .expr (.variable ..) | .expr (.call ..) | .pou _
  | .globals _ | .block _ | .stmt _ | .target _ | .dataType _ | .struct .. | .enum .. =>
    .isTrue trivial

/-- A node and all that is inside it can be read. -/
def Node.LegibleInside (node : Node) : Prop := ∀ inner ∈ node.listing, inner.Legible

/-- Every node of a file can be read. -/
def Tree.Legible (tree : Tree) : Prop := ∀ node ∈ tree.descendants, node.Legible

instance (tree : Tree) : Decidable tree.Legible :=
  inferInstanceAs (Decidable (∀ node ∈ tree.descendants, node.Legible))

theorem Node.LegibleInside.part {node part : Node} (legible : node.LegibleInside)
    (isPart : part ∈ node.children) : part.LegibleInside := by
  intro inner listed
  refine legible inner ?_
  rw [listing_eq]
  exact List.mem_cons_of_mem _ ((listing_sublist_of_mem isPart).subset listed)

theorem Tree.Legible.pou {tree : Tree} (legible : tree.Legible) {pou : Pou Mark}
    (member : pou ∈ tree.pous) : (Node.pou pou).LegibleInside := by
  obtain ⟨root, isRoot, same⟩ := List.mem_filterMap.mp member
  have listed : Node.pou pou ∈ tree.roots.map Node.ofRoot := by
    refine List.mem_map.mpr ⟨root, isRoot, ?_⟩
    cases root <;> cases same
    rfl
  intro inner found
  refine legible inner ?_
  rw [descendants_eq]
  exact (listing_sublist_of_mem listed).subset found

theorem Node.LegibleInside.decl {pou : Pou Mark} (legible : (Node.pou pou).LegibleInside)
    {block : VarBlock Mark} {decl : VarDecl Mark} (member : (block, decl) ∈ pou.decls) :
    (Node.decl decl).LegibleInside := by
  obtain ⟨owner, isBlock, isDecl⟩ := List.mem_flatMap.mp member
  obtain ⟨_, declared, rfl, rfl⟩ : ∃ other ∈ owner.decls, owner = block ∧ other = decl := by
    simpa using isDecl
  have inside : (Node.block owner).LegibleInside :=
    legible.part (List.mem_append_left _ (List.mem_map_of_mem isBlock))
  exact inside.part (List.mem_map_of_mem declared)

theorem ReadableInteger.hasBadBase {text : String} (readable : ReadableInteger text) :
    LiteralKind.hasBadBase .integer text = false := by
  unfold ReadableInteger at readable
  simp only [LiteralKind.hasBadBase, baseAndDigits?, Text.cutFirst?_singleton]
  generalize text.toList.filter (· != '_') = plain at readable ⊢
  by_cases marked : '#' ∈ plain
  · have fits := readable.resolve_left (not_not_intro marked)
    rw [if_pos marked]
    cases named : baseNumber? (plain.takeWhile (· != '#')) with
    | none => simp [named]
    | some base => simp [named, isBase, fits base named]
  · simp [marked, isBase]

end Code

end PlcAudit
