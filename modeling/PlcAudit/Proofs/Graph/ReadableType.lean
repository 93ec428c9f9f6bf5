import PlcAudit.Proofs.Code.Legible
import PlcAudit.Proofs.Graph.Agreement

/-!
Types behind arrays, pointers and references. Wrappers are cut off a type by their length in bytes.
An ASCII type has a byte for each of its characters, so that no cut splits one, and the graphs of
files that can be read are always built.
-/

namespace PlcAudit

open Code

theorem Code.IsAscii.of_subset {text piece : List Char} (ascii : IsAscii text)
    (inside : piece ⊆ text) : IsAscii piece :=
  fun c member => ascii c (inside member)

namespace Text

theorem trimmed_subset (text : List Char) : trimEnd (trimStart text) ⊆ text := by
  intro c member
  have inside := (List.dropWhile_sublist _).subset (List.mem_reverse.mp member)
  exact (List.dropWhile_sublist _).subset (List.mem_reverse.mp inside)

theorem cutFirst?_before_subset {piece text before after : List Char}
    (cut : cutFirst? piece text = some (before, after)) : before ⊆ text := by
  induction text generalizing before after with
  | nil =>
    rw [cutFirst?] at cut
    split at cut <;> cases cut
    exact List.Subset.refl _
  | cons c rest ih =>
    rw [cutFirst?] at cut
    split at cut
    · cases cut
      exact List.nil_subset _
    · obtain ⟨⟨first, last⟩, found, same⟩ := Option.map_eq_some_iff.mp cut
      cases same
      exact List.cons_subset_cons c (ih found)

end Text

namespace Graph

theorem utf8Size_of_ascii {c : Char} (ascii : c.toNat < 128) : c.utf8Size = 1 := by
  rw [Char.utf8Size_eq_one_iff]
  exact Nat.le_of_lt_succ ascii

/-- Bytes of an ASCII text are its characters, and a cut behind any of them splits none. -/
theorem cutBytes_of_ascii (count : Nat) {text : List Char} (ascii : IsAscii text) :
    cutBytes count text = .ok (if count ≤ text.length then
      some (text.take count, text.drop count) else none) := by
  induction count generalizing text with
  | zero => simp [cutBytes]
  | succ count ih =>
    cases text with
    | nil => simp [cutBytes]
    | cons c rest =>
      obtain ⟨first, later⟩ := List.forall_mem_cons.mp ascii
      rw [cutBytes, utf8Size_of_ascii first, Nat.add_sub_cancel, ih later]
      by_cases fits : count ≤ rest.length <;> simp [fits, Except.map]

/-- A type without a wrapper is a part of the type. -/
theorem exists_withoutWrapper (wrapper : String) {type : List Char} (ascii : IsAscii type) :
    ∃ rest, withoutWrapper wrapper type = .ok rest ∧ IsAscii rest := by
  have cut := cutBytes_of_ascii wrapper.utf8ByteSize ascii
  by_cases fits : wrapper.utf8ByteSize ≤ type.length
  · rw [if_pos fits] at cut
    by_cases same : Text.sameName (String.ofList (type.take wrapper.utf8ByteSize)) wrapper = true
    · refine ⟨Text.trimEnd (Text.trimStart (type.drop wrapper.utf8ByteSize)), ?_, ?_⟩
      · simp [withoutWrapper, cut, same, bind, Except.bind, pure, Except.pure]
      · exact ascii.of_subset (List.Subset.trans (Text.trimmed_subset _) (List.drop_subset _ _))
    · refine ⟨type, ?_, ascii⟩
      simp [withoutWrapper, cut, same, bind, Except.bind, pure, Except.pure]
  · refine ⟨type, ?_, ascii⟩
    simp [withoutWrapper, cut, fits, bind, Except.bind, pure, Except.pure]

theorem elementType_subset (type : List Char) : elementType type ⊆ type := by
  have trimmed := Text.trimmed_subset type
  simp only [elementType]
  split
  · rename_i before after cut
    split
    · obtain ⟨⟨first, last⟩, found, same⟩ := Option.map_eq_some_iff.mp cut
      cases same
      intro c member
      have inside := Text.cutFirst?_before_subset found
        (List.mem_reverse.mp (Text.trimmed_subset _ member))
      exact trimmed (List.mem_reverse.mp inside)
    · exact trimmed
  · exact trimmed

theorem exists_referencedType {type : String} (ascii : IsAscii type.toList) :
    ∃ named, referencedType type = .ok named := by
  have removed (wrappers : List String) {rest : List Char} (ascii : IsAscii rest) :
      ∃ last, wrappers.foldlM (fun rest wrapper => withoutWrapper wrapper rest) rest =
        .ok last := by
    induction wrappers generalizing rest with
    | nil => exact ⟨rest, rfl⟩
    | cons wrapper wrappers ih =>
      obtain ⟨shorter, done, still⟩ := exists_withoutWrapper wrapper ascii
      rw [List.foldlM_cons, done]
      exact ih still
  obtain ⟨last, done⟩ := removed wrappers (ascii.of_subset (elementType_subset _))
  exact ⟨String.ofList last, by rw [referencedType, done]; rfl⟩

/-! Both graphs -/

theorem localTypes_declared {pou : Pou Mark} {name type : String}
    (found : (localTypes pou).find? name = some type) :
    ∃ block decl, (block, decl) ∈ pou.decls ∧ decl.dataType = type := by
  rw [localTypes, Table.find?_ofList_last] at found
  obtain ⟨entry, last, rfl⟩ := Option.map_eq_some_iff.mp found
  have listed := List.mem_reverse.mp (List.mem_of_find?_eq_some last)
  obtain ⟨⟨block, decl⟩, member, rfl⟩ := List.mem_map.mp listed
  exact ⟨block, decl, member, rfl⟩

theorem exists_contribution {pou : Pou Mark} (legible : (Node.pou pou).LegibleInside)
    (kindOf : String → Option EntityKind) : ∃ part, contribution kindOf pou = .ok part := by
  have readable {block : VarBlock Mark} {decl : VarDecl Mark} (member : (block, decl) ∈ pou.decls) :
      ∃ named, referencedType decl.dataType = .ok named :=
    exists_referencedType (legible.decl member _ List.mem_cons_self)
  unfold contribution
  refine exists_ok_bind (exists_ok_mapM ?_) fun types =>
    exists_ok_bind (exists_ok_mapM ?_) fun called => ⟨_, rfl⟩
  · rintro ⟨block, decl⟩ member
    exact exists_ok_map (readable member) _
  · rintro ⟨name, line⟩ -
    cases found : (localTypes pou).find? (key name) with
    | none => exact ⟨(name, line), by simp only [found]⟩
    | some type =>
      obtain ⟨block, decl, member, rfl⟩ := localTypes_declared found
      simp only [found]
      exact exists_ok_map (readable member) _

theorem exists_fragment {tree : Tree} (legible : tree.Legible)
    (kindOf : String → Option EntityKind) : ∃ part, fragment kindOf tree = .ok part := by
  unfold fragment
  refine exists_ok_bind (exists_ok_mapM fun pou member => ?_) fun parts => ⟨_, rfl⟩
  exact exists_ok_map (exists_contribution (legible.pou member) kindOf) _

theorem exists_dependencies {trees : List Tree} (legible : ∀ tree ∈ trees, tree.Legible)
    (cancelled : Bool) : ∃ dependencies, analyze trees cancelled = .ok dependencies := by
  unfold analyze
  refine exists_ok_bind (exists_ok_mapM fun tree member => ?_) fun fragments => ⟨_, rfl⟩
  cases cancelled with
  | true => cases member
  | false => exact exists_fragment (legible tree member) _

end Graph

end PlcAudit
