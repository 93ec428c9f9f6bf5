import PlcAudit.Data.Order
import PlcAudit.Data.Table

/-!
Tables as finite maps: what each operation does to look-ups and to the set of keys.
-/

namespace PlcAudit

namespace Table

variable {κ υ : Type} [Ord κ]

@[simp] theorem find?_empty (key : κ) : (empty : Table κ υ).find? key = none := rfl

@[simp] theorem keys_empty : (empty : Table κ υ).keys = [] := rfl

/-- The keys of a table come in strictly increasing order. -/
theorem keys_sorted (table : Table κ υ) :
    table.keys.Pairwise fun earlier later => compare earlier later = .lt :=
  List.pairwise_map.mpr table.sorted

@[simp] theorem keys_modify (table : Table κ υ) (key : κ) (change : υ → υ) :
    (table.modify key change).keys = table.keys := by
  simp only [keys, modify, List.map_map]
  apply List.map_congr_left
  intro entry _
  simp only [Function.comp]
  split <;> rfl

theorem find?_mapValues {ω : Type} (table : Table κ υ) (change : υ → ω) (key : κ) :
    (table.mapValues change).find? key = (table.find? key).map change := by
  simp [find?, mapValues, List.find?_map, Function.comp_def]

theorem find?_cons (head : κ × υ) (rest : List (κ × υ)) (key : κ) :
    (head :: rest).find? (fun entry => compare entry.1 key == .eq) =
      if compare head.1 key = .eq then some head
      else rest.find? fun entry => compare entry.1 key == .eq := by
  by_cases same : compare head.1 key = .eq <;> simp [same]

variable [Std.LawfulEqOrd κ]

/-- No entry has a key below the first. -/
theorem find?_eq_none_of_below {entries : List (κ × υ)} {key : κ}
    (below : ∀ entry ∈ entries, compare key entry.1 = .lt) :
    entries.find? (fun entry => compare entry.1 key == .eq) = none := by
  apply List.find?_eq_none.mpr
  intro entry member
  have smaller := below entry member
  intro same
  have equal := Std.LawfulEqOrd.compare_eq_iff_eq.mp (beq_iff_eq.mp same)
  rw [equal] at smaller
  simp at smaller

theorem find?_alterEntries_of_ne {key other : κ} (different : other ≠ key) (value : Option υ → υ)
    (entries : List (κ × υ)) :
    ((alterEntries key value entries).find? fun entry => compare entry.1 other == .eq) =
      entries.find? fun entry => compare entry.1 other == .eq := by
  have apart : compare key other ≠ .eq := fun same =>
    different (Std.LawfulEqOrd.compare_eq_iff_eq.mp same).symm
  induction entries with
  | nil => simp [alterEntries, apart]
  | cons head rest ih =>
    unfold alterEntries
    split
    · rw [find?_cons, if_neg apart]
    · rename_i same
      have equal := Std.LawfulEqOrd.compare_eq_iff_eq.mp same
      rw [find?_cons, find?_cons, ← equal, if_neg apart, if_neg apart]
    · rw [find?_cons, find?_cons, ih]

private theorem find?_map_change (entries : List (κ × υ)) (key other : κ) (change : υ → υ) :
    ((entries.map fun entry =>
        if compare entry.1 key == .eq then (entry.1, change entry.2) else entry).find?
      fun entry => compare entry.1 other == .eq).map Prod.snd =
      ((entries.find? fun entry => compare entry.1 other == .eq).map Prod.snd).map
        (if compare other key = .eq then change else id) := by
  induction entries with
  | nil => rfl
  | cons head rest ih =>
    rw [List.map_cons, find?_cons, find?_cons]
    by_cases found : compare head.1 other = .eq
    · have equal := Std.LawfulEqOrd.compare_eq_iff_eq.mp found
      by_cases same : compare other key = .eq <;> simp [equal, same]
    · by_cases same : compare head.1 key = .eq <;> simp [found, same] <;> simpa using ih

theorem find?_modify_self (table : Table κ υ) (key : κ) (change : υ → υ) :
    (table.modify key change).find? key = (table.find? key).map change := by
  simp only [find?, modify]
  rw [find?_map_change]
  simp

theorem find?_modify_of_ne (table : Table κ υ) {key other : κ} (different : other ≠ key)
    (change : υ → υ) : (table.modify key change).find? other = table.find? other := by
  have apart : compare other key ≠ .eq := fun same =>
    different (Std.LawfulEqOrd.compare_eq_iff_eq.mp same)
  simp only [find?, modify]
  rw [find?_map_change]
  simp [apart]

/-- A changed entry has its old value or the new one. -/
theorem find?_modify {table : Table κ υ} {key other : κ} {change : υ → υ} {value : υ}
    (found : (table.modify key change).find? other = some value) :
    ∃ old, table.find? other = some old ∧ (value = old ∨ value = change old) := by
  by_cases same : other = key
  · rw [same, find?_modify_self] at found
    obtain ⟨old, present, changed⟩ := Option.map_eq_some_iff.mp found
    exact ⟨old, same ▸ present, .inr changed.symm⟩
  · rw [find?_modify_of_ne _ same] at found
    exact ⟨value, found, .inl rfl⟩

theorem keys_nodup (table : Table κ υ) : table.keys.Nodup := by
  apply table.keys_sorted.imp
  intro earlier later below same
  rw [same] at below
  simp at below

theorem contains_iff_mem_keys (table : Table κ υ) (key : κ) :
    table.contains key = true ↔ key ∈ table.keys := by
  simp only [contains, find?, Option.isSome_map, List.find?_isSome, keys, List.mem_map,
    Std.LawfulEqOrd.compare_beq_iff_eq]

theorem mem_keys_of_find? {table : Table κ υ} {key : κ} {value : υ}
    (found : table.find? key = some value) : key ∈ table.keys :=
  (table.contains_iff_mem_keys key).mp (by simp [contains, found])

theorem find?_of_mem_keys {table : Table κ υ} {key : κ} (member : key ∈ table.keys) :
    ∃ value, table.find? key = some value :=
  Option.isSome_iff_exists.mp ((table.contains_iff_mem_keys key).mpr member)

theorem find?_of_mem_entries {table : Table κ υ} {key : κ} {value : υ}
    (member : (key, value) ∈ table.entries) : table.find? key = some value := by
  obtain ⟨front, back, split⟩ := List.append_of_mem member
  have sorted := table.sorted
  rw [split] at sorted
  have absent : front.find? (fun entry => compare entry.1 key == .eq) = none := by
    apply List.find?_eq_none.mpr
    intro entry earlier
    have below := (List.pairwise_append.mp sorted).2.2 entry earlier _ (List.mem_cons_self ..)
    simp [below]
  simp [find?, split, absent]

theorem mem_values_iff (table : Table κ υ) (value : υ) :
    value ∈ table.values ↔ ∃ key, table.find? key = some value := by
  constructor
  · intro member
    obtain ⟨⟨key, stored⟩, present, rfl⟩ := List.mem_map.mp member
    exact ⟨key, find?_of_mem_entries present⟩
  · rintro ⟨key, found⟩
    obtain ⟨entry, first, rfl⟩ := Option.map_eq_some_iff.mp found
    exact List.mem_map_of_mem (List.mem_of_find?_eq_some first)

private theorem alterEntries_perm {entries : List (κ × υ)} {key : κ}
    (fresh : key ∉ entries.map Prod.fst) (value : Option υ → υ) :
    (alterEntries key value entries).Perm ((key, value none) :: entries) := by
  induction entries with
  | nil => exact .refl _
  | cons head rest ih =>
    obtain ⟨different, absent⟩ := not_or.mp (mt List.mem_cons.mpr fresh)
    unfold alterEntries
    split
    · exact .refl _
    · rename_i same
      exact absurd (Std.LawfulEqOrd.compare_eq_iff_eq.mp same) different
    · exact ((ih absent).cons head).trans (.swap ..)

variable [Std.TransOrd κ]

theorem find?_alterEntries_self {entries : List (κ × υ)} (key : κ) (value : Option υ → υ)
    (sorted : entries.Pairwise fun earlier later => compare earlier.1 later.1 = .lt) :
    ((alterEntries key value entries).find? fun entry => compare entry.1 key == .eq) =
      some (key, value ((entries.find? fun entry => compare entry.1 key == .eq).map Prod.snd)) := by
  induction entries with
  | nil => simp [alterEntries]
  | cons head rest ih =>
    obtain ⟨headBelow, restSorted⟩ := List.pairwise_cons.mp sorted
    unfold alterEntries
    split
    · rename_i below
      have absent : (head :: rest).find? (fun entry => compare entry.1 key == .eq) = none := by
        apply find?_eq_none_of_below
        intro entry member
        rcases List.mem_cons.mp member with same | later
        · rw [same]
          exact below
        · exact Std.TransCmp.lt_trans below (headBelow entry later)
      rw [absent]
      simp
    · rename_i same
      have equal := Std.LawfulEqOrd.compare_eq_iff_eq.mp same
      simp [equal]
    · rename_i above
      have different : compare head.1 key ≠ .eq := by
        rw [Std.OrientedCmp.gt_iff_lt.mp above]
        simp
      rw [find?_cons, find?_cons, if_neg different, if_neg different]
      exact ih restSorted

@[simp] theorem find?_alter_self (table : Table κ υ) (key : κ) (value : Option υ → υ) :
    (table.alter key value).find? key = some (value (table.find? key)) := by
  simp only [find?, alter, find?_alterEntries_self key value table.sorted, Option.map_some]

theorem find?_alter_of_ne (table : Table κ υ) {key other : κ} (different : other ≠ key)
    (value : Option υ → υ) : (table.alter key value).find? other = table.find? other := by
  simp only [find?, alter, find?_alterEntries_of_ne different]

@[simp] theorem find?_insert_self (table : Table κ υ) (key : κ) (value : υ) :
    (table.insert key value).find? key = some value :=
  table.find?_alter_self key _

theorem find?_insert_of_ne (table : Table κ υ) {key other : κ} (different : other ≠ key)
    (value : υ) : (table.insert key value).find? other = table.find? other :=
  table.find?_alter_of_ne different _

theorem mem_keys_alter (table : Table κ υ) (key other : κ) (value : Option υ → υ) :
    other ∈ (table.alter key value).keys ↔ other = key ∨ other ∈ table.keys := by
  rw [← contains_iff_mem_keys, ← contains_iff_mem_keys, contains, contains]
  by_cases same : other = key
  · simp [same]
  · simp [table.find?_alter_of_ne same, same]

theorem mem_keys_insert (table : Table κ υ) (key other : κ) (value : υ) :
    other ∈ (table.insert key value).keys ↔ other = key ∨ other ∈ table.keys :=
  table.mem_keys_alter key other _

/-- A new key adds one entry. -/
theorem entries_insert_perm {table : Table κ υ} {key : κ} (fresh : key ∉ table.keys) (value : υ) :
    (table.insert key value).entries.Perm ((key, value) :: table.entries) :=
  alterEntries_perm fresh _

omit [Std.LawfulEqOrd κ] in
/-- There is one order for the entries of a table. -/
theorem entries_eq_of_perm {table : Table κ υ} {entries : List (κ × υ)}
    (sorted : entries.Pairwise fun earlier later => compare earlier.1 later.1 = .lt)
    (same : table.entries.Perm entries) : table.entries = entries := by
  refine List.Perm.eq_of_pairwise ?_ table.sorted sorted same
  intro left right _ _ below above
  exact absurd above (Std.OrientedCmp.not_lt_of_lt below)

/-! Tables from lists of entries -/

private theorem mem_keys_fold_insert (entries : List (κ × υ)) (table : Table κ υ) (key : κ) :
    key ∈ (entries.foldl (fun table entry => table.insert entry.1 entry.2) table).keys ↔
      key ∈ table.keys ∨ key ∈ entries.map Prod.fst := by
  induction entries generalizing table with
  | nil => simp
  | cons head rest ih =>
    rw [List.foldl_cons, ih, mem_keys_insert, List.map_cons, List.mem_cons]
    constructor
    · rintro ((same | old) | later)
      · exact .inr (.inl same)
      · exact .inl old
      · exact .inr (.inr later)
    · rintro (old | same | later)
      · exact .inl (.inr old)
      · exact .inl (.inl same)
      · exact .inr later

theorem mem_keys_ofList (entries : List (κ × υ)) (key : κ) :
    key ∈ (ofList entries).keys ↔ key ∈ entries.map Prod.fst := by
  simp [ofList, mem_keys_fold_insert]

private theorem find?_fold_insert {entries : List (κ × υ)} {key : κ} (table : Table κ υ)
    (absent : key ∉ entries.map Prod.fst) :
    (entries.foldl (fun table entry => table.insert entry.1 entry.2) table).find? key =
      table.find? key := by
  induction entries generalizing table with
  | nil => rfl
  | cons head rest ih =>
    simp only [List.map_cons, List.mem_cons, not_or] at absent
    rw [List.foldl_cons, ih _ absent.2, find?_insert_of_ne _ absent.1]

/-- With distinct keys, no entry replaces another. -/
theorem find?_ofList {entries : List (κ × υ)} {key : κ} {value : υ}
    (distinct : (entries.map Prod.fst).Nodup) (member : (key, value) ∈ entries) :
    (ofList entries).find? key = some value := by
  obtain ⟨front, back, rfl⟩ := List.append_of_mem member
  have absent : key ∉ back.map Prod.fst := by
    simp only [List.map_append, List.map_cons] at distinct
    exact (List.nodup_cons.mp (List.nodup_append.mp distinct).2.1).1
  simp only [ofList, List.foldl_append, List.foldl_cons]
  rw [find?_fold_insert _ absent, find?_insert_self]

private theorem find?_fold_last [DecidableEq κ] (entries : List (κ × υ)) (key : κ)
    (table : Table κ υ) :
    (entries.foldl (fun table entry => table.insert entry.1 entry.2) table).find? key =
      ((entries.reverse.find? fun entry => decide (entry.1 = key)).map Prod.snd).or
        (table.find? key) := by
  induction entries generalizing table with
  | nil => rfl
  | cons head rest ih =>
    rw [List.foldl_cons, ih, List.reverse_cons, List.find?_append, Option.map_or, Option.or_assoc]
    congr 1
    by_cases same : head.1 = key
    · rw [← same, find?_insert_self, List.find?_cons_of_pos (by simp)]
      rfl
    · rw [find?_insert_of_ne _ (Ne.symm same), List.find?_cons_of_neg (by simpa using same)]
      rfl

/-- Of several entries with one key, the last stays. -/
theorem find?_ofList_last [DecidableEq κ] (entries : List (κ × υ)) (key : κ) :
    (ofList entries).find? key =
      (entries.reverse.find? fun entry => decide (entry.1 = key)).map Prod.snd := by
  rw [ofList, find?_fold_last, find?_empty, Option.or_none]

/-! Tables by their look-ups -/

omit [Std.TransOrd κ] in
theorem mem_entries_iff (table : Table κ υ) (key : κ) (value : υ) :
    (key, value) ∈ table.entries ↔ table.find? key = some value := by
  refine ⟨find?_of_mem_entries, fun found => ?_⟩
  obtain ⟨entry, first, rfl⟩ := Option.map_eq_some_iff.mp found
  have same := List.find?_some first
  rw [← Std.LawfulEqOrd.compare_beq_iff_eq.mp same]
  exact List.mem_of_find?_eq_some first

omit [Ord κ] [Std.LawfulEqOrd κ] [Std.TransOrd κ] in
theorem nodup_of_keys {entries : List (κ × υ)} (distinct : (entries.map Prod.fst).Nodup) :
    entries.Nodup :=
  List.Pairwise.of_map Prod.fst (fun _ _ apart same => apart (congrArg _ same)) distinct

/-- A table is given by what its keys hold. -/
theorem eq_of_find? {left right : Table κ υ} (same : ∀ key, left.find? key = right.find? key) :
    left = right := by
  apply ext
  apply entries_eq_of_perm right.sorted
  apply (List.perm_ext_iff_of_nodup (nodup_of_keys left.keys_nodup)
    (nodup_of_keys right.keys_nodup)).mpr
  rintro ⟨key, value⟩
  rw [mem_entries_iff, mem_entries_iff, same]

section LastEntries

variable [DecidableEq κ]

/-- The entries of a list whose keys do not come again behind them. -/
def lastEntries : List (κ × υ) → List (κ × υ)
  | [] => []
  | entry :: rest =>
    if entry.1 ∈ rest.map Prod.fst then lastEntries rest else entry :: lastEntries rest

omit [Ord κ] [Std.LawfulEqOrd κ] [Std.TransOrd κ]

theorem lastEntries_sublist (entries : List (κ × υ)) : (lastEntries entries).Sublist entries := by
  induction entries with
  | nil => exact .slnil
  | cons entry rest ih =>
    rw [lastEntries]
    split
    · exact ih.cons entry
    · exact ih.cons_cons entry

theorem lastEntries_keys_nodup (entries : List (κ × υ)) :
    ((lastEntries entries).map Prod.fst).Nodup := by
  induction entries with
  | nil => exact .nil
  | cons entry rest ih =>
    rw [lastEntries]
    split
    · exact ih
    · rename_i fresh
      have absent := mt (fun later => ((lastEntries_sublist rest).map Prod.fst).subset later) fresh
      exact List.nodup_cons.mpr ⟨absent, ih⟩

/-- All entries stay exactly if their keys are distinct. -/
theorem lastEntries_eq_self_iff {entries : List (κ × υ)} :
    lastEntries entries = entries ↔ (entries.map Prod.fst).Nodup := by
  constructor
  · intro same
    rw [← same]
    exact lastEntries_keys_nodup entries
  · intro distinct
    induction entries with
    | nil => rfl
    | cons entry rest ih =>
      obtain ⟨fresh, later⟩ := List.nodup_cons.mp distinct
      rw [lastEntries, if_neg fresh, ih later]

theorem mem_lastEntries {entries : List (κ × υ)} {key : κ} {value : υ} :
    (key, value) ∈ lastEntries entries ↔
      (entries.reverse.find? fun entry => decide (entry.1 = key)).map Prod.snd = some value := by
  induction entries with
  | nil => simp [lastEntries]
  | cons entry rest ih =>
    rw [List.reverse_cons, List.find?_append, Option.map_or]
    by_cases same : entry.1 = key
    · subst key
      by_cases again : entry.1 ∈ rest.map Prod.fst
      · rw [lastEntries, if_pos again, ih]
        obtain ⟨other, later, equal⟩ := List.mem_map.mp again
        have found : (rest.reverse.find? fun other => decide (other.1 = entry.1)).isSome = true :=
          List.find?_isSome.mpr ⟨other, List.mem_reverse.mpr later, by simpa using equal⟩
        obtain ⟨last, found⟩ := Option.isSome_iff_exists.mp found
        rw [found]
        rfl
      · have absent : (rest.reverse.find? fun other => decide (other.1 = entry.1)) = none := by
          apply List.find?_eq_none.mpr
          intro other later equal
          exact again (List.mem_map.mpr ⟨other, List.mem_reverse.mp later, by simpa using equal⟩)
        rw [absent] at ih
        rw [lastEntries, if_neg again, List.mem_cons, ih, absent]
        obtain ⟨key, stored⟩ := entry
        simp [eq_comm]
    · have unfound : [entry].find? (fun other => decide (other.1 = key)) = none := by
        simp [same]
      rw [unfound, Option.map_none, Option.or_none, ← ih, lastEntries]
      split
      · rfl
      · rw [List.mem_cons, or_iff_right]
        exact fun equal => same (by rw [← equal])

end LastEntries

/-- A table made from a list holds the last entry of each key. -/
theorem entries_ofList_perm [DecidableEq κ] (entries : List (κ × υ)) :
    (ofList entries).entries.Perm (lastEntries entries) := by
  apply (List.perm_ext_iff_of_nodup (nodup_of_keys (ofList entries).keys_nodup)
    (nodup_of_keys (lastEntries_keys_nodup entries))).mpr
  rintro ⟨key, value⟩
  rw [mem_entries_iff, find?_ofList_last, mem_lastEntries]

theorem keys_eq_of_isSome {ω : Type} {left : Table κ υ} {right : Table κ ω}
    (same : ∀ key, (left.find? key).isSome = (right.find? key).isSome) :
    left.keys = right.keys := by
  apply List.Perm.eq_of_pairwise ?_ left.keys_sorted right.keys_sorted
  · apply (List.perm_ext_iff_of_nodup left.keys_nodup right.keys_nodup).mpr
    intro key
    rw [← contains_iff_mem_keys, ← contains_iff_mem_keys, contains, contains, same]
  · intro earlier later _ _ below above
    exact absurd above (Std.OrientedCmp.not_lt_of_lt below)

/-- A table without values is given by its keys. -/
theorem eq_of_mem_keys {left right : Table κ Unit}
    (same : ∀ key, key ∈ left.keys ↔ key ∈ right.keys) : left = right := by
  apply eq_of_find?
  intro key
  have both := same key
  rw [← contains_iff_mem_keys, ← contains_iff_mem_keys, contains, contains] at both
  cases inLeft : left.find? key <;> cases inRight : right.find? key <;> simp_all

/-- Every entry has a property. -/
def All (holds : κ → υ → Prop) (table : Table κ υ) : Prop :=
  ∀ key value, table.find? key = some value → holds key value

variable {holds : κ → υ → Prop} {table : Table κ υ}

omit [Std.LawfulEqOrd κ] [Std.TransOrd κ] in
theorem all_empty : (empty : Table κ υ).All holds :=
  fun _ _ found => by cases found

theorem All.alter (all : table.All holds) {key : κ} {value : Option υ → υ}
    (changed : holds key (value (table.find? key))) : (table.alter key value).All holds := by
  intro other stored found
  by_cases same : other = key
  · subst other
    rw [find?_alter_self] at found
    exact Option.some.inj found ▸ changed
  · rw [find?_alter_of_ne _ same] at found
    exact all other stored found

/-- The sum of a measure over all entries. -/
def total (measure : κ → υ → Nat) (table : Table κ υ) : Nat :=
  table.entries.foldr (fun entry rest => measure entry.1 entry.2 + rest) 0

omit [Std.TransOrd κ] in
theorem total_eq_zero {measure : κ → υ → Nat}
    (none : table.All fun key value => measure key value = 0) : table.total measure = 0 := by
  refine List.foldrRecOn (motive := fun sum => sum = 0) _ _ rfl ?_
  intro sum zero entry present
  rw [zero, none entry.1 entry.2 (find?_of_mem_entries present)]

private theorem sum_alterEntries {entries : List (κ × υ)} {key : κ} {value : Option υ → υ}
    (measure : κ → υ → Nat)
    (sorted : entries.Pairwise fun earlier later => compare earlier.1 later.1 = .lt) :
    let present := (entries.find? fun entry => compare entry.1 key == .eq).map Prod.snd
    let sum := fun entries : List (κ × υ) =>
      entries.foldr (fun entry rest => measure entry.1 entry.2 + rest) 0
    sum (alterEntries key value entries) + present.elim 0 (measure key) =
      sum entries + measure key (value present) := by
  induction entries with
  | nil => simp [alterEntries]
  | cons head rest ih =>
    obtain ⟨headBelow, restSorted⟩ := List.pairwise_cons.mp sorted
    unfold alterEntries
    split
    · rename_i below
      rw [find?_eq_none_of_below]
      · simp only [Option.map_none, Option.elim_none, List.foldr_cons]
        omega
      · intro entry member
        rcases List.mem_cons.mp member with same | later
        · exact same ▸ below
        · exact Std.TransCmp.lt_trans below (headBelow entry later)
    · rename_i same
      have equal := Std.LawfulEqOrd.compare_eq_iff_eq.mp same
      rw [find?_cons, if_pos (by rw [equal]; simp)]
      simp only [Option.map_some, Option.elim_some, List.foldr_cons, equal]
      omega
    · rename_i above
      have different : compare head.1 key ≠ .eq := by
        rw [Std.OrientedCmp.gt_iff_lt.mp above]
        simp
      have rested := ih restSorted
      rw [find?_cons, if_neg different]
      simp only [List.foldr_cons] at rested ⊢
      omega

/-- A change of one entry moves the sum by the difference of its measures. -/
theorem total_alter (table : Table κ υ) (key : κ) (value : Option υ → υ) (measure : κ → υ → Nat) :
    (table.alter key value).total measure + (table.find? key).elim 0 (measure key) =
      table.total measure + measure key (value (table.find? key)) :=
  sum_alterEntries measure table.sorted

theorem size_insert_new {key : κ} (fresh : key ∉ table.keys) (value : υ) :
    (table.insert key value).size = table.size + 1 :=
  (entries_insert_perm fresh value).length_eq

omit [Std.TransOrd κ] in
theorem All.modify (all : table.All holds) {key : κ} {change : υ → υ}
    (changed : ∀ value, table.find? key = some value → holds key (change value)) :
    (table.modify key change).All holds := by
  intro other stored found
  by_cases same : other = key
  · subst other
    rw [find?_modify_self] at found
    obtain ⟨value, present, rfl⟩ := Option.map_eq_some_iff.mp found
    exact changed value present
  · rw [find?_modify_of_ne _ same] at found
    exact all other stored found

/-- Joining a value with what a key holds joins it into the look-up of that key. -/
theorem find?_alter_merge [DecidableEq κ] (table : Table κ υ) (key other : κ) {value : υ}
    {join : υ → υ → υ} {change : Option υ → υ}
    (joins : ∀ present, some (change present) = present.merge join (some value)) :
    (table.alter key change).find? other =
      (table.find? other).merge join (if other = key then some value else none) := by
  split
  · rename_i same
    rw [same, find?_alter_self, joins]
  · rename_i different
    rw [find?_alter_of_ne _ different, Option.merge_none_right]

omit [Std.TransOrd κ] in
private theorem look_foldl_sorted [DecidableEq κ] {σ ω : Type} {look : σ → κ → Option ω}
    {step : σ → κ × υ → σ} {view : υ → ω} {join : ω → ω → ω} {entries : List (κ × υ)}
    (sorted : entries.Pairwise fun earlier later => compare earlier.1 later.1 = .lt)
    (one : ∀ state, ∀ entry ∈ entries, ∀ key, look (step state entry) key =
      (look state key).merge join (if key = entry.1 then some (view entry.2) else none))
    (state : σ) (key : κ) :
    look (entries.foldl step state) key = (look state key).merge join
      (((entries.find? fun entry => compare entry.1 key == .eq).map Prod.snd).map view) := by
  induction entries generalizing state with
  | nil => simp
  | cons head rest ih =>
    obtain ⟨headBelow, restSorted⟩ := List.pairwise_cons.mp sorted
    rw [List.foldl_cons, ih restSorted fun state entry member =>
      one state entry (List.mem_cons_of_mem _ member), one state head (List.mem_cons_self ..),
      find?_cons]
    by_cases same : compare head.1 key = .eq
    · have equal := Std.LawfulEqOrd.compare_eq_iff_eq.mp same
      rw [if_pos equal.symm, if_pos same,
        find?_eq_none_of_below fun entry later => equal ▸ headBelow entry later]
      simp
    · have different : key ≠ head.1 := fun equal => same (by rw [equal]; simp)
      rw [if_neg different, if_neg same, Option.merge_none_right]

omit [Std.TransOrd κ] in
/-- Where a step joins its entry into the look-ups of a state, the steps for all entries of a table
join what the table holds. No key comes twice, so the order of the entries does not matter. -/
theorem look_foldl_entries [DecidableEq κ] {σ ω : Type} (look : σ → κ → Option ω)
    {step : σ → κ × υ → σ} (view : υ → ω) {join : ω → ω → ω} (table : Table κ υ)
    (one : ∀ state, ∀ entry ∈ table.entries, ∀ key, look (step state entry) key =
      (look state key).merge join (if key = entry.1 then some (view entry.2) else none))
    (state : σ) (key : κ) :
    look (table.entries.foldl step state) key =
      (look state key).merge join ((table.find? key).map view) :=
  look_foldl_sorted table.sorted one state key

omit [Std.TransOrd κ] in
theorem look_foldl_values [DecidableEq κ] {σ : Type} (look : σ → κ → Option υ) {step : σ → υ → σ}
    {join : υ → υ → υ} (table : Table κ υ)
    (one : ∀ state stored value, table.find? stored = some value → ∀ key,
      look (step state value) key =
        (look state key).merge join (if key = stored then some value else none))
    (state : σ) (key : κ) :
    look (table.values.foldl step state) key = (look state key).merge join (table.find? key) := by
  have joined := table.look_foldl_entries look id
    (fun state entry member => one state entry.1 entry.2 (find?_of_mem_entries member)) state key
  rwa [Option.map_id, id, ← List.foldl_map] at joined

end Table

instance {α β : Type} [Ord α] [Ord β] [Std.LawfulEqOrd α] [Std.LawfulEqOrd β] :
    Std.LawfulEqOrd (Pair α β) where
  compare_self := by
    intro pair
    simp [compare, compareLex, compareOn, Std.ReflCmp.compare_self]
  eq_of_compare := by
    intro left right same
    obtain ⟨first, second⟩ := Ordering.then_eq_eq.mp same
    have firsts := Std.LawfulEqOrd.compare_eq_iff_eq.mp first
    have seconds := Std.LawfulEqOrd.compare_eq_iff_eq.mp second
    cases left
    cases right
    simp_all

end PlcAudit
