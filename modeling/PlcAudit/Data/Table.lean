/-!
Finite tables in key order. A table is a list of entries with strictly increasing keys, so equal
tables have equal entry lists and every listing comes in key order.
-/

namespace PlcAudit

/-- Entries with strictly increasing keys. -/
structure Table (κ υ : Type) [Ord κ] where
  entries : List (κ × υ)
  sorted : entries.Pairwise fun earlier later => compare earlier.1 later.1 = .lt

namespace Table

variable {κ υ ω : Type} [Ord κ]

def empty : Table κ υ := ⟨[], .nil⟩

instance : Inhabited (Table κ υ) := ⟨empty⟩

@[ext]
theorem ext {left right : Table κ υ} (same : left.entries = right.entries) : left = right := by
  cases left; cases right; simp_all

def keys (table : Table κ υ) : List κ := table.entries.map Prod.fst

def values (table : Table κ υ) : List υ := table.entries.map Prod.snd

def size (table : Table κ υ) : Nat := table.entries.length

def isEmpty (table : Table κ υ) : Bool := table.entries.isEmpty

/-- The value stored under a key. -/
def find? (table : Table κ υ) (key : κ) : Option υ :=
  (table.entries.find? fun entry => compare entry.1 key == .eq).map Prod.snd

def contains (table : Table κ υ) (key : κ) : Bool :=
  (table.find? key).isSome

/-- Puts the value computed from the present one under a key of an entry list. -/
def alterEntries (key : κ) (value : Option υ → υ) : List (κ × υ) → List (κ × υ)
  | [] => [(key, value none)]
  | entry :: rest =>
    match compare key entry.1 with
    | .lt => (key, value none) :: entry :: rest
    | .eq => (entry.1, value (some entry.2)) :: rest
    | .gt => entry :: alterEntries key value rest

theorem mem_alterEntries {key : κ} {value : Option υ → υ} {entries : List (κ × υ)} {entry : κ × υ}
    (member : entry ∈ alterEntries key value entries) :
    entry.1 = key ∨ ∃ old ∈ entries, old.1 = entry.1 := by
  induction entries with
  | nil => simp [alterEntries] at member; simp [member]
  | cons head rest ih =>
    unfold alterEntries at member
    split at member
    · rcases List.mem_cons.mp member with same | present
      · exact .inl (by rw [same])
      · exact .inr ⟨entry, present, rfl⟩
    · rcases List.mem_cons.mp member with same | present
      · exact .inr ⟨head, List.mem_cons_self .., by rw [same]⟩
      · exact .inr ⟨entry, List.mem_cons_of_mem _ present, rfl⟩
    · rcases List.mem_cons.mp member with same | present
      · exact .inr ⟨head, List.mem_cons_self .., by rw [same]⟩
      · rcases ih present with isKey | ⟨old, found, same⟩
        · exact .inl isKey
        · exact .inr ⟨old, List.mem_cons_of_mem _ found, same⟩

theorem alterEntries_sorted [Std.TransOrd κ] (key : κ) (value : Option υ → υ)
    {entries : List (κ × υ)}
    (sorted : entries.Pairwise fun earlier later => compare earlier.1 later.1 = .lt) :
    (alterEntries key value entries).Pairwise
      fun earlier later => compare earlier.1 later.1 = .lt := by
  induction entries with
  | nil => simp [alterEntries]
  | cons head rest ih =>
    have ⟨headBelow, restSorted⟩ := List.pairwise_cons.mp sorted
    unfold alterEntries
    split
    · rename_i below
      refine List.pairwise_cons.mpr ⟨fun entry member => ?_, sorted⟩
      rcases List.mem_cons.mp member with same | present
      · simpa [same] using below
      · exact Std.TransCmp.lt_trans below (headBelow entry present)
    · exact List.pairwise_cons.mpr ⟨headBelow, restSorted⟩
    · rename_i above
      refine List.pairwise_cons.mpr ⟨fun entry member => ?_, ih restSorted⟩
      rcases mem_alterEntries member with isKey | ⟨old, found, same⟩
      · rw [isKey]
        exact Std.OrientedCmp.gt_iff_lt.mp above
      · rw [← same]
        exact headBelow old found

variable [Std.TransOrd κ]

/-- Stores the value computed from what the key holds so far. -/
def alter (table : Table κ υ) (key : κ) (value : Option υ → υ) : Table κ υ :=
  ⟨alterEntries key value table.entries, alterEntries_sorted key value table.sorted⟩

/-- Stores a value under a key, replacing the one before. -/
def insert (table : Table κ υ) (key : κ) (value : υ) : Table κ υ :=
  table.alter key fun _ => value

/-- Stores a value under a key that is free; a key that is taken keeps its value. -/
def insertNew (table : Table κ υ) (key : κ) (value : υ) : Table κ υ :=
  table.alter key fun present => present.getD value

/-- Changes the value of a key that is there. -/
def modify (table : Table κ υ) (key : κ) (change : υ → υ) : Table κ υ :=
  ⟨table.entries.map fun entry =>
      if compare entry.1 key == .eq then (entry.1, change entry.2) else entry, by
    refine List.pairwise_map.mpr (table.sorted.imp fun {earlier later} below => ?_)
    split <;> split <;> simpa using below⟩

def ofList (entries : List (κ × υ)) : Table κ υ :=
  entries.foldl (fun table entry => table.insert entry.1 entry.2) empty

omit [Std.TransOrd κ] in
/-- Changes every value. -/
def mapValues (table : Table κ υ) (change : υ → ω) : Table κ ω :=
  ⟨table.entries.map fun entry => (entry.1, change entry.2), List.pairwise_map.mpr table.sorted⟩

end Table

end PlcAudit
