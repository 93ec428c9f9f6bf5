import PlcAudit.Data.Schedule
import PlcAudit.Proofs.Data.Table
import PlcAudit.Proofs.Graph.FileOrder

/-!
In whatever order items finish that are worked on side by side, their results are those of working
on them one after another. Where several items fail, another one may be the first.
-/

namespace PlcAudit.Schedule

variable {α ε β : Type} {items : List α} (schedule : Schedule items)

theorem slots_sorted (items : List α) : (items.zipIdx.map Prod.snd).Pairwise (· < ·) := by
  rw [List.zipIdx_map_snd]
  exact List.pairwise_lt_range'

theorem slots_nodup : (schedule.finished.map Prod.snd).Nodup :=
  (schedule.complete.map Prod.snd).nodup_iff.mpr ((slots_sorted items).imp Nat.ne_of_lt)

variable {schedule} in
/-- The slots are filled in another order, but a table has only one. -/
theorem values_of_filled {slots : Table Nat β} (value : α → β)
    (filled : slots.entries.Perm (schedule.finished.map fun entry => (entry.2, value entry.1))) :
    slots.values = items.map value := by
  have sorted : (items.zipIdx.map fun entry => (entry.2, value entry.1)).Pairwise
      fun earlier later => compare earlier.1 later.1 = .lt := by
    refine List.pairwise_map.mpr ((List.pairwise_map.mp (slots_sorted items)).imp fun below => ?_)
    exact Nat.compare_eq_lt.mpr below
  have ordered := Table.entries_eq_of_perm sorted (filled.trans (schedule.complete.map _))
  have firsts := congrArg (List.map value) (List.zipIdx_map_fst 0 items)
  rw [List.map_map] at firsts
  rw [Table.values, ordered, List.map_map]
  exact firsts

/-- A slot that is filled holds what came of its item. -/
theorem filled_of_fill {work : α → Except ε β} {finished : List (α × Nat)} {slots : Table Nat β}
    (distinct : (finished.map Prod.snd).Nodup) (done : fill work finished = .ok slots) :
    (slots.mapValues Except.ok).entries.Perm
      (finished.map fun entry => (entry.2, work entry.1)) := by
  induction finished generalizing slots with
  | nil => cases done; exact .nil
  | cons entry rest ih =>
    obtain ⟨item, slot⟩ := entry
    obtain ⟨fresh, apart⟩ := List.nodup_cons.mp distinct
    rw [fill] at done
    cases worked : work item with
    | error fault => rw [worked] at done; cases done
    | ok value =>
      rw [worked] at done
      obtain ⟨others, filled, rfl⟩ := Graph.exists_ok_of_map done
      have perm := ih apart filled
      have taken : others.keys.Perm (rest.map Prod.snd) := by
        simpa [Table.keys, Table.mapValues, Function.comp_def] using perm.map Prod.fst
      have free : slot ∉ others.keys := fun member => fresh (taken.mem_iff.mp member)
      have grown := (Table.entries_insert_perm free value).map
        fun entry => (entry.1, (Except.ok entry.2 : Except ε β))
      simpa [worked, Table.mapValues] using grown.trans (perm.cons _)

theorem exists_fill {work : α → Except ε β} {finished : List (α × Nat)}
    (sound : ∀ entry ∈ finished, ∃ value, work entry.1 = .ok value) :
    ∃ slots, fill work finished = .ok slots := by
  induction finished with
  | nil => exact ⟨.empty, rfl⟩
  | cons entry rest ih =>
    obtain ⟨item, slot⟩ := entry
    obtain ⟨⟨value, worked⟩, later⟩ := List.forall_mem_cons.mp sound
    obtain ⟨slots, filled⟩ := ih later
    exact ⟨slots.insert slot value, by simp [fill, worked, filled, Except.map]⟩

theorem collect_eq_ok_iff (work : α → Except ε β) (values : List β) :
    schedule.collect work = .ok values ↔ items.mapM work = .ok values := by
  have onward {values : List β} (done : schedule.collect work = .ok values) :
      items.mapM work = .ok values := by
    obtain ⟨slots, filled, rfl⟩ := Graph.exists_ok_of_map done
    have same : items.map work = slots.values.map .ok := by
      rw [← values_of_filled work (filled_of_fill schedule.slots_nodup filled)]
      simp [Table.values, Table.mapValues]
    rw [← List.forall₂_eq_eq_eq, List.forall₂_map_left_iff, List.forall₂_map_right_iff] at same
    exact Graph.mapM_eq_ok_iff.mpr same
  refine ⟨onward, fun inTurn => ?_⟩
  have sound : ∀ entry ∈ schedule.finished, ∃ value, work entry.1 = .ok value := by
    intro entry member
    have listed := List.fst_mem_of_mem_zipIdx (schedule.complete.mem_iff.mp member)
    obtain ⟨value, _, worked⟩ := Graph.exists_result_of_mapM inTurn listed
    exact ⟨value, worked⟩
  obtain ⟨slots, filled⟩ := exists_fill sound
  have done : schedule.collect work = .ok slots.values := by
    rw [collect, filled]
    rfl
  rw [done, ← inTurn, onward done]

end PlcAudit.Schedule
