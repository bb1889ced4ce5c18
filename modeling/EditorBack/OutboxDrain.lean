import EditorBack.OutboxPublisher

/-!
# Emptying the outbox

What `get_unpublished_outbox` takes from the outbox and what
`mark_outbox_published` leaves of it, as far as it is unpublished.
-/

namespace EditorBack

namespace JobStore

/-- The rows `WHERE published_at IS NULL`. -/
def unpublished (db : Db) : List JobOutbox :=
  db.outbox.select (·.publishedAt.isNone)

section Unpublished

variable {db : Db} {e : JobOutbox} {limit : Nat}

theorem mem_unpublished : e ∈ unpublished db ↔ e ∈ db.outbox.rows ∧ e.publishedAt = none := by
  simp [unpublished, KeyedTable.select]

theorem nodup_unpublished : ((unpublished db).map JobOutbox.id).Nodup :=
  db.outbox.nodup.sublist (List.filter_sublist.map _)

/-- Marking an event takes its row out, and no other. -/
theorem unpublished_mark (id : Uuid) :
    unpublished (markOutboxPublished id db) =
      (unpublished db).filter (fun e => !decide (e.id = id)) :=
  KeyedTable.select_updateAt _ _ (JobOutbox.id_publish db.now) (fun _ => rfl)

theorem unpublished_of_mem_batch (h : e ∈ getUnpublishedOutbox limit db) :
    e ∈ unpublished db :=
  (List.mem_insertionSort _).mp (List.mem_of_mem_take h)

theorem nodup_batch : ((getUnpublishedOutbox limit db).map JobOutbox.id).Nodup := by
  have hsorted : ((unpublished db).insertionSort
      (fun a b => a.createdAt ≤ b.createdAt)).map JobOutbox.id |>.Nodup :=
    ((List.perm_insertionSort _ _).map _).nodup_iff.mpr nodup_unpublished
  exact hsorted.sublist ((List.take_sublist _ _).map _)

theorem length_batch :
    (getUnpublishedOutbox limit db).length = min limit (unpublished db).length := by
  rw [getUnpublishedOutbox, List.length_take, List.length_insertionSort]
  rfl

/-- Marking an event that is not published leaves one unpublished row less. -/
theorem length_unpublished_mark (he : e ∈ unpublished db) :
    (unpublished (markOutboxPublished e.id db)).length < (unpublished db).length := by
  rw [unpublished_mark]
  exact List.length_filter_lt_length_iff_exists.mpr ⟨e, he, by simp⟩

end Unpublished

end JobStore

end EditorBack
