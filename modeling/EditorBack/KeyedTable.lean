import Mathlib.Data.Fintype.EquivFin
import Mathlib.Data.List.Nodup

/-!
# Tables with a primary key

A table is a list of rows in which no two rows share a key.  The three
statements a relational client issues against one table are here: a scan
(`select`), an insertion that the primary key may refuse (`insertAll`) and a
guarded in-place rewrite (`update`, SQL's `UPDATE … SET … WHERE …`), together
with the number of rows such a rewrite touches.

What callers use is `lookup`: a rewrite acts on the row behind each key
separately (`lookup_update`), so a statement pinned to one key (`updateAt`)
leaves every other row alone and reports one affected row or none.
-/

/-- Rows of type `ρ`, no two of them with the same `key`. -/
structure KeyedTable (κ ρ : Type) (key : ρ → κ) where
  rows : List ρ
  nodup : (rows.map key).Nodup

namespace KeyedTable

variable {κ ρ : Type} {key : ρ → κ}

/-- The table without rows. -/
def empty : KeyedTable κ ρ key := ⟨[], List.nodup_nil⟩

/-- The rows a scan returns, in table order. -/
def select (t : KeyedTable κ ρ key) (p : ρ → Bool) : List ρ :=
  t.rows.filter p

/-- `UPDATE … SET f WHERE p`, for a rewrite `f` that keeps the key. -/
def update (t : KeyedTable κ ρ key) (p : ρ → Bool) (f : ρ → ρ)
    (hf : ∀ r, key (f r) = key r) : KeyedTable κ ρ key where
  rows := t.rows.map (fun r => if p r then f r else r)
  nodup := by
    have hkeys : (t.rows.map (fun r => if p r then f r else r)).map key = t.rows.map key := by
      rw [List.map_map]
      apply List.map_congr_left
      intro r _
      by_cases hp : p r <;> simp [hp, hf]
    rw [hkeys]
    exact t.nodup

/-- The number of rows a rewrite guarded by `p` touches. -/
def rowsAffected (t : KeyedTable κ ρ key) (p : ρ → Bool) : Nat :=
  (t.select p).length

variable [DecidableEq κ]

/-- The row behind a key. -/
def lookup (t : KeyedTable κ ρ key) (k : κ) : Option ρ :=
  t.rows.find? (fun r => decide (key r = k))

/-- `UPDATE … SET f WHERE key = k AND p`, with the number of affected rows. -/
def updateAt (t : KeyedTable κ ρ key) (k : κ) (p : ρ → Bool) (f : ρ → ρ)
    (hf : ∀ r, key (f r) = key r) : KeyedTable κ ρ key × Nat :=
  let guard := fun r => decide (key r = k) && p r
  (t.update guard f hf, t.rowsAffected guard)

/-- Insert a batch of rows, or nothing at all when the primary key refuses
one of them. -/
def insertAll (t : KeyedTable κ ρ key) (rs : List ρ) : Option (KeyedTable κ ρ key) :=
  if h : ((t.rows ++ rs).map key).Nodup then some ⟨t.rows ++ rs, h⟩ else none

@[simp] theorem lookup_empty (k : κ) : (empty : KeyedTable κ ρ key).lookup k = none := rfl

/-- The row behind a key carries that key. -/
theorem key_of_lookup {t : KeyedTable κ ρ key} {k : κ} {r : ρ}
    (h : t.lookup k = some r) : key r = k := by
  simpa using List.find?_some h

theorem mem_of_lookup {t : KeyedTable κ ρ key} {k : κ} {r : ρ}
    (h : t.lookup k = some r) : r ∈ t.rows :=
  List.mem_of_find?_eq_some h

/-- In a list with distinct keys, searching for a member's key finds it. -/
private theorem find?_key_of_mem {r : ρ} :
    ∀ {rows : List ρ}, (rows.map key).Nodup → r ∈ rows →
      rows.find? (fun x => decide (key x = key r)) = some r := by
  intro rows
  induction rows with
  | nil => intro _ hr; cases hr
  | cons x rest ih =>
      intro hnd hr
      rw [List.map_cons, List.nodup_cons] at hnd
      rcases List.mem_cons.mp hr with rfl | hrest
      · simp
      · have hne : key x ≠ key r := fun heq => hnd.1 (heq ▸ List.mem_map_of_mem hrest)
        simp [hne, ih hnd.2 hrest]

/-- Every stored row is the row behind its own key. -/
theorem lookup_of_mem {t : KeyedTable κ ρ key} {r : ρ} (h : r ∈ t.rows) :
    t.lookup (key r) = some r :=
  find?_key_of_mem t.nodup h

/-- One row is stored under each key. -/
theorem eq_of_key {t : KeyedTable κ ρ key} {r r' : ρ} (hr : r ∈ t.rows) (hr' : r' ∈ t.rows)
    (hkey : key r = key r') : r = r' := by
  have h := lookup_of_mem hr
  rw [hkey, lookup_of_mem hr'] at h
  exact (Option.some_inj.mp h).symm

theorem lookup_eq_some_iff {t : KeyedTable κ ρ key} {k : κ} {r : ρ} :
    t.lookup k = some r ↔ r ∈ t.rows ∧ key r = k := by
  constructor
  · intro h
    exact ⟨mem_of_lookup h, key_of_lookup h⟩
  · intro h
    rw [← h.2]
    exact lookup_of_mem h.1

/-- **Rewrites act row by row.**  The row behind a key after a rewrite is the
rewrite of the row that was behind it. -/
theorem lookup_update (t : KeyedTable κ ρ key) (p : ρ → Bool) (f : ρ → ρ)
    (hf : ∀ r, key (f r) = key r) (k : κ) :
    (t.update p f hf).lookup k = (t.lookup k).map (fun r => if p r then f r else r) := by
  have hkey : ∀ r, key (if p r then f r else r) = key r := by
    intro r
    by_cases hp : p r <;> simp [hp, hf]
  simp only [lookup, update, List.find?_map]
  congr 2
  funext r
  simp [hkey]

/-- The rows after a keyed rewrite are the rewritten rows from before. -/
theorem mem_updateAt (t : KeyedTable κ ρ key) (k : κ) (p : ρ → Bool) (f : ρ → ρ)
    (hf : ∀ r, key (f r) = key r) {r' : ρ} :
    r' ∈ (t.updateAt k p f hf).1.rows ↔
      ∃ r ∈ t.rows, (if decide (key r = k) && p r then f r else r) = r' :=
  List.mem_map

/-- A batch insertion keeps the stored rows and adds exactly the batch. -/
theorem rows_insertAll {t t' : KeyedTable κ ρ key} {rs : List ρ}
    (h : t.insertAll rs = some t') : t'.rows = t.rows ++ rs := by
  unfold insertAll at h
  split at h
  · cases h; rfl
  · cases h

/-- The primary key refuses a key that is already stored. -/
theorem lookup_none_of_insertAll {t t' : KeyedTable κ ρ key} {rs : List ρ} {r : ρ}
    (h : t.insertAll rs = some t') (hr : r ∈ rs) : t.lookup (key r) = none := by
  have hnd := t'.nodup
  rw [rows_insertAll h, List.map_append, List.nodup_append] at hnd
  cases hk : t.lookup (key r) with
  | none => rfl
  | some r' =>
      obtain ⟨hmem, hkey⟩ := lookup_eq_some_iff.mp hk
      exact absurd hkey (hnd.2.2 _ (List.mem_map_of_mem hmem) _ (List.mem_map_of_mem hr))

/-- After a one-row insertion the new row is behind its key and every other
key is as before. -/
theorem lookup_insertAll_singleton {t t' : KeyedTable κ ρ key} {r : ρ}
    (h : t.insertAll [r] = some t') (k : κ) :
    t'.lookup k = if key r = k then some r else t.lookup k := by
  have hnone := lookup_none_of_insertAll h (List.mem_singleton_self r)
  unfold lookup at hnone ⊢
  rw [rows_insertAll h, List.find?_append]
  by_cases hk : key r = k
  · subst hk
    simp [hnone]
  · simp [hk]

/-- Two distinct keys cannot both pass a guard that pins the key. -/
private theorem length_filter_key {k : κ} {p : ρ → Bool}
    (hp : ∀ r, p r = true → key r = k) :
    ∀ {rows : List ρ}, (rows.map key).Nodup →
      (rows.filter p).length =
        if (rows.find? (fun r => decide (key r = k))).any p then 1 else 0 := by
  intro rows
  induction rows with
  | nil => intro _; rfl
  | cons x rest ih =>
      intro hnd
      rw [List.map_cons, List.nodup_cons] at hnd
      by_cases hx : key x = k
      · -- the head is the row behind `k`, so no later row passes the guard
        have hrest : rest.filter p = [] := by
          rw [List.filter_eq_nil_iff]
          intro r hr hpr
          exact hnd.1 (by rw [hx, ← hp r hpr]; exact List.mem_map_of_mem hr)
        cases hpx : p x <;> simp [hpx, hx, hrest]
      · have hpx : p x = false := by
          cases h : p x with
          | false => rfl
          | true => exact absurd (hp x h) hx
        simp [hpx, hx, ih hnd.2]

/-- **A keyed rewrite acts on one row.**  The row behind its key is rewritten
if it passes the guard; every other row is as before. -/
theorem lookup_updateAt (t : KeyedTable κ ρ key) (k : κ) (p : ρ → Bool) (f : ρ → ρ)
    (hf : ∀ r, key (f r) = key r) (k' : κ) :
    (t.updateAt k p f hf).1.lookup k' =
      if k' = k then (t.lookup k').map (fun r => if p r then f r else r) else t.lookup k' := by
  simp only [updateAt, lookup_update]
  cases hk : t.lookup k' with
  | none => simp
  | some r =>
      have hr := key_of_lookup hk
      by_cases heq : k' = k <;> simp [hr, heq]

/-- **A keyed rewrite reports one row or none**, according to whether the row
behind its key passes the guard. -/
theorem rowsAffected_updateAt (t : KeyedTable κ ρ key) (k : κ) (p : ρ → Bool) (f : ρ → ρ)
    (hf : ∀ r, key (f r) = key r) :
    (t.updateAt k p f hf).2 = if (t.lookup k).any p then 1 else 0 := by
  have hpin : ∀ r, (decide (key r = k) && p r) = true → key r = k := by
    intro r hr
    simpa using (Bool.and_eq_true_iff.mp hr).1
  simp only [updateAt, rowsAffected, select, length_filter_key hpin t.nodup]
  change (if (t.lookup k).any _ then 1 else 0) = _
  cases hk : t.lookup k with
  | none => rfl
  | some r => simp [key_of_lookup hk]

/-- After a keyed rewrite that no row passes the guard of again, a scan with that
guard finds the other rows it has found before. -/
theorem select_updateAt (t : KeyedTable κ ρ key) (k : κ) {p : ρ → Bool} {f : ρ → ρ}
    (hf : ∀ r, key (f r) = key r) (hp : ∀ r, p (f r) = false) :
    (t.updateAt k p f hf).1.select p = (t.select p).filter (fun r => !decide (key r = k)) := by
  simp only [updateAt, update, select]
  induction t.rows with
  | nil => rfl
  | cons r rest ih =>
      by_cases hk : key r = k <;> cases hr : p r <;> simpa [hk, hr, hp] using ih

/-! ## Fresh keys -/

omit [DecidableEq κ] in
/-- There are always as many keys as wanted that are not in use. -/
theorem exists_fresh [Infinite κ] (used : List κ) (n : Nat) :
    ∃ ks : List κ, ks.length = n ∧ ks.Nodup ∧ ∀ k ∈ ks, k ∉ used := by
  classical
  induction n with
  | zero => exact ⟨[], rfl, List.nodup_nil, by simp⟩
  | succ n ih =>
      obtain ⟨ks, hlen, hnodup, hfresh⟩ := ih
      obtain ⟨k, hk⟩ := Infinite.exists_notMem_finset (used ++ ks).toFinset
      have hnew : k ∉ used ∧ k ∉ ks := by simpa using hk
      refine ⟨k :: ks, by simp [hlen], List.nodup_cons.mpr ⟨hnew.2, hnodup⟩, ?_⟩
      exact List.forall_mem_cons.mpr ⟨hnew.1, hfresh⟩

/-- The primary key takes rows with fresh keys. -/
theorem isSome_insertAll {t : KeyedTable κ ρ key} {rs : List ρ} (hnodup : (rs.map key).Nodup)
    (hfresh : ∀ r ∈ rs, key r ∉ t.rows.map key) : (t.insertAll rs).isSome = true := by
  have h : ((t.rows ++ rs).map key).Nodup := by
    rw [List.map_append]
    refine t.nodup.append hnodup ?_
    intro k hold hnew
    obtain ⟨r, hr, rfl⟩ := List.mem_map.mp hnew
    exact hfresh r hr hold
  rw [insertAll, dif_pos h]
  rfl

/-! ## Tables row by row in another form -/

section Map

variable {σ : Type} {key' : σ → κ}

/-- Every row in another form, under the same key. -/
def map (t : KeyedTable κ ρ key) (f : ρ → σ) (hf : ∀ r, key' (f r) = key r) :
    KeyedTable κ σ key' where
  rows := t.rows.map f
  nodup := by
    have hkey : key' ∘ f = key := funext hf
    rw [List.map_map, hkey]
    exact t.nodup

variable {t : KeyedTable κ ρ key} {f : ρ → σ} {hf : ∀ r, key' (f r) = key r}

omit [DecidableEq κ] in
theorem eq_of_rows {t t' : KeyedTable κ ρ key} (h : t.rows = t'.rows) : t = t' := by
  cases t
  cases t'
  cases h
  rfl

theorem lookup_map (k : κ) : (t.map f hf).lookup k = (t.lookup k).map f := by
  simp only [lookup, map, List.find?_map]
  congr 2
  funext r
  simp [hf]

omit [DecidableEq κ] in
/-- A scan with the same guard finds the same rows. -/
theorem select_map {p : ρ → Bool} {p' : σ → Bool} (hp : ∀ r, p' (f r) = p r) :
    (t.map f hf).select p' = (t.select p).map f := by
  have hguard : p' ∘ f = p := funext hp
  rw [select, map, List.filter_map, hguard]
  rfl

omit [DecidableEq κ] in
/-- A rewrite of the rows in one form is a rewrite in the other. -/
theorem update_map {p : ρ → Bool} {p' : σ → Bool} {g : ρ → ρ} {g' : σ → σ}
    (hg : ∀ r, key (g r) = key r) (hg' : ∀ r, key' (g' r) = key' r)
    (hp : ∀ r, p' (f r) = p r) (hcomm : ∀ r, g' (f r) = f (g r)) :
    (t.map f hf).update p' g' hg' = (t.update p g hg).map f hf := by
  apply eq_of_rows
  simp only [update, map, List.map_map]
  apply List.map_congr_left
  intro r _
  by_cases hr : p r <;> simp [hp, hcomm, hr]

theorem updateAt_map {k : κ} {p : ρ → Bool} {p' : σ → Bool} {g : ρ → ρ} {g' : σ → σ}
    (hg : ∀ r, key (g r) = key r) (hg' : ∀ r, key' (g' r) = key' r)
    (hp : ∀ r, p' (f r) = p r) (hcomm : ∀ r, g' (f r) = f (g r)) :
    ((t.map f hf).updateAt k p' g' hg').1 = (t.updateAt k p g hg).1.map f hf :=
  update_map hg hg' (fun r => by rw [hf, hp]) hcomm

/-- The primary key refuses the same rows in either form. -/
theorem insertAll_map (rs : List ρ) :
    (t.map f hf).insertAll (rs.map f) = (t.insertAll rs).map (·.map f hf) := by
  have hkeys : (((t.map f hf).rows ++ rs.map f).map key') = (t.rows ++ rs).map key := by
    have hkey : key' ∘ f = key := funext hf
    rw [map, ← List.map_append, List.map_map, hkey]
  unfold insertAll
  by_cases h : ((t.rows ++ rs).map key).Nodup
  · have h' : (((t.map f hf).rows ++ rs.map f).map key').Nodup := by rwa [hkeys]
    rw [dif_pos h, dif_pos h', Option.map_some]
    exact congrArg some (eq_of_rows (List.map_append ..).symm)
  · have h' : ¬ (((t.map f hf).rows ++ rs.map f).map key').Nodup := by rwa [hkeys]
    rw [dif_neg h, dif_neg h', Option.map_none]

end Map

end KeyedTable
