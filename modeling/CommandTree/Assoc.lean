/-!
# Ordered tables

A table is a list of keys with values in the order in which the keys were first written.  Writing a key
that is there already keeps its place.  `List.lookup` reads a table.
-/

namespace CommandTree

/-- Keys with values, in the order in which the keys were first written. -/
abbrev Assoc (κ α : Type) := List (κ × α)

namespace Assoc

variable {κ α : Type} [DecidableEq κ]

/-- The table with `key` written. -/
def insert (key : κ) (value : α) : Assoc κ α → Assoc κ α
  | [] => [(key, value)]
  | (k, v) :: rest => if k = key then (k, value) :: rest else (k, v) :: insert key value rest

/-- The table with every entry of `more` written, one after the other. -/
def insertAll (table more : Assoc κ α) : Assoc κ α :=
  more.foldl (fun table entry => table.insert entry.1 entry.2) table

/-- The table that results from writing some entries into an empty one. -/
def ofPairs (entries : List (κ × α)) : Assoc κ α :=
  insertAll [] entries

/-- The keys, in order. -/
def keys (table : Assoc κ α) : List κ :=
  table.map Prod.fst

/-- Reading the first entry or one that follows. -/
theorem lookup_cons [BEq κ] [LawfulBEq κ] (key k : κ) (value : α) (table : Assoc κ α) :
    List.lookup k ((key, value) :: table) = if k = key then some value else List.lookup k table := by
  by_cases h : k = key
  · simp [h]
  · simp [List.lookup_cons, beq_false_of_ne h, h]

/-- Reading after writing. -/
theorem lookup_insert [BEq κ] [LawfulBEq κ] (key k : κ) (value : α) (table : Assoc κ α) :
    List.lookup k (insert key value table) =
      if k = key then some value else List.lookup k table := by
  induction table with
  | nil => exact lookup_cons key k value []
  | cons entry rest ih =>
    obtain ⟨k', v⟩ := entry
    by_cases h' : k' = key
    · subst h'
      rw [insert, if_pos rfl, lookup_cons, lookup_cons]
      by_cases h : k = k' <;> simp [h]
    · rw [insert, if_neg h', lookup_cons, ih, lookup_cons]
      by_cases h : k = k'
      · subst h
        simp [h']
      · simp [h]

/-- A key that is written again keeps its place, a new one comes last. -/
theorem keys_insert (key : κ) (value : α) (table : Assoc κ α) :
    keys (insert key value table) =
      if key ∈ keys table then keys table else keys table ++ [key] := by
  induction table with
  | nil => simp [insert, keys]
  | cons entry rest ih =>
    obtain ⟨k, v⟩ := entry
    by_cases h : k = key
    · simp [insert, keys, h]
    · have hk : key ≠ k := fun e => h e.symm
      simp only [keys] at ih
      by_cases hm : key ∈ rest.map Prod.fst
      · simp [insert, keys, h, hk, hm] at ih ⊢
        exact ih
      · simp [insert, keys, h, hk, hm] at ih ⊢
        exact ih

theorem mem_insert {key : κ} {value : α} {table : Assoc κ α} {entry : κ × α}
    (h : entry ∈ insert key value table) : entry = (key, value) ∨ entry ∈ table := by
  induction table with
  | nil => exact .inl (List.mem_singleton.mp h)
  | cons first rest ih =>
    rw [insert] at h
    split at h
    · rename_i hkey
      rcases List.mem_cons.mp h with rfl | hrest
      · exact .inl (by rw [hkey])
      · exact .inr (List.mem_cons_of_mem _ hrest)
    · rcases List.mem_cons.mp h with rfl | hrest
      · exact .inr List.mem_cons_self
      · exact (ih hrest).imp_right (List.mem_cons_of_mem _)

theorem nodup_keys_insert {key : κ} {value : α} {table : Assoc κ α} (h : (keys table).Nodup) :
    (keys (insert key value table)).Nodup := by
  rw [keys_insert]
  split
  · exact h
  · rename_i hkey
    have hapart : ∀ k ∈ keys table, ∀ last ∈ [key], k ≠ last := by
      rintro k hk last hlast rfl
      exact hkey (List.mem_singleton.mp hlast ▸ hk)
    exact List.nodup_append.mpr ⟨h, List.pairwise_singleton _ key, hapart⟩

/-- Reading after writing several entries: the last one written under a key counts. -/
theorem lookup_insertAll [BEq κ] [LawfulBEq κ] (k : κ) (table more : Assoc κ α) :
    List.lookup k (insertAll table more) =
      (List.lookup k more.reverse).or (List.lookup k table) := by
  induction more generalizing table with
  | nil => simp [insertAll]
  | cons entry rest ih =>
    obtain ⟨key, value⟩ := entry
    have hstep : insertAll table ((key, value) :: rest) = insertAll (insert key value table) rest :=
      rfl
    rw [hstep, ih, lookup_insert, List.reverse_cons, List.lookup_append, lookup_cons]
    by_cases h : k = key <;> simp [h]

end Assoc

end CommandTree
