/-!
# Tables

A finite table from keys to values that remembers the order in which its keys
were first written.  Every key occurs once; the type carries that fact, so a
table is determined by its list of entries.

Each operation has one equation for `find?`, which is the view that the rest of
the library reads tables through.
-/

namespace SharedPair

universe u v

/-- A finite table whose keys are pairwise different. -/
@[ext]
structure Table (κ : Type u) (α : Type v) where
  /-- The entries, oldest key first. -/
  entries : List (κ × α)
  nodup : (entries.map Prod.fst).Nodup

namespace Table

variable {κ : Type u} {α : Type v}

instance [DecidableEq κ] [DecidableEq α] : DecidableEq (Table κ α) :=
  fun s t => decidable_of_iff (s.entries = t.entries) Table.ext_iff.symm

/-- The table without entries. -/
def empty : Table κ α := ⟨[], List.nodup_nil⟩

instance : EmptyCollection (Table κ α) := ⟨empty⟩

instance : Inhabited (Table κ α) := ⟨empty⟩

/-- The keys, oldest first. -/
def keys (t : Table κ α) : List κ := t.entries.map Prod.fst

/-- The values, in the order of their keys. -/
def values (t : Table κ α) : List α := t.entries.map Prod.snd

theorem keys_nodup (t : Table κ α) : t.keys.Nodup := t.nodup

variable [DecidableEq κ]

/-! ## Reading an entry list -/

/-- The value written for a key in a list of entries. -/
def lookup (key : κ) : List (κ × α) → Option α
  | [] => none
  | (k, a) :: rest => if k = key then some a else lookup key rest

/-- Replaces the value of a key where it stands, or adds the key at the end. -/
def overwrite (key : κ) (value : α) : List (κ × α) → List (κ × α)
  | [] => [(key, value)]
  | (k, a) :: rest => if k = key then (key, value) :: rest else (k, a) :: overwrite key value rest

/-- Leaves a key out. -/
def without (key : κ) : List (κ × α) → List (κ × α)
  | [] => []
  | (k, a) :: rest => if k = key then rest else (k, a) :: without key rest

theorem mem_keys_overwrite {key k : κ} {value : α} {entries : List (κ × α)} :
    k ∈ (overwrite key value entries).map Prod.fst ↔ k = key ∨ k ∈ entries.map Prod.fst := by
  induction entries with
  | nil => simp [overwrite]
  | cons entry rest ih =>
    obtain ⟨k', a⟩ := entry
    by_cases h : k' = key
    · simp [overwrite, h]
    · simp only [overwrite, h, if_false, List.map_cons, List.mem_cons, ih]
      grind

theorem mem_keys_of_mem_without {key k : κ} {entries : List (κ × α)}
    (h : k ∈ (without key entries).map Prod.fst) : k ∈ entries.map Prod.fst := by
  induction entries with
  | nil => simp [without] at h
  | cons entry rest ih =>
    obtain ⟨k', a⟩ := entry
    by_cases hk : k' = key
    · rw [without, if_pos hk] at h
      exact List.mem_cons_of_mem _ h
    · rw [without, if_neg hk, List.map_cons, List.mem_cons] at h
      rcases h with h | h
      · exact h ▸ List.mem_cons_self
      · exact List.mem_cons_of_mem _ (ih h)

theorem nodup_overwrite (key : κ) (value : α) {entries : List (κ × α)}
    (nodup : (entries.map Prod.fst).Nodup) :
    ((overwrite key value entries).map Prod.fst).Nodup := by
  induction entries with
  | nil => simp [overwrite]
  | cons entry rest ih =>
    obtain ⟨k, a⟩ := entry
    rw [List.map_cons, List.nodup_cons] at nodup
    by_cases h : k = key
    · subst h
      simpa [overwrite] using nodup
    · rw [overwrite, if_neg h, List.map_cons, List.nodup_cons, mem_keys_overwrite]
      exact ⟨fun hk => hk.elim h nodup.1, ih nodup.2⟩

theorem nodup_without (key : κ) {entries : List (κ × α)}
    (nodup : (entries.map Prod.fst).Nodup) :
    ((without key entries).map Prod.fst).Nodup := by
  induction entries with
  | nil => simp [without]
  | cons entry rest ih =>
    obtain ⟨k, a⟩ := entry
    rw [List.map_cons, List.nodup_cons] at nodup
    by_cases h : k = key
    · rw [without, if_pos h]
      exact nodup.2
    · rw [without, if_neg h, List.map_cons, List.nodup_cons]
      exact ⟨fun hk => nodup.1 (mem_keys_of_mem_without hk), ih nodup.2⟩

theorem lookup_eq_none_iff {key : κ} {entries : List (κ × α)} :
    lookup key entries = none ↔ key ∉ entries.map Prod.fst := by
  induction entries with
  | nil => simp [lookup]
  | cons entry rest ih =>
    obtain ⟨k, a⟩ := entry
    by_cases h : k = key
    · simp [lookup, h]
    · simp only [lookup, h, if_false, ih, List.map_cons, List.mem_cons]
      grind

theorem lookup_overwrite (key k : κ) (value : α) (entries : List (κ × α)) :
    lookup k (overwrite key value entries) = if key = k then some value else lookup k entries := by
  induction entries with
  | nil => simp [overwrite, lookup]
  | cons entry rest ih =>
    obtain ⟨k', a⟩ := entry
    by_cases h : k' = key
    · subst h
      by_cases hk : k' = k <;> simp [overwrite, lookup, hk]
    · by_cases hk : k' = k
      · subst hk
        simp [overwrite, lookup, h, Ne.symm h]
      · simp [overwrite, lookup, h, hk, ih]

theorem lookup_without (key k : κ) {entries : List (κ × α)}
    (nodup : (entries.map Prod.fst).Nodup) :
    lookup k (without key entries) = if key = k then none else lookup k entries := by
  induction entries with
  | nil => simp [without, lookup]
  | cons entry rest ih =>
    obtain ⟨k', a⟩ := entry
    rw [List.map_cons, List.nodup_cons] at nodup
    by_cases h : k' = key
    · subst h
      by_cases hk : k' = k
      · subst hk
        simpa [without, lookup] using lookup_eq_none_iff.mpr nodup.1
      · simp [without, lookup, hk]
    · by_cases hk : k' = k
      · subst hk
        simp [without, lookup, h, Ne.symm h]
      · simp [without, lookup, h, hk, ih nodup.2]

/-! ## The operations -/

/-- The value written for a key, if the key is there. -/
def find? (t : Table κ α) (key : κ) : Option α := lookup key t.entries

/-- Writes a value for a key, in place of the one that was there. -/
def insert (t : Table κ α) (key : κ) (value : α) : Table κ α :=
  ⟨overwrite key value t.entries, nodup_overwrite key value t.nodup⟩

/-- Removes a key. -/
def erase (t : Table κ α) (key : κ) : Table κ α :=
  ⟨without key t.entries, nodup_without key t.nodup⟩

/-- Changes the value of a key; a table without the key stays as it is. -/
def modify (t : Table κ α) (key : κ) (f : α → α) : Table κ α :=
  match t.find? key with
  | some value => t.insert key (f value)
  | none => t

@[simp] theorem find?_empty (key : κ) : (∅ : Table κ α).find? key = none := rfl

@[simp] theorem find?_insert (t : Table κ α) (key k : κ) (value : α) :
    (t.insert key value).find? k = if key = k then some value else t.find? k :=
  lookup_overwrite key k value t.entries

@[simp] theorem find?_erase (t : Table κ α) (key k : κ) :
    (t.erase key).find? k = if key = k then none else t.find? k :=
  lookup_without key k t.nodup

@[simp] theorem find?_modify (t : Table κ α) (key k : κ) (f : α → α) :
    (t.modify key f).find? k = if key = k then (t.find? k).map f else t.find? k := by
  unfold modify
  split
  · next value found =>
    rw [find?_insert]
    by_cases h : key = k
    · subst h
      simp [found]
    · simp [h]
  · next missing =>
    by_cases h : key = k
    · subst h
      simp [missing]
    · simp [h]

theorem find?_eq_none_iff {t : Table κ α} {key : κ} : t.find? key = none ↔ key ∉ t.keys :=
  lookup_eq_none_iff

theorem mem_keys_of_find? {t : Table κ α} {key : κ} {value : α} (found : t.find? key = some value) :
    key ∈ t.keys := by
  by_cases h : key ∈ t.keys
  · exact h
  · rw [find?_eq_none_iff.mpr h] at found
    cases found

end Table

end SharedPair
