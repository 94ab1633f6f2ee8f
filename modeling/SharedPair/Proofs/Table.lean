import SharedPair.Table

/-!
# Entries of tables, up to their order

The equations for `find?` say what a table holds for one key.  Here its entries are
followed as a whole: writing a key puts one entry beside those of the other keys,
and removing a key takes one entry away.  What is summed or counted over the
entries of a table is followed through these permutations.

Changing a value in place moves no key, and a table is determined by its keys, in
their order, and by `find?`.
-/

namespace SharedPair
namespace Table

universe u v

variable {κ : Type u} {α : Type v} [DecidableEq κ]

/-! ## Entry lists -/

/-- An overwritten entry stands beside those of the other keys. -/
theorem overwrite_perm
    (key : κ) (value : α) (entries : List (κ × α)) :
    (overwrite key value entries).Perm ((key, value) :: without key entries) := by
  induction entries with
  | nil => exact List.Perm.refl _
  | cons entry rest ih =>
      rcases entry with ⟨k, a⟩
      by_cases h : k = key
      · rw [overwrite, without, if_pos h, if_pos h]
      · rw [overwrite, without, if_neg h, if_neg h]
        exact (ih.cons (k, a)).trans (List.Perm.swap _ _ _)

/-- The entry of a key stands beside those of the other keys. -/
theorem perm_cons_without
    {key : κ} {value : α} {entries : List (κ × α)}
    (found : lookup key entries = some value) :
    entries.Perm ((key, value) :: without key entries) := by
  induction entries with
  | nil =>
      simp [lookup] at found
  | cons entry rest ih =>
      rcases entry with ⟨k, a⟩
      by_cases h : k = key
      · rw [lookup, if_pos h, Option.some.injEq] at found
        rw [without, if_pos h, h, found]
      · rw [lookup, if_neg h] at found
        rw [without, if_neg h]
        exact ((ih found).cons (k, a)).trans (List.Perm.swap _ _ _)

/-- A key that is not there leaves nothing out. -/
theorem without_of_lookup_eq_none
    {key : κ} {entries : List (κ × α)}
    (missing : lookup key entries = none) :
    without key entries = entries := by
  induction entries with
  | nil => rfl
  | cons entry rest ih =>
      rcases entry with ⟨k, a⟩
      by_cases h : k = key
      · simp [lookup, h] at missing
      · rw [lookup, if_neg h] at missing
        rw [without, if_neg h, ih missing]

/-- Overwriting a key that is there moves no key. -/
theorem keys_overwrite_of_lookup
    {key : κ} {old : α} (value : α) {entries : List (κ × α)}
    (found : lookup key entries = some old) :
    (overwrite key value entries).map Prod.fst = entries.map Prod.fst := by
  induction entries with
  | nil =>
      simp [lookup] at found
  | cons entry rest ih =>
      rcases entry with ⟨k, a⟩
      by_cases h : k = key
      · simp [overwrite, h]
      · rw [lookup, if_neg h] at found
        simp [overwrite, h, ih found]

/-- A new key is written last. -/
theorem keys_overwrite_of_lookup_eq_none
    {key : κ} (value : α) {entries : List (κ × α)}
    (missing : lookup key entries = none) :
    (overwrite key value entries).map Prod.fst = entries.map Prod.fst ++ [key] := by
  induction entries with
  | nil => rfl
  | cons entry rest ih =>
      rcases entry with ⟨k, a⟩
      by_cases h : k = key
      · simp [lookup, h] at missing
      · rw [lookup, if_neg h] at missing
        rw [overwrite, if_neg h, List.map_cons, ih missing]
        rfl

/-- To overwrite a key and to leave it out is to leave it out. -/
theorem without_overwrite
    (key : κ) (value : α) (entries : List (κ × α)) :
    without key (overwrite key value entries) = without key entries := by
  induction entries with
  | nil => simp [overwrite, without]
  | cons entry rest ih =>
      by_cases h : entry.1 = key
      · simp [overwrite, without, h]
      · simp [overwrite, without, h, ih]

/-- An entry list without repeated keys is known by its keys and what they look up. -/
theorem eq_of_keys_of_lookup
    {entries entries' : List (κ × α)}
    (nodup : (entries.map Prod.fst).Nodup)
    (keys : entries.map Prod.fst = entries'.map Prod.fst)
    (same : ∀ key, lookup key entries = lookup key entries') :
    entries = entries' := by
  induction entries generalizing entries' with
  | nil =>
      exact (List.map_eq_nil_iff.mp keys.symm).symm
  | cons entry rest ih =>
      cases entries' with
      | nil =>
          simp at keys
      | cons entry' rest' =>
          rcases entry with ⟨k, a⟩
          rcases entry' with ⟨k', a'⟩
          rw [List.map_cons, List.map_cons, List.cons.injEq] at keys
          rcases keys with ⟨rfl, keys⟩
          rw [List.map_cons, List.nodup_cons] at nodup
          have head : a = a' := by
            simpa [lookup] using same k
          have tail : rest = rest' := by
            refine ih nodup.2 keys fun key => ?_
            by_cases h : k = key
            · have missing : lookup key rest = none :=
                lookup_eq_none_iff.mpr (h ▸ nodup.1)
              have missing' : lookup key rest' = none :=
                lookup_eq_none_iff.mpr (keys ▸ h ▸ nodup.1)
              rw [missing, missing']
            · simpa [lookup, h] using same key
          rw [head, tail]

section Parts

variable {β : Type v} (f : α → β) (visible : κ → Bool)

theorem lookup_map
    (key : κ) (entries : List (κ × α)) :
    lookup key (entries.map fun entry => (entry.1, f entry.2)) = (lookup key entries).map f := by
  induction entries with
  | nil => rfl
  | cons entry rest ih =>
      by_cases h : entry.1 = key
      · simp [lookup, h]
      · simp [lookup, h, ih]

theorem overwrite_map
    (key : κ) (value : α) (entries : List (κ × α)) :
    overwrite key (f value) (entries.map fun entry => (entry.1, f entry.2)) =
      (overwrite key value entries).map fun entry => (entry.1, f entry.2) := by
  induction entries with
  | nil => rfl
  | cons entry rest ih =>
      by_cases h : entry.1 = key
      · simp [overwrite, h]
      · simp [overwrite, h, ih]

theorem without_map
    (key : κ) (entries : List (κ × α)) :
    without key (entries.map fun entry => (entry.1, f entry.2)) =
      (without key entries).map fun entry => (entry.1, f entry.2) := by
  induction entries with
  | nil => rfl
  | cons entry rest ih =>
      by_cases h : entry.1 = key
      · simp [without, h]
      · simp [without, h, ih]

variable {key : κ} (seen : visible key = true)
include seen

theorem lookup_filter
    (entries : List (κ × α)) :
    lookup key (entries.filter fun entry => visible entry.1) = lookup key entries := by
  induction entries with
  | nil => rfl
  | cons entry rest ih =>
      by_cases h : entry.1 = key
      · simp [lookup, h, seen]
      · by_cases shown : visible entry.1 = true
        · simp [lookup, h, shown, ih]
        · simp [lookup, h, shown, ih]

theorem overwrite_filter
    (value : α) (entries : List (κ × α)) :
    (overwrite key value entries).filter (fun entry => visible entry.1) =
      overwrite key value (entries.filter fun entry => visible entry.1) := by
  induction entries with
  | nil => simp [overwrite, seen]
  | cons entry rest ih =>
      by_cases h : entry.1 = key
      · simp [overwrite, h, seen]
      · by_cases shown : visible entry.1 = true
        · simp [overwrite, h, shown, ih]
        · simp [overwrite, h, shown, ih]

theorem without_filter
    (entries : List (κ × α)) :
    (without key entries).filter (fun entry => visible entry.1) =
      without key (entries.filter fun entry => visible entry.1) := by
  induction entries with
  | nil => rfl
  | cons entry rest ih =>
      by_cases h : entry.1 = key
      · simp [without, h, seen]
      · by_cases shown : visible entry.1 = true
        · simp [without, h, shown, ih]
        · simp [without, h, shown, ih]

end Parts

theorem overwrite_filter_of_hidden
    (visible : κ → Bool) {key : κ}
    (unseen : visible key = false)
    (value : α) (entries : List (κ × α)) :
    (overwrite key value entries).filter (fun entry => visible entry.1) =
      entries.filter fun entry => visible entry.1 := by
  induction entries with
  | nil => simp [overwrite, unseen]
  | cons entry rest ih =>
      by_cases h : entry.1 = key
      · simp [overwrite, h, unseen]
      · by_cases shown : visible entry.1 = true
        · simp [overwrite, h, shown, ih]
        · simp [overwrite, h, shown, ih]

/-- Without a key, the entries of all others are left. -/
theorem without_eq_filter
    (key : κ) {entries : List (κ × α)}
    (nodup : (entries.map Prod.fst).Nodup) :
    without key entries = entries.filter fun entry => decide (entry.1 ≠ key) := by
  induction entries with
  | nil => rfl
  | cons entry rest ih =>
      rw [List.map_cons, List.nodup_cons] at nodup
      by_cases h : entry.1 = key
      · rw [without, if_pos h, List.filter_cons_of_neg (by simp [h])]
        refine (List.filter_eq_self.mpr fun other member => ?_).symm
        refine decide_eq_true fun same => nodup.1 ?_
        rw [h, ← same]
        exact List.mem_map_of_mem member
      · rw [without, if_neg h, List.filter_cons_of_pos (by simp [h]), ih nodup.2]

/-! ## Tables -/

theorem ext_of_keys
    {t t' : Table κ α}
    (keys : t.keys = t'.keys)
    (same : ∀ key, t.find? key = t'.find? key) :
    t = t' :=
  Table.ext (eq_of_keys_of_lookup t.nodup keys same)

theorem erase_of_find?_eq_none
    {t : Table κ α} {key : κ}
    (missing : t.find? key = none) :
    t.erase key = t :=
  Table.ext (without_of_lookup_eq_none missing)

theorem keys_insert_of_find?
    {t : Table κ α} {key : κ} {old : α}
    (found : t.find? key = some old)
    (value : α) :
    (t.insert key value).keys = t.keys :=
  keys_overwrite_of_lookup value found

theorem keys_insert_of_find?_eq_none
    {t : Table κ α} {key : κ}
    (missing : t.find? key = none)
    (value : α) :
    (t.insert key value).keys = t.keys ++ [key] :=
  keys_overwrite_of_lookup_eq_none value missing

theorem erase_insert
    (t : Table κ α) (key : κ) (value : α) :
    (t.insert key value).erase key = t.erase key :=
  Table.ext (without_overwrite key value t.entries)

/-- A new key that is erased again leaves no trace. -/
theorem erase_insert_of_find?_eq_none
    {t : Table κ α} {key : κ}
    (missing : t.find? key = none)
    (value : α) :
    (t.insert key value).erase key = t :=
  (erase_insert t key value).trans (erase_of_find?_eq_none missing)

@[simp] theorem keys_modify
    (t : Table κ α) (key : κ) (f : α → α) :
    (t.modify key f).keys = t.keys := by
  unfold modify
  split
  · next value found =>
      exact keys_insert_of_find? found (f value)
  · rfl

theorem keys_insert_perm
    (t : Table κ α) (key : κ) (value : α) :
    (t.insert key value).keys.Perm (key :: (t.erase key).keys) :=
  (overwrite_perm key value t.entries).map Prod.fst

theorem keys_perm_erase
    {t : Table κ α} {key : κ} {value : α}
    (found : t.find? key = some value) :
    t.keys.Perm (key :: (t.erase key).keys) :=
  (perm_cons_without found).map Prod.fst

theorem values_insert_perm
    (t : Table κ α) (key : κ) (value : α) :
    (t.insert key value).values.Perm (value :: (t.erase key).values) :=
  (overwrite_perm key value t.entries).map Prod.snd

theorem values_perm_erase
    {t : Table κ α} {key : κ} {value : α}
    (found : t.find? key = some value) :
    t.values.Perm (value :: (t.erase key).values) :=
  (perm_cons_without found).map Prod.snd

/-- A value that comes to a new key leaves an old one there that it would have taken the place
of. -/
theorem values_insert_elsewhere_perm
    {t : Table κ α} {key key' : κ} {old : α}
    (found : t.find? key = some old) (missing : t.find? key' = none)
    (value : α) :
    (t.insert key' value).values.Perm (old :: (t.insert key value).values) := by
  have added := values_insert_perm t key' value
  rw [erase_of_find?_eq_none missing] at added
  calc
    (t.insert key' value).values.Perm (value :: t.values) :=
      added
    _ |>.Perm (value :: old :: (t.erase key).values) :=
      (values_perm_erase found).cons value
    _ |>.Perm (old :: value :: (t.erase key).values) :=
      .swap _ _ _
    _ |>.Perm (old :: (t.insert key value).values) :=
      (values_insert_perm t key value).symm.cons old

theorem find?_of_mem_keys
    {t : Table κ α} {key : κ}
    (present : key ∈ t.keys) :
    ∃ value, t.find? key = some value := by
  cases found : t.find? key with
  | none =>
      exact absurd present (find?_eq_none_iff.mp found)
  | some value =>
      exact ⟨value, rfl⟩

theorem mem_entries_iff
    {t : Table κ α} {key : κ} {value : α} :
    (key, value) ∈ t.entries ↔ t.find? key = some value := by
  constructor
  · intro entry
    obtain ⟨found, present⟩ := find?_of_mem_keys (List.mem_map.mpr ⟨_, entry, rfl⟩)
    have perm := perm_cons_without present
    rcases List.mem_cons.mp (perm.mem_iff.mp entry) with head | tail
    · rw [present, ← (Prod.mk.inj head).2]
    · have twice := (perm.map Prod.fst).nodup_iff.mp t.nodup
      rw [List.map_cons, List.nodup_cons] at twice
      exact absurd (List.mem_map.mpr ⟨_, tail, rfl⟩) twice.1
  · intro found
    exact (perm_cons_without found).mem_iff.mpr List.mem_cons_self

/-- Every value in a table is the value of some key. -/
theorem mem_values_iff
    {t : Table κ α} {value : α} :
    value ∈ t.values ↔ ∃ key, t.find? key = some value := by
  constructor
  · intro member
    obtain ⟨⟨key, _⟩, entry, rfl⟩ := List.mem_map.mp member
    exact ⟨key, mem_entries_iff.mp entry⟩
  · rintro ⟨key, found⟩
    exact List.mem_map.mpr ⟨_, mem_entries_iff.mpr found, rfl⟩

omit [DecidableEq κ] in
theorem nodup_entries
    (t : Table κ α) :
    t.entries.Nodup :=
  List.Pairwise.of_map Prod.fst (fun _ _ apart same => apart (congrArg Prod.fst same)) t.nodup

/-- Tables that hold the same for every key have the same entries, in some order. -/
theorem entries_perm_of_find?
    {t t' : Table κ α}
    (same : ∀ key, t.find? key = t'.find? key) :
    t.entries.Perm t'.entries := by
  refine (List.perm_ext_iff_of_nodup t.nodup_entries t'.nodup_entries).mpr ?_
  rintro ⟨key, value⟩
  rw [mem_entries_iff, mem_entries_iff, same]

/-- The values under a function, for the same keys in the same order. -/
def map {β : Type v} (f : α → β) (t : Table κ α) : Table κ β where
  entries := t.entries.map fun entry => (entry.1, f entry.2)
  nodup := by
    rw [List.map_map]
    exact t.nodup

@[simp] theorem find?_map
    {β : Type v} (f : α → β) (t : Table κ α) (key : κ) :
    (t.map f).find? key = (t.find? key).map f :=
  lookup_map f key t.entries

omit [DecidableEq κ] in
theorem values_map
    {β : Type v} (f : α → β) (t : Table κ α) :
    (t.map f).values = t.values.map f := by
  rw [values, values, map, List.map_map, List.map_map]
  rfl

theorem values_perm_of_find?
    {β : Type v} {f : α → β} {t : Table κ α} {t' : Table κ β}
    (same : ∀ key, t'.find? key = (t.find? key).map f) :
    t'.values.Perm (t.values.map f) := by
  have entries := entries_perm_of_find? fun key => (same key).trans (find?_map f t key).symm
  exact (entries.map Prod.snd).trans (.of_eq (values_map f t))

/-! ## Tables that follow others -/

/-- Apart from the hidden keys, a table has the entries of another one, in their order, with the
values that a function makes of theirs. -/
def Follows {β : Type v} (hidden : List κ) (f : α → β) (t : Table κ β) (s : Table κ α) : Prop :=
  (t.entries.filter fun entry => decide (entry.1 ∉ hidden)) =
    s.entries.map fun entry => (entry.1, f entry.2)

namespace Follows

variable {β : Type v} {hidden : List κ} {f : α → β} {t : Table κ β} {s : Table κ α} {key : κ}

theorem find?
    (follows : Follows hidden f t s)
    (seen : key ∉ hidden) :
    t.find? key = (s.find? key).map f := by
  have entries := congrArg (lookup key) follows
  rwa [lookup_filter (fun key => decide (key ∉ hidden)) (decide_eq_true seen),
    lookup_map] at entries

theorem insert
    (follows : Follows hidden f t s)
    (seen : key ∉ hidden)
    (value : α) :
    Follows hidden f (t.insert key (f value)) (s.insert key value) := by
  have entries := congrArg (overwrite key (f value)) follows
  rwa [← overwrite_filter (fun key => decide (key ∉ hidden)) (decide_eq_true seen),
    overwrite_map] at entries

theorem erase
    (follows : Follows hidden f t s)
    (seen : key ∉ hidden) :
    Follows hidden f (t.erase key) (s.erase key) := by
  have entries := congrArg (without key) follows
  rwa [← without_filter (fun key => decide (key ∉ hidden)) (decide_eq_true seen),
    without_map] at entries

/-- A key that is erased need not be hidden any more. -/
theorem uncover
    (follows : Follows [key] f t s) :
    Follows [] f (t.erase key) s := by
  have entries : (t.entries.filter fun entry => decide (entry.1 ≠ key)) =
      s.entries.map fun entry => (entry.1, f entry.2) := by
    simpa [Follows] using follows
  rw [← without_eq_filter key t.nodup] at entries
  refine Eq.trans (List.filter_eq_self.mpr fun entry _ => ?_) entries
  exact decide_eq_true List.not_mem_nil

/-- A key that only the first table has may be hidden. -/
theorem hide
    (follows : Follows [] f (t.erase key) s) :
    Follows [key] f t s := by
  have entries : without key t.entries = s.entries.map fun entry => (entry.1, f entry.2) :=
    (List.filter_eq_self.mpr fun _ _ => decide_eq_true List.not_mem_nil).symm.trans follows
  rw [without_eq_filter key t.nodup] at entries
  simpa [Follows] using entries

/-- What is written for a hidden key is of no account. -/
theorem overwrite
    (follows : Follows [key] f t s)
    (value : β) :
    Follows [key] f (t.insert key value) s :=
  (overwrite_filter_of_hidden (fun k => decide (k ∉ [key]))
    (decide_eq_false fun apart => apart List.mem_cons_self) value t.entries).trans follows

/-- A table follows what is followed by one that it follows. -/
theorem trans
    {γ : Type v} {g : β → γ} {u : Table κ γ}
    (first : Follows [] f t s) (second : Follows hidden g u t) :
    Follows hidden (g ∘ f) u s := by
  have entries : t.entries = s.entries.map fun entry => (entry.1, f entry.2) :=
    (List.filter_eq_self.mpr fun _ _ => decide_eq_true List.not_mem_nil).symm.trans first
  refine Eq.trans second ?_
  rw [entries, List.map_map]
  rfl

theorem of_map
    (f : α → β) (s : Table κ α) :
    Follows [] f (s.map f) s :=
  List.filter_eq_self.mpr fun _ _ => decide_eq_true List.not_mem_nil

theorem entries_eq
    (follows : Follows [] f t s) :
    t.entries = s.entries.map fun entry => (entry.1, f entry.2) :=
  (List.filter_eq_self.mpr fun _ _ => decide_eq_true List.not_mem_nil).symm.trans follows

end Follows
end Table
end SharedPair
