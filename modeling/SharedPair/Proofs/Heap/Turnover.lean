import SharedPair.Proofs.Heap.Counting

/-!
# What comes and what goes

While a heap changes, cells are made and freed, and tokens are born and end.  A
shift is a change of a heap, together with the leaves held outside it, whose books
balance: the cells before and those made are the cells freed and those after, and
likewise the tokens, wherever they are held.  Counts are exact when it is over.

Shifts compose, and every operation on a heap is one.  That no cell is freed twice
and no token ends twice is read off the balance.
-/

namespace SharedPair

namespace Ending

variable {κ τ : Type}

def freed? : Ending κ τ → Option κ
  | freed key => some key
  | ended _ => none

def ended? : Ending κ τ → Option τ
  | freed _ => none
  | ended it => some it

end Ending

/-- What comes into being and what ends while a heap changes. -/
structure Turnover (κ τ : Type) where
  made : List κ
  freed : List κ
  born : List τ
  ended : List τ

namespace Turnover

variable {κ τ : Type}

/-- Nothing comes and nothing goes. -/
def none : Turnover κ τ := ⟨[], [], [], []⟩

/-- One turnover after another. -/
def append (first second : Turnover κ τ) : Turnover κ τ where
  made := first.made ++ second.made
  freed := first.freed ++ second.freed
  born := first.born ++ second.born
  ended := first.ended ++ second.ended

instance : Append (Turnover κ τ) := ⟨append⟩

/-- What a release reports. -/
def ofEndings (endings : List (Ending κ τ)) : Turnover κ τ where
  made := []
  freed := endings.filterMap Ending.freed?
  born := []
  ended := endings.filterMap Ending.ended?

@[simp] theorem append_made
    (first second : Turnover κ τ) :
    (first ++ second).made = first.made ++ second.made := by
  rfl

@[simp] theorem append_freed
    (first second : Turnover κ τ) :
    (first ++ second).freed = first.freed ++ second.freed := by
  rfl

@[simp] theorem append_born
    (first second : Turnover κ τ) :
    (first ++ second).born = first.born ++ second.born := by
  rfl

@[simp] theorem append_ended
    (first second : Turnover κ τ) :
    (first ++ second).ended = first.ended ++ second.ended := by
  rfl

@[simp] theorem append_none
    (turnover : Turnover κ τ) :
    turnover ++ none = turnover := by
  show append turnover none = turnover
  simp [append, none]

end Turnover

namespace Heap

variable {κ τ ν : Type} [DecidableEq κ] [Holder ν κ τ]

/-! ## The books of a release -/

theorem keys_release_perm
    (heap : Heap κ ν) (waiting : List (Leaf κ τ)) :
    heap.keys.Perm
      ((release heap waiting).2.filterMap Ending.freed? ++ (release heap waiting).1.keys) := by
  fun_induction release heap waiting with
  | case1 heap =>
      exact List.Perm.refl _
  | case2 heap it rest after endings eq ih =>
      rw [eq] at ih
      exact ih
  | case3 heap key rest missing ih =>
      exact ih
  | case4 heap key rest cell found last after endings eq ih =>
      rw [eq] at ih
      exact (Table.keys_perm_erase found).trans (ih.cons key)
  | case5 heap key rest cell found more ih =>
      rwa [Table.keys_insert_of_find? found] at ih

theorem tokens_release_perm
    (heap : Heap κ ν) (waiting : List (Leaf κ τ)) :
    (Leaf.tokens waiting ++ Leaf.tokens heap.leaves).Perm
      ((release heap waiting).2.filterMap Ending.ended? ++
        Leaf.tokens (release heap waiting).1.leaves) := by
  fun_induction release heap waiting with
  | case1 heap =>
      exact List.Perm.refl _
  | case2 heap it rest after endings eq ih =>
      rw [eq] at ih
      exact ih.cons it
  | case3 heap key rest missing ih =>
      exact ih
  | case4 heap key rest cell found last after endings eq ih =>
      rw [eq, Leaf.tokens_append, List.append_assoc] at ih
      have taken := Leaf.tokens_perm (leaves_perm_erase found)
      rw [Leaf.tokens_append] at taken
      calc
        (Leaf.tokens rest ++ Leaf.tokens heap.leaves).Perm
            (Leaf.tokens rest ++ (Leaf.tokens (Holder.leaves cell.value) ++
              Leaf.tokens (leaves (heap.erase key)))) :=
          taken.append_left _
        _ |>.Perm (Leaf.tokens (Holder.leaves cell.value) ++ (Leaf.tokens rest ++
              Leaf.tokens (leaves (heap.erase key)))) :=
          List.perm_append_comm_assoc _ _ _
        _ |>.Perm (endings.filterMap Ending.ended? ++ Leaf.tokens after.leaves) :=
          ih
  | case5 heap key rest cell found more ih =>
      have same := Leaf.tokens_perm (leaves_insert_count_perm found (cell.count - 1))
      exact (same.symm.append_left _).trans ih

/-- What survives a release keeps its value. -/
theorem value?_of_release
    {heap : Heap κ ν} {waiting : List (Leaf κ τ)} {k : κ} {value : ν} :
    value? (release heap waiting).1 k = some value →
      value? heap k = some value := by
  fun_induction release heap waiting with
  | case1 heap =>
      exact id
  | case2 heap it rest after endings eq ih =>
      rw [eq] at ih
      exact ih
  | case3 heap key rest missing ih =>
      exact ih
  | case4 heap key rest cell found last after endings eq ih =>
      rw [eq] at ih
      intro survives
      have before := ih survives
      by_cases h : key = k
      · simp [value?, h] at before
      · simpa [value?, h] using before
  | case5 heap key rest cell found more ih =>
      intro survives
      have before := ih survives
      by_cases h : key = k
      · subst h
        simpa [value?, found] using before
      · simpa [value?, h] using before

/-! ## Shifts -/

variable [DecidableEq τ]

/-- A change of a heap, and of the leaves held outside it, whose books balance. -/
structure Shift (heap : Heap κ ν) (outside : List (Leaf κ τ)) (turnover : Turnover κ τ)
    (heap' : Heap κ ν) (outside' : List (Leaf κ τ)) : Prop where
  /-- Counts are exact when it is over. -/
  counted : Counted heap' outside'
  /-- The cells before and those made are the cells freed and those after. -/
  keys : (heap.keys ++ turnover.made).Perm (turnover.freed ++ heap'.keys)
  /-- The tokens before and those born are the tokens that ended and those after. -/
  tokens : (Leaf.tokens (outside ++ heap.leaves) ++ turnover.born).Perm
    (turnover.ended ++ Leaf.tokens (outside' ++ heap'.leaves))

namespace Shift

variable {heap heap' heap'' : Heap κ ν} {outside outside' outside'' : List (Leaf κ τ)}
  {turnover turnover' : Turnover κ τ}

/-- Nothing changes but the order of what is held outside. -/
theorem still
    (counted : Counted heap outside)
    (same : outside.Perm outside') :
    Shift heap outside .none heap outside' where
  counted := counted.perm same
  keys := by
    simp [Turnover.none]
  tokens := by
    have moved := Leaf.tokens_perm (same.append_right heap.leaves)
    simpa [Turnover.none] using moved

/-- The balances of two changes add up. -/
theorem trans
    (first : Shift heap outside turnover heap' outside')
    (second : Shift heap' outside' turnover' heap'' outside'') :
    Shift heap outside (turnover ++ turnover') heap'' outside'' where
  counted := second.counted
  keys := by
    rw [List.perm_iff_count]
    intro key
    have before := first.keys.count_eq key
    have after := second.keys.count_eq key
    simp only [Turnover.append_made, Turnover.append_freed, List.count_append] at before after ⊢
    omega
  tokens := by
    rw [List.perm_iff_count]
    intro it
    have before := first.tokens.count_eq it
    have after := second.tokens.count_eq it
    simp only [Turnover.append_born, Turnover.append_ended, List.count_append] at before after ⊢
    omega

theorem perm
    (shift : Shift heap outside turnover heap' outside')
    (same : outside'.Perm outside'') :
    Shift heap outside turnover heap' outside'' := by
  have whole := shift.trans (still shift.counted same)
  rwa [Turnover.append_none] at whole

theorem allocate
    {key : κ} {value : ν}
    (counted : Counted heap (Holder.leaves value ++ outside))
    (missing : heap.find? key = none) :
    Shift heap (Holder.leaves value ++ outside) ⟨[key], [], [], []⟩
      (heap.allocate key value) (.handle key :: outside) where
  counted := counted.allocate missing
  keys := by
    have grown := Table.keys_insert_perm heap key ⟨value, 1⟩
    rw [Table.erase_of_find?_eq_none missing] at grown
    exact (List.perm_append_singleton key heap.keys).trans grown.symm
  tokens := by
    have moved := (leaves_allocate_perm missing value).append_left outside
    have order : (Holder.leaves value ++ outside ++ heap.leaves).Perm
        (outside ++ (Holder.leaves value ++ heap.leaves)) := by
      rw [List.append_assoc]
      exact List.perm_append_comm_assoc _ _ _
    simpa using Leaf.tokens_perm (order.trans moved.symm)

theorem acquire
    {key : κ} {cell : Cell ν}
    (counted : Counted heap outside)
    (found : heap.find? key = some cell) :
    Shift heap outside .none (heap.acquire key) (.handle key :: outside) where
  counted := counted.acquire found
  keys := by
    simp [Turnover.none, Heap.acquire]
  tokens := by
    have moved := (leaves_acquire_perm found).append_left outside
    simpa [Turnover.none] using Leaf.tokens_perm moved.symm

theorem write
    {key : κ} {cell : Cell ν} {value : ν}
    (counted : Counted heap outside)
    (found : heap.find? key = some cell)
    (balance : (Holder.leaves cell.value ++ outside).Perm (Holder.leaves value ++ outside')) :
    Shift heap outside .none (heap.write key value) outside' where
  counted := counted.write found balance
  keys := by
    simp [Turnover.none, Heap.write]
  tokens := by
    rw [List.perm_iff_count]
    intro it
    have moved := (Leaf.tokens_perm (leaves_write_perm found value)).count_eq it
    have given := (Leaf.tokens_perm balance).count_eq it
    simp only [Turnover.none, Leaf.tokens_append, List.count_append, List.nil_append,
      List.append_nil] at moved given ⊢
    omega

/-- The last handle to a cell is given for what the cell holds. -/
theorem erase
    {key : κ} {cell : Cell ν}
    (counted : Counted heap (.handle key :: outside))
    (found : heap.find? key = some cell)
    (last : cell.count ≤ 1) :
    Shift heap (.handle key :: outside) ⟨[], [key], [], []⟩
      (heap.erase key) (Holder.leaves cell.value ++ outside) where
  counted := counted.erase found last
  keys := by
    simpa using Table.keys_perm_erase found
  tokens := by
    rw [List.perm_iff_count]
    intro it
    have moved := (Leaf.tokens_perm (leaves_perm_erase found)).count_eq it
    simp only [List.cons_append, Leaf.tokens_cons_handle, Leaf.tokens_append, List.count_append,
      List.nil_append, List.append_nil] at moved ⊢
    omega

/-- A release gives up what was waiting, and what it reports balances. -/
theorem release
    {waiting : List (Leaf κ τ)}
    (counted : Counted heap (waiting ++ outside)) :
    Shift heap (waiting ++ outside) (.ofEndings (Heap.release heap waiting).2)
      (Heap.release heap waiting).1 outside where
  counted := counted.release
  keys := by
    simpa [Turnover.ofEndings] using keys_release_perm heap waiting
  tokens := by
    rw [List.perm_iff_count]
    intro it
    have moved := (tokens_release_perm heap waiting).count_eq it
    simp only [Turnover.ofEndings, Leaf.tokens_append, List.count_append, List.append_nil]
      at moved ⊢
    omega

/-- New tokens are held outside. -/
theorem born
    (counted : Counted heap outside)
    (its : List τ) :
    Shift heap outside ⟨[], [], its, []⟩ heap (its.map .token ++ outside) where
  counted := counted.tokens its
  keys := by
    simp
  tokens := by
    rw [List.append_assoc, Leaf.tokens_append (its.map _), Leaf.tokens_map_token]
    exact List.perm_append_comm

/-- Tokens that are born and end within the change leave no trace. -/
theorem passing
    {born ended : List τ}
    (counted : Counted heap outside)
    (same : born.Perm ended) :
    Shift heap outside ⟨[], [], born, ended⟩ heap outside where
  counted := counted
  keys := by
    simp
  tokens :=
    List.perm_append_comm.trans (same.append_right _)

end Shift

end Heap
end SharedPair
