import SharedPair.Proofs.Object.Items
import SharedPair.Session.State

/-!
# Renaming objects

The number of an object is of no account to what can be done with it.  Under a
renaming of the numbers, reading an item, counting items, assigning and appending
give the renamed results, with the same failures; only a renaming that confuses two
objects could make a difference, where identity is asked for.
-/

namespace SharedPair

theorem map_bind
    {ε α β γ : Type}
    (x : Except ε α) (f : α → Except ε β) (g : β → γ) :
    (x >>= f).map g = x >>= fun a => (f a).map g := by
  cases x <;> rfl

namespace Ref

/-- The reference to the object under its new number. -/
def rename (ρ : Nat → Nat) : Ref → Ref
  | constant a => constant a
  | emptyTuple => emptyTuple
  | object id => object (ρ id)

theorem rename_injective
    {ρ : Nat → Nat}
    (injective : Function.Injective ρ) :
    Function.Injective (rename ρ) := by
  intro x y same
  cases x <;> cases y <;> simp only [rename, constant.injEq, object.injEq, reduceCtorEq] at same ⊢
  · exact same
  · exact injective same

theorem rename_id :
    rename id = id := by
  funext ref
  cases ref <;> rfl

theorem rename_rename
    (ρ ρ' : Nat → Nat) (ref : Ref) :
    (ref.rename ρ).rename ρ' = ref.rename (ρ' ∘ ρ) := by
  cases ref <;> rfl

theorem rename_comp
    (ρ ρ' : Nat → Nat) :
    rename (ρ' ∘ ρ) = rename ρ' ∘ rename ρ :=
  funext fun ref => (rename_rename ρ ρ' ref).symm

theorem map_rename_rename
    (ρ ρ' : Nat → Nat) (refs : List Ref) :
    (refs.map (rename ρ)).map (rename ρ') = refs.map (rename (ρ' ∘ ρ)) := by
  rw [List.map_map, rename_comp]

theorem rename_eq_object
    {ρ : Nat → Nat} {ref : Ref} {id : Nat}
    (same : ref.rename ρ = .object id) :
    ∃ old, ref = .object old ∧ ρ old = id := by
  cases ref with
  | object old =>
      cases same
      exact ⟨old, rfl, rfl⟩
  | _ =>
      cases same

theorem handle_mem_handles_iff
    {id : Nat} {refs : List Ref} :
    .handle id ∈ handles refs ↔ .object id ∈ refs := by
  rw [← List.count_pos_iff, count_handles, List.count_pos_iff]

end Ref

namespace Node

variable {ρ : Nat → Nat}

/-- The node with the new numbers of what it refers to. -/
def rename (ρ : Nat → Nat) : Node → Node
  | atom a => atom a
  | named name => named name
  | buffer bs => buffer bs
  | set members => set members
  | list items => list (items.map (Ref.rename ρ))
  | tuple items => tuple (items.map (Ref.rename ρ))
  | dict entries => dict (entries.map fun (key, value) => (key, value.rename ρ))

@[simp] theorem positions_rename
    (node : Node) :
    (node.rename ρ).positions = node.positions.map (Ref.rename ρ) := by
  cases node with
  | dict entries =>
      simp [rename, positions]
  | _ => rfl

@[simp] theorem kind_rename
    (node : Node) :
    Kind.ofNode (node.rename ρ) = Kind.ofNode node := by
  cases node <;> rfl

@[simp] theorem isGrowable_rename
    (node : Node) :
    (node.rename ρ).isGrowable = node.isGrowable := by
  cases node <;> rfl

@[simp] theorem length_rename
    (node : Node) :
    (node.rename ρ).length = node.length := by
  cases node <;> simp [rename, length]

@[simp] theorem byte_rename
    (node : Node) :
    (node.rename ρ).byte = node.byte := by
  cases node <;> rfl

@[simp] theorem refusal_rename
    (node : Node) (index : Index) :
    (node.rename ρ).refusal index = node.refusal index := by
  simp [refusal]

theorem rename_of_positions
    {node : Node}
    (fixed : ∀ ref ∈ node.positions, ref.rename ρ = ref) :
    node.rename ρ = node := by
  have same : ∀ refs : List Ref, (∀ ref ∈ refs, ref.rename ρ = ref) →
      refs.map (Ref.rename ρ) = refs := fun refs fixed =>
    (List.map_congr_left fixed).trans (List.map_id refs)
  cases node with
  | list items =>
      exact congrArg list (same items fixed)
  | tuple items =>
      exact congrArg tuple (same items fixed)
  | dict entries =>
      refine congrArg dict (Eq.trans ?_ (List.map_id entries))
      exact List.map_congr_left fun entry member =>
        congrArg (Prod.mk entry.1) (fixed entry.2 (List.mem_map_of_mem member))
  | _ => rfl

theorem rename_rename
    (ρ ρ' : Nat → Nat) (node : Node) :
    (node.rename ρ).rename ρ' = node.rename (ρ' ∘ ρ) := by
  cases node with
  | list items =>
      exact congrArg list (Ref.map_rename_rename ρ ρ' items)
  | tuple items =>
      exact congrArg tuple (Ref.map_rename_rename ρ ρ' items)
  | dict entries =>
      refine congrArg dict ((List.map_map ..).trans (List.map_congr_left fun entry _ => ?_))
      exact congrArg (Prod.mk entry.1) (Ref.rename_rename ρ ρ' entry.2)
  | _ => rfl

/-! ## Reading -/

/-- What was read, under the new numbers. -/
def Item.rename (ρ : Nat → Nat) : Item → Item
  | ref r => ref (r.rename ρ)
  | atom a => atom a

theorem pick_map
    {α β : Type} (place : Place) (f : α → β) (items : List α) (index : Index) (read : β → Item) :
    pick place (items.map f) index read = pick place items index (read ∘ f) := by
  unfold pick
  rw [List.length_map]
  congr 1
  funext n
  congr 1
  funext found
  rw [List.getElem?_map]
  cases items[found]? <;> rfl

theorem map_pick
    {α : Type} (place : Place) (items : List α) (index : Index) (read : α → Item)
    (g : Item → Item) :
    (pick place items index read).map g = pick place items index (g ∘ read) := by
  unfold pick
  rw [map_bind]
  congr 1
  funext n
  rw [map_bind]
  congr 1
  funext found
  cases items[found]? <;> rfl

theorem item_rename
    (node : Node) (index : Index) :
    (node.rename ρ).item index = (node.item index).map (Item.rename ρ) := by
  cases node with
  | list items =>
      rw [rename, item, item, pick_map, map_pick]
      rfl
  | tuple items =>
      rw [rename, item, item, pick_map, map_pick]
      rfl
  | buffer bs =>
      rw [rename, item, map_pick]
      rfl
  | dict entries =>
      rw [rename, item, item, map_bind]
      congr 1
      funext label
      rw [List.find?_map]
      simp only [Function.comp_def]
      cases entries.find? fun entry => entry.1.same label.toKey <;> rfl
  | atom a =>
      cases a with
      | bytes bs =>
          rw [rename, item, map_pick]
          rfl
      | text t =>
          rw [rename, item, map_pick]
          rfl
      | range start stop step =>
          rw [rename, item, map_bind]
          congr 1
          funext n
          rw [map_bind]
          rfl
      | _ => rfl
  | named _ | set _ => rfl

/-! ## Changing -/

/-- What a change makes of an object, under the new numbers. -/
def Change.rename (ρ : Nat → Nat) (change : Change) : Change where
  node := change.node.rename ρ
  leftover := change.leftover.map (Ref.rename ρ)

theorem file_map
    {α β : Type} (f : α → β) (key : Key) (value : α) (entries : List (Key × α)) :
    Key.file key (f value) (entries.map fun entry => (entry.1, f entry.2)) =
      ((Key.file key value entries).1.map fun entry => (entry.1, f entry.2),
        (Key.file key value entries).2.map f) := by
  induction entries with
  | nil => rfl
  | cons entry rest ih =>
      rcases entry with ⟨present, old⟩
      rw [List.map_cons, Key.file, Key.file]
      by_cases h : present.same key = true
      · rw [if_pos h, if_pos h]
        rfl
      · rw [if_neg h, if_neg h, ih]
        rfl

theorem assign_rename
    (node content : Node) (index : Index) (value : Ref) :
    (node.rename ρ).assign index (value.rename ρ) (content.rename ρ) =
      (node.assign index value content).map (Change.rename ρ) := by
  cases node with
  | list items =>
      rw [rename, assign, assign, List.length_map, map_bind]
      congr 1
      funext n
      rw [map_bind]
      congr 1
      funext place
      rw [List.getElem?_map, ← List.map_set]
      cases items[place]? <;> rfl
  | buffer bs =>
      rw [rename, assign, assign, byte_rename, map_bind]
      congr 1
      funext n
      rw [map_bind]
      congr 1
      funext b
      rw [map_bind]
      rfl
  | dict entries =>
      rw [rename, assign, assign, map_bind]
      congr 1
      funext label
      rw [file_map]
      rcases Key.file label.toKey value entries with ⟨filed, replaced⟩
      cases replaced <;> rfl
  | atom _ | named _ | set _ =>
      rfl
  | tuple items =>
      exact congrArg Except.error (refusal_rename (.tuple items) index)

theorem append_rename
    (node content : Node) (value : Ref) :
    (node.rename ρ).append (value.rename ρ) (content.rename ρ) =
      (node.append value content).map (Change.rename ρ) := by
  cases node with
  | list items =>
      simp [rename, append, Change.rename, Except.map]
  | buffer bs =>
      rw [rename, append, append, byte_rename, map_bind]
      rfl
  | _ =>
      rfl

theorem fixed_rename
    (node : Node) :
    (node.rename ρ).Fixed ↔ node.Fixed := by
  cases node <;> exact Iff.rfl

theorem Exchange.rename
    {node : Node} {value : Ref} {change : Change}
    (exchange : node.Exchange value change) :
    (node.rename ρ).Exchange (value.rename ρ) (change.rename ρ) where
  changes fixed := exchange.changes ((fixed_rename node).mp fixed)
  changed fixed := exchange.changed ((fixed_rename change.node).mp fixed)
  balance := by
    have moved := exchange.balance.map (Ref.rename ρ)
    simpa [Change.rename] using moved

end Node

namespace Session

/-- The argument with its object under the new number. -/
def Source.rename (ρ : Nat → Nat) : Source → Source
  | literal form => literal form
  | held ref => held (ref.rename ρ)

theorem Source.names_rename
    (ρ : Nat → Nat) (source : Source) :
    (source.rename ρ).names = source.names := by
  cases source <;> rfl

end Session
end SharedPair
