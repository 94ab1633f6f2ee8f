import Mathlib.Data.List.Perm.Basic
import SharedPair.Object.Item
import SharedPair.Proofs.Call.Binding
import SharedPair.Proofs.Object.Books

/-!
# Items that are read and changed

An item that is read from a container stands in one of its positions.  Assigning and
appending exchange references: what a container held in its positions, and the value
it was offered, are afterwards in its positions or left over; nothing is lost on the
way and nothing is held twice.  Only what can change is ever changed.
-/

namespace SharedPair

theorem lt_of_position?
    {size place : Nat} {n : Int}
    (found : position? size n = some place) :
    place < size := by
  unfold position? at found
  generalize (if n < 0 then n + (size : Int) else n) = position at found
  simp only at found
  split at found
  · next inside =>
      cases found
      omega
  · cases found

namespace Key

variable {α : Type}

/-- Filing a value exchanges it for the one that it replaces. -/
theorem file_exchange
    (key : Key) (value : α) (entries : List (Key × α)) :
    (entries.map Prod.snd ++ [value]).Perm
      ((file key value entries).1.map Prod.snd ++ (file key value entries).2.toList) := by
  induction entries with
  | nil => exact List.Perm.refl _
  | cons entry rest ih =>
      rcases entry with ⟨present, old⟩
      rw [file]
      split
      · calc
          (old :: (rest.map Prod.snd ++ [value])).Perm (old :: value :: rest.map Prod.snd) :=
            (List.perm_append_singleton value _).cons old
          _ |>.Perm (value :: old :: rest.map Prod.snd) :=
            .swap _ _ _
          _ |>.Perm (value :: (rest.map Prod.snd ++ [old])) :=
            (List.perm_append_singleton old _).symm.cons value
      · exact ih.cons old

theorem foldl_file_perm
    (entries filed filed' : List (Key × α)) (replaced replaced' : List α)
    (eq : entries.foldl
        (fun (filed, replaced) (key, value) =>
          let (filed, old) := file key value filed
          (filed, replaced ++ old.toList))
        (filed, replaced) = (filed', replaced')) :
    (replaced ++ filed.map Prod.snd ++ entries.map Prod.snd).Perm
      (replaced' ++ filed'.map Prod.snd) := by
  induction entries generalizing filed replaced with
  | nil =>
      cases eq
      rw [List.map_nil, List.append_nil]
  | cons entry rest ih =>
      rcases entry with ⟨key, value⟩
      have later := ih _ _ eq
      have filing := (file_exchange key value filed).trans List.perm_append_comm
      have step := (filing.append_left replaced).append_right (rest.map Prod.snd)
      simp only [List.append_assoc, List.cons_append, List.nil_append] at step later ⊢
      exact step.trans later

/-- Filed values are in the entries, or were replaced. -/
theorem fileAll_perm
    (entries : List (Key × α)) :
    (entries.map Prod.snd).Perm ((fileAll entries).2 ++ (fileAll entries).1.map Prod.snd) :=
  foldl_file_perm entries [] _ [] _ rfl

end Key

namespace Node

theorem lt_of_locate
    {place : Place} {size found : Nat} {n : Int}
    (located : locate place size n = .ok found) :
    found < size := by
  unfold locate at located
  split at located
  · next position =>
      cases located
      exact lt_of_position? position
  · cases located

theorem mem_of_pick
    {α : Type} {place : Place} {items : List α} {index : Index} {read : α → Item} {item : Item}
    (picked : pick place items index read = .ok item) :
    ∃ value ∈ items, item = read value := by
  obtain ⟨n, -, picked⟩ := ok_of_bind picked
  obtain ⟨found, -, picked⟩ := ok_of_bind picked
  split at picked
  · next value at_place =>
      cases picked
      exact ⟨value, List.mem_of_getElem? at_place, rfl⟩
  · cases picked

/-- A reference that is read stands in one of the positions. -/
theorem mem_positions_of_item
    {node : Node} {index : Index} {ref : Ref}
    (read : node.item index = .ok (.ref ref)) :
    ref ∈ node.positions := by
  cases node with
  | tuple items | list items =>
      obtain ⟨value, member, eq⟩ := mem_of_pick read
      cases eq
      exact member
  | buffer bs =>
      obtain ⟨value, member, eq⟩ := mem_of_pick read
      cases eq
  | dict entries =>
      obtain ⟨label, -, read⟩ := ok_of_bind read
      split at read
      · next entry found =>
          cases read
          exact List.mem_map_of_mem (List.mem_of_find?_eq_some found)
      · cases read
  | atom a =>
      cases a with
      | bytes bs =>
          obtain ⟨value, member, eq⟩ := mem_of_pick read
          cases eq
      | text t =>
          obtain ⟨value, member, eq⟩ := mem_of_pick read
          cases eq
      | range start stop step =>
          obtain ⟨n, -, read⟩ := ok_of_bind read
          obtain ⟨found, -, read⟩ := ok_of_bind read
          cases read
      | _ =>
          cases read
  | named _ | set _ =>
      cases read

/-- Setting an item exchanges it for the one that was there. -/
theorem set_exchange
    {items : List Ref} {place : Nat}
    (inside : place < items.length)
    (value : Ref) :
    (items ++ [value]).Perm (items.set place value ++ items[place]?.toList) := by
  rw [List.getElem?_eq_getElem inside]
  calc
    (items ++ [value]).Perm (value :: items) :=
      List.perm_append_singleton value items
    _ |>.Perm (value :: items[place] :: items.eraseIdx place) :=
      (List.getElem_cons_eraseIdx_perm inside).symm.cons value
    _ |>.Perm (items[place] :: value :: items.eraseIdx place) :=
      .swap _ _ _
    _ |>.Perm (items[place] :: items.set place value) :=
      (List.set_perm_cons_eraseIdx inside value).symm.cons _
    _ |>.Perm (items.set place value ++ [items[place]]) :=
      (List.perm_append_singleton _ _).symm

/-- A change that exchanges references, of a container that can change. -/
structure Exchange (node : Node) (value : Ref) (change : Change) : Prop where
  changes : ¬ node.Fixed
  changed : ¬ change.node.Fixed
  balance : (node.positions ++ [value]).Perm (change.node.positions ++ change.leftover)

theorem exchange_assign
    {node content : Node} {index : Index} {value : Ref} {change : Change}
    (assigned : node.assign index value content = .ok change) :
    node.Exchange value change := by
  cases node with
  | list items =>
      obtain ⟨n, -, assigned⟩ := ok_of_bind assigned
      obtain ⟨place, located, assigned⟩ := ok_of_bind assigned
      cases assigned
      exact ⟨id, id, set_exchange (lt_of_locate located) value⟩
  | buffer bs =>
      obtain ⟨n, -, assigned⟩ := ok_of_bind assigned
      obtain ⟨b, -, assigned⟩ := ok_of_bind assigned
      obtain ⟨place, -, assigned⟩ := ok_of_bind assigned
      cases assigned
      exact ⟨id, id, List.Perm.refl _⟩
  | dict entries =>
      obtain ⟨label, -, assigned⟩ := ok_of_bind assigned
      cases assigned
      exact ⟨id, id, Key.file_exchange label.toKey value entries⟩
  | atom _ | named _ | set _ | tuple _ =>
      cases assigned

theorem exchange_append
    {node content : Node} {value : Ref} {change : Change}
    (appended : node.append value content = .ok change) :
    node.Exchange value change := by
  cases node with
  | list items =>
      cases appended
      refine ⟨id, id, ?_⟩
      rw [List.append_nil]
      exact List.Perm.refl _
  | buffer bs =>
      obtain ⟨b, -, appended⟩ := ok_of_bind appended
      cases appended
      exact ⟨id, id, List.Perm.refl _⟩
  | atom _ | named _ | set _ | tuple _ | dict _ =>
      cases appended

end Node

namespace Store

variable {store : Store} {held : List Ref}

/-- What an object holds is there. -/
theorem has_of_contents
    {container ref : Ref}
    (sound : store.Sound held)
    (member : ref ∈ (store.contents container).positions) :
    store.Has ref := by
  cases container with
  | object id =>
      cases found : Heap.value? store.cells id with
      | some node =>
          rw [contents, found] at member
          exact sound.has_of_position found member
      | none =>
          rw [contents, found] at member
          cases member
  | _ =>
      cases member

/-- Only an object that is there can change. -/
theorem object_of_not_fixed
    {target : Ref}
    (changes : ¬ (store.contents target).Fixed) :
    ∃ id cell, target = .object id ∧ store.cells.find? id = some cell ∧
      store.contents target = cell.value := by
  cases target with
  | object id =>
      cases found : store.cells.find? id with
      | some cell =>
          exact ⟨id, cell, rfl, found, by simp [contents, Heap.value?, found]⟩
      | none =>
          rw [contents, Heap.value?, found] at changes
          exact absurd trivial changes
  | _ =>
      exact absurd trivial changes

/-- A change takes a held reference over and leaves what it does not keep. -/
theorem shift_exchange
    {target value : Ref} {change : Node.Change}
    (sound : store.Sound (value :: held))
    (exchange : (store.contents target).Exchange value change) :
    Shift store (value :: held) [] [] (store.write target change.node)
      (change.leftover ++ held) := by
  obtain ⟨id, cell, rfl, found, same⟩ := object_of_not_fixed exchange.changes
  rw [same] at exchange
  refine .write sound found exchange.changes exchange.changed (Ref.handles_perm ?_)
  rw [List.append_cons, ← List.append_assoc]
  exact exchange.balance.append_right held

end Store
end SharedPair
