import Mathlib.Logic.Function.Basic
import SharedPair.Proofs.Heap.Images
import SharedPair.Proofs.Script.Ownership
import SharedPair.Proofs.Session.Calls
import SharedPair.Proofs.Translation.Scheme

/-!
# What single steps leave

For the steps that a session and the script that tells it are made of: which slots they
leave, and what the cells hold after them, if they are alive.  What a step gives up on the
way may free cells, and changes nothing that is told here.
-/

namespace SharedPair

namespace Session

/-- What a step that succeeds leaves. -/
structure Leaves (slots : Table String Ref) (content : Nat → Option Node) (next : Nat)
    (after : State × Effect) : Prop where
  reply : after.2.reply = .done
  slots : after.1.slots = slots
  within : Heap.Within content after.1.store.cells
  next : after.1.store.next = next

namespace State

variable {s : State} {content : Nat → Option Node}

theorem next_hold
    (s : State) (name : String) (ref : Ref) :
    (s.hold name ref).1.store.next = s.store.next := by
  unfold hold
  split <;> rfl

theorem within_hold
    (within : Heap.Within content s.store.cells)
    (name : String) (ref : Ref) :
    Heap.Within content (s.hold name ref).1.store.cells := by
  unfold hold
  split
  · exact within.release _
  · exact within

theorem within_acquire
    {store : Store}
    (within : Heap.Within content store.cells)
    (ref : Ref) :
    Heap.Within content (store.acquire ref).cells := by
  cases ref with
  | object id => exact within.acquire id
  | _ => exact within

theorem leaves_new
    (within : Heap.Within content s.store.cells)
    (name x : String) :
    Leaves (s.slots.insert name (.object s.store.next))
      (Function.update content s.store.next (some (.named x))) (s.store.next + 1)
      (s.step (.new name (.named x))) where
  reply := rfl
  slots := slots_hold _ name _
  within := within_hold (s := { s with store := _ }) (within.allocate _ _) name _
  next := next_hold _ name _

theorem leaves_acquire
    (within : Heap.Within content s.store.cells)
    (name : String) (ref : Ref) :
    Leaves (s.slots.insert name ref) content s.store.next
      (done ({ s with store := s.store.acquire ref }.hold name ref)) where
  reply := rfl
  slots := slots_hold _ name ref
  within := within_hold (s := { s with store := _ }) (within_acquire within ref) name ref
  next := (next_hold _ name ref).trans (Store.next_acquire _ _)

theorem leaves_alias
    {source : String} {ref : Ref}
    (within : Heap.Within content s.store.cells)
    (found : s.slots.find? source = some ref)
    (name : String) :
    Leaves (s.slots.insert name ref) content s.store.next (s.step (.alias source name)) := by
  rw [State.step, slot_of_find? found]
  exact leaves_acquire within name ref

theorem leaves_get
    {source : String} {id : Nat} {x y ref : Ref} {i : Int}
    (within : Heap.Within content s.store.cells)
    (found : s.slots.find? source = some (.object id))
    (pair : s.IsPair id x y)
    (place : (i, ref) ∈ [(0, x), (-2, x), (1, y), (-1, y)])
    (name : String) :
    Leaves (s.slots.insert name ref) content s.store.next
      (s.step (.get source (.label (.int i)) name)) := by
  rw [State.step, State.get, slot_of_find? found]
  simp only [pair.item place]
  exact leaves_acquire within name ref

theorem leaves_call
    {arguments : Arguments Argument} {first second : String} {x y : Ref}
    (within : Heap.Within content s.store.cells)
    (bind : arguments.bind = .ok (.slot first, .slot second))
    (found : s.slots.find? first = some x) (found' : s.slots.find? second = some y)
    (name : String) :
    Leaves (s.slots.insert name (.object s.store.next))
      (Function.update content s.store.next (some (.tuple [x, y]))) (s.store.next + 1)
      (s.step (.call arguments name)) := by
  have read : ∀ {slot ref}, s.slots.find? slot = some ref →
      (s.source (.slot slot)).result = .ok (.held ref) := by
    intro slot ref found
    rw [State.source, slot_of_find? found]
    rfl
  obtain ⟨sources, ended, evaluated, bound, -⟩ := sources_of_bind bind (read found) (read found')
  obtain ⟨_, _, taken, order⟩ := Store.bind_takeArguments s.store bound
  -- the objects are there already, so in either order no other is made
  have given : (s.store.takeArguments sources).1.bind = .ok (x, y) ∧
      Heap.Within content (s.store.takeArguments sources).2.cells ∧
      (s.store.takeArguments sources).2.next = s.store.next := by
    rcases order with ⟨-, objects⟩ | ⟨-, objects⟩
    · obtain ⟨same, after⟩ := Prod.mk.inj objects
      cases same
      rw [← after]
      exact ⟨taken, within_acquire (within_acquire within x) y,
        (Store.next_acquire _ y).trans (Store.next_acquire _ x)⟩
    · obtain ⟨same, after⟩ := Prod.mk.inj objects
      cases same
      rw [← after]
      exact ⟨taken, within_acquire (within_acquire within y) x,
        (Store.next_acquire _ x).trans (Store.next_acquire _ y)⟩
  obtain ⟨taken, held, next⟩ := given
  have called := call_of_bound (by rw [evaluated]) taken name
  obtain ⟨pair, used, -⟩ := (s.store.takeArguments sources).2.pack_object s.filter x y
  rw [next] at pair used
  have packed : Heap.Within (Function.update content s.store.next (some (.tuple [x, y])))
      ((s.store.takeArguments sources).2.pack s.filter x y).1.2.cells := by
    have added :
        ((s.store.takeArguments sources).2.acquire x |>.acquire y).next = s.store.next := by
      simp only [Store.next_acquire, next]
    rw [Store.pack_eq, ← added]
    exact (within_acquire (within_acquire held x) y).allocate _ _
  rw [packInto_fst] at called
  refine ⟨called.2, ?_, ?_, ?_⟩
  · rw [State.step, called.1, slots_hold, pair]
    rfl
  · rw [State.step, called.1]
    exact within_hold (packed.release _) name _
  · rw [State.step, called.1, next_hold]
    exact used

theorem leaves_drop
    {name : String} {ref : Ref}
    (within : Heap.Within content s.store.cells)
    (found : s.slots.find? name = some ref) :
    Leaves (s.slots.erase name) content s.store.next (s.step (.drop name)) := by
  rw [State.step, remove, slot_of_find? found]
  exact ⟨rfl, rfl, within.release _, rfl⟩

end State
end Session

namespace Script

/-- What a step that succeeds leaves. -/
structure Leaves (slots : Table String Value) (content : String → Option Value)
    (founded : List String) (after : State × Effect) : Prop where
  reply : after.2.reply = .done
  slots : after.1.slots = slots
  within : Heap.Within content after.1.memory.cells
  founded : after.1.founded = founded

/-- What some steps leave that all succeed. -/
structure RunLeaves (slots : Table String Value) (content : String → Option Value)
    (founded : List String) (after : State × List Entry) : Prop where
  replies : ∀ entry ∈ after.2, entry.effect.reply = .done
  slots : after.1.slots = slots
  within : Heap.Within content after.1.memory.cells
  founded : after.1.founded = founded

namespace Leaves

variable {s : State} {slots : Table String Value} {content : String → Option Value}
  {founded : List String} {step : Step}

/-- What is in a slot afterwards. -/
theorem find?
    (leaves : Leaves slots content founded (s.step step))
    {name : String} {v : Value}
    (found : slots.find? name = some v) :
    (s.step step).1.slots.find? name = some v := by
  rw [leaves.slots, found]

theorem last
    (leaves : Leaves slots content founded (s.step step)) :
    RunLeaves slots content founded (machine.run s [step]) where
  replies entry member := by
    rw [List.mem_singleton.mp member]
    exact leaves.reply
  slots := leaves.slots
  within := leaves.within
  founded := leaves.founded

theorem cons
    {slots' : Table String Value} {content' : String → Option Value} {founded' : List String}
    {rest : List Step}
    (leaves : Leaves slots content founded (s.step step))
    (later : RunLeaves slots' content' founded' (machine.run (s.step step).1 rest)) :
    RunLeaves slots' content' founded' (machine.run s (step :: rest)) where
  replies entry member := by
    rcases List.mem_cons.mp member with rfl | member
    · exact leaves.reply
    · exact later.replies entry member
  slots := later.slots
  within := later.within
  founded := later.founded

end Leaves

namespace State

variable {s : State} {content : String → Option Value}

theorem leaves_store
    {events : List Event}
    (within : Heap.Within content s.memory.cells)
    (name : String) (value : Value) :
    Leaves (s.slots.insert name value) content s.founded
      ((s.store name value).1, ⟨.done, events⟩) := by
  unfold store
  split
  · exact ⟨rfl, rfl, within.release _, rfl⟩
  · exact ⟨rfl, rfl, within, rfl⟩

theorem resolve_of_find?
    {name : String} {value : Value}
    (found : s.slots.find? name = some value)
    (segments : List Segment) :
    s.resolve ⟨name, segments⟩ = s.follow segments value := by
  rw [resolve, slot, found]
  rfl

theorem leaves_new
    {id : String}
    (within : Heap.Within content s.memory.cells)
    (fresh : id ∉ s.founded)
    (name : String) :
    Leaves (s.slots.insert name (.handle .acrossThreads id))
      (Function.update content id (some (.scalar .unit))) (id :: s.founded)
      (s.step (.new name (.cell .acrossThreads id (.scalar .unit)))) := by
  have admitted : s.admits (.cell .acrossThreads id (.scalar .unit)) = true := by
    refine admits_iff.mpr ⟨List.nodup_singleton id, fun id' member => ?_⟩
    rw [List.mem_singleton.mp member]
    exact fresh
  have made : Heap.Within (Function.update content id (some (.scalar .unit)))
      (s.memory.found (.cell .acrossThreads id (.scalar .unit))).2.cells :=
    within.allocate id _
  rw [State.step, create, if_pos admitted]
  exact leaves_store (s := { s with
    memory := (s.memory.found (.cell .acrossThreads id (.scalar .unit))).2,
    founded := id :: s.founded }) made name _

theorem leaves_clone
    {path : Path} {sharing : Sharing} {cell : String}
    (within : Heap.Within content s.memory.cells)
    (reached : s.resolve path = .ok (.handle sharing cell))
    (name : String) :
    Leaves (s.slots.insert name (.handle sharing cell)) content s.founded
      (s.step (.clone path name)) := by
  have copied : Heap.Within content (s.memory.acquire cell).cells := within.acquire cell
  rw [State.step, reached]
  exact leaves_store (s := { s with memory := s.memory.acquire cell }) copied name _

theorem leaves_pack
    {first second : Path} {sharing sharing' : Sharing} {cell cell' : String}
    (within : Heap.Within content s.memory.cells)
    (reached : s.resolve first = .ok (.handle sharing cell))
    (reached' : s.resolve second = .ok (.handle sharing' cell'))
    (name : String) :
    Leaves (s.slots.insert name (.pair (.handle sharing cell) (.handle sharing' cell'))) content
      s.founded (s.step (.pack first second name)) := by
  have copied : Heap.Within content ((s.memory.acquire cell).acquire cell').cells :=
    (within.acquire cell).acquire cell'
  rw [State.step, reached, reached']
  exact leaves_store (s := { s with memory := (s.memory.acquire cell).acquire cell' }) copied name _

theorem leaves_put
    {path : Path} {source : String} {sharing : Sharing} {cell : String} {value : Value}
    (within : Heap.Within content s.memory.cells)
    (reached : s.resolve path = .ok (.handle sharing cell))
    (found : s.slots.find? source = some value) :
    Leaves (s.slots.erase source) (Function.update content cell (some value)) s.founded
      (s.step (.put path source)) := by
  rw [State.step, fill, reached, slot, found]
  exact ⟨rfl, rfl, ((within.acquire cell).write cell value).release _, rfl⟩

theorem leaves_drop
    {name : String} {value : Value}
    (within : Heap.Within content s.memory.cells)
    (found : s.slots.find? name = some value) :
    Leaves (s.slots.erase name) content s.founded (s.step (.drop name)) := by
  rw [State.step, remove, slot, found]
  exact ⟨rfl, rfl, within.release _, rfl⟩

/-- Drops leave only what was there before. -/
theorem leaves_drops
    (names : List String) {s : State}
    (within : Heap.Within content s.memory.cells) :
    Heap.Within content (machine.run s (names.map .drop)).1.memory.cells ∧
      (machine.run s (names.map .drop)).1.founded = s.founded := by
  induction names generalizing s with
  | nil => exact ⟨within, rfl⟩
  | cons name rest ih =>
      have first : Heap.Within content (s.remove name).1.memory.cells := by
        unfold remove
        split
        · exact within
        · exact within.release _
      obtain ⟨later, founded⟩ := ih first
      exact ⟨later, founded.trans (founded_step s (.drop name))⟩

/-- The five steps that make a pair and put it in a cell of its own. -/
theorem leaves_packed
    {first second pairSlot cellSlot name id cell cell' : String} {sharing sharing' : Sharing}
    (within : Heap.Within content s.memory.cells)
    (found : s.slots.find? first = some (.handle sharing cell))
    (found' : s.slots.find? second = some (.handle sharing' cell'))
    (fresh : id ∉ s.founded)
    (apart : pairSlot ≠ cellSlot) (other : name ≠ cellSlot) :
    let pair := Value.pair (.handle sharing cell) (.handle sharing' cell')
    let handle := Value.handle .acrossThreads id
    RunLeaves
      (((((s.slots.insert pairSlot pair).insert cellSlot handle).erase pairSlot).insert name
        handle).erase cellSlot)
      (Function.update content id (some pair)) (id :: s.founded)
      (machine.run s [.pack ⟨first, []⟩ ⟨second, []⟩ pairSlot,
        .new cellSlot (.cell .acrossThreads id (.scalar .unit)), .put ⟨cellSlot, []⟩ pairSlot,
        .clone ⟨cellSlot, []⟩ name, .drop cellSlot]) := by
  intro pair handle
  have packed :=
    leaves_pack within (resolve_of_find? found []) (resolve_of_find? found' []) pairSlot
  have made := leaves_new packed.within (packed.founded ▸ fresh) cellSlot
  rw [packed.slots, packed.founded] at made
  have inCell := made.find? (v := handle) (by
    rw [Table.find?_insert, if_pos rfl])
  have inPair := made.find? (v := pair) (by
    rw [Table.find?_insert, if_neg apart.symm, Table.find?_insert, if_pos rfl])
  have filled := leaves_put made.within (resolve_of_find? inCell []) inPair
  rw [made.slots, made.founded, Function.update_idem] at filled
  have kept := filled.find? (v := handle) (by
    rw [Table.find?_erase, if_neg apart, Table.find?_insert, if_pos rfl])
  have shared := leaves_clone filled.within (resolve_of_find? kept []) name
  rw [filled.slots, filled.founded] at shared
  have still := shared.find? (v := handle) (by
    rw [Table.find?_insert, if_neg other, Table.find?_erase, if_neg apart, Table.find?_insert,
      if_pos rfl])
  have dropped := leaves_drop shared.within still
  rw [shared.slots, shared.founded] at dropped
  exact packed.cons (made.cons (filled.cons (shared.cons dropped.last)))

end State
end Script
end SharedPair
