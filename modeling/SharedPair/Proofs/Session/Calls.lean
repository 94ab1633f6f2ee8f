import SharedPair.Proofs.Session.Books

/-!
# Calls

A call whose arguments fit stores a new pair of the very objects that were bound: the
object in a slot that an argument names, or the one that was made for a fresh argument.
Any other call is rejected, and what it raises is a type error.

Whether a call fits is said of its arguments as they are written, without the order in
which they are looked at.
-/

namespace SharedPair

/-! ## Arguments and what they are evaluated to -/

namespace Evaluation

variable {α β : Type} {names : β → List String}

/-- Things and their results agree in all that a thing and its result agree in. -/
theorem map_of_each
    {γ : Type} {evaluate : α → Evaluation β} {f : α → γ} {g : β → γ}
    (same : ∀ a b, (evaluate a).result = .ok b → f a = g b)
    {items : List α} {results : List β}
    (done : (each names evaluate items).result = .ok results) :
    items.map f = results.map g := by
  induction items generalizing results with
  | nil =>
      cases done
      rfl
  | cons a rest ih =>
      obtain ⟨first, one, done⟩ := ok_of_andThen done
      obtain ⟨others, more, rfl⟩ := ok_of_map done
      rw [List.map_cons, List.map_cons, same a first one, ih more]

/-- Things that can be evaluated by themselves can be evaluated one after the other, and what ends
with the evaluation ends with that of one of them. -/
theorem each_of_ok
    {evaluate : α → Evaluation β} {g : α → β} {items : List α}
    (done : ∀ a ∈ items, (evaluate a).result = .ok (g a)) :
    each names evaluate items = ⟨.ok (items.map g), items.flatMap fun a => (evaluate a).ended⟩ := by
  induction items with
  | nil => rfl
  | cons a rest ih =>
      have first := done a List.mem_cons_self
      have others := ih fun b member => done b (List.mem_cons_of_mem _ member)
      rw [each, andThen, first]
      simp only [others, map, Except.map]
      rfl

end Evaluation

namespace Arguments

variable {α β : Type} {arguments : Arguments α}

theorem contents_map
    (f : α → β) (arguments : Arguments α) :
    (arguments.map f).contents = arguments.contents := by
  simp [contents, map, Function.comp_def]

theorem fits_map_iff
    (f : α → β) (arguments : Arguments α) :
    (arguments.map f).Fits ↔ arguments.Fits := by
  have length : (arguments.map f).positional.length = arguments.positional.length :=
    List.length_map f
  constructor
  · rintro ⟨few, named⟩
    rw [contents_map, length] at *
    exact ⟨few, named⟩
  · rintro ⟨few, named⟩
    rw [← contents_map f, ← length] at *
    exact ⟨few, named⟩

theorem gives_map_iff
    (f : α → β) (arguments : Arguments α) (p : Parameter) (result : β) :
    (arguments.map f).Gives p result ↔ ∃ a, arguments.Gives p a ∧ f a = result := by
  constructor
  · rintro (position | ⟨keyword, member, named⟩)
    · rw [map, List.getElem?_map] at position
      obtain ⟨a, found, same⟩ := Option.map_eq_some_iff.mp position
      exact ⟨a, .inl found, same⟩
    · obtain ⟨⟨_, a⟩, inside, eq⟩ := List.mem_map.mp member
      cases eq
      exact ⟨a, .inr ⟨keyword, inside, named⟩, rfl⟩
  · rintro ⟨a, position | ⟨keyword, member, named⟩, rfl⟩
    · refine .inl ?_
      rw [map, List.getElem?_map, position]
      rfl
    · exact .inr ⟨keyword, List.mem_map.mpr ⟨_, member, rfl⟩, named⟩

theorem evaluate_of_ok
    {names : β → List String} {evaluate : α → Evaluation β} {g : α → β}
    (done : ∀ a ∈ arguments.inOrder, (evaluate a).result = .ok (g a)) :
    arguments.evaluate names evaluate =
      ⟨.ok (arguments.map g), arguments.inOrder.flatMap fun a => (evaluate a).ended⟩ := by
  have positional : Evaluation.each names evaluate arguments.positional = _ :=
    Evaluation.each_of_ok fun a member => done a (List.mem_append_left _ member)
  have keywords : Evaluation.each (fun given : Keyword × β => names given.2)
      (fun given : Keyword × α => (evaluate given.2).map (given.1, ·)) arguments.keywords = _ :=
    Evaluation.each_of_ok (g := fun given => (given.1, g given.2)) fun given member => by
      have one := done given.2 (List.mem_append_right _ (List.mem_map_of_mem member))
      rw [Evaluation.map, one]
      rfl
  unfold Arguments.evaluate
  rw [positional, keywords, inOrder, List.flatMap_append, List.flatMap_map]
  rfl

/-- Every argument is evaluated to its result, in its own place. -/
theorem evaluate_ok
    {names : β → List String} {evaluate : α → Evaluation β} {results : Arguments β}
    (done : (arguments.evaluate names evaluate).result = .ok results) :
    arguments.map (fun a => (evaluate a).result) = results.map .ok := by
  obtain ⟨given, both, rfl⟩ := Evaluation.ok_of_map done
  obtain ⟨positional, byPosition, last⟩ := Evaluation.ok_of_andThen both
  obtain ⟨keywords, byKeyword, rfl⟩ := Evaluation.ok_of_map last
  have places := Evaluation.map_of_each (g := Except.ok) (fun _ _ => id) byPosition
  have named : arguments.keywords.map (fun given => (given.1, (evaluate given.2).result)) =
      keywords.map fun given => (given.1, .ok given.2) := by
    refine Evaluation.map_of_each (fun a b one => ?_) byKeyword
    obtain ⟨result, found, rfl⟩ := Evaluation.ok_of_map one
    exact congrArg (Prod.mk a.1) found
  exact congr (congrArg mk places) named

section Evaluated

variable {names : β → List String} {evaluate : α → Evaluation β} {results : Arguments β}

theorem contents_of_evaluate
    (done : (arguments.evaluate names evaluate).result = .ok results) :
    results.contents = arguments.contents := by
  rw [← contents_map Except.ok, ← evaluate_ok done, contents_map]

theorem distinct_of_evaluate
    (done : (arguments.evaluate names evaluate).result = .ok results)
    (distinct : arguments.contents.Nodup) :
    results.contents.Nodup := by
  rw [contents_of_evaluate done]
  exact distinct

theorem fits_of_evaluate_iff
    (done : (arguments.evaluate names evaluate).result = .ok results) :
    results.Fits ↔ arguments.Fits := by
  rw [← fits_map_iff Except.ok, ← evaluate_ok done, fits_map_iff]

/-- What is given for a parameter is evaluated to what is bound to it. -/
theorem gives_of_evaluate
    (done : (arguments.evaluate names evaluate).result = .ok results)
    {p : Parameter} {a : α}
    (gives : arguments.Gives p a) :
    ∃ result, (evaluate a).result = .ok result ∧ results.Gives p result := by
  have evaluated : (arguments.map fun a => (evaluate a).result).Gives p (evaluate a).result :=
    (gives_map_iff _ _ _ _).mpr ⟨a, gives, rfl⟩
  rw [evaluate_ok done] at evaluated
  obtain ⟨result, gives', same⟩ := (gives_map_iff _ _ _ _).mp evaluated
  exact ⟨result, same.symm, gives'⟩

end Evaluated

end Arguments

/-! ## Arguments and the objects taken for them -/

open Session (Source)
open Store (Shift)

namespace Store

variable {sources : Arguments Source}

/-- The arguments of a call, each with the object that is taken for it. -/
theorem exists_beside_takeArguments
    (store : Store) (sources : Arguments Source) :
    ∃ beside : Arguments (Source × Ref), beside.map Prod.fst = sources ∧
      beside.map Prod.snd = (store.takeArguments sources).1 ∧
      beside.inOrder = sources.inOrder.zip (store.takeAll sources.inOrder).1 := by
  have length := length_takeAll store sources.inOrder
  obtain ⟨beside, left, right⟩ := Arguments.exists_beside length
  refine ⟨beside, left, right, ?_⟩
  rw [← Arguments.inOrder_replace length, ← right, ← left, Arguments.inOrder_map,
    Arguments.inOrder_map, List.zip_map', List.map_id']

theorem contents_takeArguments
    (store : Store) (sources : Arguments Source) :
    (store.takeArguments sources).1.contents = sources.contents := by
  obtain ⟨beside, left, right, -⟩ := exists_beside_takeArguments store sources
  rw [← right, Arguments.contents_map, ← Arguments.contents_map Prod.fst, left]

/-- An object that is held already is taken as it is. -/
theorem eq_of_held
    {sources : List Source} {store : Store} {given : Source × Ref} {ref : Ref}
    (member : given ∈ sources.zip (store.takeAll sources).1)
    (held : given.1 = .held ref) :
    given.2 = ref := by
  induction sources generalizing store with
  | nil => cases member
  | cons source rest ih =>
      rcases List.mem_cons.mp member with rfl | member
      · subst held
        rfl
      · exact ih member

/-- An argument whose object is held already stands for that object. -/
theorem gives_takeArguments
    {p : Parameter} {ref : Ref}
    (store : Store)
    (gives : sources.Gives p (.held ref)) :
    (store.takeArguments sources).1.Gives p ref := by
  obtain ⟨beside, left, right, order⟩ := exists_beside_takeArguments store sources
  rw [← left, Arguments.gives_map_iff] at gives
  obtain ⟨given, gives, held⟩ := gives
  have member : given ∈ beside.inOrder := by
    rcases gives with position | ⟨keyword, member, -⟩
    · exact List.mem_append_left _ (List.mem_of_getElem? position)
    · exact List.mem_append_right _ (List.mem_map_of_mem member)
  rw [order] at member
  rw [← right, Arguments.gives_map_iff]
  exact ⟨given, gives, eq_of_held member held⟩

end Store

/-! ## The pair of a call -/

namespace Store

@[simp] theorem next_acquire
    (store : Store) (ref : Ref) :
    (store.acquire ref).next = store.next := by
  cases ref <;> rfl

/-- A pair is a new object, which holds the two objects that it was made of. -/
theorem pack_object
    (store : Store) (filter : Filter) (x y : Ref) :
    (store.pack filter x y).1.1 = .object store.next ∧
      (store.pack filter x y).1.2.next = store.next + 1 ∧
      Heap.value? (store.pack filter x y).1.2.cells store.next = some (.tuple [x, y]) := by
  have next : ((store.acquire x).acquire y).next = store.next := by
    rw [next_acquire, next_acquire]
  rw [pack_eq]
  refine ⟨congrArg Ref.object next, congrArg Nat.succ next, ?_⟩
  show Heap.value? (Heap.allocate _ ((store.acquire x).acquire y).next _) _ = _
  rw [next, Heap.value?_allocate, if_pos rfl]

end Store

namespace Session
namespace State

variable {s : State}

theorem slots_hold
    (s : State) (name : String) (ref : Ref) :
    (s.hold name ref).1.slots = s.slots.insert name ref := by
  unfold hold
  split <;> rfl

theorem find?_hold
    (s : State) (name : String) (ref : Ref) :
    (s.hold name ref).1.slots.find? name = some ref := by
  rw [slots_hold, Table.find?_insert, if_pos rfl]

theorem hold_of_unused
    {name : String}
    (unused : s.slots.find? name = none)
    (ref : Ref) :
    s.hold name ref = ({ s with slots := s.slots.insert name ref }, []) := by
  rw [hold, unused]

theorem hold_of_used
    {name : String} {old : Ref}
    (used : s.slots.find? name = some old)
    (ref : Ref) :
    s.hold name ref = State.discard { s with slots := s.slots.insert name ref } [old] := by
  rw [hold, used]

/-- The slot of a call holds the pair of the objects that were bound, whatever was given up for
it. -/
theorem pair_of_packInto
    {given : List Ref} {x y : Ref}
    (sound : s.store.Sound (given ++ s.roots))
    (member : x ∈ given) (member' : y ∈ given)
    (name : String) :
    (s.packInto name given x y).1.slots.find? name = some (.object s.store.next) ∧
      Heap.value? (s.packInto name given x y).1.store.cells s.store.next =
        some (.tuple [x, y]) := by
  obtain ⟨pair, next, packed⟩ := Store.pack_object s.store s.filter x y
  have before := Shift.pack sound (List.mem_append_left _ member) (List.mem_append_left _ member')
    s.filter
  have order := before.perm List.perm_middle.symm
  have called := Shift.release order.sound
  have stored := called.trans (shift_hold (s := { s with store := _ }) called.sound name)
  have found : (s.packInto name given x y).1.slots.find? name = some (.object s.store.next) := by
    rw [← pair]
    exact find?_hold _ _ _
  obtain ⟨cell, alive⟩ := stored.sound.has_of_mem (Table.mem_values_iff.mpr ⟨name, found⟩)
  have after : Heap.value? (s.packInto name given x y).1.store.cells s.store.next =
      some cell.value := by
    rw [Heap.value?]
    exact congrArg (Option.map Cell.value) alive
  refine ⟨found, ?_⟩
  rw [after, stored.evolves.value?_of_fixed packed (next ▸ Nat.lt_succ_self _) trivial after]

/-! ## What a call comes to -/

variable {arguments : Arguments Argument} {sources : Arguments Source} {first second : Source}

/-- A call that is accepted takes its arguments and packs the two that are bound. -/
theorem call_of_bound
    {x y : Ref}
    (evaluated : (s.sources arguments).result = .ok sources)
    (taken : (s.store.takeArguments sources).1.bind = .ok (x, y))
    (name : String) :
    (s.call arguments name).1 =
        (packInto { s with store := (s.store.takeArguments sources).2 } name
          (s.store.takeArguments sources).1.inOrder x y).1 ∧
      (s.call arguments name).2.reply = .done := by
  unfold call evaluating
  rw [evaluated]
  simp only [taken]
  exact ⟨trivial, rfl⟩

theorem accepted_of_bound
    (evaluated : (s.sources arguments).result = .ok sources)
    (bound : sources.bind = .ok (first, second))
    (name : String) :
    (s.call arguments name).2.reply = .done := by
  obtain ⟨x, y, taken, -⟩ := Store.bind_takeArguments s.store bound
  exact (call_of_bound evaluated taken name).2

theorem call_of_rejected
    {e : CallError}
    (evaluated : (s.sources arguments).result = .ok sources)
    (rejected : sources.bind = .error e)
    (name : String) :
    (s.call arguments name).2.reply = .failed (.rejected e) := by
  unfold call evaluating
  rw [evaluated]
  simp only [(Store.bind_takeArguments_error_iff s.store sources).mpr rejected]
  rfl

theorem bound_of_accepted
    {name : String}
    (accepted : (s.call arguments name).2.reply = .done) :
    ∃ sources first second, (s.sources arguments).result = .ok sources ∧
      sources.bind = .ok (first, second) := by
  cases evaluated : (s.sources arguments).result with
  | error failure =>
      rw [call, evaluating, evaluated] at accepted
      cases accepted
  | ok sources =>
      cases bound : sources.bind with
      | error e =>
          rw [call_of_rejected evaluated bound] at accepted
          cases accepted
      | ok both => exact ⟨sources, both.1, both.2, rfl, bound⟩

/-- The arguments of a call that succeeds are bound, and each can be evaluated by itself. -/
theorem bind_of_evaluated
    (evaluated : (s.sources arguments).result = .ok sources)
    (bound : sources.bind = .ok (first, second)) :
    ∃ a b, arguments.bind = .ok (a, b) ∧
      (s.source a).result = .ok first ∧ (s.source b).result = .ok second := by
  have same := congrArg Arguments.bind (Arguments.evaluate_ok evaluated)
  rw [Arguments.bind_map, Arguments.bind_map, bound] at same
  cases binding : arguments.bind with
  | error e =>
      rw [binding] at same
      cases same
  | ok both =>
      rw [binding] at same
      injection same with same
      injection same with one two
      exact ⟨both.1, both.2, rfl, one, two⟩

/-- What is bound can be evaluated by itself, and then the call can, and what ends in it is what
ends with the one and with the other. -/
theorem sources_of_bind
    {a b : Argument}
    (bind : arguments.bind = .ok (a, b))
    (one : (s.source a).result = .ok first) (two : (s.source b).result = .ok second) :
    ∃ sources ended, s.sources arguments = ⟨.ok sources, ended⟩ ∧
      sources.bind = .ok (first, second) ∧
      ended.Perm ((s.source a).ended ++ (s.source b).ended) := by
  let result : Argument → Source := fun argument => (s.source argument).result.toOption.getD first
  have results : result a = first ∧ result b = second := by
    constructor
    · show (s.source a).result.toOption.getD first = first
      rw [one]
      rfl
    · show (s.source b).result.toOption.getD first = second
      rw [two]
      rfl
  have order := Arguments.inOrder_perm_of_bind bind
  have done : ∀ argument ∈ arguments.inOrder,
      (s.source argument).result = .ok (result argument) := by
    intro argument member
    rcases List.mem_pair.mp (order.mem_iff.mp member) with rfl | rfl
    · rw [results.1, one]
    · rw [results.2, two]
  refine ⟨_, _, Arguments.evaluate_of_ok done, ?_, ?_⟩
  · rw [Arguments.bind_map_of_ok result bind, results.1, results.2]
  · have perm := order.flatMap_right fun argument => (s.source argument).ended
    rwa [List.flatMap_cons, List.flatMap_cons, List.flatMap_nil, List.append_nil] at perm

theorem slot_of_find?
    {name : String} {ref : Ref}
    (found : s.slots.find? name = some ref) :
    s.slot name = .ok ref := by
  rw [slot, found]

theorem drop_of_used
    {name : String} {old : Ref}
    (used : s.slots.find? name = some old) :
    s.step (.drop name) =
      done (State.discard { s with slots := s.slots.erase name } [old]) := by
  rw [step, remove, slot_of_find? used]

/-- An argument that names a slot is evaluated to the object in it. -/
theorem held_of_source_slot
    {slot : String} {source : Source}
    (done : (s.source (.slot slot)).result = .ok source) :
    ∃ ref, s.slots.find? slot = some ref ∧ source = .held ref := by
  cases held : s.slot slot with
  | error failure =>
      rw [State.source, held] at done
      cases done
  | ok ref =>
      rw [State.source, held] at done
      cases done
      exact ⟨ref, find?_of_slot held, rfl⟩

/-- The slot of a call that is bound holds the pair of what was bound, which is a new object. -/
theorem pair_of_bound
    {x y : Ref}
    (sound : s.store.Sound s.roots)
    (evaluated : (s.sources arguments).result = .ok sources)
    (taken : (s.store.takeArguments sources).1.bind = .ok (x, y))
    (name : String) :
    ∃ id, (s.call arguments name).1.slots.find? name = some (.object id) ∧
      s.store.next ≤ id ∧
      Heap.value? (s.call arguments name).1.store.cells id = some (.tuple [x, y]) := by
  obtain ⟨member, member'⟩ := Arguments.mem_inOrder_of_bind taken
  have before := Store.shift_takeArguments sound (there_of_sources evaluated)
  rw [(call_of_bound evaluated taken name).1]
  obtain ⟨found, items⟩ := pair_of_packInto (s := { s with store := _ }) before.sound
    member member' name
  exact ⟨_, found, before.evolves.next, items⟩

end State

/-! ## A call by itself -/

/-- The items of a pair are the two objects that it was made of. -/
theorem itemIs_pair
    (x y : Ref) :
    itemIs (.tuple [x, y]) 0 x = true ∧ itemIs (.tuple [x, y]) 1 y = true := by
  constructor
  · exact decide_eq_true rfl
  · exact decide_eq_true rfl

theorem contents_pack
    (store : Store) (filter : Filter) (x y : Ref) :
    (store.pack filter x y).1.2.contents (store.pack filter x y).1.1 = .tuple [x, y] := by
  obtain ⟨pair, -, packed⟩ := store.pack_object filter x y
  rw [pair, Store.contents, packed]
  rfl

section Once

variable {arguments : Arguments Expression} {forms : Arguments Literal}
  (filter : Filter)
  (evaluated : (arguments.evaluate Form.names Expression.evaluate).result = .ok forms)
include evaluated

theorem callOnce_of_taken
    {x y : Ref}
    (taken : (Store.takeArguments ∅ (forms.map .literal)).1.bind = .ok (x, y)) :
    let made := (Store.takeArguments ∅ (forms.map .literal)).2.pack filter x y
    callOnce filter arguments = ⟨.ok (made.1.2.form made.1.1, [true, true]), made.2⟩ := by
  unfold callOnce
  rw [evaluated]
  simp only [taken, contents_pack, itemIs_pair]

theorem callOnce_of_bound
    {first second : Literal}
    (bound : forms.bind = .ok (first, second)) :
    ∃ shown, (callOnce filter arguments).result = .ok (shown, [true, true]) := by
  obtain ⟨x, y, taken, -⟩ :=
    Store.bind_takeArguments ∅ (Arguments.bind_map_of_ok Source.literal bound)
  rw [callOnce_of_taken filter evaluated taken]
  exact ⟨_, rfl⟩

theorem callOnce_of_rejected
    {e : CallError}
    (rejected : forms.bind = .error e) :
    callOnce filter arguments = ⟨.error (.rejected e), []⟩ := by
  have literal : (forms.map Source.literal).bind = .error e := by
    rw [Arguments.bind_map, rejected]
    rfl
  unfold callOnce
  rw [evaluated]
  simp only [(Store.bind_takeArguments_error_iff ∅ _).mpr literal]

/-- A call by itself gives back the very objects that it was given just when it fits, and is
rejected otherwise. -/
theorem callOnce_result
    (distinct : arguments.contents.Nodup) :
    (arguments.Fits →
      ∃ shown, (callOnce filter arguments).result = .ok (shown, [true, true])) ∧
    (¬ arguments.Fits →
      ∃ e, (callOnce filter arguments).result = .error (.rejected e)) := by
  have fits := Arguments.fits_of_evaluate_iff evaluated
  have distinct' := Arguments.distinct_of_evaluate evaluated distinct
  cases bound : forms.bind with
  | ok pair =>
      have fit := ((Arguments.bind_ok_iff distinct').mp bound).1
      exact ⟨fun _ => callOnce_of_bound filter evaluated bound,
        fun misfit => absurd (fits.mp fit) misfit⟩
  | error e =>
      have misfit := Arguments.not_fits_of_rejected distinct' bound
      rw [callOnce_of_rejected filter evaluated bound]
      exact ⟨fun fit => absurd (fits.mpr fit) misfit, fun _ => ⟨e, rfl⟩⟩

end Once

/-! ## A call in a session -/

/-- **Acceptance.**  Take any call, in any state that steps lead to, whose arguments can be
evaluated and whose keywords have different names.  It succeeds just when it fits, which is when
nothing is wrong with it.  Then its slot holds a pair that is a new object.  The items are the very
objects that were taken for the two parameters, in the order of the parameters; an argument that
names a slot stands for the object in that slot.  Otherwise it is rejected with a type error. -/
theorem call_accepted_iff
    (filter : Filter) (steps : List Step) (arguments : Arguments Argument) (name : String)
    (sources : Arguments Source) :
    let s := (machine.run (State.initial filter) steps).1
    let after := (s.step (.call arguments name)).1
    let reply := (s.step (.call arguments name)).2.reply
    let given := (s.store.takeArguments sources).1
    (s.sources arguments).result = .ok sources →
    arguments.contents.Nodup →
      (reply = .done ↔ arguments.Fits) ∧
      (arguments.Fits ↔ ¬ arguments.Misfit) ∧
      (arguments.Fits →
        ∃ id x y,
          after.slots.find? name = some (.object id) ∧ s.store.next ≤ id ∧
          Heap.value? after.store.cells id = some (.tuple [x, y]) ∧
          given.Gives .a x ∧ given.Gives .b y ∧
          (∀ p slot, arguments.Gives p (.slot slot) →
            s.slots.find? slot = [x, y][p.index]?)) ∧
      (¬ arguments.Fits →
        ∃ e, reply = .failed (.rejected e) ∧ (Failure.rejected e).raisedAs = .typeError) := by
  intro s after reply given evaluated distinct
  have sound : s.store.Sound s.roots := State.sound_run steps (State.sound_initial filter)
  have fits := Arguments.fits_of_evaluate_iff evaluated
  have distinct' := Arguments.distinct_of_evaluate evaluated distinct
  cases bound : sources.bind with
  | ok pair =>
      rcases pair with ⟨first, second⟩
      have fit := ((Arguments.bind_ok_iff distinct').mp bound).1
      obtain ⟨x, y, taken, -⟩ := Store.bind_takeArguments s.store bound
      have distinct'' : given.contents.Nodup := by
        rw [Store.contents_takeArguments]
        exact distinct'
      obtain ⟨-, gives, gives'⟩ := (Arguments.bind_ok_iff distinct'').mp taken
      have answered := State.accepted_of_bound evaluated bound name
      obtain ⟨id, stored, new, items⟩ := State.pair_of_bound sound evaluated taken name
      refine ⟨⟨fun _ => fits.mp fit, fun _ => answered⟩, Arguments.fits_iff_not_misfit,
        fun _ => ⟨id, x, y, stored, new, items, gives, gives', ?_⟩,
        fun misfit => absurd (fits.mp fit) misfit⟩
      intro p slot written
      obtain ⟨source, done, gives''⟩ := Arguments.gives_of_evaluate evaluated written
      obtain ⟨ref, found, rfl⟩ := State.held_of_source_slot done
      have held := Store.gives_takeArguments s.store gives''
      -- the parameters are bound to one object each, so this is the one that was taken
      exact found.trans (Arguments.eq_of_gives distinct'' taken held)
  | error e =>
      have answered : reply = .failed (.rejected e) :=
        State.call_of_rejected evaluated bound name
      have misfit : ¬ arguments.Fits := fun fit =>
        Arguments.not_fits_of_rejected distinct' bound (fits.mpr fit)
      refine ⟨⟨fun done => ?_, fun fit => absurd fit misfit⟩, Arguments.fits_iff_not_misfit,
        fun fit => absurd fit misfit, fun _ => ⟨e, answered, rfl⟩⟩
      rw [answered] at done
      cases done

/-- A call with one argument by position and one by keyword, which are one and the same object. -/
theorem call_accepted_iff_mixed :
    let steps : List Step := [.new "x" (.named "n")]
    let arguments : Arguments Argument :=
      ⟨[.slot "x"], [(.plain (Text.ofString "b"), .slot "x")]⟩
    let s := (machine.run (State.initial .off) steps).1
    (s.step (.call arguments "y")).2.reply = .done ∧ arguments.Fits ∧
      s.slots.find? "x" = some (.object 0) := by
  intro steps arguments s
  have law := call_accepted_iff .off steps arguments "y"
    ⟨[.held (.object 0)], [(.plain (Text.ofString "b"), .held (.object 0))]⟩ rfl (by decide)
  exact ⟨rfl, law.1.mp rfl, rfl⟩

end Session
end SharedPair
