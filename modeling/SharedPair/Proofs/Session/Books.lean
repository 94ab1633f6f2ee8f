import SharedPair.Session.Step
import SharedPair.Proofs.Call.Replacement
import SharedPair.Proofs.Machine

/-!
# The books of a session

Every step of a session is a shift of its store, with the slots as what is held
outside.  The opaque things that are born in it are those that its expressions make,
and those that end are the ones it reports.

A step holds references of its own while it goes on: to its arguments, to a new pair
that has no slot yet, to what a change left over.  They stand beside the slots until
they are stored or given up.
-/

namespace SharedPair

open Store (Shift Sound)

/-! ## Results of evaluations -/

namespace Evaluation

variable {α β : Type} {names : α → List String} {names' : β → List String}

theorem ok_of_map
    {e : Evaluation α} {f : α → β} {b : β}
    (done : (e.map f).result = .ok b) :
    ∃ a, e.result = .ok a ∧ f a = b := by
  rcases e with ⟨result, ended⟩
  cases result with
  | error failure =>
      cases done
  | ok a =>
      cases done
      exact ⟨a, rfl, rfl⟩

theorem ok_of_andThen
    {e : Evaluation α} {next : α → Evaluation β} {b : β}
    (done : (e.andThen names next).result = .ok b) :
    ∃ a, e.result = .ok a ∧ (next a).result = .ok b := by
  rcases e with ⟨result, ended⟩
  cases result with
  | error failure =>
      cases done
  | ok a =>
      refine ⟨a, rfl, ?_⟩
      cases last : next a with
      | mk result ended' =>
          simp only [andThen, last] at done
          cases result with
          | error failure =>
              cases done
          | ok b' =>
              exact done

/-- What holds of every result holds of each result in a row. -/
theorem forall_of_each
    {evaluate : α → Evaluation β} {P : β → Prop}
    (holds : ∀ a b, (evaluate a).result = .ok b → P b)
    {items : List α} {results : List β}
    (done : (each names' evaluate items).result = .ok results) :
    ∀ b ∈ results, P b := by
  induction items generalizing results with
  | nil =>
      cases done
      intro b member
      cases member
  | cons a rest ih =>
      obtain ⟨first, one, done⟩ := ok_of_andThen done
      obtain ⟨others, more, rfl⟩ := ok_of_map done
      intro b member
      rcases List.mem_cons.mp member with rfl | member
      · exact holds a b one
      · exact ih more b member

end Evaluation

/-! ## Arguments -/

namespace Session

/-- Whether an argument can be taken: it is to be made, or its object is held. -/
def Source.There (held : List Ref) : Source → Prop
  | .literal _ => True
  | .held ref => ref ∈ held

theorem Source.There.mono
    {held held' : List Ref} {source : Source}
    (there : source.There held)
    (more : ∀ ref ∈ held, ref ∈ held') :
    source.There held' := by
  cases source with
  | literal form =>
      trivial
  | held ref =>
      exact more ref there

end Session

open Session (Source)

namespace Store

variable {store : Store} {held : List Ref}

theorem shift_take
    {source : Source}
    (sound : store.Sound held)
    (there : source.There held) :
    Shift store held source.names [] (store.take source).2 ((store.take source).1 :: held) := by
  cases source with
  | literal form =>
      exact shift_make form sound
  | held ref =>
      exact .acquire sound (sound.has_of_mem there)

theorem shift_takeAll
    {sources : List Source} {store : Store} {held : List Ref}
    (sound : store.Sound held)
    (there : ∀ source ∈ sources, source.There held) :
    Shift store held (sources.flatMap Source.names) []
      (store.takeAll sources).2 ((store.takeAll sources).1 ++ held) := by
  induction sources generalizing store held with
  | nil => exact .still sound (List.Perm.refl _)
  | cons source rest ih =>
      have first := shift_take sound (there source List.mem_cons_self)
      have others := ih first.sound fun source member =>
        (there source (List.mem_cons_of_mem _ member)).mono fun ref => List.mem_cons_of_mem _
      exact (first.trans others).perm List.perm_middle

theorem length_takeAll
    (store : Store) (sources : List Source) :
    (store.takeAll sources).1.length = sources.length := by
  induction sources generalizing store with
  | nil => rfl
  | cons source rest ih => exact congrArg Nat.succ (ih (store.take source).2)

theorem inOrder_takeArguments
    (store : Store) (sources : Arguments Source) :
    (store.takeArguments sources).1.inOrder = (store.takeAll sources.inOrder).1 :=
  Arguments.inOrder_replace (length_takeAll _ _)

/-- The objects are bound like the arguments that they are taken for, of which either may have been
taken first. -/
theorem bind_takeArguments
    {sources : Arguments Source} {first second : Source}
    (store : Store)
    (bound : sources.bind = .ok (first, second)) :
    ∃ x y, (store.takeArguments sources).1.bind = .ok (x, y) ∧
      (sources.inOrder = [first, second] ∧
          store.takeAll [first, second] = ([x, y], (store.takeArguments sources).2) ∨
        sources.inOrder = [second, first] ∧
          store.takeAll [second, first] = ([y, x], (store.takeArguments sources).2)) := by
  have after : (store.takeArguments sources).2 = (store.takeAll sources.inOrder).2 := rfl
  obtain ⟨x, y, taken, ⟨order, objects⟩ | ⟨order, objects⟩⟩ :=
    Arguments.bind_replace (length_takeAll store sources.inOrder) bound
  · rw [order] at objects after
    exact ⟨x, y, taken, .inl ⟨order, Prod.ext objects after.symm⟩⟩
  · rw [order] at objects after
    exact ⟨x, y, taken, .inr ⟨order, Prod.ext objects after.symm⟩⟩

theorem bind_takeArguments_error_iff
    (store : Store) (sources : Arguments Source) {e : CallError} :
    (store.takeArguments sources).1.bind = .error e ↔ sources.bind = .error e :=
  Arguments.bind_replace_error_iff (length_takeAll _ _)

theorem shift_takeArguments
    {sources : Arguments Source}
    (sound : store.Sound held)
    (there : ∀ source ∈ sources.inOrder, source.There held) :
    Shift store held (sources.inOrder.flatMap Source.names) []
      (store.takeArguments sources).2 ((store.takeArguments sources).1.inOrder ++ held) := by
  rw [inOrder_takeArguments]
  exact shift_takeAll sound there

end Store

namespace Session
namespace State

variable {s : State}

theorem find?_of_slot
    {name : String} {ref : Ref}
    (held : s.slot name = .ok ref) :
    s.slots.find? name = some ref := by
  unfold slot at held
  split at held
  · next found =>
      cases held
      exact found
  · cases held

theorem mem_roots_of_slot
    {name : String} {ref : Ref}
    (held : s.slot name = .ok ref) :
    ref ∈ s.roots :=
  Table.mem_values_iff.mpr ⟨name, find?_of_slot held⟩

theorem there_of_source
    {argument : Argument} {source : Source}
    (done : (s.source argument).result = .ok source) :
    source.There s.roots := by
  cases argument with
  | fresh expression =>
      obtain ⟨form, -, rfl⟩ := Evaluation.ok_of_map done
      trivial
  | slot name =>
      cases held : s.slot name with
      | error failure =>
          rw [State.source, held] at done
          cases done
      | ok ref =>
          rw [State.source, held] at done
          cases done
          exact mem_roots_of_slot held

theorem there_of_sources
    {arguments : Arguments Argument} {sources : Arguments Source}
    (done : (s.sources arguments).result = .ok sources) :
    ∀ source ∈ sources.inOrder, source.There s.roots := by
  obtain ⟨given, both, rfl⟩ := Evaluation.ok_of_map done
  obtain ⟨positional, byPosition, last⟩ := Evaluation.ok_of_andThen both
  obtain ⟨keywords, byKeyword, rfl⟩ := Evaluation.ok_of_map last
  have named : ∀ given ∈ keywords, given.2.There s.roots := by
    refine Evaluation.forall_of_each (fun a b done => ?_) byKeyword
    obtain ⟨source, one, rfl⟩ := Evaluation.ok_of_map done
    exact there_of_source one
  intro source member
  rcases List.mem_append.mp member with member | member
  · exact Evaluation.forall_of_each (fun _ _ => there_of_source) byPosition source member
  · obtain ⟨given, inside, rfl⟩ := List.mem_map.mp member
    exact named given inside

/-! ## Storing and giving up -/

/-- A reference that is stored is held by its slot, and the old one is given up. -/
theorem shift_hold
    {ref : Ref}
    (sound : s.store.Sound (ref :: s.roots))
    (name : String) :
    Shift s.store (ref :: s.roots) [] (s.hold name ref).2
      (s.hold name ref).1.store (s.hold name ref).1.roots := by
  have placed := Table.values_insert_perm s.slots name ref
  unfold hold
  cases found : s.slots.find? name with
  | none =>
      rw [Table.erase_of_find?_eq_none found] at placed
      exact .still sound (Ref.handles_perm placed.symm)
  | some old =>
      have before := Table.values_perm_erase found
      have order : (ref :: s.roots).Perm ([old] ++ (s.slots.insert name ref).values) :=
        (before.cons ref).trans ((List.Perm.swap old ref _).trans (placed.symm.cons old))
      have swapped := Shift.still sound (Ref.handles_perm order)
      exact swapped.trans (.release swapped.sound)

/-- A step that ends by storing a reference. -/
theorem shift_done_hold
    {s' : State} {ref : Ref} {born : List String}
    (before : Shift s.store s.roots born [] s'.store (ref :: s'.roots))
    (name : String) :
    Shift s.store s.roots born (done (s'.hold name ref)).2.freed
      (done (s'.hold name ref)).1.store (done (s'.hold name ref)).1.roots := by
  have whole := before.trans (shift_hold before.sound name)
  rw [List.append_nil] at whole
  exact whole.names_perm (List.Perm.refl _) (List.mergeSort_perm _ _).symm

/-- A step that fails gives up what it held. -/
theorem shift_giveUp
    {s' : State} {refs : List Ref} {born : List String}
    (before : Shift s.store s.roots born [] s'.store (refs ++ s'.roots))
    (failure : Failure) :
    Shift s.store s.roots born (s'.giveUp refs failure).2.freed
      (s'.giveUp refs failure).1.store (s'.giveUp refs failure).1.roots := by
  have whole := before.trans (.release before.sound)
  rw [List.append_nil] at whole
  exact whole.names_perm (List.Perm.refl _) (List.mergeSort_perm _ _).symm

/-- What ends with an evaluation is born and ends within the step. -/
theorem shift_evaluating
    {α : Type} {made : Evaluation α} {names : α → List String} {next : α → State × Effect}
    (sound : s.store.Sound s.roots)
    (further : ∀ a, made.result = .ok a →
      Shift s.store s.roots (names a) (next a).2.freed (next a).1.store (next a).1.roots) :
    Shift s.store s.roots (made.made names) (s.evaluating made next).2.freed
      (s.evaluating made next).1.store (s.evaluating made next).1.roots := by
  rcases made with ⟨result, ended⟩
  have sorted : ∀ names : List String, names.Perm (sortNames names) := fun names =>
    (List.mergeSort_perm _ _).symm
  cases result with
  | error failure =>
      have passing := (Shift.still sound (List.Perm.refl _)).after_passing ended
      rw [List.append_nil] at passing
      exact passing.names_perm (List.Perm.refl _) (sorted ended)
  | ok a =>
      have passing := (further a rfl).after_passing ended
      exact passing.names_perm (List.Perm.refl _) (sorted _)

end State

/-! ## What a step makes -/

/-- The names of the opaque things that a step makes. -/
def Step.made (s : State) : Step → List String
  | .new _ expression => expression.evaluate.made Form.names
  | .call arguments _ =>
      (s.sources arguments).made fun sources => sources.inOrder.flatMap Source.names
  | .set _ _ value => (s.source value).made Source.names
  | .append container value =>
      match s.slot container with
      | .ok ref =>
          if (s.store.contents ref).isGrowable then (s.source value).made Source.names else []
      | .error _ => []
  | _ => []

namespace State

variable {s : State}

/-! ## The parts of a step -/

/-- A call makes its pair, gives its arguments up, and stores the pair. -/
theorem packInto_fst
    (s : State) (name : String) (given : List Ref) (first second : Ref) :
    (s.packInto name given first second).1 =
      (({ s with store := (s.store.pack s.filter first second).1.2 }.discard given).1.hold name
        (s.store.pack s.filter first second).1.1).1 := by
  rfl

theorem packInto_log
    (s : State) (name : String) (given : List Ref) (first second : Ref) :
    (s.packInto name given first second).2.log = s.filter.log packRecord :=
  congrArg Prod.snd (s.store.pack_eq s.filter first second)

/-- The arguments are held until the pair is made and holds two of them too. -/
theorem shift_packInto
    {given : List Ref} {first second : Ref}
    (sound : s.store.Sound (given ++ s.roots))
    (member : first ∈ given) (member' : second ∈ given)
    (name : String) :
    Shift s.store (given ++ s.roots) [] (s.packInto name given first second).2.freed
      (s.packInto name given first second).1.store
      (s.packInto name given first second).1.roots := by
  have packed := Shift.pack sound (List.mem_append_left _ member) (List.mem_append_left _ member')
    s.filter
  have held := packed.perm List.perm_middle.symm
  have called := held.trans (.release held.sound)
  have stored := called.trans (shift_hold (s := { s with store := _ }) called.sound name)
  exact stored.names_perm (List.Perm.refl _) (List.mergeSort_perm _ _).symm

/-- A call takes its arguments and gives all of them up again, whether they are bound or not. -/
theorem shift_call
    (sound : s.store.Sound s.roots)
    (arguments : Arguments Argument) (name : String) :
    Shift s.store s.roots
      ((s.sources arguments).made fun sources => sources.inOrder.flatMap Source.names)
      (s.call arguments name).2.freed (s.call arguments name).1.store
      (s.call arguments name).1.roots := by
  refine shift_evaluating sound fun sources evaluated => ?_
  have taken := Store.shift_takeArguments sound (there_of_sources evaluated)
  simp only
  split
  · next first second bound =>
      obtain ⟨member, member'⟩ := Arguments.mem_inOrder_of_bind bound
      have whole := taken.trans
        (shift_packInto (s := { s with store := _ }) taken.sound member member' name)
      rwa [List.append_nil] at whole
  · next e rejected =>
      exact shift_giveUp taken (.rejected e)

theorem shift_get
    (sound : s.store.Sound s.roots)
    (source : String) (index : Index) (name : String) :
    Shift s.store s.roots [] (s.get source index name).2.freed
      (s.get source index name).1.store (s.get source index name).1.roots := by
  have still : Shift s.store s.roots [] [] s.store s.roots := .still sound (List.Perm.refl _)
  unfold get
  cases held : s.slot source with
  | error failure =>
      exact still
  | ok container =>
      simp only
      cases read : (s.store.contents container).item index with
      | error failure =>
          exact still
      | ok item =>
          cases item with
          | ref item =>
              have has := Store.has_of_contents sound (Node.mem_positions_of_item read)
              exact shift_done_hold (.acquire sound has) name
          | atom a =>
              exact shift_done_hold (.atom a sound) name

/-- A change takes its argument over, or gives it up again. -/
theorem shift_change
    {how : Node → Ref → Node → Except Failure Node.Change}
    (sound : s.store.Sound s.roots)
    (exchange : ∀ {node ref content change}, how node ref content = .ok change →
      node.Exchange ref change)
    (container : String) (value : Argument) :
    Shift s.store s.roots ((s.source value).made Source.names)
      (s.change container value how).2.freed (s.change container value how).1.store
      (s.change container value how).1.roots := by
  refine shift_evaluating sound fun source evaluated => ?_
  have taken := Store.shift_take sound (there_of_source evaluated)
  simp only
  split
  · next failure failed =>
      exact shift_giveUp taken failure
  · next target node leftover changed =>
      obtain ⟨target', held, changed⟩ := ok_of_bind changed
      obtain ⟨change, made, eq⟩ := ok_of_bind changed
      cases eq
      have written := taken.then_quietly (Store.shift_exchange taken.sound (exchange made))
      have whole := written.trans (.release written.sound)
      rw [List.append_nil] at whole
      exact whole.names_perm (List.Perm.refl _) (List.mergeSort_perm _ _).symm

@[simp] theorem ask_fst
    (s : State) (question : Except Failure Reply) :
    (s.ask question).1 = s := by
  cases question <;> rfl

@[simp] theorem ask_freed
    (s : State) (question : Except Failure Reply) :
    (s.ask question).2.freed = [] := by
  cases question <;> rfl

theorem shift_append
    (sound : s.store.Sound s.roots)
    (container : String) (value : Argument) :
    Shift s.store s.roots (Step.made s (.append container value))
      (s.append container value).2.freed (s.append container value).1.store
      (s.append container value).1.roots := by
  have still : Shift s.store s.roots [] [] s.store s.roots := .still sound (List.Perm.refl _)
  rw [Step.made]
  unfold append
  cases held : s.slot container with
  | error failure =>
      exact still
  | ok ref =>
      simp only
      split
      · exact shift_change sound Node.exchange_append container value
      · exact still

theorem shift_remove
    (sound : s.store.Sound s.roots)
    (name : String) :
    Shift s.store s.roots [] (s.remove name).2.freed (s.remove name).1.store
      (s.remove name).1.roots := by
  unfold remove
  cases held : s.slot name with
  | error failure =>
      exact .still sound (List.Perm.refl _)
  | ok ref =>
      have order : s.roots.Perm ([ref] ++ (s.slots.erase name).values) :=
        Table.values_perm_erase (find?_of_slot held)
      have taken := Shift.still sound (Ref.handles_perm order)
      have whole := taken.trans (.release taken.sound)
      exact whole.names_perm (List.Perm.refl _) (List.mergeSort_perm _ _).symm

/-- The books of a step balance. -/
theorem shift_step
    (sound : s.store.Sound s.roots)
    (step : Step) :
    Shift s.store s.roots (step.made s) (s.step step).2.freed
      (s.step step).1.store (s.step step).1.roots := by
  have still : Shift s.store s.roots [] [] s.store s.roots := .still sound (List.Perm.refl _)
  cases step with
  | new name expression =>
      exact shift_evaluating sound fun form _ => shift_done_hold (Store.shift_make form sound) name
  | «alias» source name =>
      rw [State.step]
      cases held : s.slot source with
      | error failure =>
          exact still
      | ok ref =>
          have has := sound.has_of_mem (mem_roots_of_slot held)
          exact shift_done_hold (.acquire sound has) name
  | call arguments name =>
      exact shift_call sound arguments name
  | get source index name =>
      exact shift_get sound source index name
  | set container index value =>
      rw [State.step, Step.made]
      exact shift_change sound Node.exchange_assign container value
  | append container value =>
      exact shift_append sound container value
  | drop name =>
      exact shift_remove sound name
  | same first second =>
      rw [State.step, ask_fst, ask_freed]
      exact still
  | length name =>
      rw [State.step, ask_fst, ask_freed]
      exact still
  | display name =>
      rw [State.step, ask_fst, ask_freed]
      exact still
  | setFilter filter =>
      exact still

/-- At the end all references of the slots are given up. -/
theorem shift_finish
    (sound : s.store.Sound s.roots) :
    Shift s.store s.roots [] s.finish.2.freed s.finish.1.store s.finish.1.roots := by
  have order : s.roots.Perm (s.roots ++ []) := by
    rw [List.append_nil]
  have waiting := Shift.still sound (Ref.handles_perm order)
  have whole := waiting.trans (.release waiting.sound)
  exact whole.names_perm (List.Perm.refl _) (List.mergeSort_perm _ _).symm

/-! ## Every state is sound -/

theorem sound_initial
    (filter : Filter) :
    (initial filter).store.Sound (initial filter).roots where
  counted := Heap.counted_empty
  fresh id member := by
    cases member

theorem sound_run
    (steps : List Step) {s : State}
    (sound : s.store.Sound s.roots) :
    (machine.run s steps).1.store.Sound (machine.run s steps).1.roots :=
  Machine.run_invariant (P := fun s : State => s.store.Sound s.roots)
    (fun _ step sound => (shift_step sound step).sound) steps sound

theorem evolves_run
    (steps : List Step) {s : State}
    (sound : s.store.Sound s.roots) :
    s.store.Evolves (machine.run s steps).1.store := by
  induction steps generalizing s with
  | nil => exact .refl _
  | cons step rest ih =>
      have shift := shift_step sound step
      exact shift.evolves.trans (ih shift.sound)

end State
end Session
end SharedPair
