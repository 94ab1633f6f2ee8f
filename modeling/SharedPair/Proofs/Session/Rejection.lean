import SharedPair.Proofs.Session.Comparison

/-!
# Calls that fail

A call that is rejected has made its fresh arguments and taken references to the
others.  It gives all of them up, so what was there before is there as before, and
what was made for it is gone.  What it leaves is a mirror of the state before it, in
which the numbers of the objects made meanwhile are passed over; so nobody can tell
afterwards whether the call was there.
-/

namespace SharedPair

/-! ## Evaluations are not rejected -/

namespace Evaluation

variable {α β : Type} {names : α → List String} {names' : β → List String}

/-- Whether an evaluation comes to anything but the rejection of a call. -/
def Lawful (made : Evaluation α) : Prop := ∀ e, made.result ≠ .error (.rejected e)

namespace Lawful

theorem value
    (a : α) :
    (Evaluation.value a).Lawful := by
  intro e failed
  cases failed

theorem map
    {made : Evaluation α}
    (lawful : made.Lawful) (f : α → β) :
    (made.map f).Lawful := by
  rcases made with ⟨result, ended⟩
  intro e failed
  cases result with
  | ok a => cases failed
  | error failure =>
      cases failed
      exact lawful e rfl

theorem andThen
    {made : Evaluation α} {next : α → Evaluation β}
    (lawful : made.Lawful) (further : ∀ a, (next a).Lawful) :
    (made.andThen names next).Lawful := by
  rcases made with ⟨result, ended⟩
  intro e failed
  cases result with
  | error failure =>
      cases failed
      exact lawful e rfl
  | ok a =>
      cases last : (next a).result with
      | error failure =>
          simp only [Evaluation.andThen, last] at failed
          cases failed
          exact further a e last
      | ok b =>
          simp only [Evaluation.andThen, last] at failed
          cases failed

theorem each
    {evaluate : α → Evaluation β}
    (lawful : ∀ a, (evaluate a).Lawful) (items : List α) :
    (Evaluation.each names' evaluate items).Lawful := by
  induction items with
  | nil => exact .value []
  | cons a rest ih => exact (lawful a).andThen fun _ => ih.map _

end Lawful
end Evaluation

open Evaluation (Lawful)

theorem Arguments.lawful_evaluate
    {α β : Type} {names : β → List String} {evaluate : α → Evaluation β}
    (lawful : ∀ a, (evaluate a).Lawful) (arguments : Arguments α) :
    (arguments.evaluate names evaluate).Lawful := by
  have keywords : (Evaluation.each (fun given : Keyword × β => names given.2)
      (fun given : Keyword × α => (evaluate given.2).map (given.1, ·))
      arguments.keywords).Lawful :=
    .each (fun given : Keyword × α => (lawful given.2).map _) _
  exact ((Lawful.each lawful arguments.positional).andThen fun _ => keywords.map _).map _

namespace Form

mutual

theorem lawful_toKey :
    ∀ form : Literal, form.toKey.Lawful
  | .tuple items => by
      intro e failed
      rw [toKey, key] at failed
      cases keys : keysOfAll items with
      | error failure =>
          rw [keys] at failed
          cases failed
          exact lawful_keysOfAll items e keys
      | ok keys' =>
          rw [keys] at failed
          cases failed
  | .atom _ | .named _ | .buffer _ | .set _ | .list _ | .dict _ => by
      intro e failed
      cases failed

theorem lawful_keysOfAll :
    ∀ (items : List Literal) (e : CallError), keysOfAll items ≠ .error (.rejected e)
  | [], e => by
      intro failed
      cases failed
  | form :: rest, e => by
      intro failed
      rw [keysOfAll] at failed
      cases first : form.key with
      | error failure =>
          rw [first] at failed
          cases failed
          exact lawful_toKey form e first
      | ok key =>
          cases others : keysOfAll rest with
          | error failure =>
              rw [first, others] at failed
              cases failed
              exact lawful_keysOfAll rest e others
          | ok keys =>
              rw [first, others] at failed
              cases failed

end

end Form

namespace Expression

theorem lawful_atom
    (a : Atom) :
    a.evaluate.Lawful := by
  unfold Atom.evaluate
  split
  · intro e failed
    cases failed
  · exact .value _

mutual

theorem lawful_evaluate :
    ∀ e : Expression, e.evaluate.Lawful
  | atom a => by
      rw [evaluate]
      exact lawful_atom a
  | named name => by
      rw [evaluate]
      exact .value _
  | buffer bs => by
      rw [evaluate]
      exact .value _
  | set members => by
      rw [evaluate]
      exact (lawful_members members).map _
  | list items => by
      rw [evaluate]
      exact (lawful_all items).map _
  | tuple items => by
      rw [evaluate]
      exact (lawful_all items).map _
  | dict entries => by
      rw [evaluate]
      refine (lawful_entries entries).andThen fun filed => ?_
      intro e failed
      cases failed

theorem lawful_all :
    ∀ items : List Expression, (evaluateAll items).Lawful
  | [] => by
      rw [evaluateAll]
      exact .value _
  | item :: rest => by
      rw [evaluateAll]
      exact (lawful_evaluate item).andThen fun _ => (lawful_all rest).map _

theorem lawful_members :
    ∀ members : List Expression, (evaluateMembers members).Lawful
  | [] => by
      rw [evaluateMembers]
      exact .value _
  | member :: rest => by
      rw [evaluateMembers]
      exact ((lawful_evaluate member).andThen Form.lawful_toKey).andThen fun _ =>
        (lawful_members rest).map _

theorem lawful_entries :
    ∀ entries : List (Expression × Expression), (evaluateEntries entries).Lawful
  | [] => by
      rw [evaluateEntries]
      exact .value _
  | (key, value) :: rest => by
      have pair : ((evaluate key).both Form.names (evaluate value)).Lawful :=
        (lawful_evaluate key).andThen fun _ => (lawful_evaluate value).map _
      rw [evaluateEntries]
      exact (pair.andThen fun both => (Form.lawful_toKey both.1).map _).andThen fun _ =>
        (lawful_entries rest).map _

end

end Expression

namespace Session

open Store (passOver)

namespace State

variable {s : State} {arguments : Arguments Argument} {sources : Arguments Source}

/-! ## The state after a call that fails -/

theorem call_of_failed_evaluation
    {failure : Failure}
    (evaluated : (s.sources arguments).result = .error failure)
    (name : String) :
    (s.call arguments name).1 = s ∧ (s.call arguments name).2.log = [] := by
  unfold call evaluating
  rw [evaluated]
  exact ⟨rfl, rfl⟩

theorem call_fst_of_rejected
    {e : CallError}
    (evaluated : (s.sources arguments).result = .ok sources)
    (rejected : sources.bind = .error e)
    (name : String) :
    (s.call arguments name).1 =
        ({ s with store := (s.store.takeArguments sources).2 }.discard
          (s.store.takeArguments sources).1.inOrder).1 ∧
      (s.call arguments name).2.log = [] := by
  unfold call evaluating
  rw [evaluated]
  simp only [(Store.bind_takeArguments_error_iff s.store sources).mpr rejected]
  exact ⟨rfl, rfl⟩

/-- A call that fails leaves a mirror of the state before it. -/
theorem mirror_of_failed
    {failure : Failure} {name : String}
    (sound : s.store.Sound s.roots)
    (failed : (s.call arguments name).2.reply = .failed failure) :
    (s.call arguments name).2.log = [] ∧
      ∃ gap, Mirror (passOver s.store.next gap) (fun _ => False) [] []
        s (s.call arguments name).1 := by
  have self : ∀ gap, Store.Mirror (passOver s.store.next gap) (fun _ => False) [] s.store s.roots
      s.store := fun gap =>
    sound.mirror (Store.passOver_injective _ _) fun _ old => Store.passOver_of_lt old gap
  cases evaluated : (s.sources arguments).result with
  | error failure' =>
      obtain ⟨same, quiet⟩ := call_of_failed_evaluation evaluated name
      rw [same]
      exact ⟨quiet, 0, mirror_of_stores sound (fun _ old => Store.passOver_of_lt old 0) (self 0)
        (Store.inStep_passOver rfl)⟩
  | ok sources =>
      cases bound : sources.bind with
      | ok both =>
          rw [accepted_of_bound evaluated bound name] at failed
          cases failed
      | error e =>
          obtain ⟨same, quiet⟩ := call_fst_of_rejected evaluated bound name
          have there := there_of_sources evaluated
          have taken := Store.shift_takeArguments sound there
          obtain ⟨gap, later⟩ := Nat.exists_eq_add_of_le taken.evolves.next
          refine ⟨quiet, gap, ?_⟩
          have fixed : ∀ id < s.store.next, passOver s.store.next gap id = id :=
            fun _ old => Store.passOver_of_lt old gap
          -- what the call takes are guests of the store, and they leave again
          have guests := (self gap).takeAll_guest sources.inOrder (by
            rw [Store.map_rename_of_held sound fixed, List.append_nil]
            exact there)
          rw [← Store.inOrder_takeArguments] at guests
          rw [same]
          exact mirror_of_stores sound fixed guests.release_guests (Store.inStep_passOver later)

/-! ## What is left as it was -/

section Same

variable {ρ : Nat → Nat} {kept : Nat → Prop} {t : State}

theorem slots_eq_of_mirror
    (mirror : Mirror ρ kept [] [] s t)
    (fixed : ∀ id < s.store.next, ρ id = id) :
    t.slots = s.slots := by
  have sound := mirror.store.sound
  exact Table.ext (mirror.slots.entries_eq.trans (follows_self sound fixed).entries_eq.symm)

theorem find?_of_mirror
    (mirror : Mirror ρ kept [] [] s t)
    (fixed : ∀ id < s.store.next, ρ id = id)
    (id : Nat) :
    t.store.cells.find? id = s.store.cells.find? id := by
  have sound := mirror.store.sound
  have old : ∀ id < s.store.next, t.store.cells.find? id = s.store.cells.find? id := by
    intro id old
    have image := mirror.store.find? id
    rw [fixed id old] at image
    rw [image]
    cases found : s.store.cells.find? id with
    | none => rfl
    | some cell =>
        have same := Store.rename_of_value? sound fixed (Heap.value?_of_find? found)
        exact congrArg (fun node => some (Cell.mk node cell.count)) same
  cases found : t.store.cells.find? id with
  | some cell =>
      obtain ⟨id', node, same, alive⟩ := Store.image_of_not_stranded
        (Heap.value?_of_find? found) (mirror.store.not_stranded id)
      have used := sound.used alive
      rw [fixed id' used] at same
      rw [← found, old id (same ▸ used)]
  | none =>
      cases found' : s.store.cells.find? id with
      | none => rfl
      | some cell =>
          rw [← old id (sound.used (Heap.value?_of_find? found')), found] at found'
          cases found'

theorem lost_eq_nil_of_find?
    (sound' : t.store.Sound t.roots)
    (same : ∀ id, t.store.cells.find? id = s.store.cells.find? id) :
    s.lost t = [] := by
  refine List.filter_eq_nil_iff.mpr fun thing member => ?_
  rw [decide_eq_true_iff, references_eq_zero_iff sound', same]
  intro gone
  have alive := Store.mem_things_iff.mp member
  rw [Heap.value?, gone] at alive
  cases alive

theorem newborn_eq_nil_of_find?
    (sound : s.store.Sound s.roots)
    (same : ∀ id, t.store.cells.find? id = s.store.cells.find? id) :
    s.newborn t = [] := by
  refine List.filter_eq_nil_iff.mpr fun thing member => ?_
  rw [decide_eq_true_iff, Nat.not_le]
  have alive := Store.mem_things_iff.mp member
  rw [Heap.value?, same] at alive
  exact sound.used alive

end Same

theorem lawful_source
    (s : State) (argument : Argument) :
    (s.source argument).Lawful := by
  cases argument with
  | fresh expression => exact expression.lawful_evaluate.map _
  | slot name =>
      intro e failed
      cases found : s.slots.find? name with
      | none =>
          have missing : s.slot name = .error (.noSlot name) := by
            rw [slot, found]
          rw [source, missing] at failed
          cases failed
      | some ref =>
          have held : s.slot name = .ok ref := by
            rw [slot, found]
          rw [source, held] at failed
          cases failed

/-- A call that is rejected frees what was made for it. -/
theorem freed_of_rejected
    {e : CallError} {name : String}
    (sound : s.store.Sound s.roots)
    (rejected : (s.call arguments name).2.reply = .failed (.rejected e))
    (same : ∀ id, (s.call arguments name).1.store.cells.find? id = s.store.cells.find? id) :
    (s.call arguments name).2.freed = sortNames (arguments.inOrder.flatMap Argument.names) := by
  have shift := shift_call sound arguments name
  have freed := freed_perm sound shift
  rw [lost_eq_nil_of_find? shift.sound same, newborn_eq_nil_of_find? sound same, List.map_nil,
    List.append_nil, List.nil_append] at freed
  cases evaluated : (s.sources arguments).result with
  | error failure =>
      rw [call, evaluating, evaluated] at rejected
      cases rejected
      exact absurd evaluated (arguments.lawful_evaluate s.lawful_source e)
  | ok sources =>
      have written := (arguments.accounts_evaluate s.accounts_source).made_perm evaluated
      exact (freed.trans (written.trans (List.mergeSort_perm _ _).symm)).eq_of_pairwise
        (fun _ _ _ _ => String.le_antisymm) (pairwise_freed s (.call arguments name))
        (pairwise_sortNames _)

end State

/-- **A failing call is invisible.**  Take any call, in any state that steps lead to.

* If it fails, for whatever reason, then its slot and all others keep what they held, every object
  that was there has the same contents and the same count, and no other is there; the filter stays,
  nothing is logged, and none of the opaque things that were there is lost.
* If it is rejected, it frees exactly the opaque things that are written in its arguments, at any
  depth, told in order.
* If it fails, a session without it has the entries of all other steps, and the last one, unchanged,
  whatever steps come after it. -/
theorem failed_call_invisible
    (filter : Filter) (before after : List Step) (arguments : Arguments Argument) (name : String) :
    let s := (machine.run (State.initial filter) before).1
    let s' := (s.step (.call arguments name)).1
    let effect := (s.step (.call arguments name)).2
    (∀ failure, effect.reply = .failed failure →
      s'.slots = s.slots ∧ (∀ id, s'.store.cells.find? id = s.store.cells.find? id) ∧
      s'.filter = s.filter ∧ effect.log = [] ∧ s.lost s' = []) ∧
    (∀ e, effect.reply = .failed (.rejected e) →
      effect.freed = sortNames (arguments.inOrder.flatMap Argument.names)) ∧
    (∀ failure, effect.reply = .failed failure →
      transcript filter (before ++ after) =
        (transcript filter (before ++ .call arguments name :: after)).eraseIdx before.length) := by
  intro s s' effect
  have sound : s.store.Sound s.roots := State.sound_run before (State.sound_initial filter)
  have sound' : s'.store.Sound s'.roots := (State.shift_call sound arguments name).sound
  have same : ∀ {failure}, effect.reply = .failed failure →
      ∀ id, s'.store.cells.find? id = s.store.cells.find? id := by
    intro failure failed
    obtain ⟨-, gap, mirror⟩ := State.mirror_of_failed sound failed
    exact State.find?_of_mirror mirror fun _ old => Store.passOver_of_lt old gap
  refine ⟨fun failure failed => ?_, fun e rejected => ?_, fun failure failed => ?_⟩
  · obtain ⟨quiet, gap, mirror⟩ := State.mirror_of_failed sound failed
    exact ⟨State.slots_eq_of_mirror mirror fun _ old => Store.passOver_of_lt old gap, same failed,
      mirror.filter, quiet, State.lost_eq_nil_of_find? sound' (same failed)⟩
  · exact State.freed_of_rejected sound rejected (same rejected)
  · obtain ⟨-, gap, mirror⟩ := State.mirror_of_failed sound failed
    have entries := mirror.entries sound' after
    have ended := mirror.run after fun _ _ _ _ => List.not_mem_nil
    have last := ended.last (State.sound_run after sound')
    have length := machine.length_run (State.initial filter) before
    rw [transcript, transcript, Machine.transcript_append, Machine.transcript_append,
      List.eraseIdx_append_of_length_le (Nat.le_of_eq length), length, Nat.sub_self]
    have rest := congrArg₂ (fun entries last => entries ++ [last]) entries last
    exact congrArg ((machine.run (State.initial filter) before).2 ++ ·) rest.symm

/-- A call with three arguments, one of which is new and holds opaque things at two depths. -/
theorem failed_call_invisible_nested :
    let before : List Step := [.new "x" (.named "o")]
    let arguments : Arguments Argument :=
      ⟨[.fresh (.list [.named "n", .tuple [.named "m"]]), .slot "x", .slot "x"], []⟩
    let s := (machine.run (State.initial .off) before).1
    let called := s.step (.call arguments "x")
    called.2.reply = .failed (.rejected (.tooMany 3)) ∧
      called.2.freed = sortNames ["n", "m"] ∧
      called.1.slots.find? "x" = some (.object 0) ∧ s.lost called.1 = [] := by
  intro before arguments s called
  obtain ⟨unchanged, freed, -⟩ := failed_call_invisible .off before [] arguments "x"
  obtain ⟨slots, -, -, -, lost⟩ := unchanged _ rfl
  exact ⟨rfl, freed _ rfl, congrArg (Table.find? · "x") slots, lost⟩

end Session
end SharedPair
