import SharedPair.Proofs.Script.Packing
import SharedPair.Proofs.Script.Panics

/-!
# A pack as two clones

A pack clones its first value and then its second, and the second copy starts in the
memory that the first one leaves.  So does the clone of the second path after that of
the first: the first clone adds a slot, handles and attempts, but it changes no value
that a path leads through.

The two forms differ in what a refusal undoes.  A pack that the second value stops gives
up the finished copy of the first; a clone that was finished earlier keeps its slot.
-/

namespace SharedPair

namespace Value

variable {x y x' y' : Value} {memory between after : Memory} {earlier later : List Event}

/-- A pair is copied when its components are, one after the other. -/
theorem clone_pair_of_ok
    (one : x.clone memory = ⟨.ok x', between, earlier⟩)
    (two : y.clone between = ⟨.ok y', after, later⟩) :
    (Value.pair x y).clone memory = ⟨.ok (.pair x' y'), after, earlier ++ later⟩ := by
  have right : (Copying.holding x' y.clone >>= fun y' => pure (x', y')) between =
      ⟨.ok (x', y'), after, later ++ []⟩ :=
    Copying.bind_of_ok (Copying.mapAbort_of_ok two _) _
  have parts : Copying.both x.clone y.clone memory =
      ⟨.ok (x', y'), after, earlier ++ (later ++ [])⟩ := by
    refine Copying.mapAbort_of_ok ?_ _
    rw [Copying.bind_of_ok one, right]
  rw [clone, Copying.bind_of_ok parts]
  show Progress.mk _ _ (_ ++ []) = _
  rw [List.append_nil, List.append_nil]
  rfl

end Value

namespace Script
namespace State

variable {s : State} {first second path : Path} {x y : Value} {name left right : String}

theorem step_clone
    (reached : s.resolve path = .ok x)
    (name : String) :
    s.step (.clone path name) = s.storeCopy name x.clone := by
  rw [step, reached]

/-- A finished copy goes into an unused slot, and that is all. -/
theorem storeCopy_of_ok
    {copy : Copying Value} {made : Value} {after : Memory} {events : List Event}
    (finished : copy s.memory = ⟨.ok made, after, events⟩)
    (free : s.slots.find? name = none) :
    s.storeCopy name copy =
      ({ s with slots := s.slots.insert name made, memory := after }, ⟨.done, events⟩) := by
  rw [storeCopy, Copying.run_of_ok finished]
  simp only [store, free, List.append_nil]

/-- A refused copy leaves the same for every slot. -/
theorem storeCopy_of_error
    {copy : Copying Value} {abort : Abort} {after : Memory} {events : List Event}
    (refused : copy s.memory = ⟨.error abort, after, events⟩)
    (name : String) :
    s.storeCopy name copy =
      ({ s with memory := (after.release abort.finished).1 },
        ⟨.fault (.refused abort.refusal), events ++ (after.release abort.finished).2⟩) := by
  rw [storeCopy, Copying.run_of_error refused]

/-- A pair is taken apart into two unused slots. -/
theorem split_of_pair
    {source : String}
    (held : s.slots.find? source = some (.pair x y))
    (free : (s.slots.erase source).find? left = none)
    (free' : ((s.slots.erase source).insert left x).find? right = none) :
    s.split source left right =
      ({ s with slots := ((s.slots.erase source).insert left x).insert right y }, ⟨.done, []⟩) := by
  have found : s.slot source = .ok (.pair x y) := by
    rw [slot, held]
  rw [split, found]
  simp only [store, vacate, free, free', List.append_nil]

/-- What a pack comes to beside the clone of its first path and the clone of its second after it,
when both paths are valid. -/
inductive ByClones (s : State) (name left right : String) :
    (packed one two : State × Effect) → Prop
  | made
      {x' y' : Value} {between after : Memory} {earlier later : List Event} :
      ByClones s name left right
        ({ s with slots := s.slots.insert name (.pair x' y'), memory := after },
          ⟨.done, earlier ++ later ++ (s.filter.log packRecord).map .logged⟩)
        ({ s with slots := s.slots.insert left x', memory := between }, ⟨.done, earlier⟩)
        ({ s with slots := (s.slots.insert left x').insert right y', memory := after },
          ⟨.done, later⟩)
  | firstRefused
      {one two : State × Effect} {refusal : Refusal}
      (stopped : one.2.reply = .fault (.refused refusal)) :
      ByClones s name left right one one two
  | secondRefused
      {one two : State} {refusal : Refusal} {earlier events later : List Event}
      (families : List Family)
      (counted : two.memory.families = families) :
      ByClones s name left right
        ({ s with memory := ⟨s.memory.cells, families⟩ },
          ⟨.fault (.refused refusal), earlier ++ events⟩)
        (one, ⟨.done, earlier⟩) (two, ⟨.fault (.refused refusal), later⟩)

/-- A clone into an unused slot leaves every other path where it leads. -/
theorem resolve_clone
    (reached : s.resolve first = .ok x)
    (done : (s.step (.clone first left)).2.reply = .done)
    (free : s.slots.find? left = none) (apart : path.slot ≠ left) :
    (s.step (.clone first left)).1.resolve path = s.resolve path := by
  have alone := step_clone reached left
  cases refusal : (s.memory.copyLeaves x.leaves).refusal with
  | some refused =>
      obtain ⟨abort, stopped, -⟩ := Value.clone_of_refused refusal
      rw [alone, storeCopy_of_error stopped] at done
      cases done
  | none =>
      obtain ⟨x', finished, -, -⟩ := Value.clone_of_accepted refusal
      rw [alone, storeCopy_of_ok finished free]
      refine resolve_of_values ?_ fun id => Memory.value?_copyLeaves id x.leaves s.memory
      rw [Table.find?_insert, if_neg (Ne.symm apart)]

theorem byClones
    (owned : s.Owned)
    (reached : s.resolve first = .ok x) (reached' : s.resolve second = .ok y)
    (free : s.slots.find? name = none) (freeLeft : s.slots.find? left = none)
    (freeRight : s.slots.find? right = none) (apart : left ≠ right)
    (outside : second.slot ≠ left) :
    ByClones s name left right (s.step (.pack first second name)) (s.step (.clone first left))
      ((s.step (.clone first left)).1.step (.clone second right)) := by
  have one := step_clone reached left
  cases refusal : (s.memory.copyLeaves x.leaves).refusal with
  | some refused =>
      obtain ⟨abort, stopped, -⟩ := Value.clone_of_refused refusal
      have refused := storeCopy_of_error stopped
      have packed := step_pack_of_refused_first reached reached' refusal name
      rw [packed, step_clone reached, one, refused, refused]
      exact .firstRefused rfl
  | none =>
      obtain ⟨x', finished, -, -⟩ := Value.clone_of_accepted refusal
      have stored := storeCopy_of_ok finished freeLeft
      have done : (s.step (.clone first left)).2.reply = .done := by
        rw [one, stored]
      have still := (resolve_clone reached done freeLeft outside).trans reached'
      have positive := (owned_step owned (.clone first left)).counted.positive
      have two := step_clone still right
      rw [two]
      rw [one, stored] at positive ⊢
      have whole := Memory.copyLeaves_append s.memory y.leaves x.leaves
      rw [Pass.andThen, refusal] at whole
      generalize between : (s.memory.copyLeaves x.leaves).memory = memory at *
      cases refusal' : (memory.copyLeaves y.leaves).refusal with
      | some refused =>
          rw [refusal'] at whole
          obtain ⟨dropped, -, stopped⟩ :=
            storeCopy_of_refused (Copying.copies_clone y) positive refusal' right
          obtain ⟨dropped', -, packed⟩ := step_pack_of_refused reached reached'
            owned.counted.positive (congrArg Pass.refusal whole) name
          rw [stopped, packed, whole, List.append_assoc]
          exact .secondRefused _ rfl
      | none =>
          obtain ⟨y', finished', -, -⟩ := Value.clone_of_accepted refusal'
          have packed := (Copying.copies_packPair s.filter x y).finished
            (Value.clone_pair_of_ok finished finished')
          have unused : (s.slots.insert left x').find? right = none := by
            rw [Table.find?_insert, if_neg apart, freeRight]
          rw [storeCopy_of_ok finished' unused, step_pack reached reached',
            storeCopy_of_ok packed free]
          exact .made

namespace ByClones

variable {packed one two : State × Effect}

theorem split
    (cases : ByClones s name left right packed one two)
    (done : packed.2.reply = .done)
    (free : s.slots.find? name = none) (freeLeft : s.slots.find? left = none)
    (freeRight : s.slots.find? right = none) (apart : left ≠ right) :
    packed.1.split name left right = (two.1, ⟨.done, []⟩) ∧
      packed.2.events =
        one.2.events ++ two.2.events ++ (s.filter.log packRecord).map .logged := by
  cases cases with
  | @made x' y' =>
      have gone := Table.erase_insert_of_find?_eq_none free (.pair x' y')
      have held : (s.slots.insert name (.pair x' y')).find? name = some (.pair x' y') := by
        rw [Table.find?_insert, if_pos rfl]
      refine ⟨?_, rfl⟩
      rw [split_of_pair held]
      · rw [gone]
      · rw [gone, freeLeft]
      · rw [gone, Table.find?_insert, if_neg apart, freeRight]
  | firstRefused stopped =>
      rw [stopped] at done
      cases done
  | secondRefused families counted =>
      cases done

theorem refused_iff
    (cases : ByClones s name left right packed one two)
    (refusal : Refusal) :
    packed.2.reply = .fault (.refused refusal) ↔
      one.2.reply = .fault (.refused refusal) ∨
        one.2.reply = .done ∧ two.2.reply = .fault (.refused refusal) := by
  cases cases with
  | made => simp
  | firstRefused stopped => simp [stopped]
  | secondRefused families counted => simp

theorem eq_of_refused_first
    (cases : ByClones s name left right packed one two)
    (refused : one.2.reply ≠ .done) :
    packed = one := by
  cases cases with
  | made => exact absurd rfl refused
  | firstRefused stopped => rfl
  | secondRefused families counted => exact absurd rfl refused

theorem kept_of_refused_second
    (cases : ByClones s name left right packed one two)
    (done : one.2.reply = .done) (refused : two.2.reply ≠ .done) :
    packed.1 = { s with memory := ⟨s.memory.cells, two.1.memory.families⟩ } := by
  cases cases with
  | made => exact absurd rfl refused
  | firstRefused stopped =>
      rw [stopped] at done
      cases done
  | secondRefused families counted => rw [counted]

end ByClones

section Invalid

variable {fault : Fault}

/-- A pack reports the first path that is invalid, and does nothing. -/
theorem step_pack_of_invalid
    (invalid : s.resolve first = .error fault)
    (name : String) :
    s.step (.pack first second name) = s.answer (.fault fault) := by
  rw [step, invalid]

theorem step_pack_of_invalid_second
    (reached : s.resolve first = .ok x) (invalid : s.resolve second = .error fault)
    (name : String) :
    s.step (.pack first second name) = s.answer (.fault fault) := by
  rw [step, reached, invalid]

theorem step_clone_of_invalid
    (invalid : s.resolve path = .error fault)
    (name : String) :
    s.step (.clone path name) = s.answer (.fault fault) := by
  rw [step, invalid]

end Invalid

theorem reply_pack_iff
    (owned : s.Owned)
    (free : s.slots.find? name = none) (freeLeft : s.slots.find? left = none)
    (freeRight : s.slots.find? right = none) (apart : left ≠ right)
    (outside : second.slot ≠ left) :
    (s.step (.pack first second name)).2.reply = .done ↔
      (s.step (.clone first left)).2.reply = .done ∧
        ((s.step (.clone first left)).1.step (.clone second right)).2.reply = .done := by
  cases reached : s.resolve first with
  | error fault =>
      rw [step_pack_of_invalid reached, step_clone_of_invalid reached]
      constructor
      · intro done
        cases done
      · rintro ⟨done, -⟩
        cases done
  | ok x =>
      cases reached' : s.resolve second with
      | error fault =>
          rw [step_pack_of_invalid_second reached reached']
          constructor
          · intro done
            cases done
          · rintro ⟨done, done'⟩
            have later := (resolve_clone reached done freeLeft outside).trans reached'
            rw [step_clone_of_invalid later] at done'
            cases done'
      | ok y =>
          have cases := byClones owned reached reached' free freeLeft freeRight apart outside
          generalize s.step (.pack first second name) = packed at cases
          generalize s.step (.clone first left) = one at cases
          generalize one.1.step (.clone second right) = two at cases
          cases cases with
          | made => simp
          | firstRefused stopped => simp [stopped]
          | secondRefused families counted => simp

end State

/-- What a pack of the values at two paths comes to, beside the clone of the first path and, after
that, of the second, and beside the pair taken apart into the slots of the clones. -/
structure AsTwoClones (s : State) (first second : Path) (packed taken one two : State × Effect) :
    Prop where
  /-- The pack succeeds just when both clones do. -/
  done_iff : packed.2.reply = .done ↔ one.2.reply = .done ∧ two.2.reply = .done
  /-- If it does, to take the pair apart leaves the very state that the clones leave. -/
  same : packed.2.reply = .done → taken.1 = two.1
  /-- That succeeds and has no events. -/
  quiet : packed.2.reply = .done → taken.2 = ⟨.done, []⟩
  /-- The events of the pack are those of the first clone and of the second, and then the record of
  the pair if the filter keeps all records. -/
  events : packed.2.reply = .done →
    packed.2.events = one.2.events ++ two.2.events ++
      (if s.filter = .all then [packRecord] else []).map .logged
  /-- If the first path is invalid, the pack does nothing but report it. -/
  invalid : ∀ fault, s.resolve first = .error fault → packed = s.answer (.fault fault)
  /-- If only the second one is, the pack does nothing but report that. -/
  invalid' : ∀ x fault, s.resolve first = .ok x → s.resolve second = .error fault →
    packed = s.answer (.fault fault)
  /-- If both are valid, the pack is refused just when a clone is, with the refusal of the first
  clone that is. -/
  refused_iff : ∀ x y, s.resolve first = .ok x → s.resolve second = .ok y →
    ∀ refusal, packed.2.reply = .fault (.refused refusal) ↔
      one.2.reply = .fault (.refused refusal) ∨
        one.2.reply = .done ∧ two.2.reply = .fault (.refused refusal)
  /-- A refused first clone leaves what the pack leaves. -/
  refusedFirst : ∀ x y, s.resolve first = .ok x → s.resolve second = .ok y →
    one.2.reply ≠ .done → packed = one
  /-- After a refused second one, the pack leaves just the attempts that both clones counted. -/
  refusedSecond : ∀ x y, s.resolve first = .ok x → s.resolve second = .ok y →
    one.2.reply = .done → two.2.reply ≠ .done →
      packed.1 = { s with memory := ⟨s.memory.cells, two.1.memory.families⟩ }

/-- **A pack is two clones.**  Take any step that packs the values at two paths, in any state that
steps lead to, and three unused slots, none of them the root of a path.  Beside the pack into one of
them take the clone of the first path into another and, after that, the clone of the second path
into the third.  The pack comes to what the clones come to, but undoes both when it is refused. -/
theorem pack_is_two_clones
    (filter : Filter) (steps : List Step) (first second : Path) (name left right : String) :
    let s := (machine.run (State.initial filter) steps).1
    let packed := s.step (.pack first second name)
    let taken := packed.1.step (.take name left right)
    let one := s.step (.clone first left)
    let two := one.1.step (.clone second right)
    [name, left, right].Nodup →
    (∀ slot ∈ [name, left, right],
      s.slots.find? slot = none ∧ first.slot ≠ slot ∧ second.slot ≠ slot) →
      AsTwoClones s first second packed taken one two := by
  intro s packed taken one two distinct unused
  have owned : s.Owned := State.owned_run steps (State.owned_initial filter)
  obtain ⟨⟨free, -⟩, ⟨freeLeft, -, outside⟩, ⟨freeRight, -⟩⟩ :
      (s.slots.find? name = none ∧ _) ∧ (s.slots.find? left = none ∧ _ ∧ second.slot ≠ left) ∧
        (s.slots.find? right = none ∧ _) :=
    ⟨unused name (by simp), unused left (by simp), unused right (by simp)⟩
  obtain ⟨⟨-, -⟩, apart⟩ : (name ≠ left ∧ name ≠ right) ∧ left ≠ right := by
    simpa using distinct
  have cases : ∀ x y, s.resolve first = .ok x → s.resolve second = .ok y →
      s.ByClones name left right packed one two := fun x y reached reached' =>
    State.byClones owned reached reached' free freeLeft freeRight apart outside
  have split : packed.2.reply = .done →
      taken = (two.1, ⟨.done, []⟩) ∧ packed.2.events =
        one.2.events ++ two.2.events ++ (s.filter.log packRecord).map .logged := by
    intro done
    obtain ⟨x, y, reached, reached', -⟩ := State.wrote_of_packs done
    exact (cases x y reached reached').split done free freeLeft freeRight apart
  exact {
    done_iff := State.reply_pack_iff owned free freeLeft freeRight apart outside
    same := fun done => by rw [(split done).1]
    quiet := fun done => by rw [(split done).1]
    events := fun done => by rw [(split done).2, Filter.log_packRecord]
    invalid := fun fault invalid => State.step_pack_of_invalid invalid name
    invalid' := fun x fault reached invalid =>
      State.step_pack_of_invalid_second reached invalid name
    refused_iff := fun x y reached reached' => (cases x y reached reached').refused_iff
    refusedFirst := fun x y reached reached' => (cases x y reached reached').eq_of_refused_first
    refusedSecond := fun x y reached reached' =>
      (cases x y reached reached').kept_of_refused_second }

/-- A probe is packed twice, once within its pair and once by itself: its family refuses the second
clone of the first try. -/
theorem pack_is_two_clones_of_one :
    let steps : List Step :=
      [.new "x" (.pair (.probe "p" [2]) (.cell .withinThread "c" (.scalar .unit)))]
    let s := (machine.run (State.initial .all) steps).1
    let pack := Step.pack ⟨"x", []⟩ ⟨"x", [.first]⟩ "y"
    let one := fun s : State => s.step (.clone ⟨"x", []⟩ "l")
    let two := fun s : State => (one s).1.step (.clone ⟨"x", [.first]⟩ "r")
    let again := (s.step pack).1
    (s.step pack).2.reply = .fault (.refused ⟨⟨"p", 0⟩, 2⟩) ∧
      (s.step pack).1 = { s with memory := ⟨s.memory.cells, (two s).1.memory.families⟩ } ∧
      ((again.step pack).1.step (.take "y" "l" "r")).1 = (two again).1 ∧
      (again.step pack).2.events = (one again).2.events ++ (two again).2.events ++
        [.logged packRecord] := by
  intro steps s pack one two again
  have law := fun steps' : List Step =>
    pack_is_two_clones .all steps' ⟨"x", []⟩ ⟨"x", [.first]⟩ "y" "l" "r"
  have refused := law steps (by decide) (by decide)
  have packed := law (steps ++ [pack]) (by decide) (by decide)
  have same := packed.same rfl
  have events := packed.events rfl
  have later : (machine.run (State.initial .all) (steps ++ [pack])).1 = again := rfl
  have kept : again.filter = .all := rfl
  rw [later] at same events
  rw [if_pos kept] at events
  refine ⟨(refused.refused_iff _ _ rfl rfl _).mpr (.inr ⟨rfl, rfl⟩),
    refused.refusedSecond _ _ rfl rfl rfl nofun, ?_⟩
  clear packed
  clear_value again
  exact ⟨same, events⟩

end Script
end SharedPair
