import SharedPair.Proofs.Call.Replacement
import SharedPair.Proofs.Object.Likeness

/-!
# A session and its mirror

Two sessions take the same steps, the second with slots of its own that the steps never
name.  If its store mirrors that of the first, with the references in those slots as
guests, then every step gives both the same answer and the same log, and leaves a
mirror again.

The slots that are aside hold their guests alive, and whatever the guests lead to; what
that means for the things that are freed is told in the comparison of two sessions.
-/

namespace SharedPair
namespace Session

open Store (InStep Makes MakesAll strays)

/-! ## The slots that a step names -/

/-- The slots that an argument names. -/
def Argument.slots : Argument → List String
  | .fresh _ => []
  | .slot name => [name]

/-- The slots that a step names. -/
def Step.slots : Step → List String
  | .new name _ => [name]
  | .alias source name => [source, name]
  | .call arguments name => name :: arguments.inOrder.flatMap Argument.slots
  | .get source _ name => [source, name]
  | .set container _ value => container :: value.slots
  | .append container value => container :: value.slots
  | .drop name => [name]
  | .same first second => [first, second]
  | .length name => [name]
  | .display name => [name]
  | .setFilter _ => []

namespace State

variable {ρ : Nat → Nat} {kept : Nat → Prop} {aside : List (String × Ref)} {inHand : List Ref}
  {s t : State}

/-- The second session has the slots of the first, and some aside; what a step under way has in its
hand corresponds as well. -/
structure Mirror (ρ : Nat → Nat) (kept : Nat → Prop) (aside : List (String × Ref))
    (inHand : List Ref) (s t : State) : Prop where
  store : Store.Mirror ρ kept (aside.map Prod.snd) s.store (inHand ++ s.roots) t.store
  inStep : InStep ρ s.store t.store
  slots : t.slots.Follows (aside.map Prod.fst) (Ref.rename ρ) s.slots
  apart : ∀ given ∈ aside, t.slots.find? given.1 = some given.2
  filter : t.filter = s.filter

/-- What the two sessions come to in a step. -/
structure Agrees (ρ : Nat → Nat) (kept : Nat → Prop) (aside : List (String × Ref))
    (x y : State × Effect) : Prop where
  mirror : Mirror ρ kept aside [] x.1 y.1
  reply : y.2.reply = x.2.reply
  log : y.2.log = x.2.log

namespace Mirror

/-! ## Looking things up -/

theorem slot
    (mirror : Mirror ρ kept aside inHand s t)
    {name : String}
    (seen : name ∉ aside.map Prod.fst) :
    t.slot name = (s.slot name).map (Ref.rename ρ) := by
  unfold State.slot
  rw [mirror.slots.find? seen]
  cases s.slots.find? name <;> rfl

theorem source
    (mirror : Mirror ρ kept aside inHand s t)
    {argument : Argument}
    (seen : ∀ name ∈ argument.slots, name ∉ aside.map Prod.fst) :
    t.source argument = (s.source argument).map (Source.rename ρ) := by
  cases argument with
  | fresh expression =>
      rw [State.source, State.source, Evaluation.map_map]
      rfl
  | slot name =>
      rw [State.source, State.source, mirror.slot (seen name (List.mem_singleton_self _))]
      cases s.slot name <;> rfl

theorem sources
    (mirror : Mirror ρ kept aside inHand s t)
    {arguments : Arguments Argument}
    (seen : ∀ name ∈ arguments.inOrder.flatMap Argument.slots, name ∉ aside.map Prod.fst) :
    t.sources arguments = (s.sources arguments).map (Arguments.map (Source.rename ρ)) :=
  Arguments.evaluate_map (Source.names_rename ρ) fun argument member =>
    mirror.source fun name inside => seen name (List.mem_flatMap.mpr ⟨argument, member, inside⟩)

theorem has_of_slot
    (mirror : Mirror ρ kept aside inHand s t)
    {name : String} {ref : Ref}
    (held : s.slot name = .ok ref) :
    s.store.Has ref :=
  mirror.store.sound.has_of_mem (List.mem_append_right _ (mem_roots_of_slot held))

theorem contents
    (mirror : Mirror ρ kept aside inHand s t)
    {ref : Ref}
    (has : s.store.Has ref) :
    t.store.contents (ref.rename ρ) = (s.store.contents ref).rename ρ :=
  mirror.store.contents has

/-! ## Changes of the store -/

theorem of_stores
    {store store' : Store} {inHand' : List Ref}
    (mirror : Mirror ρ kept aside inHand' s t)
    (stores : Store.Mirror ρ kept (aside.map Prod.snd) store (inHand ++ s.roots) store')
    (inStep : InStep ρ store store') :
    Mirror ρ kept aside inHand { s with store } { t with store := store' } :=
  ⟨stores, inStep, mirror.slots, mirror.apart, mirror.filter⟩

theorem of_makes
    {x y : Ref × Store} {inHand' : List Ref}
    (mirror : Mirror ρ kept aside inHand' s t)
    (inHand : List Ref)
    (made : Makes ρ kept (aside.map Prod.snd) (inHand ++ s.roots) x y) :
    Mirror ρ kept aside (x.1 :: inHand) { s with store := x.2 } { t with store := y.2 } :=
  mirror.of_stores made.mirror made.inStep

theorem of_makesAll
    {x y : List Ref × Store} {inHand' : List Ref}
    (mirror : Mirror ρ kept aside inHand' s t)
    (inHand : List Ref)
    (made : MakesAll ρ kept (aside.map Prod.snd) (inHand ++ s.roots) x y) :
    Mirror ρ kept aside (x.1 ++ inHand) { s with store := x.2 } { t with store := y.2 } := by
  refine mirror.of_stores ?_ made.inStep
  rw [List.append_assoc]
  exact made.mirror

theorem perm
    {inHand' : List Ref}
    (mirror : Mirror ρ kept aside inHand s t)
    (same : inHand.Perm inHand') :
    Mirror ρ kept aside inHand' s t :=
  { mirror with store := mirror.store.perm (same.append_right _) (.refl _) }

theorem discard
    (refs : List Ref)
    (mirror : Mirror ρ kept aside (refs ++ inHand) s t) :
    Mirror ρ kept aside inHand (s.discard refs).1 (t.discard (refs.map (Ref.rename ρ))).1 where
  store := by
    have store := mirror.store
    rw [List.append_assoc] at store
    exact store.release
  inStep := mirror.inStep
  slots := mirror.slots
  apart := mirror.apart
  filter := mirror.filter

/-- A slot takes over a reference that is in the hand, and the one that was there comes into it. -/
theorem place
    (mirror : Mirror ρ kept aside (ref :: inHand) s t)
    {name : String}
    (seen : name ∉ aside.map Prod.fst) :
    Mirror ρ kept aside ((s.slots.find? name).toList ++ inHand)
      { s with slots := s.slots.insert name ref }
      { t with slots := t.slots.insert name (ref.rename ρ) } where
  store := by
    refine mirror.store.perm ?_ (.refl _)
    have placed := Table.values_insert_perm s.slots name ref
    cases found : s.slots.find? name with
    | none =>
        rw [Table.erase_of_find?_eq_none found] at placed
        exact List.perm_middle.symm.trans (placed.symm.append_left inHand)
    | some old =>
        have before := Table.values_perm_erase found
        calc
          (ref :: (inHand ++ s.roots)).Perm
              (ref :: (inHand ++ old :: (s.slots.erase name).values)) :=
            (before.append_left inHand).cons ref
          _ |>.Perm (ref :: old :: (inHand ++ (s.slots.erase name).values)) :=
            List.perm_middle.cons ref
          _ |>.Perm (old :: ref :: (inHand ++ (s.slots.erase name).values)) :=
            .swap _ _ _
          _ |>.Perm (old :: (inHand ++ ref :: (s.slots.erase name).values)) :=
            List.perm_middle.symm.cons old
          _ |>.Perm (old :: (inHand ++ (s.slots.insert name ref).values)) :=
            (placed.symm.append_left inHand).cons old
  inStep := mirror.inStep
  slots := mirror.slots.insert seen ref
  apart given member := by
    show (t.slots.insert name _).find? given.1 = _
    rw [Table.find?_insert, if_neg, mirror.apart given member]
    rintro rfl
    exact seen (List.mem_map_of_mem member)
  filter := mirror.filter

theorem hold
    {ref : Ref}
    (mirror : Mirror ρ kept aside (ref :: inHand) s t)
    {name : String}
    (seen : name ∉ aside.map Prod.fst) :
    Mirror ρ kept aside inHand (s.hold name ref).1 (t.hold name (ref.rename ρ)).1 := by
  have placed := mirror.place seen
  unfold State.hold
  rw [mirror.slots.find? seen]
  cases found : s.slots.find? name with
  | none =>
      rw [found] at placed
      exact placed
  | some old =>
      rw [found] at placed
      exact placed.discard [old]

theorem erase
    (mirror : Mirror ρ kept aside [] s t)
    {name : String} {ref : Ref}
    (seen : name ∉ aside.map Prod.fst)
    (found : s.slots.find? name = some ref) :
    Mirror ρ kept aside [ref] { s with slots := s.slots.erase name }
      { t with slots := t.slots.erase name } where
  store := mirror.store.perm (Table.values_perm_erase found) (.refl _)
  inStep := mirror.inStep
  slots := mirror.slots.erase seen
  apart given member := by
    show (t.slots.erase name).find? given.1 = _
    rw [Table.find?_erase, if_neg, mirror.apart given member]
    rintro rfl
    exact seen (List.mem_map_of_mem member)
  filter := mirror.filter

/-! ## The parts of a step -/

theorem answer
    (mirror : Mirror ρ kept aside [] s t)
    (reply : Reply) :
    Agrees ρ kept aside (s.answer reply) (t.answer reply) :=
  ⟨mirror, rfl, rfl⟩

theorem ask
    (mirror : Mirror ρ kept aside [] s t)
    {question question' : Except Failure Reply}
    (same : question' = question) :
    Agrees ρ kept aside (s.ask question) (t.ask question') := by
  rw [same]
  cases question <;> exact mirror.answer _

theorem done_hold
    {ref : Ref}
    (mirror : Mirror ρ kept aside [ref] s t)
    {name : String}
    (seen : name ∉ aside.map Prod.fst) :
    Agrees ρ kept aside (done (s.hold name ref)) (done (t.hold name (ref.rename ρ))) :=
  ⟨mirror.hold seen, rfl, rfl⟩

theorem giveUp
    {refs : List Ref}
    (mirror : Mirror ρ kept aside refs s t)
    (failure : Failure) :
    Agrees ρ kept aside (s.giveUp refs failure) (t.giveUp (refs.map (Ref.rename ρ)) failure) := by
  rw [← List.append_nil refs] at mirror
  exact ⟨mirror.discard refs, rfl, rfl⟩

theorem evaluating
    {α β : Type} {made : Evaluation α} {f : α → β} {next : α → State × Effect}
    {next' : β → State × Effect}
    (mirror : Mirror ρ kept aside [] s t)
    (further : ∀ a, made.result = .ok a → Agrees ρ kept aside (next a) (next' (f a))) :
    Agrees ρ kept aside (s.evaluating made next) (t.evaluating (made.map f) next') := by
  rcases made with ⟨result, ended⟩
  cases result with
  | error failure => exact ⟨mirror, rfl, rfl⟩
  | ok a =>
      obtain ⟨after, reply, log⟩ := further a rfl
      exact ⟨after, reply, log⟩

theorem packInto
    {given : List Ref} {first second : Ref}
    (mirror : Mirror ρ kept aside given s t)
    (member : first ∈ given) (member' : second ∈ given)
    {name : String}
    (seen : name ∉ aside.map Prod.fst) :
    Agrees ρ kept aside (s.packInto name given first second)
      (t.packInto name (given.map (Ref.rename ρ)) (first.rename ρ) (second.rename ρ)) := by
  have sound := mirror.store.sound
  have made := mirror.store.pack mirror.inStep
    (sound.has_of_mem (List.mem_append_left _ member))
    (sound.has_of_mem (List.mem_append_left _ member')) s.filter t.filter
  have packed := mirror.of_makes given made
  have called := (packed.perm (List.perm_append_singleton _ _).symm).discard given
  refine ⟨?_, rfl, ?_⟩
  · rw [packInto_fst, packInto_fst, made.ref]
    exact called.hold seen
  · rw [packInto_log, packInto_log, mirror.filter]

theorem call
    (mirror : Mirror ρ kept aside [] s t)
    {arguments : Arguments Argument} {name : String}
    (seen : ∀ slot ∈ (Step.call arguments name).slots, slot ∉ aside.map Prod.fst) :
    Agrees ρ kept aside (s.call arguments name) (t.call arguments name) := by
  unfold State.call
  rw [mirror.sources fun slot member => seen slot (List.mem_cons_of_mem _ member)]
  refine mirror.evaluating fun sources evaluated => ?_
  obtain ⟨given, made⟩ := mirror.store.takeArguments mirror.inStep (there_of_sources evaluated)
  have taken := mirror.of_makesAll [] made
  rw [List.append_nil] at taken
  simp only [given, Arguments.bind_map, Arguments.inOrder_map]
  cases bound : (s.store.takeArguments sources).1.bind with
  | ok both =>
      obtain ⟨member, member'⟩ := Arguments.mem_inOrder_of_bind bound
      exact taken.packInto member member' (seen name List.mem_cons_self)
  | error e =>
      exact taken.giveUp (.rejected e)

theorem get
    (mirror : Mirror ρ kept aside [] s t)
    {source name : String}
    (seen : source ∉ aside.map Prod.fst) (seen' : name ∉ aside.map Prod.fst)
    (index : Index) :
    Agrees ρ kept aside (s.get source index name) (t.get source index name) := by
  unfold State.get
  rw [mirror.slot seen]
  cases held : s.slot source with
  | error failure => exact mirror.answer _
  | ok container =>
      simp only [Except.map]
      rw [mirror.contents (mirror.has_of_slot held), Node.item_rename]
      cases read : (s.store.contents container).item index with
      | error failure => exact mirror.answer _
      | ok item =>
          cases item with
          | ref item =>
              have has := Store.has_of_contents mirror.store.sound (Node.mem_positions_of_item read)
              have made : Makes ρ kept (aside.map Prod.snd) s.roots (item, s.store.acquire item)
                  (item.rename ρ, t.store.acquire (item.rename ρ)) :=
                ⟨rfl, mirror.store.acquire has, Store.Mirror.inStep_acquire mirror.inStep⟩
              exact (mirror.of_makes [] made).done_hold seen'
          | atom a =>
              have made := mirror.store.atom a mirror.inStep
              have stored := (mirror.of_makes [] made).done_hold seen'
              rw [← made.ref] at stored
              exact stored

theorem change
    {how : Node → Ref → Node → Except Failure Node.Change}
    (mirror : Mirror ρ kept aside [] s t)
    (exchange : ∀ {node ref content change}, how node ref content = .ok change →
      node.Exchange ref change)
    (renamed : ∀ node ref content, how (node.rename ρ) (ref.rename ρ) (content.rename ρ) =
      (how node ref content).map (Node.Change.rename ρ))
    {container : String} {value : Argument}
    (seen : container ∉ aside.map Prod.fst)
    (seen' : ∀ slot ∈ value.slots, slot ∉ aside.map Prod.fst) :
    Agrees ρ kept aside (s.change container value how) (t.change container value how) := by
  unfold State.change
  rw [mirror.source seen']
  refine mirror.evaluating fun source evaluated => ?_
  have made := mirror.store.take mirror.inStep (there_of_source evaluated)
  have taken := mirror.of_makes [] made
  have has := made.mirror.sound.has_of_mem List.mem_cons_self
  simp only [made.ref, mirror.slot seen]
  cases held : s.slot container with
  | error failure =>
      exact taken.giveUp failure
  | ok target =>
      have has' := made.mirror.sound.has_of_mem
        (List.mem_cons_of_mem _ (mem_roots_of_slot held))
      have changed := renamed ((s.store.take source).2.contents target) (s.store.take source).1
        ((s.store.take source).2.contents (s.store.take source).1)
      rw [← made.mirror.contents has', ← made.mirror.contents has] at changed
      cases done : how ((s.store.take source).2.contents target) (s.store.take source).1
          ((s.store.take source).2.contents (s.store.take source).1) with
      | error failure =>
          rw [done] at changed
          simp only [Except.map, bind, Except.bind, changed, done]
          exact taken.giveUp failure
      | ok change =>
          rw [done] at changed
          simp only [Except.map, bind, Except.bind, pure, Except.pure, changed, done]
          have written := made.mirror.exchange (exchange done)
          rw [← List.append_assoc] at written
          have after := mirror.of_stores written (Store.Mirror.inStep_write made.inStep)
          exact ⟨after.discard _, rfl, rfl⟩

theorem append
    (mirror : Mirror ρ kept aside [] s t)
    {container : String} {value : Argument}
    (seen : container ∉ aside.map Prod.fst)
    (seen' : ∀ slot ∈ value.slots, slot ∉ aside.map Prod.fst) :
    Agrees ρ kept aside (s.append container value) (t.append container value) := by
  unfold State.append
  rw [mirror.slot seen]
  cases held : s.slot container with
  | error failure => exact mirror.answer _
  | ok ref =>
      simp only [Except.map]
      rw [mirror.contents (mirror.has_of_slot held), Node.isGrowable_rename, Node.kind_rename]
      by_cases h : (s.store.contents ref).isGrowable = true
      · rw [if_pos h, if_pos h]
        exact mirror.change Node.exchange_append (fun node ref content =>
          Node.append_rename node content ref) seen seen'
      · rw [if_neg h, if_neg h]
        exact mirror.answer _

theorem remove
    (mirror : Mirror ρ kept aside [] s t)
    {name : String}
    (seen : name ∉ aside.map Prod.fst) :
    Agrees ρ kept aside (s.remove name) (t.remove name) := by
  unfold State.remove
  rw [mirror.slot seen]
  cases held : s.slot name with
  | error failure => exact mirror.answer _
  | ok ref =>
      have erased := mirror.erase seen (find?_of_slot held)
      exact ⟨erased.discard [ref], rfl, rfl⟩

/-- **One step.**  A step that names no slot of the second session alone gives both the same reply
and the same log. -/
theorem step
    (mirror : Mirror ρ kept aside [] s t)
    (step : Step)
    (seen : ∀ slot ∈ step.slots, slot ∉ aside.map Prod.fst) :
    Agrees ρ kept aside (s.step step) (t.step step) := by
  cases step with
  | new name expression =>
      have same : expression.evaluate = expression.evaluate.map id := by
        rcases expression.evaluate with ⟨result, ended⟩
        cases result <;> rfl
      rw [State.step, State.step]
      nth_rewrite 2 [same]
      refine mirror.evaluating fun form _ => ?_
      have made := Store.makes_make form mirror.store mirror.inStep
      have stored := (mirror.of_makes [] made).done_hold
        (seen name (List.mem_singleton_self _))
      rw [← made.ref] at stored
      exact stored
  | «alias» source name =>
      rw [State.step, State.step, mirror.slot (seen source List.mem_cons_self)]
      cases held : s.slot source with
      | error failure => exact mirror.answer _
      | ok ref =>
          have made : Makes ρ kept (aside.map Prod.snd) s.roots (ref, s.store.acquire ref)
              (ref.rename ρ, t.store.acquire (ref.rename ρ)) :=
            ⟨rfl, mirror.store.acquire (mirror.has_of_slot held),
              Store.Mirror.inStep_acquire mirror.inStep⟩
          exact (mirror.of_makes [] made).done_hold
            (seen name (List.mem_cons_of_mem _ (List.mem_singleton_self _)))
  | call arguments name => exact mirror.call seen
  | get source index name =>
      exact mirror.get (seen source List.mem_cons_self)
        (seen name (List.mem_cons_of_mem _ (List.mem_singleton_self _))) index
  | set container index value =>
      rw [State.step, State.step]
      exact mirror.change Node.exchange_assign
        (fun node ref content => Node.assign_rename node content index ref)
        (seen container List.mem_cons_self) fun slot member =>
          seen slot (List.mem_cons_of_mem _ member)
  | append container value =>
      exact mirror.append (seen container List.mem_cons_self) fun slot member =>
        seen slot (List.mem_cons_of_mem _ member)
  | drop name => exact mirror.remove (seen name (List.mem_singleton_self _))
  | same first second =>
      refine mirror.ask ?_
      rw [mirror.slot (seen first List.mem_cons_self),
        mirror.slot (seen second (List.mem_cons_of_mem _ (List.mem_singleton_self _)))]
      cases s.slot first with
      | error failure => rfl
      | ok x =>
          cases s.slot second with
          | error failure => rfl
          | ok y =>
              have injective := Ref.rename_injective mirror.store.injective
              exact congrArg (Except.ok ∘ Reply.truth) (decide_eq_decide.mpr injective.eq_iff)
  | length name =>
      refine mirror.ask ?_
      rw [mirror.slot (seen name (List.mem_singleton_self _))]
      cases held : s.slot name with
      | error failure => rfl
      | ok ref =>
          simp only [Except.map, bind, Except.bind]
          rw [mirror.contents (mirror.has_of_slot held), Node.length_rename]
  | display name =>
      refine mirror.ask ?_
      rw [mirror.slot (seen name (List.mem_singleton_self _))]
      cases held : s.slot name with
      | error failure => rfl
      | ok ref =>
          simp only [Except.map, bind, Except.bind]
          rw [mirror.store.form (mirror.has_of_slot held)]
  | setFilter filter =>
      exact ⟨⟨mirror.store, mirror.inStep, mirror.slots, mirror.apart, rfl⟩, rfl, rfl⟩

/-- Both sessions make the same opaque things. -/
theorem made
    (mirror : Mirror ρ kept aside [] s t)
    {step : Step}
    (seen : ∀ slot ∈ step.slots, slot ∉ aside.map Prod.fst) :
    step.made t = step.made s := by
  have source : ∀ {value : Argument}, (∀ slot ∈ value.slots, slot ∉ aside.map Prod.fst) →
      (t.source value).made Source.names = (s.source value).made Source.names := by
    intro value seen
    rw [mirror.source seen]
    exact Evaluation.made_map (Source.names_rename ρ) _
  cases step with
  | call arguments name =>
      rw [Step.made, Step.made, mirror.sources fun slot member =>
        seen slot (List.mem_cons_of_mem _ member)]
      refine Evaluation.made_map (fun sources => ?_) _
      rw [Arguments.inOrder_map, List.flatMap_map]
      exact congrArg (List.flatMap · sources.inOrder) (funext (Source.names_rename ρ))
  | set container index value =>
      exact source fun slot member => seen slot (List.mem_cons_of_mem _ member)
  | append container value =>
      rw [Step.made, Step.made, mirror.slot (seen container List.mem_cons_self)]
      cases held : s.slot container with
      | error failure => rfl
      | ok ref =>
          simp only [Except.map]
          rw [mirror.contents (mirror.has_of_slot held), Node.isGrowable_rename,
            source fun slot member => seen slot (List.mem_cons_of_mem _ member)]
  | _ => rfl

end Mirror

/-! ## A state as its own mirror -/

theorem follows_self
    {ρ : Nat → Nat}
    (sound : s.store.Sound s.roots)
    (fixed : ∀ id < s.store.next, ρ id = id) :
    s.slots.Follows [] (Ref.rename ρ) s.slots := by
  refine (List.filter_eq_self.mpr fun _ _ => decide_eq_true List.not_mem_nil).trans ?_
  refine ((List.map_congr_left fun entry member => ?_).trans (List.map_id _)).symm
  have held := Table.mem_values_iff.mpr ⟨entry.1, Table.mem_entries_iff.mp member⟩
  exact congrArg (Prod.mk entry.1) (Store.rename_of_has sound fixed (sound.has_of_mem held))

/-- A state with one store mirrors the state with another, if the stores do and what is in use in
the slots is left as it is. -/
theorem mirror_of_stores
    {ρ : Nat → Nat} {kept : Nat → Prop} {store store' : Store} {inHand : List Ref}
    (sound : s.store.Sound s.roots)
    (fixed : ∀ id < s.store.next, ρ id = id)
    (mirror : Store.Mirror ρ kept [] store (inHand ++ s.roots) store')
    (inStep : Store.InStep ρ store store') :
    Mirror ρ kept [] inHand { s with store } { s with store := store' } where
  store := mirror
  inStep := inStep
  slots := follows_self (s := s) sound fixed
  apart given member := by
    cases member
  filter := rfl

end State
end Session
end SharedPair
