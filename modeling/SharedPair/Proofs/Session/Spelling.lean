import SharedPair.Proofs.Object.Exchange
import SharedPair.Proofs.Session.Packing

/-!
# The spelling of a call

A call that succeeds can be spelled in other ways: with either of its arguments by
position or by keyword, with the keywords in either order, and with any name that has
the content of a parameter's.  The spelling settles in which order the arguments are
evaluated and their objects are made, and so which numbers the new objects get.

As long as the same arguments are bound, that is all.  The states after two spellings
mirror one another, under a renaming of what the call has made, and no step tells two
such states apart.  What ends in the call ends in an order of its own in each of them,
but it is told sorted.
-/

namespace SharedPair
namespace Session

open Store (MakesAll)

namespace State

variable {s : State} {arguments arguments' : Arguments Argument}

/-- A call that succeeds does so in every spelling. -/
theorem Calling.respell
    (calling : s.Calling arguments)
    (same : arguments'.bind = arguments.bind) :
    ∃ calling' : s.Calling arguments', calling'.a = calling.a ∧ calling'.b = calling.b ∧
      calling'.first = calling.first ∧ calling'.second = calling.second := by
  have bind := same.trans calling.bind
  obtain ⟨sources, ended, evaluated, bound, -⟩ := sources_of_bind bind calling.one calling.two
  obtain ⟨x, y, taken, -⟩ := Store.bind_takeArguments s.store bound
  refine ⟨⟨calling.a, calling.b, sources, calling.first, calling.second, x, y, calling.sound, bind,
    ?_, bound, calling.one, calling.two, taken⟩, rfl, rfl, rfl, rfl⟩
  rw [evaluated]

/-- The names that are written in a call do not depend on its spelling. -/
theorem Calling.made_perm
    (calling : s.Calling arguments) (name : String) :
    (Step.made s (.call arguments name)).Perm (calling.a.names ++ calling.b.names) := by
  have made := (arguments.accounts_evaluate s.accounts_source).made_perm calling.evaluated
  have written := (Arguments.inOrder_perm_of_bind calling.bind).flatMap_right Argument.names
  rw [List.flatMap_cons, List.flatMap_cons, List.flatMap_nil, List.append_nil] at written
  exact made.trans written

/-- **Two spellings.**  They leave states that mirror one another, and come to the same. -/
theorem call_of_bind_eq
    {name : String}
    (sound : s.store.Sound s.roots)
    (accepted : (s.call arguments name).2.reply = .done)
    (same : arguments'.bind = arguments.bind) :
    (∃ ρ, (∀ id < s.store.next, ρ id = id) ∧
      Mirror ρ (fun _ => False) [] [] (s.call arguments name).1 (s.call arguments' name).1) ∧
      (s.call arguments' name).2 = (s.call arguments name).2 := by
  obtain ⟨calling⟩ := Calling.of_accepted sound accepted
  obtain ⟨calling', a, b, first, second⟩ := calling.respell same
  obtain ⟨ρ, fixed, made⟩ := Store.exists_makesAll_of_bind sound calling.there calling.bound
    (by rw [calling'.bound, first, second]) calling.taken calling'.taken
  have paired := made.mirror.allocate (.tuple [calling.x, calling.y]) made.inStep
  have image : Node.rename ρ (.tuple [calling.x, calling.y]) = .tuple [calling'.x, calling'.y] :=
    congrArg Node.tuple made.refs.symm
  rw [image] at paired
  have mirror : Mirror ρ (fun _ => False) [] [] (s.call arguments name).1
      (s.call arguments' name).1 := by
    have inHand : Mirror ρ (fun _ => False) [] [calling.paired.1] calling.withPair
        calling'.withPair := mirror_of_stores sound fixed paired.mirror paired.inStep
    have stored := inHand.hold (List.not_mem_nil : name ∉ [])
    rw [calling.call_eq name, calling'.call_eq name]
    exact paired.ref ▸ stored
  have made' := (calling'.made_perm name).trans (a ▸ b ▸ (calling.made_perm name).symm)
  have freed := freed_eq_of_shifts (sound.mirror Function.injective_id fun _ _ => rfl)
    mirror.store (shift_step sound (.call arguments name))
    ((shift_step sound (.call arguments' name)).names_perm made' (.refl _))
    (pairwise_freed s (.call arguments name)) (pairwise_freed s (.call arguments' name))
  refine ⟨⟨ρ, fixed, mirror⟩, Effect.ext ?_ freed ?_⟩
  · rw [calling.call_eq name, calling'.call_eq name]
  · rw [calling.call_eq name, calling'.call_eq name]

end State

/-- **The spelling of a call cannot be observed.**  Take any session and any of its calls that
succeeds.  However else its arguments are spelled, as long as the same ones are bound to the two
parameters, all entries of the session stay the same: that of the call, those of the steps before
and after it, and the last one. -/
theorem call_spelling_unobservable
    (filter : Filter) (before more : List Step) (arguments arguments' : Arguments Argument)
    (name : String)
    (accepted : ((machine.run (State.initial filter) before).1.step
      (.call arguments name)).2.reply = .done)
    (same : arguments'.bind = arguments.bind) :
    transcript filter (before ++ .call arguments' name :: more) =
      transcript filter (before ++ .call arguments name :: more) := by
  have sound := State.sound_run before (State.sound_initial filter)
  obtain ⟨⟨ρ, -, mirror⟩, effect⟩ := State.call_of_bind_eq sound accepted same
  have sound' := (State.shift_call sound arguments' name).sound
  have entry := congrArg₂ Machine.Entry.mk effect mirror.counts
  have entries := mirror.entries sound' more
  have ended := mirror.run more fun _ _ _ _ => List.not_mem_nil
  have last := ended.last (State.sound_run more sound')
  rw [transcript, transcript, Machine.transcript_append, Machine.transcript_append,
    Machine.run_cons, Machine.run_cons]
  exact congrArg (_ ++ ·) (congrArg₂ (fun entries last => entries ++ [last])
    (congrArg₂ List.cons entry entries) last)

/-- Two new things are packed into a slot that is used, by position and then by keywords in the
other order, one of which does not print as what it is.  The things change places in the store. -/
theorem call_spelling_unobservable_reversed :
    let before : List Step := [.new "p" (.named "l")]
    let x : Argument := .fresh (.named "m")
    let y : Argument := .fresh (.named "n")
    let byPosition : Arguments Argument := ⟨[x, y], []⟩
    let byKeyword : Arguments Argument :=
      ⟨[], [(⟨Text.ofString "b", none⟩, y), (.plain (Text.ofString "a"), x)]⟩
    let more : List Step := [.get "p" (.label (.int 0)) "q", .display "p", .drop "p", .drop "q"]
    let called := fun arguments =>
      (machine.run (State.initial .all) before).1.step (.call arguments "p")
    let made := fun arguments => (called arguments).1.store.things
    (called byPosition).2.reply = .done ∧ byKeyword.bind = byPosition.bind ∧
      made byPosition = [(1, "m"), (2, "n")] ∧ made byKeyword = [(1, "n"), (2, "m")] ∧
      transcript .all (before ++ .call byKeyword "p" :: more) =
        transcript .all (before ++ .call byPosition "p" :: more) := by
  intro before x y byPosition byKeyword more called made
  have same : byKeyword.bind = byPosition.bind := rfl
  exact ⟨rfl, same, by decide +kernel, by decide +kernel,
    call_spelling_unobservable .all before more byPosition byKeyword "p" rfl same⟩

end Session
end SharedPair
