import SharedPair.Proofs.Call.Verdict
import SharedPair.Proofs.Session.Rejection
import SharedPair.Proofs.Session.Spelling

/-!
# The verdict on a call

What a call that is rejected is told is the verdict on its arguments, and the arguments
are what is written: evaluating them changes neither how many there are nor the names of
the keywords.  The order of the keywords settles in which order they are evaluated as
well.  That does not show, because an evaluation that succeeds does so in every order,
and what is freed is told sorted.
-/

namespace SharedPair

namespace Arguments

variable {α β : Type} {names : β → List String} {evaluate : α → Evaluation β}
  {arguments arguments' : Arguments α} {results : Arguments β}

/-! ## Evaluation and the verdict -/

theorem offenders_map
    (f : α → β) (arguments : Arguments α) :
    (arguments.map f).offenders = arguments.offenders := by
  have count : (arguments.map f).positional.length = arguments.positional.length :=
    List.length_map f
  rw [offenders, offenders, count, map, List.filter_map, List.map_map]
  rfl

theorem missing_map
    (f : α → β) (arguments : Arguments α) :
    (arguments.map f).missing = arguments.missing := by
  have count : (arguments.map f).positional.length = arguments.positional.length :=
    List.length_map f
  rw [missing, missing, count, contents_map]

theorem verdict_map
    (f : α → β) (arguments : Arguments α) :
    (arguments.map f).verdict = arguments.verdict := by
  have count : (arguments.map f).positional.length = arguments.positional.length :=
    List.length_map f
  rw [verdict, verdict, count, offenders_map, missing_map]

theorem orderShows_map_iff
    (f : α → β) (arguments : Arguments α) :
    (arguments.map f).OrderShows ↔ arguments.OrderShows := by
  have count : (arguments.map f).positional.length = arguments.positional.length :=
    List.length_map f
  rw [OrderShows, OrderShows, count, offenders_map]

/-- The verdict is one on the arguments as they are written. -/
theorem verdict_of_evaluate
    (done : (arguments.evaluate names evaluate).result = .ok results) :
    results.verdict = arguments.verdict := by
  rw [← verdict_map Except.ok, ← evaluate_ok done, verdict_map]

theorem orderShows_of_evaluate_iff
    (done : (arguments.evaluate names evaluate).result = .ok results) :
    results.OrderShows ↔ arguments.OrderShows := by
  rw [← orderShows_map_iff Except.ok, ← evaluate_ok done, orderShows_map_iff]

/-- Arguments that are evaluated together can be evaluated one by one. -/
theorem evaluate_ok_of_mem
    (done : (arguments.evaluate names evaluate).result = .ok results)
    {a : α}
    (member : a ∈ arguments.inOrder) :
    ∃ b, (evaluate a).result = .ok b := by
  have places := congrArg inOrder (evaluate_ok done)
  rw [inOrder_map, inOrder_map] at places
  have result : (evaluate a).result ∈ results.inOrder.map Except.ok := by
    rw [← places]
    exact List.mem_map_of_mem member
  obtain ⟨b, -, same⟩ := List.mem_map.mp result
  exact ⟨b, same.symm⟩

/-- Arguments that can be evaluated in one order can be so in any. -/
theorem Reorders.evaluated
    [Nonempty β]
    (reorders : arguments.Reorders arguments')
    (done : (arguments.evaluate names evaluate).result = .ok results) :
    ∃ results', (arguments'.evaluate names evaluate).result = .ok results' ∧
      results.Reorders results' := by
  have each : ∀ a, ∃ b, a ∈ arguments.inOrder → (evaluate a).result = .ok b := by
    intro a
    by_cases member : a ∈ arguments.inOrder
    · obtain ⟨b, same⟩ := evaluate_ok_of_mem done member
      exact ⟨b, fun _ => same⟩
    · exact ⟨Classical.arbitrary β, fun given => absurd given member⟩
  choose g same using each
  have results_eq : results = arguments.map g := by
    rw [evaluate_of_ok same] at done
    cases done
    rfl
  have same' : ∀ a ∈ arguments'.inOrder, (evaluate a).result = .ok (g a) := fun a member =>
    same a (reorders.inOrder_perm.mem_iff.mp member)
  refine ⟨arguments'.map g, ?_, ?_⟩
  · rw [evaluate_of_ok same']
  · rw [results_eq]
    exact reorders.map g

end Arguments

namespace Session

open Arguments (Reorders)

instance : Nonempty Source := ⟨.held (.object 0)⟩

instance : Nonempty Literal := ⟨.atom .nothing⟩

/-! ## Calls in a session -/

namespace State

variable {s : State} {arguments arguments' : Arguments Argument} {name : String}

/-- A call is rejected as the verdict on its arguments says, if they can be evaluated. -/
theorem verdict_of_rejected
    {e : CallError}
    (rejected : (s.call arguments name).2.reply = .failed (.rejected e))
    (distinct : arguments.contents.Nodup) :
    arguments.verdict = some e := by
  cases evaluated : (s.sources arguments).result with
  | error failure =>
      rw [call, evaluating, evaluated] at rejected
      cases rejected
      exact absurd evaluated (arguments.lawful_evaluate s.lawful_source e)
  | ok sources =>
      cases bound : sources.bind with
      | ok both =>
          rw [accepted_of_bound evaluated bound name] at rejected
          cases rejected
      | error e' =>
          rw [call_of_rejected evaluated bound] at rejected
          cases rejected
          have distinct' := Arguments.distinct_of_evaluate evaluated distinct
          rw [← Arguments.verdict_of_evaluate evaluated]
          exact (Arguments.bind_error_iff distinct').mp bound

theorem rejected_of_verdict
    {e : CallError} {sources : Arguments Source}
    (evaluated : (s.sources arguments).result = .ok sources)
    (distinct : arguments.contents.Nodup)
    (verdict : arguments.verdict = some e)
    (name : String) :
    (s.call arguments name).2.reply = .failed (.rejected e) := by
  have distinct' := Arguments.distinct_of_evaluate evaluated distinct
  rw [← Arguments.verdict_of_evaluate evaluated] at verdict
  exact call_of_rejected evaluated ((Arguments.bind_error_iff distinct').mpr verdict) name

/-- The effect of a call that is rejected, whatever it was written like. -/
theorem effect_of_rejected
    {e : CallError}
    (sound : s.store.Sound s.roots)
    (rejected : (s.call arguments name).2.reply = .failed (.rejected e)) :
    (s.call arguments name).2 =
      ⟨.failed (.rejected e), sortNames (arguments.inOrder.flatMap Argument.names), []⟩ := by
  obtain ⟨quiet, gap, mirror⟩ := mirror_of_failed sound rejected
  have freed := freed_of_rejected sound rejected
    (find?_of_mirror mirror fun _ old => Store.passOver_of_lt old gap)
  rw [← rejected, ← freed, ← quiet]

/-- Where the order of the keywords does not show, it settles nothing about the answer. -/
theorem effect_eq_of_reorders
    {sources : Arguments Source}
    (sound : s.store.Sound s.roots)
    (evaluated : (s.sources arguments).result = .ok sources)
    (distinct : arguments.contents.Nodup)
    (reorders : arguments.Reorders arguments')
    (hidden : ¬ arguments.OrderShows)
    (name : String) :
    (s.call arguments' name).2 = (s.call arguments name).2 := by
  cases bound : sources.bind with
  | ok both =>
      have accepted := accepted_of_bound evaluated bound name
      exact (call_of_bind_eq sound accepted (reorders.bind_eq distinct hidden)).2
  | error e =>
      have rejected := call_of_rejected evaluated bound name
      have distinct' := reorders.contents_perm.nodup_iff.mpr distinct
      obtain ⟨sources', evaluated', -⟩ := reorders.evaluated evaluated
      have rejected' : (s.call arguments' name).2.reply = .failed (.rejected e) := by
        refine rejected_of_verdict evaluated' distinct' ?_ name
        rw [reorders.verdict_eq hidden]
        exact verdict_of_rejected rejected distinct
      rw [effect_of_rejected sound rejected, effect_of_rejected sound rejected',
        sortNames_eq_of_perm (reorders.inOrder_perm.flatMap_right _)]

end State

/-! ## Calls by themselves -/

theorem verdict_of_callOnce
    {filter : Filter} {written : Arguments Expression} {e : CallError}
    (rejected : (callOnce filter written).result = .error (.rejected e))
    (distinct : written.contents.Nodup) :
    written.verdict = some e := by
  cases evaluated : (written.evaluate Form.names Expression.evaluate).result with
  | error failure =>
      rw [callOnce, evaluated] at rejected
      cases rejected
      exact absurd evaluated (written.lawful_evaluate (fun a => a.lawful_evaluate) e)
  | ok forms =>
      cases bound : forms.bind with
      | ok both =>
          obtain ⟨shown, done⟩ := callOnce_of_bound filter evaluated bound
          rw [done] at rejected
          cases rejected
      | error e' =>
          rw [callOnce_of_rejected filter evaluated bound] at rejected
          cases rejected
          have distinct' := Arguments.distinct_of_evaluate evaluated distinct
          rw [← Arguments.verdict_of_evaluate evaluated]
          exact (Arguments.bind_error_iff distinct').mp bound

theorem callOnce_of_verdict
    {written : Arguments Expression} {forms : Arguments Literal} {e : CallError}
    (filter : Filter)
    (evaluated : (written.evaluate Form.names Expression.evaluate).result = .ok forms)
    (distinct : written.contents.Nodup)
    (verdict : written.verdict = some e) :
    (callOnce filter written).result = .error (.rejected e) := by
  have distinct' := Arguments.distinct_of_evaluate evaluated distinct
  rw [← Arguments.verdict_of_evaluate evaluated] at verdict
  rw [callOnce_of_rejected filter evaluated ((Arguments.bind_error_iff distinct').mpr verdict)]

/-- Two spellings of a call by itself come to the same, because a form tells nothing of numbers. -/
theorem callOnce_eq_of_bind_eq
    {written written' : Arguments Expression} {forms forms' : Arguments Literal}
    (filter : Filter)
    (evaluated : (written.evaluate Form.names Expression.evaluate).result = .ok forms)
    (evaluated' : (written'.evaluate Form.names Expression.evaluate).result = .ok forms')
    (same : forms'.bind = forms.bind) :
    callOnce filter written' = callOnce filter written := by
  cases bound : forms.bind with
  | error e =>
      rw [callOnce_of_rejected filter evaluated bound,
        callOnce_of_rejected filter evaluated' (same.trans bound)]
  | ok both =>
      have literal := Arguments.bind_map_of_ok Source.literal bound
      have literal' := Arguments.bind_map_of_ok Source.literal (same.trans bound)
      obtain ⟨x, y, taken, -⟩ := Store.bind_takeArguments ∅ literal
      obtain ⟨x', y', taken', -⟩ := Store.bind_takeArguments ∅ literal'
      have there : ∀ source ∈ (forms.map Source.literal).inOrder, source.There [] := by
        rw [Arguments.inOrder_map]
        intro source member
        obtain ⟨form, -, rfl⟩ := List.mem_map.mp member
        trivial
      obtain ⟨ρ, -, made⟩ := Store.exists_makesAll_of_bind
        (State.sound_initial filter) there literal literal' taken taken'
      have shown := Store.form_pack_of_makesAll made filter
      rw [callOnce_of_taken filter evaluated taken, callOnce_of_taken filter evaluated' taken']
      refine congrArg₂ CallReport.mk (congrArg (fun shown => Except.ok (shown, _)) shown) ?_
      rw [Store.pack_eq, Store.pack_eq]

theorem callOnce_eq_of_reorders
    {written written' : Arguments Expression} {forms : Arguments Literal}
    (filter : Filter)
    (evaluated : (written.evaluate Form.names Expression.evaluate).result = .ok forms)
    (distinct : written.contents.Nodup)
    (reorders : written.Reorders written')
    (hidden : ¬ written.OrderShows) :
    callOnce filter written' = callOnce filter written := by
  obtain ⟨forms', evaluated', reorders'⟩ := reorders.evaluated evaluated
  have distinct' := Arguments.distinct_of_evaluate evaluated distinct
  have hidden' : ¬ forms.OrderShows := fun shows =>
    hidden ((Arguments.orderShows_of_evaluate_iff evaluated).mp shows)
  exact callOnce_eq_of_bind_eq filter evaluated evaluated' (reorders'.bind_eq distinct' hidden')

/-! ## The verdict -/

/-- **The verdict on a call.**  Take any call whose keywords have different names, in a session in
any state that steps lead to or by itself.  If it is rejected, it is told of the first of its
faults, and a name is told code point by code point.

Its keywords may be given in any other order.  If at most one of them cannot be taken, or if there
are too many arguments by position, nothing of the answer changes.  Otherwise both calls are
rejected with a type error, and each is told of its own first keyword that cannot be taken. -/
theorem call_told
    (filter : Filter) (steps : List Step) (name : String)
    (arguments : Arguments Argument) (written : Arguments Expression)
    (distinct : arguments.contents.Nodup) (distinct' : written.contents.Nodup) :
    let s := (machine.run (State.initial filter) steps).1
    let effect := fun arguments => (s.step (.call arguments name)).2
    let report := callOnce filter
    ((∀ e, (effect arguments).reply = .failed (.rejected e) → arguments.Told e.message) ∧
      ∀ e, (report written).result = .error (.rejected e) → written.Told e.message) ∧
    ((∀ (keyword : Keyword) (text : Text), keyword.shown = some text →
        keyword.print.toList = text.points.flatMap CodePoint.print) ∧
      (∀ p : CodePoint, p.Surrogate → p.print = List.replicate 3 '\uFFFD') ∧
      ∀ p : CodePoint, ¬ p.Surrogate → ∃ c : Char, c.toNat = p.val ∧ p.print = [c]) ∧
    (∀ sources reordered, (s.sources arguments).result = .ok sources →
      arguments.Reorders reordered →
        (¬ arguments.OrderShows → effect reordered = effect arguments) ∧
        (arguments.OrderShows →
          ∃ first ∈ arguments.offenders.head?, ∃ first' ∈ reordered.offenders.head?,
            (effect arguments).reply = .failed (.rejected first.fault) ∧
            (effect reordered).reply = .failed (.rejected first'.fault))) ∧
    (∀ forms reordered, (written.evaluate Form.names Expression.evaluate).result = .ok forms →
      written.Reorders reordered →
        (¬ written.OrderShows → report reordered = report written) ∧
        (written.OrderShows →
          ∃ first ∈ written.offenders.head?, ∃ first' ∈ reordered.offenders.head?,
            (report written).result = .error (.rejected first.fault) ∧
            (report reordered).result = .error (.rejected first'.fault))) ∧
    ∀ e, (Failure.rejected e).raisedAs = .typeError := by
  intro s effect report
  have sound : s.store.Sound s.roots := State.sound_run steps (State.sound_initial filter)
  refine ⟨⟨fun e rejected => ?_, fun e rejected => ?_⟩, ⟨fun keyword text shown => ?_,
    fun p => CodePoint.print_of_surrogate, fun p => CodePoint.print_of_not_surrogate⟩,
    fun sources reordered evaluated reorders => ⟨fun hidden => ?_, fun shows => ?_⟩,
    fun forms reordered evaluated reorders => ⟨fun hidden => ?_, fun shows => ?_⟩,
    fun e => rfl⟩
  · exact Arguments.told_of_verdict (State.verdict_of_rejected rejected distinct)
  · exact Arguments.told_of_verdict (verdict_of_callOnce rejected distinct')
  · rw [Keyword.print, shown, Text.toList_print]
  · exact State.effect_eq_of_reorders sound evaluated distinct reorders hidden name
  · obtain ⟨first, member, verdict⟩ := Arguments.verdict_of_orderShows shows
    obtain ⟨first', member', verdict'⟩ :=
      Arguments.verdict_of_orderShows (reorders.orderShows_iff.mpr shows)
    obtain ⟨sources', evaluated', -⟩ := reorders.evaluated evaluated
    have reordered_distinct := reorders.contents_perm.nodup_iff.mpr distinct
    exact ⟨first, member, first', member',
      State.rejected_of_verdict evaluated distinct verdict name,
      State.rejected_of_verdict evaluated' reordered_distinct verdict' name⟩
  · exact callOnce_eq_of_reorders filter evaluated distinct' reorders hidden
  · obtain ⟨first, member, verdict⟩ := Arguments.verdict_of_orderShows shows
    obtain ⟨first', member', verdict'⟩ :=
      Arguments.verdict_of_orderShows (reorders.orderShows_iff.mpr shows)
    obtain ⟨forms', evaluated', -⟩ := reorders.evaluated evaluated
    have reordered_distinct := reorders.contents_perm.nodup_iff.mpr distinct'
    exact ⟨first, member, first', member', callOnce_of_verdict filter evaluated distinct' verdict,
      callOnce_of_verdict filter evaluated' reordered_distinct verdict'⟩

/-- A call with two keywords that cannot be taken, one for its name, which is half of a surrogate
pair; and a call by itself with a missing argument. -/
theorem call_told_twice :
    let half : Keyword := .plain ⟨[0xD83D]⟩
    let keywords : List (Keyword × Argument) :=
      [(.plain (Text.ofString "a"), .slot "x"), (half, .slot "x")]
    let arguments : Arguments Argument := ⟨[.slot "x"], keywords⟩
    let written : Arguments Expression := ⟨[], [(.plain (Text.ofString "b"), .atom .nothing)]⟩
    arguments.contents.Nodup ∧ written.contents.Nodup ∧
      arguments.Told (CallError.repeated .a).message ∧
      Arguments.Told ⟨[.slot "x"], keywords.reverse⟩ (CallError.unexpected half).message ∧
      half.print = "\uFFFD\uFFFD\uFFFD" ∧
      written.Told (CallError.missing .a).message := by
  intro half keywords arguments written
  let steps : List Step := [.new "x" (.named "n")]
  have law := call_told .off steps "y" arguments written (by decide) (by decide)
  have reversed := call_told .off steps "y" ⟨[.slot "x"], keywords.reverse⟩ written (by decide)
    (by decide)
  exact ⟨by decide, by decide, law.1.1 _ rfl, reversed.1.1 _ rfl, by decide, law.1.2 _ rfl⟩

end Session
end SharedPair
