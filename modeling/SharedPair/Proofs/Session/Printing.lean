import SharedPair.Proofs.Call.Printing
import SharedPair.Proofs.Session.Verdicts

/-!
# Sessions under other printed names

What a call comes to does not depend on how the names of its keywords print.  The state
after it is the same, so are the things freed and the records kept, and so is the answer,
except that the text of an unexpected keyword tells the printed form of one name.  As no
step looks at how a name printed earlier, the same holds of whole sessions.
-/

namespace SharedPair

/-! ## Evaluation under unprinted names -/

namespace Evaluation

variable {α β γ : Type}

theorem each_of_map
    {names : γ → List String} (evaluate : β → Evaluation γ) (g : α → β) (items : List α) :
    each names evaluate (items.map g) = each names (fun a => evaluate (g a)) items := by
  induction items with
  | nil => rfl
  | cons a rest ih => rw [List.map_cons, each, each, ih]

theorem both_map
    (first : Evaluation α) (names : α → List String) (second : Evaluation β) (g : β → γ) :
    first.both names (second.map g) =
      (first.both names second).map fun results => (results.1, g results.2) := by
  rcases first with ⟨result, ended⟩
  rcases second with ⟨result', ended'⟩
  cases result <;> cases result' <;> rfl

/-- Evaluations that are the same up to a view of their results fail in the same way, or both have
results. -/
theorem eq_or_ok_of_map_eq
    {f : α → β} {made made' : Evaluation α}
    (same : made'.map f = made.map f) :
    (made' = made ∧ ∃ failure, made.result = .error failure) ∨
      ∃ a a', f a' = f a ∧ made.result = .ok a ∧ made'.result = .ok a' ∧
        made'.ended = made.ended := by
  rcases made with ⟨result, ended⟩
  rcases made' with ⟨result', ended'⟩
  rw [map, map, mk.injEq] at same
  obtain ⟨results, rfl⟩ := same
  cases result with
  | error failure =>
      cases result' with
      | error failure' =>
          cases results
          exact .inl ⟨rfl, failure, rfl⟩
      | ok a' => cases results
  | ok a =>
      cases result' with
      | error failure' => cases results
      | ok a' => exact .inr ⟨a, a', Except.ok.inj results, rfl, rfl, rfl⟩

end Evaluation

namespace Arguments

variable {α β : Type} {names : β → List String} {evaluate : α → Evaluation β}
  {arguments arguments' : Arguments α} {results : Arguments β} {keyword : Keyword}

/-- How names print takes no part in the evaluation of arguments. -/
theorem evaluate_unprinted
    (arguments : Arguments α) :
    arguments.unprinted.evaluate names evaluate =
      (arguments.evaluate names evaluate).map unprinted := by
  let forget : Keyword × β → Keyword × β := fun given => (given.1.unprinted, given.2)
  have keywords : Evaluation.each (fun given : Keyword × β => names given.2)
      (fun given : Keyword × α => (evaluate given.2).map (given.1, ·))
        arguments.unprinted.keywords =
      (Evaluation.each (fun given : Keyword × β => names given.2)
        (fun given : Keyword × α => (evaluate given.2).map (given.1, ·))
          arguments.keywords).map (List.map forget) := by
    rw [unprinted, Evaluation.each_of_map]
    refine Evaluation.each_map (f := forget) (fun _ => rfl) fun given _ => ?_
    rw [Evaluation.map_map]
    rfl
  unfold Arguments.evaluate
  simp only
  rw [keywords, Evaluation.both_map, Evaluation.map_map, Evaluation.map_map]
  rfl

/-- Arguments that differ in how names print fail to be evaluated in the same way, or their results
differ in that alone. -/
theorem Reprints.evaluated
    (reprints : arguments.Reprints arguments')
    (names : β → List String) (evaluate : α → Evaluation β) :
    (arguments'.evaluate names evaluate = arguments.evaluate names evaluate ∧
      ∃ failure, (arguments.evaluate names evaluate).result = .error failure) ∨
    ∃ results results' : Arguments β, results.Reprints results' ∧
      (arguments.evaluate names evaluate).result = .ok results ∧
      (arguments'.evaluate names evaluate).result = .ok results' ∧
      (arguments'.evaluate names evaluate).ended = (arguments.evaluate names evaluate).ended := by
  have same : (arguments'.evaluate names evaluate).map unprinted =
      (arguments.evaluate names evaluate).map unprinted := by
    rw [← evaluate_unprinted, ← evaluate_unprinted, reprints_iff.mp reprints]
  rcases Evaluation.eq_or_ok_of_map_eq same with failed | ⟨results, results', view, done⟩
  · exact .inl failed
  · exact .inr ⟨results, results', reprints_iff.mpr view, done⟩

theorem Reprints.inOrder
    (reprints : arguments.Reprints arguments') :
    arguments'.inOrder = arguments.inOrder := by
  rw [← inOrder_unprinted, reprints_iff.mp reprints, inOrder_unprinted]

theorem unprinted_replace
    (arguments : Arguments α) (others : List β) :
    (arguments.replace others).unprinted = arguments.unprinted.replace others := by
  have keywords : arguments.unprinted.keywords.map Prod.fst =
      (arguments.keywords.map Prod.fst).map Keyword.unprinted := by
    rw [unprinted, List.map_map, List.map_map]
    rfl
  refine congrArg (mk _) ?_
  rw [keywords, List.zip_map_left]
  rfl

/-- Whatever is put in the places of the arguments, how names print takes no part in it. -/
theorem Reprints.replace
    (reprints : arguments.Reprints arguments')
    (others : List β) :
    (arguments.replace others).Reprints (arguments'.replace others) := by
  rw [reprints_iff, unprinted_replace, unprinted_replace, reprints_iff.mp reprints]

/-- The unexpected keyword of a call is one of the call as it is written. -/
theorem Unexpected.of_evaluate
    (done : (arguments.evaluate names evaluate).result = .ok results)
    (unexpected : results.Unexpected keyword) :
    arguments.Unexpected keyword := by
  have same := evaluate_ok done
  have count : arguments.positional.length = results.positional.length := by
    have lists := congrArg (fun given => given.positional.length) same
    simpa only [map, List.length_map] using lists
  have offenders : arguments.offenders = results.offenders := by
    have lists := congrArg Arguments.offenders same
    rwa [offenders_map, offenders_map] at lists
  exact ⟨count ▸ unexpected.few, offenders ▸ unexpected.first, unexpected.unknown⟩

end Arguments

/-- The same objects are taken for arguments that differ in how names print, and stand in the same
places. -/
theorem Store.takeArguments_of_reprints
    {sources sources' : Arguments Session.Source}
    (store : Store) (reprints : sources.Reprints sources') :
    (store.takeArguments sources').2 = (store.takeArguments sources).2 ∧
      (store.takeArguments sources).1.Reprints (store.takeArguments sources').1 := by
  unfold takeArguments
  rw [reprints.inOrder]
  exact ⟨rfl, reprints.replace _⟩

/-! ## What is told -/

/-- What is told of a failure: its class and its text. -/
def Failure.told (failure : Failure) : ErrorClass × String := (failure.raisedAs, failure.message)

theorem Failure.told_unexpected
    (keyword : Keyword) :
    (rejected (.unexpected keyword)).told =
      (.typeError, "function_with_cpp_args() got an unexpected keyword argument '" ++
        keyword.print ++ "'") := by
  rfl

/-- Two answers that differ at most in how the name of an unexpected keyword prints, where failures
are answered in a given way. -/
inductive Retold {β : Type} (failed : Failure → β) : β → β → Prop
  | same
      (answer : β) :
      Retold failed answer answer
  | unexpected
      {keyword keyword' : Keyword}
      (content : keyword'.content = keyword.content) :
      Retold failed (failed (.rejected (.unexpected keyword)))
        (failed (.rejected (.unexpected keyword')))

/-- If the first keywords that cannot be taken print the same, the same is told. -/
theorem Retold.told_eq
    {α β γ : Type} {failed : Failure → β} {arguments arguments' : Arguments α} {answer answer' : β}
    (retold : Retold failed answer answer') (told : β → γ)
    (by_text : ∀ failure failure' : Failure, failure'.told = failure.told →
      told (failed failure') = told (failed failure))
    (first : ∀ keyword, answer = failed (.rejected (.unexpected keyword)) →
      arguments.Unexpected keyword)
    (first' : ∀ keyword, answer' = failed (.rejected (.unexpected keyword)) →
      arguments'.Unexpected keyword)
    (printed : arguments'.offenders.head?.map Keyword.print =
      arguments.offenders.head?.map Keyword.print) :
    told answer' = told answer := by
  cases retold with
  | same answer => rfl
  | @unexpected keyword keyword' content =>
      rw [(first _ rfl).first, (first' _ rfl).first, Option.map_some, Option.map_some,
        Option.some.injEq] at printed
      refine by_text _ _ ?_
      rw [Failure.told_unexpected, Failure.told_unexpected, printed]

namespace Session

/-- What is told as the answer of a step. -/
def Reply.told : Reply → Except (ErrorClass × String) Reply
  | .failed failure => .error failure.told
  | reply => .ok reply

/-- The same step, with names of the same contents in a call that may print in other ways. -/
inductive Step.Reprints : Step → Step → Prop
  | same
      (step : Step) :
      Step.Reprints step step
  | call
      {arguments arguments' : Arguments Argument}
      (reprints : arguments.Reprints arguments')
      (name : String) :
      Step.Reprints (.call arguments name) (.call arguments' name)

/-- Two effects that are told alike, but for the name of an unexpected keyword. -/
structure Effect.Retells (effect effect' : Effect) : Prop where
  reply : Retold .failed effect.reply effect'.reply
  freed : effect'.freed = effect.freed
  log : effect'.log = effect.log

/-- Two entries that tell alike effects and the same counts. -/
structure Entry.Retells (entry entry' : Entry) : Prop where
  effect : entry.effect.Retells entry'.effect
  counts : entry'.counts = entry.counts

theorem Effect.Retells.refl
    (effect : Effect) :
    effect.Retells effect :=
  ⟨.same _, rfl, rfl⟩

namespace State

variable {s : State} {arguments arguments' : Arguments Argument} {name : String}

/-! ## Calls in a session -/

/-- A call that is told of an unexpected keyword is told of its first that cannot be taken. -/
theorem unexpected_of_rejected
    {keyword : Keyword}
    (rejected : (s.call arguments name).2.reply = .failed (.rejected (.unexpected keyword))) :
    arguments.Unexpected keyword := by
  cases evaluated : (s.sources arguments).result with
  | error failure =>
      rw [call, evaluating, evaluated] at rejected
      cases rejected
      exact absurd evaluated (arguments.lawful_evaluate s.lawful_source _)
  | ok sources =>
      cases bound : sources.bind with
      | ok both =>
          rw [accepted_of_bound evaluated bound name] at rejected
          cases rejected
      | error e =>
          rw [call_of_rejected evaluated bound] at rejected
          cases rejected
          exact (Arguments.unexpected_of_bind bound).of_evaluate evaluated

/-- **A call under other printed names** comes to the same, and is told alike. -/
theorem call_of_reprints
    (reprints : arguments.Reprints arguments')
    (name : String) :
    (s.call arguments' name).1 = (s.call arguments name).1 ∧
      (s.call arguments name).2.Retells (s.call arguments' name).2 := by
  rcases reprints.evaluated Source.names s.source with
    ⟨same, -⟩ | ⟨results, results', alike, done, done', ended⟩
  · have failed : s.call arguments' name = s.call arguments name := by
      rw [call, sources, same]
      rfl
    rw [failed]
    exact ⟨rfl, .refl _⟩
  · have once : s.sources arguments = ⟨.ok results, (s.sources arguments).ended⟩ :=
      congrArg (Evaluation.mk · _) done
    have again : s.sources arguments' = ⟨.ok results', (s.sources arguments).ended⟩ :=
      (congrArg (Evaluation.mk · _) done').trans (congrArg (Evaluation.mk _) ended)
    obtain ⟨store, given⟩ := s.store.takeArguments_of_reprints alike
    rw [call, call, once, again, evaluating, evaluating]
    simp only [store, given.inOrder]
    rcases given.bind with same | ⟨keyword, keyword', content, rejected, rejected'⟩
    · simp only [same]
      exact ⟨trivial, .refl _⟩
    · -- both calls give up the same arguments
      simp only [rejected, rejected']
      exact ⟨rfl, .unexpected content, rfl, rfl⟩

/-! ## Runs -/

theorem step_of_reprints
    {step step' : Step}
    (reprints : step.Reprints step') :
    (s.step step').1 = (s.step step).1 ∧ (s.step step).2.Retells (s.step step').2 := by
  cases reprints with
  | same step => exact ⟨rfl, .refl _⟩
  | call reprints name => exact call_of_reprints reprints name

theorem run_of_reprints
    {steps steps' : List Step} {s : State}
    (reprints : List.Forall₂ Step.Reprints steps steps') :
    (machine.run s steps').1 = (machine.run s steps).1 ∧
      List.Forall₂ Entry.Retells (machine.run s steps).2 (machine.run s steps').2 := by
  refine machine.run_related (R := fun s t => t = s) ?_ reprints rfl
  rintro s _ step step' rfl first
  obtain ⟨between, effect⟩ := step_of_reprints first
  exact ⟨between, effect, congrArg State.counts between⟩

end State

/-- Whole sessions are told alike, to the end of their slots. -/
theorem transcript_of_reprints
    (filter : Filter) {steps steps' : List Step}
    (reprints : List.Forall₂ Step.Reprints steps steps') :
    List.Forall₂ Entry.Retells (transcript filter steps) (transcript filter steps') := by
  obtain ⟨after, entries⟩ := State.run_of_reprints (s := State.initial filter) reprints
  have last : Entry.Retells (machine.last (machine.run (State.initial filter) steps).1)
      (machine.last (machine.run (State.initial filter) steps').1) := by
    rw [after]
    exact ⟨.refl _, rfl⟩
  exact List.rel_append entries (.cons last .nil)

/-! ## Calls by themselves -/

section Once

variable {filter : Filter} {written written' : Arguments Expression}

theorem unexpected_of_callOnce
    {keyword : Keyword}
    (rejected : (callOnce filter written).result = .error (.rejected (.unexpected keyword))) :
    written.Unexpected keyword := by
  cases evaluated : (written.evaluate Form.names Expression.evaluate).result with
  | error failure =>
      rw [callOnce, evaluated] at rejected
      cases rejected
      exact absurd evaluated (written.lawful_evaluate (fun a => a.lawful_evaluate) _)
  | ok forms =>
      cases bound : forms.bind with
      | ok both =>
          obtain ⟨shown, done⟩ := callOnce_of_bound filter evaluated bound
          rw [done] at rejected
          cases rejected
      | error e =>
          rw [callOnce_of_rejected filter evaluated bound] at rejected
          cases rejected
          exact (Arguments.unexpected_of_bind bound).of_evaluate evaluated

theorem callOnce_of_reprints
    (reprints : written.Reprints written')
    (filter : Filter) :
    (callOnce filter written').log = (callOnce filter written).log ∧
      Retold .error (callOnce filter written).result (callOnce filter written').result := by
  rcases reprints.evaluated Form.names Expression.evaluate with
    ⟨same, -⟩ | ⟨results, results', alike, done, done', -⟩
  · rw [callOnce, callOnce, same]
    exact ⟨rfl, .same _⟩
  · rcases alike.bind with same | ⟨keyword, keyword', content, rejected, rejected'⟩
    · rw [callOnce_eq_of_bind_eq filter done done' same]
      exact ⟨rfl, .same _⟩
    · rw [callOnce_of_rejected filter done rejected, callOnce_of_rejected filter done' rejected']
      exact ⟨rfl, .unexpected content⟩

end Once

/-! ## How names print -/

/-- What calls come to when the names of their keywords print in two ways, in a state that steps
lead to and by themselves. -/
structure Prints (filter : Filter) (steps steps' : List Step) (s : State) (name : String)
    (arguments arguments' : Arguments Argument) (written written' : Arguments Expression) :
    Prop where
  /-- The calls leave the same state, with the same pair if they succeed. -/
  state : (s.step (.call arguments' name)).1 = (s.step (.call arguments name)).1
  /-- They free and log the same, and answer the same, except that each may tell of its own name for
  an unexpected keyword. -/
  effect : (s.step (.call arguments name)).2.Retells (s.step (.call arguments' name)).2
  /-- By themselves they log the same. -/
  log : (callOnce filter written').log = (callOnce filter written).log
  /-- By themselves they answer the same, with the same exception. -/
  result : Retold .error (callOnce filter written).result (callOnce filter written').result
  /-- A call that tells of an unexpected keyword tells of its first keyword that cannot be taken,
  and this one names no parameter. -/
  offender : ∀ given keyword,
    (s.step (.call given name)).2.reply = .failed (.rejected (.unexpected keyword)) →
      given.Unexpected keyword
  /-- The same is true by itself. -/
  offender' : ∀ given keyword,
    (callOnce filter given).result = .error (.rejected (.unexpected keyword)) →
      given.Unexpected keyword
  /-- If the first keywords that cannot be taken print the same, the same is told in either case,
  however all other names print. -/
  told :
    arguments'.offenders.head?.map Keyword.print = arguments.offenders.head?.map Keyword.print →
    (s.step (.call arguments' name)).2.reply.told = (s.step (.call arguments name)).2.reply.told
  /-- The same is true by themselves. -/
  told' : written'.offenders.head?.map Keyword.print = written.offenders.head?.map Keyword.print →
    (callOnce filter written').result.mapError Failure.told =
      (callOnce filter written).result.mapError Failure.told
  /-- An unexpected keyword is told by what its name prints as. -/
  message : ∀ keyword, (Failure.rejected (.unexpected keyword)).told =
    (.typeError, "function_with_cpp_args() got an unexpected keyword argument '" ++
      keyword.print ++ "'")
  /-- That is the text of the name, -/
  shown : ∀ (keyword : Keyword) (text : Text), keyword.shown = some text →
    keyword.print = text.print
  /-- or a fixed text if the name cannot be printed. -/
  hidden : ∀ keyword : Keyword, keyword.shown = none → keyword.print = "<unprintable Name object>"
  /-- The names of any number of earlier calls may print in other ways as well: the steps lead to
  the same state. -/
  before : (machine.run (State.initial filter) steps').1 = s
  /-- What is told of them differs in no more than that. -/
  transcript : List.Forall₂ Entry.Retells (transcript filter steps) (transcript filter steps')

/-- **How names print cannot affect binding.**  Take any two calls with the same arguments by
position and with keywords that agree, one by one, in the contents of their names and in their
arguments.  Each name may print as any text, or not at all.  The calls come to the same, and what
they tell depends on how the name of one keyword prints. -/
theorem print_told_once
    (filter : Filter) (name : String) {steps steps' : List Step}
    {arguments arguments' : Arguments Argument} {written written' : Arguments Expression}
    (earlier : List.Forall₂ Step.Reprints steps steps')
    (reprints : arguments.Reprints arguments') (reprints' : written.Reprints written') :
    Prints filter steps steps' (machine.run (State.initial filter) steps).1 name
      arguments arguments' written written' := by
  obtain ⟨state, effect⟩ :=
    State.call_of_reprints (s := (machine.run (State.initial filter) steps).1) reprints name
  obtain ⟨log, result⟩ := callOnce_of_reprints reprints' filter
  exact {
    state := state
    effect := effect
    log := log
    result := result
    offender := fun given keyword => State.unexpected_of_rejected
    offender' := fun given keyword => unexpected_of_callOnce
    told := effect.reply.told_eq Reply.told (fun _ _ => congrArg Except.error)
      (fun _ => State.unexpected_of_rejected) (fun _ => State.unexpected_of_rejected)
    told' := result.told_eq (Except.mapError Failure.told) (fun _ _ => congrArg Except.error)
      (fun _ => unexpected_of_callOnce) (fun _ => unexpected_of_callOnce)
    message := Failure.told_unexpected
    shown := fun keyword text shown => by rw [Keyword.print, shown]
    hidden := fun keyword hidden => by rw [Keyword.print, hidden]
    before := (State.run_of_reprints earlier).1
    transcript := transcript_of_reprints filter earlier }

/-- Two calls with an unexpected keyword.  In a session its name prints as what it is or not at all,
and by itself it prints as what another keyword is, while that one prints in two ways. -/
theorem print_told_once_hidden :
    let a := Text.ofString "a"
    let c := Text.ofString "c"
    let given : Keyword → Keyword → Arguments Argument := fun first second =>
      ⟨[.slot "x"], [(first, .slot "x"), (second, .slot "x")]⟩
    let written : Keyword → Keyword → Arguments Expression := fun first second =>
      ⟨[], [(first, .atom .nothing), (second, .named "n")]⟩
    let shown := given (.plain c) (.plain a)
    let hidden := given ⟨c, none⟩ ⟨a, some c⟩
    let steps : List Step := [.new "x" (.named "m"), .call shown "y"]
    let steps' : List Step := [.new "x" (.named "m"), .call hidden "y"]
    let s := (machine.run (State.initial .all) steps).1
    let called := fun arguments => s.step (.call arguments "y")
    let message := "function_with_cpp_args() got an unexpected keyword argument '"
    List.Forall₂ Step.Reprints steps steps' ∧ shown.Reprints hidden ∧
      (written ⟨c, some a⟩ (.plain a)).Reprints (written ⟨c, some a⟩ ⟨a, none⟩) ∧
      (called hidden).1 = (called shown).1 ∧
      (called shown).2.reply.told = .error (.typeError, message ++ "c" ++ "'") ∧
      (called hidden).2.reply.told =
        .error (.typeError, message ++ "<unprintable Name object>" ++ "'") ∧
      (callOnce .all (written ⟨c, some a⟩ ⟨a, none⟩)).result.mapError Failure.told =
        (callOnce .all (written ⟨c, some a⟩ (.plain a))).result.mapError Failure.told := by
  intro a c given written shown hidden steps steps' s called message
  have reprints : shown.Reprints hidden := ⟨rfl, .cons ⟨rfl, rfl⟩ (.cons ⟨rfl, rfl⟩ .nil)⟩
  have reprints' : (written ⟨c, some a⟩ (.plain a)).Reprints (written ⟨c, some a⟩ ⟨a, none⟩) :=
    ⟨rfl, .cons ⟨rfl, rfl⟩ (.cons ⟨rfl, rfl⟩ .nil)⟩
  have earlier : List.Forall₂ Step.Reprints steps steps' :=
    .cons (.same _) (.cons (.call reprints "y") .nil)
  have prints := print_told_once .all "y" earlier reprints reprints'
  refine ⟨earlier, reprints, reprints', prints.state, ?_, ?_, prints.told' rfl⟩
  · exact congrArg Except.error (prints.message (.plain c))
  · exact congrArg Except.error ((prints.message ⟨c, none⟩).trans (by rw [prints.hidden _ rfl]))

end Session
end SharedPair
