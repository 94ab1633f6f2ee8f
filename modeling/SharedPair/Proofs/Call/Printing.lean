import SharedPair.Proofs.Call.Replacement
import SharedPair.Proofs.Call.Verdict

/-!
# How the names of keywords print

The name of a keyword has a content, and it prints as a text of its own or cannot be
printed.  Binding goes by contents.  A name is printed only where a call is told of its
first keyword that cannot be taken, because that one names no parameter.

Two calls that differ in nothing but how their names print are the same call when the
printed forms are forgotten.  To forget them before binding is to forget them in what
binding comes to, so they take no part in it.
-/

namespace SharedPair

/-! ## Forgetting how a name prints -/

/-- The name of the same content that cannot be printed. -/
def Keyword.unprinted (keyword : Keyword) : Keyword := ⟨keyword.content, none⟩

theorem Keyword.unprinted_eq_iff
    {keyword keyword' : Keyword} :
    keyword'.unprinted = keyword.unprinted ↔ keyword'.content = keyword.content := by
  rw [unprinted, unprinted, mk.injEq, and_iff_left rfl]

namespace CallError

/-- The same error with an unprinted name. -/
def unprinted : CallError → CallError
  | unexpected keyword => unexpected keyword.unprinted
  | e => e

/-- Only errors about unexpected keywords have a name to forget. -/
theorem eq_or_unexpected_of_unprinted
    {e e' : CallError}
    (same : e'.unprinted = e.unprinted) :
    e' = e ∨ ∃ keyword keyword', keyword'.content = keyword.content ∧
      e = .unexpected keyword ∧ e' = .unexpected keyword' := by
  cases e with
  | unexpected keyword =>
      cases e' with
      | unexpected keyword' =>
          rw [unprinted, unprinted, unexpected.injEq, Keyword.unprinted_eq_iff] at same
          exact .inr ⟨keyword, keyword', same, rfl, rfl⟩
      | _ => cases same
  | _ =>
      cases e' with
      | unexpected keyword' => cases same
      | _ => exact .inl same

end CallError

namespace Binding

variable {α : Type}

theorem unprinted_ofPositional
    (given : List α) :
    (ofPositional given).mapError CallError.unprinted = ofPositional given := by
  rcases given with _ | ⟨x, _ | ⟨y, _ | ⟨z, rest⟩⟩⟩ <;> rfl

theorem addKeyword_unprinted
    (bound : Binding α) (keyword : Keyword) (value : α) :
    bound.addKeyword keyword.unprinted value =
      (bound.addKeyword keyword value).mapError CallError.unprinted := by
  have content : keyword.unprinted.content = keyword.content := rfl
  unfold addKeyword
  rw [content]
  cases Parameter.ofName? keyword.content with
  | none => rfl
  | some parameter =>
      simp only
      cases bound.get parameter <;> rfl

theorem addKeywords_unprinted
    (keywords : List (Keyword × α)) (bound : Binding α) :
    bound.addKeywords (keywords.map fun given => (given.1.unprinted, given.2)) =
      (bound.addKeywords keywords).mapError CallError.unprinted := by
  induction keywords generalizing bound with
  | nil => rfl
  | cons given rest ih =>
      rw [List.map_cons, addKeywords, addKeywords, addKeyword_unprinted]
      cases bound.addKeyword given.1 given.2 with
      | error e => rfl
      | ok further => exact ih further

theorem complete_ne_unexpected
    (bound : Binding α) (keyword : Keyword) :
    bound.complete ≠ .error (.unexpected keyword) := by
  rcases bound with ⟨_ | x, _ | y⟩ <;> exact fun same => nomatch same

theorem unprinted_complete
    (bound : Binding α) :
    bound.complete.mapError CallError.unprinted = bound.complete := by
  rcases bound with ⟨_ | x, _ | y⟩ <;> rfl

/-- A keyword is unexpected if it names no parameter, and all before it can be taken. -/
theorem unexpected_of_addKeywords
    {keywords : List (Keyword × α)} {keyword : Keyword} {bound : Binding α}
    (stopped : bound.addKeywords keywords = .error (.unexpected keyword)) :
    (∀ p : Parameter, keyword.content ≠ p.text) ∧
      ∃ earlier value later, keywords = earlier ++ (keyword, value) :: later ∧
        ∀ given ∈ earlier, ∃ p : Parameter, given.1.content = p.text ∧ bound.get p = none := by
  induction keywords generalizing bound with
  | nil => cases stopped
  | cons given rest ih =>
      rw [addKeywords] at stopped
      split at stopped
      · next further added =>
          obtain ⟨unknown, earlier, value, later, rfl, unfilled⟩ := ih stopped
          obtain ⟨p, named, empty, rfl⟩ := addKeyword_ok_iff.mp added
          refine ⟨unknown, given :: earlier, value, later, rfl, fun other member => ?_⟩
          rcases List.mem_cons.mp member with rfl | member
          · exact ⟨p, named, empty⟩
          · obtain ⟨q, named', empty'⟩ := unfilled other member
            rw [get_set] at empty'
            split at empty'
            · cases empty'
            · exact ⟨q, named', empty'⟩
      · next e refused =>
          cases stopped
          unfold addKeyword at refused
          split at refused
          · next unknown =>
              cases refused
              refine ⟨fun p named => ?_, [], given.2, rest, rfl,
                fun other member => absurd member List.not_mem_nil⟩
              rw [Parameter.ofName?_eq_some_iff.mpr named] at unknown
              cases unknown
          · split at refused
            · cases refused
            · cases refused

end Binding

namespace Arguments

variable {α β : Type} {arguments arguments' : Arguments α}

/-- The same arguments under unprinted names. -/
def unprinted (arguments : Arguments α) : Arguments α where
  positional := arguments.positional
  keywords := arguments.keywords.map fun given => (given.1.unprinted, given.2)

/-- The same arguments, with names of the same contents that may print in other ways. -/
structure Reprints (arguments arguments' : Arguments α) : Prop where
  positional : arguments'.positional = arguments.positional
  keywords : List.Forall₂
    (fun given given' => given'.1.content = given.1.content ∧ given'.2 = given.2)
    arguments.keywords arguments'.keywords

theorem reprints_iff :
    arguments.Reprints arguments' ↔ arguments'.unprinted = arguments.unprinted := by
  have alike : ∀ given given' : Keyword × α,
      given'.1.content = given.1.content ∧ given'.2 = given.2 ↔
        (given.1.unprinted, given.2) = (given'.1.unprinted, given'.2) := fun given given' => by
    rw [Prod.mk.injEq, Keyword.unprinted_eq_iff, eq_comm, eq_comm (a := given'.2)]
  have keywords : List.Forall₂
      (fun given given' => given'.1.content = given.1.content ∧ given'.2 = given.2)
        arguments.keywords arguments'.keywords ↔
      arguments.unprinted.keywords = arguments'.unprinted.keywords := by
    rw [← congrFun (congrFun List.forall₂_eq_eq_eq _) _, unprinted, unprinted,
      List.forall₂_map_left_iff, List.forall₂_map_right_iff]
    simp only [alike]
  constructor
  · rintro ⟨positional, named⟩
    exact congrArg₂ mk positional (keywords.mp named).symm
  · intro same
    exact ⟨congrArg (·.positional) same, keywords.mpr (congrArg (·.keywords) same).symm⟩

theorem inOrder_unprinted
    (arguments : Arguments α) :
    arguments.unprinted.inOrder = arguments.inOrder := by
  simp [inOrder, unprinted, Function.comp_def]

/-- To bind unprinted names is to bind, and to forget how an unexpected one prints. -/
theorem bind_unprinted
    (arguments : Arguments α) :
    arguments.unprinted.bind = arguments.bind.mapError CallError.unprinted := by
  have start := Binding.unprinted_ofPositional arguments.positional
  unfold bind unprinted
  simp only
  cases byPosition : Binding.ofPositional arguments.positional with
  | error e =>
      rw [byPosition] at start
      exact (congrArg (Except.error (α := α × α)) (Except.error.inj start)).symm
  | ok bound =>
      show (bound.addKeywords _ >>= Binding.complete) =
        (bound.addKeywords _ >>= Binding.complete).mapError _
      rw [Binding.addKeywords_unprinted]
      cases bound.addKeywords arguments.keywords with
      | error e => rfl
      | ok further => exact further.unprinted_complete.symm

/-! ## The one name that is told -/

/-- The first keyword of a call that cannot be taken is this one, and it names no parameter. -/
structure Unexpected (arguments : Arguments α) (keyword : Keyword) : Prop where
  few : arguments.positional.length ≤ 2
  first : arguments.offenders.head? = some keyword
  unknown : ∀ p : Parameter, keyword.content ≠ p.text

/-- A call that is told of an unexpected keyword is told of the first that cannot be taken. -/
theorem unexpected_of_bind
    {keyword : Keyword}
    (rejected : arguments.bind = .error (.unexpected keyword)) :
    arguments.Unexpected keyword := by
  have few : arguments.positional.length ≤ 2 := by
    refine Nat.not_lt.mp fun many => ?_
    rw [bind_of_many many] at rejected
    cases rejected
  obtain ⟨start, unfilled, bind_eq⟩ := bind_of_few few
  have stopped : start.addKeywords arguments.keywords = .error (.unexpected keyword) := by
    rw [bind_eq] at rejected
    cases added : start.addKeywords arguments.keywords with
    | error e =>
        rw [added] at rejected
        cases rejected
        rfl
    | ok bound =>
        rw [added] at rejected
        exact absurd rejected (bound.complete_ne_unexpected keyword)
  obtain ⟨unknown, earlier, value, later, keywords, taken⟩ :=
    Binding.unexpected_of_addKeywords stopped
  refine ⟨few, ?_, unknown⟩
  have fine : (earlier.filter fun given =>
      decide (given.1.Offends arguments.positional.length)) = [] := by
    refine List.filter_eq_nil_iff.mpr fun given member offends => ?_
    obtain ⟨p, named, empty⟩ := taken given member
    exact Keyword.not_offends_iff.mpr ⟨p, named, (unfilled p).mp empty⟩ (of_decide_eq_true offends)
  have offends : keyword.Offends arguments.positional.length := .inl unknown
  rw [offenders, keywords, List.filter_append, fine, List.nil_append, List.filter_cons_of_pos]
  · rfl
  · exact decide_eq_true offends

/-- **Binding goes by contents.**  However names print, the same is bound or the same is wrong, but
for the name of an unexpected keyword. -/
theorem Reprints.bind
    (reprints : arguments.Reprints arguments') :
    arguments'.bind = arguments.bind ∨
      ∃ keyword keyword', keyword'.content = keyword.content ∧
        arguments.bind = .error (.unexpected keyword) ∧
        arguments'.bind = .error (.unexpected keyword') := by
  have same : arguments'.bind.mapError CallError.unprinted =
      arguments.bind.mapError CallError.unprinted := by
    rw [← bind_unprinted, ← bind_unprinted, reprints_iff.mp reprints]
  cases bound : arguments.bind with
  | ok both =>
      cases bound' : arguments'.bind with
      | ok both' =>
          rw [bound, bound'] at same
          exact .inl same
      | error e' =>
          rw [bound, bound'] at same
          cases same
  | error e =>
      cases bound' : arguments'.bind with
      | ok both' =>
          rw [bound, bound'] at same
          cases same
      | error e' =>
          rw [bound, bound'] at same
          rcases CallError.eq_or_unexpected_of_unprinted (Except.error.inj same) with
            rfl | ⟨keyword, keyword', content, rfl, rfl⟩
          · exact .inl rfl
          · exact .inr ⟨keyword, keyword', content, rfl, rfl⟩

end Arguments
end SharedPair
