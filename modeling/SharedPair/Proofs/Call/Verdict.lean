import Mathlib.Data.Fintype.Basic
import SharedPair.Proofs.Call.Binding

/-!
# What is said of a call that has no binding

Many things can be wrong with a call at once, and it is told of one of them.  Which one
can be said without going through its arguments: too many arguments by position hide
everything else; then comes the first keyword that cannot be taken, in the order of the
call; and what is missing is told only if all keywords can be taken.

Whether a keyword can be taken depends on the arguments by position alone, because the
names of keywords differ.  So the order of the keywords shows where two or more of them
cannot be taken, and nowhere else.
-/

namespace SharedPair

/-! ## Printed names -/

namespace CodePoint

/-- Whether a code point is one half of a surrogate pair. -/
def Surrogate (p : CodePoint) : Prop := 0xD800 ≤ p.val ∧ p.val < 0xE000

theorem print_of_surrogate
    {p : CodePoint}
    (half : p.Surrogate) :
    p.print = List.replicate 3 '\uFFFD' := by
  have invalid : ¬ p.val.isValidChar := by
    rintro (low | high)
    · exact absurd half.1 (Nat.not_le.mpr low)
    · exact absurd high.1 (Nat.not_lt.mpr (Nat.le_of_lt_succ half.2))
  rw [print, toChar?, dif_neg invalid]

/-- A code point that is no surrogate is printed as it is. -/
theorem print_of_not_surrogate
    {p : CodePoint}
    (whole : ¬ p.Surrogate) :
    ∃ c : Char, c.toNat = p.val ∧ p.print = [c] := by
  have valid : p.val.isValidChar := by
    unfold Surrogate at whole
    have bound := p.isLt
    unfold Nat.isValidChar
    omega
  refine ⟨Char.ofNatAux p.val valid, ?_, ?_⟩
  · rfl
  · rw [print, toChar?, dif_pos valid]

end CodePoint

theorem Text.toList_print
    (t : Text) :
    t.print.toList = t.points.flatMap CodePoint.print :=
  String.toList_ofList

/-! ## Keywords that cannot be taken -/

instance : Fintype Parameter where
  elems := {.a, .b}
  complete p := by
    cases p <;> decide

namespace Keyword

/-- Whether a keyword cannot be taken when some parameters are filled by position: it names none, or
one of those. -/
def Offends (filled : Nat) (keyword : Keyword) : Prop :=
  (∀ p : Parameter, keyword.content ≠ p.text) ∨
    ∃ p : Parameter, keyword.content = p.text ∧ p.index < filled

instance (filled : Nat) (keyword : Keyword) : Decidable (keyword.Offends filled) :=
  inferInstanceAs (Decidable (_ ∨ _))

/-- What is said of a keyword that cannot be taken. -/
def fault (keyword : Keyword) : CallError :=
  match Parameter.ofName? keyword.content with
  | some p => .repeated p
  | none => .unexpected keyword

variable {keyword : Keyword} {p : Parameter} {filled : Nat}

theorem fault_of_known
    (named : keyword.content = p.text) :
    keyword.fault = .repeated p := by
  rw [fault, Parameter.ofName?_eq_some_iff.mpr named]

theorem fault_of_unknown
    (unknown : ∀ p : Parameter, keyword.content ≠ p.text) :
    keyword.fault = .unexpected keyword := by
  cases known : Parameter.ofName? keyword.content with
  | some p => exact absurd (Parameter.ofName?_eq_some_iff.mp known) (unknown p)
  | none => rw [fault, known]

/-- A keyword can be taken just when it names a parameter that is left. -/
theorem not_offends_iff :
    ¬ keyword.Offends filled ↔ ∃ p : Parameter, keyword.content = p.text ∧ filled ≤ p.index := by
  constructor
  · intro fine
    obtain ⟨known, left⟩ := not_or.mp fine
    obtain ⟨p, named⟩ := not_forall_not.mp known
    exact ⟨p, named, Nat.not_lt.mp fun taken => left ⟨p, named, taken⟩⟩
  · rintro ⟨p, named, left⟩ (unknown | ⟨q, named', taken⟩)
    · exact unknown p named
    · obtain rfl := Parameter.text_injective (named.symm.trans named')
      exact absurd taken (Nat.not_lt.mpr left)

end Keyword

/-- What is said of parameters that are missing. -/
def CallError.ofMissing? : List Parameter → Option CallError
  | [] => none
  | [p] => some (.missing p)
  | _ => some .missingBoth

namespace Arguments

variable {α : Type}

/-- The keywords that cannot be taken, in the order of the call. -/
def offenders (arguments : Arguments α) : List Keyword :=
  (arguments.keywords.filter fun given =>
    decide (given.1.Offends arguments.positional.length)).map Prod.fst

/-- The parameters that are given neither by position nor by keyword, in their order. -/
def missing (arguments : Arguments α) : List Parameter :=
  Parameter.all.filter fun p =>
    decide (arguments.positional.length ≤ p.index ∧ p.text ∉ arguments.contents)

end Arguments

/-! ## The first fault -/

namespace Binding

variable {α : Type} {bound further : Binding α}

theorem addKeywords_append
    {earlier : List (Keyword × α)}
    (added : bound.addKeywords earlier = .ok further)
    (later : List (Keyword × α)) :
    bound.addKeywords (earlier ++ later) = further.addKeywords later := by
  induction earlier generalizing bound with
  | nil =>
      cases added
      rfl
  | cons given rest ih =>
      unfold addKeywords at added
      rw [List.cons_append, addKeywords]
      split at added
      · next between first =>
          exact ih added
      · cases added

/-- A keyword that names no parameter, or one that has an argument, ends the call. -/
theorem addKeyword_of_blocked
    {keyword : Keyword}
    (blocked : ∀ p : Parameter, keyword.content = p.text → bound.get p ≠ none)
    (value : α) :
    bound.addKeyword keyword value = .error keyword.fault := by
  unfold addKeyword Keyword.fault
  cases known : Parameter.ofName? keyword.content with
  | none => rfl
  | some p =>
      obtain ⟨taken, holds⟩ :=
        Option.ne_none_iff_exists'.mp (blocked p (Parameter.ofName?_eq_some_iff.mp known))
      simp only [holds]

section Taken

variable {filled : Nat} (open_iff : ∀ p : Parameter, bound.get p = none ↔ filled ≤ p.index)
include open_iff

/-- The keywords that can be taken are taken. -/
theorem addKeywords_of_fine
    {keywords : List (Keyword × α)}
    (distinct : (keywords.map fun given => given.1.content).Nodup)
    (fine : ∀ given ∈ keywords, ¬ given.1.Offends filled) :
    ∃ further, bound.addKeywords keywords = .ok further := by
  refine addKeywords_of_open distinct fun given member => ?_
  obtain ⟨p, named, left⟩ := Keyword.not_offends_iff.mp (fine given member)
  exact ⟨p, named, (open_iff p).mpr left⟩

/-- The first keyword that cannot be taken ends the call. -/
theorem addKeywords_of_offender
    {earlier later : List (Keyword × α)} {keyword : Keyword}
    (distinct : (earlier.map fun given => given.1.content).Nodup)
    (fine : ∀ given ∈ earlier, ¬ given.1.Offends filled)
    (offends : keyword.Offends filled)
    (value : α) :
    bound.addKeywords (earlier ++ (keyword, value) :: later) = .error keyword.fault := by
  obtain ⟨further, added⟩ := addKeywords_of_fine open_iff distinct fine
  have blocked : ∀ p : Parameter, keyword.content = p.text → further.get p ≠ none := by
    intro p named empty
    -- what is filled by position stays filled while keywords are taken
    have unfilled : bound.get p = none := by
      refine Option.eq_none_iff_forall_ne_some.mpr fun taken holds => ?_
      rw [(get_addKeywords added).mpr (.inl holds)] at empty
      cases empty
    exact Keyword.not_offends_iff.mpr ⟨p, named, (open_iff p).mp unfilled⟩ offends
  rw [addKeywords_append added, addKeywords, addKeyword_of_blocked blocked]

end Taken

/-- A parameter is left without an argument when it had none and no keyword names it. -/
theorem get_addKeywords_eq_none_iff
    {keywords : List (Keyword × α)} {p : Parameter}
    (added : bound.addKeywords keywords = .ok further) :
    further.get p = none ↔
      bound.get p = none ∧ p.text ∉ keywords.map fun given => given.1.content := by
  rw [Option.eq_none_iff_forall_ne_some, Option.eq_none_iff_forall_ne_some]
  constructor
  · intro empty
    refine ⟨fun value held => empty value ((get_addKeywords added).mpr (.inl held)), ?_⟩
    intro named
    obtain ⟨⟨keyword, value⟩, member, named⟩ := List.mem_map.mp named
    exact empty value ((get_addKeywords added).mpr (.inr ⟨keyword, member, named⟩))
  · rintro ⟨empty, unnamed⟩ value held
    rcases (get_addKeywords added).mp held with held | ⟨keyword, member, named⟩
    · exact empty value held
    · exact unnamed (List.mem_map.mpr ⟨_, member, named⟩)

/-- What is missing is told by the parameters that are left without an argument. -/
theorem complete_error_iff
    {e : CallError}
    (bound : Binding α) :
    bound.complete = .error e ↔
      CallError.ofMissing? (Parameter.all.filter fun p => (bound.get p).isNone) = some e := by
  rcases bound with ⟨_ | x, _ | y⟩
  all_goals
    simp [complete, Parameter.all, get, CallError.ofMissing?]

end Binding

/-! ## The verdict -/

namespace Arguments

variable {α β : Type} {arguments arguments' : Arguments α}

/-- What is told of a call, if anything is wrong with it. -/
def verdict (arguments : Arguments α) : Option CallError :=
  if 2 < arguments.positional.length then some (.tooMany arguments.positional.length)
  else
    match arguments.offenders with
    | keyword :: _ => some keyword.fault
    | [] => CallError.ofMissing? arguments.missing

theorem bind_of_many
    (many : 2 < arguments.positional.length) :
    arguments.bind = .error (.tooMany arguments.positional.length) := by
  have start : Binding.ofPositional arguments.positional =
      .error (.tooMany arguments.positional.length) := by
    match given : arguments.positional with
    | [] | [_] | [_, _] =>
        rw [given] at many
        simp at many
    | _ :: _ :: _ :: _ => rfl
  rw [bind, start]
  rfl

/-- With few enough arguments by position, the keywords decide. -/
theorem bind_of_few
    (few : arguments.positional.length ≤ 2) :
    ∃ start : Binding α,
      (∀ p : Parameter, start.get p = none ↔ arguments.positional.length ≤ p.index) ∧
      arguments.bind = start.addKeywords arguments.keywords >>= Binding.complete := by
  obtain ⟨start, byPosition⟩ := Binding.ofPositional_of_length_le few
  obtain ⟨-, filled⟩ := Binding.ofPositional_ok_iff.mp byPosition
  refine ⟨start, fun p => ?_, ?_⟩
  · rw [filled, List.getElem?_eq_none_iff]
  · rw [bind, byPosition]
    rfl

/-- The first keyword that cannot be taken is the one that is told of. -/
theorem bind_of_offender
    {keyword : Keyword} {others : List Keyword}
    (few : arguments.positional.length ≤ 2)
    (distinct : arguments.contents.Nodup)
    (offends : arguments.offenders = keyword :: others) :
    arguments.bind = .error keyword.fault := by
  obtain ⟨start, unfilled, bind_eq⟩ := bind_of_few few
  obtain ⟨⟨_, value⟩, others, found, rfl, -⟩ := List.map_eq_cons_iff.mp offends
  obtain ⟨earlier, later, keywords, fine, offending, -⟩ := List.filter_eq_cons_iff.mp found
  have distinct' : (earlier.map fun given => given.1.content).Nodup := by
    rw [contents, keywords, List.map_append] at distinct
    exact distinct.of_append_left
  have stopped : ∀ rest, start.addKeywords (earlier ++ (_, value) :: rest) = .error _ :=
    fun rest => Binding.addKeywords_of_offender unfilled distinct'
      (fun given member offending => fine given member (decide_eq_true offending))
      (of_decide_eq_true offending) value
  rw [bind_eq, keywords, stopped]
  rfl

/-- If all keywords can be taken, it is told what is missing. -/
theorem bind_error_iff_of_fine
    {e : CallError}
    (few : arguments.positional.length ≤ 2)
    (distinct : arguments.contents.Nodup)
    (offends : arguments.offenders = []) :
    arguments.bind = .error e ↔ CallError.ofMissing? arguments.missing = some e := by
  obtain ⟨start, unfilled, bind_eq⟩ := bind_of_few few
  have fine : ∀ given ∈ arguments.keywords, ¬ given.1.Offends arguments.positional.length := by
    intro given member
    have none_left := List.filter_eq_nil_iff.mp (List.map_eq_nil_iff.mp offends)
    exact fun offending => none_left given member (decide_eq_true offending)
  obtain ⟨bound, added⟩ := Binding.addKeywords_of_fine unfilled distinct fine
  have missing : arguments.missing = Parameter.all.filter fun p => (bound.get p).isNone := by
    refine List.filter_congr fun p _ => ?_
    rw [Bool.eq_iff_iff, decide_eq_true_iff, Option.isNone_iff_eq_none,
      Binding.get_addKeywords_eq_none_iff added, unfilled]
    rfl
  rw [bind_eq, added, missing, ← Binding.complete_error_iff]
  rfl

/-- **What is told of a call** is its verdict. -/
theorem bind_error_iff
    {e : CallError}
    (distinct : arguments.contents.Nodup) :
    arguments.bind = .error e ↔ arguments.verdict = some e := by
  unfold verdict
  split
  · next many => rw [bind_of_many many, Except.error.injEq, Option.some.injEq]
  · next few =>
      have few := Nat.not_lt.mp few
      cases offends : arguments.offenders with
      | nil => exact bind_error_iff_of_fine few distinct offends
      | cons keyword others =>
          rw [bind_of_offender few distinct offends, Except.error.injEq, Option.some.injEq]

/-- What a call is told, read off its arguments without going through them. -/
structure Told (arguments : Arguments α) (message : String) : Prop where
  tooMany : 2 < arguments.positional.length →
    message = "function_with_cpp_args() takes 2 positional arguments but " ++
      toString arguments.positional.length ++ " were given"
  repeated : arguments.positional.length ≤ 2 → ∀ keyword ∈ arguments.offenders.head?,
    ∀ p : Parameter, keyword.content = p.text →
      message = "function_with_cpp_args() got multiple values for argument '" ++ p.name ++ "'"
  unexpected : arguments.positional.length ≤ 2 → ∀ keyword ∈ arguments.offenders.head?,
    (∀ p : Parameter, keyword.content ≠ p.text) →
      message = "function_with_cpp_args() got an unexpected keyword argument '" ++
        keyword.print ++ "'"
  missing : arguments.positional.length ≤ 2 → arguments.offenders = [] →
    (∃ p, arguments.missing = [p] ∧ message =
      "function_with_cpp_args() missing 1 required positional argument: '" ++ p.name ++ "'") ∨
    (arguments.missing = [.a, .b] ∧ message =
      "function_with_cpp_args() missing 2 required positional arguments: 'a' and 'b'")

/-- Two parameters are missing at most, and in their order. -/
theorem missing_cases
    (arguments : Arguments α) :
    arguments.missing = [] ∨ (∃ p, arguments.missing = [p]) ∨ arguments.missing = [.a, .b] := by
  unfold missing Parameter.all
  by_cases first : arguments.positional.length ≤ Parameter.index .a ∧
      Parameter.text .a ∉ arguments.contents <;>
    by_cases second : arguments.positional.length ≤ Parameter.index .b ∧
      Parameter.text .b ∉ arguments.contents <;>
    simp [first, second]

theorem told_of_verdict
    {e : CallError}
    (verdict : arguments.verdict = some e) :
    arguments.Told e.message := by
  unfold Arguments.verdict at verdict
  constructor
  · intro many
    rw [if_pos many] at verdict
    cases verdict
    rfl
  · intro few keyword first p named
    obtain ⟨others, offenders⟩ := List.head?_eq_some_iff.mp first
    rw [if_neg (Nat.not_lt.mpr few), offenders] at verdict
    cases verdict
    rw [Keyword.fault_of_known named]
    rfl
  · intro few keyword first unknown
    obtain ⟨others, offenders⟩ := List.head?_eq_some_iff.mp first
    rw [if_neg (Nat.not_lt.mpr few), offenders] at verdict
    cases verdict
    rw [Keyword.fault_of_unknown unknown]
    rfl
  · intro few fine
    rw [if_neg (Nat.not_lt.mpr few), fine] at verdict
    rcases arguments.missing_cases with missing | ⟨p, missing⟩ | missing
    · rw [missing] at verdict
      cases verdict
    · rw [missing] at verdict
      cases verdict
      exact .inl ⟨p, missing, rfl⟩
    · rw [missing] at verdict
      cases verdict
      exact .inr ⟨missing, rfl⟩

/-! ## The order of the keywords -/

/-- The same call with its keywords in some order. -/
structure Reorders (arguments arguments' : Arguments α) : Prop where
  positional : arguments'.positional = arguments.positional
  keywords : arguments'.keywords.Perm arguments.keywords

/-- Whether the order of the keywords shows in what is told of a call. -/
def OrderShows (arguments : Arguments α) : Prop :=
  arguments.positional.length ≤ 2 ∧ 2 ≤ arguments.offenders.length

theorem verdict_of_orderShows
    (shows : arguments.OrderShows) :
    ∃ keyword ∈ arguments.offenders.head?, arguments.verdict = some keyword.fault := by
  obtain ⟨few, more⟩ := shows
  cases offenders : arguments.offenders with
  | nil =>
      rw [offenders] at more
      cases more
  | cons keyword others =>
      refine ⟨keyword, rfl, ?_⟩
      rw [verdict, if_neg (Nat.not_lt.mpr few), offenders]

namespace Reorders

variable (reorders : arguments.Reorders arguments')
include reorders

theorem map
    (f : α → β) :
    (arguments.map f).Reorders (arguments'.map f) where
  positional := congrArg (List.map f) reorders.positional
  keywords := reorders.keywords.map _

theorem contents_perm :
    arguments'.contents.Perm arguments.contents :=
  reorders.keywords.map _

theorem inOrder_perm :
    arguments'.inOrder.Perm arguments.inOrder := by
  unfold inOrder
  rw [reorders.positional]
  exact (reorders.keywords.map _).append_left _

theorem offenders_perm :
    arguments'.offenders.Perm arguments.offenders := by
  unfold offenders
  rw [reorders.positional]
  exact (reorders.keywords.filter _).map _

theorem missing_eq :
    arguments'.missing = arguments.missing := by
  refine List.filter_congr fun p _ => ?_
  rw [reorders.positional, decide_eq_decide, reorders.contents_perm.mem_iff]

theorem orderShows_iff :
    arguments'.OrderShows ↔ arguments.OrderShows := by
  unfold OrderShows
  rw [reorders.positional, reorders.offenders_perm.length_eq]

theorem fits
    (fits : arguments.Fits) :
    arguments'.Fits := by
  obtain ⟨few, named⟩ := fits
  refine ⟨reorders.positional ▸ few, fun content => ?_⟩
  rw [reorders.contents_perm.mem_iff, reorders.positional]
  exact named content

theorem gives
    {p : Parameter} {value : α}
    (gives : arguments.Gives p value) :
    arguments'.Gives p value := by
  rcases gives with position | ⟨keyword, member, named⟩
  · exact .inl (reorders.positional ▸ position)
  · exact .inr ⟨keyword, reorders.keywords.mem_iff.mpr member, named⟩

/-- Where at most one keyword cannot be taken, the verdict does not depend on the order. -/
theorem verdict_eq
    (hidden : ¬ arguments.OrderShows) :
    arguments'.verdict = arguments.verdict := by
  unfold verdict
  rw [reorders.positional, reorders.missing_eq]
  split
  · rfl
  · next few =>
      have one : arguments.offenders.length ≤ 1 :=
        Nat.lt_succ_iff.mp (Nat.not_le.mp fun more => hidden ⟨Nat.not_lt.mp few, more⟩)
      have same : arguments'.offenders = arguments.offenders := by
        have perm := reorders.offenders_perm
        match offenders : arguments.offenders with
        | [] =>
            rw [offenders] at perm
            exact perm.eq_nil
        | [keyword] =>
            rw [offenders] at perm
            exact perm.eq_singleton
        | _ :: _ :: _ =>
            rw [offenders] at one
            simp at one
      rw [same]

/-- **The order of the keywords** does not matter where at most one of them cannot be taken. -/
theorem bind_eq
    (distinct : arguments.contents.Nodup)
    (hidden : ¬ arguments.OrderShows) :
    arguments'.bind = arguments.bind := by
  have distinct' : arguments'.contents.Nodup := reorders.contents_perm.nodup_iff.mpr distinct
  cases bound : arguments.bind with
  | ok both =>
      obtain ⟨fits, one, two⟩ := (bind_ok_iff distinct).mp bound
      exact (bind_ok_iff distinct').mpr ⟨reorders.fits fits, reorders.gives one, reorders.gives two⟩
  | error e =>
      rw [bind_error_iff distinct] at bound
      rw [bind_error_iff distinct', reorders.verdict_eq hidden]
      exact bound

end Reorders
end Arguments
end SharedPair
