import SharedPair.Call

/-!
# Binding without an order

Binding takes the arguments of a call one after the other and stops at the first that
does not fit.  What it comes to can be said without that order: a call fits when it
gives at most two arguments by position and names exactly the parameters that are left
by keyword, and then each parameter is bound to the one argument that is given for it.
-/

namespace SharedPair

/-- A result comes from results of both parts. -/
theorem ok_of_bind
    {ε α β : Type} {first : Except ε α} {next : α → Except ε β} {b : β}
    (made : first >>= next = .ok b) :
    ∃ a, first = .ok a ∧ next a = .ok b := by
  cases first with
  | error e =>
      cases made
  | ok a =>
      exact ⟨a, rfl, made⟩

namespace Parameter

/-- The parameters, in order. -/
def all : List Parameter := [a, b]

/-- The place of a parameter in the order. -/
def index : Parameter → Nat
  | a => 0
  | b => 1

/-- The name of a parameter, as a keyword has to give it. -/
def text (p : Parameter) : Text := Text.ofString p.name

theorem forall_iff
    {P : Parameter → Prop} :
    (∀ p, P p) ↔ P a ∧ P b := by
  constructor
  · intro holds
    exact ⟨holds a, holds b⟩
  · rintro ⟨first, second⟩ p
    cases p
    · exact first
    · exact second

theorem text_injective
    {p q : Parameter}
    (same : p.text = q.text) :
    p = q := by
  revert same
  cases p <;> cases q <;> decide

theorem ofName?_eq_some_iff
    {content : Text} {p : Parameter} :
    ofName? content = some p ↔ content = p.text := by
  unfold ofName?
  constructor
  · intro found
    split at found
    · next same =>
        cases found
        exact same
    · split at found
      · next same =>
          cases found
          exact same
      · cases found
  · rintro rfl
    cases p <;> decide

/-- The last names are those of the parameters that are not filled by position. -/
theorem mem_drop_iff
    {content : Text} {n : Nat} :
    content ∈ (all.map text).drop n ↔ ∃ p : Parameter, n ≤ p.index ∧ content = p.text := by
  constructor
  · intro member
    match n with
    | 0 =>
        obtain ⟨p, -, rfl⟩ := List.mem_map.mp member
        exact ⟨p, Nat.zero_le _, rfl⟩
    | 1 =>
        exact ⟨b, Nat.le_refl _, List.mem_singleton.mp member⟩
    | _ + 2 =>
        simp [all] at member
  · rintro ⟨p, left, rfl⟩
    match n, p with
    | 0, a =>
        exact List.mem_cons_self
    | 0, b =>
        exact List.mem_cons_of_mem _ List.mem_cons_self
    | 1, b =>
        exact List.mem_cons_self
    | 1, a =>
        cases left
    | _ + 2, a =>
        cases left
    | _ + 2, b =>
        simp [index] at left

end Parameter

namespace Keyword

variable {α : Type}

/-- Whether one of some keywords gives an argument for a parameter. -/
def Gives (keywords : List (Keyword × α)) (p : Parameter) (value : α) : Prop :=
  ∃ keyword, (keyword, value) ∈ keywords ∧ keyword.content = p.text

theorem gives_cons
    {keyword : Keyword} {given value : α} {rest : List (Keyword × α)} {p : Parameter} :
    Gives ((keyword, given) :: rest) p value ↔
      keyword.content = p.text ∧ value = given ∨ Gives rest p value := by
  constructor
  · rintro ⟨other, member, named⟩
    rcases List.mem_cons.mp member with eq | member
    · cases eq
      exact .inl ⟨named, rfl⟩
    · exact .inr ⟨other, member, named⟩
  · rintro (⟨named, rfl⟩ | ⟨other, member, named⟩)
    · exact ⟨keyword, List.mem_cons_self, named⟩
    · exact ⟨other, List.mem_cons_of_mem _ member, named⟩

end Keyword

namespace Binding

variable {α : Type} {bound further : Binding α}

theorem get_set
    (bound : Binding α) (value : α) (p q : Parameter) :
    (bound.set value p).get q = if p = q then some value else bound.get q := by
  cases p <;> cases q <;> rfl

theorem ofPositional_ok_iff
    {given : List α} :
    ofPositional given = .ok bound ↔
      given.length ≤ 2 ∧ ∀ p : Parameter, bound.get p = given[p.index]? := by
  rcases bound with ⟨first, second⟩
  match given with
  | [] =>
      simp [ofPositional, Parameter.forall_iff, get, Parameter.index, eq_comm]
  | [x] =>
      simp [ofPositional, Parameter.forall_iff, get, Parameter.index, eq_comm]
  | [x, y] =>
      simp [ofPositional, Parameter.forall_iff, get, Parameter.index, eq_comm]
  | x :: y :: z :: rest =>
      simp [ofPositional]

theorem ofPositional_of_length_le
    {given : List α}
    (few : given.length ≤ 2) :
    ∃ bound, ofPositional given = .ok bound := by
  match given with
  | [] | [_] | [_, _] =>
      exact ⟨_, rfl⟩
  | _ :: _ :: _ :: _ =>
      simp at few

theorem complete_ok_iff
    {x y : α} :
    bound.complete = .ok (x, y) ↔ bound.get .a = some x ∧ bound.get .b = some y := by
  rcases bound with ⟨first, second⟩
  cases first <;> cases second <;> simp [complete, get]

theorem addKeyword_ok_iff
    {keyword : Keyword} {value : α} :
    bound.addKeyword keyword value = .ok further ↔
      ∃ p : Parameter, keyword.content = p.text ∧ bound.get p = none ∧
        further = bound.set value p := by
  unfold addKeyword
  constructor
  · intro added
    split at added
    · cases added
    · next p known =>
        split at added
        · cases added
        · next empty =>
            cases added
            exact ⟨p, Parameter.ofName?_eq_some_iff.mp known, empty, rfl⟩
  · rintro ⟨p, named, empty, rfl⟩
    rw [Parameter.ofName?_eq_some_iff.mpr named]
    simp only [empty]

/-- A parameter holds what it held before, or what a keyword gave it. -/
theorem get_addKeywords
    {p : Parameter} {value : α}
    {keywords : List (Keyword × α)} {bound further : Binding α}
    (added : bound.addKeywords keywords = .ok further) :
    further.get p = some value ↔
      bound.get p = some value ∨ Keyword.Gives keywords p value := by
  induction keywords generalizing bound with
  | nil =>
      cases added
      simp [Keyword.Gives]
  | cons given rest ih =>
      unfold addKeywords at added
      split at added
      · next between first =>
          obtain ⟨q, named, empty, rfl⟩ := addKeyword_ok_iff.mp first
          rw [ih added, get_set, Keyword.gives_cons, named]
          by_cases same : q = p
          · subst same
            simp [empty, eq_comm]
          · have other : q.text ≠ p.text := fun eq => same (Parameter.text_injective eq)
            simp [same, other]
      · cases added

/-- Every keyword that is taken names a parameter that was not filled. -/
theorem open_of_addKeywords
    {keywords : List (Keyword × α)} {bound further : Binding α}
    (added : bound.addKeywords keywords = .ok further) :
    ∀ given ∈ keywords, ∃ p : Parameter, given.1.content = p.text ∧ bound.get p = none := by
  induction keywords generalizing bound with
  | nil =>
      intro given member
      cases member
  | cons head rest ih =>
      unfold addKeywords at added
      split at added
      · next between first =>
          obtain ⟨q, named, empty, rfl⟩ := addKeyword_ok_iff.mp first
          intro given member
          rcases List.mem_cons.mp member with rfl | member
          · exact ⟨q, named, empty⟩
          · obtain ⟨p, named', empty'⟩ := ih added given member
            rw [get_set] at empty'
            split at empty'
            · cases empty'
            · exact ⟨p, named', empty'⟩
      · cases added

/-- Keywords of different names that all name unfilled parameters are taken. -/
theorem addKeywords_of_open
    {keywords : List (Keyword × α)} {bound : Binding α}
    (distinct : (keywords.map fun given => given.1.content).Nodup)
    (unfilled : ∀ given ∈ keywords, ∃ p : Parameter,
      given.1.content = p.text ∧ bound.get p = none) :
    ∃ further, bound.addKeywords keywords = .ok further := by
  induction keywords generalizing bound with
  | nil => exact ⟨bound, rfl⟩
  | cons head rest ih =>
      rcases head with ⟨keyword, value⟩
      obtain ⟨q, named, empty⟩ := unfilled _ List.mem_cons_self
      obtain ⟨apart, distinct⟩ := List.nodup_cons.mp distinct
      have later : ∀ given ∈ rest, ∃ p : Parameter,
          given.1.content = p.text ∧ (bound.set value q).get p = none := by
        intro given member
        obtain ⟨p, named', empty'⟩ := unfilled given (List.mem_cons_of_mem _ member)
        refine ⟨p, named', ?_⟩
        have other : q ≠ p := by
          rintro rfl
          refine apart (List.mem_map.mpr ⟨given, member, ?_⟩)
          exact named'.trans named.symm
        rw [get_set, if_neg other]
        exact empty'
      obtain ⟨further, added⟩ := ih distinct later
      refine ⟨further, ?_⟩
      rw [addKeywords, addKeyword_ok_iff.mpr ⟨q, named, empty, rfl⟩]
      exact added

/-! ## Nothing is bound twice or left out -/

/-- The arguments that are bound. -/
def filled (bound : Binding α) : List α := bound.a.toList ++ bound.b.toList

theorem filled_set_perm
    {p : Parameter}
    (empty : bound.get p = none)
    (value : α) :
    ((bound.set value p).filled).Perm (bound.filled ++ [value]) := by
  rcases bound with ⟨first, second⟩
  cases p with
  | a =>
      cases empty
      exact (List.perm_append_singleton value second.toList).symm
  | b =>
      cases empty
      rw [filled, set, filled, Option.toList_none, List.append_nil]
      exact List.Perm.refl _

theorem filled_ofPositional
    {given : List α}
    (bind : ofPositional given = .ok bound) :
    bound.filled = given := by
  match given with
  | [] | [_] | [_, _] =>
      cases bind
      rfl
  | _ :: _ :: _ :: _ =>
      cases bind

theorem filled_addKeywords_perm
    {keywords : List (Keyword × α)} {bound further : Binding α}
    (added : bound.addKeywords keywords = .ok further) :
    (bound.filled ++ keywords.map Prod.snd).Perm further.filled := by
  induction keywords generalizing bound with
  | nil =>
      cases added
      rw [List.map_nil, List.append_nil]
  | cons given rest ih =>
      unfold addKeywords at added
      split at added
      · next between first =>
          obtain ⟨q, named, empty, rfl⟩ := addKeyword_ok_iff.mp first
          have later := ih added
          rw [List.map_cons, List.append_cons]
          exact ((filled_set_perm empty given.2).symm.append_right _).trans later
      · cases added

end Binding

namespace Arguments

variable {α : Type} {arguments : Arguments α}

/-- The contents of the keywords, in their order. -/
def contents (arguments : Arguments α) : List Text :=
  arguments.keywords.map fun given => given.1.content

/-- Whether a call gives just what the parameters need: at most two arguments by position, and by
keyword the last of the parameters, which are not filled by position. -/
structure Fits (arguments : Arguments α) : Prop where
  few : arguments.positional.length ≤ 2
  named : ∀ content, content ∈ arguments.contents ↔
    content ∈ (Parameter.all.map Parameter.text).drop arguments.positional.length

/-- Whether an argument is given for a parameter, by position or by keyword. -/
def Gives (arguments : Arguments α) (p : Parameter) (value : α) : Prop :=
  arguments.positional[p.index]? = some value ∨ Keyword.Gives arguments.keywords p value

/-- What can be wrong with a call. -/
inductive Misfit (arguments : Arguments α) : Prop
  | tooMany
      (more : 2 < arguments.positional.length)
  | unexpected
      {content : Text}
      (given : content ∈ arguments.contents)
      (unknown : ∀ p : Parameter, content ≠ p.text)
  | repeated
      {p : Parameter}
      (filled : p.index < arguments.positional.length)
      (given : p.text ∈ arguments.contents)
  | missing
      {p : Parameter}
      (unfilled : arguments.positional.length ≤ p.index)
      (absent : p.text ∉ arguments.contents)

/-- A call fits when nothing is wrong with it. -/
theorem fits_iff_not_misfit :
    arguments.Fits ↔ ¬ arguments.Misfit := by
  constructor
  · rintro ⟨few, named⟩ misfit
    cases misfit with
    | tooMany more =>
        omega
    | unexpected given unknown =>
        obtain ⟨p, -, eq⟩ := Parameter.mem_drop_iff.mp ((named _).mp given)
        exact unknown p eq
    | repeated filled given =>
        obtain ⟨p, left, eq⟩ := Parameter.mem_drop_iff.mp ((named _).mp given)
        rw [Parameter.text_injective eq] at filled
        omega
    | missing unfilled absent =>
        exact absent ((named _).mpr (Parameter.mem_drop_iff.mpr ⟨_, unfilled, rfl⟩))
  · intro right
    refine ⟨Nat.not_lt.mp fun more => right (.tooMany more), fun content => ?_⟩
    rw [Parameter.mem_drop_iff]
    constructor
    · intro given
      obtain ⟨p, eq⟩ : ∃ p : Parameter, content = p.text := by
        refine Classical.byContradiction fun unknown => right (.unexpected given ?_)
        exact fun p eq => unknown ⟨p, eq⟩
      subst eq
      exact ⟨p, Nat.not_lt.mp fun filled => right (.repeated filled given), rfl⟩
    · rintro ⟨p, unfilled, rfl⟩
      exact Classical.byContradiction fun absent => right (.missing unfilled absent)

/-- A call that fits gives an argument for every parameter. -/
theorem Fits.gives
    (fits : arguments.Fits)
    (p : Parameter) :
    ∃ value, arguments.Gives p value := by
  by_cases filled : p.index < arguments.positional.length
  · exact ⟨_, .inl (List.getElem?_eq_getElem filled)⟩
  · have left : p.text ∈ arguments.contents :=
      (fits.named _).mpr (Parameter.mem_drop_iff.mpr ⟨p, Nat.not_lt.mp filled, rfl⟩)
    obtain ⟨⟨keyword, value⟩, member, named⟩ := List.mem_map.mp left
    exact ⟨value, .inr ⟨keyword, member, named⟩⟩

/-- **Binding without an order.**  A call binds two arguments just when it fits and gives them for
the parameters. -/
theorem bind_ok_iff
    (distinct : arguments.contents.Nodup)
    {x y : α} :
    arguments.bind = .ok (x, y) ↔
      arguments.Fits ∧ arguments.Gives .a x ∧ arguments.Gives .b y := by
  constructor
  · intro bind
    obtain ⟨start, byPosition, bind⟩ := ok_of_bind bind
    obtain ⟨bound, added, complete⟩ := ok_of_bind bind
    obtain ⟨few, filled⟩ := Binding.ofPositional_ok_iff.mp byPosition
    obtain ⟨first, second⟩ := Binding.complete_ok_iff.mp complete
    have unfilled := Binding.open_of_addKeywords added
    rw [Binding.get_addKeywords added, filled] at first second
    have given : ∀ p : Parameter, ∃ value, arguments.Gives p value :=
      Parameter.forall_iff.mpr ⟨⟨x, first⟩, ⟨y, second⟩⟩
    refine ⟨⟨few, fun content => ?_⟩, first, second⟩
    rw [Parameter.mem_drop_iff]
    constructor
    · intro named
      obtain ⟨⟨keyword, value⟩, member, rfl⟩ := List.mem_map.mp named
      obtain ⟨p, eq, empty⟩ := unfilled _ member
      rw [filled] at empty
      exact ⟨p, List.getElem?_eq_none_iff.mp empty, eq⟩
    · rintro ⟨p, left, rfl⟩
      rcases given p with ⟨value, position | ⟨keyword, member, named⟩⟩
      · rw [List.getElem?_eq_none_iff.mpr left] at position
        cases position
      · exact List.mem_map.mpr ⟨_, member, named⟩
  · rintro ⟨⟨few, named⟩, first, second⟩
    obtain ⟨start, byPosition⟩ := Binding.ofPositional_of_length_le few
    obtain ⟨-, filled⟩ := Binding.ofPositional_ok_iff.mp byPosition
    have unfilled : ∀ given ∈ arguments.keywords,
        ∃ p : Parameter, given.1.content = p.text ∧ start.get p = none := by
      intro given member
      obtain ⟨p, left, eq⟩ := Parameter.mem_drop_iff.mp
        ((named _).mp (List.mem_map_of_mem member))
      exact ⟨p, eq, (filled p).trans (List.getElem?_eq_none_iff.mpr left)⟩
    obtain ⟨bound, added⟩ := Binding.addKeywords_of_open distinct unfilled
    have complete : bound.complete = .ok (x, y) := by
      rw [Binding.complete_ok_iff, Binding.get_addKeywords added, Binding.get_addKeywords added,
        filled, filled]
      exact ⟨first, second⟩
    rw [bind, byPosition]
    show start.addKeywords arguments.keywords >>= Binding.complete = _
    rw [added]
    exact complete

/-- What is given for a parameter is what it is bound to. -/
theorem eq_of_gives
    {p : Parameter} {x y value : α}
    (distinct : arguments.contents.Nodup)
    (bound : arguments.bind = .ok (x, y)) (given : arguments.Gives p value) :
    some value = [x, y][p.index]? := by
  obtain ⟨fits, one, two⟩ := (bind_ok_iff distinct).mp bound
  cases p with
  | a =>
      have again := (bind_ok_iff distinct).mpr ⟨fits, given, two⟩
      rw [bound] at again
      cases again
      rfl
  | b =>
      have again := (bind_ok_iff distinct).mpr ⟨fits, one, given⟩
      rw [bound] at again
      cases again
      rfl

theorem Fits.bind
    (fits : arguments.Fits)
    (distinct : arguments.contents.Nodup) :
    ∃ pair, arguments.bind = .ok pair := by
  obtain ⟨x, given⟩ := fits.gives .a
  obtain ⟨y, given'⟩ := fits.gives .b
  exact ⟨(x, y), (bind_ok_iff distinct).mpr ⟨fits, given, given'⟩⟩

theorem not_fits_of_rejected
    {e : CallError}
    (distinct : arguments.contents.Nodup)
    (rejected : arguments.bind = .error e) :
    ¬ arguments.Fits := by
  intro fits
  obtain ⟨pair, accepted⟩ := fits.bind distinct
  rw [rejected] at accepted
  cases accepted

/-- The arguments that are bound are all that there are. -/
theorem inOrder_perm_of_bind
    {x y : α}
    (bind : arguments.bind = .ok (x, y)) :
    arguments.inOrder.Perm [x, y] := by
  obtain ⟨start, byPosition, bind⟩ := ok_of_bind bind
  obtain ⟨bound, added, complete⟩ := ok_of_bind bind
  have filled := Binding.filled_addKeywords_perm added
  rw [Binding.filled_ofPositional byPosition] at filled
  obtain ⟨first, second⟩ := Binding.complete_ok_iff.mp complete
  have both : bound.filled = [x, y] := by
    rw [Binding.filled, show bound.a = some x from first, show bound.b = some y from second]
    rfl
  rw [both] at filled
  exact filled

theorem mem_inOrder_of_bind
    {x y : α}
    (bind : arguments.bind = .ok (x, y)) :
    x ∈ arguments.inOrder ∧ y ∈ arguments.inOrder :=
  ⟨(inOrder_perm_of_bind bind).mem_iff.mpr List.mem_cons_self,
    (inOrder_perm_of_bind bind).mem_iff.mpr (List.mem_cons_of_mem _ List.mem_cons_self)⟩

end Arguments
end SharedPair
