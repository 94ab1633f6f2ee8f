import SharedPair.Object.Expression
import SharedPair.Proofs.Object.Items

/-!
# What an evaluation makes

An evaluation makes opaque things as it comes to them.  Those that are no part of its
result end with it, so each thing that is made either ends or is in the result.  And
none is made that is not written: the names that an evaluation accounts for are those
written in its expression, each as often as it stands there, or fewer if it fails.
-/

namespace SharedPair

namespace Expression

mutual

/-- The names of the opaque things that are written in an expression. -/
def names : Expression → List String
  | atom _ => []
  | named name => [name]
  | buffer _ => []
  | set members => namesOfAll members
  | list items => namesOfAll items
  | tuple items => namesOfAll items
  | dict entries => namesOfEntries entries

def namesOfAll : List Expression → List String
  | [] => []
  | item :: rest => names item ++ namesOfAll rest

def namesOfEntries : List (Expression × Expression) → List String
  | [] => []
  | (key, value) :: rest => (names key ++ names value) ++ namesOfEntries rest

end

end Expression

namespace Evaluation

variable {α β : Type} {names : α → List String} {names' : β → List String}
  {given written further : List String}

/-- The names of the opaque things that an evaluation made: those that ended with it, and those in
its result. -/
def made (names : α → List String) (e : Evaluation α) : List String :=
  match e.result with
  | .ok a => e.ended ++ names a
  | .error _ => e.ended

/-- What an evaluation accounts for is what it was given and what is written.  If it fails, it may
not have come to all that is written, and what it was given is not its own to end. -/
structure Accounts (e : Evaluation α) (names : α → List String) (given written : List String) :
    Prop where
  failed : ∀ {failure}, e.result = .error failure →
    ∀ name, e.ended.count name ≤ written.count name
  finished : ∀ {a}, e.result = .ok a →
    ∀ name, (e.ended ++ names a).count name = (given ++ written).count name

namespace Accounts

theorem count_made_le
    {e : Evaluation α}
    (accounts : e.Accounts names [] written)
    (name : String) :
    (e.made names).count name ≤ written.count name := by
  rcases e with ⟨result, ended⟩
  cases result with
  | ok a =>
      exact Nat.le_of_eq (accounts.finished rfl name)
  | error failure =>
      exact accounts.failed rfl name

/-- An evaluation that succeeds makes what is written. -/
theorem made_perm
    {e : Evaluation α} {a : α}
    (accounts : e.Accounts names [] written)
    (done : e.result = .ok a) :
    (e.made names).Perm written := by
  rw [List.perm_iff_count]
  intro name
  rw [made, done]
  exact accounts.finished done name

theorem value
    {a : α}
    (covered : ∀ name, (names a).count name = (given ++ written).count name) :
    (Evaluation.value a).Accounts names given written where
  failed eq := by
    cases eq
  finished eq name := by
    cases eq
    exact covered name

/-- A result is put together with what was given. -/
theorem map
    {e : Evaluation α} {f : α → β}
    (accounts : e.Accounts names [] written)
    (covered : ∀ a name, (names' (f a)).count name = (given ++ names a).count name) :
    (e.map f).Accounts names' given written := by
  rcases e with ⟨result, ended⟩
  cases result with
  | error failure =>
      constructor
      · intro failure eq
        exact accounts.failed rfl
      · intro b eq
        cases eq
  | ok a =>
      constructor
      · intro failure eq
        cases eq
      · intro b eq name
        cases eq
        have within := accounts.finished rfl name
        have more := covered a name
        simp only [Evaluation.map, List.count_append, List.nil_append] at within more ⊢
        omega

/-- One evaluation is given the result of another. -/
theorem andThen
    {e : Evaluation α} {next : α → Evaluation β}
    (first : e.Accounts names [] written)
    (second : ∀ a, (next a).Accounts names' (names a) further) :
    (e.andThen names next).Accounts names' [] (written ++ further) := by
  rcases e with ⟨result, ended⟩
  cases result with
  | error failure =>
      constructor
      · intro failure eq name
        have within := first.failed rfl name
        simp only [Evaluation.andThen, List.count_append] at within ⊢
        omega
      · intro b eq
        cases eq
  | ok a =>
      have within := first.finished rfl
      have accounts := second a
      cases last : next a with
      | mk result ended' =>
          rw [last] at accounts
          simp only [Evaluation.andThen, last]
          cases result with
          | error failure =>
              constructor
              · intro failure eq name
                have within := within name
                have more := accounts.failed rfl name
                simp only [List.count_append, List.nil_append] at within more ⊢
                omega
              · intro b eq
                cases eq
          | ok b =>
              constructor
              · intro failure eq
                cases eq
              · intro b eq name
                cases eq
                have within := within name
                have more := accounts.finished rfl name
                simp only [List.count_append, List.nil_append] at within more ⊢
                omega

/-- Things are evaluated one after the other, each with what is written in it. -/
theorem each
    {evaluate : α → Evaluation β} {written : α → List String}
    (accounts : ∀ a, (evaluate a).Accounts names' [] (written a))
    (items : List α) :
    (Evaluation.each names' evaluate items).Accounts (·.flatMap names') []
      (items.flatMap written) := by
  induction items with
  | nil => exact .value fun _ => rfl
  | cons a rest ih => exact (accounts a).andThen fun _ => ih.map fun _ _ => rfl

end Accounts
end Evaluation

open Evaluation (Accounts)

/-- The arguments of a call are accounted for in the order in which they are written. -/
theorem Arguments.accounts_evaluate
    {α β : Type} {names : β → List String} {evaluate : α → Evaluation β} {written : α → List String}
    (accounts : ∀ a, (evaluate a).Accounts names [] (written a))
    (arguments : Arguments α) :
    (arguments.evaluate names evaluate).Accounts (fun results => results.inOrder.flatMap names) []
      (arguments.inOrder.flatMap written) := by
  have keyword : ∀ given : Keyword × α, Accounts ((evaluate given.2).map (given.1, ·))
      (fun given : Keyword × β => names given.2) [] (written given.2) :=
    fun given => (accounts given.2).map fun _ _ => rfl
  have both : Accounts (Evaluation.both _ (·.flatMap names) _)
      (fun results : List β × List (Keyword × β) =>
        results.1.flatMap names ++ results.2.flatMap fun given => names given.2) []
      (arguments.positional.flatMap written ++
        arguments.keywords.flatMap fun given => written given.2) :=
    (Accounts.each accounts arguments.positional).andThen fun _ =>
      (Accounts.each keyword arguments.keywords).map fun _ _ => rfl
  rw [inOrder, List.flatMap_append, List.flatMap_map]
  refine both.map fun results name => ?_
  rw [inOrder, List.flatMap_append, List.flatMap_map]
  rfl

namespace Form

mutual

/-- A form that is a key has nothing opaque in it. -/
theorem names_of_key :
    ∀ {form : Literal} {key : Key}, form.key = .ok key → form.names = []
  | .atom a, _, _ => by
      rw [names]
  | .tuple items, _, done => by
      rw [Form.key] at done
      cases keys : keysOfAll items with
      | error failure =>
          rw [keys] at done
          cases done
      | ok keys' =>
          rw [names]
          exact namesOfAll_of_keys keys
  | .named _, _, done => by
      cases done
  | .buffer _, _, done => by
      cases done
  | .set _, _, done => by
      cases done
  | .list _, _, done => by
      cases done
  | .dict _, _, done => by
      cases done

theorem namesOfAll_of_keys :
    ∀ {items : List Literal} {keys : List Key}, keysOfAll items = .ok keys → namesOfAll items = []
  | [], _, _ => by
      rw [namesOfAll]
  | form :: rest, _, done => by
      rw [keysOfAll] at done
      obtain ⟨first, one, done⟩ := ok_of_bind done
      obtain ⟨others, more, -⟩ := ok_of_bind done
      rw [namesOfAll, names_of_key one, namesOfAll_of_keys more]
      rfl

end

/-- A form that is made a key had nothing to give away. -/
theorem accounts_toKey
    (form : Literal) :
    form.toKey.Accounts (fun _ => []) form.names [] where
  failed _ _ := Nat.zero_le _
  finished done _ := by
    rw [names_of_key done]
    rfl

theorem namesOfAll_eq_flatMap
    (items : List Literal) :
    namesOfAll items = items.flatMap names := by
  induction items with
  | nil =>
      rfl
  | cons form rest ih =>
      rw [namesOfAll, ih, List.flatMap_cons]

theorem namesOfEntries_eq_flatMap
    (entries : List (Key × Literal)) :
    namesOfEntries entries = (entries.map Prod.snd).flatMap names := by
  induction entries with
  | nil =>
      rfl
  | cons entry rest ih =>
      rw [namesOfEntries, ih, List.map_cons, List.flatMap_cons]

/-- A dictionary accounts for the values filed in it and those that were replaced. -/
theorem accounts_ofEntries
    (entries : List (Key × Literal)) :
    (ofEntries entries).Accounts names (namesOfEntries entries) [] where
  failed eq := by
    cases eq
  finished eq name := by
    cases eq
    have filed := ((Key.fileAll_perm entries).flatMap_right names).count_eq name
    rw [List.flatMap_append] at filed
    show (namesOfAll (Key.fileAll entries).2 ++
      names (.dict (Key.fileAll entries).1)).count name = _
    rw [names, namesOfAll_eq_flatMap, namesOfEntries_eq_flatMap, namesOfEntries_eq_flatMap,
      List.append_nil]
    exact filed.symm

end Form

namespace Expression

theorem accounts_atom
    (a : Atom) :
    a.evaluate.Accounts Form.names [] [] := by
  unfold Atom.evaluate
  split
  · constructor
    · intro failure eq name
      exact Nat.zero_le _
    · intro form eq
      cases eq
  · exact .value fun _ => by rw [Form.names, List.nil_append]

mutual

/-- **An evaluation accounts for what is written.** -/
theorem accounts_evaluate :
    ∀ e : Expression, e.evaluate.Accounts Form.names [] e.names
  | atom a => by
      rw [evaluate, names]
      exact accounts_atom a
  | named name => by
      rw [evaluate, names]
      exact .value fun _ => by rw [Form.names, List.nil_append]
  | buffer bs => by
      rw [evaluate, names]
      exact .value fun _ => by rw [Form.names, List.nil_append]
  | set members => by
      rw [evaluate, names]
      exact (accounts_members members).map fun _ _ => by rw [Form.names, List.nil_append]
  | list items => by
      rw [evaluate, names]
      exact (accounts_all items).map fun _ _ => by rw [Form.names, List.nil_append]
  | tuple items => by
      rw [evaluate, names]
      exact (accounts_all items).map fun _ _ => by rw [Form.names, List.nil_append]
  | dict entries => by
      rw [evaluate, names, ← List.append_nil (namesOfEntries entries)]
      exact (accounts_entries entries).andThen Form.accounts_ofEntries

theorem accounts_all :
    ∀ items : List Expression, (evaluateAll items).Accounts Form.namesOfAll [] (namesOfAll items)
  | [] => by
      rw [evaluateAll, namesOfAll]
      exact .value fun _ => by rw [Form.namesOfAll, List.nil_append]
  | item :: rest => by
      rw [evaluateAll, namesOfAll]
      refine (accounts_evaluate item).andThen fun _ => (accounts_all rest).map fun _ _ => ?_
      rw [Form.namesOfAll]

/-- The members of a set hold nothing opaque when they are keys. -/
theorem accounts_members :
    ∀ members : List Expression,
      (evaluateMembers members).Accounts (fun _ => []) [] (namesOfAll members)
  | [] => by
      rw [evaluateMembers, namesOfAll]
      exact .value fun _ => rfl
  | member :: rest => by
      have key := (accounts_evaluate member).andThen Form.accounts_toKey
      rw [List.append_nil] at key
      rw [evaluateMembers, namesOfAll]
      exact key.andThen fun _ => (accounts_members rest).map fun _ _ => rfl

theorem accounts_entries :
    ∀ entries : List (Expression × Expression),
      (evaluateEntries entries).Accounts Form.namesOfEntries [] (namesOfEntries entries)
  | [] => by
      rw [evaluateEntries, namesOfEntries]
      exact .value fun _ => by rw [Form.namesOfEntries, List.nil_append]
  | (key, value) :: rest => by
      have pair : Accounts ((evaluate key).both Form.names (evaluate value))
          (fun (key, value) => key.names ++ value.names) [] (key.names ++ value.names) :=
        (accounts_evaluate key).andThen fun _ =>
          (accounts_evaluate value).map fun _ _ => rfl
      have entry : ∀ pair : Literal × Literal,
          Accounts (pair.1.toKey.map (·, pair.2)) (fun (_, value) => value.names)
            (pair.1.names ++ pair.2.names) [] := by
        rintro ⟨form, value⟩
        constructor
        · intro failure failed name
          exact Nat.zero_le _
        · intro entry done name
          cases key : form.key with
          | error failure =>
              rw [Evaluation.map, Form.toKey, key] at done
              cases done
          | ok key' =>
              rw [Evaluation.map, Form.toKey, key] at done
              cases done
              rw [Form.names_of_key key, List.append_nil]
              rfl
      have first := pair.andThen entry
      rw [List.append_nil] at first
      rw [evaluateEntries, namesOfEntries]
      refine first.andThen fun _ => (accounts_entries rest).map fun _ _ => ?_
      rw [Form.namesOfEntries]

end

end Expression
end SharedPair
