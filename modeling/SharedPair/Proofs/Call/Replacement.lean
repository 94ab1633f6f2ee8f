import Mathlib.Data.List.Permutation
import SharedPair.Proofs.Call.Binding
import SharedPair.Proofs.Object.Creation

/-!
# Arguments that are replaced

Binding never looks at an argument, and the evaluation of a call looks at nothing but
the names of the opaque things in what was evaluated.  So when every argument is
replaced by another, with the same names in it, the results are those of before with
the replaced arguments in their places, and the failures are the same.
-/

namespace SharedPair

/-! ## Evaluations -/

namespace Evaluation

variable {α β γ δ : Type}

theorem map_map
    (e : Evaluation α) (f : α → β) (g : β → γ) :
    (e.map f).map g = e.map (g ∘ f) := by
  rcases e with ⟨result, ended⟩
  cases result <;> rfl

theorem andThen_map
    {e : Evaluation α} {names : α → List String} {names' : β → List String}
    {next : α → Evaluation γ} {next' : β → Evaluation δ} {f : α → β} {g : γ → δ}
    (same : ∀ a, names' (f a) = names a)
    (further : ∀ a, next' (f a) = (next a).map g) :
    (e.map f).andThen names' next' = (e.andThen names next).map g := by
  rcases e with ⟨result, ended⟩
  cases result with
  | error failure => rfl
  | ok a =>
      simp only [andThen, map, Except.map, further, same]
      rcases next a with ⟨result, ended'⟩
      cases result <;> rfl

theorem each_map
    {names : β → List String} {names' : γ → List String}
    {evaluate : α → Evaluation β} {evaluate' : α → Evaluation γ} {f : β → γ}
    (same : ∀ b, names' (f b) = names b)
    {items : List α}
    (further : ∀ a ∈ items, evaluate' a = (evaluate a).map f) :
    each names' evaluate' items = (each names evaluate items).map (List.map f) := by
  induction items with
  | nil => rfl
  | cons a rest ih =>
      rw [each, each, further a List.mem_cons_self]
      refine andThen_map same fun b => ?_
      rw [ih fun a member => further a (List.mem_cons_of_mem _ member), map_map, map_map]
      rfl

theorem made_map
    {names : α → List String} {names' : β → List String} {f : α → β}
    (same : ∀ a, names' (f a) = names a)
    (e : Evaluation α) :
    (e.map f).made names' = e.made names := by
  rcases e with ⟨result, ended⟩
  cases result with
  | error failure => rfl
  | ok a => exact congrArg _ (same a)

end Evaluation

/-! ## Bindings -/

namespace Binding

variable {α β : Type}

/-- A binding with other arguments in the same places. -/
def map (f : α → β) (bound : Binding α) : Binding β := ⟨bound.a.map f, bound.b.map f⟩

theorem ofPositional_map
    (f : α → β) (given : List α) :
    ofPositional (given.map f) = (ofPositional given).map (map f) := by
  rcases given with _ | ⟨x, _ | ⟨y, _ | ⟨z, rest⟩⟩⟩
  · rfl
  · rfl
  · rfl
  · simp [ofPositional, Except.map]

theorem addKeyword_map
    (f : α → β) (bound : Binding α) (keyword : Keyword) (value : α) :
    (bound.map f).addKeyword keyword (f value) = (bound.addKeyword keyword value).map (map f) := by
  unfold addKeyword
  cases Parameter.ofName? keyword.content with
  | none => rfl
  | some parameter =>
      rcases bound with ⟨a, b⟩
      cases parameter with
      | a => cases a <;> rfl
      | b => cases b <;> rfl

theorem addKeywords_map
    (f : α → β) (keywords : List (Keyword × α)) (bound : Binding α) :
    (bound.map f).addKeywords (keywords.map fun given => (given.1, f given.2)) =
      (bound.addKeywords keywords).map (map f) := by
  induction keywords generalizing bound with
  | nil => rfl
  | cons given rest ih =>
      rw [List.map_cons, addKeywords, addKeywords, addKeyword_map]
      cases bound.addKeyword given.1 given.2 with
      | error e => rfl
      | ok further => exact ih further

theorem complete_map
    (f : α → β) (bound : Binding α) :
    (bound.map f).complete = bound.complete.map fun both => (f both.1, f both.2) := by
  rcases bound with ⟨_ | a, _ | b⟩ <;> rfl

end Binding

namespace Arguments

variable {α β γ : Type}

theorem inOrder_map
    (f : α → β) (arguments : Arguments α) :
    (arguments.map f).inOrder = arguments.inOrder.map f := by
  simp [inOrder, map, Function.comp_def]

theorem bind_map
    (f : α → β) (arguments : Arguments α) :
    (arguments.map f).bind = arguments.bind.map fun both => (f both.1, f both.2) := by
  unfold bind map
  simp only [Binding.ofPositional_map]
  cases Binding.ofPositional arguments.positional with
  | error e => rfl
  | ok byPosition =>
      show (((byPosition.map f).addKeywords _).bind fun bound => bound.complete) =
        Except.map _ ((byPosition.addKeywords _).bind fun bound => bound.complete)
      rw [Binding.addKeywords_map]
      cases byPosition.addKeywords arguments.keywords with
      | error e => rfl
      | ok bound => exact Binding.complete_map f bound

theorem bind_map_of_ok
    {arguments : Arguments α} {a b : α}
    (f : α → β)
    (bound : arguments.bind = .ok (a, b)) :
    (arguments.map f).bind = .ok (f a, f b) := by
  rw [bind_map, bound]
  rfl

theorem evaluate_map
    {names : β → List String} {names' : γ → List String}
    {eval : α → Evaluation β} {eval' : α → Evaluation γ} {f : β → γ}
    (same : ∀ b, names' (f b) = names b)
    {arguments : Arguments α}
    (further : ∀ a ∈ arguments.inOrder, eval' a = (eval a).map f) :
    arguments.evaluate names' eval' = (arguments.evaluate names eval).map (map f) := by
  let entry : Keyword × β → Keyword × γ := fun given => (given.1, f given.2)
  have positional : Evaluation.each names' eval' arguments.positional =
      (Evaluation.each names eval arguments.positional).map (List.map f) :=
    Evaluation.each_map same fun a member => further a (List.mem_append_left _ member)
  have keywords : Evaluation.each (fun given : Keyword × γ => names' given.2)
      (fun given : Keyword × α => (eval' given.2).map (given.1, ·)) arguments.keywords =
      (Evaluation.each (fun given : Keyword × β => names given.2)
        (fun given : Keyword × α => (eval given.2).map (given.1, ·)) arguments.keywords).map
        (List.map entry) := by
    refine Evaluation.each_map (f := entry) (fun given => same given.2) fun given member => ?_
    rw [further given.2 (List.mem_append_right _ (List.mem_map_of_mem member)),
      Evaluation.map_map, Evaluation.map_map]
    rfl
  have both : (Evaluation.each names' eval' arguments.positional).both (·.flatMap names')
        (Evaluation.each (fun given : Keyword × γ => names' given.2)
          (fun given : Keyword × α => (eval' given.2).map (given.1, ·)) arguments.keywords) =
      ((Evaluation.each names eval arguments.positional).both (·.flatMap names)
        (Evaluation.each (fun given : Keyword × β => names given.2)
          (fun given : Keyword × α => (eval given.2).map (given.1, ·)) arguments.keywords)).map
        fun results => (results.1.map f, results.2.map entry) := by
    rw [positional, keywords]
    refine Evaluation.andThen_map (fun results => ?_) fun results => ?_
    · rw [List.flatMap_map]
      exact congrArg (List.flatMap · results) (funext same)
    · rw [Evaluation.map_map, Evaluation.map_map]
      rfl
  unfold evaluate
  simp only
  rw [both, Evaluation.map_map, Evaluation.map_map]
  rfl

/-! ## Other things in the places of arguments -/

section Replace

variable {arguments : Arguments α} {others : List β}

/-- Arguments together with as many other things, which stand in their places. -/
theorem exists_beside
    (length : others.length = arguments.inOrder.length) :
    ∃ beside : Arguments (α × β), beside.map Prod.fst = arguments ∧
      beside.map Prod.snd = arguments.replace others := by
  rcases arguments with ⟨positional, keywords⟩
  simp only [inOrder, List.length_append, List.length_map] at length
  have first : positional.length ≤ (others.take positional.length).length := by
    rw [List.length_take]
    omega
  have last : keywords.length ≤ (others.drop positional.length).length := by
    rw [List.length_drop]
    omega
  refine ⟨⟨positional.zip (others.take positional.length),
    (keywords.zip (others.drop positional.length)).map fun given =>
      (given.1.1, given.1.2, given.2)⟩, ?_, ?_⟩
  · refine congrArg₂ mk (List.map_fst_zip first) ?_
    rw [List.map_map]
    exact List.map_fst_zip last
  · refine congrArg₂ mk (List.map_snd_zip (List.length_take_le _ _)) ?_
    rw [List.map_map, List.zip_map_left]
    exact List.map_congr_left fun _ _ => rfl

theorem replace_map
    {γ : Type} (f : α → γ) (arguments : Arguments α) (others : List β) :
    (arguments.map f).replace others = arguments.replace others := by
  simp [replace, map, Function.comp_def]

theorem map_replace
    {γ : Type} (g : β → γ) (arguments : Arguments α) (others : List β) :
    (arguments.replace others).map g = arguments.replace (others.map g) := by
  refine congrArg₂ mk List.map_take ?_
  rw [← List.map_drop, List.zip_map_right]
  rfl

variable (length : others.length = arguments.inOrder.length)
include length

theorem inOrder_replace :
    (arguments.replace others).inOrder = others := by
  simp only [inOrder, List.length_append, List.length_map] at length
  rw [replace, inOrder, List.map_snd_zip, List.take_append_drop]
  rw [List.length_drop, List.length_map]
  omega

/-- What is bound are the things in the places of the arguments that are bound. -/
theorem bind_replace
    {first second : α}
    (bound : arguments.bind = .ok (first, second)) :
    ∃ x y, (arguments.replace others).bind = .ok (x, y) ∧
      (arguments.inOrder = [first, second] ∧ others = [x, y] ∨
        arguments.inOrder = [second, first] ∧ others = [y, x]) := by
  obtain ⟨beside, left, right⟩ := exists_beside length
  have placed := inOrder_replace length
  rw [← left, bind_map] at bound
  rw [← right, inOrder_map] at placed
  cases both : beside.bind with
  | error e =>
      rw [both] at bound
      cases bound
  | ok pairs =>
      rw [both] at bound
      cases bound
      refine ⟨pairs.1.2, pairs.2.2, ?_, ?_⟩
      · rw [← right, bind_map, both]
        rfl
      · rw [← left, inOrder_map, ← placed]
        rcases List.perm_pair.mp (inOrder_perm_of_bind both) with order | order
        · rw [order]
          exact .inl ⟨rfl, rfl⟩
        · rw [order]
          exact .inr ⟨rfl, rfl⟩

theorem bind_replace_error_iff
    {e : CallError} :
    (arguments.replace others).bind = .error e ↔ arguments.bind = .error e := by
  obtain ⟨beside, left, right⟩ := exists_beside length
  rw [← right, ← left, bind_map, bind_map]
  cases beside.bind with
  | error e' => simp only [Except.map, Except.error.injEq]
  | ok both => simp only [Except.map, reduceCtorEq]

end Replace

end Arguments
end SharedPair
