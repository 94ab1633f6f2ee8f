import SharedPair.Proofs.Object.Likeness

/-!
# Mirrors put together

What a release leaves is mirrored by the store before it, with the references given up
as guests: so an operation can be compared with itself before and after the release.

Mirrors are composed, and they are pasted.  If two stores have the same two parts, and
the parts together hold all that is held, then the one store is the other with new
numbers.  For an object of neither part would be doomed beside the one and beside the
other, so beside everything.
-/

namespace SharedPair

open Heap (Doomed Holds)

namespace Store

variable {ρ ρ' : Nat → Nat} {kept kept' : Nat → Prop} {store store' store'' : Store}
  {held guests waiting : List Ref}

namespace Mirror

/-- A mirror of a mirror that has no guests. -/
theorem trans
    (first : Mirror ρ kept [] store held store')
    (second : Mirror ρ' kept' guests store' (held.map (Ref.rename ρ)) store'') :
    Mirror (ρ' ∘ ρ) (fun _ => False) guests store held store'' where
  injective := second.injective.comp first.injective
  sound := first.sound
  sound' := Ref.map_rename_rename ρ ρ' held ▸ second.sound'
  values alive := by
    rw [← Node.rename_rename]
    exact second.values (first.values alive)
  others {id} stranded := by
    rw [← Ref.map_rename_rename]
    refine second.others ⟨stranded.1, fun middle same => ?_⟩
    cases found : Heap.value? store'.cells middle with
    | none => rfl
    | some node =>
        obtain ⟨old, node, rfl, alive⟩ := image_of_not_stranded found (first.not_stranded middle)
        rw [stranded.2 old same] at alive
        cases alive
  lasting := False.elim

end Mirror

/-- What a release leaves is mirrored by the store before it. -/
theorem mirror_of_release
    (sound : store.Sound (waiting ++ held))
    (injective : Function.Injective ρ)
    (fixed : ∀ id < store.next, ρ id = id) :
    Mirror ρ (fun _ => False) waiting (store.release waiting).1 held store := by
  have released : (store.release waiting).1.Sound held := (Shift.release sound).sound
  have same : held.map (Ref.rename ρ) = held := map_rename_of_held released fixed
  refine ⟨injective, released, ?_, ?_, ?_, False.elim⟩
  · rw [same]
    exact sound.perm List.perm_append_comm
  · intro id node survives
    have alive := ((value?_release sound).mp survives).1
    rw [fixed id (sound.used alive), rename_of_value? sound fixed alive, alive]
  · rintro id ⟨⟨node, alive⟩, unknown⟩
    rw [same]
    by_contra spared
    have survives := (value?_release sound).mpr ⟨alive, spared⟩
    rw [unknown id (fixed id (sound.used alive))] at survives
    cases survives

/-! ## Two stores with the same parts -/

section Parts

variable {ρ₁ ρ₂ σ : Nat → Nat} {kept₁ kept₂ kept₁' kept₂' : Nat → Prop}
  {guests₁ guests₂ guests₁' guests₂' held₁ held₂ : List Ref} {one two left right : Store}

namespace Mirror

/-- What is held in one part or in the other is all there is. -/
theorem known_in_part
    (first : Mirror ρ₁ kept₁ guests₁ one held₁ left)
    (second : Mirror ρ₂ kept₂ guests₂ two held₂ left)
    (sound : left.Sound held)
    (covered : ∀ ref ∈ held, ref ∈ held₁.map (Ref.rename ρ₁) ∨ ref ∈ held₂.map (Ref.rename ρ₂))
    {id : Nat} {node : Node}
    (alive : Heap.value? left.cells id = some node) :
    ¬ Stranded ρ₁ one left id ∨ ¬ Stranded ρ₂ two left id := by
  by_contra neither
  rw [not_or, not_not, not_not] at neither
  have doomed := (first.others neither.1).both (second.others neither.2)
  refine sound.counted.not_doomed alive (doomed.mono (fun leaf member => ?_) fun _ _ holds => holds)
  obtain ⟨ref, inside, leaf⟩ := List.mem_flatMap.mp member
  rcases covered ref inside with part | part
  · exact List.mem_append_left _ (List.mem_flatMap.mpr ⟨ref, part, leaf⟩)
  · exact List.mem_append_right _ (List.mem_flatMap.mpr ⟨ref, part, leaf⟩)

theorem value?_of_part
    (first : Mirror ρ₁ kept₁ guests₁ one held₁ left)
    (first' : Mirror (σ ∘ ρ₁) kept₁' guests₁' one held₁ right)
    {id : Nat} {node : Node}
    (alive : Heap.value? left.cells id = some node)
    (known : ¬ Stranded ρ₁ one left id) :
    Heap.value? right.cells (σ id) = some (node.rename σ) := by
  obtain ⟨old, content, rfl, part⟩ := image_of_not_stranded alive known
  rw [first.values part, Option.some.injEq] at alive
  rw [← alive, Node.rename_rename]
  exact first'.values part

theorem image_of_part
    (first : Mirror ρ₁ kept₁ guests₁ one held₁ left)
    {id : Nat} {node : Node}
    (alive : Heap.value? right.cells id = some node)
    (known : ¬ Stranded (σ ∘ ρ₁) one right id) :
    ∃ old node, σ old = id ∧ Heap.value? left.cells old = some node := by
  obtain ⟨old, content, same, part⟩ := image_of_not_stranded alive known
  exact ⟨ρ₁ old, _, same, first.values part⟩

/-- **Pasting.**  Two stores with the same two parts are the same but for numbers. -/
theorem paste
    (first : Mirror ρ₁ kept₁ guests₁ one held₁ left)
    (second : Mirror ρ₂ kept₂ guests₂ two held₂ left)
    (first' : Mirror (σ ∘ ρ₁) kept₁' guests₁' one held₁ right)
    (second' : Mirror (σ ∘ ρ₂) kept₂' guests₂' two held₂ right)
    (injective : Function.Injective σ)
    (sound : left.Sound held) (sound' : right.Sound (held.map (Ref.rename σ)))
    (covered : ∀ ref ∈ held, ref ∈ held₁.map (Ref.rename ρ₁) ∨ ref ∈ held₂.map (Ref.rename ρ₂)) :
    Mirror σ (fun _ => False) [] left held right := by
  have covered' : ∀ ref ∈ held.map (Ref.rename σ), ref ∈ held₁.map (Ref.rename (σ ∘ ρ₁)) ∨
      ref ∈ held₂.map (Ref.rename (σ ∘ ρ₂)) := by
    intro ref member
    obtain ⟨old, inside, rfl⟩ := List.mem_map.mp member
    rw [← Ref.map_rename_rename, ← Ref.map_rename_rename]
    exact (covered old inside).imp List.mem_map_of_mem List.mem_map_of_mem
  refine ⟨injective, sound, (List.append_nil _).symm ▸ sound', ?_, ?_, False.elim⟩
  · intro id node alive
    rcases first.known_in_part second sound covered alive with known | known
    · exact first.value?_of_part first' alive known
    · exact second.value?_of_part second' alive known
  · rintro id ⟨⟨node, alive⟩, unknown⟩
    have image : ∃ old node, σ old = id ∧ Heap.value? left.cells old = some node := by
      rcases first'.known_in_part second' sound' covered' alive with known | known
      · exact first.image_of_part alive known
      · exact second.image_of_part alive known
    obtain ⟨old, node, same, found⟩ := image
    rw [unknown old same] at found
    cases found

end Mirror
end Parts

/-! ## Blocks of numbers that change places -/

/-- The renaming that lets two blocks of numbers change places, the first of which begins at a given
number. -/
def trade (first gap gap' id : Nat) : Nat :=
  if id < first then id
  else if id < first + gap then id + gap'
  else if id < first + gap + gap' then id - gap
  else id

theorem trade_injective
    (first gap gap' : Nat) :
    Function.Injective (trade first gap gap') := by
  intro id id' same
  unfold trade at same
  split_ifs at same <;> omega

theorem trade_of_lt
    {first id : Nat}
    (old : id < first) (gap gap' : Nat) :
    trade first gap gap' id = id :=
  if_pos old

/-- What leaves the first block out is led to what leaves it out at its new place. -/
theorem trade_comp_passOver
    (first gap gap' : Nat) :
    trade first gap gap' ∘ passOver first gap = passOver (first + gap') gap := by
  funext id
  show trade first gap gap' (passOver _ _ id) = _
  unfold trade passOver
  split_ifs <;> omega

theorem trade_comp_passOver'
    (first gap gap' : Nat) :
    trade first gap gap' ∘ passOver (first + gap) gap' = passOver first gap' := by
  funext id
  show trade first gap gap' (passOver _ _ id) = _
  unfold trade passOver
  split_ifs <;> omega

theorem inStep_trade
    {first gap gap' : Nat}
    (next : store.next = first + gap + gap') (next' : store'.next = first + gap + gap') :
    InStep (trade first gap gap') store store' := by
  intro i
  rw [next, next']
  unfold trade
  split_ifs <;> omega

end Store
end SharedPair
