import SharedPair.Proofs.Object.Mirror

/-!
# What a form shows

A form depicts an object below some containers: an object that is one of them is
depicted by a reference back to it, and any other by what is in it, with its parts one
level further in.  Containers may lead back to one another in every way, so this is said
without a recursion on the store.

`formBelow_eq_iff`: the form that is shown of an object is the one that depicts it.
-/

namespace SharedPair
namespace Store

mutual

/-- Which form depicts an object below the containers on a path, the outermost first. -/
inductive Depicts (store : Store) : List Nat → Ref → Shown → Prop
  | constant
      {path : List Nat} (a : Atom) :
      Depicts store path (.constant a) (.atom a)
  | emptyTuple
      {path : List Nat} :
      Depicts store path .emptyTuple (.tuple [])
  /-- A container around an object is told by its place on the path. -/
  | back
      {path : List Nat} {id : Nat}
      (around : id ∈ path) :
      Depicts store path (.object id) (.back (path.idxOf id))
  | atom
      {path : List Nat} {id : Nat} {a : Atom}
      (fresh : id ∉ path) (alive : Heap.value? store.cells id = some (.atom a)) :
      Depicts store path (.object id) (.atom a)
  | named
      {path : List Nat} {id : Nat} {name : String}
      (fresh : id ∉ path) (alive : Heap.value? store.cells id = some (.named name)) :
      Depicts store path (.object id) (.named name)
  | buffer
      {path : List Nat} {id : Nat} {bs : List UInt8}
      (fresh : id ∉ path) (alive : Heap.value? store.cells id = some (.buffer bs)) :
      Depicts store path (.object id) (.buffer bs)
  | set
      {path : List Nat} {id : Nat} {members : List Key}
      (fresh : id ∉ path) (alive : Heap.value? store.cells id = some (.set members)) :
      Depicts store path (.object id) (.set members)
  | list
      {path : List Nat} {id : Nat} {items : List Ref} {forms : List Shown}
      (fresh : id ∉ path) (alive : Heap.value? store.cells id = some (.list items))
      (parts : DepictsAll store (path ++ [id]) items forms) :
      Depicts store path (.object id) (.list forms)
  | tuple
      {path : List Nat} {id : Nat} {items : List Ref} {forms : List Shown}
      (fresh : id ∉ path) (alive : Heap.value? store.cells id = some (.tuple items))
      (parts : DepictsAll store (path ++ [id]) items forms) :
      Depicts store path (.object id) (.tuple forms)
  | dict
      {path : List Nat} {id : Nat} {entries : List (Key × Ref)} {forms : List (Key × Shown)}
      (fresh : id ∉ path) (alive : Heap.value? store.cells id = some (.dict entries))
      (keys : forms.map Prod.fst = entries.map Prod.fst)
      (parts : DepictsAll store (path ++ [id]) (entries.map Prod.snd) (forms.map Prod.snd)) :
      Depicts store path (.object id) (.dict forms)

/-- Which forms depict some objects, each in its place. -/
inductive DepictsAll (store : Store) : List Nat → List Ref → List Shown → Prop
  | nil
      {path : List Nat} :
      DepictsAll store path [] []
  | cons
      {path : List Nat} {ref : Ref} {form : Shown} {refs : List Ref} {forms : List Shown}
      (first : Depicts store path ref form) (others : DepictsAll store path refs forms) :
      DepictsAll store path (ref :: refs) (form :: forms)

end

variable {store : Store} {held : List Ref}

theorem depictsAll_map
    {path : List Nat} {refs : List Ref} {shown : Ref → Shown}
    (each : ∀ ref ∈ refs, Depicts store path ref (shown ref)) :
    DepictsAll store path refs (refs.map shown) := by
  induction refs with
  | nil => exact .nil
  | cons ref rest ih =>
      exact .cons (each ref List.mem_cons_self) (ih fun ref member =>
        each ref (List.mem_cons_of_mem _ member))

theorem depicts_nodeForm
    {path : List Nat} {id : Nat} {node : Node} {shown : Ref → Shown}
    (fresh : id ∉ path) (alive : Heap.value? store.cells id = some node)
    (each : ∀ ref ∈ node.positions, Depicts store (path ++ [id]) ref (shown ref)) :
    Depicts store path (.object id) (nodeForm shown node) := by
  cases node with
  | atom a => exact .atom fresh alive
  | named name => exact .named fresh alive
  | buffer bs => exact .buffer fresh alive
  | set members => exact .set fresh alive
  | list items => exact .list fresh alive (depictsAll_map each)
  | tuple items => exact .tuple fresh alive (depictsAll_map each)
  | dict entries =>
      refine .dict fresh alive ?_ ?_
      · rw [List.map_map]
        rfl
      · have parts : DepictsAll store (path ++ [id]) (entries.map Prod.snd)
            ((entries.map Prod.snd).map shown) := depictsAll_map each
        rw [List.map_map] at parts
        rw [List.map_map]
        exact parts

/-- What is shown of an object depicts it. -/
theorem depicts_formBelow
    (sound : store.Sound held)
    (path : List Nat) (ref : Ref)
    (has : store.Has ref) :
    Depicts store path ref (store.formBelow path ref) := by
  fun_induction store.formBelow path ref with
  | case1 path a => exact .constant a
  | case2 path => exact .emptyTuple
  | case3 path id around => exact .back around
  | case4 path id fresh missing =>
      obtain ⟨cell, found⟩ := has
      rw [missing] at found
      cases found
  | case5 path id fresh cell found _ ih =>
      have alive := Heap.value?_of_find? found
      exact depicts_nodeForm fresh alive fun ref member =>
        ih ref (sound.has_of_position alive member)

theorem formBelow_of_value?
    {path : List Nat} {id : Nat} {node : Node}
    (fresh : id ∉ path) (alive : Heap.value? store.cells id = some node) :
    store.formBelow path (.object id) = nodeForm (store.formBelow (path ++ [id])) node := by
  obtain ⟨cell, found, rfl⟩ := Option.map_eq_some_iff.mp alive
  exact formBelow_of_not_mem fresh found

theorem eq_of_map_fst_of_map_snd
    {α β : Type} {pairs pairs' : List (α × β)}
    (first : pairs.map Prod.fst = pairs'.map Prod.fst)
    (second : pairs.map Prod.snd = pairs'.map Prod.snd) :
    pairs = pairs' := by
  rw [← List.zip_unzip pairs, ← List.zip_unzip pairs', List.unzip_fst, List.unzip_snd,
    List.unzip_fst, List.unzip_snd, first, second]

mutual

/-- Every form that depicts an object is the one that is shown of it. -/
theorem Depicts.formBelow_eq :
    ∀ {path : List Nat} {ref : Ref} {form : Shown},
      Depicts store path ref form → store.formBelow path ref = form
  | _, _, _, .constant a => by
      rw [formBelow]
  | _, _, _, .emptyTuple => by
      rw [formBelow]
  | _, _, _, .back around =>
      formBelow_of_mem around
  | _, _, _, .atom fresh alive =>
      formBelow_of_value? fresh alive
  | _, _, _, .named fresh alive =>
      formBelow_of_value? fresh alive
  | _, _, _, .buffer fresh alive =>
      formBelow_of_value? fresh alive
  | _, _, _, .set fresh alive =>
      formBelow_of_value? fresh alive
  | _, _, _, .list fresh alive parts => by
      rw [formBelow_of_value? fresh alive, nodeForm, parts.map_formBelow_eq]
  | _, _, _, .tuple fresh alive parts => by
      rw [formBelow_of_value? fresh alive, nodeForm, parts.map_formBelow_eq]
  | _, _, _, @Depicts.dict _ path id entries forms fresh alive keys parts => by
      have values := parts.map_formBelow_eq
      rw [List.map_map] at values
      rw [formBelow_of_value? fresh alive, nodeForm]
      refine congrArg Form.dict (eq_of_map_fst_of_map_snd ?_ ?_)
      · rw [List.map_map, keys]
        rfl
      · rw [List.map_map, ← values]
        rfl

theorem DepictsAll.map_formBelow_eq :
    ∀ {path : List Nat} {refs : List Ref} {forms : List Shown},
      DepictsAll store path refs forms → refs.map (store.formBelow path) = forms
  | _, _, _, .nil =>
      rfl
  | _, _, _, .cons first others => by
      rw [List.map_cons, first.formBelow_eq, others.map_formBelow_eq]

end

/-- **Showing.**  The form that is shown of an object is the one that depicts it. -/
theorem formBelow_eq_iff
    {path : List Nat} {ref : Ref} {form : Shown}
    (sound : store.Sound held)
    (has : store.Has ref) :
    store.formBelow path ref = form ↔ Depicts store path ref form := by
  constructor
  · rintro rfl
    exact depicts_formBelow sound path ref has
  · exact Depicts.formBelow_eq

end Store
end SharedPair
