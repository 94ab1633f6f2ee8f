import SharedPair.Proofs.Copy.Linear

/-!
# How a copy ends

A copy that runs to its end either hands over copies of all leaves, with one more
handle to the cell of each copied handle, or it is refused.  A refused copy puts
every count back: the cells are the very table that they were before, nothing is
freed, and each probe cloned on the way is dropped.  What stays of it is that the
attempts are counted.
-/

namespace SharedPair

namespace Event

/-- The probe that a cloning makes. -/
def clone? : Event → Option Probe
  | cloned source serial => some ⟨source.family, serial⟩
  | _ => none

def dropped? : Event → Option Probe
  | dropped probe => some probe
  | _ => none

def freed? : Event → Option String
  | freed cell => some cell
  | _ => none

def logged? : Event → Option Record
  | logged record => some record
  | _ => none

/-- The probes cloned in a run of events. -/
def clones (events : List Event) : List Probe := events.filterMap clone?

/-- The probes dropped in a run of events. -/
def drops (events : List Event) : List Probe := events.filterMap dropped?

/-- The cells freed in a run of events. -/
def frees (events : List Event) : List String := events.filterMap freed?

/-- The records kept in a run of events. -/
def records (events : List Event) : List Record := events.filterMap logged?

theorem clones_append
    (first second : List Event) :
    clones (first ++ second) = clones first ++ clones second :=
  List.filterMap_append

theorem drops_append
    (first second : List Event) :
    drops (first ++ second) = drops first ++ drops second :=
  List.filterMap_append

theorem frees_append
    (first second : List Event) :
    frees (first ++ second) = frees first ++ frees second :=
  List.filterMap_append

theorem records_append
    (first second : List Event) :
    records (first ++ second) = records first ++ records second :=
  List.filterMap_append

theorem records_dropped
    (probes : List Probe) :
    records (probes.map .dropped) = [] := by
  simp [records, List.filterMap_map, Function.comp_def, logged?]

end Event

namespace Turnover

/-- The cells freed and the probes cloned and dropped, as events tell them. -/
def ofEvents (events : List Event) : Turnover String Probe :=
  ⟨[], Event.frees events, Event.clones events, Event.drops events⟩

theorem ofEvents_append
    (first second : List Event) :
    ofEvents (first ++ second) = ofEvents first ++ ofEvents second := by
  show _ = append _ _
  simp [ofEvents, append, Event.frees_append, Event.clones_append, Event.drops_append]

theorem ofEvents_endings
    (endings : List (Ending String Probe)) :
    ofEvents (endings.map Event.ofEnding) = ofEndings endings := by
  have frees : Event.freed? ∘ Event.ofEnding = Ending.freed? := by
    funext ending
    cases ending <;> rfl
  have clones : ∀ ending, (Event.clone? ∘ Event.ofEnding) ending = Option.none := by
    intro ending
    cases ending <;> rfl
  have drops : Event.dropped? ∘ Event.ofEnding = Ending.ended? := by
    funext ending
    cases ending <;> rfl
  simp only [ofEvents, ofEndings, Event.frees, Event.clones, Event.drops, List.filterMap_map,
    frees, drops, mk.injEq, true_and, and_true]
  exact List.filterMap_eq_nil_iff.mpr fun ending _ => clones ending

theorem ofEvents_logged
    (records : List Record) :
    ofEvents (records.map .logged) = none := by
  simp [ofEvents, none, Event.frees, Event.clones, Event.drops, List.filterMap_map,
    Function.comp_def, Event.freed?, Event.clone?, Event.dropped?]

theorem ofEvents_dropped
    (probes : List Probe) :
    ofEvents (probes.map .dropped) = ⟨[], [], [], probes⟩ := by
  simp [ofEvents, Event.frees, Event.clones, Event.drops, List.filterMap_map,
    Function.comp_def, Event.freed?, Event.clone?, Event.dropped?]

end Turnover

namespace Memory

/-! ## The books of a pass -/

variable {l : List (Leaf String Probe)} {memory : Memory}

/-- Every copied handle is one more handle, and nothing else happens to the cells. -/
theorem cells_copyLeaves
    (l : List (Leaf String Probe)) (memory : Memory) :
    (memory.copyLeaves l).memory.cells =
      Heap.acquireAll memory.cells (memory.copyLeaves l).copied := by
  induction l generalizing memory with
  | nil => rfl
  | cons leaf rest ih =>
      cases leaf with
      | handle cell =>
          exact ih (memory.acquire cell)
      | token p =>
          rw [copyLeaves]
          by_cases h : memory.Refuses p.family
          · rw [if_pos h]
            rfl
          · rw [if_neg h]
            exact ih (memory.attempt p.family)

/-- A pass changes no value of a cell. -/
theorem value?_copyLeaves
    (id : String) (l : List (Leaf String Probe)) (memory : Memory) :
    Heap.value? (memory.copyLeaves l).memory.cells id = Heap.value? memory.cells id := by
  rw [cells_copyLeaves, Heap.value?, Heap.find?_acquireAll, Option.map_map]
  rfl

/-- The events of a pass are the clonings of the copied probes. -/
theorem events_copyLeaves
    (l : List (Leaf String Probe)) (memory : Memory) :
    Turnover.ofEvents (memory.copyLeaves l).events =
      ⟨[], [], Leaf.tokens (memory.copyLeaves l).copied, []⟩ ∧
    Event.records (memory.copyLeaves l).events = [] := by
  induction l generalizing memory with
  | nil => exact ⟨rfl, rfl⟩
  | cons leaf rest ih =>
      cases leaf with
      | handle cell =>
          exact ih (memory.acquire cell)
      | token p =>
          rw [copyLeaves]
          by_cases h : memory.Refuses p.family
          · rw [if_pos h]
            exact ⟨rfl, rfl⟩
          · rw [if_neg h]
            obtain ⟨turnover, records⟩ := ih (memory.attempt p.family)
            constructor
            · have head : Turnover.ofEvents [.cloned p (memory.nextAttempt p.family)] =
                  ⟨[], [], [⟨p.family, memory.nextAttempt p.family⟩], []⟩ := rfl
              show Turnover.ofEvents ([_] ++ _) = _
              rw [Turnover.ofEvents_append, turnover, head]
              rfl
            · exact records

/-- Only handles that were there are copied. -/
theorem handle_mem_of_copied
    {key : String} {l : List (Leaf String Probe)} {memory : Memory}
    (member : .handle key ∈ (memory.copyLeaves l).copied) :
    .handle key ∈ l := by
  induction l generalizing memory with
  | nil => exact member
  | cons leaf rest ih =>
      cases leaf with
      | handle cell =>
          rcases List.mem_cons.mp member with head | tail
          · rw [head]
            exact List.mem_cons_self
          · exact List.mem_cons_of_mem _ (ih tail)
      | token p =>
          rw [copyLeaves] at member
          by_cases h : memory.Refuses p.family
          · rw [if_pos h] at member
            cases member
          · rw [if_neg h] at member
            rcases List.mem_cons.mp member with head | tail
            · cases head
            · exact List.mem_cons_of_mem _ (ih tail)

/-- What a pass has copied can be given up in any order: every count is what it was before the pass,
and only probes are dropped. -/
theorem release_copied
    {waiting : List (Leaf String Probe)}
    (positive : ∀ key cell, memory.cells.find? key = some cell → 0 < cell.count)
    (same : waiting.Perm (memory.copyLeaves l).copied) :
    (memory.copyLeaves l).memory.release waiting =
      (⟨memory.cells, (memory.copyLeaves l).memory.families⟩,
        (Leaf.tokens waiting).map .dropped) := by
  rw [release, cells_copyLeaves, Heap.release_acquireAll positive same]
  simp [Event.ofEnding]

end Memory

namespace Event

theorem clones_logged
    (records : List Record) :
    clones (records.map .logged) = [] :=
  congrArg Turnover.born (Turnover.ofEvents_logged records)

theorem clones_dropped
    (probes : List Probe) :
    clones (probes.map .dropped) = [] :=
  congrArg Turnover.born (Turnover.ofEvents_dropped probes)

theorem clones_release
    (memory : Memory) (leaves : List (Leaf String Probe)) :
    clones (memory.release leaves).2 = [] :=
  congrArg Turnover.born (Turnover.ofEvents_endings (Heap.release memory.cells leaves).2)

theorem clones_copyLeaves
    (memory : Memory) (l : List (Leaf String Probe)) :
    clones (memory.copyLeaves l).events = Leaf.tokens (memory.copyLeaves l).copied :=
  congrArg Turnover.born (Memory.events_copyLeaves l memory).1

theorem drops_copyLeaves
    (memory : Memory) (l : List (Leaf String Probe)) :
    drops (memory.copyLeaves l).events = [] :=
  congrArg Turnover.ended (Memory.events_copyLeaves l memory).1

end Event

namespace Copying

/-- A copy of a value that writes some records when it is finished. -/
structure Copies (copy : Copying Value) (value : Value) (records : List Record) : Prop where
  finished : ∀ {memory made after events},
    value.clone memory = ⟨.ok made, after, events⟩ →
      copy memory = ⟨.ok made, after, events ++ records.map .logged⟩
  refused : ∀ {memory abort after events},
    value.clone memory = ⟨.error abort, after, events⟩ →
      copy memory = ⟨.error abort, after, events⟩

/-- A clone writes nothing. -/
theorem copies_clone
    (value : Value) :
    Copies value.clone value [] where
  finished eq := by
    rw [eq, List.map_nil, List.append_nil]
  refused eq := eq

theorem packPair_eq
    (filter : Filter) (first second : Value) :
    packPair filter first second = (do
      let pair ← both first.clone second.clone
      log filter packRecord
      return pair) := by
  rfl

/-- Packing two values clones the pair of them, and writes the record of the pair. -/
theorem copies_packPair
    (filter : Filter) (first second : Value) :
    Copies (packPair filter first second >>= fun pair => pure (.pair pair.1 pair.2))
      (.pair first second) (filter.log packRecord) where
  finished {memory made after events} eq := by
    rw [Value.clone] at eq
    cases parts : both first.clone second.clone memory with
    | mk result between earlier =>
        cases result with
        | ok pair =>
            rw [bind_of_ok parts] at eq
            cases eq
            have packed : packPair filter first second memory =
                ⟨.ok pair, between, earlier ++ (filter.log packRecord).map .logged⟩ := by
              rw [packPair_eq, bind_of_ok parts]
              show Progress.mk _ _ (_ ++ (_ ++ [])) = _
              rw [List.append_nil]
              rfl
            rw [bind_of_ok packed]
            show Progress.mk _ _ (_ ++ []) = Progress.mk _ _ ((_ ++ []) ++ _)
            rw [List.append_nil, List.append_nil]
            rfl
        | error abort =>
            rw [bind_of_error parts] at eq
            cases eq
  refused {memory abort after events} eq := by
    rw [Value.clone] at eq
    cases parts : both first.clone second.clone memory with
    | mk result between earlier =>
        cases result with
        | ok pair =>
            rw [bind_of_ok parts] at eq
            cases eq
        | error refused =>
            rw [bind_of_error parts] at eq
            have packed :
                packPair filter first second memory = ⟨.error refused, between, earlier⟩ := by
              rw [packPair_eq, bind_of_error parts]
            rw [bind_of_error packed]
            cases eq
            rfl

/-! ## The end of a run -/

/-- What a copy that is run to its end comes to: it is finished, or nothing of it stays but the
counted attempts. -/
inductive Ends (memory : Memory) (value : Value) (records : List Record) : Outcome Value → Prop
  | finished
      {made : Value}
      (accepted : (memory.copyLeaves value.leaves).refusal = none)
      (same : made.leaves = (memory.copyLeaves value.leaves).copied) :
      Ends memory value records
        ⟨.ok made, (memory.copyLeaves value.leaves).memory,
          (memory.copyLeaves value.leaves).events ++ records.map .logged⟩
  | refused
      {refusal : Refusal} {dropped : List Probe}
      (stopped : (memory.copyLeaves value.leaves).refusal = some refusal)
      (same : dropped.Perm (Leaf.tokens (memory.copyLeaves value.leaves).copied)) :
      Ends memory value records
        ⟨.error refusal, ⟨memory.cells, (memory.copyLeaves value.leaves).memory.families⟩,
          (memory.copyLeaves value.leaves).events ++ dropped.map .dropped⟩

/-- A refused copy gives back exactly the handles that it took. -/
theorem Copies.run_ends
    {copy : Copying Value} {value : Value} {records : List Record} {memory : Memory}
    (copies : Copies copy value records)
    (positive : ∀ key cell, memory.cells.find? key = some cell → 0 < cell.count) :
    Ends memory value records (run copy memory) := by
  have follows := value.clone_follows memory
  generalize eq : value.clone memory = progress at follows
  generalize passed : memory.copyLeaves value.leaves = pass at follows
  cases follows with
  | finished same =>
      rename_i made copied after events
      have held : made.leaves = (memory.copyLeaves value.leaves).copied := by
        rw [passed]
        exact same
      have ended : Ends memory value records _ := .finished (by rw [passed]) held
      rw [passed] at ended
      rwa [run_of_ok (copies.finished eq)]
  | refused same =>
      rename_i abort copied after events
      have held : (Leaf.tokens abort.finished).Perm
          (Leaf.tokens (memory.copyLeaves value.leaves).copied) := by
        rw [passed]
        exact Leaf.tokens_perm same
      have ended : Ends memory value records _ := .refused (by rw [passed]) held
      rw [passed] at ended
      have finished : abort.finished.Perm (memory.copyLeaves value.leaves).copied := by
        rw [passed]
        exact same
      have back := Memory.release_copied positive finished
      rw [passed] at back
      rwa [run_of_error (copies.refused eq), back]

end Copying
end SharedPair
