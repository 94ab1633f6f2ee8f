import SharedPair.Extension
import SharedPair.Proofs.Table

/-!
# What loading makes and exports

A loader makes its module once.  The first load makes it, and logs that if the filter keeps the
record.  Whatever loads come next, they give the same module, leave the loader as it is and log
nothing.

The names of the attributes are pairwise different, so an attribute is never hidden by another.
The one function among the attributes of the module is the one name that it exports, and the one
that is not internal.

* `Loader.loadMany_of_fresh`: one module is made, and one record written, in any number of loads.
* `loadReport_eq`: what is told of that number of loads.
* `Subject.attribute?_eq_some_iff`: what can be read of an object is what it has.
* `function_iff_exported`: the functions of the module are those that it exports.
-/

namespace SharedPair
namespace Extension

/-! ## Loading -/

/-- The record of a module that was made is kept by the two most detailed filters. -/
theorem log_loadRecord
    (filter : Filter) :
    filter.log loadRecord =
      if filter = .upTo .debug ∨ filter = .all then [loadRecord] else [] := by
  have level : loadRecord.level = .debug := rfl
  simp only [Filter.log, level, Filter.keeps_debug_iff]

namespace Loader

variable {loader : Loader} {made : Nat}

/-- After a load, every further load gives the same module, under whatever filter. -/
theorem load_load
    (loader : Loader) (filter filter' : Filter) :
    let first := loader.load filter
    first.2.1.load filter' = (first.1, first.2.1, []) := by
  rcases loader with ⟨_ | made, next⟩ <;> rfl

theorem loadMany_succ
    (loader : Loader) (filter : Filter) (times : Nat) :
    let first := loader.load filter
    let rest := first.2.1.loadMany filter times
    loader.loadMany filter (times + 1) =
      (first.1 :: rest.1, rest.2.1, first.2.2 ++ rest.2.2) := by
  rfl

theorem loadMany_of_loaded
    (loaded : loader.loaded = some made)
    (filter : Filter) (times : Nat) :
    loader.loadMany filter times = (List.replicate times made, loader, []) := by
  induction times with
  | zero => rfl
  | succ times ih =>
      have again : loader.load filter = (made, loader, []) := by
        rw [load, loaded]
      rw [loadMany_succ, again, ih]
      rfl

/-- **A module is made once.**  However often it is loaded, each load gives the module that the first
one has made, no other is made, and all that is logged is the record of the first load. -/
theorem loadMany_of_fresh
    (fresh : loader.loaded = none)
    (filter : Filter) (times : Nat) :
    loader.loadMany filter (times + 1) =
      (List.replicate (times + 1) loader.next, ⟨some loader.next, loader.next + 1⟩,
        filter.log loadRecord) := by
  have first : loader.load filter =
      (loader.next, ⟨some loader.next, loader.next + 1⟩, filter.log loadRecord) := by
    rw [load, fresh]
  rw [loadMany_succ, first, loadMany_of_loaded rfl, List.append_nil]
  rfl

end Loader

/-- What is told of loads: the first has logged the record, and the later ones have logged nothing and
given the same module. -/
theorem loadReport_eq
    (times : Nat) :
    loadReport times = ⟨[loadRecord], [], List.replicate times true⟩ := by
  let loader := (Loader.initial.load .all).2.1
  have later : loader.loadMany .all times = (List.replicate times 0, loader, []) :=
    Loader.loadMany_of_loaded rfl .all times
  show LoadReport.mk [loadRecord] (loader.loadMany .all times).2.2
    ((loader.loadMany .all times).1.map fun module => decide (module = 0)) = _
  rw [later, List.map_replicate]
  rfl

/-! ## Attributes -/

namespace Subject

/-- No attribute hides another one. -/
theorem nodup_names
    (subject : Subject) :
    (subject.attributes.map Prod.fst).Nodup := by
  cases subject <;> decide +kernel

/-- The attributes as a table. -/
def table (subject : Subject) : Table String Attribute :=
  ⟨subject.attributes, subject.nodup_names⟩

theorem attribute?_eq_find?
    (subject : Subject) (name : String) :
    subject.attribute? name = subject.table.find? name := by
  show _ = Table.lookup name subject.attributes
  rw [attribute?]
  induction subject.attributes with
  | nil => rfl
  | cons entry rest ih =>
      rw [List.find?_cons, Table.lookup]
      by_cases same : entry.1 = name
      · rw [if_pos same, beq_iff_eq.mpr same]
        rfl
      · rw [if_neg same, beq_eq_false_iff_ne.mpr same]
        exact ih

/-- What can be read of an object is what it has. -/
theorem attribute?_eq_some_iff
    {subject : Subject} {name : String} {value : Attribute} :
    subject.attribute? name = some value ↔ (name, value) ∈ subject.attributes := by
  rw [attribute?_eq_find?]
  exact Table.mem_entries_iff.symm

/-- Nothing can be read under a name that is not among those of the attributes. -/
theorem attribute?_eq_none_iff
    {subject : Subject} {name : String} :
    subject.attribute? name = none ↔ name ∉ subject.attributes.map Prod.fst := by
  rw [attribute?_eq_find?]
  exact Table.find?_eq_none_iff

end Subject

/-- **One function is exported.**  The module has a function under a name just when it exports the
name, and the function has that name. -/
theorem function_iff_exported
    {name called : String} :
    Subject.module.attribute? name = some (.function called) ↔ name ∈ exports ∧ called = name := by
  have functions : (name, Attribute.function called) ∈ Subject.module.attributes ↔
      name = functionName ∧ called = functionName := by
    simp [Subject.attributes, Subject.members, Subject.inherited, exports]
  rw [Subject.attribute?_eq_some_iff, functions, exports, List.mem_singleton]
  exact and_congr_right fun same => by rw [same]

/-- The names that are not internal are those that are exported. -/
theorem publicNames_eq_exports :
    publicNames = exports := by
  decide +kernel

end Extension
end SharedPair
