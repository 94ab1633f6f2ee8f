/-!
# Log records and the filter

A record has a level, the target it is written for and a message.  A filter keeps
the records up to one level, or none at all.  Logging is a value here: what a
filter keeps of a record is a list of at most one record, which the caller puts
where the record was made.
-/

namespace SharedPair

/-- Levels, the gravest first. -/
inductive Level where
  | error | warn | info | debug | trace
  deriving DecidableEq, Repr

namespace Level

/-- The place of a level in the order from `error` to `trace`. -/
def rank : Level → Nat
  | error => 1
  | warn => 2
  | info => 3
  | debug => 4
  | trace => 5

/-- The level as it stands in a written record. -/
def name : Level → String
  | error => "ERROR"
  | warn => "WARN"
  | info => "INFO"
  | debug => "DEBUG"
  | trace => "TRACE"

end Level

/-- The most detailed level that is kept. -/
inductive Filter where
  | off
  | upTo (level : Level)
  deriving DecidableEq, Repr

/-- The name of the module that all records come from.  The target of a record begins with it. -/
def moduleName : String := "compiled_function_with_cpp_args"

/-- One record. -/
structure Record where
  level : Level
  target : String
  message : String
  deriving DecidableEq, Repr

/-- The written form of a record. -/
def Record.render (r : Record) : String :=
  "log " ++ r.level.name ++ " " ++ r.target ++ " " ++ r.message

namespace Filter

/-- The filter that keeps every record. -/
def all : Filter := .upTo .trace

/-- The place of a filter in the order of levels; `off` comes before all of them. -/
def rank : Filter → Nat
  | off => 0
  | upTo level => level.rank

/-- The filter of a written name. -/
def ofName? : String → Option Filter
  | "off" => some .off
  | "error" => some (.upTo .error)
  | "warn" => some (.upTo .warn)
  | "info" => some (.upTo .info)
  | "debug" => some (.upTo .debug)
  | "trace" => some (.upTo .trace)
  | _ => none

/-- A level is kept when it is not beyond the filter. -/
def keeps (filter : Filter) (level : Level) : Bool := decide (level.rank ≤ filter.rank)

/-- What is left of a record. -/
def log (filter : Filter) (record : Record) : List Record :=
  if filter.keeps record.level then [record] else []

/-- Only the most detailed filter keeps a record of the most detailed level. -/
theorem keeps_trace_iff {filter : Filter} : filter.keeps .trace = true ↔ filter = .all := by
  cases filter with
  | off => decide
  | upTo level => cases level <;> decide

/-- Two filters keep the records that are one level less detailed. -/
theorem keeps_debug_iff {filter : Filter} :
    filter.keeps .debug = true ↔ filter = .upTo .debug ∨ filter = .all := by
  cases filter with
  | off => decide
  | upTo level => cases level <;> decide

end Filter

end SharedPair
