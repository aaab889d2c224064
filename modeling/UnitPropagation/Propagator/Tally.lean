import UnitPropagation.Statistic

namespace UnitPropagation

/-!
# Tallies

A tally counts what a propagator has done since it was made.
-/

/-- The counts of a propagator.  Units are processed when their consequences are looked for, and
enqueued when they become units.  A visit is one to a clause that has lost a watched literal; it may
find another literal to watch the clause, or find the clause satisfied or forcing, which is then
retired.  Conflicts are counted as inconsistencies. -/
structure Tally where
  processedUnits : Nat
  enqueuedUnits : Nat
  watchVisits : Nat
  watchReplacements : Nat
  retiredClauses : Nat
  inconsistencies : Nat
deriving DecidableEq, Repr

namespace Tally

def zero : Tally :=
  ⟨0, 0, 0, 0, 0, 0⟩

/-- The counts under the names of their report and in its order. -/
def counts (tally : Tally) : List (String × Nat) :=
  [("num_processed_units", tally.processedUnits),
    ("num_enqueued_units", tally.enqueuedUnits),
    ("num_watch_visits", tally.watchVisits),
    ("num_watch_replacements", tally.watchReplacements),
    ("num_retired_clauses", tally.retiredClauses),
    ("num_inconsistencies", tally.inconsistencies)]

def statistic (tally : Tally) : Statistic :=
  .group (tally.counts.map fun (name, count) => (name, .value (toString count)))

end Tally

end UnitPropagation
