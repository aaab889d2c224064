import UnitPropagation.Watches

namespace UnitPropagation

/-!
# Coherent watches

The index says twice which literals watch a clause: by its lists and by the
standings of the clauses.  The two agree at the start, and every operation keeps
them in agreement but for one gap.  Once the clauses of a literal have been taken
they are listed under it no more, while their standings still name it.  Each of
them leaves the gap when it is retired or given a new watch.

No truth value occurs here.  That the watches are of any use is a fact about
propagators.
-/

namespace Standing

@[simp] theorem isWatchedBy_watched {first second literal : Literal} :
    (watched first second).isWatchedBy literal = true ↔ literal = first ∨ literal = second := by
  simp only [isWatchedBy, Bool.or_eq_true, beq_iff_eq]
  exact or_congr eq_comm eq_comm

@[simp] theorem isWatchedBy_unit (literal : Literal) : unit.isWatchedBy literal = false :=
  rfl

@[simp] theorem isWatchedBy_retired (literal : Literal) : retired.isWatchedBy literal = false :=
  rfl

/-- The partner is the watch beside the lost one, in either place. -/
theorem partner_eq_ok_iff {standing : Standing} {id : ClauseId} {lost partner : Literal} :
    standing.partner id lost = .ok partner ↔
      standing = watched lost partner ∨ (standing = watched partner lost ∧ partner ≠ lost) := by
  cases standing with
  | watched first second =>
      by_cases atFirst : first = lost
      · subst atFirst
        simp only [Standing.partner, if_true, Except.ok.injEq, watched.injEq, true_and]
        constructor
        · exact Or.inl
        · rintro (same | ⟨⟨same, _⟩, different⟩)
          · exact same
          · exact absurd same.symm different
      · by_cases atSecond : second = lost
        · subst atSecond
          simp only [Standing.partner, atFirst, if_false, if_true, Except.ok.injEq, watched.injEq,
            false_and, false_or, and_true]
          constructor
          · intro same
            exact ⟨same, same ▸ atFirst⟩
          · exact And.left
        · simp [Standing.partner, atFirst, atSecond]
  | unit => simp [Standing.partner]
  | retired => simp [Standing.partner]

/-- A clause that is watched by the lost literal has a partner. -/
theorem exists_partner {standing : Standing} {lost : Literal} (id : ClauseId)
    (isWatched : standing.isWatchedBy lost = true) :
    ∃ partner, standing.partner id lost = .ok partner := by
  cases standing with
  | watched first second =>
      rcases isWatchedBy_watched.mp isWatched with same | same
      · exact ⟨second, partner_eq_ok_iff.mpr (Or.inl (same ▸ rfl))⟩
      · by_cases atFirst : first = lost
        · exact ⟨second, partner_eq_ok_iff.mpr (Or.inl (atFirst ▸ rfl))⟩
        · exact ⟨first, partner_eq_ok_iff.mpr (Or.inr ⟨same ▸ rfl, atFirst⟩)⟩
  | unit => cases isWatched
  | retired => cases isWatched

/-- The watches of a clause with a partner are the lost literal and the partner. -/
theorem isWatchedBy_of_partner {standing : Standing} {id : ClauseId} {lost partner : Literal}
    (found : standing.partner id lost = .ok partner) (literal : Literal) :
    standing.isWatchedBy literal = true ↔ literal = lost ∨ literal = partner := by
  rcases partner_eq_ok_iff.mp found with rfl | ⟨rfl, _⟩
  · exact isWatchedBy_watched
  · exact isWatchedBy_watched.trans or_comm

theorem mem_literals_of_initial {clause : Clause} {literal : Literal}
    (isWatched : (initial clause).isWatchedBy literal = true) : literal ∈ clause.literals := by
  rcases clause with ⟨first, _ | ⟨second, rest⟩⟩
  · cases isWatched
  · rcases isWatchedBy_watched.mp isWatched with rfl | rfl
    · exact List.mem_cons_self
    · exact List.mem_cons_of_mem _ List.mem_cons_self

theorem initial_eq_unit_iff {clause : Clause} : initial clause = .unit ↔ clause.isUnit = true := by
  rcases clause with ⟨first, _ | ⟨second, rest⟩⟩ <;> simp [initial, Clause.isUnit]

theorem initial_ne_retired (clause : Clause) : initial clause ≠ .retired := by
  rcases clause with ⟨first, _ | ⟨second, rest⟩⟩ <;> simp [initial]

end Standing

namespace Watches

/-! ## Standings and lists after each operation -/

theorem standing_lt {watches : Watches} {id : ClauseId} {standing : Standing}
    (found : watches.standing id = .ok standing) : id < watches.standings.size := by
  apply Nat.lt_of_not_le
  intro behind
  have missing := Table.get_eq_error_iff.mpr ⟨behind, rfl⟩
  cases missing.symm.trans found

theorem standing_watch {watches : Watches} {id : ClauseId} (inside : id < watches.standings.size)
    (first second : Literal) (other : ClauseId) :
    (watches.watch id first second).standing other =
      if other = id then .ok (.watched first second) else watches.standing other :=
  Table.get_put inside _ other

theorem standings_retire (watches : Watches) (id : ClauseId) (standing : Standing) :
    (watches.retire id standing).standings = watches.standings.put id .retired := by
  cases standing <;> rfl

theorem standing_retire {watches : Watches} {id : ClauseId} (inside : id < watches.standings.size)
    (standing : Standing) (other : ClauseId) :
    (watches.retire id standing).standing other =
      if other = id then .ok .retired else watches.standing other := by
  rw [Watches.standing, standings_retire]
  exact Table.get_put inside _ other

theorem isListed_watch {watches : Watches} {id other : ClauseId} {first second literal : Literal} :
    (watches.watch id first second).isListed literal other = true ↔
      (other = id ∧ (literal = first ∨ literal = second)) ∨
        watches.isListed literal other = true := by
  have numbered : ({ watches with
      standings := watches.standings.put id (.watched first second) } : Watches).isListed literal other =
        watches.isListed literal other := rfl
  simp only [watch, isListed_enlist, numbered, Bool.or_eq_true, decide_eq_true_eq]
  constructor
  · rintro (⟨same, here⟩ | ⟨same, here⟩ | listed)
    · exact Or.inl ⟨here, Or.inr same⟩
    · exact Or.inl ⟨here, Or.inl same⟩
    · exact Or.inr listed
  · rintro (⟨here, same | same⟩ | listed)
    · exact Or.inr (Or.inl ⟨same, here⟩)
    · exact Or.inl ⟨same, here⟩
    · exact Or.inr (Or.inr listed)

theorem isListed_retire {watches : Watches} {id other : ClauseId} {standing : Standing}
    {literal : Literal} :
    (watches.retire id standing).isListed literal other = true ↔
      watches.isListed literal other = true ∧
        ¬(other = id ∧ standing.isWatchedBy literal = true) := by
  cases standing with
  | watched first second =>
      have struck : (watches.retire id (.watched first second)).isListed literal other =
          ((watches.strike first id).strike second id).isListed literal other := rfl
      simp only [struck, isListed_strike, Standing.isWatchedBy_watched, Bool.and_eq_true,
        Bool.not_eq_true', decide_eq_false_iff_not]
      constructor
      · rintro ⟨notSecond, notFirst, listed⟩
        refine ⟨listed, ?_⟩
        rintro ⟨here, same | same⟩
        · exact notFirst ⟨same, here⟩
        · exact notSecond ⟨same, here⟩
      · rintro ⟨listed, free⟩
        exact ⟨fun ⟨same, here⟩ => free ⟨here, Or.inr same⟩,
          fun ⟨same, here⟩ => free ⟨here, Or.inl same⟩, listed⟩
  | unit => simp [retire, isListed, watchersOf]
  | retired => simp [retire, isListed, watchersOf]

/-- Whether no list is empty.  A literal that watches nothing has no list. -/
def ListsNonempty (watches : Watches) : Prop :=
  ∀ (literal : Literal) (ids : Std.TreeSet ClauseId),
    watches.watchers[literal]? = some ids → ids.isEmpty = false

theorem ListsNonempty.enlist {watches : Watches} (nonempty : watches.ListsNonempty)
    (literal : Literal) (id : ClauseId) : (watches.enlist literal id).ListsNonempty := by
  intro other ids found
  simp only [Watches.enlist, Std.TreeMap.getElem?_alter, Std.LawfulEqCmp.compare_eq_iff_eq] at found
  by_cases same : literal = other
  · rw [if_pos same, Option.some.injEq] at found
    rw [← found]
    exact Std.TreeSet.isEmpty_insert
  · rw [if_neg same] at found
    exact nonempty other ids found

theorem ListsNonempty.strike {watches : Watches} (nonempty : watches.ListsNonempty)
    (literal : Literal) (id : ClauseId) : (watches.strike literal id).ListsNonempty := by
  intro other ids found
  simp only [Watches.strike, Std.TreeMap.getElem?_alter, Std.LawfulEqCmp.compare_eq_iff_eq] at found
  by_cases same : literal = other
  · rw [if_pos same] at found
    cases listed : watches.watchers[literal]? with
    | none =>
        rw [listed] at found
        cases found
    | some before =>
        rw [listed] at found
        cases emptied : (before.erase id).isEmpty with
        | true => simp [emptied] at found
        | false =>
            simp only [emptied, Bool.false_eq_true, if_false, Option.some.injEq] at found
            rw [← found]
            exact emptied
  · rw [if_neg same] at found
    exact nonempty other ids found

theorem ListsNonempty.take {watches : Watches} (nonempty : watches.ListsNonempty)
    (literal : Literal) : (watches.take literal).2.ListsNonempty := by
  intro other ids found
  simp only [Watches.take, Std.TreeMap.getElem?_erase, Std.LawfulEqCmp.compare_eq_iff_eq] at found
  by_cases same : literal = other
  · rw [if_pos same] at found
    cases found
  · rw [if_neg same] at found
    exact nonempty other ids found

theorem ListsNonempty.watch {watches : Watches} (nonempty : watches.ListsNonempty)
    (id : ClauseId) (first second : Literal) : (watches.watch id first second).ListsNonempty := by
  have numbered : ({ watches with
      standings := watches.standings.put id (.watched first second) } : Watches).ListsNonempty :=
    nonempty
  exact (numbered.enlist first id).enlist second id

theorem ListsNonempty.retire {watches : Watches} (nonempty : watches.ListsNonempty)
    (id : ClauseId) (standing : Standing) : (watches.retire id standing).ListsNonempty := by
  cases standing with
  | watched first second => exact (nonempty.strike first id).strike second id
  | unit => exact nonempty
  | retired => exact nonempty

/-! ## Coherence and what preserves it -/

/-- Whether the standing of a clause names the literal among the watches. -/
def IsWatch (watches : Watches) (id : ClauseId) (literal : Literal) : Prop :=
  ∃ standing, watches.standing id = .ok standing ∧ standing.isWatchedBy literal = true

theorem isWatch_iff {watches : Watches} {id : ClauseId} {standing : Standing}
    (found : watches.standing id = .ok standing) (literal : Literal) :
    watches.IsWatch id literal ↔ standing.isWatchedBy literal = true := by
  constructor
  · rintro ⟨other, foundOther, isWatched⟩
    cases found.symm.trans foundOther
    exact isWatched
  · intro isWatched
    exact ⟨standing, found, isWatched⟩

/-- Only a watched clause has watches, and they are the two that its standing names. -/
theorem isWatch_iff_exists {watches : Watches} {id : ClauseId} {literal : Literal} :
    watches.IsWatch id literal ↔ ∃ first second,
      watches.standing id = .ok (.watched first second) ∧ (literal = first ∨ literal = second) := by
  constructor
  · rintro ⟨standing, found, isWatched⟩
    cases standing with
    | watched first second => exact ⟨first, second, found, Standing.isWatchedBy_watched.mp isWatched⟩
    | unit => cases isWatched
    | retired => cases isWatched
  · rintro ⟨first, second, found, either⟩
    exact ⟨_, found, Standing.isWatchedBy_watched.mpr either⟩

theorem isWatch_iff_of_watched {watches : Watches} {id : ClauseId} {first second : Literal}
    (found : watches.standing id = .ok (.watched first second)) (literal : Literal) :
    watches.IsWatch id literal ↔ literal = first ∨ literal = second :=
  (isWatch_iff found literal).trans Standing.isWatchedBy_watched

/-- An operation on one clause leaves the watches of the others alone. -/
theorem isWatch_congr {watches changed : Watches} {id : ClauseId}
    (same : changed.standing id = watches.standing id) (literal : Literal) :
    changed.IsWatch id literal ↔ watches.IsWatch id literal := by
  rw [IsWatch, IsWatch, same]

/-- The lists and the standings agree for the clauses of a formula, except that the
`remaining` clauses, all of them watched by the `lost` literal, are not listed under it. -/
structure Coherent (watches : Watches) (formula : Formula) (lost : Literal)
    (remaining : List ClauseId) : Prop where
  standings_size : watches.standings.size = formula.size
  lists_nonempty : watches.ListsNonempty
  isListed_iff : ∀ literal id, watches.isListed literal id = true ↔
    watches.IsWatch id literal ∧ ¬(literal = lost ∧ id ∈ remaining)
  mem_literals : ∀ {id clause literal}, formula.clause id = .ok clause →
    watches.IsWatch id literal → literal ∈ clause.literals
  unit_iff : ∀ {id clause}, formula.clause id = .ok clause →
    (watches.standing id = .ok .unit ↔ clause.isUnit = true)
  isWatch_lost : ∀ id ∈ remaining, watches.IsWatch id lost
  remaining_nodup : remaining.Nodup

namespace Coherent

variable {watches : Watches} {formula : Formula} {lost : Literal} {id : ClauseId}
  {remaining : List ClauseId}

/-- Where no clause remains, it does not matter which literal was lost. -/
theorem of_nil (coherent : watches.Coherent formula lost []) (other : Literal) :
    watches.Coherent formula other [] where
  standings_size := coherent.standings_size
  lists_nonempty := coherent.lists_nonempty
  isListed_iff := by simpa using coherent.isListed_iff
  mem_literals := coherent.mem_literals
  unit_iff := coherent.unit_iff
  isWatch_lost := by simp
  remaining_nodup := List.nodup_nil

theorem exists_clause (coherent : watches.Coherent formula lost remaining) {standing : Standing}
    (found : watches.standing id = .ok standing) : ∃ clause, formula.clause id = .ok clause := by
  apply Table.exists_get_of_lt
  have inside := standing_lt found
  rw [coherent.standings_size] at inside
  exact inside

theorem exists_standing (coherent : watches.Coherent formula lost remaining) {clause : Clause}
    (read : formula.clause id = .ok clause) : ∃ standing, watches.standing id = .ok standing := by
  apply Table.exists_get_of_lt
  apply Nat.lt_of_lt_of_eq _ coherent.standings_size.symm
  apply Nat.lt_of_not_le
  intro behind
  cases read.symm.trans (Table.get_eq_error_iff.mpr ⟨behind, rfl⟩)

theorem exists_of_remaining (coherent : watches.Coherent formula lost (id :: remaining)) :
    ∃ standing partner clause, watches.standing id = .ok standing ∧
      standing.partner id lost = .ok partner ∧ formula.clause id = .ok clause := by
  rcases coherent.isWatch_lost id List.mem_cons_self with ⟨standing, found, isWatched⟩
  rcases Standing.exists_partner id isWatched with ⟨partner, partnerFound⟩
  rcases coherent.exists_clause found with ⟨clause, read⟩
  exact ⟨standing, partner, clause, found, partnerFound, read⟩

theorem watched_mem (coherent : watches.Coherent formula lost remaining) {clause : Clause}
    {first second : Literal} (read : formula.clause id = .ok clause)
    (found : watches.standing id = .ok (.watched first second)) :
    first ∈ clause.literals ∧ second ∈ clause.literals :=
  ⟨coherent.mem_literals read ((isWatch_iff_of_watched found first).mpr (Or.inl rfl)),
    coherent.mem_literals read ((isWatch_iff_of_watched found second).mpr (Or.inr rfl))⟩

theorem partner_mem (coherent : watches.Coherent formula lost remaining) {standing : Standing}
    {partner : Literal} {clause : Clause} (found : watches.standing id = .ok standing)
    (partnerFound : standing.partner id lost = .ok partner)
    (read : formula.clause id = .ok clause) : partner ∈ clause.literals :=
  coherent.mem_literals read ((isWatch_iff found partner).mpr
    ((Standing.isWatchedBy_of_partner partnerFound partner).mpr (Or.inr rfl)))

theorem isUnit_of_remaining (coherent : watches.Coherent formula lost (id :: remaining))
    {clause : Clause} (read : formula.clause id = .ok clause) : clause.isUnit = false := by
  rcases coherent.isWatch_lost id List.mem_cons_self with ⟨standing, found, isWatched⟩
  apply Bool.eq_false_iff.mpr
  intro isUnit
  cases found.symm.trans ((coherent.unit_iff read).mpr isUnit)
  cases isWatched

/-- Taking the clauses of a literal opens the gap for exactly these clauses. -/
theorem take (coherent : watches.Coherent formula lost []) (literal : Literal) :
    (watches.take literal).2.Coherent formula literal (watches.take literal).1 where
  standings_size := coherent.standings_size
  lists_nonempty := coherent.lists_nonempty.take literal
  isListed_iff := by
    intro other id
    rw [isListed_take, mem_take, Bool.and_eq_true, coherent.isListed_iff other id,
      coherent.isListed_iff literal id]
    have kept : (watches.take literal).2.IsWatch id other ↔ watches.IsWatch id other :=
      isWatch_congr rfl other
    simp only [kept, Bool.not_eq_true', decide_eq_false_iff_not, List.not_mem_nil, and_false,
      not_false_eq_true, and_true]
    constructor
    · rintro ⟨different, isWatch⟩
      exact ⟨isWatch, fun taken => different taken.1⟩
    · rintro ⟨isWatch, free⟩
      exact ⟨fun same => free ⟨same, same ▸ isWatch⟩, isWatch⟩
  mem_literals := fun read isWatch => coherent.mem_literals read ((isWatch_congr rfl _).mp isWatch)
  unit_iff := coherent.unit_iff
  isWatch_lost := by
    intro id taken
    rw [mem_take, coherent.isListed_iff] at taken
    exact (isWatch_congr rfl literal).mpr taken.1
  remaining_nodup := by
    refine List.Pairwise.imp ?_ Std.TreeSet.distinct_toList
    intro first second different same
    exact different (Std.LawfulEqCmp.compare_eq_iff_eq.mpr same)

/-- The first remaining clause leaves the gap when its standing changes and its lists
follow, whatever the new standing is.  Nothing may change for the other clauses. -/
theorem settle (coherent : watches.Coherent formula lost (id :: remaining)) {changed : Watches}
    (standing : Standing) (size : changed.standings.size = watches.standings.size)
    (nonempty : changed.ListsNonempty) (found : changed.standing id = .ok standing)
    (others : ∀ other, other ≠ id → changed.standing other = watches.standing other)
    (listed : ∀ literal, changed.isListed literal id = true ↔ standing.isWatchedBy literal = true)
    (otherLists : ∀ literal other, other ≠ id →
      changed.isListed literal other = watches.isListed literal other)
    (own : ∀ {clause literal}, formula.clause id = .ok clause →
      standing.isWatchedBy literal = true → literal ∈ clause.literals)
    (notUnit : standing ≠ .unit) : changed.Coherent formula lost remaining := by
  have distinct := List.nodup_cons.mp coherent.remaining_nodup
  have kept : ∀ {other} literal, other ≠ id →
      (changed.IsWatch other literal ↔ watches.IsWatch other literal) := by
    intro other literal different
    exact isWatch_congr (others other different) literal
  constructor
  case standings_size => rw [size, coherent.standings_size]
  case lists_nonempty => exact nonempty
  case isListed_iff =>
    intro literal other
    by_cases here : other = id
    · subst here
      rw [listed literal, isWatch_iff found]
      simp [distinct.1]
    · rw [otherLists literal other here, coherent.isListed_iff, kept literal here]
      simp [here]
  case mem_literals =>
    intro other clause literal read isWatch
    by_cases here : other = id
    · subst here
      exact own read ((isWatch_iff found literal).mp isWatch)
    · exact coherent.mem_literals read ((kept literal here).mp isWatch)
  case unit_iff =>
    intro other clause read
    by_cases here : other = id
    · subst here
      rw [found, coherent.isUnit_of_remaining read]
      simpa using notUnit
    · rw [others other here]
      exact coherent.unit_iff read
  case isWatch_lost =>
    intro other later
    have different : other ≠ id := by
      rintro rfl
      exact distinct.1 later
    exact (kept lost different).mpr (coherent.isWatch_lost other (List.mem_cons_of_mem id later))
  case remaining_nodup => exact distinct.2

/-- Retiring the first remaining clause takes it out of the gap. -/
theorem retire (coherent : watches.Coherent formula lost (id :: remaining)) {standing : Standing}
    (found : watches.standing id = .ok standing) :
    (watches.retire id standing).Coherent formula lost remaining := by
  have standings := standing_retire (standing_lt found) standing
  apply coherent.settle .retired
  case size => rw [standings_retire, Table.size_put]
  case nonempty => exact coherent.lists_nonempty.retire id standing
  case found => rw [standings id, if_pos rfl]
  case others =>
    intro other different
    rw [standings other, if_neg different]
  case listed =>
    intro literal
    rw [isListed_retire, coherent.isListed_iff, isWatch_iff found]
    simp only [Standing.isWatchedBy_retired, Bool.false_eq_true, iff_false, true_and]
    rintro ⟨⟨isWatched, _⟩, free⟩
    exact free isWatched
  case otherLists =>
    intro literal other different
    apply Bool.eq_iff_iff.mpr
    rw [isListed_retire]
    simp [different]
  case own =>
    intro clause literal read isWatched
    cases isWatched
  case notUnit => exact Standing.noConfusion

/-- A new watch for the first remaining clause, beside its partner, takes it out of the gap. -/
theorem watch (coherent : watches.Coherent formula lost (id :: remaining)) {standing : Standing}
    {partner replacement : Literal} {clause : Clause}
    (found : watches.standing id = .ok standing)
    (partnerFound : standing.partner id lost = .ok partner)
    (read : formula.clause id = .ok clause) (replacementMem : replacement ∈ clause.literals) :
    (watches.watch id partner replacement).Coherent formula lost remaining := by
  have standings := standing_watch (standing_lt found) partner replacement
  apply coherent.settle (.watched partner replacement)
  case size => exact Table.size_put _ _ _
  case nonempty => exact coherent.lists_nonempty.watch id partner replacement
  case found => rw [standings id, if_pos rfl]
  case others =>
    intro other different
    rw [standings other, if_neg different]
  case listed =>
    intro literal
    rw [isListed_watch, coherent.isListed_iff, isWatch_iff found,
      Standing.isWatchedBy_of_partner partnerFound, Standing.isWatchedBy_watched]
    simp only [true_and, List.mem_cons, true_or, and_true]
    constructor
    · rintro (isNew | ⟨same | same, notLost⟩)
      · exact isNew
      · exact absurd same notLost
      · exact Or.inl same
    · exact Or.inl
  case otherLists =>
    intro literal other different
    apply Bool.eq_iff_iff.mpr
    rw [isListed_watch]
    simp [different]
  case own =>
    intro otherClause literal otherRead isWatched
    cases read.symm.trans otherRead
    rcases Standing.isWatchedBy_watched.mp isWatched with rfl | rfl
    · exact coherent.partner_mem found partnerFound read
    · exact replacementMem
  case notUnit => exact Standing.noConfusion

end Coherent

/-! ## The watches at the start -/

/-- The index describes exactly the first watches of the clauses of a list. -/
private structure Initial (watches : Watches) (clauses : List Clause) : Prop where
  standings : watches.standings.toList = clauses.map Standing.initial
  lists_nonempty : watches.ListsNonempty
  isListed_iff : ∀ literal id, watches.isListed literal id = true ↔
    ∃ clause, clauses[id]? = some clause ∧ (Standing.initial clause).isWatchedBy literal = true

private theorem Initial.standing_eq {watches : Watches} {clauses : List Clause}
    (initial : watches.Initial clauses) {id : ClauseId} {standing : Standing} :
    watches.standing id = .ok standing ↔
      ∃ clause, clauses[id]? = some clause ∧ Standing.initial clause = standing := by
  rw [Watches.standing, Table.get_eq_ok_iff, ← Array.getElem?_toList]
  change watches.standings.toList[id]? = some standing ↔ _
  rw [initial.standings, List.getElem?_map, Option.map_eq_some_iff]

private theorem initial_empty : empty.Initial [] where
  standings := rfl
  lists_nonempty := by
    intro literal ids found
    simp [empty] at found
  isListed_iff := by simp

theorem isListed_add {watches : Watches} {clause : Clause} {literal : Literal} {id : ClauseId} :
    (watches.add clause).isListed literal id = true ↔ watches.isListed literal id = true ∨
      (id = watches.standings.nextKey ∧ (Standing.initial clause).isWatchedBy literal = true) := by
  have numbered : ({ watches with
      standings := watches.standings.push (.initial clause) } : Watches).isListed literal id =
        watches.isListed literal id := rfl
  unfold add
  cases standing : Standing.initial clause with
  | watched first second =>
      rw [standing] at numbered
      simp only [isListed_enlist, numbered, Bool.or_eq_true, decide_eq_true_eq,
        Standing.isWatchedBy_watched]
      constructor
      · rintro (⟨same, here⟩ | ⟨same, here⟩ | listed)
        · exact Or.inr ⟨here, Or.inr same⟩
        · exact Or.inr ⟨here, Or.inl same⟩
        · exact Or.inl listed
      · rintro (listed | ⟨here, same | same⟩)
        · exact Or.inr (Or.inr listed)
        · exact Or.inr (Or.inl ⟨same, here⟩)
        · exact Or.inl ⟨same, here⟩
  | unit => simp [isListed, watchersOf]
  | retired => simp [isListed, watchersOf]

theorem standings_add (watches : Watches) (clause : Clause) :
    (watches.add clause).standings = watches.standings.push (.initial clause) := by
  unfold add
  cases Standing.initial clause <;> rfl

theorem ListsNonempty.add {watches : Watches} (nonempty : watches.ListsNonempty)
    (clause : Clause) : (watches.add clause).ListsNonempty := by
  have numbered : ({ watches with
      standings := watches.standings.push (.initial clause) } : Watches).ListsNonempty :=
    nonempty
  unfold Watches.add
  cases standing : Standing.initial clause with
  | watched first second =>
      rw [standing] at numbered
      exact (numbered.enlist first _).enlist second _
  | unit => exact nonempty
  | retired => exact nonempty

/-- A clause which is added gets the next number and is listed under its first watches. -/
private theorem Initial.add {watches : Watches} {clauses : List Clause}
    (initial : watches.Initial clauses) (clause : Clause) :
    (watches.add clause).Initial (clauses ++ [clause]) where
  standings := by
    rw [standings_add, Table.toList_push, initial.standings, List.map_append, List.map_singleton]
  lists_nonempty := initial.lists_nonempty.add clause
  isListed_iff := by
    intro literal id
    have next : watches.standings.nextKey = clauses.length := by
      have lengths := congrArg List.length initial.standings
      rw [List.length_map] at lengths
      exact lengths
    rw [isListed_add, initial.isListed_iff, next]
    constructor
    · rintro (⟨found, read, isWatched⟩ | ⟨rfl, isWatched⟩)
      · have inside := (List.getElem?_eq_some_iff.mp read).1
        exact ⟨found, by rw [List.getElem?_append_left inside, read], isWatched⟩
      · exact ⟨clause, List.getElem?_concat_length, isWatched⟩
    · rintro ⟨found, read, isWatched⟩
      by_cases inside : id < clauses.length
      · rw [List.getElem?_append_left inside] at read
        exact Or.inl ⟨found, read, isWatched⟩
      · rw [List.getElem?_append_right (Nat.le_of_not_lt inside),
          List.getElem?_singleton] at read
        split at read
        · rename_i isZero
          cases read
          exact Or.inr ⟨Nat.le_antisymm (Nat.le_of_sub_eq_zero isZero) (Nat.le_of_not_lt inside),
            isWatched⟩
        · cases read

/-- The index for a formula describes the first watches of its clauses. -/
private theorem initial_ofFormula (formula : Formula) :
    (ofFormula formula).Initial formula.toList := by
  have general : ∀ (clauses before : List Clause) (watches : Watches), watches.Initial before →
      (clauses.foldl Watches.add watches).Initial (before ++ clauses) := by
    intro clauses
    induction clauses with
    | nil =>
        intro before watches initial
        rw [List.append_nil]
        exact initial
    | cons clause clauses ih =>
        intro before watches initial
        rw [List.append_cons]
        exact ih (before ++ [clause]) (watches.add clause) (initial.add clause)
  exact general formula.toList [] empty initial_empty

theorem clause_eq_ok_iff {formula : Formula} {id : ClauseId} {clause : Clause} :
    formula.clause id = .ok clause ↔ formula.toList[id]? = some clause := by
  rw [Formula.clause, Table.get_eq_ok_iff, ← Array.getElem?_toList]
  rfl

/-- At first every clause has the standing that its length asks for. -/
theorem standing_ofFormula {formula : Formula} {id : ClauseId} {standing : Standing} :
    (ofFormula formula).standing id = .ok standing ↔
      ∃ clause, formula.clause id = .ok clause ∧ Standing.initial clause = standing := by
  rw [Watches.standing, Table.get_eq_ok_iff, ← Array.getElem?_toList]
  change (ofFormula formula).standings.toList[id]? = some standing ↔ _
  rw [(initial_ofFormula formula).standings, List.getElem?_map, Option.map_eq_some_iff]
  simp only [clause_eq_ok_iff]

theorem coherent_ofFormula (formula : Formula) (lost : Literal) :
    (ofFormula formula).Coherent formula lost [] where
  standings_size := by
    have lengths := congrArg List.length (initial_ofFormula formula).standings
    rw [List.length_map] at lengths
    exact lengths
  lists_nonempty := (initial_ofFormula formula).lists_nonempty
  isListed_iff := by
    intro literal id
    simp only [(initial_ofFormula formula).isListed_iff, IsWatch, standing_ofFormula,
      clause_eq_ok_iff, List.not_mem_nil, and_false, not_false_eq_true, and_true]
    constructor
    · rintro ⟨clause, read, isWatched⟩
      exact ⟨_, ⟨clause, read, rfl⟩, isWatched⟩
    · rintro ⟨_, ⟨clause, read, rfl⟩, isWatched⟩
      exact ⟨clause, read, isWatched⟩
  mem_literals := by
    rintro id clause literal read ⟨standing, found, isWatched⟩
    rcases standing_ofFormula.mp found with ⟨other, otherRead, rfl⟩
    cases read.symm.trans otherRead
    exact Standing.mem_literals_of_initial isWatched
  unit_iff := by
    intro id clause read
    rw [standing_ofFormula, ← Standing.initial_eq_unit_iff]
    constructor
    · rintro ⟨other, otherRead, isUnit⟩
      cases read.symm.trans otherRead
      exact isUnit
    · intro isUnit
      exact ⟨clause, read, isUnit⟩
  isWatch_lost := by simp
  remaining_nodup := List.nodup_nil

end Watches
end UnitPropagation
