import Mathlib.Data.List.Basic
import UnitPropagation.Proofs.Dimacs.Delivery

namespace UnitPropagation
namespace Dimacs

/-!
# Receipts

A delivery comes to an end with a receipt.  Since a mishap ends it at once, and everything that
has to be known at the end of a piece is kept, it only matters which bytes have been handed out,
and whether the source breaks behind them.  A broken source is unreadable unless there is a mishap
before it breaks, and the checks at the end of a text are not made.

The receipts of the two receivers say what a reader says about the same source, and no delivery to
them has a lapse.
-/

namespace Delivery

variable {State Result : Type} {receiver : Receiver State Result} {delivery : Delivery State}
  {reader : Reader} {broken : Bool}

theorem read_append (bytes more : List UInt8) : delivery.read receiver (bytes ++ more) =
    delivery.read receiver bytes >>= fun next => next.read receiver more := by
  rw [read, List.foldlM_append]
  rfl

/-- The pieces of a text leave the delivery in the state in which the text leaves it. -/
theorem foldlM_read (pieces : List (List UInt8)) :
    pieces.foldlM (Delivery.read receiver) delivery = delivery.read receiver pieces.flatten := by
  induction pieces generalizing delivery with
  | nil => rfl
  | cons piece pieces ih =>
      rw [List.foldlM_cons, List.flatten_cons, read_append]
      exact bind_congr fun next => ih

/-- The receipt when bytes have been read, or when this was interrupted. -/
def receiptFor (receiver : Receiver State Result) (broken : Bool) :
    Except (Interruption State) (Delivery State) → Receipt Result
  | .ok next => next.receipt receiver broken
  | .error interruption => interruption.receipt

theorem receive_eq {pieces : List (List UInt8)} (nonempty : ∀ piece ∈ pieces, piece ≠ []) :
    delivery.receive receiver broken pieces =
      receiptFor receiver broken (delivery.read receiver pieces.flatten) := by
  induction pieces generalizing delivery with
  | nil => rfl
  | cons piece pieces ih =>
      rcases List.forall_mem_cons.mp nonempty with ⟨first, others⟩
      rw [receive, if_neg first, List.flatten_cons, read_append]
      cases delivery.read receiver piece with
      | ok next => exact ih others
      | error interruption => rfl

/-- An empty piece ends the text, so that every source delivers like one with nonempty pieces. -/
theorem exists_nonempty (receiver : Receiver State Result) (broken : Bool)
    (pieces : List (List UInt8)) :
    ∃ (ended : Bool) (front : List (List UInt8)), (∀ piece ∈ front, piece ≠ []) ∧
      ∀ delivery : Delivery State,
        delivery.receive receiver broken pieces = delivery.receive receiver ended front := by
  induction pieces with
  | nil => exact ⟨broken, [], by simp, fun _ => rfl⟩
  | cons piece pieces ih =>
      by_cases isEmpty : piece = []
      · exact ⟨false, [], by simp, fun delivery => if_pos isEmpty⟩
      · rcases ih with ⟨ended, front, nonempty, same⟩
        refine ⟨ended, piece :: front, List.forall_mem_cons.mpr ⟨isEmpty, nonempty⟩, ?_⟩
        intro delivery
        rw [receive, receive, if_neg isEmpty, if_neg isEmpty]
        cases delivery.read receiver piece with
        | ok next => exact same next
        | error interruption => rfl

/-! ## Mishaps come before the end of the text -/

/-- A delivery is interrupted by the first step that has a mishap. -/
theorem exists_step_of_read_eq_error {bytes : List UInt8} {interruption : Interruption State}
    (interrupted : delivery.read receiver bytes = .error interruption) :
    ∃ front byte rest, bytes = front ++ byte :: rest ∧
      delivery.read receiver front = .ok interruption.before ∧
        interruption.before.step receiver (Char.ofUInt8 byte) = .error interruption.mishap := by
  induction bytes generalizing delivery with
  | nil => cases interrupted
  | cons byte bytes ih =>
      rw [read_cons, readByte] at interrupted
      cases stepped : delivery.step receiver (Char.ofUInt8 byte) with
      | ok next =>
          rw [stepped] at interrupted
          rcases ih interrupted with ⟨front, last, rest, rfl, read, failed⟩
          refine ⟨byte :: front, last, rest, rfl, ?_, failed⟩
          rw [read_cons, readByte, stepped]
          exact read
      | error mishap =>
          rw [stepped] at interrupted
          cases interrupted
          exact ⟨[], byte, bytes, rfl, rfl, stepped⟩

end Delivery

/-- Whether a mishap is only found when the text has ended. -/
def Mishap.IsLate (mishap : Mishap) : Prop :=
  mishap = .rejected .unterminatedClause ∨
    ∃ expected parsed, mishap = .rejected (.clauseCount expected parsed)

namespace Delivery

variable {State Result : Type} {receiver : Receiver State Result} {delivery : Delivery State}
  {broken : Bool}

/-- Whether a step has no mishap which is only found when the text has ended. -/
def Prompt (stepped : Except Mishap (Delivery State)) : Prop :=
  ∀ mishap, stepped = .error mishap → ¬mishap.IsLate

theorem prompt_ok (next : Delivery State) : Prompt (.ok next) :=
  nofun

theorem prompt_error {mishap : Mishap} (early : ¬mishap.IsLate) :
    Prompt (.error mishap : Except Mishap (Delivery State)) := by
  intro other same
  cases same
  exact early

theorem Prompt.ite {condition : Prop} [Decidable condition]
    {first second : Except Mishap (Delivery State)} (holds : Prompt first) (fails : Prompt second) :
    Prompt (if condition then first else second) := by
  split
  · exact holds
  · exact fails

theorem prompt_endHeader : Prompt (delivery.endHeader receiver) := by
  unfold endHeader
  split
  · exact prompt_error (by simp [Mishap.IsLate])
  · dsimp only
    split
    · exact prompt_error (by simp [Mishap.IsLate])
    · exact prompt_ok _

theorem prompt_endNumeral (next : Stage) : Prompt (delivery.endNumeral next) := by
  unfold endNumeral
  split
  · exact prompt_error (by simp [Mishap.IsLate])
  · dsimp only
    split
    · exact prompt_error (by simp [Mishap.IsLate])
    · refine .ite (prompt_error (by simp [Mishap.IsLate])) ?_
      refine .ite (prompt_error (by simp [Mishap.IsLate])) ?_
      split
      · exact prompt_error (by simp [Mishap.IsLate])
      · exact prompt_ok _

theorem prompt_endClause : Prompt (delivery.endClause receiver) := by
  unfold endClause
  split
  · exact prompt_error (by simp [Mishap.IsLate])
  · split
    · exact prompt_error (by simp [Mishap.IsLate])
    · exact prompt_ok _

theorem prompt_unexpected (c : Char) :
    Prompt (.error (.rejected (.unexpectedCharacter c)) : Except Mishap (Delivery State)) :=
  prompt_error (by simp [Mishap.IsLate])

theorem prompt_beginItem (c : Char) : Prompt (delivery.beginItem receiver c) :=
  .ite prompt_endClause (.ite (prompt_ok _) (.ite (prompt_ok _) (prompt_unexpected c)))

/-- Steps do not make the checks at the end of a text. -/
theorem prompt_step (c : Char) : Prompt (delivery.step receiver c) := by
  unfold step
  cases delivery.stage with
  | lineStart =>
      exact .ite (prompt_ok _) (.ite (prompt_ok _) (.ite (prompt_ok _) (prompt_beginItem c)))
  | header => exact .ite prompt_endHeader (prompt_ok _)
  | comment => exact .ite (prompt_ok _) (prompt_ok _)
  | minus => exact .ite (prompt_ok _) (prompt_unexpected c)
  | numeral =>
      exact .ite (prompt_endNumeral _)
        (.ite (prompt_endNumeral _) (.ite (prompt_ok _) (prompt_unexpected c)))
  | inClause => exact .ite (prompt_ok _) (.ite (prompt_ok _) (prompt_beginItem c))

end Delivery

/-- Whether a source hands out something with every piece. -/
def Source.IsSteady (source : Source) : Prop :=
  ∀ piece ∈ source.pieces, piece ≠ []

instance (source : Source) : Decidable source.IsSteady :=
  List.decidableBAll _ _

theorem Source.deliver_eq {State Result : Type} (receiver : Receiver State Result) {source : Source}
    (steady : source.IsSteady) : source.deliver receiver =
      Delivery.receiptFor receiver source.broken (Delivery.start.read receiver source.bytes) :=
  Delivery.receive_eq steady

/-- What does not matter for the receipts of a receiver, and what a broken source comes to. -/
structure Receiver.IgnoresPieces {State Result : Type} (receiver : Receiver State Result) :
    Prop where
  state_eq : ∀ pieces : List (List UInt8),
    pieces.foldlM (Delivery.read receiver) Delivery.start =
      Delivery.start.read receiver pieces.flatten
  receipt_eq : ∀ source : Source, source.IsSteady → source.broken = false →
    source.deliver receiver = (Source.ofBytes source.bytes).deliver receiver
  interrupted : ∀ bytes interruption, Delivery.start.read receiver bytes = .error interruption →
    ∀ source : Source, source.IsSteady → bytes <+: source.bytes →
      source.deliver receiver = interruption.receipt
  unreadable : ∀ source : Source, source.IsSteady → source.broken = true →
    ∀ delivery, Delivery.start.read receiver source.bytes = .ok delivery →
      source.deliver receiver = ⟨.error (.rejected .unreadable), delivery.log⟩
  on_the_way : ∀ source : Source, source.IsSteady → source.broken = true →
    ∃ mishap, (source.deliver receiver).result = .error mishap ∧ ¬mishap.IsLate ∧
      (mishap = .rejected .unreadable ∨ ∃ front byte rest delivery,
        source.bytes = front ++ byte :: rest ∧ Delivery.start.read receiver front = .ok delivery ∧
          delivery.step receiver (Char.ofUInt8 byte) = .error mishap)

theorem Source.deliver_ofBytes {State Result : Type} (receiver : Receiver State Result)
    (bytes : List UInt8) : (Source.ofBytes bytes).deliver receiver =
      Delivery.receiptFor receiver false (Delivery.start.read receiver bytes) := by
  cases bytes with
  | nil => rfl
  | cons byte bytes =>
      have steady : (Source.ofBytes (byte :: bytes)).IsSteady := by simp [IsSteady, ofBytes]
      have same : (Source.ofBytes (byte :: bytes)).bytes = byte :: bytes := List.append_nil _
      rw [deliver_eq receiver steady, same]
      rfl

/-- A receiver is given the same, in whatever pieces a text comes. -/
theorem Receiver.ignoresPieces {State Result : Type} (receiver : Receiver State Result) :
    receiver.IgnoresPieces where
  state_eq := fun pieces => Delivery.foldlM_read pieces
  receipt_eq := by
    intro source steady whole
    rw [Source.deliver_eq receiver steady, Source.deliver_ofBytes, whole]
  interrupted := by
    rintro bytes interruption interrupted source steady ⟨more, same⟩
    rw [Source.deliver_eq receiver steady, ← same, Delivery.read_append, interrupted]
    rfl
  unreadable := by
    intro source steady broken delivery read
    rw [Source.deliver_eq receiver steady, read, broken]
    rfl
  on_the_way := by
    intro source steady broken
    rw [Source.deliver_eq receiver steady]
    cases read : Delivery.start.read receiver source.bytes with
    | ok delivery =>
        refine ⟨.rejected .unreadable, ?_, by simp [Mishap.IsLate], Or.inl rfl⟩
        rw [broken]
        rfl
    | error interruption =>
        rcases Delivery.exists_step_of_read_eq_error read with
          ⟨front, byte, rest, cut, before, failed⟩
        exact ⟨interruption.mishap, rfl, Delivery.prompt_step _ _ failed,
          Or.inr ⟨front, byte, rest, interruption.before, cut, before, failed⟩⟩

/-! ## Receipts agree with the outcomes of readers -/

/-- Whether a receipt is for what a reader has found: the receiver holds the content which was
found, or the text is rejected for the same reason, and the log is about the clauses found. -/
structure Receipt.Confirms {State Result : Type} (receiver : Receiver State Result)
    (receipt : Receipt Result) (outcome : Outcome) : Prop where
  exists_log : ∃ variableCount state,
    receiver.Holds variableCount outcome.clauses state receipt.log
  exists_result :
    (∃ content state, outcome.result = .ok content ∧
      receiver.Holds content.variableCount content.clauses state receipt.log ∧
        receipt.result = .ok (receiver.result state)) ∨
    ∃ rejection, outcome.result = .error (.rejected rejection) ∧
      receipt.result = .error (.rejected rejection)

section

variable {State Result : Type} {receiver : Receiver State Result} {source : Source}

theorem Delivery.Mirrors.exists_holds {delivery : Delivery State} {reader : Reader}
    (mirrors : delivery.Mirrors receiver reader) : ∃ variableCount state,
      receiver.Holds variableCount reader.clauses.toList state delivery.log := by
  cases declared : delivery.header? with
  | none =>
      rcases mirrors.undeclared declared with ⟨noClauses, noLog⟩
      refine ⟨0, receiver.empty 0, ?_⟩
      rw [noClauses, noLog]
      exact .empty
  | some header =>
      rcases mirrors.holds header declared with ⟨state, _, holds⟩
      exact ⟨header.variableCount, state, holds⟩

theorem Source.confirms (accepts : receiver.Accepts) (steady : source.IsSteady) :
    (source.deliver receiver).Confirms receiver source.outcome := by
  have start : Delivery.start.Mirrors receiver .start := Delivery.mirrors_start
  rw [deliver_eq receiver steady]
  rcases start.read accepts source.bytes with
    ⟨next, read, mirrors⟩ | ⟨rejection, before, last, read, mirrors, rejected⟩
  · rw [← source.read_eq] at mirrors
    rw [read]
    refine ⟨mirrors.exists_holds, ?_⟩
    rw [outcome, result]
    cases source.broken with
    | true =>
        refine Or.inr ⟨.unreadable, ?_, rfl⟩
        rw [if_pos rfl, mirrors.mode_eq]
        cases next.stage <;> rfl
    | false => exact mirrors.finish
  · rw [← source.read_eq] at rejected
    rw [read]
    constructor
    case exists_log =>
      rw [outcome, rejected]
      exact mirrors.exists_holds
    case exists_result =>
      refine Or.inr ⟨rejection, ?_, rfl⟩
      rw [outcome, result, rejected]
      cases source.broken <;> rfl

/-- Every delivery to a receiver of all clauses comes to a result or a rejection. -/
theorem Source.result_or_rejection (accepts : receiver.Accepts) (source : Source) :
    (∃ made, (source.deliver receiver).result = .ok made) ∨
      ∃ rejection, (source.deliver receiver).result = .error (.rejected rejection) := by
  rcases Delivery.exists_nonempty receiver source.broken source.pieces with
    ⟨ended, front, nonempty, same⟩
  have heard : source.deliver receiver = Source.deliver receiver ⟨front, ended⟩ := same _
  have steady : (⟨front, ended⟩ : Source).IsSteady := nonempty
  rw [heard]
  rcases (Source.confirms accepts steady).exists_result with
    ⟨_, state, _, _, made⟩ | ⟨rejection, _, rejected⟩
  · exact Or.inl ⟨_, made⟩
  · exact Or.inr ⟨rejection, rejected⟩

end

/-- Whether the receipts for a source say what its reader says, for both receivers. -/
structure Source.Agrees (source : Source) : Prop where
  raw : source.deliver .raw =
    { result := (source.outcome.result.map fun content =>
        content.clauses.map fun clause => clause.map Literal.code).mapError Failure.mishap
      log := [] }
  prepared : source.deliver .prepared =
    { result := (source.outcome.result.map Instance.ofContent).mapError Failure.mishap
      log := skipRecords source.outcome.clauses }

theorem Receipt.eq_of_parts {Result : Type} {receipt : Receipt Result}
    {result : Except Mishap Result} {log : List Log.Record} (results : receipt.result = result)
    (logs : receipt.log = log) : receipt = ⟨result, log⟩ := by
  subst results logs
  rfl

/-- If all that a receiver can hold is made from the clauses, so are its receipts. -/
theorem Source.deliver_eq_outcome {State Result : Type} {receiver : Receiver State Result}
    (make : Content → Result) (report : List (List Literal) → List Log.Record)
    (accepts : receiver.Accepts)
    (made : ∀ {variableCount clauses state log}, receiver.Holds variableCount clauses state log →
      receiver.result state = make ⟨variableCount, clauses⟩ ∧ log = report clauses)
    {source : Source} (steady : source.IsSteady) :
    source.deliver receiver =
      { result := (source.outcome.result.map make).mapError Failure.mishap
        log := report source.outcome.clauses } := by
  have confirms := Source.confirms accepts steady
  rcases confirms.exists_log with ⟨_, _, held⟩
  refine Receipt.eq_of_parts ?_ (made held).2
  rcases confirms.exists_result with
    ⟨content, state, read, holds, delivered⟩ | ⟨rejection, read, rejected⟩
  · rw [delivered, read]
    exact congrArg Except.ok (made holds).1
  · rw [rejected, read]
    rfl

theorem Source.agrees {source : Source} (steady : source.IsSteady) : source.Agrees where
  raw := by
    refine Source.deliver_eq_outcome
      (fun content => content.clauses.map fun clause => clause.map Literal.code) (fun _ => [])
      Receiver.accepts_raw ?_ steady
    exact fun holds => holds.raw
  prepared := by
    refine Source.deliver_eq_outcome Instance.ofContent skipRecords Receiver.accepts_prepared ?_
      steady
    exact fun holds => holds.prepared

/-- Whether every delivery to a receiver comes to a result or a rejection, and keeps on the way
what its steps rely on. -/
structure Receiver.IsSafe {State Result : Type} (receiver : Receiver State Result) : Prop where
  result_or_rejection : ∀ source : Source,
    (∃ made, (source.deliver receiver).result = .ok made) ∨
      ∃ rejection, (source.deliver receiver).result = .error (.rejected rejection)
  kept : ∀ bytes delivery, Delivery.start.read receiver bytes = .ok delivery → delivery.Kept

theorem Receiver.Accepts.isSafe {State Result : Type} {receiver : Receiver State Result}
    (accepts : receiver.Accepts) : receiver.IsSafe where
  result_or_rejection := Source.result_or_rejection accepts
  kept := by
    intro bytes delivery read
    have start : Delivery.start.Mirrors receiver .start := Delivery.mirrors_start
    rcases start.read accepts bytes with ⟨next, isNext, mirrors⟩ | ⟨_, _, _, interrupted, _⟩
    · cases read.symm.trans isNext
      exact mirrors.toKept
    · cases read.symm.trans interrupted

/-- No delivery has a lapse, whatever is handed out in whatever pieces, and whether the clauses
are kept as they are or prepared.  There is a receiver exactly if there is a header, the buffer
has a minus sign or a numeral where it should, and only codes of literals over the declared
variables wait for the end of their clause.  What deliveries come to is what readers find. -/
theorem deliveries_have_no_lapse :
    Receiver.raw.IsSafe ∧ Receiver.prepared.IsSafe ∧
      ∀ source : Source, source.IsSteady → source.Agrees :=
  ⟨Receiver.accepts_raw.isSafe, Receiver.accepts_prepared.isSafe, fun _ => Source.agrees⟩

/-- Between the minus sign and the digits of a numeral the sign is in the buffer and the literal
before it waits.  The numeral turns out to be too long, and is rejected. -/
theorem delivery_within_numeral_is_kept :
    let front := "p cnf 3 2\n1 -".toList.map Char.toUInt8
    let source : Source := ⟨[front, "2147483648 0\n".toList.map Char.toUInt8], false⟩
    let delivery : Delivery Instance :=
      { receiver? := some ⟨3, []⟩
        header? := some ⟨3, 2⟩
        buffer := #['-']
        pending := #[⟨1, by decide, by decide, by decide⟩]
        stage := .minus
        delivered := 0
        log := [] }
    (Delivery.start.read .prepared front = .ok delivery ∧ source.IsSteady) ∧ delivery.Kept ∧
      source.deliver .prepared =
        ⟨.error (.rejected (.invalidLiteral "-2147483648")), []⟩ ∧ source.Agrees := by
  intro front source delivery
  have read : Delivery.start.read .prepared front = .ok delivery := by decide +kernel
  have steady : source.IsSteady := by decide
  have rejected : source.deliver .prepared =
      ⟨.error (.rejected (.invalidLiteral "-2147483648")), []⟩ :=
    Receipt.eq_of_parts (by decide +kernel) (by decide +kernel)
  rcases deliveries_have_no_lapse with ⟨_, safe, agrees⟩
  exact ⟨⟨read, steady⟩, safe.kept front delivery read, rejected, agrees source steady⟩

/-- It does not matter in which pieces a text is delivered.  All pieces together leave a delivery
in the same state, and so the receiver is given the same clauses in the same order, with the same
result and the same log.  A mishap that the first bytes have is the end, whatever follows them.  A
source which breaks before a mishap is unreadable, and one that breaks at all has no mishap which
is only found at the end of a text.  What deliveries come to is what readers find. -/
theorem pieces_do_not_matter :
    (∀ {State Result : Type} (receiver : Receiver State Result), receiver.IgnoresPieces) ∧
      ∀ source : Source, source.IsSteady → source.Agrees :=
  ⟨fun receiver => receiver.ignoresPieces, fun _ => Source.agrees⟩

/-- Pieces may end within a header, and between the sign and the digits of a numeral.  If the
source breaks there, it is unreadable, but not if a literal was rejected before. -/
theorem pieces_end_anywhere :
    let pieces := ["p c", "nf 2 1\n1 -", "2 0"].map fun piece => piece.toList.map Char.toUInt8
    let whole : Source := ⟨pieces, false⟩
    let broken : Source := ⟨pieces.take 2, true⟩
    let front := "p cnf 2 1\n-3 ".toList.map Char.toUInt8
    let late : Source := ⟨[front, "0".toList.map Char.toUInt8], true⟩
    (whole.IsSteady ∧ broken.IsSteady ∧ late.IsSteady) ∧
    whole.deliver .raw = (Source.ofBytes whole.bytes).deliver .raw ∧
    (whole.deliver .raw).result = .ok [[1, -2]] ∧
    (broken.deliver .raw).result = .error (.rejected .unreadable) ∧
    (late.deliver .raw).result = .error (.rejected (.variableOutOfRange (-3) 2)) := by
  intro pieces whole broken front late
  have whole_steady : whole.IsSteady := by decide
  have broken_steady : broken.IsSteady := by decide
  have late_steady : late.IsSteady := by decide
  have ignores := pieces_do_not_matter.1 Receiver.raw
  have together : (whole.deliver .raw).result = .ok [[1, -2]] := by decide +kernel
  -- What is known in front of the digits, and in front of the blank behind the other numeral.
  let behindMinus : Delivery (Array (List Int)) :=
    { receiver? := some #[]
      header? := some ⟨2, 1⟩
      buffer := #['-']
      pending := #[⟨1, by decide, by decide, by decide⟩]
      stage := .minus
      delivered := 0
      log := [] }
  let behindDigit : Delivery (Array (List Int)) :=
    { behindMinus with buffer := #['-', '3'], pending := #[], stage := .numeral }
  have read : Delivery.start.read .raw broken.bytes = .ok behindMinus := by decide +kernel
  have interrupted : Delivery.start.read .raw front =
      .error ⟨.rejected (.variableOutOfRange (-3) 2), behindDigit⟩ := by
    decide +kernel
  refine ⟨⟨whole_steady, broken_steady, late_steady⟩,
    ignores.receipt_eq whole whole_steady rfl, together, ?_, ?_⟩
  · rw [ignores.unreadable broken broken_steady rfl behindMinus read]
  · rw [ignores.interrupted front _ interrupted late late_steady (by decide)]
    rfl

end Dimacs
end UnitPropagation
