import UnitPropagation.Proofs.Dimacs.Receivers
import UnitPropagation.Proofs.Dimacs.Rejections

namespace UnitPropagation
namespace Dimacs

/-!
# Deliveries and readers

A delivery does step by step what a reader does.  Where the reader keeps clauses, the receiver
has taken them; where the reader keeps a text, it is in the buffer; and where the reader rejects,
so does the delivery.

The two run in parallel because a delivery keeps what its steps rely on.  There is a receiver
exactly if there is a header.  The buffer has a minus sign behind the minus sign of a numeral,
and a numeral within one.  A clause has only codes of literals over the declared variables.
Hence a numeral is never zero, and a receiver that takes all clauses of literals can take
whatever is delivered to it.
-/

/-- Whether the text is what the buffer should have at a stage. -/
def Stage.Collects (text : List Char) : Stage → Prop
  | minus => text = ['-']
  | numeral => ∃ code, WritesCode text code
  | lineStart | header | comment | inClause => True

/-- The mode of a reader at a stage, with the text of the buffer. -/
def Stage.mode (buffer : Array Char) : Stage → Mode
  | lineStart => .lineStart
  | header => .header buffer
  | comment => .comment
  | minus => .minus
  | numeral => .numeral buffer
  | inClause => .inClause

theorem Reader.read_cons (reader : Reader) (byte : UInt8) (bytes : List UInt8) :
    reader.read (byte :: bytes) = (reader.step (Char.ofUInt8 byte)).read bytes :=
  rfl

namespace Delivery

variable {State Result : Type} {receiver : Receiver State Result} {delivery : Delivery State}
  {reader : Reader}

/-- Whether a delivery has kept what its steps rely on. -/
structure Kept (delivery : Delivery State) : Prop where
  receiver_iff : delivery.receiver?.isSome = true ↔ delivery.header?.isSome = true
  collects : delivery.stage.Collects delivery.buffer.toList
  pending_declared : ∀ code ∈ delivery.pending.toList, ∃ header, delivery.header? = some header ∧
    1 ≤ code.value.natAbs ∧ code.value.natAbs ≤ min header.variableCount 2147483647

/-- Whether a delivery has come as far as a reader. -/
structure Mirrors (receiver : Receiver State Result) (delivery : Delivery State)
    (reader : Reader) : Prop extends Kept delivery where
  header_eq : reader.header? = delivery.header?
  pending_eq : delivery.pending.toList.map Code.value = reader.pending.toList.map Literal.code
  mode_eq : reader.mode = delivery.stage.mode delivery.buffer
  delivered_eq : delivery.delivered = reader.clauses.size
  undeclared : delivery.header? = none → reader.clauses = #[] ∧ delivery.log = []
  holds : ∀ header, delivery.header? = some header → ∃ state, delivery.receiver? = some state ∧
    receiver.Holds header.variableCount reader.clauses.toList state delivery.log

/-- How a step of a delivery and a step of a reader go together: both go on, or both reject. -/
inductive Follows (receiver : Receiver State Result) (reader : Reader) :
    Except Mishap (Delivery State) → Reader → Prop where
  | goes {next : Delivery State} {after : Reader} :
    next.Mirrors receiver after → Follows receiver reader (.ok next) after
  | rejects (rejection : Rejection) :
    Follows receiver reader (.error (.rejected rejection)) (reader.reject rejection)

theorem Follows.ite {condition : Prop} [Decidable condition]
    {first second : Except Mishap (Delivery State)} {after other : Reader}
    (holds : condition → Follows receiver reader first after)
    (fails : ¬condition → Follows receiver reader second other) :
    Follows receiver reader (if condition then first else second)
      (if condition then after else other) := by
  by_cases isTrue : condition
  · rw [if_pos isTrue, if_pos isTrue]
    exact holds isTrue
  · rw [if_neg isTrue, if_neg isTrue]
    exact fails isTrue

theorem Kept.receiver?_eq_none (kept : delivery.Kept) (undeclared : delivery.header? = none) :
    delivery.receiver? = none := by
  have receiver_iff := kept.receiver_iff
  rw [undeclared] at receiver_iff
  simpa using receiver_iff

theorem kept_start : (start : Delivery State).Kept where
  receiver_iff := Iff.rfl
  collects := trivial
  pending_declared := by simp [start]

theorem mirrors_start : start.Mirrors receiver .start where
  toKept := kept_start
  header_eq := rfl
  pending_eq := rfl
  mode_eq := rfl
  delivered_eq := rfl
  undeclared := fun _ => ⟨rfl, rfl⟩
  holds := nofun

theorem read_cons (byte : UInt8) (bytes : List UInt8) :
    delivery.read receiver (byte :: bytes) =
      delivery.readByte receiver byte >>= fun next => next.read receiver bytes :=
  rfl

namespace Mirrors

/-! ## Every step keeps the delivery in line with the reader -/

theorem goTo (mirrors : delivery.Mirrors receiver reader) {stage : Stage} {buffer : Array Char}
    (collects : stage.Collects buffer.toList) :
    (delivery.goTo stage buffer).Mirrors receiver (reader.goTo (stage.mode buffer)) :=
  { mirrors with collects, mode_eq := rfl }

theorem no_pending (mirrors : delivery.Mirrors receiver reader) (none : delivery.header? = none) :
    ∀ code, code ∉ delivery.pending.toList := by
  intro code member
  rcases mirrors.pending_declared code member with ⟨header, declared, _⟩
  cases none.symm.trans declared

theorem endHeader (mirrors : delivery.Mirrors receiver reader) :
    Follows receiver reader (delivery.endHeader receiver) (reader.endHeader delivery.buffer) := by
  rw [Delivery.endHeader, Reader.endHeader, mirrors.header_eq]
  cases undeclared : delivery.header? with
  | some header => exact .rejects .duplicateHeader
  | none =>
      dsimp only
      cases Header.ofText? (Text.trim isBlank delivery.buffer.toList) with
      | none => exact .rejects _
      | some header =>
          rcases mirrors.undeclared undeclared with ⟨noClauses, noLog⟩
          refine .goes ⟨⟨Iff.rfl, trivial, ?_⟩, rfl, mirrors.pending_eq, rfl, mirrors.delivered_eq,
            by simp, ?_⟩
          · exact fun code member => absurd member (mirrors.no_pending undeclared code)
          · intro other same
            cases same
            refine ⟨receiver.empty header.variableCount, rfl, ?_⟩
            rw [noClauses, noLog]
            exact .empty

/-- A numeral that is a number in range is the code of a literal on both sides. -/
theorem endNumeral (mirrors : delivery.Mirrors receiver reader) {code : Int}
    (writes : WritesCode delivery.buffer.toList code) {next : Stage}
    (collects : next.Collects delivery.buffer.toList) :
    Follows receiver reader (delivery.endNumeral next)
      (reader.endNumeral delivery.buffer (next.mode delivery.buffer)) := by
  rw [Delivery.endNumeral, Reader.endNumeral, mirrors.header_eq]
  cases declared : delivery.header? with
  | none => exact .rejects .missingHeader
  | some header =>
      dsimp only
      cases found : Numeral.int32? delivery.buffer.toList with
      | none => exact .rejects _
      | some number =>
          rcases writes.eq_of_int32? found with ⟨rfl, lower, upper⟩
          refine .ite (fun _ => .rejects _) fun notLowest => ?_
          refine .ite (fun _ => .rejects _) fun small => ?_
          have nonzero := writes.ne_zero
          have bound : number.natAbs < 2147483648 := by omega
          let literal : Literal := ⟨number, nonzero, bound⟩
          have isCode : Code.ofInt? number = some ⟨number, nonzero, lower, upper⟩ :=
            dif_pos ⟨nonzero, lower, upper⟩
          have isLiteral : Literal.ofCode number = .ok literal := Literal.ofCode_code literal
          rw [isCode, isLiteral]
          refine .goes ⟨⟨declared ▸ mirrors.receiver_iff, collects, ?_⟩, rfl, ?_, rfl,
            mirrors.delivered_eq, by simp,
            fun other same => mirrors.holds other (declared.trans same)⟩
          · intro other member
            rw [Array.toList_push, List.mem_append, List.mem_singleton] at member
            rcases member with before | rfl
            · exact declared ▸ mirrors.pending_declared other before
            · refine ⟨header, rfl, ?_⟩
              dsimp only
              omega
          · simp [mirrors.pending_eq, literal]

theorem proper_pending (mirrors : delivery.Mirrors receiver reader) :
    ∀ code ∈ delivery.pending.toList, code.IsProper := by
  intro code member
  rcases mirrors.pending_declared code member with ⟨header, _, _, bound⟩
  unfold Code.IsProper
  omega

theorem endClause (mirrors : delivery.Mirrors receiver reader) (accepts : receiver.Accepts) :
    Follows receiver reader (delivery.endClause receiver) reader.endClause := by
  rw [Delivery.endClause, Reader.endClause, mirrors.header_eq]
  cases declared : delivery.header? with
  | none =>
      rw [mirrors.receiver?_eq_none declared]
      exact .rejects .missingHeader
  | some header =>
      rcases mirrors.holds header declared with ⟨state, isState, holds⟩
      rcases accepts state delivery.pending.toList mirrors.proper_pending with
        ⟨next, records, taken⟩
      rw [isState]
      dsimp only
      rw [taken]
      refine .goes ⟨⟨iff_of_true rfl rfl, trivial, by simp⟩, rfl, rfl, rfl, ?_, by simp, ?_⟩
      · simp [mirrors.delivered_eq]
      · intro other same
        cases same
        refine ⟨next, rfl, ?_⟩
        rw [Array.toList_push]
        exact holds.take mirrors.pending_eq taken

theorem beginItem (mirrors : delivery.Mirrors receiver reader) (accepts : receiver.Accepts)
    (c : Char) : Follows receiver reader (delivery.beginItem receiver c) (reader.beginItem c) := by
  refine .ite (fun _ => mirrors.endClause accepts) fun _ => ?_
  refine .ite (fun leading => .goes (mirrors.goTo ?_)) fun _ => ?_
  · exact ⟨_, c, [], leading, by simp, Or.inl ⟨rfl, rfl⟩⟩
  · refine .ite (fun isMinus => .goes (mirrors.goTo ?_)) fun _ => .rejects _
    exact congrArg (fun c => [c]) isMinus

/-- With every character, a delivery and a reader both go on, or both reject. -/
theorem step (mirrors : delivery.Mirrors receiver reader) (accepts : receiver.Accepts) (c : Char) :
    Follows receiver reader (delivery.step receiver c) (reader.step c) := by
  have collects := mirrors.collects
  rw [Delivery.step, Reader.step, mirrors.mode_eq]
  cases isStage : delivery.stage with
  | lineStart =>
      refine .ite (fun _ => .goes mirrors) fun _ => ?_
      refine .ite (fun isMark => .goes (mirrors.goTo trivial)) fun _ => ?_
      exact .ite (fun _ => .goes (mirrors.goTo trivial)) fun _ => mirrors.beginItem accepts c
  | header => exact .ite (fun _ => mirrors.endHeader) fun _ => .goes (mirrors.goTo trivial)
  | comment => exact .ite (fun _ => .goes (mirrors.goTo trivial)) fun _ => .goes mirrors
  | minus =>
      rw [isStage] at collects
      refine .ite (fun leading => ?_) fun _ => .rejects _
      have buffered : delivery.buffer.push c = #['-', c] := by
        apply Array.toList_inj.mp
        rw [Array.toList_push, show delivery.buffer.toList = ['-'] from collects]
        rfl
      rw [buffered]
      exact .goes (mirrors.goTo ⟨_, c, [], leading, by simp, Or.inr ⟨rfl, rfl⟩⟩)
  | numeral =>
      rw [isStage] at collects
      rcases collects with ⟨code, writes⟩
      refine .ite (fun _ => mirrors.endNumeral writes trivial) fun _ => ?_
      refine .ite (fun _ => mirrors.endNumeral writes trivial) fun _ => ?_
      refine .ite (fun digit => .goes (mirrors.goTo ?_)) fun _ => .rejects _
      rw [Array.toList_push]
      exact writes.concat digit
  | inClause =>
      refine .ite (fun _ => .goes (mirrors.goTo trivial)) fun _ => ?_
      exact .ite (fun _ => .goes mirrors) fun _ => mirrors.beginItem accepts c

/-- A delivery and a reader both read a text, or both reject it at the same place. -/
theorem read (mirrors : delivery.Mirrors receiver reader) (accepts : receiver.Accepts)
    (bytes : List UInt8) :
    (∃ next, delivery.read receiver bytes = .ok next ∧ next.Mirrors receiver (reader.read bytes)) ∨
    ∃ rejection before last, delivery.read receiver bytes = .error ⟨.rejected rejection, before⟩ ∧
      before.Mirrors receiver last ∧ reader.read bytes = last.reject rejection := by
  induction bytes generalizing delivery reader with
  | nil => exact Or.inl ⟨delivery, rfl, mirrors⟩
  | cons byte bytes ih =>
      have follows := mirrors.step accepts (Char.ofUInt8 byte)
      rw [Delivery.read_cons, Reader.read_cons]
      generalize reader.step (Char.ofUInt8 byte) = after at follows
      rw [readByte]
      generalize delivery.step receiver (Char.ofUInt8 byte) = stepped at follows
      cases follows with
      | goes next => exact ih next
      | rejects rejection =>
          exact Or.inr ⟨rejection, delivery, reader, rfl, mirrors,
            (Reader.failed_reject reader rejection).read bytes⟩

/-- At the end of a text, both have what was made of it, or both reject it. -/
theorem result (mirrors : delivery.Mirrors receiver reader) :
    (∃ content state, reader.content = .ok content ∧
      receiver.Holds content.variableCount content.clauses state delivery.log ∧
        delivery.result receiver = .ok (receiver.result state)) ∨
    ∃ rejection, reader.content = .error (.rejected rejection) ∧
      delivery.result receiver = .error (.rejected rejection) := by
  have pending : delivery.pending.isEmpty = reader.pending.isEmpty := by
    have sizes := congrArg List.length mirrors.pending_eq
    simp only [List.length_map, Array.length_toList] at sizes
    rw [Array.isEmpty, Array.isEmpty, sizes]
  rw [Reader.content, Delivery.result, mirrors.header_eq]
  cases declared : delivery.header? with
  | none =>
      rw [mirrors.receiver?_eq_none declared]
      exact Or.inr ⟨.missingHeader, rfl, rfl⟩
  | some header =>
      rcases mirrors.holds header declared with ⟨state, isState, holds⟩
      rw [isState, pending, mirrors.delivered_eq]
      dsimp only
      split
      · exact Or.inr ⟨_, rfl, rfl⟩
      · split
        · exact Or.inr ⟨_, rfl, rfl⟩
        · exact Or.inl ⟨_, state, rfl, holds, rfl⟩

theorem log_of_endHeader {next : Delivery State} (ended : delivery.endHeader receiver = .ok next) :
    next.log = delivery.log := by
  unfold Delivery.endHeader at ended
  split at ended
  · cases ended
  · dsimp only at ended
    split at ended <;> cases ended
    rfl

theorem finish (mirrors : delivery.Mirrors receiver reader) :
    (∃ content state, reader.finish = .ok content ∧
      receiver.Holds content.variableCount content.clauses state delivery.log ∧
        delivery.finish receiver = .ok (receiver.result state)) ∨
    ∃ rejection, reader.finish = .error (.rejected rejection) ∧
      delivery.finish receiver = .error (.rejected rejection) := by
  rw [Reader.finish, mirrors.mode_eq, Delivery.finish, endText]
  cases delivery.stage with
  | lineStart | comment | inClause => exact mirrors.result
  | minus | numeral => exact Or.inr ⟨.unterminatedClause, rfl, rfl⟩
  | header =>
      have follows := mirrors.endHeader
      dsimp only [Stage.mode]
      cases ended : delivery.endHeader receiver with
      | ok next =>
          rw [ended] at follows
          generalize reader.endHeader delivery.buffer = after at follows
          cases follows with
          | goes atEnd =>
              rw [← log_of_endHeader ended, atEnd.mode_eq]
              cases next.stage <;> exact atEnd.result
      | error mishap =>
          rw [ended] at follows
          generalize reader.endHeader delivery.buffer = after at follows
          cases follows with
          | rejects rejection => exact Or.inr ⟨rejection, rfl, rfl⟩

end Mirrors
end Delivery

end Dimacs
end UnitPropagation
