import UnitPropagation.Main
import UnitPropagation.Proofs.CommandLine.Blame
import UnitPropagation.Proofs.CommandLine.Marks
import UnitPropagation.Proofs.CommandLine.Run
import UnitPropagation.Proofs.Dimacs.Acceptance
import UnitPropagation.Proofs.Dimacs.Preparation
import UnitPropagation.Proofs.Dimacs.Range
import UnitPropagation.Proofs.Dimacs.Receipts
import UnitPropagation.Proofs.Dimacs.Tokens
import UnitPropagation.Proofs.Propagation.Aftermath
import UnitPropagation.Proofs.Propagation.Audit
import UnitPropagation.Proofs.Propagation.Confluence
import UnitPropagation.Proofs.Propagation.Contract
import UnitPropagation.Proofs.Propagation.Derivation
import UnitPropagation.Proofs.Propagation.FixedPoint
import UnitPropagation.Proofs.Propagation.Gain
import UnitPropagation.Proofs.Propagation.Limit
import UnitPropagation.Proofs.Propagation.Line
import UnitPropagation.Proofs.Propagation.Midway
import UnitPropagation.Proofs.Propagation.Models
import UnitPropagation.Proofs.Propagation.Reasons
import UnitPropagation.Proofs.Propagation.Tally
import UnitPropagation.Proofs.Propagation.Turns
import UnitPropagation.Proofs.Propagation.Work
