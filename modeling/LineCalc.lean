import LineCalc.Main
import LineCalc.Rule.Recursion
import LineCalc.Proofs.Console.Layout
import LineCalc.Proofs.Diagnosis.Leftover
import LineCalc.Proofs.Diagnosis.Meaning
import LineCalc.Proofs.Diagnosis.Place
import LineCalc.Proofs.Grammar.Substitution
import LineCalc.Proofs.Machine.Call
import LineCalc.Proofs.Parentheses.Count
import LineCalc.Proofs.Parentheses.Counter
import LineCalc.Proofs.Parentheses.Fault
import LineCalc.Proofs.Session.Commutation
import LineCalc.Proofs.Session.Printed
import LineCalc.Proofs.Session.ReadBack
import LineCalc.Proofs.Session.Shadowing
import LineCalc.Proofs.Token.Layout
import LineCalc.Proofs.Tracking.Binding
import LineCalc.Proofs.Tracking.Locality
import LineCalc.Proofs.Tracking.Values
import LineCalc.Proofs.Transport.Equivariance
import LineCalc.Proofs.Transport.Lookahead
import LineCalc.Proofs.Progress.Position
import LineCalc.Proofs.Progress.Cursor
import LineCalc.Proofs.Progress.Factors
import LineCalc.Proofs.Progress.Level
import LineCalc.Proofs.Number.Texts
import LineCalc.Proofs.Text.Encoding
import LineCalc.Proofs.Table.Calls
import LineCalc.Proofs.Table.Canonical
import LineCalc.Proofs.Text.OneLine
import LineCalc.Proofs.Console.Framing
