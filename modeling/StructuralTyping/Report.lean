import StructuralTyping.Diagnostic.Display
import StructuralTyping.Scenario.Run

/-!
# Reports

A report has a line for every case that failed, with what was wanted, what came
out, and the diagnostics.  Cases that passed are reported on request.
-/

namespace StructuralTyping

/-- How results are reported. -/
structure Reporter where
  color : Bool := false
  verbose : Bool := false

/-- How many cases passed and failed. -/
structure Tally where
  passed : Nat := 0
  failed : Nat := 0
  deriving DecidableEq, Repr, Inhabited

namespace Tally

/-- One more case. -/
def add (t : Tally) (passed : Bool) : Tally :=
  if passed then { t with passed := t.passed + 1 } else { t with failed := t.failed + 1 }

/-- The closing line. -/
def text (t : Tally) : String :=
  groupedCount t.passed ++ " passed, " ++ groupedCount t.failed ++ " failed\n"

end Tally

namespace Reporter

/-- The escape sequence that ends colored text. -/
def resetCode : String := "\x1b[0m"

/-- The escape sequence of a verdict: green for a pass and red for a failure. -/
def verdictCode (passed : Bool) : String := if passed then "\x1b[32m" else "\x1b[31m"

/-- The word for a verdict. -/
def verdictText (passed : Bool) : String := if passed then "PASS" else "FAIL"

/-- The word for a verdict, colored if colors are wanted. -/
def paint (r : Reporter) (passed : Bool) : String :=
  if r.color then verdictCode passed ++ verdictText passed ++ resetCode else verdictText passed

/-- The line that names a case. -/
def heading (r : Reporter) (path : String) (c : CaseResult) : String :=
  r.paint c.passed ++ " " ++ path ++ ":" ++ intText c.case.line ++ " " ++ c.case.name ++ "\n"

/-- What is reported of a case. -/
def caseText (r : Reporter) (path : String) (c : CaseResult) : String :=
  if c.passed then if r.verbose then r.heading path c else ""
  else
    r.heading path c ++ "    want " ++ c.case.expect.text c.decls ++ ", got " ++ c.got ++ "\n"
      ++ Diagnostic.display c.decls c.failure?.toList

/-- What is reported of the cases of a scenario. -/
def text (r : Reporter) (path : String) (cs : List CaseResult) : String :=
  String.join (cs.map (r.caseText path))

end Reporter

/-- The tally after more cases. -/
def Tally.addAll (t : Tally) (cs : List CaseResult) : Tally :=
  cs.foldl (fun t c => t.add c.passed) t

end StructuralTyping
