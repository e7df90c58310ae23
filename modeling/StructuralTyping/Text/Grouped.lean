/-!
# Grouped counts

A count in a summary has a comma between groups of three digits.
-/

namespace StructuralTyping

/-- Groups digits by threes from the right.  The argument is in reverse order. -/
def groupReversed : List Char → List Char
  | a :: b :: c :: d :: rest => a :: b :: c :: ',' :: groupReversed (d :: rest)
  | short => short

/-- A count with a comma between groups of three digits. -/
def groupedCount (n : Nat) : String :=
  String.ofList (groupReversed (Nat.toDigits 10 n).reverse).reverse

example : groupedCount 1234567 = "1,234,567" := by decide +kernel
example : groupedCount 999 = "999" := by decide +kernel

end StructuralTyping
