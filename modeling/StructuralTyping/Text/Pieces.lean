/-!
# Pieces of text

Cutting text at separators, dropping its ends, and putting pieces together.
-/

namespace StructuralTyping

/-- The text repeated. -/
def repeatText (n : Nat) (s : String) : String := String.join (List.replicate n s)

/-- Texts with a separator between them. -/
def joinText (sep : String) (parts : List String) : String := sep.intercalate parts

/-- Drops what satisfies a test from the end. -/
def dropEndWhile (p : Char → Bool) (s : String) : String :=
  String.ofList (s.toList.reverse.dropWhile p).reverse

/-- Drops what satisfies a test from both ends. -/
def trimBoth (p : Char → Bool) (s : String) : String :=
  String.ofList ((s.toList.dropWhile p).reverse.dropWhile p).reverse

/-- The list without a given beginning, if it has it. -/
def dropBeginning? [BEq α] : List α → List α → Option (List α)
  | [], ys => some ys
  | _ :: _, [] => none
  | x :: xs, y :: ys => if x == y then dropBeginning? xs ys else none

/-- The rest after a given beginning, if it is there. -/
def afterBeginning? (beginning s : String) : Option String :=
  (dropBeginning? beginning.toList s.toList).map String.ofList

/-- The text before a given ending, if it is there. -/
def beforeEnding? (ending s : String) : Option String :=
  (dropBeginning? ending.toList.reverse s.toList.reverse).map fun r => String.ofList r.reverse

/-- Drops a given ending, if it is there. -/
def dropEnding (ending s : String) : String := (beforeEnding? ending s).getD s

/-- Cuts a list at every separator. -/
def splitAtChar (sep : Char) : List Char → List (List Char)
  | [] => [[]]
  | c :: cs =>
    if c == sep then [] :: splitAtChar sep cs
    else
      match splitAtChar sep cs with
      | first :: rest => (c :: first) :: rest
      | [] => [[c]]

/-- The pieces of a text between separators. -/
def pieces (sep : Char) (s : String) : List String := (splitAtChar sep s.toList).map String.ofList

/-- The parts before and after the first place where a separator stands. -/
def cutList? [BEq α] (sep : List α) : List α → Option (List α × List α)
  | [] => if sep.isEmpty then some ([], []) else none
  | x :: xs =>
    match dropBeginning? sep (x :: xs) with
    | some rest => some ([], rest)
    | none => (cutList? sep xs).map fun (before, after) => (x :: before, after)

/-- The text before and after the first place where a separator stands. -/
def cutText? (sep s : String) : Option (String × String) :=
  (cutList? sep.toList s.toList).map fun (before, after) =>
    (String.ofList before, String.ofList after)

/-- The text without a byte order mark at its start. -/
def dropByteOrderMark : List Char → List Char
  | c :: cs => if c == '\ufeff' then cs else c :: cs
  | [] => []

/-- Every list begins with itself, whatever follows. -/
theorem dropBeginning?_append [BEq α] [ReflBEq α] (xs ys : List α) :
    dropBeginning? xs (xs ++ ys) = some ys := by
  induction xs with
  | nil => rfl
  | cons x xs ih => simp [dropBeginning?, ih]

/-- What follows a beginning is the rest of the list. -/
theorem eq_append_of_dropBeginning? [BEq α] [LawfulBEq α] {xs ys rest : List α}
    (h : dropBeginning? xs ys = some rest) : ys = xs ++ rest := by
  induction xs generalizing ys with
  | nil => simpa [dropBeginning?] using h
  | cons x xs ih =>
    cases ys with
    | nil => simp [dropBeginning?] at h
    | cons y ys =>
      by_cases hxy : x == y
      · have hr := ih (by simpa [dropBeginning?, hxy] using h)
        rw [eq_of_beq hxy, hr, List.cons_append]
      · simp [dropBeginning?, hxy] at h

example : pieces ',' "a,,b" = ["a", "", "b"] := by decide +kernel
example : cutText? ":" "a: b:c" = some ("a", " b:c") := by decide +kernel
example : beforeEnding? "?" "a?" = some "a" := by decide +kernel

end StructuralTyping
