import StructuralTyping.Number.Shortest
import StructuralTyping.Text.Pieces

/-!
# Source text and positions

A source file is a named text.  A span locates a region of it and carries the
file, if there is one.  Spans never influence a type.
-/

namespace StructuralTyping

/-- A named piece of source text. -/
structure SourceFile where
  /-- The short name. -/
  name : String
  /-- The location, empty for inline text. -/
  path : String
  content : String
  deriving DecidableEq, Repr, Inhabited

namespace SourceFile

/-- Inline text that has no location. -/
def inline (content : String) : SourceFile := ⟨"<eval>", "", content⟩

/-- The last element of a path.  Trailing slashes are dropped, an empty path is
`.` and a path of slashes alone is `/`. -/
def lastElement (path : String) : String :=
  if path.isEmpty then "."
  else
    let trimmed := (path.toList.reverse.dropWhile (· == '/'))
    if trimmed.isEmpty then "/" else String.ofList (trimmed.takeWhile (· != '/')).reverse

/-- The file at a path, named by the last element of the path. -/
def atPath (path content : String) : SourceFile := ⟨lastElement path, path, content⟩

/-- The line with the given number, counted from one and without its end mark.
Empty when there is no such line. -/
def line (f : SourceFile) (n : Int) : String :=
  if n < 1 then "" else dropEnding "\r" ((pieces '\n' f.content).getD (n - 1).toNat "")

/-- The path when there is one, and otherwise the name. -/
def displayPath (f : SourceFile) : String := if f.path.isEmpty then f.name else f.path

example : lastElement "a//b//" = "b" := by decide +kernel
example : lastElement "/" = "/" := by decide +kernel
example : lastElement "" = "." := by decide +kernel

end SourceFile

/-- A region of source text. -/
structure Span where
  file : Option SourceFile := none
  /-- The line of the start, counted from one. -/
  line : Int := 0
  /-- The column of the start, counted from one. -/
  column : Int := 0
  /-- The offset of the first byte. -/
  start : Int := 0
  /-- The offset after the last byte. -/
  stop : Int := 0
  deriving DecidableEq, Repr, Inhabited

namespace Span

/-- The span of what has no position. -/
def none : Span := {}

/-- A span without a position. -/
def isNone (s : Span) : Bool := s.line == 0 && s.start == 0 && s.stop == 0

/-- The number of bytes covered. -/
def length (s : Span) : Nat := (s.stop - s.start).toNat

/-- Where the span starts. -/
def text (s : Span) : String :=
  if s.isNone then "<unknown>"
  else
    let place := intText s.line ++ ":" ++ intText s.column
    match s.file with
    | some f => f.displayPath ++ ":" ++ place
    | .none => place

end Span

end StructuralTyping
