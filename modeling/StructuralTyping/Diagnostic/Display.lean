import StructuralTyping.Diagnostic.Basic
import StructuralTyping.Text.Grouped

/-!
# Displaying diagnostics

Trees of diagnostics are displayed one after the other, a line for each node and
its causes further in.  The root of a tree also shows the source line with a
marker below it.  A summary closes the display.
-/

namespace StructuralTyping

namespace Diagnostic

/-- The source line of a span with a marker below it.  Nothing when the span has
no file or the line is empty.  Widths count bytes. -/
def sourceLines (span : Span) : String :=
  match span.file with
  | none => ""
  | some file =>
    let line := file.line span.line
    if line.isEmpty then ""
    else
      let column := (span.column - 1).toNat
      let room : Int := (line.utf8ByteSize : Int) - (column : Int)
      let width := if room < (span.length : Int) then room else (span.length : Int)
      let tail := (max width 1 - 1).toNat
      "  " ++ dropEndWhile (fun c => c == '\t' || c == ' ') line ++ "\n"
        ++ "  " ++ repeatText column " " ++ "^" ++ repeatText tail "~" ++ "\n"

/-- The lines of one node without its causes. -/
def nodeLines (D : Decls) (depth : Nat) (d : Diagnostic) : String :=
  let indent := repeatText depth "  "
  match d.kind? with
  | none => indent ++ d.text D ++ "\n"
  | some kind =>
    if d.span.isNone then indent ++ kind ++ ": " ++ d.message D ++ "\n"
    else
      indent ++ kind ++ " at " ++ d.span.text ++ ": " ++ d.message D ++ "\n"
        ++ (if depth == 0 then sourceLines d.span else "")

mutual

/-- The lines of a tree. -/
def treeLines (D : Decls) (depth : Nat) : Diagnostic → String
  | .assignFailed s l r cs =>
    nodeLines D depth (.assignFailed s l r cs) ++ forestLines D (depth + 1) cs
  | .unionFailed s cs => nodeLines D depth (.unionFailed s cs) ++ forestLines D (depth + 1) cs
  | .noted s k m cs => nodeLines D depth (.noted s k m cs) ++ forestLines D (depth + 1) cs
  | .plain t cs => nodeLines D depth (.plain t cs) ++ forestLines D (depth + 1) cs
  | .intersectionFailed s c =>
    nodeLines D depth (.intersectionFailed s c) ++ treeLines D (depth + 1) c
  | d => nodeLines D depth d
termination_by structural d => d

/-- The lines of trees. -/
def forestLines (D : Decls) (depth : Nat) : List Diagnostic → String
  | [] => ""
  | d :: ds => treeLines D depth d ++ forestLines D depth ds
termination_by structural ds => ds

end

/-- The closing line of a display. -/
def summaryLine (ds : List Diagnostic) : String :=
  groupedCount (countList ds) ++ " diagnostic(s) in " ++ groupedCount ds.length ++ " tree(s)\n"

/-- The display of trees.  Nothing is displayed for no trees. -/
def display (D : Decls) (ds : List Diagnostic) : String :=
  if ds.isEmpty then ""
  else String.join (ds.map fun d => treeLines D 0 d ++ "\n") ++ summaryLine ds

end Diagnostic

end StructuralTyping
