import StructuralTyping.Ty.Declare
import StructuralTyping.Ty.Members

/-!
# Scopes

Inference reads names from a scope: value bindings, resolved imports and
declarations of types.  An environment is a stack of frames, the innermost
first, and a name means what the innermost frame that binds it says.
-/

namespace StructuralTyping

/-- The declaration behind an export without a type. -/
inductive ExportForm where
  | none
  | interface (declaration : Ty)
  | alias (name : String) (aliased : Ty)
  | enum (declaration : Ty)
  | namespaceDecl (name : String)

/-- A named declaration at the level of types.  The type is used when it is
there, and otherwise the declaration is expanded by one step. -/
structure Export where
  type : Ty := .missing
  form : ExportForm := .none

namespace ExportForm

/-- The form with its types declared. -/
def declare : ExportForm → Declaring ExportForm
  | .none => pure .none
  | .interface t => do return .interface (← t.declare)
  | .alias name t => do return .alias name (← t.declare)
  | .enum t => do return .enum (← t.declare)
  | .namespaceDecl name => pure (.namespaceDecl name)

end ExportForm

namespace Export

/-- The export with its types declared. -/
def declare (x : Export) : Declaring Export := do return ⟨← x.type.declare, ← x.form.declare⟩

/-- Declares the types of exports, one after the other. -/
def declareList : List (String × Export) → Declaring (List (String × Export))
  | [] => pure []
  | (name, x) :: rest => do return (name, ← x.declare) :: (← declareList rest)

end Export

/-- What inference can ask for. -/
structure Scope where
  /-- The declared type of a value. -/
  var? : String → Option Ty
  /-- What an import, or a module passed to `require`, resolved to. -/
  imported? : String → Option Export
  /-- A declaration at the level of types. -/
  type? : String → Option Export

/-- The bindings of one frame. -/
structure Frame where
  vars : List (String × Ty) := []
  types : List (String × Export) := []
  imports : List (String × Export) := []

namespace Frame

/-- The frame with its types declared. -/
def declare (f : Frame) : Declaring Frame := do
  return ⟨← declareBindings f.vars, ← Export.declareList f.types, ← Export.declareList f.imports⟩

/-- Declares the types of frames, one after the other. -/
def declareList : List Frame → Declaring (List Frame)
  | [] => pure []
  | f :: fs => do return (← f.declare) :: (← declareList fs)

end Frame

/-- A stack of frames.  There is always one. -/
structure Environment where
  inner : Frame := {}
  outer : List Frame := []

namespace Environment

/-- All frames, the innermost first. -/
def frames (e : Environment) : List Frame := e.inner :: e.outer

/-- A new frame inside the others. -/
def enter (e : Environment) : Environment := ⟨{}, e.frames⟩

/-- The environment around the innermost frame, if there is one. -/
def leave? (e : Environment) : Option Environment :=
  match e.outer with
  | [] => none
  | f :: fs => some ⟨f, fs⟩

/-- Binds a value in the innermost frame.  None when the name is bound there. -/
def define? (e : Environment) (name : String) (t : Ty) : Option Environment :=
  if (e.inner.vars.lookup name).isSome then none
  else some { e with inner := { e.inner with vars := e.inner.vars ++ [(name, t)] } }

/-- Declares a type in the innermost frame.  None when the name is declared there. -/
def defineType? (e : Environment) (name : String) (x : Export) : Option Environment :=
  if (e.inner.types.lookup name).isSome then none
  else some { e with inner := { e.inner with types := e.inner.types ++ [(name, x)] } }

/-- Declares an alias in the innermost frame. -/
def defineAlias? (e : Environment) (name : String) (t : Ty) : Option Environment :=
  e.defineType? name { form := .alias name t }

/-- Records what an import resolved to.  The last record of a name counts. -/
def defineImport (e : Environment) (name : String) (x : Export) : Environment :=
  { e with inner := { e.inner with imports := (name, x) :: e.inner.imports } }

/-- Binds a value unless its name is bound in the innermost frame. -/
def define (e : Environment) (name : String) (t : Ty) : Environment := (e.define? name t).getD e

/-- Declares a type unless its name is declared in the innermost frame. -/
def defineType (e : Environment) (name : String) (x : Export) : Environment :=
  (e.defineType? name x).getD e

/-- The environment with its types declared, so that a name means the same type
every time it is used. -/
def declare (e : Environment) : Declaring Environment := do
  return ⟨← e.inner.declare, ← Frame.declareList e.outer⟩

/-- The names of an environment, as inference reads them. -/
def scope (e : Environment) : Scope where
  var? name := e.frames.findSome? (·.vars.lookup name)
  imported? name := e.frames.findSome? (·.imports.lookup name)
  type? name := e.frames.findSome? (·.types.lookup name)

end Environment

end StructuralTyping
