import StructuralTyping.Text.Space
import StructuralTyping.TypeSource.Parse
import StructuralTyping.Yaml.Node

/-!
# Fields of mappings

The entries of a mapping by key, and what may be wrong with a document that
should describe a type.  Keys are compared without the white space around them,
and no key may occur twice.
-/

namespace StructuralTyping.Yaml

/-! ## Problems -/

/-- A part of a document that is named when something in it is wrong. -/
inductive Part where
  | enum
  | parameter
  | typeParameter
  | member
  | interface
  | classType
  | binding
  deriving DecidableEq, Repr, Inhabited

/-- A part with its name. -/
def Part.text (name : String) : Part → String
  | .enum => "enum " ++ name
  | .parameter => "parameter " ++ name
  | .typeParameter => "type parameter " ++ name
  | .member => "member " ++ name
  | .interface => "interface " ++ name
  | .classType => "class " ++ name
  | .binding => name

/-- Why a node describes no type. -/
inductive Problem where
  | missing
  | endless
  | emptyDocument
  | selfAlias (line : Int) (name : String)
  | unexpectedNode (line : Int)
  | conversion
  | source (text : String) (problem : TypeSource.Problem)
  | encoding (text : StrayBytes)
  | atLine (line : Int) (cause : Problem)
  | notMapping (line : Int) (tag : String)
  | notSequence (line : Int) (tag : String)
  | duplicateKey (line : Int) (key : String)
  | twoShapes (line : Int) (first second : String)
  | noShape (line : Int)
  | badLiteral (line : Int)
  | badVariant (line : Int) (text : String)
  | badIndexed (line : Int)
  | listWanted (line : Int) (key : String)
  | badParameter (line : Int)
  | namelessParameter (line : Int)
  | badTypeParameter (line : Int)
  | namelessTypeParameter (line : Int)
  | within (part : Part) (name : String) (cause : Problem)
  deriving DecidableEq, Repr, Inhabited

/-- The keys that say what shape a type has.  At most one of them may occur. -/
def shapeKeys : List String :=
  ["array", "tuple", "union", "intersection", "literal", "fn", "new", "object",
    "interface", "class", "enum", "variant", "param", "indexed", "other"]

/-- A message with the line it is about. -/
def lineText (line : Int) (message : String) : String := "line " ++ intText line ++ ": " ++ message

/-- The wording of a problem. -/
def Problem.text : Problem → String
  | .missing => "missing type"
  | .endless => "endless type"
  | .emptyDocument => "empty document"
  | .selfAlias l n => lineText l ("alias *" ++ n ++ " refers to itself")
  | .unexpectedNode l => lineText l "unexpected YAML node"
  | .conversion => "yaml"
  | .source s p => p.text s
  | .encoding b => "type " ++ quote (.stray b) ++ ": invalid UTF-8 encoding"
  | .atLine l p => lineText l p.text
  | .notMapping l t => lineText l ("expected a mapping but found " ++ t)
  | .notSequence l t => lineText l ("expected a sequence but found " ++ t)
  | .duplicateKey l k => lineText l ("duplicate key " ++ quote k)
  | .twoShapes l a b => lineText l ("type has both " ++ quote a ++ " and " ++ quote b)
  | .noShape l =>
    lineText l ("mapping is not a type (expected one of " ++ joinText ", " shapeKeys ++ ")")
  | .badLiteral l => lineText l "literal must be a boolean, number or string"
  | .badVariant l s => lineText l ("variant " ++ quote s ++ " must be Enum.Member")
  | .badIndexed l => lineText l "indexed takes [object, index]"
  | .listWanted l k => lineText l (k ++ " must be a sequence")
  | .badParameter l => lineText l "parameter must be a string or mapping"
  | .namelessParameter l => lineText l "parameter without a name"
  | .badTypeParameter l => lineText l "type parameter must be a string or mapping"
  | .namelessTypeParameter l => lineText l "type parameter without a name"
  | .within part name p => part.text name ++ ": " ++ p.text

/-- Success, or why not. -/
abbrev Outcome := Except Problem

/-- Names the part that a problem is in. -/
def inPart (part : Part) (name : String) : Outcome α → Outcome α
  | .ok a => .ok a
  | .error p => .error (.within part name p)

/-! ## Tags -/

namespace Anchors

/-- The tag of a node, looked up in at most so many steps.  An alias without a tag of its
own has the tag of its target.  Nothing stops aliases that refer to one another, and
looking up the tag of one of them does not end. -/
def tagWithin (A : Anchors) : Nat → Node → Outcome (Option Tag)
  | 0, _ => .error .endless
  | fuel + 1, n =>
    match n.ownTag?, A.target? n with
    | some t, _ => .ok (some t)
    | none, some m => A.tagWithin fuel m
    | none, none => .ok none

/-- The tag of a node.  A chain of aliases that ends passes each anchor once. -/
def tag (A : Anchors) (n : Node) : Outcome (Option Tag) := A.tagWithin (A.length + 1) n

/-- The short form of the tag of a node. -/
def tagText (A : Anchors) (n : Node) : Outcome String :=
  (A.tag n).map fun
    | some t => t.shortText
    | none => ""

end Anchors

/-! ## Fields -/

/-- The entries of a mapping in order, each key once. -/
structure Fields where
  entries : List (String × Node) := []

namespace Fields

/-- The value of a key. -/
def get? (f : Fields) (key : String) : Option Node := f.entries.lookup key

/-- The key occurs. -/
def has (f : Fields) (key : String) : Bool := (f.get? key).isSome

/-- The keys in order. -/
def keys (f : Fields) : List String := f.entries.map (·.1)

/-- Entries by key.  A key that occurred before is refused. -/
def collect (seen : List String) : List (Node × Node) → Outcome (List (String × Node))
  | [] => .ok []
  | (k, v) :: es =>
    let key := trimSpace k.value
    if seen.contains key then .error (.duplicateKey k.line key)
    else
      match collect (key :: seen) es with
      | .ok rest => .ok ((key, v) :: rest)
      | .error p => .error p

end Fields

namespace Anchors

/-- The fields of a mapping. -/
def fields (A : Anchors) : Node → Outcome Fields
  | .mapping _ es =>
    match Fields.collect [] es with
    | .ok entries => .ok ⟨entries⟩
    | .error p => .error p
  | n => do .error (.notMapping n.line (← A.tagText n))

/-- The items of a sequence. -/
def items (A : Anchors) : Node → Outcome (List Node)
  | .sequence _ ns => .ok ns
  | n => do .error (.notSequence n.line (← A.tagText n))

/-- The items of a sequence that a key must have. -/
def itemsOf (key : String) : Node → Outcome (List Node)
  | .sequence _ ns => .ok ns
  | n => .error (.listWanted n.line key)

end Anchors

/-- A wanted value with a default for null.  Failure is a problem of conversion. -/
def Wanted.orFail (default : α) (w : Wanted α) : Outcome α :=
  match w.orDefault default with
  | some a => .ok a
  | none => .error .conversion

/-- An optional field, converted if it is there. -/
def optionalField (default : α) (f : Node → Outcome α) : Option Node → Outcome α
  | some n => f n
  | none => .ok default

end StructuralTyping.Yaml
