import StructuralTyping.Number.Binary64
import StructuralTyping.Text.ByteText

/-!
# Types

The types of the algebra: keywords, literals, arrays, tuples, unions,
intersections, object shapes, functions, enums and type parameters.  A type is
a value, built once and never changed, and carries no position.

An annotation may be missing, so `Ty.missing` is a type of its own.  A type may
also be the use of a declared name, `Ty.named`.  The declarations are a table,
`Decls`, and a declaration may mention itself, so that shapes can be cyclic.
The name of a declaration is given in the input, or it is the number that a part
of a type was declared under.  `Decls.head` replaces a declared name by its
declaration, and every function that looks at the shape of a type looks at its
head.
-/

namespace StructuralTyping

/-! ## Leaves -/

/-- The keyword types.  `numbered` is a keyword outside the known ones. -/
inductive Keyword where
  | any
  | unknown
  | string
  | number
  | boolean
  | bigint
  | symbol
  | void
  | null
  | undefined
  | object
  | never
  | numbered (index : Int)
  deriving DecidableEq, Repr, Inhabited

namespace Keyword

/-- The known keywords, in the order of their numbers. -/
def known : List Keyword :=
  [any, unknown, string, number, boolean, bigint, symbol, void, null, undefined, object, never]

/-- The keyword with a number. -/
def ofIndex (i : Int) : Keyword :=
  if 0 ≤ i then (known[i.toNat]?).getD (.numbered i) else .numbered i

end Keyword

/-- A literal value used as a type. -/
inductive Literal where
  | bool (value : Bool)
  | number (value : Binary64)
  | string (value : ByteText)
  deriving DecidableEq, Repr, Inhabited

namespace Literal

/-- The value counts as true when it is tested. -/
def truthy : Literal → Bool
  | .bool b => b
  | .number x => x.truthy
  | .string s => !s.isEmpty

/-- The same value of the same kind. -/
def sameValue : Literal → Literal → Bool
  | .bool a, .bool b => a == b
  | .number a, .number b => a.sameValue b
  | .string a, .string b => a == b
  | _, _ => false

/-- The keyword that a literal widens to. -/
def keyword : Literal → Keyword
  | .bool _ => .boolean
  | .number _ => .number
  | .string _ => .string

end Literal

/-- The name of a member.  `a` and `[a]` are different keys. -/
structure PropKey where
  name : String
  computed : Bool := false
  deriving DecidableEq, Repr, Inhabited

/-- The binding form of a parameter.  `hole` is a missing pattern. -/
inductive Pattern where
  | hole
  | ident (name : String) (isOptional : Bool)
  | array (elements : List Pattern)
  | object (entries : List (PropKey × Pattern)) (rest : Pattern)
  | rest (argument : Pattern)
  deriving Inhabited

namespace Pattern

/-- A pattern is there. -/
def isHole : Pattern → Bool
  | .hole => true
  | _ => false

end Pattern

/-- The name of a declared type.  It is given, or it is the number of a part. -/
inductive TypeName where
  | given (name : String)
  | part (number : Nat)
  deriving DecidableEq, Repr, Inhabited

/-! ## Types, members and signatures -/

mutual

/-- A type. -/
inductive Ty where
  | missing
  | keyword (kind : Keyword)
  | literal (value : Literal)
  | array (element : Ty)
  | tuple (elements : List Ty)
  | union (branches : List Ty)
  | inter (branches : List Ty)
  | object (members : List Member)
  | interface (name : String) (typeParams : List TypeParam) (members : List Member)
      (bases : List Ty)
  | classType (name : String) (typeParams : List TypeParam) (members : List Member) (base : Ty)
  | function (signature : Signature)
  | ctor (signature : Signature)
  | enum (name : String) (members : List String) (isConst : Bool)
  | variant (enumName : String) (member : String)
  | param (name : String) (bound : Ty)
  | this
  | indexed (object : Ty) (index : Ty)
  | other (raw : String)
  | regExp
  | named (name : TypeName)

/-- A member of an object shape. -/
inductive Member where
  | property (key : PropKey) (type : Ty) (isOptional : Bool) (isReadonly : Bool)
  | method (key : PropKey) (isOptional : Bool) (signature : Signature)
  | call (signature : Signature)
  | construct (signature : Signature)
  | index (param : String) (key : Ty) (value : Ty) (isReadonly : Bool)

/-- A signature, or none where one is expected. -/
inductive Signature where
  | absent
  | mk (typeParams : List TypeParam) (params : List Param) (result : Ty)

/-- A parameter of a signature.  Its type may be missing. -/
structure Param where
  pattern : Pattern
  type : Ty

/-- A declared type parameter with its bound, missing when there is none. -/
structure TypeParam where
  name : String
  bound : Ty

end

instance : Inhabited Ty := ⟨.missing⟩
instance : Inhabited Member := ⟨.call .absent⟩
instance : Inhabited Signature := ⟨.absent⟩
instance : Inhabited Param := ⟨⟨.hole, .missing⟩⟩
instance : Inhabited TypeParam := ⟨⟨"", .missing⟩⟩

namespace Signature

/-- The declared type parameters. -/
def typeParams : Signature → List TypeParam
  | .absent => []
  | .mk ts _ _ => ts

/-- The parameters. -/
def params : Signature → List Param
  | .absent => []
  | .mk _ ps _ => ps

/-- The result type, missing when it is not annotated. -/
def result : Signature → Ty
  | .absent => .missing
  | .mk _ _ r => r

end Signature

namespace Param

/-- A parameter that binds one name. -/
def plain (name : String) (type : Ty) : Param := ⟨.ident name false, type⟩

/-- A parameter that takes all remaining arguments. -/
def restOf (name : String) (type : Ty) : Param := ⟨.rest (.ident name false), type⟩

/-- The parameter takes all remaining arguments. -/
def isRest (p : Param) : Bool :=
  match p.pattern with
  | .rest _ => true
  | _ => false

/-- Callers may leave the argument out. -/
def isOptional (p : Param) : Bool :=
  match p.pattern with
  | .ident _ o => o
  | _ => false

end Param

namespace Ty

/-- The keyword types by name. -/
abbrev any : Ty := .keyword .any
/-- The type of all values, whose members cannot be used. -/
abbrev unknown : Ty := .keyword .unknown
/-- The type of strings. -/
abbrev string : Ty := .keyword .string
/-- The type of numbers. -/
abbrev number : Ty := .keyword .number
/-- The type of truth values. -/
abbrev boolean : Ty := .keyword .boolean
/-- The type of big integers. -/
abbrev bigint : Ty := .keyword .bigint
/-- The type of no useful value. -/
abbrev void : Ty := .keyword .void
/-- The type of the null value. -/
abbrev null : Ty := .keyword .null
/-- The type of the undefined value. -/
abbrev undefined : Ty := .keyword .undefined
/-- The type without values. -/
abbrev never : Ty := .keyword .never

/-- A missing annotation. -/
def isMissing : Ty → Bool
  | .missing => true
  | _ => false

/-- The type, or `any` when the annotation is missing. -/
def orAny : Ty → Ty
  | .missing => .any
  | t => t

end Ty

/-! ## Declarations -/

/-- A table of declared types.  A declaration may mention every declared name,
its own included. -/
structure Decls where
  entries : List (TypeName × Ty) := []

namespace Decls

/-- No declarations. -/
def empty : Decls := {}

/-- The number of declarations, which bounds a chain of names. -/
def size (D : Decls) : Nat := D.entries.length

/-- The declaration of a name. -/
def find? (D : Decls) (name : TypeName) : Option Ty := D.entries.lookup name

/-- The type with a declared name at its head replaced by the declaration. -/
def head (D : Decls) : Ty → Ty
  | .named n => (D.find? n).getD .missing
  | t => t

/-- The head of a type is a given keyword. -/
def isKeyword (D : Decls) (t : Ty) (k : Keyword) : Bool :=
  match D.head t with
  | .keyword l => l == k
  | _ => false

/-- The head of a type is `never`. -/
def isNever (D : Decls) (t : Ty) : Bool := D.isKeyword t .never

/-- The head of a type is a literal. -/
def isLiteral (D : Decls) (t : Ty) : Bool :=
  match D.head t with
  | .literal _ => true
  | _ => false

end Decls

end StructuralTyping
