import StructuralTyping.Ty.Build
import StructuralTyping.Yaml.Fields

/-!
# Types from documents

A type is written as a scalar in type source, as a sequence, which is a tuple,
or as a mapping with one key that says its shape.  Aliases stand for their
targets.

Every function here looks at one node and hands the types inside it to `ask`.
`Anchors.decodeWithin` closes the recursion.  It counts two things: the targets
that are being expanded, so that an alias inside its own target is reported,
and the steps.  A path through the document enters each target at most once and
between two targets it goes down, so the number of anchors and the depth of the
document bound the steps.
-/

namespace StructuralTyping.Yaml

open TypeSource (Names)

/-- The types inside a node, under names. -/
abbrev Ask := Names → Node → Outcome Ty

/-- Type source inside a document. -/
def decodeSource (N : Names) (source : String) : Outcome Ty :=
  match TypeSource.parse N source with
  | .ok t => .ok t
  | .error p => .error (.source source p)

/-- Type source that must be reported with its line.  Bytes that are no text are no
source. -/
def decodeSourceAt (N : Names) (line : Int) (source : ByteText) : Outcome Ty :=
  match source with
  | .stray b => .error (.atLine line (.encoding b))
  | .valid s =>
    match decodeSource N s with
    | .ok t => .ok t
    | .error p => .error (.atLine line p)

/-- The outcomes of a list in order, up to the first problem. -/
def decodeEach (f : α → Outcome β) : List α → Outcome (List β)
  | [] => .ok []
  | x :: xs =>
    match f x with
    | .error p => .error p
    | .ok y =>
      match decodeEach f xs with
      | .error p => .error p
      | .ok ys => .ok (y :: ys)

namespace Anchors

/-! ## Literals -/

/-- The literal of a scalar with the tag of a truth value or a number. -/
def decodeBool (A : Anchors) (n : Node) : Outcome Ty :=
  ((A.wanted Scalar.toBool n).orFail false).map fun b => .literal (.bool b)

/-- The literal of a number. -/
def decodeNumber (A : Anchors) (n : Node) : Outcome Ty :=
  ((A.wanted Scalar.toNumber n).orFail (.zero false)).map fun x => .literal (.number x)

/-- The value of the key `literal`. -/
def decodeLiteral (A : Anchors) (n : Node) : Outcome Ty :=
  match A.tag n with
  | .error p => .error p
  | .ok (some .bool) => A.decodeBool n
  | .ok (some .int) => A.decodeNumber n
  | .ok (some .float) => A.decodeNumber n
  | .ok (some .text) => .ok (.literal (.string n.text))
  | _ => .error (.badLiteral n.line)

/-- A scalar on its own. -/
def decodeScalar (A : Anchors) (N : Names) (n : Node) : Outcome Ty :=
  match n.ownTag? with
  | some .null => .ok .null
  | some .bool => A.decodeBool n
  | some .int => A.decodeNumber n
  | some .float => A.decodeNumber n
  | _ => decodeSourceAt N n.line n.text

/-- The types of a sequence. -/
def decodeList (A : Anchors) (ask : Ask) (N : Names) (n : Node) : Outcome (List Ty) := do
  decodeEach (ask N) (← A.items n)

/-! ## Parameters -/

/-- A parameter as it is written, before its type is decoded. -/
structure ParamForm where
  name : String
  isOptional : Bool := false
  isRest : Bool := false
  /-- The type as type source, empty when there is none. -/
  source : String := ""
  /-- The type as a node. -/
  node? : Option Node := none

/-- The marks around a name: three dots in front, a question mark behind. -/
def ParamForm.readMarks (p : ParamForm) : ParamForm :=
  let p :=
    match afterBeginning? "..." p.name with
    | some rest => { p with name := rest, isRest := true }
    | none => p
  match beforeEnding? "?" p.name with
  | some rest => { p with name := rest, isOptional := true }
  | none => p

/-- The binding form of a parameter.  A rest parameter is never optional. -/
def ParamForm.pattern (p : ParamForm) : Pattern :=
  if p.isRest then .rest (.ident p.name false) else .ident p.name p.isOptional

/-- Text before and after the first separator, without white space around. -/
def cutTrimmed (sep s : String) : String × String :=
  match cutText? sep s with
  | some (a, b) => (trimSpace a, trimSpace b)
  | none => (trimSpace s, "")

/-- A parameter written as a mapping.  A single key other than `name` is the name,
and its value the type. -/
def paramFormOfFields (A : Anchors) (f : Fields) : Outcome ParamForm :=
  match f.entries, f.has "name" with
  | [(key, v)], false => .ok { name := key, node? := some v }
  | _, _ => do
    let isOptional ← optionalField false (fun n => (A.wanted Scalar.toBool n).orFail false)
        (f.get? "optional")
    let isRest ← optionalField false (fun n => (A.wanted Scalar.toBool n).orFail false)
        (f.get? "rest")
    .ok
      { name := ((f.get? "name").map Node.value).getD ""
        isOptional, isRest, node? := f.get? "type" }

/-- A parameter as it is written. -/
def paramForm (A : Anchors) (n : Node) : Outcome ParamForm :=
  match n with
  | .scalar _ s => let (name, source) := cutTrimmed ":" s.shown; .ok { name, source }
  | .mapping _ _ => do A.paramFormOfFields (← A.fields n)
  | _ => .error (.badParameter n.line)

/-- A type given as a node, as type source, or not at all. -/
def decodeGiven (ask : Ask) (N : Names) (node? : Option Node) (source : String) : Outcome Ty :=
  match node? with
  | some n => ask N n
  | none => if source.isEmpty then .ok .missing else decodeSource N source

/-- A parameter. -/
def decodeParam (A : Anchors) (ask : Ask) (N : Names) (n : Node) : Outcome Param := do
  let form := (← A.paramForm n).readMarks
  if form.name.isEmpty then .error (.namelessParameter n.line)
  else
    let t ← inPart .parameter form.name (decodeGiven ask N form.node? form.source)
    .ok ⟨form.pattern, t⟩

/-! ## Type parameters -/

/-- A type parameter as it is written: its name, its bound as a node, and its
bound as type source. -/
def typeParamForm (A : Anchors) (n : Node) : Outcome (String × Option Node × String) :=
  match n with
  | .scalar _ s => let (name, source) := cutTrimmed " extends " s.shown; .ok (name, none, source)
  | .mapping _ _ => do
    let f ← A.fields n
    .ok (((f.get? "name").map Node.value).getD "", f.get? "extends", "")
  | _ => .error (.badTypeParameter n.line)

/-- A type parameter.  Its bound may use the earlier ones, which are in `N`. -/
def decodeTypeParam (A : Anchors) (ask : Ask) (N : Names) (n : Node) : Outcome TypeParam := do
  let (name, node?, source) ← A.typeParamForm n
  if name.isEmpty then .error (.namelessTypeParameter n.line)
  else
    let bound ← inPart .typeParameter name (decodeGiven ask N node? source)
    .ok ⟨name, bound⟩

/-- Type parameters in order, each after the ones before it. -/
def decodeTypeParamsFrom (A : Anchors) (ask : Ask) (N : Names) (earlier : List TypeParam) :
    List Node → Outcome (List TypeParam)
  | [] => .ok earlier
  | n :: ns => do
    let t ← A.decodeTypeParam ask (N.enter earlier) n
    A.decodeTypeParamsFrom ask N (earlier ++ [t]) ns

/-- The value of the key `typeParams`. -/
def decodeTypeParams (A : Anchors) (ask : Ask) (N : Names) (n : Node) :
    Outcome (List TypeParam) := do
  A.decodeTypeParamsFrom ask N [] (← itemsOf "typeParams" n)

/-- The type parameters among fields, and the names inside them. -/
def decodeScope (A : Anchors) (ask : Ask) (N : Names) (f : Fields) :
    Outcome (List TypeParam × Names) := do
  match f.get? "typeParams" with
  | none => .ok ([], N)
  | some n =>
    let ts ← A.decodeTypeParams ask N n
    .ok (ts, N.enter ts)

/-! ## Signatures -/

/-- A signature.  Nothing at all is a signature without parameters, and a missing
result is `void`. -/
def decodeSignature (A : Anchors) (ask : Ask) (N : Names) (n : Node) : Outcome Signature :=
  if n.isBlankScalar then .ok (.ofParams [])
  else do
    let f ← A.fields n
    let (ts, N) ← A.decodeScope ask N f
    let ps ← optionalField [] (fun n => do decodeEach (A.decodeParam ask N) (← itemsOf "params" n))
        (f.get? "params")
    let r ← optionalField .void (ask N) (f.get? "returns")
    .ok (.mk ts ps r)

/-! ## Members -/

/-- The key of a member with the marks around its name. -/
structure MemberForm where
  key : PropKey
  isOptional : Bool
  isReadonly : Bool

/-- Reads the key of a member: `readonly` in front, a question mark behind, and
brackets around a computed name. -/
def MemberForm.read (raw : String) : MemberForm :=
  let (name, isReadonly) :=
    match afterBeginning? "readonly " raw with
    | some rest => (trimSpace rest, true)
    | none => (raw, false)
  let (name, isOptional) :=
    match beforeEnding? "?" name with
    | some rest => (rest, true)
    | none => (name, false)
  let key :=
    match (afterBeginning? "[" name).bind (beforeEnding? "]") with
    | some inner => ⟨inner, true⟩
    | none => ⟨name, false⟩
  { key, isOptional, isReadonly }

/-- The value of the key `method`, if a node is a mapping that has it. -/
def methodNode? (A : Anchors) (n : Node) : Outcome (Option Node) :=
  match n with
  | .mapping _ _ => (A.fields n).map fun f => f.get? "method"
  | _ => .ok none

/-- A named member.  A null leaves the type out. -/
def decodeMember (A : Anchors) (ask : Ask) (N : Names) (raw : String) (n : Node) :
    Outcome Member := do
  let form := MemberForm.read raw
  match ← A.methodNode? n with
  | some m => (A.decodeSignature ask N m).map fun s => .method form.key form.isOptional s
  | none =>
    let t ← if n.isNullScalar then .ok .missing else ask N n
    .ok (.property form.key t form.isOptional form.isReadonly)

/-- The named members of a mapping. -/
def decodeNamed (A : Anchors) (ask : Ask) (N : Names) (n : Node) : Outcome (List Member) :=
  if n.isBlankScalar then .ok []
  else do
    let f ← A.fields n
    decodeEach (fun (raw, v) => inPart .member raw (A.decodeMember ask N raw v)) f.entries

/-- An index signature. -/
def decodeIndex (A : Anchors) (ask : Ask) (N : Names) (n : Node) : Outcome Member := do
  let f ← A.fields n
  let key ← optionalField .missing (ask N) (f.get? "key")
  let value ← optionalField .missing (ask N) (f.get? "type")
  let isReadonly ← optionalField false (fun n => (A.wanted Scalar.toBool n).orFail false)
      (f.get? "readonly")
  .ok (.index (((f.get? "param").map Node.value).getD "key") key value isReadonly)

/-- A list of unnamed members beside the named ones. -/
def decodeUnnamed (key : String) (f : Fields) (one : Node → Outcome Member) :
    Outcome (List Member) :=
  optionalField [] (fun n => do decodeEach one (← itemsOf key n)) (f.get? key)

/-- The members of a shape: the named ones, then index, call and construct
signatures. -/
def decodeMembers (A : Anchors) (ask : Ask) (N : Names) (named? : Option Node) (f : Fields) :
    Outcome (List Member) := do
  let named ← optionalField [] (A.decodeNamed ask N) named?
  let indexes ← decodeUnnamed "indexes" f (A.decodeIndex ask N)
  let calls ← decodeUnnamed "calls" f fun n => (A.decodeSignature ask N n).map .call
  let constructs ← decodeUnnamed "constructs" f fun n => (A.decodeSignature ask N n).map .construct
  .ok (named ++ indexes ++ calls ++ constructs)

/-! ## Shapes -/

/-- An interface. -/
def decodeInterface (A : Anchors) (ask : Ask) (N : Names) (name : String) (f : Fields) :
    Outcome Ty := do
  let (ts, N) ← A.decodeScope ask N f
  let ms ← inPart .interface name (A.decodeMembers ask N (f.get? "members") f)
  let bases ← inPart .interface name (optionalField [] (A.decodeList ask N) (f.get? "extends"))
  .ok (.interface name ts ms bases)

/-- A class. -/
def decodeClass (A : Anchors) (ask : Ask) (N : Names) (name : String) (f : Fields) :
    Outcome Ty := do
  let (ts, N) ← A.decodeScope ask N f
  let ms ← inPart .classType name (A.decodeMembers ask N (f.get? "members") f)
  let base ← inPart .classType name (optionalField .missing (ask N) (f.get? "super"))
  .ok (.classType name ts ms base)

/-- An enum. -/
def decodeEnum (A : Anchors) (name : String) (f : Fields) : Outcome Ty := do
  let members ← inPart .enum name
    (optionalField [] (fun n => (A.wantedTexts n).orFail []) (f.get? "members"))
  let isConst ← inPart .enum name
    (optionalField false (fun n => (A.wanted Scalar.toBool n).orFail false) (f.get? "const"))
  .ok (.enum name members isConst)

/-- A member of an enum, written with a dot. -/
def decodeVariant (n : Node) : Outcome Ty :=
  match cutText? "." n.value with
  | some (enumName, member) => .ok (.variant enumName member)
  | none => .error (.badVariant n.line n.value)

/-- An indexed access. -/
def decodeIndexed (A : Anchors) (ask : Ask) (N : Names) (n : Node) : Outcome Ty := do
  match ← A.decodeList ask N n with
  | [object, index] => .ok (.indexed object index)
  | _ => .error (.badIndexed n.line)

/-- The one key of a mapping that says its shape, and its value. -/
def shapeOf (line : Int) (f : Fields) : Outcome (String × Node) :=
  match shapeKeys.filterMap fun k => (f.get? k).map (k, ·) with
  | [] => .error (.noShape line)
  | [s] => .ok s
  | (a, _) :: (b, _) :: _ => .error (.twoShapes line a b)

/-- The type of a shape, from the value of its key and all fields. -/
def decodeShape (A : Anchors) (ask : Ask) (N : Names) (f : Fields) (v : Node) : String → Outcome Ty
  | "array" => (ask N v).map .array
  | "tuple" => (A.decodeList ask N v).map .tuple
  | "union" => (A.decodeList ask N v).map .union
  | "intersection" => (A.decodeList ask N v).map .inter
  | "literal" => A.decodeLiteral v
  | "fn" => (A.decodeSignature ask N v).map .function
  | "new" => (A.decodeSignature ask N v).map .ctor
  | "object" => (A.decodeMembers ask N (some v) f).map .object
  | "interface" => A.decodeInterface ask N v.value f
  | "class" => A.decodeClass ask N v.value f
  | "enum" => A.decodeEnum v.value f
  | "variant" => decodeVariant v
  | "param" => (optionalField .missing (ask N) (f.get? "extends")).map (.param v.value)
  | "indexed" => A.decodeIndexed ask N v
  | _ => .ok (.other v.value)

/-- The type of a mapping. -/
def decodeMapping (A : Anchors) (ask : Ask) (N : Names) (n : Node) : Outcome Ty := do
  let f ← A.fields n
  let (shape, v) ← shapeOf n.line f
  A.decodeShape ask N f v shape

/-! ## The recursion -/

/-- The type of a node.  `expanding` holds the numbers of the targets that are
being expanded, and `fuel` counts the steps left. -/
def decodeWithin (A : Anchors) : Nat → List Nat → Names → Node → Outcome Ty
  | 0, _, _, _ => .error .endless
  | fuel + 1, expanding, N, n =>
    match n with
    | .document _ [] => .error .emptyDocument
    | .document _ (c :: _) => A.decodeWithin fuel expanding N c
    | .alias i name target? =>
      match target? with
      | none => .error .missing
      | some t =>
        if expanding.contains t then .error (.selfAlias i.line name)
        else
          match A[t]? with
          | some m => A.decodeWithin fuel (t :: expanding) N m
          | none => .error .missing
    | .scalar i s => A.decodeScalar N (.scalar i s)
    | .sequence i ns => (A.decodeList (A.decodeWithin fuel expanding) N (.sequence i ns)).map .tuple
    | .mapping i es => A.decodeMapping (A.decodeWithin fuel expanding) N (.mapping i es)
    | .unknown i _ => .error (.unexpectedNode i.line)

/-- Steps that are enough for a node. -/
def decodeFuel (A : Anchors) (n : Node) : Nat := (A.length + 1) * (max n.depth (Node.depths A) + 1)

/-- The type of a node. -/
def decode (A : Anchors) (N : Names) (n : Node) : Outcome Ty :=
  A.decodeWithin (A.decodeFuel n) [] N n

end Anchors

/-- The type of a whole document. -/
def Document.decode (d : Document) (N : Names) : Outcome Ty := Anchors.decode d.anchors N d.root

end StructuralTyping.Yaml
