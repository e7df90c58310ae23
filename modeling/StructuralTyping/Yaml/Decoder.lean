import StructuralTyping.Yaml.Decode

/-!
# Decoders

A decoder is used for many nodes and many texts, one after the other.  It keeps the scopes
of the type parameters that it is inside of, and the targets that it is expanding.  A scope
is put on the stack before the parts that may use its names are decoded, and it is taken
off afterwards, whether or not they could be decoded.  A target is marked and unmarked in
the same way.

The list of type parameters itself is decoded in a scope of its own, which grows by each
parameter.  That scope is taken off with the list, and a new one with all parameters is put
on for what follows.

The nodes of all documents share one table of targets.  The shapes are those of
`Anchors.decodeWithin`, which is told the names and the targets.
-/

namespace StructuralTyping.Yaml

open TypeSource (Names)

/-- What a decoder is made with. -/
structure Decoder where
  /-- The targets of aliases. -/
  anchors : Anchors := []
  /-- The declared types. -/
  declared : List (String × Ty) := []

/-- What a decoder keeps. -/
structure DecoderState where
  /-- The scopes of type parameters, from the innermost. -/
  scopes : List (List (String × Ty)) := []
  /-- The targets that are being expanded. -/
  expanding : List Nat := []

namespace DecoderState

/-- One more scope inside the others. -/
def push (scope : List (String × Ty)) (s : DecoderState) : DecoderState :=
  { s with scopes := scope :: s.scopes }

/-- The scopes around the innermost one. -/
def pop (s : DecoderState) : DecoderState := { s with scopes := s.scopes.tail }

/-- A type parameter is added to the innermost scope, and hides an earlier one. -/
def add (t : TypeParam) (s : DecoderState) : DecoderState :=
  match s.scopes with
  | [] => s
  | scope :: outer => { s with scopes := ((t.name, .param t.name t.bound) :: scope) :: outer }

/-- A target is marked. -/
def mark (target : Nat) (s : DecoderState) : DecoderState :=
  { s with expanding := target :: s.expanding }

/-- A target is no longer marked. -/
def unmark (target : Nat) (s : DecoderState) : DecoderState :=
  { s with expanding := s.expanding.erase target }

end DecoderState

/-- A step of a decoder.  It may fail, and what the decoder keeps is there all the same. -/
abbrev Decoding (α : Type) := ExceptT Problem (StateM DecoderState) α

namespace Decoding

/-- An outcome that needs no state. -/
def ofOutcome (r : Outcome α) : Decoding α := ExceptT.mk (pure r)

/-- A step between two changes.  The second change is made whether or not the step
succeeds. -/
def between (enter leave : DecoderState → DecoderState) (m : Decoding α) : Decoding α :=
  ExceptT.mk do
    modify enter
    let r ← m.run
    modify leave
    return r

/-- Names the part that a problem is in. -/
def naming (part : Part) (name : String) (m : Decoding α) : Decoding α :=
  ExceptT.mk do return Yaml.inPart part name (← m.run)

/-- All steps in order, up to the first problem. -/
def each (f : α → Decoding β) : List α → Decoding (List β)
  | [] => return []
  | x :: xs => do
    let y ← f x
    return y :: (← each f xs)

/-- An optional field, decoded if it is there. -/
def orDefault (default : α) (f : Node → Decoding α) : Option Node → Decoding α
  | some n => f n
  | none => return default

end Decoding

namespace Decoder

open Decoding (ofOutcome between naming each orDefault)

variable (d : Decoder) (ask : Node → Decoding Ty)

/-- The names that may be used at this point. -/
def names : Decoding Names := do return ⟨(← get).scopes, d.declared⟩

/-- Type source. -/
def source (text : String) : Decoding Ty := do ofOutcome (decodeSource (← d.names) text)

/-- A scalar on its own. -/
def scalar (n : Node) : Decoding Ty := do ofOutcome (d.anchors.decodeScalar (← d.names) n)

/-- The types of a sequence. -/
def list (n : Node) : Decoding (List Ty) := do each ask (← ofOutcome (d.anchors.items n))

/-! ## Parameters -/

/-- A type given as a node, as type source, or not at all. -/
def given (node? : Option Node) (text : String) : Decoding Ty :=
  match node? with
  | some n => ask n
  | none => if text.isEmpty then return .missing else d.source text

/-- A parameter. -/
def param (n : Node) : Decoding Param := do
  let form := (← ofOutcome (d.anchors.paramForm n)).readMarks
  if form.name.isEmpty then throw (.namelessParameter n.line)
  else
    let t ← naming .parameter form.name (d.given ask form.node? form.source)
    return ⟨form.pattern, t⟩

/-! ## Type parameters -/

/-- A type parameter. -/
def typeParam (n : Node) : Decoding TypeParam := do
  let (name, node?, text) ← ofOutcome (d.anchors.typeParamForm n)
  if name.isEmpty then throw (.namelessTypeParameter n.line)
  else
    let bound ← naming .typeParameter name (d.given ask node? text)
    return ⟨name, bound⟩

/-- Type parameters in order.  Each is added to the innermost scope, where the later ones
may use it. -/
def addTypeParams : List Node → Decoding (List TypeParam)
  | [] => return []
  | n :: ns => do
    let t ← d.typeParam ask n
    modify (·.add t)
    return t :: (← addTypeParams ns)

/-- The value of the key `typeParams`, decoded in a scope of its own. -/
def typeParams (n : Node) : Decoding (List TypeParam) := do
  let ns ← ofOutcome (Anchors.itemsOf "typeParams" n)
  between (·.push []) (·.pop) (d.addTypeParams ask ns)

/-- A step inside the type parameters among fields. -/
def withTypeParams (f : Fields) (m : List TypeParam → Decoding α) : Decoding α :=
  match f.get? "typeParams" with
  | none => m []
  | some n => do
    let ts ← d.typeParams ask n
    between (·.push (Names.scopeOf ts)) (·.pop) (m ts)

/-! ## Signatures and members -/

/-- A signature. -/
def signature (n : Node) : Decoding Signature :=
  if n.isBlankScalar then return .ofParams []
  else do
    let f ← ofOutcome (d.anchors.fields n)
    d.withTypeParams ask f fun ts => do
      let ps ← orDefault []
        (fun n => do each (d.param ask) (← ofOutcome (Anchors.itemsOf "params" n)))
          (f.get? "params")
      let r ← orDefault .void ask (f.get? "returns")
      return .mk ts ps r

/-- A named member. -/
def member (raw : String) (n : Node) : Decoding Member := do
  let form := Anchors.MemberForm.read raw
  match ← ofOutcome (d.anchors.methodNode? n) with
  | some m => return .method form.key form.isOptional (← d.signature ask m)
  | none =>
    let t ← if n.isNullScalar then pure .missing else ask n
    return .property form.key t form.isOptional form.isReadonly

/-- The named members of a mapping. -/
def named (n : Node) : Decoding (List Member) :=
  if n.isBlankScalar then return []
  else do
    let f ← ofOutcome (d.anchors.fields n)
    each (fun (raw, v) => naming .member raw (d.member ask raw v)) f.entries

/-- An index signature. -/
def index (n : Node) : Decoding Member := do
  let f ← ofOutcome (d.anchors.fields n)
  let key ← orDefault .missing ask (f.get? "key")
  let value ← orDefault .missing ask (f.get? "type")
  let isReadonly ← ofOutcome
    (optionalField false (fun n => (d.anchors.wanted Scalar.toBool n).orFail false)
      (f.get? "readonly"))
  return .index (((f.get? "param").map Node.value).getD "key") key value isReadonly

/-- A list of unnamed members beside the named ones. -/
def unnamed (key : String) (f : Fields) (one : Node → Decoding Member) : Decoding (List Member) :=
  orDefault [] (fun n => do each one (← ofOutcome (Anchors.itemsOf key n))) (f.get? key)

/-- The members of a shape. -/
def members (named? : Option Node) (f : Fields) : Decoding (List Member) := do
  let named ← orDefault [] (d.named ask) named?
  let indexes ← unnamed "indexes" f (d.index ask)
  let calls ← unnamed "calls" f fun n => do return .call (← d.signature ask n)
  let constructs ← unnamed "constructs" f fun n => do return .construct (← d.signature ask n)
  return named ++ indexes ++ calls ++ constructs

/-! ## Shapes -/

/-- An interface. -/
def interface (name : String) (f : Fields) : Decoding Ty :=
  d.withTypeParams ask f fun ts => do
    let ms ← naming .interface name (d.members ask (f.get? "members") f)
    let bases ← naming .interface name (orDefault [] (d.list ask) (f.get? "extends"))
    return .interface name ts ms bases

/-- A class. -/
def classType (name : String) (f : Fields) : Decoding Ty :=
  d.withTypeParams ask f fun ts => do
    let ms ← naming .classType name (d.members ask (f.get? "members") f)
    let base ← naming .classType name (orDefault .missing ask (f.get? "super"))
    return .classType name ts ms base

/-- An indexed access. -/
def indexed (n : Node) : Decoding Ty := do
  match ← d.list ask n with
  | [object, index] => return .indexed object index
  | _ => throw (.badIndexed n.line)

/-- The type of a shape, from the value of its key and all fields. -/
def shape (f : Fields) (v : Node) : String → Decoding Ty
  | "array" => do return .array (← ask v)
  | "tuple" => do return .tuple (← d.list ask v)
  | "union" => do return .union (← d.list ask v)
  | "intersection" => do return .inter (← d.list ask v)
  | "literal" => ofOutcome (d.anchors.decodeLiteral v)
  | "fn" => do return .function (← d.signature ask v)
  | "new" => do return .ctor (← d.signature ask v)
  | "object" => do return .object (← d.members ask (some v) f)
  | "interface" => d.interface ask v.value f
  | "class" => d.classType ask v.value f
  | "enum" => ofOutcome (d.anchors.decodeEnum v.value f)
  | "variant" => ofOutcome (Anchors.decodeVariant v)
  | "param" => do return .param v.value (← orDefault .missing ask (f.get? "extends"))
  | "indexed" => d.indexed ask v
  | _ => return .other v.value

/-- The type of a mapping. -/
def mapping (n : Node) : Decoding Ty := do
  let f ← ofOutcome (d.anchors.fields n)
  let (shape, v) ← ofOutcome (Anchors.shapeOf n.line f)
  d.shape ask f v shape

/-! ## The recursion -/

/-- The type of a node.  `fuel` counts the steps left. -/
def decodeIn (d : Decoder) : Nat → Node → Decoding Ty
  | 0, _ => throw .endless
  | fuel + 1, n =>
    match n with
    | .document _ [] => throw .emptyDocument
    | .document _ (c :: _) => d.decodeIn fuel c
    | .alias i name target? =>
      match target? with
      | none => throw .missing
      | some t => do
        if (← get).expanding.contains t then throw (.selfAlias i.line name)
        else
          match d.anchors[t]? with
          | some m => between (·.mark t) (·.unmark t) (d.decodeIn fuel m)
          | none => throw .missing
    | .scalar i s => d.scalar (.scalar i s)
    | .sequence i ns => do return .tuple (← d.list (d.decodeIn fuel) (.sequence i ns))
    | .mapping i es => d.mapping (d.decodeIn fuel) (.mapping i es)
    | .unknown i _ => throw (.unexpectedNode i.line)

/-! ## Calls -/

/-- A call of a decoder. -/
inductive Call where
  /-- A node is decoded. -/
  | decode (node : Node)
  /-- Type source is parsed. -/
  | parse (text : String)

/-- Performs a call. -/
def perform : Call → Decoding Ty
  | .decode n => d.decodeIn (d.anchors.decodeFuel n) n
  | .parse text => d.source text

/-- Performs calls in order.  Each result comes with what the decoder keeps after the
call. -/
def performAll : List Call → StateM DecoderState (List (Outcome Ty × DecoderState))
  | [] => return []
  | call :: calls => do
    let result ← (d.perform call).run
    let state ← get
    return (result, state) :: (← performAll calls)

end Decoder

end StructuralTyping.Yaml
