import StructuralTyping.Ty.Text
import StructuralTyping.Yaml.Node

/-!
# Documents from types

A type is written as a node that decodes to an equal type.  Interfaces, classes
and enums are written in full.  A parameter is written by its name, and a
destructuring pattern by its text.

Named members go into a mapping, and call, construct and index signatures into
lists beside it.
-/

namespace StructuralTyping.Yaml

/-! ## Nodes -/

/-- A scalar with a tag. -/
def taggedNode (tag : Tag) (s : ByteText) : Node := .scalar { tag? := some tag } s

/-- A scalar of text. -/
def textNode (s : ByteText) : Node := taggedNode .text s

/-- The scalar that stands for nothing. -/
def nullNode : Node := taggedNode .null ""

/-- The scalar that stands for truth. -/
def trueNode : Node := taggedNode .bool "true"

/-- A sequence. -/
def listNode (items : List Node) : Node := .sequence {} items

/-- A sequence of words in brackets. -/
def wordsNode (words : List String) : Node :=
  .sequence { flow := true } (words.map fun s => textNode (.valid s))

/-- A mapping with text keys. -/
def mapNode (entries : List (String × Node)) : Node :=
  .mapping {} (entries.map fun (k, v) => (textNode k, v))

/-- An entry that is left out when its list is empty. -/
def listEntry (key : String) (items : List Node) : List (String × Node) :=
  if items.isEmpty then [] else [(key, listNode items)]

/-- An entry that is left out unless it is true. -/
def trueEntry (key : String) (b : Bool) : List (String × Node) :=
  if b then [(key, trueNode)] else []

/-- An entry with the node of a type, left out when the type is missing. -/
def typeEntry (key : String) (t : Ty) (node : Node) : List (String × Node) :=
  if t.isMissing then [] else [(key, node)]

/-! ## Leaves -/

/-- The value of a literal. -/
def encodeLiteral : Literal → Node
  | .bool b => taggedNode .bool (boolText b)
  | .number x => taggedNode .float x.text
  | .string s => textNode s

/-- The key of a named member with the marks around its name. -/
def memberKey (k : PropKey) (isOptional : Bool) : String :=
  k.text ++ (if isOptional then "?" else "")

/-- The name of a parameter and whether it is optional. -/
def parameterName : Pattern → String × Bool
  | .hole => ("_", false)
  | .ident name isOptional => (name, isOptional)
  | p => (p.text, false)

/-- The pattern of a parameter without its three dots, and whether it had them. -/
def withoutDots : Pattern → Pattern × Bool
  | .rest p => (p, true)
  | p => (p, false)

/-- A member, written: into the mapping of named members or into a list. -/
inductive MemberNode where
  | named (key : String) (value : Node)
  | call (value : Node)
  | construct (value : Node)
  | index (value : Node)

namespace MemberNode

/-- The entry of a named member. -/
def named? : MemberNode → Option (String × Node)
  | .named k v => some (k, v)
  | _ => none

/-- A call signature. -/
def call? : MemberNode → Option Node
  | .call v => some v
  | _ => none

/-- A construct signature. -/
def construct? : MemberNode → Option Node
  | .construct v => some v
  | _ => none

/-- An index signature. -/
def index? : MemberNode → Option Node
  | .index v => some v
  | _ => none

end MemberNode

/-- The entries for members: the mapping under a key and the lists beside it. -/
def memberEntries (key : String) (ms : List MemberNode) : List (String × Node) :=
  [(key, mapNode (ms.filterMap (·.named?)))]
    ++ listEntry "calls" (ms.filterMap (·.call?))
    ++ listEntry "constructs" (ms.filterMap (·.construct?))
    ++ listEntry "indexes" (ms.filterMap (·.index?))

/-! ## Types -/

mutual

/-- The node of a type. -/
def encode : Ty → Node
  | .missing => nullNode
  | .keyword k => textNode k.text
  | .this => textNode "this"
  | .regExp => textNode "RegExp"
  | .literal l => mapNode [("literal", encodeLiteral l)]
  | .array e => mapNode [("array", encode e)]
  | .tuple es => mapNode [("tuple", listNode (encodeAll es))]
  | .union bs => mapNode [("union", listNode (encodeAll bs))]
  | .inter bs => mapNode [("intersection", listNode (encodeAll bs))]
  | .function s => mapNode [("fn", encodeSignature s)]
  | .ctor s => mapNode [("new", encodeSignature s)]
  | .object ms => mapNode (memberEntries "object" (encodeMembers ms))
  | .interface name ts ms bases =>
    mapNode ([("interface", textNode name)] ++ listEntry "typeParams" (encodeTypeParams ts)
      ++ memberEntries "members" (encodeMembers ms) ++ listEntry "extends" (encodeAll bases))
  | .classType name ts ms base =>
    mapNode ([("class", textNode name)] ++ listEntry "typeParams" (encodeTypeParams ts)
      ++ memberEntries "members" (encodeMembers ms) ++ typeEntry "super" base (encode base))
  | .enum name members isConst =>
    mapNode ([("enum", textNode name), ("members", wordsNode members)] ++ trueEntry "const" isConst)
  | .variant e m => mapNode [("variant", textNode (e ++ "." ++ m))]
  | .param name bound =>
    mapNode ([("param", textNode name)] ++ typeEntry "extends" bound (encode bound))
  | .indexed o i => mapNode [("indexed", listNode [encode o, encode i])]
  | .other raw => mapNode [("other", textNode raw)]
  | .named name => mapNode [("other", textNode name.text)]
termination_by structural t => t

/-- The nodes of types. -/
def encodeAll : List Ty → List Node
  | [] => []
  | t :: ts => encode t :: encodeAll ts
termination_by structural ts => ts

/-- The nodes of type parameters. -/
def encodeTypeParams : List TypeParam → List Node
  | [] => []
  | t :: ts => encodeTypeParam t :: encodeTypeParams ts
termination_by structural ts => ts

/-- The node of a type parameter. -/
def encodeTypeParam : TypeParam → Node
  | ⟨name, bound⟩ => mapNode ([("name", textNode name)] ++ typeEntry "extends" bound (encode bound))
termination_by structural t => t

/-- The node of a signature. -/
def encodeSignature : Signature → Node
  | .absent => mapNode [("params", listNode [])]
  | .mk ts ps r =>
    mapNode (listEntry "typeParams" (encodeTypeParams ts) ++
      [("params", listNode (encodeParams ps))] ++ typeEntry "returns" r (encode r))
termination_by structural s => s

/-- The nodes of parameters. -/
def encodeParams : List Param → List Node
  | [] => []
  | p :: ps => encodeParam p :: encodeParams ps
termination_by structural ps => ps

/-- The node of a parameter. -/
def encodeParam : Param → Node
  | ⟨pattern, type⟩ =>
    let (inner, isRest) := withoutDots pattern
    let (name, isOptional) := parameterName inner
    mapNode ([("name", textNode name)] ++ typeEntry "type" type (encode type)
      ++ trueEntry "optional" isOptional ++ trueEntry "rest" isRest)
termination_by structural p => p

/-- Members, written. -/
def encodeMembers : List Member → List MemberNode
  | [] => []
  | m :: ms => encodeMember m :: encodeMembers ms
termination_by structural ms => ms

/-- A member, written. -/
def encodeMember : Member → MemberNode
  | .property k t isOptional isReadonly =>
    .named ((if isReadonly then "readonly " else "") ++ memberKey k isOptional) (encode t)
  | .method k isOptional s =>
    .named (memberKey k isOptional) (mapNode [("method", encodeSignature s)])
  | .call s => .call (encodeSignature s)
  | .construct s => .construct (encodeSignature s)
  | .index p k t isReadonly =>
    .index (mapNode ([("param", textNode p), ("key", encode k), ("type", encode t)]
      ++ trueEntry "readonly" isReadonly))
termination_by structural m => m

end

end StructuralTyping.Yaml
