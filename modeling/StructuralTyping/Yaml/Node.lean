import StructuralTyping.Yaml.Scalar

/-!
# Document trees

A document is a tree of mappings, sequences and scalars.  A node may be named
by an anchor, and an alias stands for an anchored node.  The alias holds the
number of its target, counted over all anchored nodes in the order in which
they are opened, so that a document is finite although its aliases may form
cycles.

`Node.link` gives each alias its target: the node with its anchor that was
opened last, which may contain the alias or be the alias itself.
-/

namespace StructuralTyping.Yaml

/-- What every node carries: its line, its tag, its anchor, and whether it is
written in brackets. -/
structure Info where
  line : Int := 0
  tag? : Option Tag := none
  anchor : String := ""
  flow : Bool := false
  deriving DecidableEq, Repr, Inhabited

/-- A node of a document.  A scalar may hold any bytes, since literals are written as
scalars.  `unknown` is a node that is none of the others and may still have a text. -/
inductive Node where
  | document (info : Info) (children : List Node)
  | sequence (info : Info) (items : List Node)
  | mapping (info : Info) (entries : List (Node × Node))
  | scalar (info : Info) (text : ByteText)
  | alias (info : Info) (name : String) (target? : Option Nat)
  | unknown (info : Info) (text : String)

instance : Inhabited Node := ⟨.unknown {} ""⟩

namespace Node

/-- What a node carries. -/
def info : Node → Info
  | .document i _ => i
  | .sequence i _ => i
  | .mapping i _ => i
  | .scalar i _ => i
  | .alias i _ _ => i
  | .unknown i _ => i

/-- The line where a node starts. -/
def line (n : Node) : Int := n.info.line

/-- The text of a scalar or of an unknown node, or the name of an alias.  Other
nodes have none. -/
def text : Node → ByteText
  | .scalar _ s => s
  | .alias _ s _ => s
  | .unknown _ s => s
  | _ => ""

/-- The text of a node as a name, which is valid text. -/
def value (n : Node) : String := n.text.shown

@[simp] theorem value_scalar (i : Info) (s : ByteText) : (scalar i s).value = s.shown := rfl

/-- An unknown node that carries nothing at all.  It counts as a null. -/
def isVoid : Node → Bool
  | .unknown i s => i == {} && s.isEmpty
  | _ => false

/-- The tag of a node by itself: the one that is given, or the one of its kind. -/
def ownTag? (n : Node) : Option Tag :=
  n.info.tag?.or
    (match n with
    | .sequence _ _ => some .sequence
    | .mapping _ _ => some .mapping
    | .scalar _ s => some (Scalar.ofPlain true s.shown).tag
    | n => if n.isVoid then some .null else none)

/-- A scalar that is null. -/
def isNullScalar : Node → Bool
  | .scalar i s => (Node.scalar i s).ownTag? == some .null
  | _ => false

/-- A scalar without text. -/
def isBlankScalar : Node → Bool
  | .scalar _ s => s.isEmpty
  | _ => false

/-! ## Depth -/

mutual

/-- The number of levels of a node. -/
def depth : Node → Nat
  | .document _ cs => depths cs + 1
  | .sequence _ cs => depths cs + 1
  | .mapping _ es => entryDepths es + 1
  | .scalar _ _ => 1
  | .alias _ _ _ => 1
  | .unknown _ _ => 1
termination_by structural n => n

/-- The greatest number of levels. -/
def depths : List Node → Nat
  | [] => 0
  | n :: ns => max n.depth (depths ns)
termination_by structural ns => ns

/-- The greatest number of levels of entries. -/
def entryDepths : List (Node × Node) → Nat
  | [] => 0
  | e :: es => max (entryDepth e) (entryDepths es)
termination_by structural es => es

/-- The number of levels of an entry. -/
def entryDepth : Node × Node → Nat
  | (k, v) => max k.depth v.depth
termination_by structural e => e

end

/-! ## Anchors -/

/-- The node itself if it has an anchor. -/
def ifAnchored (n : Node) : List Node := if n.info.anchor.isEmpty then [] else [n]

mutual

/-- The anchored nodes in the order in which they are opened. -/
def anchored : Node → List Node
  | .document i cs => ifAnchored (.document i cs) ++ anchoredIn cs
  | .sequence i cs => ifAnchored (.sequence i cs) ++ anchoredIn cs
  | .mapping i es => ifAnchored (.mapping i es) ++ anchoredInEntries es
  | .scalar i s => ifAnchored (.scalar i s)
  | .alias i s t => ifAnchored (.alias i s t)
  | .unknown i s => ifAnchored (.unknown i s)
termination_by structural n => n

/-- The anchored nodes in a list. -/
def anchoredIn : List Node → List Node
  | [] => []
  | n :: ns => n.anchored ++ anchoredIn ns
termination_by structural ns => ns

/-- The anchored nodes in entries. -/
def anchoredInEntries : List (Node × Node) → List Node
  | [] => []
  | e :: es => anchoredInEntry e ++ anchoredInEntries es
termination_by structural es => es

/-- The anchored nodes in an entry. -/
def anchoredInEntry : Node × Node → List Node
  | (k, v) => k.anchored ++ v.anchored
termination_by structural e => e

end

/-- The anchors opened so far with their numbers, the last one first. -/
structure Opened where
  numbers : List (String × Nat) := []
  /-- An alias had no anchor to refer to. -/
  isLoose : Bool := false

namespace Opened

/-- One more node is opened. -/
def add (o : Opened) (i : Info) : Opened :=
  if i.anchor.isEmpty then o else { o with numbers := (i.anchor, o.numbers.length) :: o.numbers }

/-- The number of the node that an alias refers to. -/
def find? (o : Opened) (name : String) : Option Nat := o.numbers.lookup name

/-- An alias is met. -/
def use (o : Opened) (name : String) : Opened :=
  { o with isLoose := o.isLoose || (o.find? name).isNone }

end Opened

mutual

/-- Gives each alias its target. -/
def link (o : Opened) : Node → Node × Opened
  | .document i cs => let (cs, o) := linkAll (o.add i) cs; (.document i cs, o)
  | .sequence i cs => let (cs, o) := linkAll (o.add i) cs; (.sequence i cs, o)
  | .mapping i es => let (es, o) := linkEntries (o.add i) es; (.mapping i es, o)
  | .scalar i s => (.scalar i s, o.add i)
  | .alias i s _ => let o := o.add i; (.alias i s (o.find? s), o.use s)
  | .unknown i s => (.unknown i s, o.add i)
termination_by structural n => n

/-- Gives the aliases in a list their targets. -/
def linkAll (o : Opened) : List Node → List Node × Opened
  | [] => ([], o)
  | n :: ns =>
    let (n, o) := n.link o
    let (ns, o) := linkAll o ns
    (n :: ns, o)
termination_by structural ns => ns

/-- Gives the aliases in entries their targets. -/
def linkEntries (o : Opened) : List (Node × Node) → List (Node × Node) × Opened
  | [] => ([], o)
  | e :: es =>
    let (e, o) := linkEntry o e
    let (es, o) := linkEntries o es
    (e :: es, o)
termination_by structural es => es

/-- Gives the aliases in an entry their targets. -/
def linkEntry (o : Opened) : Node × Node → (Node × Node) × Opened
  | (k, v) =>
    let (k, o) := k.link o
    let (v, o) := v.link o
    ((k, v), o)
termination_by structural e => e

end

end Node

/-! ## Documents -/

/-- A tree with the anchored nodes that its aliases stand for. -/
structure Document where
  root : Node
  anchors : List Node

namespace Document

/-- The document of a tree whose aliases have no targets yet. -/
def ofTree (n : Node) : Document :=
  let root := (n.link {}).1
  ⟨root, root.anchored⟩

end Document

/-- The anchored nodes that aliases stand for. -/
abbrev Anchors := List Node

namespace Anchors

/-- The node that an alias refers to.  It may be an alias again. -/
def target? (A : Anchors) : Node → Option Node
  | .alias _ _ t => t.bind (A[·]?)
  | _ => none

/-- The node at the end of a chain of at most so many aliases. -/
def followWithin? (A : Anchors) : Nat → Node → Option Node
  | 0, .alias _ _ _ => none
  | fuel + 1, .alias i s t => (A.target? (.alias i s t)).bind (A.followWithin? fuel)
  | _, n => some n

/-- The node that an alias stands for.  Other nodes stand for themselves.  A chain of
aliases passes each anchor once. -/
def follow? (A : Anchors) (n : Node) : Option Node := A.followWithin? (A.length + 1) n

/-- A scalar wanted as a value of some type. -/
def wantedScalar (f : Scalar → Wanted α) : Node → Wanted α
  | .scalar i s =>
    match Scalar.read? i.tag? s.shown with
    | some v => f v
    | none => .failed
  | n => if n.isVoid then f .null else .failed

/-- A node wanted as a value of some type, read through an alias. -/
def wanted (A : Anchors) (f : Scalar → Wanted α) (n : Node) : Wanted α :=
  match A.follow? n with
  | some m => wantedScalar f m
  | none => .failed

/-- A node wanted as text, read through an alias. -/
def wantedText (A : Anchors) (n : Node) : Wanted String :=
  match A.follow? n with
  | some (.scalar i s) => wantedScalar (Scalar.toText s.shown) (.scalar i s)
  | some m => wantedScalar (Scalar.toText "") m
  | none => .failed

/-- The texts of nodes.  A null is passed over, and anything else fails. -/
def textsOf? (A : Anchors) : List Node → Option (List String)
  | [] => some []
  | n :: ns =>
    match A.wantedText n with
    | .found s => (A.textsOf? ns).map (s :: ·)
    | .unset => A.textsOf? ns
    | .failed => none

/-- A node wanted as a list of texts. -/
def wantedTexts (A : Anchors) (n : Node) : Wanted (List String) :=
  match A.follow? n with
  | some (.sequence _ items) =>
    match A.textsOf? items with
    | some ss => .found ss
    | none => .failed
  | some m => wantedScalar (fun v => if v == .null then .unset else .failed) m
  | none => .failed

end Anchors

end StructuralTyping.Yaml
