import StructuralTyping.Text.Pieces
import StructuralTyping.Yaml.Node
import StructuralTyping.Yaml.TokenQueue

/-!
# Trees of tokens

The grammar of a document.  A node is an alias, a scalar, a sequence or a
mapping, perhaps with an anchor and a tag in front.  A node that is left out is a
null.  What follows the first document of a text is not looked at, except for the
few tokens that are read ahead.
-/

namespace StructuralTyping.Yaml

/-- Reading a tree takes tokens from a queue and may fail. -/
abbrev TreeReader := StateT TokenQueue Option

namespace TreeReader

/-- The next token.  Every reading of a token takes a character or stands at the end
of the text, so the length of the text bounds the steps. -/
def next : TreeReader Token := fun q => do
  let q ← q.settle? (q.cursor.rest.length + 8)
  let t ← q.pending.head?
  some (t, q)

/-- Takes the next token. -/
def skip : TreeReader Unit := modify TokenQueue.take

end TreeReader

open TreeReader

/-! ## Nodes -/

/-- The line of a token as nodes count it, from one. -/
def Token.nodeLine (t : Token) : Int := (t.line : Int) + 1

/-- The null of a node that is left out. -/
def absentNode (t : Token) : Node := .scalar { line := t.nodeLine, tag? := some .null } ""

/-- The handles of tags with the beginnings that they stand for. -/
abbrev TagHandles := List (String × String)

/-- The handles that every document has. -/
def defaultHandles : TagHandles := [("!", "!"), ("!!", "tag:yaml.org,2002:")]

/-- What stands in front of a node. -/
structure Properties where
  anchor : String := ""
  /-- The full text of the tag, empty when there is none. -/
  tag : String := ""

/-- The full text of a tag.  None when its handle is unknown. -/
def TagHandles.fullTag? (H : TagHandles) (handle suffix : String) : Option String :=
  if handle.isEmpty then some suffix
  else
    match H.lookup handle with
    | some beginning => if (beginning ++ suffix).isEmpty then none else some (beginning ++ suffix)
    | none => none

/-- The tag that is given in front of a node. -/
def Properties.tag? (p : Properties) : Option Tag :=
  match afterBeginning? "tag:yaml.org,2002:" p.tag with
  | some short => Tag.ofText? ("!!" ++ short)
  | none => Tag.ofText? p.tag

/-- What a node carries. -/
def Properties.info (p : Properties) (t : Token) (flow : Bool) : Info :=
  { line := t.nodeLine, tag? := p.tag?, anchor := p.anchor, flow }

/-- A scalar.  Without a tag a plain one is what its text says, and any other is
text. -/
def Properties.scalarNode (p : Properties) (t : Token) (text : String) (plain : Bool) : Node :=
  let own : Tag :=
    if !plain then .text else if text == "<<" then .merge else (Scalar.ofPlain true text).tag
  let i := p.info t false
  .scalar { i with tag? := some (i.tag?.getD own) } text

/-- Reads a tag, if one follows. -/
def readTagProperty (H : TagHandles) (p : Properties) : TreeReader Properties := do
  match (← next).kind with
  | .tag handle suffix =>
    let tag ← H.fullTag? handle suffix
    skip
    return { p with tag }
  | _ => return p

/-- Reads an anchor, if one follows. -/
def readAnchorProperty (p : Properties) : TreeReader Properties := do
  match (← next).kind with
  | .anchor anchor =>
    skip
    return { p with anchor }
  | _ => return p

/-- Reads an anchor and a tag in either order. -/
def readProperties (H : TagHandles) : TreeReader Properties := do
  match (← next).kind with
  | .anchor _ => readTagProperty H (← readAnchorProperty {})
  | _ => readAnchorProperty (← readTagProperty H {})

/-! ## The grammar -/

mutual

/-- Reads a node.  `block` says that it may be a block, and `dashes` that it may be
a sequence whose dashes stand in the column of the key before it. -/
def readNode (H : TagHandles) : Nat → Bool → Bool → TreeReader Node
  | 0, _, _ => failure
  | fuel + 1, block, dashes => do
    let first ← next
    match first.kind with
    | .alias name =>
      skip
      return .alias { line := first.nodeLine } name none
    | _ =>
      let p ← readProperties H
      let absent : TreeReader Node :=
        if p.anchor.isEmpty && p.tag.isEmpty then failure else return p.scalarNode first "" true
      match (← next).kind with
      | .scalar text plain =>
        skip
        return p.scalarNode first text plain
      | .flowSequenceStart =>
        skip
        return .sequence (p.info first true) (← readFlowItems H fuel true)
      | .flowMappingStart =>
        skip
        return .mapping (p.info first true) (← readFlowEntries H fuel true)
      | .blockEntry =>
        if dashes then return .sequence (p.info first false) (← readDashes H fuel) else absent
      | .blockSequenceStart =>
        if block then
          skip
          return .sequence (p.info first false) (← readBlockItems H fuel)
        else absent
      | .blockMappingStart =>
        if block then
          skip
          return .mapping (p.info first false) (← readBlockEntries H fuel)
        else absent
      | _ => absent
termination_by structural fuel => fuel

/-- Reads the items of a block sequence up to its end. -/
def readBlockItems (H : TagHandles) : Nat → TreeReader (List Node)
  | 0 => failure
  | fuel + 1 => do
    let t ← next
    match t.kind with
    | .blockEntry =>
      skip
      let isAbsent :=
        match (← next).kind with
        | .blockEntry | .blockEnd => true
        | _ => false
      let n ← if isAbsent then pure (absentNode t) else readNode H fuel true false
      return n :: (← readBlockItems H fuel)
    | .blockEnd =>
      skip
      return []
    | _ => failure
termination_by structural fuel => fuel

/-- Reads the items of a sequence whose dashes stand in the column of a key.  It ends
with its last item. -/
def readDashes (H : TagHandles) : Nat → TreeReader (List Node)
  | 0 => failure
  | fuel + 1 => do
    let t ← next
    match t.kind with
    | .blockEntry =>
      skip
      let kind := (← next).kind
      let n ←
        if kind == .blockEntry || kind.endsBlockPart then pure (absentNode t)
        else readNode H fuel true false
      return n :: (← readDashes H fuel)
    | _ => return []
termination_by structural fuel => fuel

/-- Reads the entries of a block mapping up to its end. -/
def readBlockEntries (H : TagHandles) : Nat → TreeReader (List (Node × Node))
  | 0 => failure
  | fuel + 1 => do
    let t ← next
    match t.kind with
    | .key =>
      skip
      let k ← if (← next).kind.endsBlockPart then pure (absentNode t) else readNode H fuel true true
      let v ← readBlockValue H fuel
      return (k, v) :: (← readBlockEntries H fuel)
    | .blockEnd =>
      skip
      return []
    | _ => failure
termination_by structural fuel => fuel

/-- Reads the value of a key in a block mapping. -/
def readBlockValue (H : TagHandles) : Nat → TreeReader Node
  | 0 => failure
  | fuel + 1 => do
    let t ← next
    match t.kind with
    | .value =>
      skip
      if (← next).kind.endsBlockPart then return absentNode t else readNode H fuel true true
    | _ => return absentNode t
termination_by structural fuel => fuel

/-- Reads the items of a sequence in brackets up to the closing one. -/
def readFlowItems (H : TagHandles) : Nat → Bool → TreeReader (List Node)
  | 0, _ => failure
  | fuel + 1, isFirst => do
    match (← next).kind with
    | .flowSequenceEnd =>
      skip
      return []
    | kind =>
      if !isFirst then
        if kind == .flowEntry then skip else failure
      let t ← next
      match t.kind with
      | .key =>
        skip
        let e ← readFlowPair H fuel
        return .mapping { line := t.nodeLine, flow := true } [e] :: (← readFlowItems H fuel false)
      | .flowSequenceEnd =>
        skip
        return []
      | _ =>
        let n ← readNode H fuel false false
        return n :: (← readFlowItems H fuel false)
termination_by structural fuel => fuel

/-- Reads a key and a value that stand in a sequence without brackets of their own.
A key that is left out takes the mark behind it along. -/
def readFlowPair (H : TagHandles) : Nat → TreeReader (Node × Node)
  | 0 => failure
  | fuel + 1 => do
    let t ← next
    let k ←
      match t.kind with
      | .value | .flowEntry | .flowSequenceEnd => do
        skip
        pure (absentNode t)
      | _ => readNode H fuel false false
    let t ← next
    match t.kind with
    | .value =>
      skip
      match (← next).kind with
      | .flowEntry | .flowSequenceEnd => return (k, absentNode t)
      | _ => return (k, ← readNode H fuel false false)
    | _ => return (k, absentNode t)
termination_by structural fuel => fuel

/-- Reads the entries of a mapping in brackets up to the closing one.  A key without
a mark has no value. -/
def readFlowEntries (H : TagHandles) : Nat → Bool → TreeReader (List (Node × Node))
  | 0, _ => failure
  | fuel + 1, isFirst => do
    match (← next).kind with
    | .flowMappingEnd =>
      skip
      return []
    | kind =>
      if !isFirst then
        if kind == .flowEntry then skip else failure
      match (← next).kind with
      | .key =>
        skip
        let t ← next
        let k ←
          match t.kind with
          | .value | .flowEntry | .flowMappingEnd => pure (absentNode t)
          | _ => readNode H fuel false false
        let v ← readFlowValue H fuel
        return (k, v) :: (← readFlowEntries H fuel false)
      | .flowMappingEnd =>
        skip
        return []
      | _ =>
        let k ← readNode H fuel false false
        let v := absentNode (← next)
        return (k, v) :: (← readFlowEntries H fuel false)
termination_by structural fuel => fuel

/-- Reads the value of a key in a mapping in brackets. -/
def readFlowValue (H : TagHandles) : Nat → TreeReader Node
  | 0 => failure
  | fuel + 1 => do
    let t ← next
    match t.kind with
    | .value =>
      skip
      let t ← next
      match t.kind with
      | .flowEntry | .flowMappingEnd => return absentNode t
      | _ => readNode H fuel false false
    | _ => return absentNode t
termination_by structural fuel => fuel

end

/-! ## Documents -/

/-- Reads directives: at most one version, which is 1.1, and handles that differ. -/
def readDirectives : Nat → Bool → TagHandles → TreeReader TagHandles
  | 0, _, _ => failure
  | fuel + 1, versioned, H => do
    match (← next).kind with
    | .versionDirective major minor =>
      if versioned || major != 1 || minor != 1 then failure
      else
        skip
        readDirectives fuel true H
    | .tagDirective handle text =>
      if (H.lookup handle).isSome then failure
      else
        skip
        readDirectives fuel versioned ((handle, text) :: H)
    | _ => return H

/-- Reads the first document of a text, if there is one. -/
def readRoot (fuel : Nat) : TreeReader (Option Node) := do
  let _ ← next
  skip
  match (← next).kind with
  | .streamEnd => return none
  | kind =>
    let root ←
      if kind.endsDocument && kind != .documentEnd then
        let H ← readDirectives fuel false []
        if (← next).kind != .documentStart then failure
        skip
        let t ← next
        if t.kind.endsDocument then pure (absentNode t)
        else readNode (H ++ defaultHandles) fuel true false
      else readNode defaultHandles fuel true false
    let _ ← next
    return some root

/-- Reads a document.  None when the text is malformed or an alias has no
anchor, and no document when the text holds none. -/
def readDocument (s : String) : Option (Option Document) :=
  let cs := dropByteOrderMark s.toList
  if cs.all isReadable then
    ((readRoot (16 * cs.length + 64)).run (.ofText cs)).bind fun (root?, _) =>
      match root? with
      | none => some none
      | some root =>
        let (linked, opened) := root.link {}
        if opened.isLoose then none else some (some ⟨linked, linked.anchored⟩)
  else none

end StructuralTyping.Yaml
