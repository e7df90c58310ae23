import StructuralTyping.Checker.Infer
import StructuralTyping.Yaml.Tree
import StructuralTyping.Yaml.Decode

/-!
# Configuration

A configuration sets the limits of the checker, turns argument checking on, and
declares globals.  It is written as a mapping, and everything in it may be left
out.  Unknown keys are ignored.  The key `<<` merges other mappings in.
-/

namespace StructuralTyping

open Yaml (Node Anchors Wanted Scalar)

/-- The settings of the checker. -/
structure Config where
  /-- Where the configuration was read from, empty for the default. -/
  path : String := ""
  /-- The depth limit of assignability. -/
  maxDepth : Int := defaultMaxDepth
  /-- The depth limit of expressions. -/
  maxExpressionDepth : Int := defaultMaxExpressionDepth
  /-- Arguments are checked against their parameters. -/
  checkArguments : Bool := false
  /-- Names with a fixed type. -/
  globals : List (String × Ty) := []

/-- Why a text is no configuration. -/
inductive ConfigProblem where
  | malformed
  | negativeDepth
  | negativeExpressionDepth
  | namelessGlobal
  | badGlobal (name : String) (problem : Yaml.Problem)

/-- The wording of a problem with the configuration at a path. -/
def ConfigProblem.text (path : String) : ConfigProblem → String
  | .malformed => "parsing " ++ path ++ ": yaml"
  | .negativeDepth => path ++ ": maxDepth must not be negative"
  | .negativeExpressionDepth => path ++ ": maxExpressionDepth must not be negative"
  | .namelessGlobal => path ++ ": globals: empty name"
  | .badGlobal name p => path ++ ": globals: " ++ name ++ ": " ++ p.text

/-! ## Integers -/

/-- The least signed integer of 64 bits. -/
def leastSigned64 : Int := -Yaml.signedBound

/-- The integer part of a number.  What lies below the least integer of 64 bits,
or at the first one above the greatest, becomes the least one.  What lies above
is refused. -/
def integerPart : Binary64 → Wanted Int
  | .nan => .failed
  | .infinite false => .failed
  | .infinite true => .found leastSigned64
  | x =>
    match x.truncate? with
    | none => .failed
    | some i =>
      if Yaml.signedBound < i then .failed
      else if Yaml.inSigned64 i then .found i
      else .found leastSigned64

/-- A scalar wanted as an integer. -/
def scalarInteger : Scalar → Wanted Int
  | .null => .unset
  | .int i => if Yaml.inSigned64 i then .found i else .failed
  | .float x => integerPart x
  | _ => .failed

/-! ## Reading -/

namespace Config

/-- Nodes of one kind with one text. -/
def sameKey : Node → Node → Bool
  | .scalar _ s, .scalar _ t => s == t
  | .alias _ s _, .alias _ t _ => s == t
  | .sequence _ _, .sequence _ _ => true
  | .mapping _ _, .mapping _ _ => true
  | _, _ => false

/-- No key occurs twice. -/
def keysDiffer : List (Node × Node) → Bool
  | [] => true
  | (k, _) :: es => !(es.any fun e => sameKey k e.1) && keysDiffer es

/-- A key that takes the entries of other mappings in. -/
def isMergeKey : Node → Bool
  | .scalar i s => s == "<<" && (i.tag? == none || i.tag? == some .merge)
  | _ => false

/-- Entries by the texts of their keys.  A null key is passed over.  None when a
key has no text. -/
def byKey? (A : Anchors) : List (Node × Node) → Option (List (String × Node))
  | [] => some []
  | (k, v) :: es =>
    match A.wantedText k, byKey? A es with
    | .found s, some more => some ((s, v) :: more)
    | .unset, some more => some more
    | _, _ => none

/-- Adds the entries with a key that is not there yet. -/
def addEntries (own more : List (String × Node)) : List (String × Node) :=
  own ++ more.filter fun e => (own.lookup e.1).isNone

/-- The mappings that the value of a merging key names. -/
def mergeSources : Node → List Node
  | .sequence _ ns => ns
  | n => [n]

/-- The entries of a mapping by the texts of their keys, its own ones first and
then those it merges in.  None when a key occurs twice in one mapping or has no
text, or when something else than a mapping is merged in. -/
def entriesWithin? (A : Anchors) : Nat → Node → Option (List (String × Node))
  | 0, _ => none
  | fuel + 1, n =>
    match A.follow? n with
    | some (.mapping _ es) =>
      if keysDiffer es then
        let sources := ((es.find? fun e => isMergeKey e.1).map fun e => mergeSources e.2).getD []
        sources.foldl (fun found n => do
          let own ← found
          let more ← entriesWithin? A fuel n
          some (addEntries own more)) (byKey? A (es.filter fun e => !isMergeKey e.1))
      else none
    | _ => none

/-- The entries of a mapping.  A mapping that merges itself in has none. -/
def entries? (A : Anchors) (n : Node) : Option (List (String × Node)) :=
  entriesWithin? A (A.decodeFuel n) n

/-- The node is a null scalar, perhaps through an alias. -/
def isNull (A : Anchors) (n : Node) : Bool :=
  match A.follow? n with
  | some m => m.isNullScalar
  | none => false

/-- The value of a key in a mapping. -/
def setting (entries : List (String × Node)) (key : String) (default : α) (f : Node → Wanted α) :
    Option α :=
  match entries.lookup key with
  | none => some default
  | some n => (f n).orDefault default

/-- The globals before their types are decoded. -/
def globalNodes? (A : Anchors) : Option Node → Option (List (String × Node))
  | none => some []
  | some n => if isNull A n then some [] else entries? A n

/-- The types of globals in order. -/
def decodeGlobals (A : Anchors) : List (String × Node) → Except ConfigProblem (List (String × Ty))
  | [] => .ok []
  | (name, n) :: rest =>
    if name.isEmpty then .error .namelessGlobal
    else
      match A.decode {} n with
      | .error p => .error (.badGlobal name p)
      | .ok t => (decodeGlobals A rest).map ((name, t) :: ·)

/-- The settings of a mapping before the globals are decoded.  None when one of
them has the wrong form. -/
def settings? (path : String) (A : Anchors) (entries : List (String × Node)) :
    Option (Config × List (String × Node)) := do
  let depth ← setting entries "maxDepth" (defaultMaxDepth : Int) (A.wanted scalarInteger)
  let expressionDepth ←
    setting entries "maxExpressionDepth" (defaultMaxExpressionDepth : Int) (A.wanted scalarInteger)
  let checkArguments ← setting entries "checkArguments" false (A.wanted Scalar.toBool)
  let globals ← globalNodes? A (entries.lookup "globals")
  some ({ path, maxDepth := depth, maxExpressionDepth := expressionDepth, checkArguments }, globals)

/-- Checks the limits and decodes the globals. -/
def complete (A : Anchors) (c : Config) (globals : List (String × Node)) :
    Except ConfigProblem Config :=
  if c.maxDepth < 0 then .error .negativeDepth
  else if c.maxExpressionDepth < 0 then .error .negativeExpressionDepth
  else (decodeGlobals A globals).map fun globals => { c with globals }

/-- Reads a configuration.  A text without a document, or with a null one, is all
defaults. -/
def read (path content : String) : Except ConfigProblem Config :=
  match Yaml.readDocument content with
  | none => .error .malformed
  | some none => .ok { path }
  | some (some d) =>
    let entries? := if d.root.isNullScalar then some [] else entries? d.anchors d.root
    match entries?.bind (settings? path d.anchors) with
    | none => .error .malformed
    | some (c, globals) => c.complete d.anchors globals

/-- The options of the checker. -/
def options (c : Config) : Options :=
  ⟨c.maxDepth, c.maxExpressionDepth, c.checkArguments, c.globals⟩

end Config

end StructuralTyping
