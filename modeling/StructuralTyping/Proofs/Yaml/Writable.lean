import StructuralTyping.Proofs.Equal.Height
import StructuralTyping.Proofs.Number.Rounding
import StructuralTyping.Text.Space
import StructuralTyping.Yaml.Encode

/-!
# Types that a document can hold

Names are written together with marks: brackets around a computed key, a question
mark after an optional one, `readonly` before it, dots before a rest parameter, and
a point inside a variant.  `Ty.Writable` says which types are read back in spite of
that.  Names do not look like names with marks, annotations are there where a
document has no way to leave them out, and the keys of one shape differ.

The conditions are about one layer at a time, `Ty.WritableLayer`.
-/

namespace StructuralTyping

open Yaml (memberKey)

/-! ## Names -/

/-- The text has no white space at its ends. -/
def Trimmed (s : String) : Prop :=
  (∀ c ∈ s.toList.head?, isSpace c = false) ∧ ∀ c ∈ s.toList.getLast?, isSpace c = false

/-- A name of a member that does not look like one with marks. -/
structure IsMemberName (name : String) : Prop where
  nonempty : name ≠ ""
  trimmed : Trimmed name
  unmarked : ¬ "?".toList <:+ name.toList
  unprefixed : ¬ "readonly ".toList <+: name.toList
  unbracketed : ∀ inner : String, name ≠ "[" ++ inner ++ "]"

/-- A name of a parameter that does not look like one with marks. -/
structure IsParamName (name : String) : Prop where
  nonempty : name ≠ ""
  undotted : ¬ "...".toList <+: name.toList
  unmarked : ¬ "?".toList <:+ name.toList

/-- The names that stand for a fixed type. -/
def fixedNames : List String := "this" :: "RegExp" :: Keyword.known.map Keyword.text

/-- A name of a type parameter that hides no fixed name. -/
structure IsTypeParamName (name : String) : Prop where
  nonempty : name ≠ ""
  free : name ∉ fixedNames

/-! ## Members and signatures -/

/-- A computed name is told apart by its brackets. -/
def PropKey.Writable (k : PropKey) : Prop := k.computed = true ∨ IsMemberName k.name

/-- The pattern is a name, or a name after dots. -/
def Pattern.Writable : Pattern → Prop
  | .ident name _ => IsParamName name
  | .rest (.ident name isOptional) => isOptional = false ∧ IsParamName name
  | _ => False

/-- The signature is there, and so is its result. -/
def Signature.Writable : Signature → Prop
  | .absent => False
  | .mk ts ps r =>
    (∀ t ∈ ts, IsTypeParamName t.name) ∧ (∀ p ∈ ps, p.pattern.Writable) ∧ r.isMissing = false

/-- The member has a key that is read back, and what it needs is there. -/
def Member.Writable : Member → Prop
  | .property k _ _ _ => k.Writable
  | .method k _ s => k.Writable ∧ s.Writable
  | .call s => s.Writable
  | .construct s => s.Writable
  | .index _ k t _ => k.isMissing = false ∧ t.isMissing = false

/-- The key of a member as it is written. -/
def Member.writtenKey? : Member → Option String
  | .property k _ isOptional isReadonly =>
    some ((if isReadonly then "readonly " else "") ++ memberKey k isOptional)
  | .method k isOptional _ => some (memberKey k isOptional)
  | _ => none

/-- All members can be written, and no two keys are the same. -/
structure WritableMembers (ms : List Member) : Prop where
  each : ∀ m ∈ ms, m.Writable
  distinct : (ms.filterMap (·.writtenKey?)).Nodup

/-! ## Types -/

/-- Every number of the literal is finite. -/
def Literal.Writable : Literal → Prop
  | .number x => x.IsFinite
  | _ => True

/-- The outermost layer can be written. -/
def Ty.WritableLayer : Ty → Prop
  | .keyword k => k ∈ Keyword.known
  | .literal l => l.Writable
  | .array e => e.isMissing = false
  | .tuple ts | .union ts | .inter ts => ∀ t ∈ ts, t.isMissing = false
  | .object ms => WritableMembers ms
  | .interface _ ts ms bs =>
    (∀ t ∈ ts, IsTypeParamName t.name) ∧ WritableMembers ms ∧ ∀ b ∈ bs, b.isMissing = false
  | .classType _ ts ms _ => (∀ t ∈ ts, IsTypeParamName t.name) ∧ WritableMembers ms
  | .function s | .ctor s => s.Writable
  | .variant e _ => '.' ∉ e.toList
  | .indexed o i => o.isMissing = false ∧ i.isMissing = false
  | .enum _ _ _ | .param _ _ | .this | .other _ | .regExp => True
  | .missing | .named _ => False

/-- All layers can be written.  A part that may be left out may be missing. -/
inductive Ty.Writable : Ty → Prop where
  | intro {t : Ty} (hlayer : t.WritableLayer)
      (hparts : ∀ x ∈ t.parts, x.isMissing = false → x.Writable) : t.Writable

namespace Ty.Writable

variable {t x : Ty}

theorem layer : t.Writable → t.WritableLayer
  | .intro hlayer _ => hlayer

theorem part : t.Writable → x ∈ t.parts → x.isMissing = false → x.Writable
  | .intro _ hparts, hx, hmissing => hparts x hx hmissing

end Ty.Writable

end StructuralTyping
