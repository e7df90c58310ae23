import StructuralTyping.Proofs.Equal.Alike
import StructuralTyping.Ty.Declare

/-!
# Declared types are one layer

Declaring the parts of a type leaves one layer over names and leaves, and so does
every declaration that is made on the way.  A table of definitions is therefore a
graph, whose nodes are its names (`Decls.isFlat_ofDefinitions`).
-/

namespace StructuralTyping

/-- All types are names or leaves. -/
abbrev AllLeaves (ts : List Ty) : Prop := ∀ t ∈ ts, t.isLeaf = true

theorem allLeaves_nil : AllLeaves [] := fun _ h => nomatch h

/-- Every declaration is one layer over names and leaves. -/
def Decls.IsFlat (D : Decls) : Prop := ∀ e ∈ D.entries, AllLeaves e.2.parts

theorem Decls.IsFlat.add {D : Decls} (h : D.IsFlat) (name : TypeName) {t : Ty}
    (ht : AllLeaves t.parts) :
    (D.add name t).IsFlat :=
  List.forall_mem_cons.2 ⟨ht, h⟩

/-- A declared name is one layer over names and leaves. -/
theorem Decls.IsFlat.allLeaves_head {D : Decls} (h : D.IsFlat) (name : TypeName) :
    AllLeaves (D.head (.named name)).parts := by
  rw [head, find?]
  cases hfind : D.entries.lookup name with
  | none => exact allLeaves_nil
  | some t =>
    obtain ⟨l₁, l₂, heq, -⟩ := List.lookup_eq_some_iff.1 hfind
    exact h (name, t) (heq ▸ by simp)

/-! ## Work that keeps declarations flat -/

/-- The work leaves declarations flat and gives a result that satisfies `Q`. -/
def KeepsFlat {α : Type} (Q : α → Prop) (work : Declaring α) : Prop :=
  ∀ D : Decls, D.IsFlat → (work.run D).2.IsFlat ∧ Q (work.run D).1

namespace KeepsFlat

variable {α β : Type} {Q : α → Prop} {P : β → Prop}

theorem pure {a : α} (ha : Q a) : KeepsFlat Q (Pure.pure a) := fun _ h => ⟨h, ha⟩

theorem bind {work : Declaring α} {next : α → Declaring β} (h : KeepsFlat Q work)
    (hnext : ∀ a, Q a → KeepsFlat P (next a)) : KeepsFlat P (work >>= next) := by
  intro D hD
  obtain ⟨hflat, hQ⟩ := h D hD
  exact hnext _ hQ _ hflat

/-- A layer over leaves becomes a leaf itself when it is declared. -/
theorem declareNode {t : Ty} (ht : AllLeaves t.parts) :
    KeepsFlat (fun s : Ty => s.isLeaf = true) t.declareNode := by
  intro D hD
  unfold Ty.declareNode
  split
  · next hleaf => exact ⟨hD, hleaf⟩
  · exact ⟨hD.add _ ht, rfl⟩

end KeepsFlat

mutual

theorem Ty.declareParts_keepsFlat :
    ∀ t : Ty, KeepsFlat (fun s : Ty => AllLeaves s.parts) t.declareParts
  | .missing | .keyword _ | .literal _ | .enum _ _ _ | .variant _ _ | .this | .other _ | .regExp
  | .named _ => .pure allLeaves_nil
  | .array e | .param _ e =>
      .bind (Ty.declareParts_keepsFlat e) fun _ h => .bind (.declareNode h) fun _ h' =>
        .pure (List.forall_mem_singleton.2 h')
  | .tuple ts | .union ts | .inter ts => .bind (Ty.declareList_keepsFlat ts) fun _ h => .pure h
  | .object ms => .bind (Member.declareList_keepsFlat ms) fun _ h => .pure h
  | .interface _ ts ms bs =>
      .bind (TypeParam.declareList_keepsFlat ts) fun _ hts =>
        .bind (Member.declareList_keepsFlat ms) fun _ hms =>
        .bind (Ty.declareList_keepsFlat bs) fun _ hbs =>
          .pure (List.forall_mem_append.2 ⟨List.forall_mem_append.2 ⟨hts, hms⟩, hbs⟩)
  | .classType _ ts ms b =>
      .bind (TypeParam.declareList_keepsFlat ts) fun _ hts =>
        .bind (Member.declareList_keepsFlat ms) fun _ hms =>
        .bind (Ty.declareParts_keepsFlat b) fun _ h => .bind (.declareNode h) fun _ hb =>
          .pure (List.forall_mem_append.2
            ⟨List.forall_mem_append.2 ⟨hts, hms⟩, List.forall_mem_singleton.2 hb⟩)
  | .function s | .ctor s => .bind (Signature.declareParts_keepsFlat s) fun _ h => .pure h
  | .indexed o i =>
      .bind (Ty.declareParts_keepsFlat o) fun _ ho => .bind (.declareNode ho) fun _ ho' =>
        .bind (Ty.declareParts_keepsFlat i) fun _ hi => .bind (.declareNode hi) fun _ hi' =>
          .pure (List.forall_mem_cons.2 ⟨ho', List.forall_mem_singleton.2 hi'⟩)
termination_by structural t => t

theorem Ty.declareList_keepsFlat : ∀ ts : List Ty, KeepsFlat AllLeaves (Ty.declareList ts)
  | [] => .pure allLeaves_nil
  | t :: ts =>
      .bind (Ty.declareParts_keepsFlat t) fun _ h => .bind (.declareNode h) fun _ h' =>
        .bind (Ty.declareList_keepsFlat ts) fun _ hts => .pure (List.forall_mem_cons.2 ⟨h', hts⟩)
termination_by structural ts => ts

theorem Member.declareParts_keepsFlat :
    ∀ m : Member, KeepsFlat (fun n : Member => AllLeaves n.parts) m.declareParts
  | .property _ t _ _ =>
      .bind (Ty.declareParts_keepsFlat t) fun _ h => .bind (.declareNode h) fun _ h' =>
        .pure (List.forall_mem_singleton.2 h')
  | .method _ _ s | .call s | .construct s =>
      .bind (Signature.declareParts_keepsFlat s) fun _ h => .pure h
  | .index _ k t _ =>
      .bind (Ty.declareParts_keepsFlat k) fun _ hk => .bind (.declareNode hk) fun _ hk' =>
        .bind (Ty.declareParts_keepsFlat t) fun _ ht => .bind (.declareNode ht) fun _ ht' =>
          .pure (List.forall_mem_cons.2 ⟨hk', List.forall_mem_singleton.2 ht'⟩)
termination_by structural m => m

theorem Member.declareList_keepsFlat :
    ∀ ms : List Member,
      KeepsFlat (fun ns : List Member => AllLeaves (ns.flatMap (·.parts))) (Member.declareList ms)
  | [] => .pure allLeaves_nil
  | m :: ms =>
      .bind (Member.declareParts_keepsFlat m) fun _ h =>
        .bind (Member.declareList_keepsFlat ms) fun _ hms =>
        .pure (List.forall_mem_append.2 ⟨h, hms⟩)
termination_by structural ms => ms

theorem Signature.declareParts_keepsFlat :
    ∀ s : Signature, KeepsFlat (fun t : Signature => AllLeaves t.parts) s.declareParts
  | .absent => .pure allLeaves_nil
  | .mk ts ps r =>
      .bind (TypeParam.declareList_keepsFlat ts) fun _ hts =>
        .bind (Param.declareList_keepsFlat ps) fun _ hps =>
        .bind (Ty.declareParts_keepsFlat r) fun _ h => .bind (.declareNode h) fun _ hr =>
          .pure (List.forall_mem_append.2
            ⟨List.forall_mem_append.2 ⟨hts, hps⟩, List.forall_mem_singleton.2 hr⟩)
termination_by structural s => s

theorem Param.declareParts_keepsFlat :
    ∀ p : Param, KeepsFlat (fun q : Param => q.type.isLeaf = true) p.declareParts
  | ⟨_, t⟩ =>
      .bind (Ty.declareParts_keepsFlat t) fun _ h => .bind (.declareNode h) fun _ h' => .pure h'
termination_by structural p => p

theorem Param.declareList_keepsFlat :
    ∀ ps : List Param, KeepsFlat (fun qs : List Param => AllLeaves (qs.map (·.type)))
      (Param.declareList ps)
  | [] => .pure allLeaves_nil
  | p :: ps =>
      .bind (Param.declareParts_keepsFlat p) fun _ h =>
        .bind (Param.declareList_keepsFlat ps) fun _ hps =>
        .pure (List.forall_mem_cons.2 ⟨h, hps⟩)
termination_by structural ps => ps

theorem TypeParam.declareParts_keepsFlat :
    ∀ t : TypeParam, KeepsFlat (fun s : TypeParam => s.bound.isLeaf = true) t.declareParts
  | ⟨_, b⟩ =>
      .bind (Ty.declareParts_keepsFlat b) fun _ h => .bind (.declareNode h) fun _ h' => .pure h'
termination_by structural t => t

theorem TypeParam.declareList_keepsFlat :
    ∀ ts : List TypeParam,
      KeepsFlat (fun us : List TypeParam => AllLeaves (us.map (·.bound))) (TypeParam.declareList ts)
  | [] => .pure allLeaves_nil
  | t :: ts =>
      .bind (TypeParam.declareParts_keepsFlat t) fun _ h =>
        .bind (TypeParam.declareList_keepsFlat ts) fun _ hts =>
          .pure (List.forall_mem_cons.2 ⟨h, hts⟩)
termination_by structural ts => ts

end

/-! ## Definitions -/

namespace Decls

theorem IsFlat.define {D : Decls} (h : D.IsFlat) (name : String) (t : Ty) :
    (D.define name t).IsFlat := by
  obtain ⟨hflat, hleaves⟩ := Ty.declareParts_keepsFlat t D h
  exact hflat.add _ hleaves

/-- Every name of a table of definitions is one layer over names and leaves. -/
theorem isFlat_ofDefinitions (definitions : List (String × Ty)) :
    (ofDefinitions definitions).IsFlat := by
  have hfold : ∀ D : Decls, D.IsFlat →
      (definitions.foldl (fun D d => D.define d.1 d.2) D).IsFlat := by
    induction definitions with
    | nil => exact fun D h => h
    | cons d definitions ih => exact fun D h => ih _ (h.define d.1 d.2)
  exact hfold {} (by simp [IsFlat])

end Decls

end StructuralTyping
