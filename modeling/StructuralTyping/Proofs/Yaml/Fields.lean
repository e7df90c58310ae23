import Mathlib.Data.List.Forall2
import StructuralTyping.Yaml.Fields

/-!
# What is read of a node

A mapping has fields if its keys are distinct without the white space around them, and the
fields are its entries by these keys (`Anchors.fields_eq_ok_iff`).  The items of a sequence
and the values of fields are the nodes inside a node, and these have fewer levels.
-/

namespace StructuralTyping.Yaml

/-! ## Entries by key -/

namespace Fields

/-- An entry by its key. -/
def entry (e : Node × Node) : String × Node := (trimSpace e.1.value, e.2)

@[simp] theorem entry_fst (e : Node × Node) : (entry e).1 = trimSpace e.1.value := rfl

@[simp] theorem entry_snd (e : Node × Node) : (entry e).2 = e.2 := rfl

variable {seen : List String} {e : Node × Node} {es : List (Node × Node)}
  {entries : List (String × Node)}

theorem collect_cons_eq_ok_iff :
    collect seen (e :: es) = .ok entries ↔
      (entry e).1 ∉ seen ∧ ∃ rest, collect ((entry e).1 :: seen) es = .ok rest ∧
      entries = entry e :: rest := by
  obtain ⟨k, v⟩ := e
  simp only [collect, entry]
  by_cases hseen : trimSpace k.value ∈ seen
  · simp [hseen]
  · cases collect (trimSpace k.value :: seen) es <;> simp [hseen, eq_comm]

/-- The entries by key, if no key occurs twice or was seen before. -/
theorem collect_eq_ok_iff :
    collect seen es = .ok entries ↔
      entries = es.map entry ∧ (entries.map (·.1)).Nodup ∧ ∀ e ∈ entries, e.1 ∉ seen := by
  induction es generalizing seen entries with
  | nil =>
    constructor
    · intro h
      obtain rfl := Except.ok.inj h
      exact ⟨rfl, .nil, by simp⟩
    · rintro ⟨rfl, -⟩
      rfl
  | cons e es ih =>
    rw [collect_cons_eq_ok_iff]
    constructor
    · rintro ⟨hkey, rest, hrest, rfl⟩
      obtain ⟨rfl, hnodup, hfresh⟩ := ih.1 hrest
      refine ⟨rfl, List.nodup_cons.2 ⟨fun hmem => ?_, hnodup⟩,
        List.forall_mem_cons.2 ⟨hkey, fun e he hmem => ?_⟩⟩
      · obtain ⟨e', he', heq⟩ := List.mem_map.1 hmem
        exact hfresh e' he' (heq ▸ .head _)
      · exact hfresh e he (.tail _ hmem)
    · rintro ⟨rfl, hnodup, hfresh⟩
      obtain ⟨hnew, hnodup⟩ := List.nodup_cons.1 hnodup
      refine ⟨hfresh _ (.head _), es.map entry, ih.2 ⟨rfl, hnodup, fun e he hmem => ?_⟩, rfl⟩
      rcases List.mem_cons.1 hmem with heq | hmem
      · exact hnew (List.mem_map.2 ⟨e, he, heq⟩)
      · exact hfresh e (.tail _ he) hmem

/-! ## Fields with related values -/

section Related

variable {f f' : Fields} {V : String → Node → Node → Prop}
  (h : ∀ key, Option.Rel (V key) (f.get? key) (f'.get? key))
include h

theorem has_eq_of_rel (key : String) : f.has key = f'.has key := by
  have hget := h key
  rw [has, has]
  generalize f.get? key = o at hget ⊢
  generalize f'.get? key = o' at hget ⊢
  cases hget <;> rfl

/-- The keys that occur among given ones, with their values. -/
theorem forall₂_filterMap (keys : List String) :
    List.Forall₂ (fun s s' => s.1 ∈ keys ∧ s.1 = s'.1 ∧ V s.1 s.2 s'.2)
      (keys.filterMap fun key => (f.get? key).map (key, ·))
      (keys.filterMap fun key => (f'.get? key).map (key, ·)) := by
  induction keys with
  | nil => exact .nil
  | cons key keys ih =>
    have hget := h key
    rw [List.filterMap_cons, List.filterMap_cons]
    generalize f.get? key = o at hget ⊢
    generalize f'.get? key = o' at hget ⊢
    cases hget with
    | none => exact ih.imp fun _ _ h => ⟨.tail _ h.1, h.2⟩
    | some h => exact .cons ⟨.head _, rfl, h⟩ (ih.imp fun _ _ h => ⟨.tail _ h.1, h.2⟩)

end Related

end Fields

/-- The fields of a mapping are its entries by key, if no key occurs twice. -/
theorem Anchors.tagText_bind_ne_ok {A : Anchors} {n : Node} {p : String → Problem} {a : α} :
    (A.tagText n >>= fun s => .error (p s)) ≠ .ok a := by
  cases A.tagText n <;> nofun

theorem Anchors.fields_eq_ok_iff {A : Anchors} {n : Node} {f : Fields} :
    A.fields n = .ok f ↔ ∃ i es, n = .mapping i es ∧ f.entries = es.map Fields.entry ∧
      f.keys.Nodup := by
  constructor
  · intro h
    cases n with
    | mapping i es =>
      simp only [fields] at h
      split at h
      · next entries hentries =>
        obtain rfl := Except.ok.inj h
        obtain ⟨hmap, hnodup, -⟩ := Fields.collect_eq_ok_iff.1 hentries
        exact ⟨i, es, rfl, hmap, hnodup⟩
      · cases h
    | _ => exact absurd h tagText_bind_ne_ok
  · rintro ⟨i, es, rfl, hentries, hnodup⟩
    have hcollect : Fields.collect [] es = .ok f.entries :=
      Fields.collect_eq_ok_iff.2 ⟨hentries, hnodup, by simp⟩
    rw [fields, hcollect]

/-- An alias has no fields of its own. -/
theorem Anchors.exists_fields_alias (A : Anchors) (i : Info) (s : String) (t : Option Nat) :
    ∃ p, A.fields (.alias i s t) = .error p := by
  cases h : A.fields (.alias i s t) with
  | error p => exact ⟨p, rfl⟩
  | ok f =>
    obtain ⟨_, _, halias, -⟩ := fields_eq_ok_iff.1 h
    cases halias

/-! ## Nodes inside -/

namespace Node

/-- The nodes inside a node, keys apart. -/
def values : Node → List Node
  | .document _ cs => cs
  | .sequence _ ns => ns
  | .mapping _ es => es.map (·.2)
  | _ => []

theorem depth_le_depths {m : Node} {ns : List Node} (h : m ∈ ns) : m.depth ≤ depths ns := by
  induction ns with
  | nil => cases h
  | cons n ns ih =>
    rw [depths]
    rcases List.mem_cons.1 h with rfl | h
    · exact Nat.le_max_left _ _
    · exact Nat.le_trans (ih h) (Nat.le_max_right _ _)

theorem depth_le_entryDepths {m : Node} {es : List (Node × Node)} (h : m ∈ es.map (·.2)) :
    m.depth ≤ entryDepths es := by
  induction es with
  | nil => cases h
  | cons e es ih =>
    rw [entryDepths, entryDepth]
    rcases List.mem_cons.1 h with rfl | h
    · exact Nat.le_trans (Nat.le_max_right _ _) (Nat.le_max_left _ _)
    · exact Nat.le_trans (ih h) (Nat.le_max_right _ _)

end Node

namespace Anchors

variable {A : Anchors} {n v : Node} {f : Fields} {key : String}

theorem items_eq_ok_iff {ns : List Node} : A.items n = .ok ns ↔ ∃ i, n = .sequence i ns := by
  constructor
  · intro h
    cases n with
    | sequence i ns' => exact ⟨i, congrArg _ (Except.ok.inj h)⟩
    | _ => exact absurd h tagText_bind_ne_ok
  · rintro ⟨i, rfl⟩
    rfl

theorem mem_values_of_items {ns : List Node} (h : A.items n = .ok ns) (hv : v ∈ ns) :
    v ∈ n.values := by
  obtain ⟨i, rfl⟩ := items_eq_ok_iff.1 h
  exact hv

theorem mem_values_of_itemsOf {ns : List Node} (h : itemsOf key n = .ok ns) (hv : v ∈ ns) :
    v ∈ n.values := by
  cases n with
  | sequence i ns' => exact Except.ok.inj h ▸ hv
  | _ => cases h

theorem mem_values_of_fields (h : A.fields n = .ok f) (hv : (key, v) ∈ f.entries) :
    v ∈ n.values := by
  obtain ⟨i, es, rfl, hentries, -⟩ := fields_eq_ok_iff.1 h
  obtain ⟨e, he, heq⟩ := List.mem_map.1 (hentries ▸ hv)
  exact List.mem_map.2 ⟨e, he, congrArg Prod.snd heq⟩

end Anchors

end StructuralTyping.Yaml
