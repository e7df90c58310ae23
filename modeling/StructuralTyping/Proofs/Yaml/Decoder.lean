import StructuralTyping.Proofs.Assigner
import StructuralTyping.Yaml.Decoder

/-!
# A decoder does not remember

What a call of a decoder returns does not depend on the calls before it, and a call leaves
the scopes and the marked targets as they were, also where it fails
(`Decoder.performAll_historyIndependent`).

`Gives s m r` says that a step which starts in a state `s` has the outcome `r` and ends in
`s` again.  Every function on a node gives what the function without a state gives for the
names of the state, as long as the types inside the node do.  A step between two changes
does so when the second change undoes the first (`Gives.between`).

The list of type parameters is the exception.  It changes the innermost scope as it goes,
wherever it stops.  So what is kept are the scopes around that one, and the list is left by
taking the innermost scope off (`outcome_addTypeParams`).
-/

namespace StructuralTyping.Yaml

open TypeSource (Names)

theorem decodeEach_cons (f : α → Outcome β) (x : α) (xs : List α) :
    decodeEach f (x :: xs) = (do let y ← f x; (decodeEach f xs).map (y :: ·)) := by
  rw [decodeEach]
  cases f x with
  | error p => rfl
  | ok y => cases decodeEach f xs <;> rfl

/-! ## Steps that keep the state -/

/-- A step has an outcome and ends in the state that it started in. -/
def Gives (s : DecoderState) (m : Decoding α) (r : Outcome α) : Prop := Keeps s m.run r

namespace Gives

variable {s : DecoderState} {m : Decoding α} {r : Outcome α}

theorem ofOutcome (s : DecoderState) (r : Outcome α) : Gives s (Decoding.ofOutcome r) r := rfl

theorem pure (s : DecoderState) (a : α) : Gives s (Pure.pure a) (.ok a) := rfl

theorem throw (s : DecoderState) (p : Problem) :
    Gives s (MonadExcept.throw p : Decoding α) (.error p) := rfl

/-- A step goes on where the first one succeeds. -/
theorem bind (hm : Gives s m r) {f : α → Decoding β} {g : α → Outcome β}
    (hf : ∀ a, Gives s (f a) (g a)) : Gives s (m >>= f) (r >>= g) := by
  rw [Gives, ExceptT.run_bind]
  refine Keeps.bind hm ?_
  cases r with
  | ok a => exact hf a
  | error p => exact .pure s _

/-- A step goes on with the value that the first one gives. -/
theorem bind_ok {a : α} (hm : Gives s m (.ok a)) {f : α → Decoding β} {q : Outcome β}
    (hf : Gives s (f a) q) : Gives s (m >>= f) q := by
  rw [Gives, ExceptT.run_bind]
  exact Keeps.bind hm hf

theorem map (hm : Gives s m r) (f : α → β) : Gives s (do return f (← m)) (r.map f) := by
  have hbind : Gives s (do return f (← m)) (r >>= fun a => .ok (f a)) := hm.bind fun a => .pure s _
  cases r with
  | ok a => exact hbind
  | error p => exact hbind

/-- Changing the value of a success changes no state. -/
theorem run_map (m : Decoding α) (f : α → β) (s : DecoderState) :
    ((do return f (← m)) : Decoding β).run.run s = ((m.run.run s).1.map f, (m.run.run s).2) := by
  rw [ExceptT.run_bind, StateT.run_bind]
  rcases m.run.run s with ⟨p | a, s⟩ <;> rfl

/-- Reading the state keeps it. -/
theorem get_bind {f : DecoderState → Decoding α} (h : Gives s (f s) r) : Gives s (get >>= f) r := h

/-- A step between two changes.  Wherever it ends, the second change leads back. -/
theorem between {enter leave : DecoderState → DecoderState} {s' : DecoderState}
    (hm : m.run.run (enter s) = (r, s')) (hleave : leave s' = s) :
    Gives s (Decoding.between enter leave m) r := by
  have hrun : (Decoding.between enter leave m).run.run s =
      ((m.run.run (enter s)).1, leave (m.run.run (enter s)).2) := rfl
  rw [Gives, Keeps, hrun, hm, hleave]

theorem naming (hm : Gives s m r) (part : Part) (name : String) :
    Gives s (Decoding.naming part name m) (inPart part name r) := Keeps.map _ hm

theorem each {f : α → Decoding β} {g : α → Outcome β} (hf : ∀ x, Gives s (f x) (g x))
    (xs : List α) : Gives s (Decoding.each f xs) (decodeEach g xs) := by
  induction xs with
  | nil => exact .pure s _
  | cons x xs ih =>
    rw [decodeEach_cons]
    exact (hf x).bind fun y => ih.map (y :: ·)

theorem orDefault {f : Node → Decoding α} {g : Node → Outcome α}
    (hf : ∀ n, Gives s (f n) (g n)) (default : α) (node? : Option Node) :
    Gives s (Decoding.orDefault default f node?) (optionalField default g node?) := by
  cases node? with
  | none => exact .pure s _
  | some n => exact hf n

end Gives

/-! ## Parts of a node -/

namespace Decoder

variable {d : Decoder} {e : List Nat}

/-- The names that may be used in a state. -/
def namesIn (d : Decoder) (scopes : List (List (String × Ty))) : Names := ⟨scopes, d.declared⟩

theorem gives_names (s : DecoderState) : Gives s d.names (.ok (d.namesIn s.scopes)) := rfl

theorem gives_source (s : DecoderState) (text : String) :
    Gives s (d.source text) (decodeSource (d.namesIn s.scopes) text) :=
  (gives_names s).bind_ok (.ofOutcome s _)

theorem gives_scalar (s : DecoderState) (n : Node) :
    Gives s (d.scalar n) (d.anchors.decodeScalar (d.namesIn s.scopes) n) :=
  (gives_names s).bind_ok (.ofOutcome s _)

section Parts

-- The types inside the node keep the state, in all scopes and with the same targets marked.
variable {askIn : Node → Decoding Ty} {ask : Ask}
  (hask : ∀ scopes n, Gives ⟨scopes, e⟩ (askIn n) (ask (d.namesIn scopes) n))
include hask

theorem gives_list (scopes : List (List (String × Ty))) (n : Node) :
    Gives ⟨scopes, e⟩ (d.list askIn n) (d.anchors.decodeList ask (d.namesIn scopes) n) :=
  (Gives.ofOutcome _ _).bind fun ns => .each (hask scopes) ns

/-! ### Parameters -/

theorem gives_given (scopes : List (List (String × Ty))) (node? : Option Node) (text : String) :
    Gives ⟨scopes, e⟩ (d.given askIn node? text)
      (Anchors.decodeGiven ask (d.namesIn scopes) node? text) := by
  cases node? with
  | some n => exact hask scopes n
  | none =>
    simp only [given, Anchors.decodeGiven]
    split
    · exact .pure _ _
    · exact gives_source _ text

theorem gives_param (scopes : List (List (String × Ty))) (n : Node) :
    Gives ⟨scopes, e⟩ (d.param askIn n) (d.anchors.decodeParam ask (d.namesIn scopes) n) := by
  refine (Gives.ofOutcome _ _).bind fun form => ?_
  dsimp only
  split
  · exact .throw _ _
  · exact ((gives_given hask scopes _ _).naming _ _).bind fun t => .pure _ _

theorem gives_typeParam (scopes : List (List (String × Ty))) (n : Node) :
    Gives ⟨scopes, e⟩ (d.typeParam askIn n)
      (d.anchors.decodeTypeParam ask (d.namesIn scopes) n) := by
  refine (Gives.ofOutcome _ _).bind fun form => ?_
  dsimp only
  split
  · exact .throw _ _
  · exact ((gives_given hask scopes _ _).naming _ _).bind fun t => .pure _ _

/-! ### Type parameters -/

omit hask in
theorem add_scopeOf (scopes : List (List (String × Ty))) (earlier : List TypeParam)
    (t : TypeParam) : DecoderState.add t ⟨Names.scopeOf earlier :: scopes, e⟩ =
      ⟨Names.scopeOf (earlier ++ [t]) :: scopes, e⟩ := by
  simp [DecoderState.add, Names.scopeOf]

/-- The innermost scope holds the parameters so far.  Whether or not the list can be decoded,
it ends with the same scopes around that one. -/
theorem outcome_addTypeParams (scopes : List (List (String × Ty))) (earlier : List TypeParam)
    (ns : List Node) :
    ∃ r later, (d.addTypeParams askIn ns).run.run ⟨Names.scopeOf earlier :: scopes, e⟩ =
        (r, ⟨Names.scopeOf later :: scopes, e⟩) ∧
      d.anchors.decodeTypeParamsFrom ask (d.namesIn scopes) earlier ns = r.map (earlier ++ ·) := by
  induction ns generalizing earlier with
  | nil => exact ⟨.ok [], earlier, rfl, by simp [Anchors.decodeTypeParamsFrom, Except.map]⟩
  | cons n ns ih =>
    have hn : (d.typeParam askIn n).run.run ⟨Names.scopeOf earlier :: scopes, e⟩ = (_, _) :=
      gives_typeParam hask (Names.scopeOf earlier :: scopes) n
    have hrun : (d.addTypeParams askIn (n :: ns)).run.run ⟨Names.scopeOf earlier :: scopes, e⟩ =
        match (d.typeParam askIn n).run.run ⟨Names.scopeOf earlier :: scopes, e⟩ with
        | (.error p, s) => (.error p, s)
        | (.ok t, s) =>
          (((d.addTypeParams askIn ns).run.run (s.add t)).1.map (t :: ·),
            ((d.addTypeParams askIn ns).run.run (s.add t)).2) := by
      rw [addTypeParams, ExceptT.run_bind, StateT.run_bind]
      rcases (d.typeParam askIn n).run.run _ with ⟨p | t, s⟩
      · rfl
      · exact Gives.run_map _ _ _
    have hfrom : d.anchors.decodeTypeParamsFrom ask (d.namesIn scopes) earlier (n :: ns) =
        (d.anchors.decodeTypeParam ask (d.namesIn (Names.scopeOf earlier :: scopes)) n >>= fun t =>
          d.anchors.decodeTypeParamsFrom ask (d.namesIn scopes) (earlier ++ [t]) ns) := rfl
    rw [hrun, hn, hfrom]
    cases d.anchors.decodeTypeParam ask (d.namesIn (Names.scopeOf earlier :: scopes)) n with
    | error p => exact ⟨.error p, earlier, rfl, rfl⟩
    | ok t =>
      obtain ⟨r, later, hns, hmore⟩ := ih (earlier ++ [t])
      rw [← add_scopeOf] at hns
      refine ⟨r.map (t :: ·), later, by simp only [hns], hmore.trans ?_⟩
      cases r <;> simp [Except.map]

theorem gives_typeParams (scopes : List (List (String × Ty))) (n : Node) :
    Gives ⟨scopes, e⟩ (d.typeParams askIn n)
      (d.anchors.decodeTypeParams ask (d.namesIn scopes) n) := by
  refine (Gives.ofOutcome _ _).bind fun ns => ?_
  obtain ⟨r, later, hrun, hfrom⟩ := outcome_addTypeParams hask scopes [] ns
  have hr : d.anchors.decodeTypeParamsFrom ask (d.namesIn scopes) [] ns = r := by
    rw [hfrom]
    cases r <;> rfl
  rw [hr]
  exact .between hrun rfl

/-- What stands inside type parameters is decoded in one more scope. -/
theorem gives_withTypeParams (f : Fields) {m : List TypeParam → Decoding α}
    {g : List TypeParam × Names → Outcome α}
    (hm : ∀ scopes ts, Gives ⟨scopes, e⟩ (m ts) (g (ts, d.namesIn scopes)))
    (scopes : List (List (String × Ty))) : Gives ⟨scopes, e⟩ (d.withTypeParams askIn f m)
      (d.anchors.decodeScope ask (d.namesIn scopes) f >>= g) := by
  cases hn : f.get? "typeParams" with
  | none =>
    simp only [withTypeParams, Anchors.decodeScope, hn]
    exact hm scopes []
  | some n =>
    simp only [withTypeParams, Anchors.decodeScope, hn]
    rw [bind_assoc]
    exact (gives_typeParams hask scopes n).bind fun ts =>
      .between (hm (Names.scopeOf ts :: scopes) ts) rfl

/-! ### Signatures and members -/

omit hask in
theorem gives_items (key : String) {one : Node → Decoding α} {f : Node → Outcome α}
    {s : DecoderState} (hone : ∀ n, Gives s (one n) (f n)) (n : Node) :
    Gives s (do Decoding.each one (← Decoding.ofOutcome (Anchors.itemsOf key n)))
      (do decodeEach f (← Anchors.itemsOf key n)) :=
  (Gives.ofOutcome _ _).bind fun ns => .each hone ns

theorem gives_signature (scopes : List (List (String × Ty))) (n : Node) :
    Gives ⟨scopes, e⟩ (d.signature askIn n)
      (d.anchors.decodeSignature ask (d.namesIn scopes) n) := by
  simp only [signature, Anchors.decodeSignature]
  split
  · exact .pure _ _
  · refine (Gives.ofOutcome _ _).bind fun f => ?_
    refine gives_withTypeParams hask f (fun scopes ts => ?_) scopes
    refine (Gives.orDefault (fun n => gives_items "params" (gives_param hask scopes) n) _
      _).bind fun ps => ?_
    exact (Gives.orDefault (hask scopes) _ _).bind fun r => .pure _ _

theorem gives_member (scopes : List (List (String × Ty))) (raw : String) (n : Node) :
    Gives ⟨scopes, e⟩ (d.member askIn raw n)
      (d.anchors.decodeMember ask (d.namesIn scopes) raw n) := by
  refine (Gives.ofOutcome _ _).bind fun method? => ?_
  cases method? with
  | some m => exact (gives_signature hask scopes m).map _
  | none =>
    dsimp only
    split
    · exact .pure _ _
    · exact (hask scopes n).bind fun t => .pure _ _

theorem gives_named (scopes : List (List (String × Ty))) (n : Node) :
    Gives ⟨scopes, e⟩ (d.named askIn n) (d.anchors.decodeNamed ask (d.namesIn scopes) n) := by
  simp only [named, Anchors.decodeNamed]
  split
  · exact .pure _ _
  · refine (Gives.ofOutcome _ _).bind fun f => ?_
    exact .each (fun ⟨raw, v⟩ => (gives_member hask scopes raw v).naming _ _) _

theorem gives_index (scopes : List (List (String × Ty))) (n : Node) :
    Gives ⟨scopes, e⟩ (d.index askIn n) (d.anchors.decodeIndex ask (d.namesIn scopes) n) := by
  refine (Gives.ofOutcome _ _).bind fun f => ?_
  refine (Gives.orDefault (hask scopes) _ _).bind fun key => ?_
  refine (Gives.orDefault (hask scopes) _ _).bind fun value => ?_
  exact (Gives.ofOutcome _ _).bind fun isReadonly => .pure _ _

theorem gives_members (scopes : List (List (String × Ty))) (named? : Option Node) (f : Fields) :
    Gives ⟨scopes, e⟩ (d.members askIn named? f)
      (d.anchors.decodeMembers ask (d.namesIn scopes) named? f) := by
  have hunnamed : ∀ key {one : Node → Decoding Member} {g : Node → Outcome Member},
      (∀ n, Gives ⟨scopes, e⟩ (one n) (g n)) →
        Gives ⟨scopes, e⟩ (unnamed key f one) (Anchors.decodeUnnamed key f g) :=
    fun key _ _ hone => .orDefault (fun n => gives_items key hone n) _ _
  refine (Gives.orDefault (gives_named hask scopes) _ _).bind fun named => ?_
  refine (hunnamed "indexes" (gives_index hask scopes)).bind fun indexes => ?_
  refine (hunnamed "calls" fun n => (gives_signature hask scopes n).map _).bind fun calls => ?_
  exact (hunnamed "constructs" fun n => (gives_signature hask scopes n).map _).bind
    fun constructs => .pure _ _

/-! ### Shapes -/

theorem gives_interface (scopes : List (List (String × Ty))) (name : String) (f : Fields) :
    Gives ⟨scopes, e⟩ (d.interface askIn name f)
      (d.anchors.decodeInterface ask (d.namesIn scopes) name f) := by
  refine gives_withTypeParams hask f (fun scopes ts => ?_) scopes
  refine ((gives_members hask scopes _ f).naming _ _).bind fun ms => ?_
  exact ((Gives.orDefault (gives_list hask scopes) _ _).naming _ _).bind fun bases => .pure _ _

theorem gives_classType (scopes : List (List (String × Ty))) (name : String) (f : Fields) :
    Gives ⟨scopes, e⟩ (d.classType askIn name f)
      (d.anchors.decodeClass ask (d.namesIn scopes) name f) := by
  refine gives_withTypeParams hask f (fun scopes ts => ?_) scopes
  refine ((gives_members hask scopes _ f).naming _ _).bind fun ms => ?_
  exact ((Gives.orDefault (hask scopes) _ _).naming _ _).bind fun base => .pure _ _

theorem gives_indexed (scopes : List (List (String × Ty))) (n : Node) :
    Gives ⟨scopes, e⟩ (d.indexed askIn n) (d.anchors.decodeIndexed ask (d.namesIn scopes) n) := by
  refine (gives_list hask scopes n).bind fun ts => ?_
  match ts with
  | [object, index] => exact .pure _ _
  | [] | [_] | _ :: _ :: _ :: _ => exact .throw _ _

theorem gives_shape (scopes : List (List (String × Ty))) (f : Fields) (v : Node) (shape : String) :
    Gives ⟨scopes, e⟩ (d.shape askIn f v shape)
      (d.anchors.decodeShape ask (d.namesIn scopes) f v shape) := by
  unfold Decoder.shape
  split
  case h_1 => exact (hask scopes v).map _
  case h_2 | h_3 | h_4 => exact (gives_list hask scopes v).map _
  case h_5 | h_11 | h_12 => exact .ofOutcome _ _
  case h_6 | h_7 => exact (gives_signature hask scopes v).map _
  case h_8 => exact (gives_members hask scopes _ f).map _
  case h_9 => exact gives_interface hask scopes _ f
  case h_10 => exact gives_classType hask scopes _ f
  case h_13 => exact (Gives.orDefault (hask scopes) _ _).map _
  case h_14 => exact gives_indexed hask scopes v
  case h_15 =>
    -- None of the keys with a shape is left on the other side either.
    unfold Anchors.decodeShape
    split <;> first | exact .pure _ _ | contradiction

theorem gives_mapping (scopes : List (List (String × Ty))) (n : Node) :
    Gives ⟨scopes, e⟩ (d.mapping askIn n) (d.anchors.decodeMapping ask (d.namesIn scopes) n) :=
  (Gives.ofOutcome _ _).bind fun f => (Gives.ofOutcome _ _).bind fun s =>
    gives_shape hask scopes f s.2 s.1

end Parts

/-! ## The recursion -/

/-- A node is decoded as without a state, with the names of the scopes and the marked
targets. -/
theorem gives_decodeIn (d : Decoder) (fuel : Nat) (e : List Nat)
    (scopes : List (List (String × Ty))) (n : Node) :
    Gives ⟨scopes, e⟩ (d.decodeIn fuel n) (d.anchors.decodeWithin fuel e (d.namesIn scopes) n) := by
  induction fuel generalizing e scopes n with
  | zero => exact .throw _ _
  | succ fuel ih =>
    cases n with
    | document i cs =>
      cases cs with
      | nil => exact .throw _ _
      | cons c cs => exact ih e scopes c
    | «alias» i name target? =>
      cases target? with
      | none => exact .throw _ _
      | some t =>
        rw [decodeIn, Anchors.decodeWithin]
        refine .get_bind ?_
        split
        · exact .throw _ _
        · cases d.anchors[t]? with
          | none => exact .throw _ _
          | some m =>
            -- The target stands first among the marked ones when it is unmarked.
            have hunmark : DecoderState.unmark t ⟨scopes, t :: e⟩ = ⟨scopes, e⟩ := by
              simp [DecoderState.unmark]
            exact .between (ih (t :: e) scopes m) hunmark
    | scalar i s => exact gives_scalar _ _
    | sequence i ns => exact (gives_list (ih e) scopes _).map _
    | mapping i es => exact gives_mapping (ih e) scopes _
    | unknown i ns => exact .throw _ _

/-! ## Calls -/

/-- What a call returns in given scopes, with given targets marked. -/
def outcome (d : Decoder) (s : DecoderState) : Call → Outcome Ty
  | .decode n => d.anchors.decodeWithin (d.anchors.decodeFuel n) s.expanding (d.namesIn s.scopes) n
  | .parse text => decodeSource (d.namesIn s.scopes) text

theorem gives_perform (d : Decoder) (s : DecoderState) (call : Call) :
    Gives s (d.perform call) (d.outcome s call) := by
  cases call with
  | decode n => exact d.gives_decodeIn _ s.expanding s.scopes n
  | parse text => exact gives_source s text

theorem keeps_performAll (d : Decoder) (s : DecoderState) (calls : List Call) :
    Keeps s (d.performAll calls) (calls.map fun call => (d.outcome s call, s)) := by
  induction calls with
  | nil => exact .pure s _
  | cons call calls ih => exact Keeps.bind (d.gives_perform s call) (.get_bind (ih.map _))

/-- A decoder does not remember.  A call leaves the scopes and the marked targets as they
were, whether or not it succeeds.  In a sequence of calls on a new decoder, each call returns
what it returns from a decoder of its own: the type of the node, or that of the text. -/
theorem performAll_historyIndependent (d : Decoder) :
    (∀ s call, ((d.perform call).run.run s).2 = s) ∧
      (∀ calls, (d.performAll calls).run {} =
        (calls.map fun call => (((d.perform call).run.run {}).1, {}), {})) ∧
      (∀ n, ((d.perform (.decode n)).run.run {}).1 = d.anchors.decode ⟨[], d.declared⟩ n) ∧
      ∀ text, ((d.perform (.parse text)).run.run {}).1 = decodeSource ⟨[], d.declared⟩ text := by
  have houtcome : ∀ s call, (d.perform call).run.run s = (d.outcome s call, s) := d.gives_perform
  refine ⟨fun s call => ?_, fun calls => ?_, fun n => ?_, fun text => ?_⟩
  · rw [houtcome]
  · simp only [houtcome]
    exact d.keeps_performAll {} calls
  · rw [houtcome]
    rfl
  · rw [houtcome]
    rfl

/-- A signature fails inside its type parameter `T`.  The text after it may not use `T`. -/
example :
    let text (s : String) : Node := .scalar {} s
    let signature : Node :=
      .mapping {} [(text "typeParams", .sequence {} [text "T"]), (text "returns", text "U")]
    let calls : List Call := [.decode (.mapping {} [(text "fn", signature)]), .parse "T"]
    ((({} : Decoder).performAll calls).run {}).1.map Prod.fst =
      [.error (.atLine 0 (.source "U" (.name (.unknown "U")))),
        .error (.source "T" (.name (.unknown "T")))] := rfl

end Decoder

end StructuralTyping.Yaml
