import TypedApi.Bindings.Basic
import TypedApi.Proofs.Build.Blame
/-!
Rendering a model whose variants have names.

A module can be made of a model only if its references lead to items and its
documentation is text, but those are faults of the model that was handed over.
The one thing that rendering relies on without checking is that a variant has
its display name. Where all variants have theirs, no invariant is broken.
-/

set_option autoImplicit false

namespace TypedApi

/-- A failure that is no broken invariant. -/
def Failure.KeepsInvariants (e : Failure) : Prop :=
  e.problem.kind ≠ .invariant

theorem Failure.keepsInvariants_malformed : Failure.malformed.KeepsInvariants := by
  intro h
  cases h

namespace Bindings

variable {m : Model}

theorem failsOnly_indexOf (r : Ref) : FailsOnly Failure.KeepsInvariants (m.indexOf r) := by
  intro e he
  obtain ⟨reference, rfl⟩ := Model.problem_of_indexOf_eq_error he
  intro h
  cases h

theorem failsOnly_itemAt (index : Int) : FailsOnly Failure.KeepsInvariants (m.itemAt index) :=
  .orMalformed Failure.keepsInvariants_malformed _

theorem failsOnly_resolve (r : Ref) : FailsOnly Failure.KeepsInvariants (m.resolve r) := by
  rw [Model.resolve]
  split
  · exact failsOnly_itemAt _
  · exact .error (failsOnly_indexOf r _ ‹_›)

theorem failsOnly_ofRef (position : Option Nat) (r : Ref) :
    FailsOnly Failure.KeepsInvariants (TypeExpr.ofRef m position r) := by
  refine .bind (failsOnly_indexOf r) fun index _ => .bind (failsOnly_itemAt index) fun item _ => ?_
  split <;> exact .ok _

theorem failsOnly_ofItem (position : Nat) (item : Item) :
    FailsOnly Failure.KeepsInvariants (TypeExpr.ofItem m position item) := by
  unfold TypeExpr.ofItem
  split
  · exact .ok _
  · exact .bind (failsOnly_ofRef _ _) fun _ _ => .ok _
  · exact .bind (failsOnly_ofRef _ _) fun _ _ => .ok _
  · exact .ok _
  · exact .bind (failsOnly_ofRef _ _) fun _ _ => .ok _
  · exact failsOnly_ofRef _ _
  · exact failsOnly_ofRef _ _
  · exact .fail fun h => by cases h

theorem failsOnly_docLiteral (emitDocs : Bool) (indent : Nat) (docs : Document) :
    FailsOnly Failure.KeepsInvariants (docLiteral emitDocs indent docs) := by
  refine .ite (fun _ => ?_) fun _ => .ok _
  split
  · exact .ok _
  · exact .ite (fun _ => .ok _) fun _ => .error Failure.keepsInvariants_malformed
  · exact .error Failure.keepsInvariants_malformed

theorem failsOnly_comments (emitDocs : Bool) (docs : Document) :
    FailsOnly Failure.KeepsInvariants (comments emitDocs docs) := by
  refine .ite (fun _ => ?_) fun _ => .ok _
  split
  · exact .ok _
  · exact .ok _
  · exact .error Failure.keepsInvariants_malformed

theorem failsOnly_fieldsFrom (taken : List String) (members : Table Member) :
    FailsOnly Failure.KeepsInvariants (fieldsFrom m taken members) := by
  induction members generalizing taken with
  | nil => exact .ok _
  | cons p rest ih =>
    obtain ⟨property, member⟩ := p
    exact .bind (failsOnly_ofRef _ _) fun _ _ => .bind (ih _) fun _ _ => .ok _

/-- **An alternative is written if its variant has a name.** -/
theorem failsOnly_alternativeOf (position : Nat) {v : Variant} (h : v.Presentable) :
    FailsOnly Failure.KeepsInvariants (alternativeOf m position v) := by
  obtain ⟨name, hname, _⟩ := h.named
  have hdisplay : v.displayName = .ok name := by
    rw [Variant.displayName, hname]
  rw [alternativeOf, hdisplay]
  exact .bind (.ok name) fun _ _ =>
    .bind (failsOnly_ofRef _ _) fun _ _ => .bind (failsOnly_ofRef _ _) fun _ _ => .ok _

theorem failsOnly_definitionOf (emitDocs : Bool) (position : Nat) {item : Item}
    (h : ∀ v ∈ item.shape.variants, v.Presentable) :
    FailsOnly Failure.KeepsInvariants (definitionOf m emitDocs position item) := by
  refine .map (.ite (fun _ => ?_) fun _ => ?_) _
  · exact .bind (failsOnly_ofItem _ _) fun _ _ => .bind (failsOnly_docLiteral _ _ _) fun _ _ => .ok _
  · split
    · exact .bind (failsOnly_fieldsFrom _ _) fun _ _ =>
        .bind (failsOnly_docLiteral _ _ _) fun _ _ => .ok _
    · exact .bind (failsOnly_docLiteral _ _ _) fun _ _ => .ok _
    -- a union is the one shape whose variants are written by their names
    · rename_i discriminant variants hshape
      rw [hshape] at h
      exact .bind (.mapM fun v hv => failsOnly_alternativeOf position (h v hv)) fun _ _ =>
        .bind (failsOnly_comments _ _) fun _ _ => .ok _
    · exact .bind (failsOnly_ofItem _ _) fun _ _ => .bind (failsOnly_comments _ _) fun _ _ => .ok _

theorem failsOnly_definitionsFrom (emitDocs : Bool) (position : Nat) {items : List Item}
    (h : ∀ item ∈ items, ∀ v ∈ item.shape.variants, v.Presentable) :
    FailsOnly Failure.KeepsInvariants (definitionsFrom m emitDocs position items) := by
  induction items generalizing position with
  | nil => exact .ok _
  | cons item rest ih =>
    have hrest := ih (position + 1) fun i hi => h i (List.mem_cons_of_mem _ hi)
    exact .bind (failsOnly_definitionOf _ _ (h item List.mem_cons_self)) fun _ _ =>
      .bind hrest fun _ _ => .ok _

theorem failsOnly_argumentsOf (o : Operation) :
    FailsOnly Failure.KeepsInvariants (argumentsOf m o) := by
  have hfrom : ∀ taken requests,
      FailsOnly Failure.KeepsInvariants (argumentsFrom m taken requests) := by
    intro taken requests
    induction requests generalizing taken with
    | nil => exact .ok _
    | cons r rest ih => exact .bind (failsOnly_ofRef _ _) fun _ _ => .bind (ih _) fun _ _ => .ok _
  have hquery : ∀ r, FailsOnly Failure.KeepsInvariants (queryRequired m r) := by
    refine fun r => .bind (failsOnly_resolve r) fun item _ => ?_
    split <;> exact .ok _
  refine .bind (.bind (.mapM fun r _ => .bind (hquery r) fun _ _ => .ok _) fun query _ => ?_)
    fun requests _ => .bind (hfrom _ _) fun _ _ => .ok _
  exact .bind (.mapM fun r _ => .bind (failsOnly_resolve r) fun _ _ => .ok _) fun _ _ => .ok _

theorem failsOnly_methodsFrom (emitDocs : Bool) (taken : List String) (operations : List Operation) :
    FailsOnly Failure.KeepsInvariants (methodsFrom m emitDocs taken operations) := by
  induction operations generalizing taken with
  | nil => exact .ok _
  | cons o rest ih =>
    refine .bind (.bind (failsOnly_argumentsOf o) fun _ _ => ?_) fun _ _ =>
      .bind (ih _) fun _ _ => .ok _
    exact .bind (failsOnly_ofRef _ _) fun _ _ => .ok _

/-- **Rendering breaks no invariant** where all variants have names. -/
theorem failsOnly_ofModel (emitDocs : Bool) (h : ∀ v ∈ m.variants, v.Presentable) :
    FailsOnly Failure.KeepsInvariants (ofModel m emitDocs) := by
  have hitems : ∀ item ∈ m.definitions, ∀ v ∈ item.shape.variants, v.Presentable :=
    fun item hitem v hv => h v (Model.mem_variants.mpr (.inl ⟨item, hitem, hv⟩))
  have hrest := FailsOnly.bind (failsOnly_definitionsFrom (m := m) emitDocs 0 hitems)
    fun definitions _ => FailsOnly.bind (failsOnly_methodsFrom (m := m) emitDocs [] m.operations)
      fun methods _ => FailsOnly.ok (P := Failure.KeepsInvariants)
        ({ definitions, interfaceName := Name.deconflict "Api" m.items.keys, methods } : Bindings)
  exact .ite (fun _ => .bind (.fail fun h => by cases h) fun _ _ => hrest)
    fun _ => hrest

end Bindings

end TypedApi
