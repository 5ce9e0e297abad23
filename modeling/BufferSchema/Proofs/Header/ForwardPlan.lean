import BufferSchema.Header.Scope
import BufferSchema.Proofs.Attempt
import Mathlib.Data.List.SplitBy

/-!
# The plan of forward declarations

The plan is made in one pass that keeps the open block pending. It is the plan that is made run by
run: the aggregates of other namespaces are cut into their maximal runs of one namespace, and each
run has its block. In the induction over the aggregates that are left, the run that the pending
block stands for is carried along, so that the two plans agree from any state of the pass on.
-/

namespace BufferSchema

/-! ## Maximal runs -/

/-- The maximal runs of aggregates that follow each other in one namespace. -/
def scopeRuns (aggregates : List Aggregate) : List (List Aggregate) :=
  aggregates.splitBy fun a b ↦ a.scope == b.scope

section scopeRuns

variable {a : Aggregate} {scope : NamespaceId} {l run : List Aggregate}

theorem scopeRuns_of_scope_eq (hne : run ≠ []) (h : ∀ a ∈ run, a.scope = scope) :
    scopeRuns run = [run] := by
  refine List.splitBy_of_isChain hne (List.Pairwise.isChain ?_)
  refine List.pairwise_of_forall_mem_list fun a ha b hb ↦ ?_
  rw [h a ha, h b hb, beq_self_eq_true]

/-- A run ends before an aggregate of another namespace. -/
theorem scopeRuns_append_cons (hne : run ≠ []) (h : ∀ a ∈ run, a.scope = scope)
    (ha : scope ≠ a.scope) : scopeRuns (run ++ a :: l) = run :: scopeRuns (a :: l) := by
  have hlast : ∀ b ∈ run.getLast?, (b.scope == a.scope) = false := by
    intro b hb
    rw [h b (List.mem_of_mem_getLast? hb), beq_eq_false_iff_ne]
    exact ha
  have hruns : scopeRuns (run ++ a :: l) = scopeRuns run ++ scopeRuns (a :: l) :=
    List.splitBy_append_cons l hlast
  rw [hruns, scopeRuns_of_scope_eq hne h, List.singleton_append]

theorem exists_scopeRuns_cons (a : Aggregate) (l : List Aggregate) :
    ∃ run runs, scopeRuns (a :: l) = (a :: run) :: runs := by
  obtain ⟨first, runs, hruns⟩ := List.exists_cons_of_ne_nil
    (List.splitBy_ne_nil.mpr (List.cons_ne_nil a l) : scopeRuns (a :: l) ≠ [])
  obtain ⟨hflat, hnil, -, -⟩ := List.splitBy_eq_iff.mp hruns
  rw [List.mem_cons, not_or] at hnil
  obtain ⟨b, run, rfl⟩ := List.exists_cons_of_ne_nil (Ne.symm hnil.1)
  obtain rfl : a = b := (List.cons.inj hflat).1
  exact ⟨run, runs, hruns⟩

theorem scope_eq_of_mem_scopeRuns (h : a :: run ∈ scopeRuns l) :
    ∀ b ∈ a :: run, b.scope = a.scope := by
  have hchain : (a :: run).IsChain fun b c ↦ b.scope = c.scope :=
    (List.isChain_of_mem_splitBy h).imp fun _ _ hbc ↦ beq_iff_eq.mp hbc
  have : IsTrans Aggregate fun b c ↦ b.scope = c.scope := ⟨fun _ _ _ hbc hcd ↦ hbc.trans hcd⟩
  rw [List.isChain_iff_pairwise, List.pairwise_cons] at hchain
  exact List.forall_mem_cons.mpr ⟨rfl, fun b hb ↦ (hchain.1 b hb).symm⟩

end scopeRuns

/-! ## One block for each run -/

namespace Schema

variable {s : Schema} {a : Aggregate} {run : List Aggregate}

/-- The aggregates of the active namespace. -/
def activeAggregates (s : Schema) : List Aggregate :=
  s.aggregates.values.filter fun a ↦ s.isActive a.scope

/-- The aggregates of other namespaces. -/
def otherAggregates (s : Schema) : List Aggregate :=
  s.aggregates.values.filter fun a ↦ !s.isActive a.scope

/-- The block of a run, in the namespace of its first aggregate. -/
def blockOf (s : Schema) : List Aggregate → Emitted ScopeBlock
  | [] => pure ⟨⟨[]⟩, []⟩
  | a :: run => do return ⟨← s.namespaceAt a.scope, (a :: run).map Aggregate.name⟩

theorem blockOf_of_scope_eq {scope : NamespaceId} {path : Namespace} (hne : run ≠ [])
    (h : ∀ a ∈ run, a.scope = scope) (hpath : s.namespaceAt scope = .ok path) :
    s.blockOf run = .ok ⟨path, run.map Aggregate.name⟩ := by
  cases run with
  | nil => exact absurd rfl hne
  | cons a run =>
    rw [blockOf, h a List.mem_cons_self, hpath]
    rfl

end Schema

/-! ## The pass -/

namespace ForwardPlan

/-- Those of `l` that the pass puts into the active namespace. -/
private def actives (s : Schema) (l : List Aggregate) : List Aggregate :=
  l.filter fun a ↦ s.isActive a.scope

/-- Those of `l` that the pass puts into blocks. -/
private def others (s : Schema) (l : List Aggregate) : List Aggregate :=
  l.filter fun a ↦ !s.isActive a.scope

variable {s : Schema} {a : Aggregate} {plan : ForwardPlan} {scope : NamespaceId}
  {block : ScopeBlock} {l : List Aggregate}

private theorem actives_cons_of_isActive (h : s.isActive a.scope = true) :
    actives s (a :: l) = a :: actives s l := List.filter_cons_of_pos h

private theorem actives_cons (h : s.isActive a.scope = false) :
    actives s (a :: l) = actives s l := List.filter_cons_of_neg (by simp [h])

private theorem others_cons_of_isActive (h : s.isActive a.scope = true) :
    others s (a :: l) = others s l := List.filter_cons_of_neg (by simp [h])

private theorem others_cons (h : s.isActive a.scope = false) :
    others s (a :: l) = a :: others s l := List.filter_cons_of_pos (by simp [h])

theorem step_of_isActive (h : s.isActive a.scope = true) :
    step s plan a = pure { plan with active := plan.active ++ [a.name] } := if_pos h

theorem step_of_pending (h : s.isActive a.scope = false)
    (hpending : plan.pending = some (a.scope, block)) :
    step s plan a =
      pure { plan with pending := some (a.scope, ⟨block.path, block.names ++ [a.name]⟩) } := by
  rw [step, h, if_neg Bool.false_ne_true, hpending]
  exact if_pos rfl

theorem step_of_ne (h : s.isActive a.scope = false)
    (hpending : ∀ block, plan.pending ≠ some (a.scope, block)) :
    step s plan a = plan.openBlock s a.scope a.name := by
  rw [step, h, if_neg Bool.false_ne_true]
  cases hplan : plan.pending with
  | none => rfl
  | some pending => exact if_neg fun hscope ↦ hpending pending.2 (by rw [hplan, ← hscope])

/-- A block that cannot be opened is not planned run by run either. -/
private theorem finish_openBlock
    (h : ∀ path, s.namespaceAt a.scope = .ok path →
      finish <$> l.foldlM (step s) ⟨plan.active, plan.blocks, some (a.scope, ⟨path, [a.name]⟩)⟩ =
        (fun blocks ↦ ⟨plan.blocks ++ blocks, plan.active ++ (actives s l).map Aggregate.name⟩) <$>
          (scopeRuns (a :: others s l)).mapM s.blockOf) :
    finish <$> (plan.openBlock s a.scope a.name >>= fun plan ↦ l.foldlM (step s) plan) =
      (fun blocks ↦ ⟨plan.blocks ++ blocks, plan.active ++ (actives s l).map Aggregate.name⟩) <$>
        (scopeRuns (a :: others s l)).mapM s.blockOf := by
  rw [openBlock]
  cases hpath : s.namespaceAt a.scope with
  | error fault =>
    obtain ⟨run, runs, hruns⟩ := exists_scopeRuns_cons a (others s l)
    rw [hruns, List.mapM_cons, Schema.blockOf, hpath]
    rfl
  | ok path => exact h path hpath

/-- The rest of the pass, from a block on that stands for a run of its namespace. -/
theorem finish_foldlM_pending (active : List String) (closed : List ScopeBlock) {path : Namespace}
    {run : List Aggregate} (hne : run ≠ []) (hscope : ∀ a ∈ run, a.scope = scope)
    (hpath : s.namespaceAt scope = .ok path) (l : List Aggregate) :
    finish <$> l.foldlM (step s) ⟨active, closed, some (scope, ⟨path, run.map Aggregate.name⟩)⟩ =
      (fun blocks ↦ ⟨closed ++ blocks, active ++ (actives s l).map Aggregate.name⟩) <$>
        (scopeRuns (run ++ others s l)).mapM s.blockOf := by
  induction l generalizing closed active scope path run with
  | nil =>
    have hnil : run ++ others s [] = run := List.append_nil run
    rw [hnil, scopeRuns_of_scope_eq hne hscope,
      Attempt.map_mapM_cons (Schema.blockOf_of_scope_eq hne hscope hpath), actives, List.filter_nil,
      List.map_nil, List.append_nil]
    rfl
  | cons a l ih =>
    rw [List.foldlM_cons]
    cases hactive : s.isActive a.scope with
    | true =>
      rw [step_of_isActive hactive, pure_bind, ih _ _ hne hscope hpath,
        others_cons_of_isActive hactive, actives_cons_of_isActive hactive, List.append_assoc,
        List.map_cons, List.singleton_append]
    | false =>
      rw [others_cons hactive, actives_cons hactive]
      by_cases hsame : scope = a.scope
      · -- the block takes the aggregate, and the run is longer by it
        subst hsame
        have hrun := ih active closed
          (List.append_ne_nil_of_right_ne_nil run (List.cons_ne_nil a []))
          (List.forall_mem_append.mpr ⟨hscope, List.forall_mem_singleton.mpr rfl⟩) hpath
        rw [List.map_append, List.append_assoc, List.singleton_append] at hrun
        rw [step_of_pending hactive rfl, pure_bind]
        exact hrun
      · rw [step_of_ne hactive fun _ h ↦ hsame (congrArg Prod.fst (Option.some.inj h)),
          scopeRuns_append_cons hne hscope hsame,
          Attempt.map_mapM_cons (Schema.blockOf_of_scope_eq hne hscope hpath)]
        refine (finish_openBlock fun path' hpath' ↦ ?_).trans ?_
        · exact ih _ _ (List.cons_ne_nil a []) (List.forall_mem_singleton.mpr rfl) hpath'
        · simp only [blocks, Option.map_some, Option.toList_some, List.append_assoc,
            List.singleton_append]

theorem finish_foldlM {active : List String} (l : List Aggregate) :
    finish <$> l.foldlM (step s) ⟨active, [], none⟩ =
      (fun blocks ↦ ⟨blocks, active ++ (actives s l).map Aggregate.name⟩) <$>
        (scopeRuns (others s l)).mapM s.blockOf := by
  induction l generalizing active with
  | nil =>
    rw [actives, List.filter_nil, List.map_nil, List.append_nil]
    rfl
  | cons a l ih =>
    rw [List.foldlM_cons]
    cases hactive : s.isActive a.scope with
    | true =>
      rw [step_of_isActive hactive, pure_bind, ih, others_cons_of_isActive hactive,
        actives_cons_of_isActive hactive, List.append_assoc, List.map_cons, List.singleton_append]
    | false =>
      have hnone (block : ScopeBlock) :
          (⟨active, [], none⟩ : ForwardPlan).pending ≠ some (a.scope, block) := nofun
      rw [step_of_ne hactive hnone, others_cons hactive, actives_cons hactive]
      exact finish_openBlock fun path hpath ↦
        finish_foldlM_pending active [] (List.cons_ne_nil a [])
          (List.forall_mem_singleton.mpr rfl) hpath l

end ForwardPlan

namespace Schema

theorem forwardDeclarations_eq (s : Schema) : s.forwardDeclarations =
    (fun blocks ↦ ⟨blocks, s.activeAggregates.map Aggregate.name⟩) <$>
      (scopeRuns s.otherAggregates).mapM s.blockOf :=
  ForwardPlan.finish_foldlM s.aggregates.values

end Schema

end BufferSchema
