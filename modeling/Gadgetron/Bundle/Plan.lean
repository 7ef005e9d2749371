import Gadgetron.Bundle.Dependency
import Mathlib.Data.Prod.Lex

/-!
# Plans: enable order, cycles and safe prefixes

A plan orders its bundles, providers first, or reports those on a cycle; and every prefix of the
order of a plan that is not blocked has such a plan itself.
-/

namespace Gadgetron.Bundle

open Lib List Option

variable {V R : Type}

/-- Some satisfied requirement among the bindings chose `p` as the provider of `c`. -/
def RequiredEdge (bindings : List (BundleDependencyBinding V R)) (p c : BundleId) : Prop :=
  ∃ binding ∈ bindings, binding.relation = .required ∧ binding.state = .satisfied ∧
    binding.consumerBundleId = c ∧ ∃ provider, binding.provider = some provider ∧
      provider.bundleId = p

/-- A plan orders all bundles, providers first and without an issue; or it has no order and one
issue, which lists the bundles on a cycle in increasing order. -/
def OrdersOrReportsCycle (desired : OrdSet BundleId) (plan : BundleDependencyPlan V R) : Prop :=
  ((∀ b, ¬ OnCycle (RequiredEdge plan.bindings) b) ∧
      ProviderOrder desired (RequiredEdge plan.bindings) plan.enableOrder ∧ plan.issues = []) ∨
    ((∃ b, OnCycle (RequiredEdge plan.bindings) b) ∧ plan.enableOrder = [] ∧
      ∃ bundleIds, plan.issues = [cycleIssue bundleIds] ∧ bundleIds ≠ [] ∧
        bundleIds.Pairwise (· < ·) ∧ ∀ b, b ∈ bundleIds ↔ OnCycle (RequiredEdge plan.bindings) b)

theorem isBlocked_eq_false_iff {plan : BundleDependencyPlan V R} :
    plan.isBlocked = false ↔ plan.issues = [] ∧ ∀ b ∈ plan.bindings, b.blocking = false := by
  unfold BundleDependencyPlan.isBlocked
  simp [List.isEmpty_iff]

variable {bs bs' : List (BundleDependencyBinding V R)} {p c : BundleId}

theorem RequiredEdge.mono (h : ∀ b ∈ bs, b ∈ bs')
    (he : RequiredEdge bs p c) : RequiredEdge bs' p c := by
  obtain ⟨b, hb, hrest⟩ := he
  exact ⟨b, h b hb, hrest⟩

theorem requiredEdge_append :
    RequiredEdge (bs ++ bs') p c ↔ RequiredEdge bs p c ∨ RequiredEdge bs' p c := by
  simp only [RequiredEdge, mem_append, or_and_right, exists_or]

theorem not_requiredEdge_nil : ¬ RequiredEdge ([] : List (BundleDependencyBinding V R)) p c := by
  simp [RequiredEdge]

/-! ## Validation -/

variable {cs : List (BundleDependencyCandidate V R)}

theorem validateCandidatesFrom_spec {byId byId' : OrdMap BundleId (BundleDependencyCandidate V R)}
    (h : validateCandidatesFrom byId cs = .ok byId')
    (hbyId : ∀ id c, byId.get? id = some c → c.bundleId = id) :
    ∀ id c, byId'.get? id = some c → c.bundleId = id := by
  induction cs generalizing byId with
  | nil =>
    cases h
    exact hbyId
  | cons a cs ih =>
    unfold validateCandidatesFrom at h
    split at h
    · cases h
    · split_ifs at h
      refine ih h fun id c hc => ?_
      rw [OrdMap.get?_insert] at hc
      split_ifs at hc with hid
      · cases hc
        exact hid.symm
      · exact hbyId id c hc

variable {byId : OrdMap BundleId (BundleDependencyCandidate V R)}

theorem validateCandidates_spec
    (h : validateCandidates cs = .ok byId) {id : BundleId} {c : BundleDependencyCandidate V R}
    (hc : byId.get? id = some c) : c.bundleId = id :=
  validateCandidatesFrom_spec h (by simp) id c hc

theorem requireCandidate_eq_ok
    {id : BundleId} : requireCandidate byId id = .ok () ↔ ∃ c, byId.get? id = some c := by
  unfold requireCandidate
  rw [← isSome_iff_exists]
  split_ifs with h <;> simp [h]

theorem requireCandidates_eq_ok {ids : List BundleId} :
    forM ids (requireCandidate byId) = .ok () ↔ ∀ id ∈ ids, ∃ c, byId.get? id = some c := by
  simp only [forM_eq_ok, requireCandidate_eq_ok]

/-! ## One declaration -/

section

variable [LinearOrder V] (reqMatches : R → V → Bool) (consumer : BundleDependencyCandidate V R)
  (relation : DependencyRelation) (declaration : BundleDependencyDeclaration R)
  (candidates : List (BundleDependencyCandidate V R)) (desired : OrdSet BundleId)

theorem resolveDeclaration_dependency (hrel : relation ≠ .conflict) :
    let binding := resolveDeclaration reqMatches consumer relation declaration candidates desired
    match (activeHealthy reqMatches consumer declaration candidates desired).head? with
    | some offer => binding.state = .satisfied ∧
        binding.provider = some (providerProjection offer) ∧ binding.blocking = false
    | none => binding.state ≠ .satisfied ∧ binding.blocking = decide (relation = .required) := by
  unfold resolveDeclaration bindingOutcome
  cases relation with
  | conflict => exact absurd rfl hrel
  | required | optional =>
    dsimp only
    rcases (activeHealthy reqMatches consumer declaration candidates desired).head? with _ | offer
    · rcases (active reqMatches consumer declaration candidates desired).head? with _ | offer
      · rcases (compatible reqMatches consumer declaration candidates).head? with _ | offer
        · dsimp only
          split_ifs <;> simp
        · simp
      · simp
    · exact ⟨rfl, rfl, rfl⟩

theorem resolveDeclaration_conflict :
    (resolveDeclaration reqMatches consumer .conflict declaration candidates desired).blocking =
      (active reqMatches consumer declaration candidates desired).head?.isSome := by
  unfold resolveDeclaration bindingOutcome
  dsimp only
  rcases (active reqMatches consumer declaration candidates desired).head? with _ | offer <;> rfl

theorem mem_desired_of_activeHealthy {offer : Offer V R}
    (h : (activeHealthy reqMatches consumer declaration candidates desired).head? = some offer) :
    offer.1.bundleId ∈ desired := by
  have hmem := mem_of_mem_head? h
  unfold activeHealthy active at hmem
  simp only [List.mem_filter, decide_eq_true_eq] at hmem
  exact hmem.1.2

theorem exists_provider_of_satisfied (hrel : relation ≠ .conflict)
    (hsat : (resolveDeclaration reqMatches consumer relation declaration candidates desired).state =
      .satisfied) :
    ∃ offer, (activeHealthy reqMatches consumer declaration candidates desired).head? = some offer ∧
      (resolveDeclaration reqMatches consumer relation declaration candidates desired).provider =
        some (providerProjection offer) := by
  have h := resolveDeclaration_dependency reqMatches consumer relation declaration candidates
    desired hrel
  dsimp only at h
  split at h
  · rename_i offer hoffer
    exact ⟨offer, hoffer, h.2.1⟩
  · exact absurd hsat h.1

end

/-! ## Collecting bindings and edges -/

theorem foldlM_append {σ δ β ε : Type} {f : σ → δ → Except ε σ} (out : σ → List β)
    {g : δ → List β} {I : σ → Prop} {l : List δ}
    (hstep : ∀ d ∈ l, ∀ s, I s → ∃ s', f s d = .ok s' ∧ out s' = out s ++ g d ∧ I s') {s : σ}
    (hs : I s) : ∃ s', l.foldlM f s = .ok s' ∧ out s' = out s ++ l.flatMap g ∧ I s' := by
  induction l generalizing s with
  | nil => exact ⟨s, rfl, by simp, hs⟩
  | cons d l ih =>
    obtain ⟨s₁, h₁, ho₁, hI₁⟩ := hstep d mem_cons_self s hs
    obtain ⟨s₂, h₂, ho₂, hI₂⟩ := ih (fun d hd => hstep d (mem_cons_of_mem _ hd)) hI₁
    refine ⟨s₂, ?_, ?_, hI₂⟩
    · rw [foldlM_cons, h₁]
      exact h₂
    · rw [ho₂, ho₁, flatMap_cons, List.append_assoc]

section

variable [LinearOrder V] (reqMatches : R → V → Bool)
  (candidates : List (BundleDependencyCandidate V R)) (desired : OrdSet BundleId)

def consumerBindings (consumer : BundleDependencyCandidate V R) :
    List (BundleDependencyBinding V R) :=
  let bindings := fun relation => List.flatMap fun declaration =>
    [resolveDeclaration reqMatches consumer relation declaration candidates desired]
  bindings .required consumer.dependencies.requires ++
    bindings .optional consumer.dependencies.optional ++
    bindings .conflict consumer.dependencies.conflicts

def allBindings (byId : OrdMap BundleId (BundleDependencyCandidate V R)) :
    List (BundleDependencyBinding V R) :=
  desired.toList.flatMap fun id =>
    ((byId.get? id).map (consumerBindings reqMatches candidates desired)).getD []

def EdgesOfBindings (acc : Collected V R) : Prop :=
  ∀ p c, Edge acc.requiredEdges p c ↔ RequiredEdge acc.bindings p c

theorem edge_insert {edges : OrdMap BundleId (OrdSet BundleId)} {p c p' c' : BundleId} :
    Edge (edges.insert p (((edges.get? p).getD OrdSet.empty).insert c)) p' c' ↔
      Edge edges p' c' ∨ p' = p ∧ c' = c := by
  unfold Edge consumersOf
  rw [OrdMap.get?_insert]
  by_cases hp : p' = p
  · subst hp
    rcases edges.get? p' with _ | cs
    · simp
    · simp [or_comm]
  · simp [hp]

variable {acc : Collected V R}

theorem collectDeclaration_spec (consumer : BundleDependencyCandidate V R)
    (relation : DependencyRelation) (declaration : BundleDependencyDeclaration R)
    (hacc : EdgesOfBindings acc) :
    ∃ acc', collectDeclaration reqMatches candidates desired consumer relation acc declaration =
        .ok acc' ∧ acc'.bindings = acc.bindings ++
        [resolveDeclaration reqMatches consumer relation declaration candidates desired] ∧
      EdgesOfBindings acc' := by
  unfold collectDeclaration
  dsimp only
  split_ifs with h
  · obtain ⟨rfl, hsat⟩ := h
    obtain ⟨offer, -, hprov⟩ := exists_provider_of_satisfied _ _ _ _ _ _ (by decide) hsat
    rw [hprov]
    refine ⟨_, rfl, rfl, fun p c => ?_⟩
    rw [edge_insert, hacc p c, requiredEdge_append]
    refine or_congr_right ?_
    simp only [RequiredEdge, mem_singleton, exists_eq_left, hsat, hprov, some.injEq,
      exists_eq_left', true_and]
    constructor
    · rintro ⟨rfl, rfl⟩
      exact ⟨rfl, rfl, rfl⟩
    · rintro ⟨-, rfl, rfl⟩
      exact ⟨rfl, rfl⟩
  · refine ⟨_, rfl, rfl, fun p c => ?_⟩
    rw [hacc p c, requiredEdge_append]
    refine (or_iff_left ?_).symm
    rintro ⟨b, hb, hrel, hsat, -⟩
    rw [mem_singleton] at hb
    subst hb
    exact h ⟨hrel, hsat⟩

variable {byId : OrdMap BundleId (BundleDependencyCandidate V R)}

variable {consumer : BundleDependencyCandidate V R}

theorem collectConsumer_spec
    {id : BundleId} (hid : byId.get? id = some consumer) (hacc : EdgesOfBindings acc) :
    ∃ acc', collectConsumer reqMatches candidates desired byId acc id = .ok acc' ∧
      acc'.bindings = acc.bindings ++ consumerBindings reqMatches candidates desired consumer ∧
      EdgesOfBindings acc' := by
  have hstep := fun relation (l : List (BundleDependencyDeclaration R)) (s : Collected V R) =>
    foldlM_append Collected.bindings (I := EdgesOfBindings) (l := l) (s := s)
      fun d _ _ hs => collectDeclaration_spec reqMatches candidates desired consumer relation d hs
  obtain ⟨acc₁, h₁, hb₁, hi₁⟩ := hstep .required consumer.dependencies.requires _ hacc
  obtain ⟨acc₂, h₂, hb₂, hi₂⟩ := hstep .optional consumer.dependencies.optional _ hi₁
  obtain ⟨acc₃, h₃, hb₃, hi₃⟩ := hstep .conflict consumer.dependencies.conflicts _ hi₂
  refine ⟨acc₃, ?_, ?_, hi₃⟩
  · unfold collectConsumer
    rw [hid]
    simp only [h₁, h₂, h₃, bind, Except.bind]
  · rw [hb₃, hb₂, hb₁, consumerBindings]
    simp only [List.append_assoc]

def BundleDependencies.declarations (dependencies : BundleDependencies R) :
    DependencyRelation → List (BundleDependencyDeclaration R)
  | .required => dependencies.requires
  | .optional => dependencies.optional
  | .conflict => dependencies.conflicts

variable {b : BundleDependencyBinding V R}

theorem mem_consumerBindings : b ∈ consumerBindings reqMatches candidates desired consumer ↔
      ∃ relation, ∃ d ∈ consumer.dependencies.declarations relation,
        b = resolveDeclaration reqMatches consumer relation d candidates desired := by
  simp only [consumerBindings, mem_append, mem_flatMap, mem_singleton]
  constructor
  · rintro ((h | h) | h)
    · exact ⟨.required, h⟩
    · exact ⟨.optional, h⟩
    · exact ⟨.conflict, h⟩
  · rintro ⟨relation, h⟩
    cases relation with
    | required => exact Or.inl (Or.inl h)
    | optional => exact Or.inl (Or.inr h)
    | conflict => exact Or.inr h

theorem mem_allBindings : b ∈ allBindings reqMatches candidates desired byId ↔
      ∃ id ∈ desired, ∃ consumer, byId.get? id = some consumer ∧
        b ∈ consumerBindings reqMatches candidates desired consumer := by
  unfold allBindings
  rw [mem_flatMap]
  refine exists_congr fun id => and_congr_right fun _ => ?_
  rcases byId.get? id with _ | consumer <;> simp

theorem requiredEdge_allBindings
    (hbyId : ∀ id c, byId.get? id = some c → c.bundleId = id) {p c : BundleId} :
    RequiredEdge (allBindings reqMatches candidates desired byId) p c ↔
      c ∈ desired ∧ ∃ consumer, byId.get? c = some consumer ∧
        ∃ d ∈ consumer.dependencies.requires, ∃ offer,
          (activeHealthy reqMatches consumer d candidates desired).head? = some offer ∧
            offer.1.bundleId = p := by
  constructor
  · rintro ⟨b, hb, hrel, hsat, hc, provider, hprov, hp⟩
    obtain ⟨id, hid, consumer, hget, hb⟩ := (mem_allBindings _ _ _).1 hb
    obtain ⟨relation, d, hd, rfl⟩ := (mem_consumerBindings _ _ _).1 hb
    obtain rfl : relation = .required := hrel
    obtain rfl : id = c := (hbyId id consumer hget).symm.trans hc
    obtain ⟨offer, hoffer, hprov'⟩ := exists_provider_of_satisfied _ _ _ _ _ _ (by decide) hsat
    obtain rfl : providerProjection offer = provider := mem_unique hprov' hprov
    exact ⟨hid, consumer, hget, d, hd, offer, hoffer, hp⟩
  · rintro ⟨hc, consumer, hget, d, hd, offer, hoffer, hp⟩
    have h := resolveDeclaration_dependency reqMatches consumer .required d candidates desired
      (by decide)
    simp only [hoffer] at h
    refine ⟨resolveDeclaration reqMatches consumer .required d candidates desired,
      (mem_allBindings _ _ _).2 ⟨c, hc, consumer, hget, (mem_consumerBindings _ _ _).2
        ⟨.required, d, hd, rfl⟩⟩, rfl, h.1, hbyId c consumer hget, _, h.2.1, hp⟩

theorem buildPlan_spec (hbyId : ∀ id c, byId.get? id = some c → c.bundleId = id)
    (hknown : ∀ id ∈ desired, ∃ c, byId.get? id = some c) :
    ∃ plan, buildPlan reqMatches candidates desired byId = .ok plan ∧
      plan.bindings = sortBy bindingOrder (allBindings reqMatches candidates desired byId) ∧
      OrdersOrReportsCycle desired plan := by
  obtain ⟨acc, hrun, hbind, hedges⟩ := foldlM_append Collected.bindings (I := EdgesOfBindings)
    (l := desired.toList) (f := collectConsumer reqMatches candidates desired byId)
    (g := fun id => ((byId.get? id).map (consumerBindings reqMatches candidates desired)).getD [])
    (s := { bindings := [], requiredEdges := OrdMap.const desired OrdSet.empty })
    (by
      intro id hid acc hacc
      obtain ⟨c, hc⟩ := hknown id hid
      rw [hc]
      exact collectConsumer_spec reqMatches candidates desired hc hacc)
    (by
      intro p c
      refine iff_of_false ?_ not_requiredEdge_nil
      unfold Edge consumersOf
      rw [OrdMap.get?_const]
      split_ifs <;> simp [OrdSet.empty])
  rw [nil_append, ← allBindings] at hbind
  have hedge : Edge acc.requiredEdges = RequiredEdge (sortBy bindingOrder acc.bindings) := by
    ext p c
    rw [hedges p c]
    exact ⟨fun h => h.mono fun _ => mem_sortBy.2, fun h => h.mono fun _ => mem_sortBy.1⟩
  have hends : ∀ p c, Edge acc.requiredEdges p c → p ∈ desired ∧ c ∈ desired := by
    intro p c h
    rw [hedges p c, hbind, requiredEdge_allBindings _ _ _ hbyId] at h
    obtain ⟨hc, consumer, -, d, -, offer, hoffer, rfl⟩ := h
    exact ⟨mem_desired_of_activeHealthy _ _ _ _ _ hoffer, hc⟩
  obtain ⟨⟨order, cycle⟩, htopo, hspec⟩ := topologicalOrder_spec
    (fun p c h => (hends p c h).1) (fun p c h => (hends p c h).2)
  rw [hedge] at hspec
  refine ⟨⟨desired.toList, order, sortBy bindingOrder acc.bindings,
    (cycle.map fun bundleIds => [cycleIssue bundleIds]).getD []⟩, ?_,
    congrArg (sortBy bindingOrder) hbind, ?_⟩
  · unfold buildPlan
    simp only [hrun, htopo, bind, Except.bind, pure, Except.pure]
  · rcases cycle with _ | cycle
    · exact Or.inl ⟨hspec.1, hspec.2, rfl⟩
    · obtain ⟨rfl, hne, hsorted, hmem⟩ := hspec
      obtain ⟨b, hb⟩ := exists_mem_of_ne_nil cycle hne
      exact Or.inr ⟨⟨b, (hmem b).1 hb⟩, rfl, cycle, rfl, hne, hsorted, hmem⟩

end

/-! ## The resolver -/

section

variable [LinearOrder V] (reqMatches : R → V → Bool)
  (candidates : List (BundleDependencyCandidate V R)) (desired : OrdSet BundleId)

theorem resolve_eq_ok_iff {plan : BundleDependencyPlan V R} :
    resolveBundleDependencies reqMatches candidates desired = .ok (.ok plan) ↔
      ∃ byId, validateCandidates candidates = .ok byId ∧
        (∀ id ∈ desired, ∃ c, byId.get? id = some c) ∧
        buildPlan reqMatches candidates desired byId = .ok plan := by
  unfold resolveBundleDependencies
  rcases hv : validateCandidates candidates with e | byId
  · simp
  · simp only [Except.ok.injEq, exists_eq_left']
    rw [show (∀ id ∈ desired, ∃ c, byId.get? id = some c) ↔
      forM desired.toList (requireCandidate byId) = .ok () from requireCandidates_eq_ok.symm]
    rcases hr : forM desired.toList (requireCandidate byId) with e | u
    · simp
    · rcases hb : buildPlan reqMatches candidates desired byId with e | plan' <;>
        simp [bind, Except.bind, pure, Except.pure]

/-- Accepted candidates get a plan that orders the desired bundles or reports a cycle. -/
theorem resolve_orders_or_reports_cycle :
    ∃ result, resolveBundleDependencies reqMatches candidates desired = .ok result ∧
      ∀ plan, result = .ok plan → OrdersOrReportsCycle desired plan := by
  rcases hv : validateCandidates candidates with e | byId
  · refine ⟨.error e, ?_, by simp⟩
    simp only [resolveBundleDependencies, hv]
  · rcases hr : forM desired.toList (requireCandidate byId) with e | u
    · refine ⟨.error e, ?_, by simp⟩
      simp only [resolveBundleDependencies, hv, hr]
    · have hknown := requireCandidates_eq_ok.1 hr
      obtain ⟨plan, hplan, -, hspec⟩ := buildPlan_spec reqMatches candidates desired
        (fun id c => validateCandidates_spec hv) hknown
      refine ⟨.ok plan, (resolve_eq_ok_iff _ _ _).2 ⟨byId, hv, hknown, hplan⟩, ?_⟩
      rintro plan' ⟨⟩
      exact hspec

variable {reqMatches candidates desired}

variable {consumer : BundleDependencyCandidate V R} {d : BundleDependencyDeclaration R}
  {desired' : OrdSet BundleId}

theorem activeHealthy_head?_of_subset (hsub : ∀ id ∈ desired', id ∈ desired) {offer : Offer V R}
    (h : (activeHealthy reqMatches consumer d candidates desired).head? = some offer)
    (hoffer : offer.1.bundleId ∈ desired') :
    (activeHealthy reqMatches consumer d candidates desired').head? = some offer := by
  unfold activeHealthy active at h ⊢
  rw [List.filter_filter, head?_filter, find?_eq_some_iff_append] at h ⊢
  obtain ⟨hp, l₁, l₂, hl, hbefore⟩ := h
  refine ⟨?_, l₁, l₂, hl, fun o ho => ?_⟩
  · simp only [Bool.and_eq_true, decide_eq_true_eq] at hp ⊢
    exact ⟨hp.1, hoffer⟩
  · have := hbefore o ho
    simp only [Bool.not_eq_true', Bool.and_eq_false_iff, decide_eq_false_iff_not] at this ⊢
    exact this.imp_right fun hno hmem => hno (hsub _ hmem)

theorem active_head?_eq_none_of_subset (hsub : ∀ id ∈ desired', id ∈ desired)
    (h : (active reqMatches consumer d candidates desired).head? = none) :
    (active reqMatches consumer d candidates desired').head? = none := by
  unfold active at h ⊢
  rw [head?_eq_none_iff, filter_eq_nil_iff] at h ⊢
  simp only [decide_eq_true_eq] at h ⊢
  exact fun o ho hmem => h o ho (hsub _ hmem)

section

variable {byId : OrdMap BundleId (BundleDependencyCandidate V R)}

theorem exists_offer_of_not_blocking
    (hfree : ∀ b ∈ allBindings reqMatches candidates desired byId, b.blocking = false)
    {id : BundleId} (hid : id ∈ desired) {consumer : BundleDependencyCandidate V R}
    (hget : byId.get? id = some consumer) {d : BundleDependencyDeclaration R}
    (hd : d ∈ consumer.dependencies.requires) :
    ∃ offer, (activeHealthy reqMatches consumer d candidates desired).head? = some offer := by
  have hb := hfree _ ((mem_allBindings _ _ _).2 ⟨id, hid, consumer, hget,
    (mem_consumerBindings _ _ _).2 ⟨.required, d, hd, rfl⟩⟩)
  have h := resolveDeclaration_dependency reqMatches consumer .required d candidates desired
    (by decide)
  rcases hh : (activeHealthy reqMatches consumer d candidates desired).head? with _ | offer
  · simp [hh, hb] at h
  · exact ⟨offer, rfl⟩

section

variable {desired' : OrdSet BundleId}
  (hbyId : ∀ id c, byId.get? id = some c → c.bundleId = id)
  (hfree : ∀ b ∈ allBindings reqMatches candidates desired byId, b.blocking = false)
  (hsub : ∀ id ∈ desired', id ∈ desired)
  (hclosed : ∀ p c, RequiredEdge (allBindings reqMatches candidates desired byId) p c →
    c ∈ desired' → p ∈ desired')
include hbyId hfree hsub hclosed

theorem not_blocking_of_closed :
    ∀ b ∈ allBindings reqMatches candidates desired' byId, b.blocking = false := by
  intro b hb
  obtain ⟨id, hid, consumer, hget, hb⟩ := (mem_allBindings _ _ _).1 hb
  obtain ⟨relation, d, hd, rfl⟩ := (mem_consumerBindings _ _ _).1 hb
  cases relation with
  | required =>
    obtain ⟨offer, hoffer⟩ := exists_offer_of_not_blocking hfree (hsub id hid) hget hd
    have hp : offer.1.bundleId ∈ desired' :=
      hclosed _ id ((requiredEdge_allBindings _ _ _ hbyId).2
        ⟨hsub id hid, consumer, hget, d, hd, offer, hoffer, rfl⟩) hid
    have h := resolveDeclaration_dependency reqMatches consumer .required d candidates desired'
      (by decide)
    simp only [activeHealthy_head?_of_subset hsub hoffer hp] at h
    exact h.2.2
  | optional =>
    have h := resolveDeclaration_dependency reqMatches consumer .optional d candidates desired'
      (by decide)
    dsimp only at h
    split at h
    · exact h.2.2
    · exact h.2
  | conflict =>
    have hb := hfree _ ((mem_allBindings _ _ _).2 ⟨id, hsub id hid, consumer, hget,
      (mem_consumerBindings _ _ _).2 ⟨.conflict, d, hd, rfl⟩⟩)
    rw [resolveDeclaration_conflict] at hb ⊢
    rw [active_head?_eq_none_of_subset hsub (by simpa using hb)]
    rfl

theorem requiredEdge_of_closed {p c : BundleId}
    (he : RequiredEdge (allBindings reqMatches candidates desired' byId) p c) :
    RequiredEdge (allBindings reqMatches candidates desired byId) p c := by
  obtain ⟨hc, consumer, hget, d, hd, offer', hoffer', rfl⟩ :=
    (requiredEdge_allBindings _ _ _ hbyId).1 he
  obtain ⟨offer, hoffer⟩ := exists_offer_of_not_blocking hfree (hsub c hc) hget hd
  have hedge := (requiredEdge_allBindings _ _ _ hbyId).2
    ⟨hsub c hc, consumer, hget, d, hd, offer, hoffer, rfl⟩
  have hsame := activeHealthy_head?_of_subset hsub hoffer (hclosed _ c hedge hc)
  obtain rfl : offer' = offer := mem_unique hoffer' hsame
  exact hedge

end

end

/-- Every prefix of the order of a free plan has a free plan. -/
theorem resolve_prefix_not_blocked {plan : BundleDependencyPlan V R}
    (hplan : resolveBundleDependencies reqMatches candidates desired = .ok (.ok plan))
    (hfree : plan.isBlocked = false) (k : ℕ) :
    ∃ plan', resolveBundleDependencies reqMatches candidates
        (OrdSet.ofList (plan.enableOrder.take k)) = .ok (.ok plan') ∧ plan'.isBlocked = false := by
  obtain ⟨byId, hv, hknown, hbuild⟩ := (resolve_eq_ok_iff _ _ _).1 hplan
  have hbyId : ∀ id c, byId.get? id = some c → c.bundleId = id :=
    fun id c => validateCandidates_spec hv
  obtain ⟨plan₀, hbuild₀, hbind, hspec⟩ := buildPlan_spec reqMatches candidates desired hbyId hknown
  obtain rfl : plan = plan₀ := Except.ok.inj (hbuild.symm.trans hbuild₀)
  obtain ⟨hissues, hblock⟩ := isBlocked_eq_false_iff.1 hfree
  rcases hspec with ⟨hacyclic, horder, -⟩ | ⟨-, -, ids, hids, -⟩
  · have hfree' : ∀ b ∈ allBindings reqMatches candidates desired byId, b.blocking = false :=
      fun b hb => hblock b (hbind ▸ mem_sortBy.2 hb)
    have hplanEdge : ∀ {p c}, RequiredEdge (allBindings reqMatches candidates desired byId) p c →
        RequiredEdge plan.bindings p c := fun h => h.mono fun b hb => hbind ▸ mem_sortBy.2 hb
    have hsub : ∀ id ∈ OrdSet.ofList (plan.enableOrder.take k), id ∈ desired := fun id hid =>
      horder.perm.mem_iff.1 (mem_of_mem_take (OrdSet.mem_ofList.1 hid))
    have hclosed : ∀ p c, RequiredEdge (allBindings reqMatches candidates desired byId) p c →
        c ∈ OrdSet.ofList (plan.enableOrder.take k) →
        p ∈ OrdSet.ofList (plan.enableOrder.take k) := by
      intro p c he hc
      rw [OrdSet.mem_ofList] at hc ⊢
      exact horder.mem_take (hplanEdge he) hc
    obtain ⟨plan', hbuild', hbind', hspec'⟩ := buildPlan_spec reqMatches candidates
      (OrdSet.ofList (plan.enableOrder.take k)) hbyId fun id hid => hknown id (hsub id hid)
    refine ⟨plan', (resolve_eq_ok_iff _ _ _).2 ⟨byId, hv, fun id hid => hknown id (hsub id hid),
      hbuild'⟩, isBlocked_eq_false_iff.2 ⟨?_, ?_⟩⟩
    · rcases hspec' with ⟨-, -, hissues'⟩ | ⟨⟨b, hb⟩, -⟩
      · exact hissues'
      · -- a cycle of the prefix would be a cycle of the whole plan
        refine absurd (hb.mono fun p c he => ?_) (hacyclic b)
        rw [hbind'] at he
        exact hplanEdge (requiredEdge_of_closed hbyId hfree' hsub hclosed
          (he.mono fun _ => mem_sortBy.1))
    · rw [hbind']
      exact fun b hb => not_blocking_of_closed hbyId hfree' hsub hclosed b (mem_sortBy.1 hb)
  · rw [hids] at hissues
    cases hissues

end

/-! ## Two small installations -/

section

/-- Versions `major.minor.patch` and the caret requirement from a version with positive major. -/
abbrev Release := ℕ ×ₗ ℕ ×ₗ ℕ

def caretMatches (requirement version : Release) : Bool :=
  decide (requirement ≤ version) && (ofLex requirement).1 == (ofLex version).1

def release (major minor patch : ℕ) : Release := toLex (major, toLex (minor, patch))

def requirementOn (capability : CapabilityId) : BundleDependencyDeclaration Release where
  capability := capability
  version := release 1 0 0
  feature := ⟨"runtime", by decide⟩
  reason := "runtime dependency"
  providerBundle := none
  providerVersion := none

def installed (id : BundleId) (provides : List CapabilityId)
    (dependencies : BundleDependencies Release) : BundleDependencyCandidate Release Release where
  bundleId := id
  bundleVersion := release 1 0 0
  packageManifestSha256 := "aaaaaaaaaaaaaaaaaaaaaaaaaaaaaaaaaaaaaaaaaaaaaaaaaaaaaaaaaaaaaaaa"
  state := .installed
  provides := provides.map fun capability => ⟨capability, release 1 2 0, "provider"⟩
  dependencies := dependencies

def alpha : BundleId := ⟨"alpha", by decide⟩
def beta : BundleId := ⟨"beta", by decide⟩
def gamma : BundleId := ⟨"gamma", by decide⟩
def metrics : CapabilityId := ⟨"gadgetron.metrics", by decide⟩
def storage : CapabilityId := ⟨"gadgetron.storage", by decide⟩

/-- `alpha` needs the metrics of `beta`, which needs the storage of `gamma`. -/
def chain : List (BundleDependencyCandidate Release Release) :=
  [installed alpha [] ⟨[requirementOn metrics], [], []⟩,
    installed beta [metrics] ⟨[requirementOn storage], [], []⟩,
    installed gamma [storage] ⟨[], [requirementOn metrics], []⟩]

/-- `beta` and `gamma` need each other, and `alpha` needs `beta`. -/
def ring : List (BundleDependencyCandidate Release Release) :=
  [installed alpha [] ⟨[requirementOn metrics], [], []⟩,
    installed beta [metrics] ⟨[requirementOn storage], [], []⟩,
    installed gamma [storage] ⟨[requirementOn metrics], [], []⟩]

def planSatisfies (result : Except Fault (Except BundleSdkError (BundleDependencyPlan V R)))
    (check : BundleDependencyPlan V R → Bool) : Bool :=
  match result with
  | .ok (.ok plan) => check plan
  | _ => false

theorem exists_plan_of_planSatisfies
    {result : Except Fault (Except BundleSdkError (BundleDependencyPlan V R))}
    {check : BundleDependencyPlan V R → Bool} (h : planSatisfies result check = true) :
    ∃ plan, result = .ok (.ok plan) ∧ check plan = true := by
  unfold planSatisfies at h
  split at h
  · exact ⟨_, rfl, h⟩
  · cases h

theorem resolve_ring_reports_cycle : ∃ plan,
    resolveBundleDependencies caretMatches ring (OrdSet.ofList [alpha, beta, gamma]) =
      .ok (.ok plan) ∧ plan.issues.map DependencyPlanIssue.bundleIds = [[beta, gamma]] ∧
    OrdersOrReportsCycle (OrdSet.ofList [alpha, beta, gamma]) plan := by
  obtain ⟨plan, hplan, hcheck⟩ := exists_plan_of_planSatisfies
    (show planSatisfies
      (resolveBundleDependencies caretMatches ring (OrdSet.ofList [alpha, beta, gamma]))
      (fun plan => decide (plan.issues.map DependencyPlanIssue.bundleIds = [[beta, gamma]])) = true
      by decide)
  obtain ⟨result, hresult, hspec⟩ :=
    resolve_orders_or_reports_cycle caretMatches ring (OrdSet.ofList [alpha, beta, gamma])
  obtain rfl : result = .ok plan := Except.ok.inj (hresult.symm.trans hplan)
  exact ⟨plan, hplan, of_decide_eq_true hcheck, hspec plan rfl⟩

theorem resolve_chain_prefix_not_blocked : ∃ plan,
    resolveBundleDependencies caretMatches chain (OrdSet.ofList [alpha, beta, gamma]) =
      .ok (.ok plan) ∧ plan.enableOrder = [gamma, beta, alpha] ∧
    ∃ plan', resolveBundleDependencies caretMatches chain
        (OrdSet.ofList (plan.enableOrder.take 2)) = .ok (.ok plan') ∧ plan'.isBlocked = false := by
  obtain ⟨plan, hplan, hcheck⟩ := exists_plan_of_planSatisfies
    (show planSatisfies
      (resolveBundleDependencies caretMatches chain (OrdSet.ofList [alpha, beta, gamma]))
      (fun plan => !plan.isBlocked && decide (plan.enableOrder = [gamma, beta, alpha])) = true
      by decide)
  simp only [Bool.and_eq_true, Bool.not_eq_true', decide_eq_true_eq] at hcheck
  exact ⟨plan, hplan, hcheck.2, resolve_prefix_not_blocked hplan hcheck.1 2⟩

end

end Gadgetron.Bundle
