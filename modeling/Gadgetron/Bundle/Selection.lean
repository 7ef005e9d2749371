import Gadgetron.Bundle.Plan

/-!
# Selected providers

The order of accepted candidates does not matter to the plan: the provider of a declaration is the
preferred one of the offers that are eligible for it.
-/

namespace Gadgetron.Bundle

open Lib List

variable {V R : Type}

/-- Candidates with well-formed digests and distinct ids. -/
structure Accepted (candidates : List (BundleDependencyCandidate V R)) : Prop where
  sha256 : ∀ c ∈ candidates, validateSha256 c.packageManifestSha256 = .ok ()
  nodup : (candidates.map BundleDependencyCandidate.bundleId).Nodup

section

variable {candidates candidates' : List (BundleDependencyCandidate V R)}
  {byId byId' : OrdMap BundleId (BundleDependencyCandidate V R)}

theorem Accepted.perm (h : Accepted candidates) (hperm : candidates.Perm candidates') :
    Accepted candidates' where
  sha256 c hc := h.sha256 c (hperm.mem_iff.2 hc)
  nodup := (hperm.map _).nodup_iff.1 h.nodup

theorem Accepted.eq_of_id (h : Accepted candidates) {c c' : BundleDependencyCandidate V R}
    (hc : c ∈ candidates) (hc' : c' ∈ candidates) (hid : c.bundleId = c'.bundleId) : c = c' :=
  inj_on_of_nodup_map h.nodup hc hc' hid

theorem exists_validateCandidatesFrom :
    (∃ byId', validateCandidatesFrom byId candidates = .ok byId') ↔
      Accepted candidates ∧ ∀ c ∈ candidates, byId.get? c.bundleId = none := by
  induction candidates generalizing byId with
  | nil => simpa [validateCandidatesFrom] using ⟨by simp, nodup_nil⟩
  | cons a candidates ih =>
    unfold validateCandidatesFrom
    cases hsha : validateSha256 a.packageManifestSha256 with
    | error e =>
      refine iff_of_false (by simp) fun h => ?_
      exact absurd (h.1.sha256 a mem_cons_self) (by simp [hsha])
    | ok u =>
      dsimp only
      split_ifs with hsome
      · refine iff_of_false (by simp) fun h => ?_
        rw [h.2 a mem_cons_self] at hsome
        cases hsome
      · have hnone : byId.get? a.bundleId = none := by simpa using hsome
        rw [ih]
        constructor
        · rintro ⟨hacc, hfresh⟩
          have hne : ∀ c ∈ candidates, c.bundleId ≠ a.bundleId ∧ byId.get? c.bundleId = none := by
            intro c hc
            have := hfresh c hc
            rw [OrdMap.get?_insert] at this
            split_ifs at this with hid
            exact ⟨hid, this⟩
          refine ⟨⟨?_, ?_⟩, ?_⟩
          · exact forall_mem_cons.2 ⟨hsha, hacc.sha256⟩
          · rw [map_cons, nodup_cons]
            refine ⟨fun hmem => ?_, hacc.nodup⟩
            obtain ⟨c, hc, hid⟩ := List.mem_map.1 hmem
            exact (hne c hc).1 hid
          · exact forall_mem_cons.2 ⟨hnone, fun c hc => (hne c hc).2⟩
        · rintro ⟨hacc, hfresh⟩
          have hnodup := hacc.nodup
          rw [map_cons, nodup_cons] at hnodup
          refine ⟨⟨(forall_mem_cons.1 hacc.sha256).2, hnodup.2⟩, fun c hc => ?_⟩
          rw [OrdMap.get?_insert, if_neg fun hid => hnodup.1 (List.mem_map.2 ⟨c, hc, hid⟩)]
          exact hfresh c (mem_cons_of_mem a hc)

theorem exists_validateCandidates :
    (∃ byId, validateCandidates candidates = .ok byId) ↔ Accepted candidates := by
  rw [validateCandidates, exists_validateCandidatesFrom]
  simp

theorem get?_validateCandidatesFrom
    (h : validateCandidatesFrom byId candidates = .ok byId') (id : BundleId)
    (c : BundleDependencyCandidate V R) :
    byId'.get? id = some c ↔ byId.get? id = some c ∨ c ∈ candidates ∧ c.bundleId = id := by
  induction candidates generalizing byId with
  | nil =>
    cases h
    simp
  | cons a candidates ih =>
    unfold validateCandidatesFrom at h
    split at h
    · cases h
    · split_ifs at h with hsome
      rw [ih h, OrdMap.get?_insert]
      have hnone : byId.get? a.bundleId = none := by simpa using hsome
      split_ifs with hid
      · subst hid
        rw [hnone, mem_cons, Option.some.injEq]
        refine ⟨?_, ?_⟩
        · rintro (rfl | ⟨hc, hid⟩)
          · exact .inr ⟨.inl rfl, rfl⟩
          · exact .inr ⟨.inr hc, hid⟩
        · rintro (h | ⟨rfl | hc, hid⟩)
          · cases h
          · exact .inl rfl
          · exact .inr ⟨hc, hid⟩
      · simp only [mem_cons]
        refine or_congr_right (and_congr_left fun hc => ⟨.inr, ?_⟩)
        rintro (rfl | hmem)
        · exact absurd hc.symm hid
        · exact hmem

section

variable (h : validateCandidates candidates = .ok byId)

include h

theorem get?_validateCandidates (id : BundleId)
    (c : BundleDependencyCandidate V R) :
    byId.get? id = some c ↔ c ∈ candidates ∧ c.bundleId = id := by
  rw [get?_validateCandidatesFrom h]
  simp

theorem get?_eq_find? (id : BundleId) :
    byId.get? id = candidates.find? (·.bundleId = id) := by
  cases hfind : candidates.find? (·.bundleId = id) with
  | none =>
    refine Option.eq_none_iff_forall_ne_some.2 fun c hc => ?_
    obtain ⟨hmem, hid⟩ := (get?_validateCandidates h id c).1 hc
    exact find?_eq_none.1 hfind c hmem (decide_eq_true hid)
  | some c =>
    have hid : c.bundleId = id := by simpa using find?_some hfind
    exact (get?_validateCandidates h id c).2 ⟨mem_of_find?_eq_some hfind, hid⟩

theorem validateCandidates_perm (hperm : candidates.Perm candidates') :
    validateCandidates candidates' = .ok byId := by
  obtain ⟨byId', h'⟩ := exists_validateCandidates.2
    ((exists_validateCandidates.1 ⟨byId, h⟩).perm hperm)
  rw [h']
  refine congrArg _ (OrdMap.ext fun id => Option.ext fun c => ?_)
  rw [get?_validateCandidates h', get?_validateCandidates h, hperm.mem_iff]

end

end

/-! ## Eligible offers -/

variable [LinearOrder V] (reqMatches : R → V → Bool) (consumer : BundleDependencyCandidate V R)
  (declaration : BundleDependencyDeclaration R) (candidates : List (BundleDependencyCandidate V R))
  (desired : OrdSet BundleId)

/-- An offer of the declared capability by another bundle, or by the one that is named, in the
declared versions. -/
structure Eligible (offer : Offer V R) : Prop where
  candidate : offer.1 ∈ candidates
  other : offer.1.bundleId ≠ consumer.bundleId
  named : ∀ id ∈ declaration.providerBundle, offer.1.bundleId = id
  provides : offer.2 ∈ offer.1.provides
  capability : offer.2.id = declaration.capability
  version : reqMatches declaration.version offer.2.version = true
  providerVersion :
    ∀ requirement ∈ declaration.providerVersion, reqMatches requirement offer.1.bundleVersion = true

def offerKey (offer : Offer V R) : Vᵒᵈ ×ₗ BundleId :=
  toLex (OrderDual.toDual offer.2.version, offer.1.bundleId)

theorem providerOrder_eq (left right : Offer V R) :
    providerOrder left right = compare (offerKey left) (offerKey right) := by
  rw [Prod.Lex.compare_def]
  rfl

theorem mem_compatible {offer : Offer V R} :
    offer ∈ compatible reqMatches consumer declaration candidates ↔
      Eligible reqMatches consumer declaration candidates offer := by
  unfold compatible targeted
  rw [mem_sortBy]
  simp only [List.mem_filter, mem_flatMap, List.mem_map, decide_eq_true_eq,
    Bool.and_eq_true, Option.all_eq_true]
  constructor
  · rintro ⟨⟨c, ⟨⟨hc, hother⟩, hnamed⟩, p, ⟨hp, hcap⟩, rfl⟩, hversion, hprovider⟩
    exact ⟨hc, hother, hnamed, hp, hcap, hversion, hprovider⟩
  · intro h
    exact ⟨⟨offer.1, ⟨⟨h.candidate, h.other⟩, h.named⟩, offer.2, ⟨h.provides, h.capability⟩, rfl⟩,
      h.version, h.providerVersion⟩

theorem compatible_pairwise : (compatible reqMatches consumer declaration candidates).Pairwise
    fun a b => offerKey a ≤ offerKey b :=
  sortBy_pairwise_le providerOrder_eq _

/-! ## The order of the candidates -/

variable {reqMatches consumer declaration candidates}

omit [LinearOrder V] in
theorem Accepted.projection_eq (h : Accepted candidates) {a b : Offer V R}
    (ha : Eligible reqMatches consumer declaration candidates a)
    (hb : Eligible reqMatches consumer declaration candidates b) (hkey : offerKey a = offerKey b) :
    providerProjection a = providerProjection b := by
  obtain ⟨hversion, hid⟩ := Prod.ext_iff.1 (toLex.injective hkey)
  have hcandidate : a.1 = b.1 := h.eq_of_id ha.candidate hb.candidate hid
  unfold providerProjection
  rw [hcandidate, OrderDual.toDual_inj.1 hversion]

variable (reqMatches consumer declaration) {candidates' : List (BundleDependencyCandidate V R)}

theorem map_head?_perm (h : Accepted candidates) (hperm : candidates.Perm candidates')
    (p : Offer V R → Bool) :
    ((compatible reqMatches consumer declaration candidates).filter p).head?.map
        providerProjection =
      ((compatible reqMatches consumer declaration candidates').filter p).head?.map
        providerProjection := by
  have hmem : ∀ a, a ∈ compatible reqMatches consumer declaration candidates ↔
      a ∈ compatible reqMatches consumer declaration candidates' := by
    intro a
    rw [mem_compatible, mem_compatible]
    constructor
    · intro ha
      exact { ha with candidate := hperm.mem_iff.1 ha.candidate }
    · intro ha
      exact { ha with candidate := hperm.mem_iff.2 ha.candidate }
  refine map_head?_eq ((compatible_pairwise _ _ _ _).filter p)
    ((compatible_pairwise _ _ _ _).filter p)
    (fun a => by rw [List.mem_filter, List.mem_filter, hmem]) fun a ha b hb hkey => ?_
  exact h.projection_eq ((mem_compatible _ _ _ _).1 (mem_of_mem_filter ha))
    ((mem_compatible _ _ _ _).1 (mem_of_mem_filter hb)) hkey

omit [LinearOrder V] in
theorem targeted_perm (hperm : candidates.Perm candidates') :
    (targeted consumer declaration candidates).Perm (targeted consumer declaration candidates') :=
  ((hperm.filter _).filter _).flatMap_right _

/-- What a binding is made of: the preferred healthy active, active and known providers, and whether
any bundle offers the capability. -/
def settle (relation : DependencyRelation)
    (activeHealthy active compatible : Option (ResolvedCapabilityProvider V)) (targeted : Bool) :
    DependencyBindingState × Option (ResolvedCapabilityProvider V) × Bool :=
  match relation with
  | .conflict =>
    match active with
    | some provider => (.conflict, some provider, true)
    | none => (.clear, none, false)
  | .required | .optional =>
    let blockingRelation := decide (relation = .required)
    match activeHealthy, active, compatible with
    | some provider, _, _ => (.satisfied, some provider, false)
    | none, some provider, _ => (.unhealthy, some provider, blockingRelation)
    | none, none, some provider => (.providerNotEnabled, some provider, blockingRelation)
    | none, none, none => (if targeted then .incompatible else .missing, none, blockingRelation)

theorem bindingOutcome_eq_settle (relation : DependencyRelation) :
    bindingOutcome reqMatches consumer relation declaration candidates desired = settle relation
        ((activeHealthy reqMatches consumer declaration candidates desired).head?.map
          providerProjection)
        ((active reqMatches consumer declaration candidates desired).head?.map providerProjection)
        ((compatible reqMatches consumer declaration candidates).head?.map providerProjection)
        (!(targeted consumer declaration candidates).isEmpty) := by
  unfold bindingOutcome settle
  dsimp only
  cases (activeHealthy reqMatches consumer declaration candidates desired).head? <;>
    cases (active reqMatches consumer declaration candidates desired).head? <;>
      cases (compatible reqMatches consumer declaration candidates).head? <;>
        cases (targeted consumer declaration candidates).isEmpty <;> cases relation <;> rfl

section

variable (h : Accepted candidates) (hperm : candidates.Perm candidates')
include h hperm

theorem bindingOutcome_perm (relation : DependencyRelation) :
    bindingOutcome reqMatches consumer relation declaration candidates desired =
      bindingOutcome reqMatches consumer relation declaration candidates' desired := by
  have hcompatible := map_head?_perm reqMatches consumer declaration h hperm fun _ => true
  have hactive := map_head?_perm reqMatches consumer declaration h hperm
    fun offer => decide (offer.1.bundleId ∈ desired)
  have hhealthy := map_head?_perm reqMatches consumer declaration h hperm fun offer =>
    offer.1.state.isAvailableForPlan && decide (offer.1.bundleId ∈ desired)
  rw [filter_true, filter_true] at hcompatible
  rw [← List.filter_filter, ← List.filter_filter] at hhealthy
  rw [bindingOutcome_eq_settle, bindingOutcome_eq_settle, activeHealthy, activeHealthy, active,
    active, hhealthy, hactive, hcompatible, (targeted_perm consumer declaration hperm).isEmpty_eq]

theorem resolveDeclaration_perm :
    (fun consumer relation declaration =>
        resolveDeclaration reqMatches consumer relation declaration candidates desired) =
      fun consumer relation declaration =>
        resolveDeclaration reqMatches consumer relation declaration candidates' desired := by
  funext consumer relation declaration
  unfold resolveDeclaration
  rw [bindingOutcome_perm reqMatches consumer declaration desired h hperm relation]

theorem buildPlan_perm (byId : OrdMap BundleId (BundleDependencyCandidate V R)) :
    buildPlan reqMatches candidates desired byId =
      buildPlan reqMatches candidates' desired byId := by
  have hcollect : collectDeclaration reqMatches candidates desired =
      collectDeclaration reqMatches candidates' desired := by
    funext consumer relation acc declaration
    have hbinding := congrFun (congrFun (congrFun
      (resolveDeclaration_perm reqMatches desired h hperm) consumer) relation) declaration
    unfold collectDeclaration
    rw [show resolveDeclaration reqMatches consumer relation declaration candidates desired = _ from
      hbinding]
  unfold buildPlan collectConsumer
  rw [hcollect]

end

/-! ## Preferred offers -/

/-- The offer with the highest version of the capability, and with the least bundle id among
those. -/
def Preferred (P : Offer V R → Prop) (offer : Offer V R) : Prop :=
  P offer ∧ ∀ other, P other → other.2.version < offer.2.version ∨
    other.2.version = offer.2.version ∧ offer.1.bundleId ≤ other.1.bundleId

/-- The provider is the preferred offer of the first kind of which there is any offer. -/
def Chosen (provider : Option (ResolvedCapabilityProvider V)) : List (Offer V R → Prop) → Prop
  | [] => provider = none
  | P :: kinds =>
    (∃ offer, Preferred P offer ∧ provider = some (providerProjection offer)) ∨
      (∀ offer, ¬P offer) ∧ Chosen provider kinds

variable {reqMatches consumer declaration desired} {p : Offer V R → Bool}

theorem preferred_of_head? {offer : Offer V R}
    (h : ((compatible reqMatches consumer declaration candidates).filter p).head? = some offer) :
    Preferred (fun offer => Eligible reqMatches consumer declaration candidates offer ∧
      p offer = true) offer := by
  have hmem : ∀ {other}, (Eligible reqMatches consumer declaration candidates other ∧
      p other = true) ↔
        other ∈ (compatible reqMatches consumer declaration candidates).filter p := by
    intro other
    rw [List.mem_filter, mem_compatible]
  refine ⟨hmem.2 (mem_of_mem_head? h), fun other hother => ?_⟩
  have hkey := key_head_le ((compatible_pairwise _ _ _ _).filter p) h (hmem.1 hother)
  rcases Prod.Lex.le_iff.1 hkey with hlt | ⟨heq, hle⟩
  · exact .inl (OrderDual.toDual_lt_toDual.1 hlt)
  · exact .inr ⟨(OrderDual.toDual_inj.1 heq).symm, hle⟩

theorem chosen_cons {P : Offer V R → Prop}
    {provider : Option (ResolvedCapabilityProvider V)} {kinds : List (Offer V R → Prop)}
    (hP : ∀ offer, P offer ↔
      Eligible reqMatches consumer declaration candidates offer ∧ p offer = true)
    (hsome : ∀ found, ((compatible reqMatches consumer declaration candidates).filter p).head?.map
      providerProjection = some found → provider = some found)
    (hnone : ((compatible reqMatches consumer declaration candidates).filter p).head?.map
      providerProjection = none → Chosen provider kinds) : Chosen provider (P :: kinds) := by
  obtain rfl : P = fun offer =>
      Eligible reqMatches consumer declaration candidates offer ∧ p offer = true :=
    funext fun offer => propext (hP offer)
  cases hhead : ((compatible reqMatches consumer declaration candidates).filter p).head? with
  | some offer => exact .inl ⟨offer, preferred_of_head? hhead, hsome _ (by rw [hhead]; rfl)⟩
  | none =>
    refine .inr ⟨fun offer hoffer => ?_, hnone (by rw [hhead]; rfl)⟩
    rw [head?_eq_none_iff] at hhead
    have hmem : offer ∈ (compatible reqMatches consumer declaration candidates).filter p :=
      List.mem_filter.2 ⟨(mem_compatible _ _ _ _).2 hoffer.1, hoffer.2⟩
    rw [hhead] at hmem
    cases hmem

variable (reqMatches consumer declaration candidates desired)

def kinds : DependencyRelation → List (Offer V R → Prop)
  | .conflict =>
    [fun offer => Eligible reqMatches consumer declaration candidates offer ∧
      offer.1.bundleId ∈ desired]
  | .required | .optional =>
    [fun offer => Eligible reqMatches consumer declaration candidates offer ∧
        offer.1.bundleId ∈ desired ∧ offer.1.state ≠ .enabledUnhealthy,
      fun offer => Eligible reqMatches consumer declaration candidates offer ∧
        offer.1.bundleId ∈ desired,
      Eligible reqMatches consumer declaration candidates]

theorem resolveDeclaration_chosen (relation : DependencyRelation) :
    Chosen (resolveDeclaration reqMatches consumer relation declaration candidates
      desired).provider (kinds reqMatches consumer declaration candidates desired relation) := by
  have hprovider : (resolveDeclaration reqMatches consumer relation declaration candidates
      desired).provider =
    (bindingOutcome reqMatches consumer relation declaration candidates desired).2.1 := rfl
  rw [hprovider, bindingOutcome_eq_settle]
  have hactive : active reqMatches consumer declaration candidates desired =
      (compatible reqMatches consumer declaration candidates).filter fun offer =>
        decide (offer.1.bundleId ∈ desired) := rfl
  have hhealthy : activeHealthy reqMatches consumer declaration candidates desired =
      (compatible reqMatches consumer declaration candidates).filter fun offer =>
        offer.1.state.isAvailableForPlan && decide (offer.1.bundleId ∈ desired) := by
    rw [activeHealthy, hactive, List.filter_filter]
  have hconflict : ∀ offer : Offer V R,
      (Eligible reqMatches consumer declaration candidates offer ∧ offer.1.bundleId ∈ desired) ↔
        Eligible reqMatches consumer declaration candidates offer ∧
          decide (offer.1.bundleId ∈ desired) = true := by
    intro offer
    rw [decide_eq_true_eq]
  have hdependency : ∀ offer : Offer V R,
      (Eligible reqMatches consumer declaration candidates offer ∧ offer.1.bundleId ∈ desired ∧
          offer.1.state ≠ .enabledUnhealthy) ↔
        Eligible reqMatches consumer declaration candidates offer ∧
          (offer.1.state.isAvailableForPlan && decide (offer.1.bundleId ∈ desired)) = true := by
    intro offer
    rw [Bool.and_eq_true, decide_eq_true_eq, BundleCandidateState.isAvailableForPlan, bne_iff_ne,
      and_comm (a := offer.1.state ≠ _)]
  have heligible : ∀ offer : Offer V R,
      Eligible reqMatches consumer declaration candidates offer ↔
        Eligible reqMatches consumer declaration candidates offer ∧ true = true := fun offer =>
    (and_iff_left rfl).symm
  cases relation with
  | conflict =>
    refine chosen_cons hconflict (fun found h => ?_) fun h => ?_
    · rw [hactive, h]
      rfl
    · rw [hactive, h]
      rfl
  | required | optional =>
    rw [hhealthy, hactive]
    refine chosen_cons hdependency (fun found h => ?_) fun h => ?_
    · rw [h]
      rfl
    · refine chosen_cons hconflict (fun found h' => ?_) fun h' => ?_
      · rw [h, h']
        rfl
      · refine chosen_cons heligible (fun found h'' => ?_) fun h'' => ?_
        all_goals
          rw [filter_true] at h''
          rw [h, h', h'']
          rfl

/-! ## Plans -/

theorem resolve_of_not_accepted (h : ¬Accepted candidates) :
    ∃ e, resolveBundleDependencies reqMatches candidates desired = .ok (.error e) := by
  unfold resolveBundleDependencies
  cases hv : validateCandidates candidates with
  | error e => exact ⟨e, rfl⟩
  | ok byId => exact absurd (exists_validateCandidates.1 ⟨byId, hv⟩) h

theorem resolve_perm {candidates' : List (BundleDependencyCandidate V R)} (h : Accepted candidates)
    (hperm : candidates.Perm candidates') :
    resolveBundleDependencies reqMatches candidates' desired =
      resolveBundleDependencies reqMatches candidates desired := by
  obtain ⟨byId, hbyId⟩ := exists_validateCandidates.2 h
  unfold resolveBundleDependencies
  rw [validateCandidates_perm hbyId hperm, hbyId]
  dsimp only
  rw [buildPlan_perm reqMatches desired h hperm byId]

/-- The declarations of the desired bundles, with who makes them. -/
def declared : List (BundleDependencyCandidate V R × DependencyRelation ×
    BundleDependencyDeclaration R) :=
  desired.toList.flatMap fun id =>
    (candidates.find? (·.bundleId = id)).elim [] fun consumer =>
      [.required, .optional, .conflict].flatMap fun relation =>
        (consumer.dependencies.declarations relation).map fun declaration =>
          (consumer, relation, declaration)

/-- A binding repeats its declaration and has the preferred provider of the offers for it. -/
structure Binds (declaration : BundleDependencyCandidate V R × DependencyRelation ×
    BundleDependencyDeclaration R) (binding : BundleDependencyBinding V R) : Prop where
  consumer : binding.consumerBundleId = declaration.1.bundleId
  relation : binding.relation = declaration.2.1
  capability : binding.capability = declaration.2.2.capability
  version : binding.version = declaration.2.2.version
  feature : binding.feature = declaration.2.2.feature
  reason : binding.reason = declaration.2.2.reason
  provider : Chosen binding.provider
    (kinds reqMatches declaration.1 declaration.2.2 candidates desired declaration.2.1)

theorem allBindings_eq {byId : OrdMap BundleId (BundleDependencyCandidate V R)}
    (h : validateCandidates candidates = .ok byId) :
    allBindings reqMatches candidates desired byId = (declared candidates desired).map fun d =>
      resolveDeclaration reqMatches d.1 d.2.1 d.2.2 candidates desired := by
  rw [allBindings, declared, map_flatMap]
  refine flatMap_congr fun id _ => ?_
  rw [get?_eq_find? h]
  cases candidates.find? (·.bundleId = id) with
  | none => rfl
  | some consumer =>
    simp [consumerBindings, BundleDependencies.declarations, ← map_eq_flatMap, Function.comp_def]

theorem bindings_of_plan {plan : BundleDependencyPlan V R}
    (hplan : resolveBundleDependencies reqMatches candidates desired = .ok (.ok plan)) :
    (∀ id ∈ desired, ∃ consumer ∈ candidates, consumer.bundleId = id) ∧
      ∃ bindings, plan.bindings.Perm bindings ∧
        List.Forall₂ (Binds reqMatches candidates desired) (declared candidates desired)
          bindings := by
  obtain ⟨byId, hv, hknown, hbuild⟩ := (resolve_eq_ok_iff _ _ _).1 hplan
  have hbyId : ∀ id c, byId.get? id = some c → c.bundleId = id :=
    fun id c => validateCandidates_spec hv
  obtain ⟨plan₀, hbuild₀, hbindings, -⟩ := buildPlan_spec reqMatches candidates desired hbyId hknown
  obtain rfl : plan = plan₀ := Except.ok.inj (hbuild.symm.trans hbuild₀)
  constructor
  · intro id hid
    obtain ⟨consumer, hconsumer⟩ := hknown id hid
    exact ⟨consumer, (get?_validateCandidates hv id consumer).1 hconsumer⟩
  · refine ⟨_, hbindings ▸ sortBy_perm _ _, ?_⟩
    rw [allBindings_eq _ _ _ hv, forall₂_map_right_iff, forall₂_same]
    exact fun d _ => ⟨rfl, rfl, rfl, rfl, rfl, rfl, resolveDeclaration_chosen _ _ _ _ _ d.2.1⟩

/-- A plan is a function of the candidates: it has one binding for each declaration of the desired
bundles, with the preferred provider, and no others. -/
theorem plan_of_candidates {candidates' : List (BundleDependencyCandidate V R)}
    (hperm : candidates.Perm candidates') :
    (Accepted candidates → resolveBundleDependencies reqMatches candidates' desired =
        resolveBundleDependencies reqMatches candidates desired) ∧
      (¬Accepted candidates → ∀ given ∈ [candidates, candidates'],
        ∃ e, resolveBundleDependencies reqMatches given desired = .ok (.error e)) ∧
      ∀ plan, resolveBundleDependencies reqMatches candidates desired = .ok (.ok plan) →
        (∀ id ∈ desired, ∃ consumer ∈ candidates, consumer.bundleId = id) ∧
          ∃ bindings, plan.bindings.Perm bindings ∧
            List.Forall₂ (Binds reqMatches candidates desired) (declared candidates desired)
              bindings := by
  refine ⟨fun h => resolve_perm _ _ _ h hperm, fun h => ?_, fun plan hplan =>
    bindings_of_plan _ _ _ hplan⟩
  rw [forall_mem_cons, forall_mem_singleton]
  exact ⟨resolve_of_not_accepted _ _ _ h,
    resolve_of_not_accepted _ _ _ fun h' => h (h'.perm hperm.symm)⟩

/-! ## Samples -/

section

def refusal (result : Except Fault (Except BundleSdkError (BundleDependencyPlan V R))) :
    Option BundleSdkError :=
  match result with
  | .ok (.error e) => some e
  | _ => none

def provider (id : BundleId) (state : BundleCandidateState) :
    BundleDependencyCandidate Release Release :=
  { installed id [metrics] ⟨[], [], []⟩ with state }

/-- Twice `alpha` and twice `beta`. -/
def twins : List (BundleDependencyCandidate Release Release) :=
  [provider alpha .installed, provider alpha .installed, provider beta .installed,
    provider beta .installed]

/-- The first error is reported; a conflict is with an unhealthy bundle too; and a declaration that
names its provider gets no other. -/
theorem twins_refused_in_order : twins.Perm twins.reverse ∧
      resolveBundleDependencies caretMatches twins (OrdSet.ofList [alpha]) ≠
        resolveBundleDependencies caretMatches twins.reverse (OrdSet.ofList [alpha]) ∧
      (resolveDeclaration caretMatches (provider alpha .installed) .conflict (requirementOn metrics)
        [provider beta .enabledUnhealthy, provider gamma .enabledHealthy]
        (OrdSet.ofList [alpha, beta, gamma])).provider.map ResolvedCapabilityProvider.bundleId =
          some beta ∧ (resolveDeclaration caretMatches (provider alpha .installed) .required
        { requirementOn metrics with providerBundle := some gamma }
        [provider beta .enabledHealthy, provider gamma .enabledHealthy]
        (OrdSet.ofList [alpha, beta, gamma])).provider.map ResolvedCapabilityProvider.bundleId =
          some gamma := by
  refine ⟨(reverse_perm _).symm, fun h => ?_, by decide, by decide⟩
  exact absurd (congrArg refusal h) (by decide)

theorem chain_reversed : ∃ plan,
    resolveBundleDependencies caretMatches chain.reverse (OrdSet.ofList [alpha, beta, gamma]) =
      .ok (.ok plan) ∧ plan.enableOrder = [gamma, beta, alpha] := by
  obtain ⟨plan, hplan, hcheck⟩ := exists_plan_of_planSatisfies
    (show planSatisfies
      (resolveBundleDependencies caretMatches chain (OrdSet.ofList [alpha, beta, gamma]))
      (fun plan => decide (plan.enableOrder = [gamma, beta, alpha])) = true by decide)
  obtain ⟨result, -⟩ := plan_of_candidates caretMatches chain
    (OrdSet.ofList [alpha, beta, gamma]) (reverse_perm chain).symm
  refine ⟨plan, (result ⟨by decide, by decide⟩).trans hplan, of_decide_eq_true hcheck⟩

end

end Gadgetron.Bundle
