import Gadgetron.Bundle.Id
import Gadgetron.Lib.SortBy
import Gadgetron.Bundle.TopologicalOrder

/-!
# The bundle dependency resolver

`resolve_bundle_dependencies` of the bundle SDK with the records it reads and returns.
-/

namespace Gadgetron.Bundle

open Lib

inductive BundleCandidateState
  | installed
  | enabledHealthy
  | enabledUnhealthy
  deriving DecidableEq

def BundleCandidateState.isAvailableForPlan (state : BundleCandidateState) : Bool :=
  state != .enabledUnhealthy

structure ProvidedCapability (V : Type) where
  id : CapabilityId
  version : V
  description : String

structure BundleDependencyDeclaration (R : Type) where
  capability : CapabilityId
  version : R
  feature : LocalId
  reason : String
  providerBundle : Option BundleId
  providerVersion : Option R

structure BundleDependencies (R : Type) where
  (requires optional conflicts : List (BundleDependencyDeclaration R))

structure BundleDependencyCandidate (V R : Type) where
  bundleId : BundleId
  bundleVersion : V
  packageManifestSha256 : String
  state : BundleCandidateState
  provides : List (ProvidedCapability V)
  dependencies : BundleDependencies R

inductive DependencyRelation
  | required
  | optional
  | conflict
  deriving DecidableEq

inductive DependencyBindingState
  | satisfied
  | clear
  | missing
  | incompatible
  | providerNotEnabled
  | unhealthy
  | conflict
  deriving DecidableEq

structure ResolvedCapabilityProvider (V : Type) where
  bundleId : BundleId
  (bundleVersion capabilityVersion : V)

structure BundleDependencyBinding (V R : Type) where
  consumerBundleId : BundleId
  relation : DependencyRelation
  capability : CapabilityId
  version : R
  feature : LocalId
  reason : String
  state : DependencyBindingState
  blocking : Bool
  provider : Option (ResolvedCapabilityProvider V)

inductive DependencyPlanIssueCode
  | requiredCycle

structure DependencyPlanIssue where
  code : DependencyPlanIssueCode
  bundleIds : List BundleId
  detail : String

structure BundleDependencyPlan (V R : Type) where
  (desiredEnabled enableOrder : List BundleId)
  bindings : List (BundleDependencyBinding V R)
  issues : List DependencyPlanIssue

section

variable {V R : Type}

def BundleDependencyPlan.isBlocked (plan : BundleDependencyPlan V R) : Bool :=
  !plan.issues.isEmpty || plan.bindings.any fun binding => binding.blocking

/-! ## Validation of the input -/

def validateSha256 (value : String) : Except BundleSdkError Unit :=
  if value.utf8ByteSize == 64 &&
      value.toList.all fun c => c.isDigit || (decide ('a' ≤ c) && decide (c ≤ 'f')) then
    .ok ()
  else
    .error (.invalidManifest "package_manifest_sha256"
      "must be a 64-character lowercase hexadecimal SHA-256 digest")

/-- The loop of `validate_candidates`, from the map built so far.  An id has no character that the
quoting of a debug print would escape. -/
def validateCandidatesFrom :
    OrdMap BundleId (BundleDependencyCandidate V R) → List (BundleDependencyCandidate V R) →
      Except BundleSdkError (OrdMap BundleId (BundleDependencyCandidate V R))
  | byId, [] => .ok byId
  | byId, candidate :: rest =>
    match validateSha256 candidate.packageManifestSha256 with
    | .error e => .error e
    | .ok () =>
      if (byId.get? candidate.bundleId).isSome then
        .error (.invalidManifest "dependency_candidates"
          ("duplicate Bundle candidate \"" ++ candidate.bundleId.asStr ++ "\""))
      else validateCandidatesFrom (byId.insert candidate.bundleId candidate) rest

def validateCandidates (candidates : List (BundleDependencyCandidate V R)) :
    Except BundleSdkError (OrdMap BundleId (BundleDependencyCandidate V R)) :=
  validateCandidatesFrom OrdMap.empty candidates

def requireCandidate (candidates : OrdMap BundleId (BundleDependencyCandidate V R))
    (bundleId : BundleId) : Except BundleSdkError Unit :=
  if (candidates.get? bundleId).isSome then .ok ()
  else .error (.invalidManifest "desired_enabled"
    ("references unknown Bundle \"" ++ bundleId.asStr ++ "\""))

/-! ## Resolving one declaration -/

abbrev Offer (V R : Type) := BundleDependencyCandidate V R × ProvidedCapability V

def providerProjection (offer : Offer V R) : ResolvedCapabilityProvider V :=
  ⟨offer.1.bundleId, offer.1.bundleVersion, offer.2.version⟩

variable [LinearOrder V]

/-- `provider_order`: the highest capability version first, then the least bundle id. -/
def providerOrder (left right : Offer V R) : Ordering :=
  (compare right.2.version left.2.version).then (compare left.1.bundleId right.1.bundleId)

def relationRank : DependencyRelation → ℕ
  | .required => 0
  | .optional => 1
  | .conflict => 2

def bindingOrder (left right : BundleDependencyBinding V R) : Ordering :=
  (compare left.consumerBundleId right.consumerBundleId).then
    ((compare (relationRank left.relation) (relationRank right.relation)).then
      (compare left.capability right.capability))

variable (reqMatches : R → V → Bool)

section

variable (consumer : BundleDependencyCandidate V R) (relation : DependencyRelation)
  (declaration : BundleDependencyDeclaration R) (candidates : List (BundleDependencyCandidate V R))

/-- The offers of the declared capability by the other bundles, or by the one that is named. -/
def targeted : List (Offer V R) :=
  ((candidates.filter fun candidate => decide (candidate.bundleId ≠ consumer.bundleId)).filter
    fun candidate => declaration.providerBundle.all fun bundleId =>
      decide (candidate.bundleId = bundleId)).flatMap fun candidate =>
        (candidate.provides.filter fun provided =>
          decide (provided.id = declaration.capability)).map fun provided => (candidate, provided)

/-- The targeted offers that meet the version requirements, the preferred one first. -/
def compatible : List (Offer V R) :=
  sortBy providerOrder <| (targeted consumer declaration candidates).filter fun offer =>
    reqMatches declaration.version offer.2.version &&
      declaration.providerVersion.all fun requirement =>
        reqMatches requirement offer.1.bundleVersion

variable (desiredEnabled : OrdSet BundleId)

def active : List (Offer V R) :=
  (compatible reqMatches consumer declaration candidates).filter fun offer =>
    decide (offer.1.bundleId ∈ desiredEnabled)

def activeHealthy : List (Offer V R) :=
  (active reqMatches consumer declaration candidates desiredEnabled).filter fun offer =>
    offer.1.state.isAvailableForPlan

def bindingOutcome : DependencyBindingState × Option (ResolvedCapabilityProvider V) × Bool :=
  let targeted := targeted consumer declaration candidates
  let compatible := compatible reqMatches consumer declaration candidates
  let active := active reqMatches consumer declaration candidates desiredEnabled
  let activeHealthy := activeHealthy reqMatches consumer declaration candidates desiredEnabled
  match relation with
  | .conflict =>
    match active.head? with
    | some offer => (.conflict, some (providerProjection offer), true)
    | none => (.clear, none, false)
  | .required | .optional =>
    let blockingRelation := decide (relation = .required)
    match activeHealthy.head?, active.head?, compatible.head? with
    | some offer, _, _ => (.satisfied, some (providerProjection offer), false)
    | none, some offer, _ => (.unhealthy, some (providerProjection offer), blockingRelation)
    | none, none, some offer =>
      (.providerNotEnabled, some (providerProjection offer), blockingRelation)
    | none, none, none =>
      if targeted.isEmpty then (.missing, none, blockingRelation)
      else (.incompatible, none, blockingRelation)

def resolveDeclaration : BundleDependencyBinding V R :=
  let (state, provider, blocking) :=
    bindingOutcome reqMatches consumer relation declaration candidates desiredEnabled
  { consumerBundleId := consumer.bundleId
    relation
    capability := declaration.capability
    version := declaration.version
    feature := declaration.feature
    reason := declaration.reason
    state
    blocking
    provider }

end

/-! ## The resolver -/

structure Collected (V R : Type) where
  bindings : List (BundleDependencyBinding V R)
  requiredEdges : OrdMap BundleId (OrdSet BundleId)

variable (candidates : List (BundleDependencyCandidate V R)) (desiredEnabled : OrdSet BundleId)

def collectDeclaration (consumer : BundleDependencyCandidate V R) (relation : DependencyRelation)
    (acc : Collected V R) (declaration : BundleDependencyDeclaration R) :
    Except Fault (Collected V R) :=
  let binding :=
    resolveDeclaration reqMatches consumer relation declaration candidates desiredEnabled
  if relation = .required ∧ binding.state = .satisfied then
    match binding.provider with
    | none => .error (.expect "satisfied requirement has a provider")
    | some provider => .ok
        { bindings := acc.bindings ++ [binding]
          requiredEdges := acc.requiredEdges.insert provider.bundleId
            (((acc.requiredEdges.get? provider.bundleId).getD OrdSet.empty).insert
              consumer.bundleId) }
  else .ok { acc with bindings := acc.bindings ++ [binding] }

def collectConsumer (byId : OrdMap BundleId (BundleDependencyCandidate V R))
    (acc : Collected V R) (consumerId : BundleId) : Except Fault (Collected V R) :=
  match byId.get? consumerId with
  | none => .error (.expect "desired candidates were validated")
  | some consumer => do
    let collect := collectDeclaration reqMatches candidates desiredEnabled consumer
    let acc ← consumer.dependencies.requires.foldlM (collect .required) acc
    let acc ← consumer.dependencies.optional.foldlM (collect .optional) acc
    consumer.dependencies.conflicts.foldlM (collect .conflict) acc

def cycleIssue (bundleIds : List BundleId) : DependencyPlanIssue where
  code := .requiredCycle
  bundleIds := bundleIds
  detail := "required dependency cycle involves " ++
    String.intercalate ", " (bundleIds.map StringNewtype.asStr)

/-- The part of the resolver that runs once the input is validated. -/
def buildPlan (byId : OrdMap BundleId (BundleDependencyCandidate V R)) :
    Except Fault (BundleDependencyPlan V R) := do
  let collected ← desiredEnabled.toList.foldlM
    (collectConsumer reqMatches candidates desiredEnabled byId)
    { bindings := [], requiredEdges := OrdMap.const desiredEnabled OrdSet.empty }
  let (enableOrder, cycle) ← topologicalOrder desiredEnabled collected.requiredEdges
  return {
    desiredEnabled := desiredEnabled.toList
    enableOrder
    bindings := sortBy bindingOrder collected.bindings
    issues := (cycle.map fun bundleIds => [cycleIssue bundleIds]).getD [] }

def resolveBundleDependencies : Except Fault (Except BundleSdkError (BundleDependencyPlan V R)) :=
  match validateCandidates candidates with
  | .error e => .ok (.error e)
  | .ok byId =>
    match forM desiredEnabled.toList (requireCandidate byId) with
    | .error e => .ok (.error e)
    | .ok () => do
      let plan ← buildPlan reqMatches candidates desiredEnabled byId
      return .ok plan

end

end Gadgetron.Bundle
