import Gadgetron.Core.Context
import Gadgetron.Lib.Exec
import Gadgetron.Lib.Text

/-!
# Knowledge collections

The rows of `knowledge_collections` and `validate_collection_input`, which a collection passes when
it is created and whenever it is updated.
-/

namespace Gadgetron.Collections

open Lib

structure CollectionLocator where
  (url title sourceClass : String)
  deriving DecidableEq

structure CollectionQuery where
  (provider query scope : String)
  tags : List String
  language : Option String
  windowDays : ℕ

inductive CollectionStatus
  | active
  | paused
  | archived
  deriving DecidableEq

/-- The columns of a collection that no statement changes; a run has copies of them. -/
structure CollectionProfile where
  (spaceId outputVaultId : Uuid)
  (bundleId profileId connector : String)
  (sourceClasses allowedDomains : List String)
  (freshnessSeconds maxSources maxBytes maxWallSeconds : ℤ)
  (recipeAssetId recipeSha256 : String)

structure KnowledgeCollectionRow where
  (id tenantId : Uuid)
  profile : CollectionProfile
  (label topic : String)
  status : CollectionStatus
  schedule : Option String
  scheduleEnabled : Bool
  nextRunAt : Option ℤ
  packageManifestSha256 : String
  locators : List CollectionLocator
  queries : List CollectionQuery
  (createdByUserId updatedByUserId : Uuid)
  lastEnqueuedAt : Option ℤ
  revision : ℤ
  deletedAt : Option ℤ

inductive KnowledgeCollectionError
  | invalidInput (message : String)
  | notFound
  | conflict

structure CollectionInput where
  topic : String
  (sourceClasses allowedDomains : List String)
  schedule : Option String
  scheduleEnabled : Bool
  nextRunAt : Option ℤ
  (maxSources maxBytes maxWallSeconds : ℤ)
  locators : List CollectionLocator
  queries : List CollectionQuery

/-- The loop over the locators; `urls` are those of the ones before. -/
def locatorsValid (sourceClasses : List String) : List String → List CollectionLocator → Bool
  | _, [] => true
  | urls, locator :: rest =>
    locator.url.utf8ByteSize ≤ 4096 && "https://".toList.isPrefixOf locator.url.toList &&
      locator.title.utf8ByteSize ≤ 512 && sourceClasses.contains locator.sourceClass &&
      !urls.contains locator.url && locatorsValid sourceClasses (locator.url :: urls) rest

def providerValid (provider : String) : Bool :=
  !provider.toList.isEmpty && provider.utf8ByteSize ≤ 64 &&
    match provider.toList with
    | [] => true
    | first :: rest => first.isLower && rest.all fun c => c.isLower || c.isDigit || c == '-'

def queryValid (query : CollectionQuery) : Bool :=
  providerValid query.provider && trim query.query ≠ "" && query.query.length ≤ 500 &&
    trim query.scope ≠ "" && query.scope.utf8ByteSize ≤ 256 && query.tags.length ≤ 8 &&
    query.tags.all (fun tag => trim tag ≠ "" && tag.utf8ByteSize ≤ 63) &&
    query.language.all (fun language => trim language ≠ "" && language.utf8ByteSize ≤ 63) &&
    1 ≤ query.windowDays && query.windowDays ≤ 3650

/-- The loop over the queries; `providers` are those of the ones before. -/
def queriesValid : List String → List CollectionQuery → Bool
  | _, [] => true
  | providers, query :: rest =>
    queryValid query && !providers.contains query.provider &&
      queriesValid (query.provider :: providers) rest

def refuse (p : Bool) (message : String) : Except KnowledgeCollectionError Unit :=
  if p then .error (.invalidInput message) else .ok ()

def validateCollectionInput (input : CollectionInput) : Except KnowledgeCollectionError Unit := do
  refuse (trim input.topic = "" || 500 < input.topic.length) "topic must contain 1..500 characters"
  refuse (input.sourceClasses.isEmpty || input.allowedDomains.isEmpty)
    "source classes and allowed domains cannot be empty"
  refuse (!(1 ≤ input.maxSources && input.maxSources ≤ 100) ||
      !(1 ≤ input.maxBytes && input.maxBytes ≤ 1073741824) ||
      !(1 ≤ input.maxWallSeconds && input.maxWallSeconds ≤ 3600) ||
      input.locators.isEmpty || input.maxSources < input.locators.length)
    "collection locators or budget are invalid"
  refuse (input.scheduleEnabled && (input.schedule.isNone || input.nextRunAt.isNone))
    "enabled collection schedule requires an expression and next run"
  refuse (!locatorsValid input.sourceClasses [] input.locators)
    "collection locator is invalid, duplicated, or uses an undeclared source class"
  refuse (!input.queries.isEmpty && input.queries.length ≠ input.locators.length)
    "provider queries must map one-to-one to generated collection locators"
  refuse (!queriesValid [] input.queries) "collection provider query is invalid or duplicated"

variable {input : CollectionInput}

theorem refuse_eq_ok {p : Bool} {message : String} : refuse p message = .ok () ↔ p = false := by
  unfold refuse
  split_ifs with hp <;> simp [hp]

theorem locators_length_le (h : validateCollectionInput input = .ok ()) :
    input.locators.length ≤ 100 := by
  obtain ⟨_, _, _, _, h⟩ := bind₂_eq_ok.1 h
  obtain ⟨_, hbudget, _⟩ := bind_eq_ok.1 h
  have hle := refuse_eq_ok.1 hbudget
  simp only [Bool.or_eq_false_iff, Bool.not_eq_false', Bool.and_eq_true, decide_eq_true_eq,
    decide_eq_false_iff_not] at hle
  omega

end Gadgetron.Collections
