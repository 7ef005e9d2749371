import Gadgetron.Lib.OrdSet
import Mathlib.Data.String.Basic
import Mathlib.Data.List.Infix

/-!
# Installation of bundles

`BundleRegistry::install_all` merges the plugs of each bundle whose install succeeds into the shared
maps; the statuses of its plugs are then read off those.
-/

namespace Gadgetron.Bundle

open Lib List

inductive PlugIdError
  | empty
  | tooLong (value : String)
  | invalidChars (value : String)
  | edgeHyphen (value : String)
  | consecutiveHyphen (value : String)

def validateKebab (value : String) : Except PlugIdError Unit :=
  if value = "" then .error .empty
  else if 128 < value.utf8ByteSize then .error (.tooLong value)
  else if !value.toList.all fun c => c.isDigit || c.isLower || c == '-' then
    .error (.invalidChars value)
  else if value.toList.head? = some '-' ∨ value.toList.getLast? = some '-' then
    .error (.edgeHyphen value)
  else if ['-', '-'] <:+: value.toList then .error (.consecutiveHyphen value)
  else .ok ()

abbrev PlugId := {value : String // (validateKebab value).isOk = true}

/-- `PlugId::new`, as far as `build_predicates` uses it. -/
def PlugId.new (value : String) : Option PlugId :=
  if h : (validateKebab value).isOk = true then some ⟨value, h⟩ else none

inductive BundleError
  | manifest (message : String)
  | install (message : String)
  | plugId (error : PlugIdError)
  | home (message : String)

/-- `[bundles.<name>]`: whether the bundle is enabled, and each plug with a stanza of its own. -/
structure BundleOverride where
  enabled : Bool
  plugs : OrdMap String Bool

structure PlugPredicates where
  bundle : String
  enabledPlugs : OrdMap PlugId Bool
  bundleEnabled : Bool

/-- `build_predicates`; names that are no ids are dropped. -/
def buildPredicates (config : OrdMap String BundleOverride) (name : String) : PlugPredicates :=
  match config.get? name with
  | some bundle =>
    { bundle := name
      enabledPlugs := bundle.plugs.entries.foldl (fun enabled entry =>
        match PlugId.new entry.1 with
        | some id => enabled.insert id entry.2
        | none => enabled) OrdMap.empty
      bundleEnabled := bundle.enabled }
  | none => ⟨name, OrdMap.empty, true⟩

def PlugPredicates.isPlugEnabled (predicates : PlugPredicates) (id : PlugId) : Bool :=
  predicates.bundleEnabled && (predicates.enabledPlugs.get? id).getD true

inductive RegistrationOutcome
  | registered
  | skippedByConfig
  | skippedByAvailability (missing : List PlugId)

def register {α : Type} (predicates : PlugPredicates) (inner : OrdMap PlugId α) (id : PlugId)
    (plug : α) : RegistrationOutcome × OrdMap PlugId α :=
  if !predicates.bundleEnabled then (.skippedByConfig, inner)
  else if !(predicates.enabledPlugs.get? id).getD true then (.skippedByConfig, inner)
  else (.registered, inner.insert id plug)

/-! ## Installs -/

/-- What `install` of a bundle does with its context, up to its end. -/
inductive Install (α β : Type)
  | ok
  | err (error : BundleError)
  | panic (message : Option String)
  | registerLlmProvider (id : PlugId) (plug : α) (next : RegistrationOutcome → Install α β)
  | registerExtractor (id : PlugId) (plug : β) (next : RegistrationOutcome → Install α β)
  | getLlmProvider (id : PlugId) (next : Option α → Install α β)
  | getExtractor (id : PlugId) (next : Option β → Install α β)
  | isPlugEnabled (id : PlugId) (next : Bool → Install α β)

structure Scratch (α β : Type) where
  llmProviders : OrdMap PlugId α
  extractors : OrdMap PlugId β

def Scratch.empty {α β : Type} : Scratch α β := ⟨OrdMap.empty, OrdMap.empty⟩

section

variable {α β : Type}

/-- The install on its scratch maps: how it ends, the error of a panic included. -/
def Install.run (predicates : PlugPredicates) :
    Install α β → Scratch α β → Except BundleError Unit × Scratch α β
  | .ok, scratch => (.ok (), scratch)
  | .err error, scratch => (.error error, scratch)
  | .panic message, scratch =>
    (.error (.install ("panic: " ++ message.getD "<non-string panic payload>")), scratch)
  | .registerLlmProvider id plug next, scratch =>
    let (outcome, inner) := register predicates scratch.llmProviders id plug
    (next outcome).run predicates { scratch with llmProviders := inner }
  | .registerExtractor id plug next, scratch =>
    let (outcome, inner) := register predicates scratch.extractors id plug
    (next outcome).run predicates { scratch with extractors := inner }
  | .getLlmProvider id next, scratch =>
    (next (scratch.llmProviders.get? id)).run predicates scratch
  | .getExtractor id next, scratch => (next (scratch.extractors.get? id)).run predicates scratch
  | .isPlugEnabled id next, scratch => (next (predicates.isPlugEnabled id)).run predicates scratch

/-! ## The registry -/

structure BundleDescriptor where
  (name version : String)
  manifestVersion : ℕ

/-- A `Box<dyn Bundle>`; `plugs` are those of its manifest. -/
structure DynBundle (α β : Type) where
  descriptor : BundleDescriptor
  plugs : List PlugId
  install : Install α β

inductive PlugStatusKind
  | registered
  | disabledByConfig (tomlKey : String)
  | registrationFailed (reason : String)
  deriving DecidableEq

structure PlugStatus where
  id : PlugId
  port : String
  status : PlugStatusKind

structure BundleRegistry (α β : Type) where
  bundles : OrdMap String (BundleDescriptor × List PlugStatus)
  llmProviders : OrdMap PlugId α
  extractors : OrdMap PlugId β

namespace BundleRegistry

def new : BundleRegistry α β := ⟨OrdMap.empty, OrdMap.empty, OrdMap.empty⟩

def merge {γ : Type} (shared scratch : OrdMap PlugId γ) : OrdMap PlugId γ :=
  scratch.entries.foldl (fun shared entry => shared.insert entry.1 entry.2) shared

def plugStatus (registry : BundleRegistry α β) (predicates : PlugPredicates) (id : PlugId) :
    PlugStatus :=
  let inLlm := (registry.llmProviders.get? id).isSome
  let inExtractors := (registry.extractors.get? id).isSome
  let disabledByCfg := ((predicates.enabledPlugs.get? id).map not).getD false ||
    !predicates.bundleEnabled
  { id
    port := if inExtractors then "extractor" else "llm_provider"
    status :=
      if inLlm || inExtractors then .registered
      else if disabledByCfg then
        .disabledByConfig ("bundles." ++ predicates.bundle ++ ".plugs." ++ id.val)
      else .registrationFailed ("manifest declares plug but Bundle::install did not " ++
        "register it (manifest drift)") }

variable (config : OrdMap String BundleOverride)

def mergeScratch (registry : BundleRegistry α β) (scratch : Scratch α β) : BundleRegistry α β :=
  { registry with
    llmProviders := merge registry.llmProviders scratch.llmProviders
    extractors := merge registry.extractors scratch.extractors }

def recordStatuses (registry : BundleRegistry α β) (predicates : PlugPredicates)
    (bundle : DynBundle α β) : BundleRegistry α β :=
  { registry with
    bundles := registry.bundles.insert bundle.descriptor.name
      (bundle.descriptor, bundle.plugs.map (registry.plugStatus predicates)) }

/-- A turn of the loop of `install_all`. -/
def installOne (registry : BundleRegistry α β) (bundle : DynBundle α β) :
    Except BundleError BundleDescriptor × BundleRegistry α β :=
  if (registry.bundles.get? bundle.descriptor.name).isSome then
    (.error (.install ("bundle already installed: " ++ bundle.descriptor.name)), registry)
  else
    let predicates := buildPredicates config bundle.descriptor.name
    match bundle.install.run predicates Scratch.empty with
    | (.ok (), scratch) =>
      (.ok bundle.descriptor, (registry.mergeScratch scratch).recordStatuses predicates bundle)
    -- the scratch maps are dropped
    | (.error error, _) => (.error error, registry)

def installAll (registry : BundleRegistry α β) :
    List (DynBundle α β) → List (Except BundleError BundleDescriptor) × BundleRegistry α β
  | [] => ([], registry)
  | bundle :: bundles =>
    let (result, registry) := installOne config registry bundle
    let (results, registry) := installAll registry bundles
    (result :: results, registry)

def listPlugs (registry : BundleRegistry α β) (bundle : String) : Option (List PlugStatus) :=
  (registry.bundles.get? bundle).map Prod.snd

end BundleRegistry

end

/-! ## The maps -/

section

variable {α β : Type}

def BundleRegistry.Holds (registry : BundleRegistry α β) (id : PlugId) : Prop :=
  (registry.llmProviders.get? id).isSome = true ∨ (registry.extractors.get? id).isSome = true

def DynBundle.ownRun (config : OrdMap String BundleOverride) (bundle : DynBundle α β) :
    Except BundleError Unit × Scratch α β :=
  bundle.install.run (buildPredicates config bundle.descriptor.name) Scratch.empty

def DynBundle.Succeeds (config : OrdMap String BundleOverride) (bundle : DynBundle α β) : Prop :=
  (bundle.ownRun config).1 = .ok ()

def DynBundle.Puts (config : OrdMap String BundleOverride) (bundle : DynBundle α β)
    (id : PlugId) : Prop :=
  ((bundle.ownRun config).2.llmProviders.get? id).isSome = true ∨
    ((bundle.ownRun config).2.extractors.get? id).isSome = true

theorem isSome_get?_merge {γ : Type} (shared scratch : OrdMap PlugId γ) (id : PlugId) :
    ((BundleRegistry.merge shared scratch).get? id).isSome = true ↔
      (scratch.get? id).isSome = true ∨ (shared.get? id).isSome = true := by
  rw [BundleRegistry.merge, OrdMap.isSome_get?_foldl_insert]
  simp only [OrdMap.mem_entries, Option.isSome_iff_exists]

namespace BundleRegistry

theorem holds_mergeScratch (config : OrdMap String BundleOverride)
    (registry : BundleRegistry α β) (bundle : DynBundle α β) (id : PlugId) :
    (registry.mergeScratch (bundle.ownRun config).2).Holds id ↔
      registry.Holds id ∨ bundle.Puts config id := by
  rw [Holds, Holds, DynBundle.Puts, mergeScratch, isSome_get?_merge, isSome_get?_merge]
  tauto

theorem plugStatus_eq_registered (registry : BundleRegistry α β) (predicates : PlugPredicates)
    (id : PlugId) :
    (registry.plugStatus predicates id).status = .registered ↔ registry.Holds id := by
  rw [plugStatus, Holds, ← Bool.or_eq_true]
  dsimp only
  split_ifs with h h'
  · exact iff_of_true rfl h
  · exact iff_of_false (by simp) h
  · exact iff_of_false (by simp) h

/-! ## A turn -/

variable (config : OrdMap String BundleOverride) (registry : BundleRegistry α β)
  (bundle : DynBundle α β)

theorem installOne_of_error (h : ¬(registry.bundles.get? bundle.descriptor.name).isSome = true)
    {error : BundleError} (hrun : (bundle.ownRun config).1 = .error error) :
    installOne config registry bundle = (.error error, registry) := by
  have hpair : bundle.install.run (buildPredicates config bundle.descriptor.name) Scratch.empty =
      (.error error, (bundle.ownRun config).2) := Prod.ext hrun rfl
  rw [installOne, if_neg h]
  simp only [hpair]

def afterInstall : BundleRegistry α β :=
  (registry.mergeScratch (bundle.ownRun config).2).recordStatuses
    (buildPredicates config bundle.descriptor.name) bundle

theorem installOne_of_ok (h : ¬(registry.bundles.get? bundle.descriptor.name).isSome = true)
    (hrun : bundle.Succeeds config) : installOne config registry bundle =
      (.ok bundle.descriptor, afterInstall config registry bundle) := by
  have hpair : bundle.install.run (buildPredicates config bundle.descriptor.name) Scratch.empty =
      (.ok (), (bundle.ownRun config).2) := Prod.ext hrun rfl
  rw [installOne, if_neg h]
  simp only [hpair]
  rfl

theorem installOne_cases : (∃ error, installOne config registry bundle = (.error error, registry) ∧
        ((registry.bundles.get? bundle.descriptor.name).isSome = true ∨ ¬bundle.Succeeds config)) ∨
      (installOne config registry bundle =
          (.ok bundle.descriptor, afterInstall config registry bundle) ∧
        ¬(registry.bundles.get? bundle.descriptor.name).isSome = true ∧
        bundle.Succeeds config) := by
  by_cases htaken : (registry.bundles.get? bundle.descriptor.name).isSome = true
  · exact .inl ⟨_, if_pos htaken, .inl htaken⟩
  · cases hrun : (bundle.ownRun config).1 with
    | error error =>
      refine .inl ⟨error, installOne_of_error config registry bundle htaken hrun, .inr ?_⟩
      rw [DynBundle.Succeeds, hrun]
      simp
    | ok =>
      have hok : bundle.Succeeds config := hrun
      exact .inr ⟨installOne_of_ok config registry bundle htaken hok, htaken, hok⟩

variable {entry : BundleDescriptor × List PlugStatus}

theorem get?_bundles_installOne {name : String} (h : registry.bundles.get? name = some entry) :
    (installOne config registry bundle).2.bundles.get? name = some entry := by
  obtain ⟨error, hone, -⟩ | ⟨hone, hfree, -⟩ := installOne_cases config registry bundle
  · rw [hone]
    exact h
  · rw [hone]
    have hne : name ≠ bundle.descriptor.name := by
      rintro rfl
      rw [h] at hfree
      exact hfree rfl
    show (registry.bundles.insert bundle.descriptor.name _).get? name = some entry
    rw [OrdMap.get?_insert, if_neg hne, h]

/-! ## The run -/

def stateAfter (bundles : List (DynBundle α β)) : BundleRegistry α β :=
  (installAll config registry bundles).2

theorem stateAfter_append (front back : List (DynBundle α β)) :
    stateAfter config registry (front ++ back) =
      stateAfter config (stateAfter config registry front) back := by
  induction front generalizing registry with
  | nil => rfl
  | cons bundle front ih => exact ih (installOne config registry bundle).2

theorem stateAfter_concat (front : List (DynBundle α β)) :
    stateAfter config registry (front ++ [bundle]) =
      (installOne config (stateAfter config registry front) bundle).2 :=
  stateAfter_append config registry front [bundle]

theorem getElem?_installAll (front back : List (DynBundle α β)) :
    (installAll config registry (front ++ bundle :: back)).1[front.length]? =
      some (installOne config (stateAfter config registry front) bundle).1 := by
  induction front generalizing registry with
  | nil => rfl
  | cons first front ih => exact ih (installOne config registry first).2

theorem get?_bundles_stateAfter {name : String}
    (bundles : List (DynBundle α β)) (h : registry.bundles.get? name = some entry) :
    (stateAfter config registry bundles).bundles.get? name = some entry := by
  induction bundles generalizing registry with
  | nil => exact h
  | cons bundle bundles ih =>
    exact ih (installOne config registry bundle).2
      (get?_bundles_installOne config registry bundle h)

def Taken (front : List (DynBundle α β)) (name : String) : Prop :=
  (registry.bundles.get? name).isSome = true ∨
    ∃ earlier ∈ front, earlier.descriptor.name = name ∧ earlier.Succeeds config

/-- The bundle is installed after the bundles `front`. -/
def Installs (front : List (DynBundle α β)) (bundle : DynBundle α β) : Prop :=
  ¬Taken config registry front bundle.descriptor.name ∧ bundle.Succeeds config

/-- A plug with the id is there from the start, or since an earlier bundle was installed. -/
def Present (front : List (DynBundle α β)) (id : PlugId) : Prop :=
  registry.Holds id ∨ ∃ before earlier between, front = before ++ earlier :: between ∧
      Installs config registry before earlier ∧ earlier.Puts config id

theorem taken_concat (front : List (DynBundle α β)) (name : String) :
    Taken config registry (front ++ [bundle]) name ↔ Taken config registry front name ∨
        (bundle.descriptor.name = name ∧ bundle.Succeeds config) := by
  simp only [Taken, mem_append, mem_singleton, or_and_right, exists_or, exists_eq_left, or_assoc]

theorem present_concat (front : List (DynBundle α β)) (id : PlugId) :
    Present config registry (front ++ [bundle]) id ↔ Present config registry front id ∨
        (Installs config registry front bundle ∧ bundle.Puts config id) := by
  constructor
  · rintro (h | ⟨before, earlier, between, heq, hinstalls, hputs⟩)
    · exact .inl (.inl h)
    · cases between using List.reverseRecOn with
      | nil =>
        obtain ⟨rfl, hlast⟩ := append_inj' heq rfl
        obtain rfl : bundle = earlier := by simpa using hlast
        exact .inr ⟨hinstalls, hputs⟩
      | append_singleton between last =>
        rw [← cons_append, ← List.append_assoc] at heq
        obtain ⟨rfl, -⟩ := append_inj' heq rfl
        exact .inl (.inr ⟨before, earlier, between, rfl, hinstalls, hputs⟩)
  · rintro ((h | ⟨before, earlier, between, rfl, hinstalls, hputs⟩) | ⟨hinstalls, hputs⟩)
    · exact .inl h
    · exact .inr ⟨before, earlier, between ++ [bundle], by simp, hinstalls, hputs⟩
    · exact .inr ⟨front, bundle, [], rfl, hinstalls, hputs⟩

theorem isSome_get?_afterInstall (name : String) :
    ((afterInstall config registry bundle).bundles.get? name).isSome = true ↔
      (registry.bundles.get? name).isSome = true ∨ bundle.descriptor.name = name := by
  show ((registry.bundles.insert bundle.descriptor.name _).get? name).isSome = true ↔ _
  rw [OrdMap.get?_insert]
  by_cases h : name = bundle.descriptor.name
  · simp [h]
  · simp [h, Ne.symm h]

theorem taken_iff (front : List (DynBundle α β)) (name : String) :
    ((stateAfter config registry front).bundles.get? name).isSome = true ↔
      Taken config registry front name := by
  induction front using List.reverseRecOn generalizing name with
  | nil => simp [stateAfter, installAll, Taken]
  | append_singleton front bundle ih =>
    rw [stateAfter_concat, taken_concat]
    obtain ⟨error, hone, hfails⟩ | ⟨hone, hfree, hsucceeds⟩ :=
      installOne_cases config (stateAfter config registry front) bundle
    · rw [hone, ih name]
      refine ⟨.inl, ?_⟩
      rintro (h | ⟨rfl, hsucceeds⟩)
      · exact h
      · exact hfails.elim (ih _).1 (absurd hsucceeds)
    · rw [hone, isSome_get?_afterInstall, ih name]
      exact or_congr_right (and_iff_left hsucceeds).symm

theorem installs_iff (front : List (DynBundle α β)) : Installs config registry front bundle ↔
      ¬((stateAfter config registry front).bundles.get? bundle.descriptor.name).isSome = true ∧
        bundle.Succeeds config :=
  and_congr_left' (not_congr (taken_iff config registry front _).symm)

theorem holds_afterInstall (id : PlugId) :
    (afterInstall config registry bundle).Holds id ↔ registry.Holds id ∨ bundle.Puts config id :=
  holds_mergeScratch config registry bundle id

theorem holds_iff (front : List (DynBundle α β)) (id : PlugId) :
    (stateAfter config registry front).Holds id ↔ Present config registry front id := by
  induction front using List.reverseRecOn with
  | nil => simp [stateAfter, installAll, Present]
  | append_singleton front bundle ih =>
    rw [stateAfter_concat, present_concat, ← ih, installs_iff]
    obtain ⟨error, hone, hfails⟩ | ⟨hone, hfree, hsucceeds⟩ :=
      installOne_cases config (stateAfter config registry front) bundle
    · rw [hone]
      refine ⟨.inl, ?_⟩
      rintro (h | ⟨⟨hfree, hsucceeds⟩, -⟩)
      · exact h
      · exact hfails.elim (absurd · hfree) (absurd hsucceeds)
    · rw [hone, holds_afterInstall]
      exact or_congr_right (and_iff_right ⟨hfree, hsucceeds⟩).symm

/-! ## The reported statuses -/

/-- The bundle's row for the plug says that it is registered. -/
def Marks (registry : BundleRegistry α β) (name : String) (id : PlugId) : Prop :=
  ∃ statuses, registry.listPlugs name = some statuses ∧
    ∃ row ∈ statuses, row.id = id ∧ row.status = .registered

/-- A bundle whose install fails leaves the plug registries as they were. -/
def Atomic (bundles : List (DynBundle α β)) : Prop :=
  ∀ front bundle back error, bundles = front ++ bundle :: back →
    (installAll config registry bundles).1[front.length]? = some (.error error) →
    (stateAfter config registry (front ++ [bundle])).llmProviders =
        (stateAfter config registry front).llmProviders ∧
      (stateAfter config registry (front ++ [bundle])).extractors =
        (stateAfter config registry front).extractors

/-- Installs are atomic, and of each installed bundle exactly the plugs that its own install
registers are marked as registered. -/
structure Truthful (bundles : List (DynBundle α β)) : Prop where
  atomic : Atomic config registry bundles
  marks : ∀ front bundle back descriptor, bundles = front ++ bundle :: back →
    (installAll config registry bundles).1[front.length]? = some (.ok descriptor) →
    ∀ id, Marks (stateAfter config registry bundles) bundle.descriptor.name id ↔
      bundle.Puts config id

/-- The same of the rows alone: a plug without a row is not asked for. -/
structure TruthfulRows (bundles : List (DynBundle α β)) : Prop where
  atomic : Atomic config registry bundles
  rows : ∀ front bundle back descriptor, bundles = front ++ bundle :: back →
    (installAll config registry bundles).1[front.length]? = some (.ok descriptor) →
    ∀ statuses, (stateAfter config registry bundles).listPlugs bundle.descriptor.name =
        some statuses → ∀ row ∈ statuses, row.status = .registered ↔ bundle.Puts config row.id

/-- Each plug of the manifest of an installed bundle that is there before is one that its own
install registers too. -/
def Unshadowed (bundles : List (DynBundle α β)) : Prop :=
  ∀ front bundle back, bundles = front ++ bundle :: back → Installs config registry front bundle →
    ∀ id ∈ bundle.plugs, Present config registry front id → bundle.Puts config id

/-- Each plug that an installed bundle registers is in its manifest. -/
def Declared (bundles : List (DynBundle α β)) : Prop :=
  ∀ front bundle back, bundles = front ++ bundle :: back →
    Installs config registry front bundle → ∀ id, bundle.Puts config id → id ∈ bundle.plugs

theorem getElem?_installAll_of_installs (front back : List (DynBundle α β))
    (h : Installs config registry front bundle) :
    (installAll config registry (front ++ bundle :: back)).1[front.length]? =
      some (.ok bundle.descriptor) := by
  obtain ⟨hfree, hsucceeds⟩ := (installs_iff config registry bundle front).1 h
  rw [getElem?_installAll, installOne_of_ok config _ bundle hfree hsucceeds]

theorem installs_of_getElem?_installAll (front back : List (DynBundle α β))
    {descriptor : BundleDescriptor}
    (h : (installAll config registry (front ++ bundle :: back)).1[front.length]? =
      some (.ok descriptor)) : Installs config registry front bundle := by
  rw [getElem?_installAll] at h
  obtain ⟨error, hone, -⟩ | ⟨-, hinstalls⟩ :=
    installOne_cases config (stateAfter config registry front) bundle
  · rw [hone] at h
    simp at h
  · exact (installs_iff config registry bundle front).2 hinstalls

theorem atomic (bundles : List (DynBundle α β)) : Atomic config registry bundles := by
  rintro front bundle back error rfl herror
  rw [getElem?_installAll] at herror
  rw [stateAfter_concat]
  obtain ⟨error', hone, -⟩ | ⟨hone, -⟩ :=
    installOne_cases config (stateAfter config registry front) bundle
  · rw [hone]
    exact ⟨rfl, rfl⟩
  · rw [hone] at herror
    simp at herror

theorem listPlugs_stateAfter (front back : List (DynBundle α β))
    (h : Installs config registry front bundle) :
    (stateAfter config registry (front ++ bundle :: back)).listPlugs bundle.descriptor.name =
      some (bundle.plugs.map
        (((stateAfter config registry front).mergeScratch (bundle.ownRun config).2).plugStatus
          (buildPredicates config bundle.descriptor.name))) := by
  obtain ⟨hfree, hsucceeds⟩ := (installs_iff config registry bundle front).1 h
  have hentry : (afterInstall config (stateAfter config registry front) bundle).bundles.get?
      bundle.descriptor.name = some (bundle.descriptor, _) :=
    (OrdMap.get?_insert _ _ _ _).trans (if_pos rfl)
  rw [append_cons, stateAfter_append, stateAfter_concat,
    installOne_of_ok config _ bundle hfree hsucceeds, listPlugs,
    get?_bundles_stateAfter config _ back hentry]
  rfl

theorem plugStatus_registered_iff (front : List (DynBundle α β)) (id : PlugId) :
    (((stateAfter config registry front).mergeScratch (bundle.ownRun config).2).plugStatus
        (buildPredicates config bundle.descriptor.name) id).status = .registered ↔
      Present config registry front id ∨ bundle.Puts config id := by
  rw [plugStatus_eq_registered, holds_mergeScratch, holds_iff]

theorem marks_iff (front back : List (DynBundle α β))
    (h : Installs config registry front bundle) (id : PlugId) :
    Marks (stateAfter config registry (front ++ bundle :: back)) bundle.descriptor.name id ↔
      id ∈ bundle.plugs ∧ (Present config registry front id ∨ bundle.Puts config id) := by
  simp only [Marks, listPlugs_stateAfter config registry bundle front back h, Option.some.injEq,
    exists_eq_left', List.mem_map]
  rw [← plugStatus_registered_iff]
  constructor
  · rintro ⟨_, ⟨other, hmem, rfl⟩, rfl, hstatus⟩
    exact ⟨hmem, hstatus⟩
  · rintro ⟨hmem, hstatus⟩
    exact ⟨_, ⟨id, hmem, rfl⟩, rfl, hstatus⟩

theorem truthfulRows_iff (bundles : List (DynBundle α β)) :
    TruthfulRows config registry bundles ↔ Unshadowed config registry bundles := by
  constructor
  · rintro ⟨-, hrows⟩ front bundle back rfl hinstalls id hmem hpresent
    have hok := getElem?_installAll_of_installs config registry bundle front back hinstalls
    have hlist := listPlugs_stateAfter config registry bundle front back hinstalls
    refine (hrows front bundle back _ rfl hok _ hlist _ (List.mem_map_of_mem hmem)).1 ?_
    exact (plugStatus_registered_iff config registry bundle front id).2 (.inl hpresent)
  · intro hunshadowed
    refine ⟨atomic config registry bundles, ?_⟩
    rintro front bundle back descriptor rfl hok statuses hstatuses row hrow
    have hinstalls := installs_of_getElem?_installAll config registry bundle front back hok
    rw [listPlugs_stateAfter config registry bundle front back hinstalls,
      Option.some.injEq] at hstatuses
    subst hstatuses
    obtain ⟨id, hmem, rfl⟩ := List.mem_map.1 hrow
    rw [plugStatus_registered_iff]
    exact or_iff_right_of_imp (hunshadowed front bundle back rfl hinstalls id hmem)

/-- The statuses are true exactly when no manifest names a plug that another bundle registered and
its own did not, and none leaves out a plug that its bundle registers; of the rows alone the first
half is exact. -/
theorem truthful_iff (bundles : List (DynBundle α β)) : (Truthful config registry bundles ↔
        Unshadowed config registry bundles ∧ Declared config registry bundles) ∧
      (TruthfulRows config registry bundles ↔ Unshadowed config registry bundles) := by
  refine ⟨⟨?_, ?_⟩, truthfulRows_iff config registry bundles⟩
  · rintro ⟨-, hmarks⟩
    constructor
    · rintro front bundle back rfl hinstalls id hmem hpresent
      have hok := getElem?_installAll_of_installs config registry bundle front back hinstalls
      rw [← hmarks front bundle back _ rfl hok id,
        marks_iff config registry bundle front back hinstalls]
      exact ⟨hmem, .inl hpresent⟩
    · rintro front bundle back rfl hinstalls id hputs
      have hok := getElem?_installAll_of_installs config registry bundle front back hinstalls
      rw [← hmarks front bundle back _ rfl hok id,
        marks_iff config registry bundle front back hinstalls] at hputs
      exact hputs.1
  · rintro ⟨hunshadowed, hdeclared⟩
    refine ⟨atomic config registry bundles, ?_⟩
    rintro front bundle back descriptor rfl hok id
    have hinstalls := installs_of_getElem?_installAll config registry bundle front back hok
    rw [marks_iff config registry bundle front back hinstalls]
    constructor
    · rintro ⟨hmem, hpresent | hputs⟩
      · exact hunshadowed front bundle back rfl hinstalls id hmem hpresent
      · exact hputs
    · exact fun hputs => ⟨hdeclared front bundle back rfl hinstalls id hputs, .inr hputs⟩

end BundleRegistry

end

/-! ## A drifting manifest -/

def sampleMarkdown : PlugId := ⟨"markdown", by decide +kernel⟩

def sampleExtractors : DynBundle Unit Unit where
  descriptor := ⟨"document-formats", "0.1.0", 1⟩
  plugs := [sampleMarkdown]
  install := .registerExtractor sampleMarkdown () fun _ => .ok

def sampleDrift : DynBundle Unit Unit where
  descriptor := ⟨"other-formats", "0.1.0", 1⟩
  plugs := [sampleMarkdown]
  install := .ok

theorem drift_not_truthful :
    ¬BundleRegistry.Truthful OrdMap.empty BundleRegistry.new [sampleExtractors, sampleDrift] := by
  intro h
  have hmarks := h.marks [sampleExtractors] sampleDrift [] sampleDrift.descriptor rfl
    rfl sampleMarkdown
  have hputs := hmarks.1 ⟨_, rfl, _, mem_singleton_self _, rfl, by decide +kernel⟩
  exact absurd hputs (by rw [DynBundle.Puts]; decide +kernel)

end Gadgetron.Bundle
