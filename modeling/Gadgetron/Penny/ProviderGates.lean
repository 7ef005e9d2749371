import Gadgetron.Policy.LegacyModes

/-!
# Whose schema the gates judge

A registry is frozen from its providers: the dispatch map keeps the last provider of a name, the
name sets are unions over all schemas, the policy metadata are those of the first.
-/

namespace Gadgetron.Penny

open Lib GadgetRegistry Policy List

structure GadgetProvider where
  gadgetSchemas : List GadgetSchema

structure DynamicGadgetSurface where
  allSchemas : List GadgetSchema
  policyMetadata : String → Option GadgetPolicyMetadata

structure RegistryParts where
  providers : List GadgetProvider
  forwardedSchemas : List GadgetSchema
  dynamicSurface : Option DynamicGadgetSurface
  (approvalStore forward : Bool)

namespace RegistryParts

variable (parts : RegistryParts)

def byToolName : OrdMap String GadgetProvider :=
  parts.providers.foldl (fun map provider =>
    provider.gadgetSchemas.foldl (fun map schema => map.insert schema.name provider) map) .empty

def allSchemas : List GadgetSchema := parts.providers.flatMap GadgetProvider.gadgetSchemas

/-- `forwarded_schemas`, without the names of this process. -/
def forwardedOnly : OrdMap String GadgetSchema :=
  (parts.forwardedSchemas.filter fun schema => !(parts.byToolName.get? schema.name).isSome).foldl
    (fun map schema => map.insert schema.name schema) .empty

def toolEntries : List (String × GadgetProvider) :=
  parts.providers.flatMap fun provider =>
    provider.gadgetSchemas.map fun schema => (schema.name, provider)

variable {parts} {name : String} {provider : GadgetProvider} {schema : GadgetSchema}

theorem byToolName_eq : parts.byToolName =
      parts.toolEntries.foldl (fun map entry => map.insert entry.1 entry.2) .empty := by
  rw [toolEntries, foldl_flatMap]
  simp only [foldl_map]
  rfl

theorem mem_toolEntries : (name, provider) ∈ parts.toolEntries ↔
      provider ∈ parts.providers ∧ ∃ schema ∈ provider.gadgetSchemas, schema.name = name := by
  simp only [toolEntries, mem_flatMap, List.mem_map, Prod.mk.injEq]
  constructor
  · rintro ⟨provider, hprovider, schema, hschema, hname, rfl⟩
    exact ⟨hprovider, schema, hschema, hname⟩
  · rintro ⟨hprovider, schema, hschema, hname⟩
    exact ⟨provider, hprovider, schema, hschema, hname, rfl⟩

theorem isSome_byToolName : (parts.byToolName.get? name).isSome = true ↔
      ∃ schema ∈ parts.allSchemas, schema.name = name := by
  rw [byToolName_eq, OrdMap.isSome_get?_foldl_insert]
  simp only [mem_toolEntries, OrdMap.get?_empty, Option.isSome_none, Bool.false_eq_true, or_false,
    allSchemas, mem_flatMap]
  constructor
  · rintro ⟨provider, hprovider, schema, hschema, hname⟩
    exact ⟨schema, ⟨provider, hprovider, hschema⟩, hname⟩
  · rintro ⟨schema, ⟨provider, hprovider, hschema⟩, hname⟩
    exact ⟨provider, hprovider, schema, hschema, hname⟩

theorem mem_of_byToolName (h : parts.byToolName.get? name = some provider) :
    provider ∈ parts.providers ∧ ∃ schema ∈ provider.gadgetSchemas, schema.name = name := by
  rw [byToolName_eq, OrdMap.get?_foldl_insert, OrdMap.get?_empty, Option.or_none,
    Option.map_eq_some_iff] at h
  obtain ⟨⟨key, value⟩, hfind, rfl⟩ := h
  obtain rfl : key = name := by simpa using find?_some hfind
  exact mem_toolEntries.1 (mem_reverse.1 (mem_of_find?_eq_some hfind))

theorem mem_allSchemas_of_byToolName (h : parts.byToolName.get? name = some provider)
    (hschema : schema ∈ provider.gadgetSchemas) : schema ∈ parts.allSchemas :=
  mem_flatMap.2 ⟨provider, (mem_of_byToolName h).1, hschema⟩

theorem of_forwardedOnly (h : parts.forwardedOnly.get? name = some schema) :
    schema.name = name ∧ parts.byToolName.get? name = none := by
  have hfold : parts.forwardedOnly = ((parts.forwardedSchemas.filter fun schema =>
        !(parts.byToolName.get? schema.name).isSome).map fun schema => (schema.name, schema)).foldl
          (fun map entry => map.insert entry.1 entry.2) .empty := by
    rw [foldl_map]
    rfl
  rw [hfold, OrdMap.get?_foldl_insert, OrdMap.get?_empty, Option.or_none,
    Option.map_eq_some_iff] at h
  obtain ⟨⟨key, value⟩, hfind, rfl⟩ := h
  obtain rfl : key = name := by simpa using find?_some hfind
  have hmem := mem_reverse.1 (mem_of_find?_eq_some hfind)
  obtain ⟨other, hother, heq⟩ := List.mem_map.1 hmem
  cases heq
  exact ⟨rfl, by simpa using (List.mem_filter.1 hother).2⟩

theorem of_mem_forwardedOnly (h : schema ∈ parts.forwardedOnly.values) :
    parts.forwardedOnly.get? schema.name = some schema ∧
      parts.byToolName.get? schema.name = none := by
  obtain ⟨name, hname⟩ := OrdMap.mem_values.1 h
  obtain ⟨rfl, hnone⟩ := of_forwardedOnly hname
  exact ⟨hname, hnone⟩

variable (parts)

def freezeInner : GadgetRegistry where
  allSchemas := parts.allSchemas
  forwardedSchemas := parts.forwardedOnly.values
  dynamicSurface := parts.dynamicSurface.map DynamicGadgetSurface.allSchemas
  approvalStore := parts.approvalStore
  forward := parts.forward
  forwarded_not_local := by
    intro schema hschema other hother hname
    have hsome := isSome_byToolName.2 ⟨other, hother, hname.symm⟩
    rw [(of_mem_forwardedOnly hschema).2] at hsome
    cases hsome

/-! ## The gates -/

/-- Where a name is dispatched to, with the provider or the surface that runs it. -/
inductive DispatchTarget
  | static (provider : GadgetProvider)
  | forwarded (schema : GadgetSchema)
  | dynamic (surface : DynamicGadgetSurface) (schema : GadgetSchema)

def DispatchTarget.schemas : DispatchTarget → List GadgetSchema
  | .static provider => provider.gadgetSchemas
  | .forwarded schema => [schema]
  | .dynamic surface _ => surface.allSchemas

def DispatchTarget.toTarget : DispatchTarget → Target
  | .static _ => .static
  | .forwarded schema => .forwarded schema
  | .dynamic _ schema => .dynamic schema

/-- The target of `dispatch_inner`; `none` is an unknown gadget. -/
def dispatchTarget (name : String) : Option DispatchTarget :=
  match parts.byToolName.get? name with
  | some provider => some (.static provider)
  | none =>
    match parts.forwardedOnly.get? name with
    | some schema => some (.forwarded schema)
    | none => parts.dynamicSurface.bind fun surface =>
      (surface.allSchemas.find? fun schema => schema.name == name).map (.dynamic surface)

section

variable (gadgets : GadgetsConfig)

/-- Whether the target is allowed and must ask, under the configuration of the last freeze or
reconfiguration. -/
def targetGate (name : String) : DispatchTarget → Bool × Bool
  | .static _ =>
    (decide (name ∈ parts.freezeInner.allowedFor gadgets),
      decide (name ∈ parts.freezeInner.askFor gadgets))
  | .forwarded schema => (toolIsEnabled schema gadgets parts.forward, toolAsks schema gadgets)
  | .dynamic _ schema =>
    (toolIsEnabled schema gadgets parts.freezeInner.hasAskHandler, toolAsks schema gadgets)

/-- `dispatch_inner`, up to the call of the target. -/
def dispatchInner (context : DispatchContext) (name : String) : Outcome :=
  match parts.dispatchTarget name with
  | none => .unknownGadget
  | some target =>
    let (isAllowed, requiresApproval) := parts.targetGate gadgets name target
    parts.freezeInner.gate target.toTarget context name isAllowed requiresApproval

def policyMetadata (name : String) : Option GadgetPolicyMetadata :=
  match (parts.allSchemas ++ parts.forwardedOnly.values).find? fun schema =>
      schema.name == name with
  | some schema => some (.fromSchema schema)
  | none => parts.dynamicSurface.bind fun surface => surface.policyMetadata name

/-- `all_schemas()`, those of the surface included. -/
def everySchema : List GadgetSchema :=
  parts.allSchemas ++ parts.forwardedOnly.values ++
    (parts.dynamicSurface.map DynamicGadgetSurface.allSchemas).getD []

def buildAllowedTools : List String :=
  (OrdSet.ofList ((parts.everySchema.filter fun schema =>
    toolIsEnabled schema gadgets parts.freezeInner.hasAskHandler).map GadgetSchema.name)).toList

def schemaIsAllowed (schema : GadgetSchema) : Bool :=
  if (parts.byToolName.get? schema.name).isSome then
    decide (schema.name ∈ parts.freezeInner.allowedFor gadgets)
  else toolIsEnabled schema gadgets parts.freezeInner.hasAskHandler

def isToolAllowed (name : String) : Bool :=
  if (parts.byToolName.get? name).isSome then
    decide (name ∈ parts.freezeInner.allowedFor gadgets)
  else
    match parts.forwardedOnly.get? name with
    | some schema => parts.schemaIsAllowed gadgets schema
    | none => (parts.dynamicSurface.bind fun surface =>
      surface.allSchemas.find? fun schema => schema.name == name).any
        (parts.schemaIsAllowed gadgets)

end

/-! ## What the gates should judge -/

/-- The metadata describe the schema: those of an in-process schema are derived from it, those of a
bundle gadget declare its effect. -/
def DispatchTarget.Describes : DispatchTarget → GadgetPolicyMetadata → GadgetSchema → Prop
  | .static _, metadata, schema | .forwarded _, metadata, schema => metadata = .fromSchema schema
  | .dynamic .., metadata, schema =>
    metadata.effect = (GadgetPolicyMetadata.fromSchema schema).effect

/-- A call of `name` goes to `target`, which has `schema` for it. -/
def Owns (name : String) (target : DispatchTarget) (schema : GadgetSchema) : Prop :=
  parts.dispatchTarget name = some target ∧ schema ∈ target.schemas ∧ schema.name = name

/-- A dispatch without context reaches what runs the name, at once or once it is approved. -/
def Reaches (gadgets : GadgetsConfig) (name : String) : Prop :=
  parts.dispatchInner gadgets ⟨false, false⟩ name = .runs ∨
    parts.dispatchInner gadgets ⟨false, false⟩ name = .awaitsApproval

/-- The gates judge the schema of the tool that would run. -/
structure JudgesWhatRuns (gadgets : GadgetsConfig) : Prop where
  enabled : ∀ name target schema, parts.Owns name target schema → parts.Reaches gadgets name →
    toolIsEnabled schema gadgets parts.freezeInner.hasAskHandler = true
  unapproved : ∀ name target schema, parts.Owns name target schema →
    parts.dispatchInner gadgets ⟨false, false⟩ name = .runs → toolAsks schema gadgets = false
  published : ∀ name target schema, parts.Owns name target schema →
    ∃ metadata, parts.policyMetadata name = some metadata ∧ target.Describes metadata schema
  listed : ∀ name, name ∈ parts.buildAllowedTools gadgets ↔ parts.isToolAllowed gadgets name = true

/-- Schemas of one name agree in all that the gates look at. -/
structure SchemasAgree (gadgets : GadgetsConfig) : Prop where
  /-- The provider that a name is dispatched to has it with the tier of its first schema. -/
  first : ∀ name provider schema other, parts.byToolName.get? name = some provider →
    schema ∈ provider.gadgetSchemas → schema.name = name →
    parts.allSchemas.find? (fun schema => schema.name == name) = some other →
    schema.tier = other.tier
  /-- When that provider's schema is disabled, so are all of the name, or one of them must ask and
  nobody can be asked. -/
  disabled : parts.forward = false → ∀ name provider schema,
    parts.byToolName.get? name = some provider → schema ∈ provider.gadgetSchemas →
    schema.name = name → toolIsEnabled schema gadgets parts.approvalStore = false →
    (∀ other ∈ parts.allSchemas, other.name = name →
        toolIsEnabled other gadgets parts.approvalStore = false) ∨ (parts.approvalStore = false ∧
        ∃ other ∈ parts.allSchemas, other.name = name ∧ toolAsks other gadgets = true)
  /-- The surface declares the effect of each schema whose name is dispatched to it. -/
  declared : ∀ surface schema, parts.dynamicSurface = some surface →
    schema ∈ surface.allSchemas → parts.byToolName.get? schema.name = none →
    parts.forwardedOnly.get? schema.name = none →
    ∃ metadata, surface.policyMetadata schema.name = some metadata ∧
      metadata.effect = (GadgetPolicyMetadata.fromSchema schema).effect
  /-- An enabled schema of the surface whose name is dispatched elsewhere is enabled there too. -/
  overlap : ∀ surface schema, parts.dynamicSurface = some surface → schema ∈ surface.allSchemas →
    toolIsEnabled schema gadgets parts.freezeInner.hasAskHandler = true →
    ((parts.byToolName.get? schema.name).isSome = true →
        ∃ other ∈ parts.allSchemas, other.name = schema.name ∧
          toolIsEnabled other gadgets parts.freezeInner.hasAskHandler = true) ∧
      ∀ other, parts.forwardedOnly.get? schema.name = some other →
        toolIsEnabled other gadgets parts.freezeInner.hasAskHandler = true

/-! ## The name sets -/

section

variable {parts} {gadgets : GadgetsConfig} {target : DispatchTarget}

theorem dispatchTarget_static (h : parts.byToolName.get? name = some provider) :
    parts.dispatchTarget name = some (.static provider) := by
  rw [dispatchTarget, h]

theorem dispatchTarget_forwarded (hlocal : parts.byToolName.get? name = none)
    (h : parts.forwardedOnly.get? name = some schema) :
    parts.dispatchTarget name = some (.forwarded schema) := by
  rw [dispatchTarget, hlocal]
  simp only [h]

variable {surface : DynamicGadgetSurface}

theorem dispatchTarget_dynamic (hlocal : parts.byToolName.get? name = none)
    (hforwarded : parts.forwardedOnly.get? name = none)
    (hsurface : parts.dynamicSurface = some surface)
    (hfind : surface.allSchemas.find? (fun schema => schema.name == name) = some schema) :
    parts.dispatchTarget name = some (.dynamic surface schema) := by
  rw [dispatchTarget, hlocal]
  simp only [hforwarded, hsurface, Option.bind_some, hfind, Option.map_some]

theorem dispatchTarget_cases (h : parts.dispatchTarget name = some target) :
    (∃ provider, target = .static provider ∧ parts.byToolName.get? name = some provider) ∨
      (∃ schema, target = .forwarded schema ∧ parts.byToolName.get? name = none ∧
        parts.forwardedOnly.get? name = some schema) ∨
      ∃ surface schema, target = .dynamic surface schema ∧ parts.byToolName.get? name = none ∧
        parts.forwardedOnly.get? name = none ∧ parts.dynamicSurface = some surface ∧
        surface.allSchemas.find? (fun schema => schema.name == name) = some schema := by
  rw [dispatchTarget] at h
  cases hlocal : parts.byToolName.get? name with
  | some provider =>
    rw [hlocal] at h
    cases h
    exact .inl ⟨provider, rfl, rfl⟩
  | none =>
    rw [hlocal] at h
    cases hforwarded : parts.forwardedOnly.get? name with
    | some schema =>
      simp only [hforwarded] at h
      cases h
      exact .inr (.inl ⟨schema, rfl, rfl, rfl⟩)
    | none =>
      simp only [hforwarded] at h
      obtain ⟨surface, hsurface, hmap⟩ := Option.bind_eq_some_iff.1 h
      obtain ⟨schema, hfind, rfl⟩ := Option.map_eq_some_iff.1 hmap
      exact .inr (.inr ⟨surface, schema, rfl, rfl, rfl, hsurface, hfind⟩)

theorem find?_forwardedOnly (name : String) :
    parts.forwardedOnly.values.find? (fun schema => schema.name == name) =
      parts.forwardedOnly.get? name := by
  cases hforwarded : parts.forwardedOnly.get? name with
  | none =>
    refine find?_eq_none.2 fun schema hschema hname => ?_
    have hget := (of_mem_forwardedOnly hschema).1
    rw [beq_iff_eq.1 hname, hforwarded] at hget
    cases hget
  | some schema =>
    have hmem : schema ∈ parts.forwardedOnly.values := OrdMap.mem_values.2 ⟨_, hforwarded⟩
    have hname : (schema.name == name) = true := beq_iff_eq.2 (of_forwardedOnly hforwarded).1
    have hsome : (parts.forwardedOnly.values.find? fun schema =>
        schema.name == name).isSome = true := find?_isSome.2 ⟨schema, hmem, hname⟩
    obtain ⟨other, hother⟩ := Option.isSome_iff_exists.1 hsome
    have hget := (of_mem_forwardedOnly (mem_of_find?_eq_some hother)).1
    have hother_name : other.name = name := by simpa using find?_some hother
    rw [hother_name, hforwarded] at hget
    cases hget
    exact hother

variable {schemas : List GadgetSchema}

theorem mem_nameSet {p : GadgetSchema → Bool} :
    name ∈ OrdSet.ofList ((schemas.filter p).map GadgetSchema.name) ↔
      ∃ schema ∈ schemas, schema.name = name ∧ p schema = true := by
  rw [OrdSet.mem_ofList, List.mem_map]
  simp only [List.mem_filter]
  constructor
  · rintro ⟨schema, ⟨hmem, hp⟩, hname⟩
    exact ⟨schema, hmem, hname, hp⟩
  · rintro ⟨schema, hmem, hname, hp⟩
    exact ⟨schema, ⟨hmem, hp⟩, hname⟩

section

variable (h : (parts.byToolName.get? name).isSome = true)

include h

theorem exists_local_iff {p : GadgetSchema → Prop} :
    (∃ schema ∈ parts.allSchemas ++ parts.forwardedOnly.values, schema.name = name ∧ p schema) ↔
      ∃ schema ∈ parts.allSchemas, schema.name = name ∧ p schema := by
  constructor
  · rintro ⟨schema, hmem, rfl, hp⟩
    rcases mem_append.1 hmem with hlocal | hforwarded
    · exact ⟨schema, hlocal, rfl, hp⟩
    · rw [(of_mem_forwardedOnly hforwarded).2] at h
      cases h
  · rintro ⟨schema, hmem, hname, hp⟩
    exact ⟨schema, mem_append_left _ hmem, hname, hp⟩

theorem mem_allowedFor :
    name ∈ parts.freezeInner.allowedFor gadgets ↔ ∃ schema ∈ parts.allSchemas, schema.name = name ∧
        toolIsEnabled schema gadgets parts.freezeInner.hasAskHandler = true :=
  mem_nameSet.trans (exists_local_iff h)

theorem mem_askFor :
    name ∈ parts.freezeInner.askFor gadgets ↔
      ∃ schema ∈ parts.allSchemas, schema.name = name ∧ toolAsks schema gadgets = true :=
  mem_nameSet.trans (exists_local_iff h)

end

theorem eq_of_tier {schema other : GadgetSchema} (hname : schema.name = other.name)
    (htier : schema.tier = other.tier) : schema = other := by
  cases schema
  cases other
  cases hname
  cases htier
  rfl

theorem tier_of_effect {schema other : GadgetSchema}
    (h : (GadgetPolicyMetadata.fromSchema schema).effect =
      (GadgetPolicyMetadata.fromSchema other).effect) : schema.tier = other.tier := by
  unfold GadgetPolicyMetadata.fromSchema at h
  cases hs : schema.tier <;> cases ho : other.tier <;> rw [hs, ho] at h <;>
    first | rfl | cases h

/-! ## What the gates decide -/

variable {isAllowed requiresApproval : Bool} {R : GadgetRegistry}

theorem gate_reaches_iff {target : Target} (hlocal : ∀ schema, target ≠ .forwarded schema) :
    (R.gate target ⟨false, false⟩ name isAllowed requiresApproval = .runs ∨
        R.gate target ⟨false, false⟩ name isAllowed requiresApproval = .awaitsApproval) ↔
      R.forward = false ∧ isAllowed = true ∧
        (requiresApproval = false ∨ R.approvalStore = true) := by
  unfold gate
  cases target with
  | forwarded schema => exact absurd rfl (hlocal schema)
  | static | dynamic schema =>
    cases R.forward <;> cases isAllowed <;> cases requiresApproval <;>
      cases R.approvalStore <;> simp

theorem gate_forwarded :
    ¬(R.gate (.forwarded schema) ⟨false, false⟩ name isAllowed requiresApproval = .runs ∨
      R.gate (.forwarded schema) ⟨false, false⟩ name isAllowed requiresApproval =
        .awaitsApproval) := by
  unfold gate
  cases R.forward <;> cases isAllowed <;> simp

theorem dispatchInner_eq (h : parts.dispatchTarget name = some target) (context : DispatchContext) :
    parts.dispatchInner gadgets context name = parts.freezeInner.gate target.toTarget context name
        (parts.targetGate gadgets name target).1 (parts.targetGate gadgets name target).2 := by
  rw [dispatchInner, h]

theorem reaches_static_iff (h : parts.byToolName.get? name = some provider) :
    parts.Reaches gadgets name ↔
      parts.forward = false ∧ name ∈ parts.freezeInner.allowedFor gadgets ∧
        (name ∉ parts.freezeInner.askFor gadgets ∨ parts.approvalStore = true) := by
  have hlocal : ∀ schema, (DispatchTarget.static provider).toTarget ≠ .forwarded schema :=
    fun _ heq => by cases heq
  rw [Reaches, dispatchInner_eq (dispatchTarget_static h), gate_reaches_iff hlocal]
  simp only [targetGate, decide_eq_true_eq, decide_eq_false_iff_not]
  rfl

theorem not_reaches_forwarded (hlocal : parts.byToolName.get? name = none)
    (h : parts.forwardedOnly.get? name = some schema) : ¬parts.Reaches gadgets name := by
  rw [Reaches, dispatchInner_eq (dispatchTarget_forwarded hlocal h)]
  exact gate_forwarded

theorem reaches_dynamic_iff (h : parts.dispatchTarget name = some (.dynamic surface schema)) :
    parts.Reaches gadgets name ↔ parts.forward = false ∧
        toolIsEnabled schema gadgets parts.freezeInner.hasAskHandler = true ∧
        (toolAsks schema gadgets = false ∨ parts.approvalStore = true) := by
  have hlocal : ∀ other, (DispatchTarget.dynamic surface schema).toTarget ≠ .forwarded other :=
    fun _ heq => by cases heq
  rw [Reaches, dispatchInner_eq h, gate_reaches_iff hlocal]
  rfl

theorem hasAskHandler_of_forward (h : parts.forward = false) :
    parts.freezeInner.hasAskHandler = parts.approvalStore := by
  show (parts.approvalStore || parts.forward) = parts.approvalStore
  rw [h, Bool.or_false]

theorem policyMetadata_static {other : GadgetSchema}
    (h : parts.allSchemas.find? (fun schema => schema.name == name) = some other) :
    parts.policyMetadata name = some (.fromSchema other) := by
  rw [policyMetadata, find?_append, h]
  rfl

theorem find?_allSchemas_eq_none (h : parts.byToolName.get? name = none) :
    parts.allSchemas.find? (fun schema => schema.name == name) = none := by
  rw [← Option.not_isSome_iff_eq_none, find?_isSome]
  rintro ⟨schema, hschema, hname⟩
  have hsome := isSome_byToolName.2 ⟨schema, hschema, beq_iff_eq.1 hname⟩
  rw [h] at hsome
  cases hsome

theorem policyMetadata_of_not_local (h : parts.byToolName.get? name = none) :
    parts.policyMetadata name = match parts.forwardedOnly.get? name with
      | some schema => some (.fromSchema schema)
      | none => parts.dynamicSurface.bind fun surface => surface.policyMetadata name := by
  rw [policyMetadata, find?_append, find?_allSchemas_eq_none h, Option.none_or, find?_forwardedOnly]

theorem mem_everySchema : schema ∈ parts.everySchema ↔
      schema ∈ parts.allSchemas ∨ schema ∈ parts.forwardedOnly.values ∨
        ∃ surface, parts.dynamicSurface = some surface ∧ schema ∈ surface.allSchemas := by
  rw [everySchema, mem_append, mem_append, or_assoc]
  cases parts.dynamicSurface with
  | none | some => simp

theorem mem_buildAllowedTools : name ∈ parts.buildAllowedTools gadgets ↔
      ∃ schema ∈ parts.everySchema, schema.name = name ∧
        toolIsEnabled schema gadgets parts.freezeInner.hasAskHandler = true := mem_nameSet

theorem isToolAllowed_static (h : (parts.byToolName.get? name).isSome = true) :
    parts.isToolAllowed gadgets name = true ↔ ∃ schema ∈ parts.allSchemas, schema.name = name ∧
        toolIsEnabled schema gadgets parts.freezeInner.hasAskHandler = true := by
  rw [isToolAllowed, if_pos h, decide_eq_true_eq, mem_allowedFor h]

theorem schemaIsAllowed_of_not_local (h : parts.byToolName.get? schema.name = none) :
    parts.schemaIsAllowed gadgets schema =
      toolIsEnabled schema gadgets parts.freezeInner.hasAskHandler := by
  rw [schemaIsAllowed, h]
  rfl

theorem isToolAllowed_forwarded (hlocal : parts.byToolName.get? name = none)
    (h : parts.forwardedOnly.get? name = some schema) : parts.isToolAllowed gadgets name =
      toolIsEnabled schema gadgets parts.freezeInner.hasAskHandler := by
  obtain ⟨rfl, -⟩ := of_forwardedOnly h
  rw [isToolAllowed, hlocal, h]
  exact schemaIsAllowed_of_not_local hlocal

theorem isToolAllowed_dynamic (hlocal : parts.byToolName.get? name = none)
    (hforwarded : parts.forwardedOnly.get? name = none) : parts.isToolAllowed gadgets name = true ↔
      ∃ surface schema, parts.dynamicSurface = some surface ∧
        surface.allSchemas.find? (fun schema => schema.name == name) = some schema ∧
        toolIsEnabled schema gadgets parts.freezeInner.hasAskHandler = true := by
  rw [isToolAllowed, hlocal, hforwarded]
  simp only [Option.isSome_none, Bool.false_eq_true, if_false, Option.any_eq_true,
    Option.bind_eq_some_iff]
  constructor
  · rintro ⟨schema, ⟨surface, hsurface, hfind⟩, hallowed⟩
    obtain rfl : schema.name = name := by simpa using find?_some hfind
    rw [schemaIsAllowed_of_not_local hlocal] at hallowed
    exact ⟨surface, schema, hsurface, hfind, hallowed⟩
  · rintro ⟨surface, schema, hsurface, hfind, henabled⟩
    obtain rfl : schema.name = name := by simpa using find?_some hfind
    rw [← schemaIsAllowed_of_not_local hlocal] at henabled
    exact ⟨schema, ⟨surface, hsurface, hfind⟩, henabled⟩

/-! ## The gates judge what runs when the schemas agree -/

theorem owns_static (h : parts.byToolName.get? name = some provider)
    (hschema : schema ∈ provider.gadgetSchemas) (hname : schema.name = name) :
    parts.Owns name (.static provider) schema :=
  ⟨dispatchTarget_static h, hschema, hname⟩

theorem exists_find?_name (hschema : schema ∈ schemas) :
    ∃ first, schemas.find? (fun other => other.name == schema.name) = some first ∧
      first ∈ schemas ∧ first.name = schema.name := by
  have hsome : (schemas.find? fun other => other.name == schema.name).isSome = true :=
    find?_isSome.2 ⟨schema, hschema, beq_self_eq_true _⟩
  obtain ⟨first, hfirst⟩ := Option.isSome_iff_exists.1 hsome
  exact ⟨first, hfirst, mem_of_find?_eq_some hfirst, by simpa using find?_some hfirst⟩

section

variable (h : parts.SchemasAgree gadgets)

include h

theorem SchemasAgree.eq_of_surface {schema other : GadgetSchema}
    (hsurface : parts.dynamicSurface = some surface)
    (hschema : schema ∈ surface.allSchemas) (hother : other ∈ surface.allSchemas)
    (hname : schema.name = other.name) (hlocal : parts.byToolName.get? schema.name = none)
    (hforwarded : parts.forwardedOnly.get? schema.name = none) : schema = other := by
  obtain ⟨metadata, hmetadata, heffect⟩ := h.declared surface schema hsurface hschema hlocal
    hforwarded
  obtain ⟨metadata', hmetadata', heffect'⟩ := h.declared surface other hsurface hother
    (hname ▸ hlocal) (hname ▸ hforwarded)
  rw [hname, hmetadata'] at hmetadata
  obtain rfl := Option.some.inj hmetadata
  exact eq_of_tier hname (tier_of_effect (heffect.symm.trans heffect'))

section

variable (howns : parts.Owns name target schema)
include howns

theorem SchemasAgree.enabled (hreaches : parts.Reaches gadgets name) :
    toolIsEnabled schema gadgets parts.freezeInner.hasAskHandler = true := by
  obtain ⟨htarget, hschema, rfl⟩ := howns
  obtain ⟨provider, rfl, hlocal⟩ | ⟨other, rfl, hlocal, hforwarded⟩ |
    ⟨surface, other, rfl, hlocal, hforwarded, hsurface, hfind⟩ := dispatchTarget_cases htarget
  · obtain ⟨hforward, hallowed, hask⟩ := (reaches_static_iff hlocal).1 hreaches
    have hsome : (parts.byToolName.get? schema.name).isSome = true :=
      Option.isSome_iff_exists.2 ⟨provider, hlocal⟩
    rw [hasAskHandler_of_forward hforward]
    by_contra hdisabled
    obtain hall | ⟨hstore, hasks⟩ := h.disabled hforward _ provider schema hlocal hschema rfl
      (Bool.not_eq_true _ ▸ hdisabled)
    · obtain ⟨enabled, hmem, hname, henabled⟩ := (mem_allowedFor hsome).1 hallowed
      rw [hasAskHandler_of_forward hforward, hall enabled hmem hname] at henabled
      cases henabled
    · obtain hnot | hstore' := hask
      · exact hnot ((mem_askFor hsome).2 hasks)
      · rw [hstore] at hstore'
        cases hstore'
  · exact absurd hreaches (not_reaches_forwarded hlocal hforwarded)
  · have hname : other.name = schema.name := by simpa using find?_some hfind
    rw [h.eq_of_surface hsurface hschema (mem_of_find?_eq_some hfind) hname.symm hlocal hforwarded]
    exact ((reaches_dynamic_iff htarget).1 hreaches).2.1

theorem SchemasAgree.unapproved (hruns : parts.dispatchInner gadgets ⟨false, false⟩ name = .runs) :
    toolAsks schema gadgets = false := by
  have hreaches : parts.Reaches gadgets name := .inl hruns
  obtain ⟨htarget, hschema, rfl⟩ := howns
  rw [dispatchInner_eq htarget] at hruns
  obtain ⟨provider, rfl, hlocal⟩ | ⟨other, rfl, hlocal, hforwarded⟩ |
    ⟨surface, other, rfl, hlocal, hforwarded, hsurface, hfind⟩ := dispatchTarget_cases htarget
  · have hforward := ((reaches_static_iff hlocal).1 hreaches).1
    have hsome : (parts.byToolName.get? schema.name).isSome = true :=
      Option.isSome_iff_exists.2 ⟨provider, hlocal⟩
    have hask := of_decide_eq_false (gate_eq_runs hforward hruns).2
    by_contra hasks
    have hmem := mem_allSchemas_of_byToolName hlocal hschema
    exact hask ((mem_askFor hsome).2 ⟨schema, hmem, rfl, Bool.not_eq_false _ ▸ hasks⟩)
  · exact absurd hreaches (not_reaches_forwarded hlocal hforwarded)
  · have hforward := ((reaches_dynamic_iff htarget).1 hreaches).1
    have hname : other.name = schema.name := by simpa using find?_some hfind
    rw [h.eq_of_surface hsurface hschema (mem_of_find?_eq_some hfind) hname.symm hlocal hforwarded]
    exact (gate_eq_runs hforward hruns).2

theorem SchemasAgree.published :
    ∃ metadata, parts.policyMetadata name = some metadata ∧ target.Describes metadata schema := by
  obtain ⟨htarget, hschema, rfl⟩ := howns
  obtain ⟨provider, rfl, hlocal⟩ | ⟨other, rfl, hlocal, hforwarded⟩ |
    ⟨surface, other, rfl, hlocal, hforwarded, hsurface, hfind⟩ := dispatchTarget_cases htarget
  · obtain ⟨first, hfirst, -, hname⟩ :=
      exists_find?_name (mem_allSchemas_of_byToolName hlocal hschema)
    have htier := h.first _ provider schema first hlocal hschema rfl hfirst
    obtain rfl := eq_of_tier hname.symm htier
    exact ⟨_, policyMetadata_static hfirst, rfl⟩
  · obtain rfl : schema = other := mem_singleton.1 hschema
    refine ⟨.fromSchema schema, ?_, rfl⟩
    rw [policyMetadata_of_not_local hlocal, hforwarded]
  · obtain ⟨metadata, hmetadata, heffect⟩ :=
      h.declared surface schema hsurface hschema hlocal hforwarded
    refine ⟨metadata, ?_, heffect⟩
    rw [policyMetadata_of_not_local hlocal, hforwarded, hsurface]
    exact hmetadata

end

theorem SchemasAgree.listed (name : String) :
    name ∈ parts.buildAllowedTools gadgets ↔ parts.isToolAllowed gadgets name = true := by
  rw [mem_buildAllowedTools]
  simp only [mem_everySchema]
  cases hlocal : parts.byToolName.get? name with
  | some provider =>
    have hsome : (parts.byToolName.get? name).isSome = true := by rw [hlocal]; rfl
    rw [isToolAllowed_static hsome]
    constructor
    · rintro ⟨schema, hmem | hmem | ⟨surface, hsurface, hmem⟩, rfl, henabled⟩
      · exact ⟨schema, hmem, rfl, henabled⟩
      · rw [(of_mem_forwardedOnly hmem).2] at hlocal
        cases hlocal
      · exact (h.overlap surface schema hsurface hmem henabled).1 hsome
    · rintro ⟨schema, hmem, hname, henabled⟩
      exact ⟨schema, .inl hmem, hname, henabled⟩
  | none =>
    have hnot : ∀ schema ∈ parts.allSchemas, schema.name ≠ name := fun schema hmem hname => by
      have hsome := isSome_byToolName.2 ⟨schema, hmem, hname⟩
      rw [hlocal] at hsome
      cases hsome
    cases hforwarded : parts.forwardedOnly.get? name with
    | some other =>
      rw [isToolAllowed_forwarded hlocal hforwarded]
      constructor
      · rintro ⟨schema, hmem | hmem | ⟨surface, hsurface, hmem⟩, rfl, henabled⟩
        · exact absurd rfl (hnot schema hmem)
        · rw [(of_mem_forwardedOnly hmem).1] at hforwarded
          cases hforwarded
          exact henabled
        · exact (h.overlap surface schema hsurface hmem henabled).2 other hforwarded
      · intro henabled
        exact ⟨other, .inr (.inl (OrdMap.mem_values.2 ⟨name, hforwarded⟩)),
          (of_forwardedOnly hforwarded).1, henabled⟩
    | none =>
      rw [isToolAllowed_dynamic hlocal hforwarded]
      constructor
      · rintro ⟨schema, hmem | hmem | ⟨surface, hsurface, hmem⟩, rfl, henabled⟩
        · exact absurd rfl (hnot schema hmem)
        · rw [(of_mem_forwardedOnly hmem).1] at hforwarded
          cases hforwarded
        · obtain ⟨first, hfirst, hfirst_mem, hname⟩ := exists_find?_name hmem
          obtain rfl := h.eq_of_surface hsurface hmem hfirst_mem hname.symm hlocal hforwarded
          exact ⟨surface, schema, hsurface, hfirst, henabled⟩
      · rintro ⟨surface, schema, hsurface, hfind, henabled⟩
        exact ⟨schema, .inr (.inr ⟨surface, hsurface, mem_of_find?_eq_some hfind⟩),
          by simpa using find?_some hfind, henabled⟩

theorem SchemasAgree.judgesWhatRuns :
    parts.JudgesWhatRuns gadgets where
  enabled _ _ _ := h.enabled
  unapproved _ _ _ := h.unapproved
  published _ _ _ := h.published
  listed := h.listed

end

/-! ## They agree when the gates judge what runs -/

theorem JudgesWhatRuns.schemasAgree (h : parts.JudgesWhatRuns gadgets) :
    parts.SchemasAgree gadgets where
  first := by
    intro name provider schema other hlocal hschema hname hfirst
    obtain ⟨metadata, hmetadata, hdescribes⟩ :=
      h.published name _ schema (owns_static hlocal hschema hname)
    rw [policyMetadata_static hfirst, hdescribes, Option.some.injEq] at hmetadata
    exact tier_of_effect (congrArg GadgetPolicyMetadata.effect hmetadata.symm)
  disabled := by
    intro hforward name provider schema hlocal hschema hname hdisabled
    have hsome : (parts.byToolName.get? name).isSome = true := by rw [hlocal]; rfl
    by_cases hall : ∀ other ∈ parts.allSchemas, other.name = name →
        toolIsEnabled other gadgets parts.approvalStore = false
    · exact .inl hall
    · right
      push Not at hall
      obtain ⟨other, hother, hother_name, henabled⟩ := hall
      have hallowed : name ∈ parts.freezeInner.allowedFor gadgets := by
        rw [mem_allowedFor hsome, hasAskHandler_of_forward hforward]
        exact ⟨other, hother, hother_name, Bool.not_eq_false _ ▸ henabled⟩
      have hnot : ¬parts.Reaches gadgets name := fun hreaches => by
        have hown := h.enabled name _ schema (owns_static hlocal hschema hname) hreaches
        rw [hasAskHandler_of_forward hforward, hdisabled] at hown
        cases hown
      rw [reaches_static_iff hlocal] at hnot
      simp only [hforward, hallowed, true_and, not_or, not_not, Bool.not_eq_true] at hnot
      exact ⟨hnot.2, (mem_askFor hsome).1 hnot.1⟩
  declared := by
    intro surface schema hsurface hschema hlocal hforwarded
    obtain ⟨first, hfirst, -, -⟩ := exists_find?_name hschema
    have htarget := dispatchTarget_dynamic hlocal hforwarded hsurface hfirst
    obtain ⟨metadata, hmetadata, hdescribes⟩ :=
      h.published schema.name _ schema ⟨htarget, hschema, rfl⟩
    rw [policyMetadata_of_not_local hlocal, hforwarded, hsurface] at hmetadata
    exact ⟨metadata, hmetadata, hdescribes⟩
  overlap := by
    intro surface schema hsurface hschema henabled
    have hallowed : parts.isToolAllowed gadgets schema.name = true := by
      rw [← h.listed, mem_buildAllowedTools]
      exact ⟨schema, mem_everySchema.2 (.inr (.inr ⟨surface, hsurface, hschema⟩)), rfl, henabled⟩
    constructor
    · intro hsome
      exact (isToolAllowed_static hsome).1 hallowed
    · intro other hforwarded
      rw [isToolAllowed_forwarded (of_forwardedOnly hforwarded).2 hforwarded] at hallowed
      exact hallowed

/-- The gates judge the tool that runs exactly when the schemas of a name agree where it matters. -/
theorem judgesWhatRuns_iff (parts : RegistryParts) (gadgets : GadgetsConfig) :
    parts.JudgesWhatRuns gadgets ↔ parts.SchemasAgree gadgets :=
  ⟨JudgesWhatRuns.schemasAgree, SchemasAgree.judgesWhatRuns⟩

end

end RegistryParts

/-! ## A write that is judged as a read -/

def sampleWritesOff : GadgetsConfig where
  write := ⟨.never, .never, .never, .never, .never, .empty, .empty⟩
  destructiveEnabled := false

def sampleTwoProviders : RegistryParts where
  providers := [⟨[⟨"wiki.page", .read⟩]⟩, ⟨[⟨"wiki.page", .write⟩]⟩]
  forwardedSchemas := []
  dynamicSurface := none
  approvalStore := false
  forward := false

theorem twoProviders_not_judged : ¬sampleTwoProviders.JudgesWhatRuns sampleWritesOff := by
  intro h
  have howns : sampleTwoProviders.Owns "wiki.page" (.static ⟨[⟨"wiki.page", .write⟩]⟩)
      ⟨"wiki.page", .write⟩ := RegistryParts.owns_static rfl (mem_singleton_self _) rfl
  have hreaches : sampleTwoProviders.Reaches sampleWritesOff "wiki.page" := .inl (by decide +kernel)
  have henabled := h.enabled _ _ _ howns hreaches
  exact absurd henabled (by decide +kernel)

end Gadgetron.Penny
