import Gadgetron.Lib.OrdSet
import Mathlib.Data.String.Basic

/-!
# The gadget registry and its operator gate

The modes that an operator configures for write gadgets, the two name sets computed from them, and
the gate that a dispatch passes before a provider runs.
-/

namespace Gadgetron.Penny

open Lib

inductive GadgetTier
  | read
  | write
  | destructive
  deriving DecidableEq

inductive GadgetMode
  | auto
  | ask
  | never
  deriving DecidableEq

structure GadgetSchema where
  name : String
  tier : GadgetTier

structure WriteGadgetsConfig where
  (defaultMode wikiWrite infraWrite schedulerWrite providerMutate : GadgetMode)
  (namespaceModes legacyNamespaceModes : OrdMap String GadgetMode)

/-- The part of `[agent.gadgets]` that the gate reads. -/
structure GadgetsConfig where
  write : WriteGadgetsConfig
  destructiveEnabled : Bool

def WriteGadgetsConfig.namespaceMode (config : WriteGadgetsConfig) (nameSpace : String) :
    Option GadgetMode :=
  (config.namespaceModes.get? nameSpace).or
    ([nameSpace, nameSpace ++ "_admin", nameSpace ++ "_write"].findSome?
      config.legacyNamespaceModes.get?)

def resolveWriteMode (name : String) (gadgets : GadgetsConfig) : GadgetMode :=
  let nameSpace := String.ofList (name.toList.takeWhile (· != '.'))
  if nameSpace = "wiki" then gadgets.write.wikiWrite
  else if nameSpace = "infra" then gadgets.write.infraWrite
  else if nameSpace = "scheduler" then gadgets.write.schedulerWrite
  else if nameSpace = "provider" then gadgets.write.providerMutate
  else (gadgets.write.namespaceMode nameSpace).getD gadgets.write.defaultMode

def toolIsEnabled (schema : GadgetSchema) (gadgets : GadgetsConfig) (hasAskHandler : Bool) : Bool :=
  match schema.tier with
  | .read => true
  | .write =>
    match resolveWriteMode schema.name gadgets with
    | .auto => true
    | .ask => hasAskHandler
    | .never => false
  | .destructive => gadgets.destructiveEnabled

/-- The call must ask an operator: a write gadget whose mode is `Ask`. -/
def toolAsks (schema : GadgetSchema) (gadgets : GadgetsConfig) : Bool :=
  decide (schema.tier = .write) && decide (resolveWriteMode schema.name gadgets = .ask)

/-- What is fixed when the registry is frozen.  A name that a provider of this process has is never
also forward-only. -/
structure GadgetRegistry where
  (allSchemas forwardedSchemas : List GadgetSchema)
  dynamicSurface : Option (List GadgetSchema)
  (approvalStore forward : Bool)
  forwarded_not_local : ∀ schema ∈ forwardedSchemas, ∀ other ∈ allSchemas, schema.name ≠ other.name

namespace GadgetRegistry

variable (R : GadgetRegistry)

/-- `self.approval_store.is_some() || self.forward.is_some()`. -/
def hasAskHandler : Bool := R.approvalStore || R.forward

/-- The set stored in `allowed_names` for a configuration. -/
def allowedFor (gadgets : GadgetsConfig) : OrdSet String :=
  OrdSet.ofList (((R.allSchemas ++ R.forwardedSchemas).filter fun schema =>
    toolIsEnabled schema gadgets R.hasAskHandler).map GadgetSchema.name)

/-- The set stored in `ask_names` for a configuration. -/
def askFor (gadgets : GadgetsConfig) : OrdSet String :=
  OrdSet.ofList (((R.allSchemas ++ R.forwardedSchemas).filter fun schema =>
    toolAsks schema gadgets).map GadgetSchema.name)

inductive Target
  | static
  | forwarded (schema : GadgetSchema)
  | dynamic (schema : GadgetSchema)

/-- The target of a name; `none` is an unknown gadget. -/
def target (name : String) : Option Target :=
  if R.allSchemas.any fun schema => schema.name == name then some .static
  else
    match R.forwardedSchemas.find? fun schema => schema.name == name with
    | some schema => some (.forwarded schema)
    | none =>
      (R.dynamicSurface.bind fun schemas => schemas.find? fun schema => schema.name == name).map
        .dynamic

inductive Outcome
  | unknownGadget
  | forwardedToParent
  | denied (reason : String)
  | awaitsApproval
  | runs
  deriving DecidableEq

structure DispatchContext where
  (policyAuthorized approvalGranted : Bool)

/-- The gate of `dispatch_inner`, once it knows whether the name is allowed and must ask. -/
def gate (target : Target) (context : DispatchContext) (name : String)
    (isAllowed requiresApproval : Bool) : Outcome :=
  if R.forward then .forwardedToParent
  else if !isAllowed && !context.policyAuthorized then
    .denied ("tool '" ++ name ++ "' disabled by operator config")
  else
    match target with
    | .forwarded _ =>
      .denied ("forward-only tool '" ++ name ++ "' has no authenticated parent callback")
    | .static | .dynamic _ =>
      if requiresApproval && !context.policyAuthorized && !context.approvalGranted then
        if R.approvalStore then .awaitsApproval
        else .denied ("tool '" ++ name ++
          "' requires operator approval but no approval store is wired")
      else .runs

/-- Every schema registered under the name in this process is a write gadget, and there is one. -/
structure IsWriteGadget (name : String) : Prop where
  registered : ∃ schema ∈ R.allSchemas, schema.name = name
  write : ∀ schema ∈ R.allSchemas, schema.name = name → schema.tier = .write

variable {R} {name : String}

theorem IsWriteGadget.target_eq (h : R.IsWriteGadget name) : R.target name = some .static := by
  obtain ⟨schema, hmem, hname⟩ := h.registered
  have hany : R.allSchemas.any (fun schema => schema.name == name) = true :=
    List.any_eq_true.2 ⟨schema, hmem, by simp [hname]⟩
  unfold target
  rw [if_pos hany]

theorem IsWriteGadget.tier_eq (h : R.IsWriteGadget name) {schema : GadgetSchema}
    (hmem : schema ∈ R.allSchemas ++ R.forwardedSchemas) (hname : schema.name = name) :
    schema.tier = .write := by
  rcases List.mem_append.1 hmem with hlocal | hforwarded
  · exact h.write schema hlocal hname
  · obtain ⟨other, hother, hother_name⟩ := h.registered
    exact absurd (hname.trans hother_name.symm)
      (R.forwarded_not_local schema hforwarded other hother)

variable {gadgets : GadgetsConfig}

theorem IsWriteGadget.mode_of_mem_allowedFor (h : R.IsWriteGadget name)
    (hmem : name ∈ R.allowedFor gadgets) :
    resolveWriteMode name gadgets = .auto ∨ resolveWriteMode name gadgets = .ask := by
  unfold allowedFor at hmem
  rw [OrdSet.mem_ofList, List.mem_map] at hmem
  obtain ⟨schema, hschema, rfl⟩ := hmem
  obtain ⟨hin, henabled⟩ := List.mem_filter.1 hschema
  unfold toolIsEnabled at henabled
  rw [h.tier_eq hin rfl] at henabled
  rcases hmode : resolveWriteMode schema.name gadgets with _ | _ | _
  · exact Or.inl rfl
  · exact Or.inr rfl
  · simp [hmode] at henabled

theorem IsWriteGadget.mode_of_not_mem_askFor (h : R.IsWriteGadget name)
    (hmem : name ∉ R.askFor gadgets) : resolveWriteMode name gadgets ≠ .ask := by
  intro hmode
  apply hmem
  obtain ⟨schema, hschema, rfl⟩ := h.registered
  unfold askFor
  rw [OrdSet.mem_ofList, List.mem_map]
  refine ⟨schema, List.mem_filter.2 ⟨List.mem_append_left _ hschema, ?_⟩, rfl⟩
  unfold toolAsks
  rw [h.write schema hschema rfl, hmode]
  rfl

theorem gate_eq_runs {target : Target} {isAllowed requiresApproval : Bool}
    (hforward : R.forward = false)
    (h : R.gate target ⟨false, false⟩ name isAllowed requiresApproval = .runs) :
    isAllowed = true ∧ requiresApproval = false := by
  unfold gate at h
  rw [hforward] at h
  cases isAllowed with
  | false => simp at h
  | true =>
    cases requiresApproval with
    | false => exact ⟨rfl, rfl⟩
    | true =>
      cases target with
      | forwarded schema => simp at h
      | static | dynamic schema =>
        simp only [Bool.false_eq_true, if_false, Bool.not_true, Bool.false_and,
          Bool.not_false, Bool.and_self, if_true] at h
        split_ifs at h

end GadgetRegistry

end Gadgetron.Penny
