import Gadgetron.Policy.Input
import Mathlib.Data.Prod.Lex

/-!
# Policy documents and their evaluation

`PolicyDocument::validate` and `PolicyDocument::evaluate` with the trace they produce.
-/

namespace Gadgetron.Policy

open Lib List

def policySchemaVersion : ℕ := 1

def maxRules : ℕ := 256

def maxMatchValues : ℕ := 128

inductive PolicyDecision
  | auto
  | review
  | deny
  deriving DecidableEq

/-- The predicates of a rule; an empty set does not restrict. -/
structure PolicyMatcher where
  (actionIds namespaces : OrdSet String)
  effects : OrdSet PolicyEffect
  risks : OrdSet PolicyRisk
  scopes : OrdSet String
  evidenceStates : OrdSet EvidenceState
  outcomeStates : OrdSet OutcomeState
  rollbackStates : OrdSet RollbackState

structure PolicyRule where
  id : String
  priority : ℕ
  enabled : Bool
  matcher : PolicyMatcher
  decision : PolicyDecision
  reason : String

structure PolicyDocument where
  schemaVersion : ℕ
  defaultDecision : PolicyDecision
  defaultReason : String
  rules : List PolicyRule

structure PolicyIdentity where
  policyId : Uuid
  revision : ℤ
  documentHash : String
  deriving DecidableEq

inductive PolicyTraceStage
  | scopeGuard
  | rule
  | default
  deriving DecidableEq

structure PolicyTraceStep where
  stage : PolicyTraceStage
  ruleId : Option String
  matched : Bool
  failedPredicates : List String
  decision : Option PolicyDecision
  reason : String
  deriving DecidableEq

structure PolicyDecisionTrace where
  schemaVersion : ℕ
  policy : PolicyIdentity
  inputHash : String
  decision : PolicyDecision
  reason : String
  steps : List PolicyTraceStep
  deriving DecidableEq

/-- What is not part of this code: the debug print of a string and SHA-256 over an encoding. -/
structure Primitives where
  debug : String → String
  digestJson : Json → String
  digestInput : PolicyInput → String
  digestDocument : PolicyDocument → String

/-! ## Validation -/

def validRuleId (value : String) : Bool :=
  !value.toList.isEmpty && decide (value.utf8ByteSize ≤ 80) && value.toList.head? != some '-' &&
    value.toList.getLast? != some '-' && decide (¬ ['-', '-'] <:+: value.toList) &&
    value.toList.all fun c => c.isLower || c.isDigit || c == '-'

def PolicyRule.validateBody (rule : PolicyRule) : Except PolicyError Unit := do
  validateLabel "rule reason" rule.reason 240
  validateSetSize "rule action ids" rule.matcher.actionIds.length maxMatchValues
  validateSetSize "rule namespaces" rule.matcher.namespaces.length maxMatchValues
  validateSetSize "rule scopes" rule.matcher.scopes.length maxScopes
  forM (rule.matcher.actionIds.toList ++ rule.matcher.namespaces.toList ++
      rule.matcher.scopes.toList) fun value =>
    validateLabel "policy matcher" value 160

section

variable (P : Primitives)

/-- The loop over the rules; `ids` are the ids seen so far. -/
def validateRules (ids : List String) : List PolicyRule → Except PolicyError Unit
  | [] => .ok ()
  | rule :: rest =>
    if validRuleId rule.id = false then
      .error (.invalid ("rule id " ++ P.debug rule.id ++
        " must be lowercase kebab-case (1-80 chars)"))
    else if rule.id ∈ ids then
      .error (.invalid ("duplicate policy rule id " ++ P.debug rule.id))
    else do
      rule.validateBody
      validateRules (rule.id :: ids) rest

def PolicyDocument.validate (document : PolicyDocument) : Except PolicyError Unit :=
  if document.schemaVersion ≠ policySchemaVersion then
    .error (.invalid ("unsupported policy schema version " ++
      ToString.toString document.schemaVersion))
  else if maxRules < document.rules.length then
    .error (.invalid ("policy rules exceed " ++ ToString.toString maxRules))
  else do
    validateLabel "default_reason" document.defaultReason 240
    validateRules P [] document.rules

def PolicyDocument.digest (document : PolicyDocument) : Except PolicyError String := do
  document.validate P
  return P.digestDocument document

/-! ## Evaluation -/

/-- A predicate on one value: fails when the set is not empty and lacks the value. -/
def failedMember {α : Type} [LT α] [DecidableEq α] (label : String) (set : OrdSet α) (value : α) :
    List String :=
  if !set.isEmpty && decide (value ∉ set) then [label] else []

def failedPredicates (matcher : PolicyMatcher) (input : PolicyInput) : List String :=
  failedMember "action_id" matcher.actionIds input.actionId ++
    failedMember "namespace" matcher.namespaces input.nameSpace ++
    failedMember "effect" matcher.effects input.effect ++
    failedMember "risk" matcher.risks input.risk ++
    (if !matcher.scopes.isEmpty && !matcher.scopes.isSubset input.requestedScopes then ["scope"]
      else []) ++
    failedMember "evidence" matcher.evidenceStates input.evidence.state ++
    failedMember "outcome" matcher.outcomeStates input.outcome.state ++
    failedMember "rollback" matcher.rollbackStates input.rollback.state

def PolicyRule.key (rule : PolicyRule) : ℕ ×ₗ String := toLex (rule.priority, rule.id)

def ruleOrder (left right : PolicyRule) : Ordering := compare left.key right.key

def ruleStep (input : PolicyInput) (rule : PolicyRule) : PolicyTraceStep :=
  let failed := failedPredicates rule.matcher input
  { stage := .rule
    ruleId := some rule.id
    matched := failed.isEmpty
    failedPredicates := failed
    decision := if failed.isEmpty then some rule.decision else none
    reason := rule.reason }

def scopeDeniedStep (missingScopes : List String) : PolicyTraceStep where
  stage := .scopeGuard
  ruleId := none
  matched := false
  failedPredicates := missingScopes.map fun scope => "actor_scope:" ++ scope
  decision := some .deny
  reason := "Actor is missing required scope(s): " ++ String.intercalate ", " missingScopes

def scopePassedStep : PolicyTraceStep where
  stage := .scopeGuard
  ruleId := none
  matched := true
  failedPredicates := []
  decision := none
  reason := "Actor scopes satisfy the request"

def defaultStep (document : PolicyDocument) : PolicyTraceStep where
  stage := .default
  ruleId := none
  matched := true
  failedPredicates := []
  decision := some document.defaultDecision
  reason := document.defaultReason

def evaluateRules (document : PolicyDocument) (input : PolicyInput) :
    List PolicyRule → List PolicyTraceStep → PolicyDecision × String × List PolicyTraceStep
  | [], steps => (document.defaultDecision, document.defaultReason, steps ++ [defaultStep document])
  | rule :: rest, steps =>
    if (failedPredicates rule.matcher input).isEmpty then
      (rule.decision, rule.reason, steps ++ [ruleStep input rule])
    else evaluateRules document input rest (steps ++ [ruleStep input rule])

def decideInput (document : PolicyDocument) (input : PolicyInput) :
    PolicyDecision × String × List PolicyTraceStep :=
  let missingScopes := (input.requestedScopes.diff input.actorScopes).toList
  if missingScopes.isEmpty then
    evaluateRules document input
      (sortBy ruleOrder (document.rules.filter PolicyRule.enabled)) [scopePassedStep]
  else
    (.deny, (scopeDeniedStep missingScopes).reason, [scopeDeniedStep missingScopes])

def PolicyDocument.evaluate (document : PolicyDocument) (identity : PolicyIdentity)
    (input : PolicyInput) : Except PolicyError PolicyDecisionTrace := do
  let documentHash ← document.digest P
  if identity.documentHash ≠ documentHash then .error .identityHashMismatch
  else
    let inputHash ← input.digestWith P.digestInput
    let (decision, reason, steps) := decideInput document input
    return {
      schemaVersion := policySchemaVersion
      policy := identity
      inputHash
      decision
      reason
      steps }

end

/-! ## What a decision is -/

/-- An empty set admits every value. -/
def Admits {α : Type} [LT α] (set : OrdSet α) (value : α) : Prop :=
  (∀ a, a ∉ set) ∨ value ∈ set

/-- The input meets every part of the matcher. -/
structure Satisfied (matcher : PolicyMatcher) (input : PolicyInput) : Prop where
  actionId : Admits matcher.actionIds input.actionId
  nameSpace : Admits matcher.namespaces input.nameSpace
  effect : Admits matcher.effects input.effect
  risk : Admits matcher.risks input.risk
  scopes : ∀ scope ∈ matcher.scopes, scope ∈ input.requestedScopes
  evidence : Admits matcher.evidenceStates input.evidence.state
  outcome : Admits matcher.outcomeStates input.outcome.state
  rollback : Admits matcher.rollbackStates input.rollback.state

/-- The rule is enabled, satisfied, and least in priority and id among such rules. -/
structure Decides (document : PolicyDocument) (input : PolicyInput) (rule : PolicyRule) : Prop where
  mem : rule ∈ document.rules
  enabled : rule.enabled = true
  satisfied : Satisfied rule.matcher input
  least : ∀ other ∈ document.rules, other.enabled = true → Satisfied other.matcher input →
    rule.key ≤ other.key

/-- The predicates in the order in which a step lists them. -/
def predicateNames : List String :=
  ["action_id", "namespace", "effect", "risk", "scope", "evidence", "outcome", "rollback"]

/-- The named predicate of the matcher restricts, and the input does not meet it. -/
inductive Fails (matcher : PolicyMatcher) (input : PolicyInput) : String → Prop
  | actionId (h : ¬ Admits matcher.actionIds input.actionId) : Fails matcher input "action_id"
  | nameSpace (h : ¬ Admits matcher.namespaces input.nameSpace) : Fails matcher input "namespace"
  | effect (h : ¬ Admits matcher.effects input.effect) : Fails matcher input "effect"
  | risk (h : ¬ Admits matcher.risks input.risk) : Fails matcher input "risk"
  | scope (scope : String) (h : scope ∈ matcher.scopes) (missing : scope ∉ input.requestedScopes) :
    Fails matcher input "scope"
  | evidence (h : ¬ Admits matcher.evidenceStates input.evidence.state) :
    Fails matcher input "evidence"
  | outcome (h : ¬ Admits matcher.outcomeStates input.outcome.state) : Fails matcher input "outcome"
  | rollback (h : ¬ Admits matcher.rollbackStates input.rollback.state) :
    Fails matcher input "rollback"

/-- The step of a rule that does not decide: it names just the predicates that fail. -/
structure PassedStep (input : PolicyInput) (rule : PolicyRule) (step : PolicyTraceStep) : Prop where
  stage : step.stage = .rule
  ruleId : step.ruleId = some rule.id
  matched : step.matched = false
  mem_iff : ∀ name, name ∈ step.failedPredicates ↔ Fails rule.matcher input name
  order : step.failedPredicates.Sublist predicateNames
  failed : step.failedPredicates ≠ []
  decision : step.decision = none
  reason : step.reason = rule.reason

/-- The steps are those of the enabled rules that meet `which`, in increasing order. -/
structure PassedOver (document : PolicyDocument) (input : PolicyInput) (which : PolicyRule → Prop)
    (passed : List PolicyRule) (steps : List PolicyTraceStep) : Prop where
  sorted : passed.Pairwise fun left right => left.key < right.key
  mem_iff : ∀ rule, rule ∈ passed ↔ rule ∈ document.rules ∧ rule.enabled = true ∧ which rule
  steps : List.Forall₂ (PassedStep input) passed steps

/-- What an evaluation comes to, in the terms of the document and the input alone: decision, reason
and the fields of every step of the trace. -/
inductive EvaluatesTo (document : PolicyDocument) (input : PolicyInput) :
    PolicyDecision → String → List PolicyTraceStep → Prop
  | scopeGuard (missing : List String) (sorted : missing.Pairwise (· < ·))
      (mem_iff : ∀ scope, scope ∈ missing ↔
        scope ∈ input.requestedScopes ∧ scope ∉ input.actorScopes)
      (some_missing : missing ≠ []) :
      EvaluatesTo document input .deny
        ("Actor is missing required scope(s): " ++ String.intercalate ", " missing)
        [{  stage := .scopeGuard
            ruleId := none
            matched := false
            failedPredicates := missing.map fun scope => "actor_scope:" ++ scope
            decision := some .deny
            reason := "Actor is missing required scope(s): " ++ String.intercalate ", " missing }]
  | rule (scopes : ∀ scope ∈ input.requestedScopes, scope ∈ input.actorScopes)
      (rule : PolicyRule) (decides : Decides document input rule) (passed : List PolicyRule)
      (steps : List PolicyTraceStep)
      (passedOver : PassedOver document input (fun other => other.key < rule.key) passed steps) :
      EvaluatesTo document input rule.decision rule.reason
        (⟨.scopeGuard, none, true, [], none, "Actor scopes satisfy the request"⟩ :: steps ++
          [⟨.rule, some rule.id, true, [], some rule.decision, rule.reason⟩])
  | default (scopes : ∀ scope ∈ input.requestedScopes, scope ∈ input.actorScopes)
      (none_satisfied : ∀ rule ∈ document.rules, rule.enabled = true →
        ¬ Satisfied rule.matcher input)
      (passed : List PolicyRule) (steps : List PolicyTraceStep)
      (passedOver : PassedOver document input (fun _ => True) passed steps) :
      EvaluatesTo document input document.defaultDecision document.defaultReason
        (⟨.scopeGuard, none, true, [], none, "Actor scopes satisfy the request"⟩ :: steps ++
          [⟨.default, none, true, [], some document.defaultDecision, document.defaultReason⟩])

theorem failedMember_eq_nil {α : Type} [LT α] [DecidableEq α] {label : String} {set : OrdSet α}
    {value : α} : failedMember label set value = [] ↔ Admits set value := by
  unfold failedMember Admits
  rw [← OrdSet.isEmpty_iff]
  by_cases he : set.isEmpty = true <;> by_cases hv : value ∈ set <;> simp [he, hv]

variable {input : PolicyInput}

theorem failedPredicates_eq_nil {matcher : PolicyMatcher} :
    failedPredicates matcher input = [] ↔ Satisfied matcher input := by
  have hscopes : (if !matcher.scopes.isEmpty && !matcher.scopes.isSubset input.requestedScopes then
      ["scope"] else []) = [] ↔ ∀ scope ∈ matcher.scopes, scope ∈ input.requestedScopes := by
    rw [← OrdSet.isSubset_iff]
    by_cases he : matcher.scopes.isEmpty = true
    · have hsub : matcher.scopes.isSubset input.requestedScopes = true :=
        OrdSet.isSubset_iff.2 fun a ha => absurd ha (OrdSet.isEmpty_iff.1 he a)
      simp [he, hsub]
    · by_cases hs : matcher.scopes.isSubset input.requestedScopes = true <;> simp [he, hs]
  unfold failedPredicates
  simp only [append_eq_nil_iff, failedMember_eq_nil, hscopes]
  constructor
  · rintro ⟨⟨⟨⟨⟨⟨⟨h₁, h₂⟩, h₃⟩, h₄⟩, h₅⟩, h₆⟩, h₇⟩, h₈⟩
    exact ⟨h₁, h₂, h₃, h₄, h₅, h₆, h₇, h₈⟩
  · rintro ⟨h₁, h₂, h₃, h₄, h₅, h₆, h₇, h₈⟩
    exact ⟨⟨⟨⟨⟨⟨⟨h₁, h₂⟩, h₃⟩, h₄⟩, h₅⟩, h₆⟩, h₇⟩, h₈⟩

section

variable {α : Type} [LT α] [DecidableEq α] {label name : String} {set : OrdSet α} {value : α}

theorem mem_failedMember : name ∈ failedMember label set value ↔
    name = label ∧ ¬ Admits set value := by
  rw [← @failedMember_eq_nil _ _ _ label]
  unfold failedMember
  split_ifs <;> simp

theorem failedMember_sublist : (failedMember label set value).Sublist [label] := by
  unfold failedMember
  split_ifs
  · exact .refl _
  · exact nil_sublist _

variable {matcher : PolicyMatcher}

theorem mem_failedPredicates :
    name ∈ failedPredicates matcher input ↔ Fails matcher input name := by
  have hscope : name ∈ (if !matcher.scopes.isEmpty &&
      !matcher.scopes.isSubset input.requestedScopes then ["scope"] else []) ↔
      name = "scope" ∧ ∃ scope ∈ matcher.scopes, scope ∉ input.requestedScopes := by
    have hsubset := OrdSet.isSubset_iff (s := matcher.scopes) (t := input.requestedScopes)
    split_ifs with hfails
    · have hnot : ¬ ∀ scope ∈ matcher.scopes, scope ∈ input.requestedScopes := by
        rw [← hsubset]
        simp_all
      simpa using fun _ : name = "scope" => hnot
    · refine iff_of_false not_mem_nil ?_
      rintro ⟨-, scope, hmem, hmissing⟩
      rw [Bool.and_eq_true, Bool.not_eq_true', Bool.not_eq_true', not_and_or,
        Bool.not_eq_false, Bool.not_eq_false] at hfails
      rcases hfails with hempty | hall
      · exact OrdSet.isEmpty_iff.1 hempty scope hmem
      · exact hmissing (hsubset.1 hall scope hmem)
  unfold failedPredicates
  simp only [mem_append, mem_failedMember, hscope]
  constructor
  · rintro
      (((((((⟨rfl, h⟩ | ⟨rfl, h⟩) | ⟨rfl, h⟩) | ⟨rfl, h⟩) | ⟨rfl, scope, hmem, h⟩) | ⟨rfl, h⟩) |
      ⟨rfl, h⟩) | ⟨rfl, h⟩)
    · exact .actionId h
    · exact .nameSpace h
    · exact .effect h
    · exact .risk h
    · exact .scope scope hmem h
    · exact .evidence h
    · exact .outcome h
    · exact .rollback h
  · intro h
    cases h with
    | scope scope hmem h => simpa using ⟨scope, hmem, h⟩
    | _ h => simp [h]

theorem failedPredicates_sublist :
    (failedPredicates matcher input).Sublist predicateNames := by
  have hscope : (if !matcher.scopes.isEmpty && !matcher.scopes.isSubset input.requestedScopes then
      ["scope"] else []).Sublist ["scope"] := by
    split_ifs
    · exact .refl _
    · exact nil_sublist _
  exact ((((((failedMember_sublist.append failedMember_sublist).append failedMember_sublist).append
    failedMember_sublist).append hscope).append failedMember_sublist).append
      failedMember_sublist).append failedMember_sublist

end

/-! ## The loop stops at the first satisfied rule -/

theorem evaluateRules_cases (document : PolicyDocument) (input : PolicyInput)
    (rules : List PolicyRule) (steps : List PolicyTraceStep) :
    (∃ passed rule rest, rules = passed ++ rule :: rest ∧
        (∀ other ∈ passed, ¬ Satisfied other.matcher input) ∧ Satisfied rule.matcher input ∧
        evaluateRules document input rules steps = (rule.decision, rule.reason,
          steps ++ passed.map (ruleStep input) ++ [ruleStep input rule])) ∨
      ((∀ rule ∈ rules, ¬ Satisfied rule.matcher input) ∧
        evaluateRules document input rules steps = (document.defaultDecision,
          document.defaultReason,
          steps ++ rules.map (ruleStep input) ++ [defaultStep document])) := by
  induction rules generalizing steps with
  | nil => exact Or.inr ⟨by simp, by simp [evaluateRules]⟩
  | cons rule rules ih =>
    unfold evaluateRules
    by_cases hs : Satisfied rule.matcher input
    · left
      refine ⟨[], rule, rules, rfl, by simp, hs, ?_⟩
      rw [failedPredicates_eq_nil.2 hs]
      simp
    · have hne : ¬ (failedPredicates rule.matcher input).isEmpty = true := by
        rw [List.isEmpty_iff, failedPredicates_eq_nil]
        exact hs
      rw [if_neg hne]
      rcases ih (steps ++ [ruleStep input rule]) with
        ⟨passed, found, rest, rfl, hpassed, hfound, hrun⟩ | ⟨hall, hrun⟩
      · left
        refine ⟨rule :: passed, found, rest, rfl, ?_, hfound, ?_⟩
        · exact forall_mem_cons.2 ⟨hs, hpassed⟩
        · rw [hrun]
          simp
      · right
        refine ⟨forall_mem_cons.2 ⟨hs, hall⟩, ?_⟩
        rw [hrun]
        simp

variable {rule : PolicyRule}

theorem mem_before_iff {passed rest : List PolicyRule}
    (hsorted : (passed ++ rule :: rest).Pairwise fun left right => left.key < right.key)
    (other : PolicyRule) :
    other ∈ passed ↔ other ∈ passed ++ rule :: rest ∧ other.key < rule.key := by
  obtain ⟨-, htail, hbefore⟩ := pairwise_append.1 hsorted
  have hafter := (pairwise_cons.1 htail).1
  constructor
  · exact fun h => ⟨mem_append_left _ h, hbefore other h rule mem_cons_self⟩
  · rintro ⟨hmem, hlt⟩
    rcases mem_append.1 hmem with h | h
    · exact h
    · rcases mem_cons.1 h with rfl | h
      · exact absurd hlt (lt_irrefl _)
      · exact absurd hlt (hafter other h).asymm

theorem passedStep_ruleStep (h : ¬ Satisfied rule.matcher input) :
    PassedStep input rule (ruleStep input rule) := by
  have hfailed : failedPredicates rule.matcher input ≠ [] :=
    fun hnil => h (failedPredicates_eq_nil.1 hnil)
  have hempty : (failedPredicates rule.matcher input).isEmpty = false :=
    List.isEmpty_eq_false_iff.2 hfailed
  exact ⟨rfl, rfl, hempty, fun name => mem_failedPredicates, failedPredicates_sublist, hfailed,
    by simp [ruleStep, hempty], rfl⟩

theorem forall₂_ruleStep {passed : List PolicyRule}
    (h : ∀ rule ∈ passed, ¬ Satisfied rule.matcher input) :
    List.Forall₂ (PassedStep input) passed (passed.map (ruleStep input)) :=
  forall₂_map_right_iff.2 (forall₂_same.2 fun rule hrule => passedStep_ruleStep (h rule hrule))

theorem ruleStep_of_satisfied (h : Satisfied rule.matcher input) :
    ruleStep input rule = ⟨.rule, some rule.id, true, [], some rule.decision, rule.reason⟩ := by
  simp [ruleStep, failedPredicates_eq_nil.2 h]

theorem ruleOrder_eq (left right : PolicyRule) :
    ruleOrder left right = compare left.key right.key := rfl

variable {rules : List PolicyRule}

theorem nodup_key_enabled (hids : (rules.map PolicyRule.id).Nodup) :
    ((rules.filter PolicyRule.enabled).map PolicyRule.key).Nodup := by
  refine Nodup.of_map (fun key => (ofLex key).2) ?_
  rw [List.map_map]
  exact hids.sublist (filter_sublist.map _)

theorem decideInput_spec (document : PolicyDocument) (input : PolicyInput)
    (hids : (document.rules.map PolicyRule.id).Nodup) :
    EvaluatesTo document input (decideInput document input).1 (decideInput document input).2.1
      (decideInput document input).2.2 := by
  unfold decideInput
  dsimp only
  split_ifs with hmissing
  · have hscopes : ∀ scope ∈ input.requestedScopes, scope ∈ input.actorScopes := by
      intro scope hscope
      by_contra hno
      have hmem : scope ∈ (input.requestedScopes.diff input.actorScopes).toList :=
        OrdSet.mem_diff.2 ⟨hscope, hno⟩
      rw [List.isEmpty_iff.1 hmissing] at hmem
      cases hmem
    have hkeys := nodup_key_enabled hids
    have hsorted := sortBy_pairwise_lt ruleOrder_eq hkeys
    have hmem : ∀ rule, rule ∈ sortBy ruleOrder (document.rules.filter PolicyRule.enabled) ↔
        rule ∈ document.rules ∧ rule.enabled = true := by
      intro rule
      rw [mem_sortBy, List.mem_filter]
    rcases evaluateRules_cases document input
        (sortBy ruleOrder (document.rules.filter PolicyRule.enabled)) [scopePassedStep] with
      ⟨passed, rule, rest, hrules, hpassed, hrule, hrun⟩ | ⟨hall, hrun⟩
    · rw [hrules] at hsorted hmem
      rw [hrun, ruleStep_of_satisfied hrule]
      obtain ⟨hin, hen⟩ := (hmem rule).1 (by simp)
      refine EvaluatesTo.rule hscopes rule ⟨hin, hen, hrule, ?_⟩ passed _ ⟨?_, ?_, ?_⟩
      · intro other hother henabled hsat
        by_contra hlt
        exact hpassed other ((mem_before_iff hsorted other).2
          ⟨(hmem other).2 ⟨hother, henabled⟩, not_le.1 hlt⟩) hsat
      · exact (pairwise_append.1 hsorted).1
      · intro other
        rw [mem_before_iff hsorted, hmem, and_assoc]
      · exact forall₂_ruleStep hpassed
    · rw [hrun]
      refine EvaluatesTo.default hscopes ?_ _ _ ⟨hsorted, ?_, ?_⟩
      · exact fun rule hrule henabled => hall rule ((hmem rule).2 ⟨hrule, henabled⟩)
      · intro rule
        rw [hmem]
        simp
      · exact forall₂_ruleStep hall
  · exact EvaluatesTo.scopeGuard _ (input.requestedScopes.diff input.actorScopes).sorted
      (fun _ => OrdSet.mem_diff) fun h => hmissing (List.isEmpty_iff.2 h)

/-! ## The order of the rules does not matter -/

theorem decideInput_perm {document : PolicyDocument}
    (hids : (document.rules.map PolicyRule.id).Nodup)
    (hperm : rules.Perm document.rules) (input : PolicyInput) :
    decideInput { document with rules } input = decideInput document input := by
  have hrun : ∀ (sorted : List PolicyRule) steps,
      evaluateRules { document with rules } input sorted steps =
        evaluateRules document input sorted steps := by
    intro sorted
    induction sorted with
    | nil => exact fun _ => rfl
    | cons rule sorted ih =>
      intro steps
      unfold evaluateRules
      rw [ih]
  have hsort : sortBy ruleOrder (rules.filter PolicyRule.enabled) =
      sortBy ruleOrder (document.rules.filter PolicyRule.enabled) :=
    (sortBy_eq_of_perm ruleOrder_eq (nodup_key_enabled hids) (hperm.filter _).symm).symm
  unfold decideInput
  rw [hrun, hsort]

section

variable (P : Primitives)

theorem validateRules_eq_ok {ids : List String} {rules : List PolicyRule} :
    validateRules P ids rules = .ok () ↔
      (∀ rule ∈ rules, validRuleId rule.id = true ∧ rule.validateBody = .ok ()) ∧
        (rules.map PolicyRule.id).Nodup ∧ ∀ rule ∈ rules, rule.id ∉ ids := by
  induction rules generalizing ids with
  | nil => simp [validateRules]
  | cons rule rules ih =>
    unfold validateRules
    by_cases hid : validRuleId rule.id = true
    · by_cases hdup : rule.id ∈ ids
      · simp [hid, hdup]
      · rw [if_neg (by simp [hid]), if_neg hdup, bind_eq_ok]
        simp only [ih, forall_mem_cons, map_cons, nodup_cons, List.mem_map, not_exists, not_and]
        constructor
        · rintro ⟨_, hbody, hok, hnodup, hnew⟩
          refine ⟨⟨⟨hid, hbody⟩, hok⟩, ⟨fun r hr he => ?_, hnodup⟩, hdup, fun r hr he => ?_⟩
          · exact hnew r hr (he ▸ mem_cons_self)
          · exact hnew r hr (mem_cons_of_mem _ he)
        · rintro ⟨⟨⟨-, hbody⟩, hok⟩, ⟨hfresh, hnodup⟩, -, hnew⟩
          refine ⟨(), hbody, hok, hnodup, fun r hr he => ?_⟩
          rcases mem_cons.1 he with he | he
          · exact hfresh r hr he
          · exact hnew r hr he
    · simp [hid]

variable {document : PolicyDocument}

theorem validate_eq_ok : document.validate P = .ok () ↔
      document.schemaVersion = policySchemaVersion ∧ document.rules.length ≤ maxRules ∧
        validateLabel "default_reason" document.defaultReason 240 = .ok () ∧
        (∀ rule ∈ document.rules, validRuleId rule.id = true ∧ rule.validateBody = .ok ()) ∧
        (document.rules.map PolicyRule.id).Nodup := by
  unfold PolicyDocument.validate
  split_ifs with hversion hlen
  · simp [hversion]
  · simp [Nat.not_le.2 hlen]
  · simp only [bind_eq_ok, validateRules_eq_ok]
    constructor
    · rintro ⟨_, hlabel, hrules, hnodup, -⟩
      exact ⟨not_not.1 hversion, not_lt.1 hlen, hlabel, hrules, hnodup⟩
    · rintro ⟨-, -, hlabel, hrules, hnodup⟩
      exact ⟨(), hlabel, hrules, hnodup, by simp⟩

theorem validate_perm (hdoc : document.validate P = .ok ())
    {rules : List PolicyRule} (hperm : rules.Perm document.rules) :
    ({ document with rules } : PolicyDocument).validate P = .ok () := by
  rw [validate_eq_ok] at hdoc ⊢
  obtain ⟨hversion, hlen, hlabel, hrules, hnodup⟩ := hdoc
  refine ⟨hversion, hperm.length_eq.le.trans hlen, hlabel, ?_, ?_⟩
  · exact fun rule hrule => hrules rule (hperm.mem_iff.1 hrule)
  · exact (hperm.map _).nodup_iff.2 hnodup

theorem evaluate_eq {identity : PolicyIdentity}
    (hdoc : document.validate P = .ok ()) (hid : identity.documentHash = P.digestDocument document)
    (input : PolicyInput) : document.evaluate P identity input = match input.validate with
      | .error e => .error e
      | .ok () => .ok
        { schemaVersion := policySchemaVersion
          policy := identity
          inputHash := P.digestInput input
          decision := (decideInput document input).1
          reason := (decideInput document input).2.1
          steps := (decideInput document input).2.2 } := by
  unfold PolicyDocument.evaluate PolicyDocument.digest PolicyInput.digestWith
  simp only [hdoc, hid, bind, Except.bind, pure, Except.pure, ne_eq, not_true_eq_false, if_false]
  rcases input.validate with e | u
  · rfl
  · rfl

theorem evaluate_inputHash {identity : PolicyIdentity} {input : PolicyInput}
    {trace : PolicyDecisionTrace} (h : document.evaluate P identity input = .ok trace) :
    trace.inputHash = P.digestInput input := by
  unfold PolicyDocument.evaluate PolicyInput.digestWith at h
  obtain ⟨_, -, h⟩ := bind_eq_ok.1 h
  split_ifs at h
  obtain ⟨inputHash, hhash, h⟩ := bind_eq_ok.1 h
  obtain ⟨_, -, heq⟩ := bind_eq_ok.1 hhash
  rw [← Except.ok.inj h]
  exact (Except.ok.inj heq).symm

/-- An accepted input evaluates to what the specification says, whatever the order of the rules; any
other input is refused with its own error. -/
theorem evaluate_meets_spec (document : PolicyDocument) (identity : PolicyIdentity)
    (hdoc : document.validate P = .ok ()) (hid : identity.documentHash = P.digestDocument document)
    (input : PolicyInput) :
    (∀ e, input.validate = .error e → document.evaluate P identity input = .error e) ∧
    (input.validate = .ok () → ∃ trace, document.evaluate P identity input = .ok trace ∧
        EvaluatesTo document input trace.decision trace.reason trace.steps ∧
        ∀ rules : List PolicyRule, rules.Perm document.rules → ∀ identity' : PolicyIdentity,
            identity'.documentHash = P.digestDocument { document with rules } →
            ∃ trace', ({ document with rules } : PolicyDocument).evaluate P identity'
                input = .ok trace' ∧
              trace'.decision = trace.decision ∧ trace'.reason = trace.reason ∧
              trace'.steps = trace.steps) := by
  have hids := ((validate_eq_ok P).1 hdoc).2.2.2.2
  rw [evaluate_eq P hdoc hid]
  refine ⟨fun e he => by rw [he], fun hinput => ?_⟩
  rw [hinput]
  refine ⟨_, rfl, decideInput_spec document input hids, fun rules hperm identity' hid' => ?_⟩
  rw [evaluate_eq P (validate_perm P hdoc hperm) hid', hinput, decideInput_perm hids hperm]
  exact ⟨_, rfl, rfl, rfl, rfl⟩

end

/-! ## A document with two overlapping rules -/

def samplePrimitives : Primitives where
  debug text := "\"" ++ text ++ "\""
  digestJson _ := "sha256:0000000000000000000000000000000000000000000000000000000000000000"
  digestInput _ := "sha256:1111111111111111111111111111111111111111111111111111111111111111"
  digestDocument _ := "sha256:2222222222222222222222222222222222222222222222222222222222222222"

def effectRule (id : String) (priority : ℕ) (effect : PolicyEffect) (decision : PolicyDecision) :
    PolicyRule where
  id := id
  priority := priority
  enabled := true
  matcher := ⟨OrdSet.empty, OrdSet.empty, OrdSet.ofList [effect], OrdSet.empty, OrdSet.empty,
    OrdSet.empty, OrdSet.empty, OrdSet.empty⟩
  decision := decision
  reason := "Matched by effect"

def sampleDocument : PolicyDocument where
  schemaVersion := 1
  defaultDecision := .review
  defaultReason := "Review unmatched action"
  rules := [effectRule "later-write" 20 .write .deny, effectRule "first-write" 10 .write .auto,
    effectRule "reads" 5 .read .auto]

def sampleInput : PolicyInput where
  actionId := "server.restart"
  gadgetName := some "server.restart"
  parametersHash := none
  nameSpace := "server"
  effect := .write
  risk := .medium
  requestedScopes := OrdSet.ofList ["management"]
  actorScopes := OrdSet.ofList ["management"]
  evidence := ⟨.sufficient, OrdSet.ofList ["alert:42"]⟩
  outcome := ⟨.verifiable, some "service-ready-v1"⟩
  rollback := ⟨.available, some "server.restart-previous"⟩

def sampleIdentity : PolicyIdentity :=
  ⟨0, 1, "sha256:2222222222222222222222222222222222222222222222222222222222222222"⟩

theorem evaluate_sampleDocument :
    ∃ trace, sampleDocument.evaluate samplePrimitives sampleIdentity sampleInput = .ok trace ∧
      EvaluatesTo sampleDocument sampleInput trace.decision trace.reason trace.steps := by
  obtain ⟨trace, htrace, hspec, -⟩ := (evaluate_meets_spec samplePrimitives
    sampleDocument sampleIdentity (by decide) rfl sampleInput).2 (by decide)
  exact ⟨trace, htrace, hspec⟩

example : (decideInput sampleDocument sampleInput).1 = .auto := by decide

end Gadgetron.Policy
