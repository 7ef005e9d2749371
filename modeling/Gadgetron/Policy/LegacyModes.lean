import Gadgetron.Lib.Words
import Gadgetron.Penny.GadgetRegistry
import Gadgetron.Policy.Document

/-!
# Policies from the modes of gadgets

`from_legacy_gadget_modes` turns `[agent.gadgets]` into a policy document: a rule for reads, one for
each namespace of write gadgets that has a mode, one for all other writes.
-/

namespace Gadgetron.Policy

open Lib Penny List

inductive ExtraConfirmation
  | none
  | env
  | file
  deriving DecidableEq

structure DestructiveGadgetsConfig where
  enabled : Bool
  maxPerHour : ℕ
  extraConfirmation : ExtraConfirmation
  extraConfirmationTokenFile : String

structure AgentGadgetsConfig where
  read : GadgetMode
  approvalTimeoutSecs : ℕ
  write : WriteGadgetsConfig
  destructive : DestructiveGadgetsConfig

def AgentGadgetsConfig.gadgets (config : AgentGadgetsConfig) : GadgetsConfig :=
  ⟨config.write, config.destructive.enabled⟩

def modeName : GadgetMode → String
  | .auto => "Auto"
  | .ask => "Ask"
  | .never => "Never"

def configError {α : Type} (message : String) : Except String α :=
  .error ("Configuration error: " ++ message)

def validGadgetNamespace (nameSpace : String) : Bool :=
  !nameSpace.toList.isEmpty && decide (nameSpace.utf8ByteSize ≤ 64) &&
    nameSpace.toList.head? != some '-' && nameSpace.toList.getLast? != some '-' &&
    decide (¬ ['-', '-'] <:+: nameSpace.toList) &&
    nameSpace.toList.all fun c => c.isLower || c.isDigit || c == '-'

def stripSuffix (suffix text : String) : Option String :=
  if suffix.toList.isSuffixOf text.toList then
    some (String.ofList (text.toList.take (text.toList.length - suffix.toList.length)))
  else none

def legacyNamespace (key : String) : String :=
  ((stripSuffix "_admin" key).or (stripSuffix "_write" key)).getD key

section

variable (P : Primitives)

def validateNamespace (nameSpace field : String) : Except String Unit :=
  if validGadgetNamespace nameSpace then .ok ()
  else configError (field ++ " key " ++ P.debug nameSpace ++
    " must be lowercase kebab-case (1-64 chars)")

/-- `WriteGadgetsConfig::validate`. -/
def validateWrite (config : WriteGadgetsConfig) : Except String Unit := do
  forM config.namespaceModes.keys.toList fun nameSpace =>
    validateNamespace P nameSpace "agent.gadgets.write.namespace_modes"
  forM config.legacyNamespaceModes.keys.toList fun key =>
    validateNamespace P (legacyNamespace key) "agent.gadgets.write legacy override"

/-- `DestructiveGadgetsConfig::validate`; `stat` is what is at a path, a file with its permissions
or the error of reading them. -/
def validateDestructive (stat : String → Option (Except String ℕ))
    (config : DestructiveGadgetsConfig) : Except String Unit :=
  let file := config.extraConfirmationTokenFile
  if config.enabled && config.maxPerHour = 0 then
    configError ("agent.gadgets.destructive.max_per_hour must be > 0 when enabled=true; " ++
      "use enabled=false to disable T3 tools entirely")
  else if config.enabled && config.extraConfirmation = .file then
    if file = "" then
      configError ("agent.gadgets.destructive.extra_confirmation_token_file " ++ P.debug file ++
        " does not exist")
    else
      match stat file with
      | none => configError ("agent.gadgets.destructive.extra_confirmation_token_file " ++
          P.debug file ++ " does not exist")
      | some (.error e) => configError
          ("cannot stat agent.gadgets.destructive.extra_confirmation_token_file: " ++ e)
      | some (.ok mode) =>
        let mode := mode % 0o1000
        if mode = 0o400 || mode = 0o600 then .ok ()
        else configError ("agent.gadgets.destructive.extra_confirmation_token_file must have " ++
          "mode 0400 or 0600; got " ++ String.ofList (Nat.toDigits 8 mode))
  else .ok ()

def AgentGadgetsConfig.validate (stat : String → Option (Except String ℕ))
    (config : AgentGadgetsConfig) : Except String Unit :=
  if config.read ≠ .auto then
    configError ("agent.gadgets.read must be 'auto' — Tier 1 mode cannot be changed; got " ++
      modeName config.read)
  else if config.approvalTimeoutSecs < 10 || 600 < config.approvalTimeoutSecs then
    configError ("agent.gadgets.approval_timeout_secs must be in [10, 600]; got " ++
      ToString.toString config.approvalTimeoutSecs)
  else do
    validateWrite P config.write
    validateDestructive P stat config.destructive

/-! ## The document -/

def modeDecision : GadgetMode → PolicyDecision
  | .auto => .auto
  | .ask => .review
  | .never => .deny

def legacyReason (mode : GadgetMode) : String :=
  "Legacy " ++ modeName mode ++ " mode maps to " ++
    match mode with
    | .auto => "automatic execution"
    | .ask => "Manager review"
    | .never => "denial"

def legacyRule (id : String) (priority : ℕ) (effect : PolicyEffect) (nameSpace : Option String)
    (mode : GadgetMode) : PolicyRule where
  id := id
  priority := priority
  enabled := true
  matcher := ⟨OrdSet.empty, OrdSet.ofList nameSpace.toList, OrdSet.ofList [effect], OrdSet.empty,
    OrdSet.empty, OrdSet.empty, OrdSet.empty, OrdSet.empty⟩
  decision := modeDecision mode
  reason := legacyReason mode

def sanitizeRuleId (value : String) : String :=
  let replaced := value.toList.map fun c => if c.isLower || c.isDigit || c = '-' then c else '-'
  String.ofList (strip (· = '-') replaced)

def coreNamespaces : List String := ["wiki", "infra", "scheduler", "provider"]

def coreModes (write : WriteGadgetsConfig) : List (String × String × GadgetMode) :=
  [("legacy-write-wiki", "wiki", write.wikiWrite),
    ("legacy-write-infra", "infra", write.infraWrite),
    ("legacy-write-scheduler", "scheduler", write.schedulerWrite),
    ("legacy-write-provider", "provider", write.providerMutate)]

def readRule : PolicyRule := legacyRule "legacy-read" 10 .read none .auto

def coreRules (write : WriteGadgetsConfig) : List PolicyRule :=
  readRule :: (coreModes write).zipIdx.map fun entry =>
    legacyRule entry.1.1 (20 + entry.2) .write (some entry.1.2.1) entry.1.2.2

def legacyNamespaces (write : WriteGadgetsConfig) : OrdSet String :=
  OrdSet.ofList (write.namespaceModes.keys.toList ++
    write.legacyNamespaceModes.keys.toList.map legacyNamespace)

def pushNamespaceRule (write : WriteGadgetsConfig) (rules : List PolicyRule) (nameSpace : String) :
    List PolicyRule :=
  if nameSpace ∈ coreNamespaces then rules
  else
    match write.namespaceMode nameSpace with
    | some mode => rules ++ [legacyRule ("legacy-write-" ++ sanitizeRuleId nameSpace)
        (100 + rules.length) .write (some nameSpace) mode]
    | none => rules

def destructiveRule (enabled : Bool) : PolicyRule where
  id := "legacy-destructive"
  priority := 2000
  enabled := true
  matcher := ⟨OrdSet.empty, OrdSet.empty, OrdSet.ofList [.destructive], OrdSet.empty,
    OrdSet.empty, OrdSet.empty, OrdSet.empty, OrdSet.empty⟩
  decision := if enabled then .review else .deny
  reason := if enabled then "Legacy destructive tools require Review"
    else "Legacy destructive tools are disabled"

def defaultRule (mode : GadgetMode) : PolicyRule :=
  legacyRule "legacy-write-default" 1000 .write none mode

def legacyDocument (config : AgentGadgetsConfig) : PolicyDocument where
  schemaVersion := policySchemaVersion
  defaultDecision := .review
  defaultReason := "No policy rule matched; Manager review is required"
  rules := (legacyNamespaces config.write).toList.foldl (pushNamespaceRule config.write)
      (coreRules config.write) ++
    [defaultRule config.write.defaultMode, destructiveRule config.destructive.enabled]

def fromLegacyGadgetModes (stat : String → Option (Except String ℕ))
    (config : AgentGadgetsConfig) : Except PolicyError PolicyDocument := do
  match config.validate P stat with
  | .error e => .error (.invalid e)
  | .ok () =>
    (legacyDocument config).validate P
    return legacyDocument config

end

/-! ## Names of namespaces -/

def isIdChar (c : Char) : Bool := c.isLower || c.isDigit || c == '-'

/-- A name that may be a namespace or a part of a rule id. -/
structure KebabCase (name : List Char) : Prop where
  nonempty : name ≠ []
  head : name.head? ≠ some '-'
  last : name.getLast? ≠ some '-'
  single : ¬ ['-', '-'] <:+: name
  chars : ∀ c ∈ name, isIdChar c = true

theorem and_kebabCase {name : List Char} {p : Prop} :
    (((((name ≠ [] ∧ p) ∧ name.head? ≠ some '-') ∧ name.getLast? ≠ some '-') ∧
      ¬ ['-', '-'] <:+: name) ∧ ∀ c ∈ name, isIdChar c = true) ↔ KebabCase name ∧ p := by
  grind [KebabCase]

theorem validGadgetNamespace_iff {nameSpace : String} : validGadgetNamespace nameSpace = true ↔
      KebabCase nameSpace.toList ∧ nameSpace.utf8ByteSize ≤ 64 := by
  unfold validGadgetNamespace
  simp only [Bool.and_eq_true, Bool.not_eq_true', List.isEmpty_eq_false_iff, decide_eq_true_eq,
    bne_iff_ne, ne_eq, List.all_eq_true]
  exact and_kebabCase

theorem validRuleId_iff {id : String} :
    validRuleId id = true ↔ KebabCase id.toList ∧ id.utf8ByteSize ≤ 80 := by
  unfold validRuleId
  simp only [Bool.and_eq_true, Bool.not_eq_true', List.isEmpty_eq_false_iff, decide_eq_true_eq,
    bne_iff_ne, ne_eq, List.all_eq_true]
  exact and_kebabCase

theorem dropWhile_of_head {α : Type*} {p : α → Bool} {l : List α}
    (h : ∀ a ∈ l.head?, p a = false) : l.dropWhile p = l := by
  cases l with
  | nil => rfl
  | cons a l => exact dropWhile_cons_of_neg (by simp [h a rfl])

theorem KebabCase.sanitize {name : String} (h : KebabCase name.toList) :
    sanitizeRuleId name = name := by
  have hmap : (name.toList.map fun c => if c.isLower || c.isDigit || c = '-' then c else '-') =
      name.toList := by
    conv_rhs => rw [← List.map_id name.toList]
    refine map_congr_left fun c hc => ?_
    have hchar := h.chars c hc
    unfold isIdChar at hchar
    rw [if_pos (by simpa using hchar)]
    rfl
  have hhead : ∀ c ∈ name.toList.head?, decide (c = '-') = false := by
    intro c hc
    exact decide_eq_false fun heq => h.head (heq ▸ hc)
  have hlast : ∀ c ∈ name.toList.reverse.head?, decide (c = '-') = false := by
    intro c hc
    rw [head?_reverse] at hc
    exact decide_eq_false fun heq => h.last (heq ▸ hc)
  unfold sanitizeRuleId
  dsimp only
  rw [hmap, strip, dropWhile_of_head hhead, List.rdropWhile, dropWhile_of_head hlast,
    reverse_reverse, String.ofList_toList]

theorem KebabCase.prefixed {name : String} (h : KebabCase name.toList) :
    KebabCase ("legacy-write-" ++ name).toList := by
  have hdash : ¬ ['-'] <+: name.toList := by
    intro hprefix
    obtain ⟨rest, hrest⟩ := hprefix
    exact h.head (by rw [← hrest]; rfl)
  rw [String.toList_append]
  refine ⟨by simp, by simp, ?_, ?_, ?_⟩
  · rw [getLast?_append_of_ne_nil _ h.nonempty]
    exact h.last
  · have hsingle := h.single
    simp [infix_cons_iff, cons_prefix_cons, hdash, hsingle]
  · intro c hc
    rcases mem_append.1 hc with hc | hc
    · have hchars : ∀ c ∈ "legacy-write-".toList, isIdChar c = true :=
        forall_mem_of_all (by decide)
      exact hchars c hc
    · exact h.chars c hc

/-! ## Old keys -/

theorem stripSuffix_eq_some {suffix text rest : String} (h : stripSuffix suffix text = some rest) :
    text = rest ++ suffix := by
  unfold stripSuffix at h
  split_ifs at h with hsuffix
  rw [← Option.some.inj h, ← String.toList_inj, String.toList_append, String.toList_ofList]
  obtain ⟨front, hfront⟩ := isSuffixOf_iff_suffix.1 hsuffix
  rw [← hfront, List.length_append, Nat.add_sub_cancel, take_left]

theorem stripSuffix_append (suffix rest : String) :
    stripSuffix suffix (rest ++ suffix) = some rest := by
  unfold stripSuffix
  rw [String.toList_append, if_pos (isSuffixOf_iff_suffix.2 (suffix_append _ _)),
    List.length_append, Nat.add_sub_cancel, take_left, String.ofList_toList]

theorem legacyNamespace_cases (key : String) :
    legacyNamespace key = key ∨ key = legacyNamespace key ++ "_admin" ∨
      key = legacyNamespace key ++ "_write" := by
  unfold legacyNamespace
  cases hadmin : stripSuffix "_admin" key with
  | some rest => exact .inr (.inl (stripSuffix_eq_some hadmin))
  | none =>
    cases hwrite : stripSuffix "_write" key with
    | some rest => exact .inr (.inr (stripSuffix_eq_some hwrite))
    | none => exact .inl rfl

theorem legacyNamespace_admin (nameSpace : String) :
    legacyNamespace (nameSpace ++ "_admin") = nameSpace := by
  rw [legacyNamespace, stripSuffix_append]
  rfl

theorem legacyNamespace_write (nameSpace : String) :
    legacyNamespace (nameSpace ++ "_write") = nameSpace := by
  have hadmin : stripSuffix "_admin" (nameSpace ++ "_write") = none := by
    cases hadmin : stripSuffix "_admin" (nameSpace ++ "_write") with
    | none => rfl
    | some rest =>
      have hlast := congrArg (fun text : String => text.toList.getLast?)
        (stripSuffix_eq_some hadmin)
      simp only [String.toList_append] at hlast
      rw [getLast?_append_of_ne_nil _ (by decide), getLast?_append_of_ne_nil _ (by decide)] at hlast
      exact absurd hlast (by decide)
  rw [legacyNamespace, hadmin, stripSuffix_append]
  rfl

theorem underscore_of_stripped {key : String} (h : legacyNamespace key ≠ key) :
    '_' ∈ key.toList := by
  rcases legacyNamespace_cases key with heq | heq | heq
  · exact absurd heq h
  all_goals
    rw [heq, String.toList_append]
    exact mem_append_right _ (by decide)

section

variable {write : WriteGadgetsConfig} {nameSpace : String}

def NamesValid (write : WriteGadgetsConfig) : Prop :=
  ∀ nameSpace ∈ legacyNamespaces write, KebabCase nameSpace.toList ∧ nameSpace.utf8ByteSize ≤ 64

theorem mem_legacyNamespaces : nameSpace ∈ legacyNamespaces write ↔
    nameSpace ∈ write.namespaceModes.keys ∨
      ∃ key ∈ write.legacyNamespaceModes.keys, legacyNamespace key = nameSpace := by
  unfold legacyNamespaces
  rw [OrdSet.mem_ofList, mem_append, List.mem_map]
  rfl

theorem validateNamespace_ok {P : Primitives} {field : String}
    (h : validateNamespace P nameSpace field = .ok ()) :
    KebabCase nameSpace.toList ∧ nameSpace.utf8ByteSize ≤ 64 := by
  unfold validateNamespace at h
  split_ifs at h with hvalid
  · exact validGadgetNamespace_iff.1 hvalid
  · cases h

theorem namesValid_of_validate {P : Primitives} {stat : String → Option (Except String ℕ)}
    {config : AgentGadgetsConfig} (h : config.validate P stat = .ok ()) :
    NamesValid config.write := by
  unfold AgentGadgetsConfig.validate at h
  split_ifs at h
  · cases h
  · cases h
  obtain ⟨_, hwrite, -⟩ := bind_eq_ok.1 h
  unfold validateWrite at hwrite
  obtain ⟨_, hmodes, hkeys⟩ := bind_eq_ok.1 hwrite
  intro nameSpace hmem
  rcases mem_legacyNamespaces.1 hmem with hmem | ⟨key, hkey, rfl⟩
  · exact validateNamespace_ok (forM_eq_ok.1 hmodes nameSpace hmem)
  · exact validateNamespace_ok (forM_eq_ok.1 hkeys key hkey)

theorem namespaceMode_eq (write : WriteGadgetsConfig) (nameSpace : String) :
    write.namespaceMode nameSpace = (write.namespaceModes.get? nameSpace).or
      ((write.legacyNamespaceModes.get? nameSpace).or
        ((write.legacyNamespaceModes.get? (nameSpace ++ "_admin")).or
          (write.legacyNamespaceModes.get? (nameSpace ++ "_write")))) := by
  unfold WriteGadgetsConfig.namespaceMode
  simp only [findSome?_cons, findSome?_nil]
  cases write.legacyNamespaceModes.get? nameSpace <;>
    cases write.legacyNamespaceModes.get? (nameSpace ++ "_admin") <;>
    cases write.legacyNamespaceModes.get? (nameSpace ++ "_write") <;> rfl

theorem exists_namespaceMode (h : nameSpace ∈ legacyNamespaces write) :
    ∃ mode, write.namespaceMode nameSpace = some mode := by
  rw [← Option.isSome_iff_exists, namespaceMode_eq]
  simp only [Option.isSome_or, Bool.or_eq_true]
  rcases mem_legacyNamespaces.1 h with hmem | ⟨key, hkey, rfl⟩
  · exact .inl ((write.namespaceModes.mem_keys _).1 hmem)
  · have hsome := (write.legacyNamespaceModes.mem_keys _).1 hkey
    rcases legacyNamespace_cases key with heq | heq | heq
    · exact .inr (.inl (heq.symm ▸ hsome))
    · exact .inr (.inr (.inl (heq ▸ hsome)))
    · exact .inr (.inr (.inr (heq ▸ hsome)))

/-- A mode is set under the old name of a namespace. -/
def IsOldKey (write : WriteGadgetsConfig) (nameSpace : String) : Prop :=
  legacyNamespace nameSpace ≠ nameSpace ∧
    ∃ mode ≠ write.defaultMode, write.legacyNamespaceModes.get? nameSpace = some mode

theorem namespaceMode_of_notMem (h : nameSpace ∉ legacyNamespaces write) :
    write.namespaceMode nameSpace = write.legacyNamespaceModes.get? nameSpace ∧
      (legacyNamespace nameSpace = nameSpace →
        write.legacyNamespaceModes.get? nameSpace = none) := by
  rw [mem_legacyNamespaces, not_or, not_exists] at h
  have hnone : ∀ key, legacyNamespace key = nameSpace →
      write.legacyNamespaceModes.get? key = none := by
    intro key hkey
    by_contra hsome
    exact h.2 key ⟨(write.legacyNamespaceModes.mem_keys key).2
      (Option.isSome_iff_ne_none.2 hsome), hkey⟩
  have hmodes : write.namespaceModes.get? nameSpace = none := by
    by_contra hsome
    exact h.1 ((write.namespaceModes.mem_keys _).2 (Option.isSome_iff_ne_none.2 hsome))
  refine ⟨?_, fun heq => hnone nameSpace heq⟩
  rw [namespaceMode_eq, hmodes, hnone _ (legacyNamespace_admin nameSpace),
    hnone _ (legacyNamespace_write nameSpace), Option.none_or, Option.or_none, Option.or_none]

end

/-! ## The rules -/

section

variable {write : WriteGadgetsConfig} {config : AgentGadgetsConfig} {nameSpace : String}
  {rule : PolicyRule}

def ownRules (write : WriteGadgetsConfig) : List String :=
  (legacyNamespaces write).toList.filter fun nameSpace => nameSpace ∉ coreNamespaces

theorem mem_ownRules : nameSpace ∈ ownRules write ↔
    nameSpace ∈ legacyNamespaces write ∧ nameSpace ∉ coreNamespaces := by
  unfold ownRules
  rw [List.mem_filter, decide_eq_true_eq]
  rfl

def namespaceRule (write : WriteGadgetsConfig) (place : ℕ) (nameSpace : String) : PolicyRule :=
  legacyRule ("legacy-write-" ++ sanitizeRuleId nameSpace) (100 + place) .write (some nameSpace)
    ((write.namespaceMode nameSpace).getD write.defaultMode)

def namespaceRules (write : WriteGadgetsConfig) (place : ℕ) (names : List String) :
    List PolicyRule :=
  (names.zipIdx place).map fun entry => namespaceRule write entry.2 entry.1

variable {names : List String}

theorem foldl_pushNamespaceRule
    (h : ∀ name ∈ names, ∃ mode, write.namespaceMode name = some mode) (rules : List PolicyRule) :
    names.foldl (pushNamespaceRule write) rules = rules ++
      namespaceRules write rules.length (names.filter fun name => name ∉ coreNamespaces) := by
  induction names generalizing rules with
  | nil => exact (append_nil rules).symm
  | cons name names ih =>
    obtain ⟨⟨mode, hmode⟩, hnames⟩ := forall_mem_cons.1 h
    rw [foldl_cons, ih hnames]
    by_cases hcore : name ∈ coreNamespaces
    · rw [pushNamespaceRule, if_pos hcore, filter_cons_of_neg (by simpa using hcore)]
    · rw [filter_cons_of_pos (by simpa using hcore), pushNamespaceRule, if_neg hcore, hmode,
        List.length_append, List.append_assoc]
      simp only [namespaceRules, zipIdx_cons, map_cons, namespaceRule, hmode,
        Option.getD_some, List.length_singleton, singleton_append]

theorem legacyDocument_rules (config : AgentGadgetsConfig) :
    (legacyDocument config).rules = coreRules config.write ++
      namespaceRules config.write 5 (ownRules config.write) ++
      [defaultRule config.write.defaultMode, destructiveRule config.destructive.enabled] := by
  unfold legacyDocument ownRules
  dsimp only
  rw [foldl_pushNamespaceRule fun name hname => exists_namespaceMode hname]
  rfl

theorem mem_namespaceRules {place : ℕ} (h : rule ∈ namespaceRules write place names) :
    ∃ nameSpace ∈ names, ∃ i < names.length, rule = namespaceRule write (place + i) nameSpace := by
  unfold namespaceRules at h
  obtain ⟨⟨nameSpace, j⟩, hentry, rfl⟩ := List.mem_map.1 h
  obtain ⟨hle, hlt, hget⟩ := mem_zipIdx hentry
  refine ⟨nameSpace, ?_, j - place, by omega, ?_⟩
  · rw [hget]
    exact getElem_mem _
  · rw [show place + (j - place) = j by omega]

theorem exists_mem_namespaceRules {place : ℕ} (h : nameSpace ∈ names) :
    ∃ i < names.length, namespaceRule write (place + i) nameSpace ∈
      namespaceRules write place names := by
  obtain ⟨i, hi, rfl⟩ := getElem_of_mem h
  refine ⟨i, hi, List.mem_map.2 ⟨(names[i], place + i), ?_, rfl⟩⟩
  exact mk_add_mem_zipIdx_iff_getElem?.2 (getElem?_eq_getElem hi)

theorem map_id_namespaceRules (place : ℕ) (names : List String) :
    (namespaceRules write place names).map PolicyRule.id =
      names.map fun name => "legacy-write-" ++ sanitizeRuleId name := by
  unfold namespaceRules
  rw [List.map_map]
  conv_rhs => rw [← zipIdx_map_fst place names, List.map_map]
  rfl

/-! ## Validation -/

theorem validateLabel_reason (mode : GadgetMode) :
    validateLabel "rule reason" (legacyReason mode) 240 = .ok () := by
  cases mode <;> decide

theorem toNat_of_isIdChar {c : Char} (h : isIdChar c = true) :
    48 ≤ c.toNat ∧ c.toNat ≤ 57 ∨ 97 ≤ c.toNat ∧ c.toNat ≤ 122 ∨ c.toNat = 45 := by
  unfold isIdChar Char.isLower Char.isDigit at h
  rcases h with h
  simp only [Bool.or_eq_true, Bool.and_eq_true, decide_eq_true_eq, beq_iff_eq] at h
  rcases h with (⟨hlow, hhigh⟩ | ⟨hlow, hhigh⟩) | rfl
  · exact .inr (.inl ⟨hlow, hhigh⟩)
  · exact .inl ⟨hlow, hhigh⟩
  · exact .inr (.inr rfl)

theorem validateLabel_kebabCase {field : String} (h : KebabCase nameSpace.toList)
    (hsize : nameSpace.utf8ByteSize ≤ 64) : validateLabel field nameSpace 160 = .ok () := by
  have hchar : ∀ c ∈ nameSpace.toList, isWhitespace c = false ∧ isControl c = false := by
    intro c hc
    have hrange := toNat_of_isIdChar (h.chars c hc)
    unfold isWhitespace isControl
    simp only [Bool.or_eq_false_iff, Bool.and_eq_false_iff, decide_eq_false_iff_not,
      beq_eq_false_iff_ne]
    omega
  unfold validateLabel
  rw [trim_eq_self fun c hc => (hchar c hc).1, if_neg]
  simp only [Bool.or_eq_true, List.isEmpty_iff, decide_eq_true_eq, List.any_eq_true, not_or]
  refine ⟨⟨h.nonempty, by omega⟩, ?_⟩
  rintro ⟨c, hc, hcontrol⟩
  rw [(hchar c hc).2] at hcontrol
  cases hcontrol

theorem validateBody_legacyRule {id : String} {priority : ℕ} {effect : PolicyEffect}
    {own : Option String} {mode : GadgetMode}
    (h : ∀ name ∈ own, KebabCase name.toList ∧ name.utf8ByteSize ≤ 64) :
    (legacyRule id priority effect own mode).validateBody = .ok () := by
  have hlength : (OrdSet.ofList own.toList).length ≤ 1 := by
    cases own with
    | none => decide
    | some name => exact le_of_eq rfl
  unfold PolicyRule.validateBody
  simp only [bind_eq_ok]
  refine ⟨(), validateLabel_reason mode, (), rfl, (), ?_, (), rfl, ?_⟩
  · unfold validateSetSize
    rw [if_neg]
    change ¬maxMatchValues < (OrdSet.ofList own.toList).length
    have hmax : maxMatchValues = 128 := rfl
    omega
  · refine forM_eq_ok.2 fun value hvalue => ?_
    have hown : value ∈ own := by
      cases own with
      | none => exact absurd hvalue (by simp [legacyRule, OrdSet.ofList, OrdSet.empty])
      | some name => simpa [legacyRule, OrdSet.ofList, OrdSet.empty, eq_comm] using hvalue
    exact validateLabel_kebabCase (h value hown).1 (h value hown).2

/-- The ids after `legacy-write-`. -/
def ruleNames (write : WriteGadgetsConfig) : List String :=
  coreNamespaces ++ ownRules write ++ ["default"]

theorem map_id_coreRules (write : WriteGadgetsConfig) : (coreRules write).map PolicyRule.id =
      "legacy-read" :: coreNamespaces.map fun name => "legacy-write-" ++ name := by
  simp [coreRules, coreModes, readRule, legacyRule, coreNamespaces]

theorem map_id_legacyDocument (h : NamesValid config.write) :
    (legacyDocument config).rules.map PolicyRule.id =
      "legacy-read" :: ((ruleNames config.write).map fun name => "legacy-write-" ++ name) ++
        ["legacy-destructive"] := by
  have hsanitize :
      (ownRules config.write).map (fun name => "legacy-write-" ++ sanitizeRuleId name) =
        (ownRules config.write).map fun name => "legacy-write-" ++ name :=
    map_congr_left fun name hname => by rw [(h name (mem_ownRules.1 hname).1).1.sanitize]
  rw [legacyDocument_rules, map_append, map_append, map_id_namespaceRules, hsanitize,
    ruleNames, map_append, map_append, map_id_coreRules]
  simp [defaultRule, destructiveRule, legacyRule]

theorem nodup_ids_iff (h : NamesValid config.write) :
    ((legacyDocument config).rules.map PolicyRule.id).Nodup ↔
      "default" ∉ legacyNamespaces config.write := by
  have hown : (ownRules config.write).Nodup := (OrdSet.nodup _).filter _
  have hinjective : Function.Injective fun name : String => "legacy-write-" ++ name := by
    intro a b hab
    have hlist := congrArg String.toList hab
    dsimp only at hlist
    rw [String.toList_append, String.toList_append] at hlist
    exact String.toList_inj.1 (append_cancel_left hlist)
  have hread : ∀ name : String, "legacy-write-" ++ name ≠ "legacy-read" := by
    intro name heq
    have hlist := congrArg String.toList heq
    rw [String.toList_append] at hlist
    simp at hlist
  have hdestructive : ∀ name : String, "legacy-write-" ++ name ≠ "legacy-destructive" := by
    intro name heq
    have hlist := congrArg String.toList heq
    rw [String.toList_append] at hlist
    simp at hlist
  have hnames : (ruleNames config.write).Nodup ↔ "default" ∉ legacyNamespaces config.write := by
    have hcore : coreNamespaces.Nodup := by decide
    have hdisjoint : coreNamespaces.Disjoint (ownRules config.write) :=
      fun name hname hmem => (mem_ownRules.1 hmem).2 hname
    rw [ruleNames, nodup_append_comm]
    simp only [singleton_append, nodup_cons, mem_append, not_or, mem_ownRules,
      nodup_append'.2 ⟨hcore, hown, hdisjoint⟩, and_true]
    have hdefault : "default" ∉ coreNamespaces := by decide
    simp [hdefault]
  rw [map_id_legacyDocument h, cons_append, nodup_cons, nodup_append', ← hnames,
    nodup_map_iff hinjective]
  constructor
  · exact fun hall => hall.2.1
  · refine fun hnodup => ⟨?_, hnodup, nodup_singleton _, ?_⟩
    · rw [mem_append, not_or]
      refine ⟨fun hmem => ?_, by decide⟩
      obtain ⟨name, -, heq⟩ := List.mem_map.1 hmem
      exact hread name heq
    · intro id hid hlast
      obtain ⟨name, -, heq⟩ := List.mem_map.1 hid
      exact hdestructive name (heq.trans (mem_singleton.1 hlast))

def WellFormed (rule : PolicyRule) : Prop :=
  validRuleId rule.id = true ∧ rule.validateBody = .ok ()

theorem wellFormed_coreRules : ∀ rule ∈ coreRules write, WellFormed rule := by
  have hown : ∀ name ∈ (none : Option String),
      KebabCase name.toList ∧ name.utf8ByteSize ≤ 64 := fun name hname => by cases hname
  have hcore : ∀ name ∈ coreNamespaces, ∀ other ∈ some name,
      KebabCase other.toList ∧ other.utf8ByteSize ≤ 64 := by
    rintro name hname other ⟨⟩
    have hvalid : ∀ name ∈ coreNamespaces, validGadgetNamespace name = true :=
      forall_mem_of_all (by decide)
    exact validGadgetNamespace_iff.1 (hvalid name hname)
  intro rule hrule
  simp only [coreRules, coreModes, zipIdx_cons, zipIdx_nil, map_cons, map_nil,
    mem_cons, not_mem_nil, or_false] at hrule
  rcases hrule with rfl | rfl | rfl | rfl | rfl
  · exact ⟨by decide, validateBody_legacyRule hown⟩
  · exact ⟨show validRuleId "legacy-write-wiki" = true by decide,
      validateBody_legacyRule (hcore "wiki" (by decide))⟩
  · exact ⟨show validRuleId "legacy-write-infra" = true by decide,
      validateBody_legacyRule (hcore "infra" (by decide))⟩
  · exact ⟨show validRuleId "legacy-write-scheduler" = true by decide,
      validateBody_legacyRule (hcore "scheduler" (by decide))⟩
  · exact ⟨show validRuleId "legacy-write-provider" = true by decide,
      validateBody_legacyRule (hcore "provider" (by decide))⟩

theorem wellFormed_namespaceRule (h : KebabCase nameSpace.toList ∧ nameSpace.utf8ByteSize ≤ 64)
    (place : ℕ) : WellFormed (namespaceRule write place nameSpace) := by
  refine ⟨validRuleId_iff.2 ?_, validateBody_legacyRule ?_⟩
  · change KebabCase ("legacy-write-" ++ sanitizeRuleId nameSpace).toList ∧
      ("legacy-write-" ++ sanitizeRuleId nameSpace).utf8ByteSize ≤ 80
    rw [h.1.sanitize, String.utf8ByteSize_append]
    have hprefix : "legacy-write-".utf8ByteSize = 13 := by decide
    exact ⟨h.1.prefixed, by omega⟩
  · rintro name ⟨⟩
    exact h

theorem wellFormed_legacyDocument (h : NamesValid config.write) :
    ∀ rule ∈ (legacyDocument config).rules, WellFormed rule := by
  rw [legacyDocument_rules]
  intro rule hrule
  rcases mem_append.1 hrule with hrule | hrule
  · rcases mem_append.1 hrule with hrule | hrule
    · exact wellFormed_coreRules rule hrule
    · obtain ⟨nameSpace, hmem, i, -, rfl⟩ := mem_namespaceRules hrule
      exact wellFormed_namespaceRule (h nameSpace (mem_ownRules.1 hmem).1) _
  · simp only [mem_cons, not_mem_nil, or_false] at hrule
    rcases hrule with rfl | rfl
    · exact ⟨show validRuleId "legacy-write-default" = true by decide,
        validateBody_legacyRule fun name hname => by cases hname⟩
    · cases config.destructive.enabled <;> exact ⟨by decide, by decide⟩

theorem validate_legacyDocument_iff (P : Primitives) (h : NamesValid config.write)
    (hroom : 7 + (ownRules config.write).length ≤ maxRules) :
    (legacyDocument config).validate P = .ok () ↔ "default" ∉ legacyNamespaces config.write := by
  have hlength : (legacyDocument config).rules.length ≤ maxRules := by
    rw [legacyDocument_rules]
    simp only [List.length_append, coreRules, coreModes, namespaceRules, length_cons,
      List.length_map, length_zipIdx, length_nil]
    omega
  rw [validate_eq_ok, nodup_ids_iff h]
  constructor
  · exact fun hall => hall.2.2.2.2
  · have hreason : validateLabel "default_reason"
        "No policy rule matched; Manager review is required" 240 = .ok () := by decide
    exact fun hdefault => ⟨rfl, hlength, hreason, wellFormed_legacyDocument h, hdefault⟩

end

/-! ## The decisions -/

section

variable {config : AgentGadgetsConfig} {input : PolicyInput} {rule other : PolicyRule}

theorem satisfied_legacyRule {id : String} {priority : ℕ} {effect : PolicyEffect}
    {own : Option String} {mode : GadgetMode} :
    Satisfied (legacyRule id priority effect own mode).matcher input ↔
      (∀ name ∈ own, input.nameSpace = name) ∧ input.effect = effect := by
  constructor
  · rintro ⟨-, hname, heffect, -⟩
    refine ⟨fun name hown => ?_, ?_⟩
    · cases hown
      rcases hname with hnone | hmem
      · exact absurd (OrdSet.mem_ofList.2 (mem_singleton_self name)) (hnone name)
      · exact mem_singleton.1 (OrdSet.mem_ofList.1 hmem)
    · rcases heffect with hnone | hmem
      · exact absurd (OrdSet.mem_ofList.2 (mem_singleton_self effect)) (hnone effect)
      · exact mem_singleton.1 (OrdSet.mem_ofList.1 hmem)
  · rintro ⟨hname, heffect⟩
    have hempty : ∀ {α : Type} [LT α] (value : α), Admits (OrdSet.empty : OrdSet α) value :=
      fun value => .inl fun a ha => absurd ha not_mem_nil
    refine ⟨hempty _, ?_, .inr (OrdSet.mem_ofList.2 (mem_singleton.2 heffect)), hempty _,
      fun scope hscope => absurd hscope not_mem_nil, hempty _, hempty _, hempty _⟩
    cases own with
    | none => exact .inl fun a ha => absurd (OrdSet.mem_ofList.1 ha) not_mem_nil
    | some name => exact .inr (OrdSet.mem_ofList.2 (mem_singleton.2 (hname name rfl)))

theorem not_satisfied_destructiveRule {enabled : Bool} (h : input.effect ≠ .destructive) :
    ¬Satisfied (destructiveRule enabled).matcher input := by
  rintro ⟨-, -, heffect, -⟩
  rcases heffect with hnone | hmem
  · exact absurd (OrdSet.mem_ofList.2 (mem_singleton_self _)) (hnone .destructive)
  · exact h (mem_singleton.1 (OrdSet.mem_ofList.1 hmem))

theorem decision_of_decides {document : PolicyDocument}
    (hids : (document.rules.map PolicyRule.id).Nodup)
    (hscopes : ∀ scope ∈ input.requestedScopes, scope ∈ input.actorScopes)
    (h : Decides document input rule) : (decideInput document input).1 = rule.decision := by
  have hspec := decideInput_spec document input hids
  generalize (decideInput document input).1 = decision at hspec ⊢
  generalize (decideInput document input).2.1 = reason at hspec
  generalize (decideInput document input).2.2 = steps at hspec
  cases hspec with
  | scopeGuard missing _ hmem hsome =>
    obtain ⟨scope, hscope⟩ := exists_mem_of_ne_nil _ hsome
    exact absurd (hscopes scope ((hmem scope).1 hscope).1) ((hmem scope).1 hscope).2
  | rule _ found hfound passed _ _ =>
    have hkey : found.key = rule.key := le_antisymm
      (hfound.least rule h.mem h.enabled h.satisfied)
      (h.least found hfound.mem hfound.enabled hfound.satisfied)
    have hid : found.id = rule.id := congrArg (fun key => (ofLex key).2) hkey
    rw [inj_on_of_nodup_map hids hfound.mem h.mem hid]
  | default _ hnone passed _ _ => exact absurd h.satisfied (hnone rule h.mem h.enabled)

theorem key_le_of_priority (h : rule.priority < other.priority) : rule.key ≤ other.key :=
  le_of_lt (Prod.Lex.toLex_lt_toLex.2 (.inl h))

theorem mem_rules : rule ∈ (legacyDocument config).rules ↔ rule = readRule ∨
      (∃ entry ∈ (coreModes config.write).zipIdx,
        rule = legacyRule entry.1.1 (20 + entry.2) .write (some entry.1.2.1) entry.1.2.2) ∨
      rule ∈ namespaceRules config.write 5 (ownRules config.write) ∨
      rule = defaultRule config.write.defaultMode ∨
      rule = destructiveRule config.destructive.enabled := by
  rw [legacyDocument_rules, coreRules]
  simp only [cons_append, mem_cons, mem_append, List.mem_map, not_mem_nil,
    or_false, or_assoc, eq_comm (b := rule)]

variable {write : WriteGadgetsConfig}

theorem coreModes_id {entry : String × String × GadgetMode} (h : entry ∈ coreModes write) :
    entry.1 = "legacy-write-" ++ entry.2.1 ∧ entry.2.1 ∈ coreNamespaces := by
  have hcore : ∀ name ∈ coreNamespaces, name ∈ coreNamespaces := fun _ hname => hname
  simp only [coreNamespaces, forall_mem_cons] at hcore
  simp only [coreModes, mem_cons, not_mem_nil, or_false] at h
  rcases h with rfl | rfl | rfl | rfl
  · exact ⟨rfl, hcore.1⟩
  · exact ⟨rfl, hcore.2.1⟩
  · exact ⟨rfl, hcore.2.2.1⟩
  · exact ⟨rfl, hcore.2.2.2.1⟩

theorem decides_readRule (h : input.effect = .read) :
    Decides (legacyDocument config) input readRule := by
  have hsatisfied : Satisfied readRule.matcher input :=
    satisfied_legacyRule.2 ⟨fun name hname => absurd hname (Option.not_mem_none name), h⟩
  refine ⟨mem_rules.2 (.inl rfl), rfl, hsatisfied, ?_⟩
  intro other hother _ _
  rcases mem_rules.1 hother with rfl | ⟨entry, -, rfl⟩ | hrule | rfl | rfl
  · exact le_rfl
  · exact key_le_of_priority (show 10 < 20 + entry.2 by omega)
  · obtain ⟨nameSpace, -, i, -, rfl⟩ := mem_namespaceRules hrule
    exact key_le_of_priority (show 10 < 100 + (5 + i) by omega)
  · exact key_le_of_priority (show 10 < 1000 by omega)
  · exact key_le_of_priority (show 10 < 2000 by omega)

/-- The names and the number of the rules are those of a valid document. -/
structure Migratable (config : AgentGadgetsConfig) : Prop where
  valid : NamesValid config.write
  room : 7 + (ownRules config.write).length ≤ maxRules
  ids : ((legacyDocument config).rules.map PolicyRule.id).Nodup

section

variable (hfits : Migratable config) (hwrite : input.effect = .write)
  (hrule : rule ∈ (legacyDocument config).rules)
include hfits hwrite hrule

theorem write_cases (h : Satisfied rule.matcher input) :
    rule = defaultRule config.write.defaultMode ∨
      rule.id = "legacy-write-" ++ input.nameSpace ∧ rule.priority < 1000 ∧
        (input.nameSpace ∈ coreNamespaces ∨ input.nameSpace ∈ ownRules config.write) := by
  have hroom := hfits.room
  have hmax : maxRules = 256 := rfl
  rcases mem_rules.1 hrule with rfl | ⟨entry, hentry, rfl⟩ | hown | rfl | rfl
  · have heffect := (satisfied_legacyRule.1 h).2
    rw [hwrite] at heffect
    cases heffect
  · obtain ⟨-, hlt, -⟩ := mem_zipIdx hentry
    have hlength : (coreModes config.write).length = 4 := rfl
    obtain ⟨hid, hcore⟩ := coreModes_id (fst_mem_of_mem_zipIdx hentry)
    have hname := (satisfied_legacyRule.1 h).1 _ rfl
    rw [hname]
    exact .inr ⟨hid, (show 20 + entry.2 < 1000 by omega), .inl hcore⟩
  · obtain ⟨nameSpace, hmem, i, hi, rfl⟩ := mem_namespaceRules hown
    have hname := (satisfied_legacyRule.1 h).1 nameSpace rfl
    rw [hname]
    refine .inr ⟨?_, (show 100 + (5 + i) < 1000 by omega), .inr hmem⟩
    change "legacy-write-" ++ sanitizeRuleId nameSpace = _
    rw [(hfits.valid nameSpace (mem_ownRules.1 hmem).1).1.sanitize]
  · exact .inl rfl
  · exact absurd h (not_satisfied_destructiveRule (by rw [hwrite]; decide))

theorem decides_own (henabled : rule.enabled = true) (h : Satisfied rule.matcher input)
    (hid : rule.id = "legacy-write-" ++ input.nameSpace) (hpriority : rule.priority < 1000) :
    Decides (legacyDocument config) input rule := by
  refine ⟨hrule, henabled, h, fun other hother _ hsat => ?_⟩
  rcases write_cases hfits hwrite hother hsat with rfl | ⟨hid', -⟩
  · exact key_le_of_priority hpriority
  · rw [inj_on_of_nodup_map hfits.ids hrule hother (hid.trans hid'.symm)]

end

def coreMode (write : WriteGadgetsConfig) (nameSpace : String) : Option GadgetMode :=
  ((coreModes write).find? fun entry => entry.2.1 = nameSpace).map fun entry => entry.2.2

def documentMode (write : WriteGadgetsConfig) (nameSpace : String) : GadgetMode :=
  (coreMode write nameSpace).getD
    (if nameSpace ∈ legacyNamespaces write then
      (write.namespaceMode nameSpace).getD write.defaultMode
    else write.defaultMode)

variable {nameSpace : String}

theorem notMem_coreNamespaces
    (h : ((coreModes write).find? fun entry => entry.2.1 = nameSpace) = none) :
    nameSpace ∉ coreNamespaces := by
  have hnames : coreNamespaces = (coreModes write).map fun entry => entry.2.1 := rfl
  rw [hnames, List.mem_map]
  rintro ⟨entry, hentry, hname⟩
  exact find?_eq_none.1 h entry hentry (decide_eq_true hname)

theorem exists_decides_write (hfits : Migratable config) (hwrite : input.effect = .write) :
    ∃ rule, Decides (legacyDocument config) input rule ∧
      rule.decision = modeDecision (documentMode config.write input.nameSpace) := by
  have hroom := hfits.room
  have hmax : maxRules = 256 := rfl
  cases hfind : (coreModes config.write).find? fun entry => entry.2.1 = input.nameSpace with
  | some entry =>
    have hmem := mem_of_find?_eq_some hfind
    have hname : entry.2.1 = input.nameSpace := by simpa using find?_some hfind
    obtain ⟨i, hi, hget⟩ := getElem_of_mem hmem
    have hentry : (entry, i) ∈ (coreModes config.write).zipIdx :=
      mk_mem_zipIdx_iff_getElem?.2 ((getElem?_eq_getElem hi).trans (congrArg _ hget))
    have hlength : (coreModes config.write).length = 4 := rfl
    have hrule : legacyRule entry.1 (20 + i) .write (some entry.2.1) entry.2.2 ∈
        (legacyDocument config).rules := mem_rules.2 (.inr (.inl ⟨(entry, i), hentry, rfl⟩))
    refine ⟨_, decides_own hfits hwrite hrule rfl
      (satisfied_legacyRule.2 ⟨?_, hwrite⟩) ?_ (show 20 + i < 1000 by omega), ?_⟩
    · intro name hown
      rw [← hname]
      exact Option.some.inj hown
    · rw [← hname]
      exact (coreModes_id hmem).1
    · unfold documentMode coreMode
      rw [hfind]
      rfl
  | none =>
    have hcore : input.nameSpace ∉ coreNamespaces := notMem_coreNamespaces hfind
    have hmode : documentMode config.write input.nameSpace =
        if input.nameSpace ∈ legacyNamespaces config.write then
          (config.write.namespaceMode input.nameSpace).getD config.write.defaultMode
        else config.write.defaultMode := by
      unfold documentMode coreMode
      rw [hfind]
      rfl
    rw [hmode]
    by_cases hmem : input.nameSpace ∈ legacyNamespaces config.write
    · obtain ⟨i, hi, hown⟩ := exists_mem_namespaceRules
        (mem_ownRules.2 ⟨hmem, hcore⟩)
      rw [if_pos hmem]
      refine ⟨_, decides_own hfits hwrite (mem_rules.2 (.inr (.inr (.inl hown)))) rfl
        (satisfied_legacyRule.2 ⟨fun name hown => Option.some.inj hown, hwrite⟩) ?_
        (show 100 + (5 + i) < 1000 by omega), rfl⟩
      change "legacy-write-" ++ sanitizeRuleId input.nameSpace = _
      rw [(hfits.valid input.nameSpace hmem).1.sanitize]
    · rw [if_neg hmem]
      refine ⟨defaultRule config.write.defaultMode, ⟨mem_rules.2 (.inr (.inr (.inr (.inl rfl)))),
        rfl, satisfied_legacyRule.2 ⟨fun name hname => absurd hname (Option.not_mem_none name),
          hwrite⟩, fun other hother _ hsat => ?_⟩, rfl⟩
      rcases write_cases hfits hwrite hother hsat with rfl | ⟨-, -, hin | hin⟩
      · exact le_rfl
      · exact absurd hin hcore
      · exact absurd (mem_ownRules.1 hin).1 hmem

/-! ## Agreement with the registry -/

theorem resolveWriteMode_eq (name : String) (gadgets : GadgetsConfig) :
    resolveWriteMode name gadgets = (coreMode gadgets.write (namespaceOf name)).getD
      ((gadgets.write.namespaceMode (namespaceOf name)).getD gadgets.write.defaultMode) := by
  have hname : String.ofList (name.toList.takeWhile (· != '.')) = namespaceOf name := rfl
  unfold resolveWriteMode
  dsimp only
  rw [hname]
  generalize namespaceOf name = nameSpace
  by_cases hwiki : nameSpace = "wiki"
  · subst hwiki
    rfl
  by_cases hinfra : nameSpace = "infra"
  · subst hinfra
    rfl
  by_cases hscheduler : nameSpace = "scheduler"
  · subst hscheduler
    rfl
  by_cases hprovider : nameSpace = "provider"
  · subst hprovider
    rfl
  have hnone : coreMode gadgets.write nameSpace = none := by
    unfold coreMode coreModes
    rw [find?_eq_none.2]
    · rfl
    · simp [eq_comm, hwiki, hinfra, hscheduler, hprovider]
  rw [if_neg hwiki, if_neg hinfra, if_neg hscheduler, if_neg hprovider, hnone]
  rfl

theorem mem_coreNamespaces_of_coreMode
    {mode : GadgetMode} (h : coreMode write nameSpace = some mode) :
    nameSpace ∈ coreNamespaces := by
  unfold coreMode at h
  obtain ⟨entry, hfind, -⟩ := Option.map_eq_some_iff.1 h
  have hname : entry.2.1 = nameSpace := by simpa using find?_some hfind
  exact hname ▸ (coreModes_id (mem_of_find?_eq_some hfind)).2

theorem notMem_of_isOldKey (hvalid : NamesValid write) (h : IsOldKey write nameSpace) :
    nameSpace ∉ coreNamespaces ∧ nameSpace ∉ legacyNamespaces write := by
  have hmem := underscore_of_stripped h.1
  have hcore : ∀ name ∈ coreNamespaces, '_' ∉ name.toList := forall_mem_of_all (by decide)
  exact ⟨fun hin => hcore nameSpace hin hmem,
    fun hin => absurd ((hvalid nameSpace hin).1.chars _ hmem) (by decide)⟩

theorem documentMode_eq_iff {name : String} {gadgets : GadgetsConfig}
    (hvalid : NamesValid gadgets.write) :
    documentMode gadgets.write (namespaceOf name) = resolveWriteMode name gadgets ↔
      ¬IsOldKey gadgets.write (namespaceOf name) := by
  rw [resolveWriteMode_eq]
  generalize namespaceOf name = nameSpace
  unfold documentMode
  cases hcore : coreMode gadgets.write nameSpace with
  | some mode =>
    exact iff_of_true rfl fun hold =>
      (notMem_of_isOldKey hvalid hold).1 (mem_coreNamespaces_of_coreMode hcore)
  | none =>
    rw [Option.getD_none, Option.getD_none]
    by_cases hmem : nameSpace ∈ legacyNamespaces gadgets.write
    · rw [if_pos hmem]
      exact iff_of_true rfl fun hold => (notMem_of_isOldKey hvalid hold).2 hmem
    · obtain ⟨hmode, hnone⟩ := namespaceMode_of_notMem hmem
      rw [if_neg hmem, hmode]
      cases hget : gadgets.write.legacyNamespaceModes.get? nameSpace with
      | none =>
        refine iff_of_true rfl ?_
        rintro ⟨-, mode, -, hsome⟩
        rw [hget] at hsome
        cases hsome
      | some mode =>
        have hstripped : legacyNamespace nameSpace ≠ nameSpace := by
          intro heq
          rw [hnone heq] at hget
          cases hget
        constructor
        · rintro heq ⟨-, other, hne, hsome⟩
          rw [hget] at hsome
          exact hne ((Option.some.inj hsome).symm.trans heq.symm)
        · intro hold
          by_contra hne
          exact hold ⟨hstripped, mode, fun heq => hne heq.symm, hget⟩

def GadgetPolicyMetadata.fromSchema (schema : GadgetSchema) : GadgetPolicyMetadata :=
  match schema.tier with
  | .read => ⟨.read, .low, OrdSet.empty, false, true, none, false, none⟩
  | .write => ⟨.write, .medium, OrdSet.empty, true, false, none, false, none⟩
  | .destructive => ⟨.destructive, .critical, OrdSet.empty, true, false, none, false, none⟩

/-- A valid input for a call of the gadget by an actor that holds the requested scopes. -/
structure IsInputFor (schema : GadgetSchema) (input : PolicyInput) : Prop where
  valid : input.validate = .ok ()
  nameSpace : input.nameSpace = namespaceOf schema.name
  effect : input.effect = (GadgetPolicyMetadata.fromSchema schema).effect
  scopes : ∀ scope ∈ input.requestedScopes, scope ∈ input.actorScopes

def registryMode (config : AgentGadgetsConfig) (schema : GadgetSchema) : GadgetMode :=
  if schema.tier = .read then .auto else resolveWriteMode schema.name config.gadgets

theorem modeDecision_injective : Function.Injective modeDecision := by
  intro a b hab
  cases a <;> cases b <;> first | rfl | cases hab

variable {schema : GadgetSchema}

section

variable (hfits : Migratable config) (hinput : IsInputFor schema input)
  (htier : schema.tier ≠ .destructive)
include hfits hinput htier

theorem decision_legacyDocument :
    (decideInput (legacyDocument config) input).1 = modeDecision (if schema.tier = .read then .auto
      else documentMode config.write (namespaceOf schema.name)) := by
  have heffect := hinput.effect
  unfold GadgetPolicyMetadata.fromSchema at heffect
  cases htier' : schema.tier with
  | read =>
    rw [htier'] at heffect
    exact decision_of_decides hfits.ids hinput.scopes (decides_readRule heffect)
  | write =>
    rw [htier'] at heffect
    obtain ⟨rule, hdecides, hdecision⟩ := exists_decides_write hfits heffect
    rw [decision_of_decides hfits.ids hinput.scopes hdecides, hdecision, hinput.nameSpace, if_neg]
    decide
  | destructive => exact absurd htier' htier

theorem decision_eq_iff :
    (decideInput (legacyDocument config) input).1 = modeDecision (registryMode config schema) ↔
      ¬(schema.tier = .write ∧ IsOldKey config.write (namespaceOf schema.name)) := by
  rw [decision_legacyDocument hfits hinput htier, modeDecision_injective.eq_iff, registryMode]
  by_cases hread : schema.tier = .read
  · rw [if_pos hread, if_pos hread, hread]
    exact iff_of_true rfl (by simp)
  · have hwrite : schema.tier = .write := by
      cases htier' : schema.tier with
      | read => exact absurd htier' hread
      | write => rfl
      | destructive => exact absurd htier' htier
    rw [if_neg hread, if_neg hread]
    simp only [hwrite, true_and]
    exact documentMode_eq_iff (show NamesValid config.gadgets.write from hfits.valid)

end

theorem fromLegacyGadgetModes_eq (P : Primitives) {stat : String → Option (Except String ℕ)}
    (h : config.validate P stat = .ok ()) : fromLegacyGadgetModes P stat config =
      ((legacyDocument config).validate P).map fun _ => legacyDocument config := by
  unfold fromLegacyGadgetModes
  rw [h]
  rfl

/-- The configuration is turned into a valid document that decides on the input as the registry
resolves the mode of the gadget. -/
def MigratesAt (P : Primitives) (stat : String → Option (Except String ℕ))
    (config : AgentGadgetsConfig) (schema : GadgetSchema) (input : PolicyInput) : Prop :=
  ∃ document, fromLegacyGadgetModes P stat config = .ok document ∧ document.validate P = .ok () ∧
    ∀ identity : PolicyIdentity, identity.documentHash = P.digestDocument document →
      ∃ trace, document.evaluate P identity input = .ok trace ∧
        trace.decision = modeDecision (registryMode config schema)

/-- No namespace is called `default`, which is the id of the rule for all other writes, and the
namespace of a write gadget is not spelled as an old key. -/
theorem migratesAt_iff (P : Primitives) {stat : String → Option (Except String ℕ)}
    {schema : GadgetSchema} (hconfig : config.validate P stat = .ok ())
    (hroom : 7 + (ownRules config.write).length ≤ maxRules)
    (htier : schema.tier ≠ .destructive) (hinput : IsInputFor schema input) :
    MigratesAt P stat config schema input ↔ "default" ∉ legacyNamespaces config.write ∧
        ¬(schema.tier = .write ∧ IsOldKey config.write (namespaceOf schema.name)) := by
  have hvalid := namesValid_of_validate hconfig
  have hdocument := validate_legacyDocument_iff P hvalid hroom
  have hfrom := fromLegacyGadgetModes_eq P hconfig
  constructor
  · rintro ⟨document, hok, hpasses, hdecides⟩
    obtain ⟨_, -, rfl⟩ := map_eq_ok.1 (hfrom.symm.trans hok)
    have hids := ((validate_eq_ok P).1 hpasses).2.2.2.2
    obtain ⟨trace, htrace, hdecision⟩ :=
      hdecides ⟨0, 1, P.digestDocument (legacyDocument config)⟩ rfl
    rw [evaluate_eq P hpasses rfl, hinput.valid] at htrace
    cases htrace
    exact ⟨hdocument.1 hpasses, (decision_eq_iff ⟨hvalid, hroom, hids⟩ hinput htier).1 hdecision⟩
  · rintro ⟨hdefault, hold⟩
    have hpasses := hdocument.2 hdefault
    have hids := ((validate_eq_ok P).1 hpasses).2.2.2.2
    refine ⟨legacyDocument config, by rw [hfrom, hpasses]; rfl, hpasses, fun identity hid => ?_⟩
    rw [evaluate_eq P hpasses hid, hinput.valid]
    exact ⟨_, rfl, (decision_eq_iff ⟨hvalid, hroom, hids⟩ hinput htier).2 hold⟩

end

/-! ## A configuration -/

def sampleConfig (nameSpace : String) (mode : GadgetMode) : AgentGadgetsConfig where
  read := .auto
  approvalTimeoutSecs := 60
  write := ⟨.ask, .auto, .ask, .ask, .ask, OrdMap.empty.insert nameSpace mode, OrdMap.empty⟩
  destructive := ⟨false, 3, .none, ""⟩

theorem sampleConfig_migrates :
    MigratesAt samplePrimitives (fun _ => none) (sampleConfig "server" .never)
      ⟨"server.restart", .write⟩ sampleInput := by
  have hnone : ∀ nameSpace, (sampleConfig "server" .never).write.legacyNamespaceModes.get?
      nameSpace = none := fun _ => rfl
  refine (migratesAt_iff samplePrimitives (by decide) (by decide) (by decide)
    ⟨by decide, by decide, rfl, by decide⟩).2 ⟨by decide, ?_⟩
  rintro ⟨-, -, mode, -, hmode⟩
  rw [hnone] at hmode
  cases hmode

/-- A namespace that is called `default` passes the checks of the configuration; its rule has the id
of the rule for all other writes. -/
theorem default_not_migrated :
    (sampleConfig "default" .auto).validate samplePrimitives (fun _ => none) = .ok () ∧
      7 + (ownRules (sampleConfig "default" .auto).write).length ≤ maxRules ∧
      IsInputFor ⟨"server.restart", .write⟩ sampleInput ∧
      ¬MigratesAt samplePrimitives (fun _ => none) (sampleConfig "default" .auto)
        ⟨"server.restart", .write⟩ sampleInput := by
  refine ⟨by decide, by decide, ⟨by decide, by decide, rfl, by decide⟩, ?_⟩
  rintro ⟨document, hdocument, hvalid, -⟩
  rw [fromLegacyGadgetModes_eq samplePrimitives (by decide)] at hdocument
  obtain ⟨_, -, rfl⟩ := map_eq_ok.1 hdocument
  have hids := ((validate_eq_ok samplePrimitives).1 hvalid).2.2.2.2
  exact absurd hids (by decide)

end Gadgetron.Policy
