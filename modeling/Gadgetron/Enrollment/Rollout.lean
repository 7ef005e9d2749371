import Gadgetron.Enrollment.ProfileValue
import Gadgetron.Lib.KeyPath
import Gadgetron.Lib.OrdSet

/-!
# Assessing a rollout

The profile of an enrolled server is compared with the desired one, and the rendered paths at which
they differ decide what has to be done again.
-/

namespace Gadgetron.Enrollment

open Lib List

variable {N : Type}

namespace Value

theorem node_ne {current desired : Value N} (h : current ≠ desired)
    (hobjects : current.kind = 5 → desired.kind ≠ 5) : current.node ≠ desired.node := by
  intro hnode
  have hkind : current.kind = desired.kind := by rw [← kind_node, hnode, kind_node]
  by_cases hobject : current.kind = 5
  · exact hobjects hobject (hkind ▸ hobject)
  · rw [node_eq_self hobject, node_eq_self (hkind ▸ hobject)] at hnode
    exact h hnode

/-- The two have different things at the path, but not above it. -/
def FirstDifference (current desired : Option (Value N)) (keys : List String) : Prop :=
  nodeAt keys current ≠ nodeAt keys desired ∧
    ∀ above, above <+: keys → above ≠ keys → nodeAt above current = nodeAt above desired

variable {current desired : Option (Value N)}

theorem firstDifference_nil :
    FirstDifference current desired [] ↔ nodeAt [] current ≠ nodeAt [] desired :=
  and_iff_left fun _ habove hne => absurd (prefix_nil.1 habove) hne

variable {keys : List String}

theorem firstDifference_cons {current desired : Value N} {key : String} :
    FirstDifference (some current) (some desired) (key :: keys) ↔ current.node = desired.node ∧
        FirstDifference (current.get key) (desired.get key) keys := by
  constructor
  · rintro ⟨hne, habove⟩
    refine ⟨Option.some.inj (habove [] nil_prefix (cons_ne_nil _ _).symm), hne,
      fun above hpre hshort => ?_⟩
    exact habove (key :: above) (cons_prefix_cons.2 ⟨rfl, hpre⟩)
      fun h => hshort (cons.inj h).2
  · rintro ⟨hnode, hne, habove⟩
    refine ⟨hne, fun above hpre hshort => ?_⟩
    cases above with
    | nil => exact congrArg some hnode
    | cons key' above =>
      obtain ⟨rfl, hbelow⟩ := cons_prefix_cons.1 hpre
      exact habove above hbelow fun h => hshort (congrArg _ h)

theorem not_firstDifference_self (value : Option (Value N)) (keys : List String) :
    ¬FirstDifference value value keys := fun h => h.1 rfl

theorem firstDifference_of_none {value : Value N} :
    (FirstDifference (some value) none keys ↔ keys = []) ∧
      (FirstDifference none (some value) keys ↔ keys = []) := by
  cases keys with
  | nil => simp [firstDifference_nil]
  | cons key keys =>
    refine ⟨iff_of_false (fun h => ?_) (cons_ne_nil _ _),
      iff_of_false (fun h => ?_) (cons_ne_nil _ _)⟩
    iterate 2 · exact absurd (h.2 [] nil_prefix (cons_ne_nil _ _).symm) (by simp)

theorem exists_firstDifference (h : nodeAt keys current ≠ nodeAt keys desired) :
    ∃ above, above <+: keys ∧ FirstDifference current desired above := by
  induction hlength : keys.length using Nat.strong_induction_on generalizing keys with
  | _ length ih =>
    by_cases habove : ∀ above, above <+: keys → above ≠ keys →
        nodeAt above current = nodeAt above desired
    · exact ⟨keys, prefix_refl _, h, habove⟩
    · push Not at habove
      obtain ⟨above, hpre, hshort, hne⟩ := habove
      have hlt : above.length < length := by
        rw [← hlength]
        exact lt_of_le_of_ne hpre.length_le fun heq => hshort (hpre.eq_of_length heq)
      obtain ⟨first, hfirst, hdiffers⟩ := ih above.length hlt hne rfl
      exact ⟨first, hfirst.trans hpre, hdiffers⟩

end Value

/-! ## Keys of two objects -/

def unionKeys {α β : Type} (current : List (String × α)) (desired : List (String × β)) :
    List String :=
  (OrdSet.ofList (current.map Prod.fst ++ desired.map Prod.fst)).toList

variable {key : String}

theorem mem_unionKeys {α β : Type} {current : List (String × α)} {desired : List (String × β)} :
    key ∈ unionKeys current desired ↔
      (current.lookup key).isSome = true ∨ (desired.lookup key).isSome = true := by
  rw [unionKeys, OrdSet.mem_toList, OrdSet.mem_ofList, mem_append,
    lookup_isSome_iff, lookup_isSome_iff]
  simp only [List.mem_map, beq_iff_eq, @eq_comm _ key]

theorem mem_of_lookup {α : Type} {fields : List (String × α)} {value : α}
    (h : fields.lookup key = some value) : (key, value) ∈ fields := by
  obtain ⟨before, after, hsplit, -⟩ := List.lookup_eq_some_iff.1 h
  rw [hsplit]
  exact mem_append_right _ mem_cons_self

variable {current desired : List (String × Value N)}

theorem unionKeys_ne_nil
    (h : Value.object current ≠ .object desired) : unionKeys current desired ≠ [] := by
  have hempty : current.map Prod.fst ++ desired.map Prod.fst ≠ [] := by
    intro hnil
    obtain ⟨hcurrent, hdesired⟩ := append_eq_nil_iff.1 hnil
    exact h (by rw [map_eq_nil_iff.1 hcurrent, map_eq_nil_iff.1 hdesired])
  obtain ⟨key, hkey⟩ := exists_mem_of_ne_nil _ hempty
  exact ne_nil_of_mem (OrdSet.mem_toList.2 (OrdSet.mem_ofList.2 hkey))

def visitKey (current : List (String × (Value N → List (Option (List String)))))
    (desired : List (String × Value N)) (key : String) : List (Option (List String)) :=
  match current.lookup key, desired.lookup key with
  | some visit, some after => none :: (visit after).map (Option.map (key :: ·))
  | _, _ => [some [key]]

theorem visitKey_ne_nil (current : List (String × (Value N → List (Option (List String)))))
    (desired : List (String × Value N)) (key : String) : visitKey current desired key ≠ [] := by
  unfold visitKey
  split <;> exact cons_ne_nil _ _

variable [DecidableEq N]

/-! ## Comparing profiles -/

abbrev Comparison (N : Type) := Value N → String → List String → List String × Bool

def compareKeys (current : List (String × Comparison N)) (desired : List (String × Value N))
    (path : String) : List String → List String → List String × Bool
  | [], result => (result, false)
  | key :: keys, result =>
    if 100 ≤ result.length then (result, true)
    else
      match current.lookup key, desired.lookup key with
      | some compare, some after =>
        let visited := compare after (path ++ "." ++ key) result
        let rest := compareKeys current desired path keys visited.1
        (rest.1, visited.2 || rest.2)
      | _, _ => compareKeys current desired path keys (result ++ [path ++ "." ++ key])

def compareWhole (current : Value N) : Comparison N := fun desired path result =>
  if current = desired then (result, false)
  else if 100 ≤ result.length then (result, true)
  else (result ++ [path], false)

mutual

def collectChangedPaths : Value N → Comparison N
  | .object current, .object desired, path, result =>
    if Value.object current = .object desired then (result, false)
    else if 100 ≤ result.length then (result, true)
    else compareKeys (fieldComparisons current) desired path (unionKeys current desired) result
  | current, desired, path, result => compareWhole current desired path result

def fieldComparisons : List (String × Value N) → List (String × Comparison N)
  | [] => []
  | (key, before) :: fields => (key, collectChangedPaths before) :: fieldComparisons fields

end

structure RolloutAssessment where
  changedPaths : List String
  (changesTruncated rerunCommissioning reconfigure requiresReboot : Bool)

def startsWith (start text : String) : Bool := start.toList.isPrefixOf text.toList

/-- `Value::pointer` of `/setup/requires_reboot`, as a truth value. -/
def wantsReboot (desired : Value N) : Bool :=
  match desired.at? ["setup", "requires_reboot"] with
  | some (.bool value) => value
  | _ => false

def assessRollout (current desired : Value N)
    (currentCommissioning desiredCommissioning : List String) : RolloutAssessment :=
  let collected := collectChangedPaths current desired "$" []
  let changedPaths := (OrdSet.ofList collected.1).toList.take 100
  let rerunCommissioning :=
    !desiredCommissioning.isEmpty && currentCommissioning != desiredCommissioning
  let reconfigure := rerunCommissioning || collected.2 || changedPaths.any fun path =>
    !startsWith "$.qualification" path && !startsWith "$.commissioning" path
  { changedPaths
    changesTruncated := collected.2
    rerunCommissioning
    reconfigure
    requiresReboot := reconfigure && wantsReboot desired }

def reapplySetupFeatures : List String := ["nvidia_dcgm", "system_observation"]

def setupReapplySupported (assessment : RolloutAssessment)
    (addedFeatures removedFeatures desiredFeatures : List String) : Bool :=
  assessment.reconfigure && !assessment.rerunCommissioning && !assessment.requiresReboot &&
    !assessment.changesTruncated && (!addedFeatures.isEmpty || !removedFeatures.isEmpty) &&
    assessment.changedPaths.all (fun path => path = "$.setup.features" ||
      startsWith "$.qualification" path || startsWith "$.commissioning" path) &&
    desiredFeatures.all fun feature => reapplySetupFeatures.contains feature

/-! ## Visits -/

def collectVisits {α : Type} : List (Option α) → List α → List α × Bool
  | [], result => (result, false)
  | visit :: visits, result =>
    if 100 ≤ result.length then (result, true)
    else collectVisits visits (result ++ visit.toList)

/-- Whether a visit comes after a hundred have found something. -/
def cut {α : Type} (visits : List (Option α)) : Bool :=
  100 ≤ visits.dropLast.countP Option.isSome

section

variable {α : Type} {result : List α}

theorem collectVisits_full (visits : List (Option α)) (h : 100 ≤ result.length) :
    collectVisits visits result = (result, !visits.isEmpty) := by
  cases visits with
  | nil => rfl
  | cons visit visits => exact if_pos h

theorem collectVisits_cons (visit : Option α) (visits : List (Option α))
    (h : ¬100 ≤ result.length) :
    collectVisits (visit :: visits) result = collectVisits visits (result ++ visit.toList) :=
  if_neg h

theorem collectVisits_append (visits more : List (Option α)) (result : List α) :
    collectVisits (visits ++ more) result = ((collectVisits more (collectVisits visits result).1).1,
        (collectVisits visits result).2 ||
          (collectVisits more (collectVisits visits result).1).2) := by
  induction visits generalizing result with
  | nil => rfl
  | cons visit visits ih =>
    by_cases hfull : 100 ≤ result.length
    · rw [collectVisits_full _ hfull, collectVisits_full _ hfull, collectVisits_full _ hfull]
      rfl
    · rw [cons_append, collectVisits_cons _ _ hfull, collectVisits_cons _ _ hfull, ih]

theorem snd_collectVisits (visits : List (Option α)) (result : List α) :
    (collectVisits visits result).2 = true ↔
      visits ≠ [] ∧ 100 ≤ result.length + visits.dropLast.countP Option.isSome := by
  induction visits generalizing result with
  | nil => simp [collectVisits]
  | cons visit visits ih =>
    by_cases hfull : 100 ≤ result.length
    · rw [collectVisits_full _ hfull]
      simp only [isEmpty_cons, Bool.not_false, true_iff]
      exact ⟨cons_ne_nil _ _, by omega⟩
    · rw [collectVisits_cons _ _ hfull, ih, List.length_append]
      cases visits with
      | nil => simp [hfull]
      | cons next visits =>
        rw [dropLast_cons_cons, countP_cons]
        cases visit with
        | none => simp
        | some found =>
          simp only [Option.length_toList, Option.isSome_some, if_true, ne_eq,
            reduceCtorEq, not_false_iff, true_and]
          omega

theorem cut_iff (visits : List (Option α)) :
    cut visits = true ↔ (collectVisits visits []).2 = true := by
  rw [snd_collectVisits, cut, decide_eq_true_eq, length_nil, Nat.zero_add]
  refine ⟨fun h => ⟨?_, h⟩, And.right⟩
  rintro rfl
  simp at h

theorem fst_collectVisits {visits : List (Option α)} (h : (collectVisits visits result).2 = false) :
    (collectVisits visits result).1 = result ++ visits.filterMap id := by
  induction visits generalizing result with
  | nil => exact (append_nil _).symm
  | cons visit visits ih =>
    by_cases hfull : 100 ≤ result.length
    · rw [collectVisits_full _ hfull] at h
      cases h
    · rw [collectVisits_cons _ _ hfull] at h ⊢
      rw [ih h, List.append_assoc]
      cases visit <;> rfl

end

mutual

def visits : Value N → Value N → List (Option (List String))
  | .object current, .object desired =>
    if Value.object current = .object desired then []
    else (unionKeys current desired).flatMap (visitKey (fieldVisits current) desired)
  | current, desired => if current = desired then [] else [some []]

def fieldVisits : List (String × Value N) → List (String × (Value N → List (Option (List String))))
  | [] => []
  | (key, before) :: fields => (key, visits before) :: fieldVisits fields

end

theorem lookup_fieldVisits (fields : List (String × Value N)) (key : String) :
    (fieldVisits fields).lookup key = (fields.lookup key).map visits := by
  have hmap : fieldVisits fields = fields.map fun field => (field.1, visits field.2) := by
    induction fields with
    | nil => rfl
    | cons field fields ih => rw [fieldVisits, ih, map_cons]
  rw [hmap, lookup_mapValues]

theorem lookup_fieldComparisons (fields : List (String × Value N)) (key : String) :
    (fieldComparisons fields).lookup key = (fields.lookup key).map collectChangedPaths := by
  have hmap : fieldComparisons fields =
      fields.map fun field => (field.1, collectChangedPaths field.2) := by
    induction fields with
    | nil => rfl
    | cons field fields ih => rw [fieldComparisons, ih, map_cons]
  rw [hmap, lookup_mapValues]

abbrev rendered (path : String) (visits : List (Option (List String))) : List (Option String) :=
  visits.map (Option.map (renderKeys path))

theorem rendered_under (path key : String) (visits : List (Option (List String))) :
    rendered path (visits.map (Option.map (key :: ·))) = rendered (path ++ "." ++ key) visits := by
  rw [rendered, List.map_map, rendered]
  refine map_congr_left fun visit _ => ?_
  cases visit <;> rfl

theorem compareKeys_eq (ih : ∀ field ∈ current, ∀ after path result,
      collectChangedPaths field.2 after path result =
        collectVisits (rendered path (visits field.2 after)) result)
    (path : String) (keys : List String) (result : List String) :
    compareKeys (fieldComparisons current) desired path keys result =
      collectVisits (rendered path (keys.flatMap (visitKey (fieldVisits current) desired)))
        result := by
  induction keys generalizing result with
  | nil => rfl
  | cons key keys ihkeys =>
    rw [compareKeys, flatMap_cons, rendered, map_append]
    by_cases hfull : 100 ≤ result.length
    · rw [if_pos hfull, collectVisits_full _ hfull]
      unfold visitKey
      split <;> rfl
    · rw [if_neg hfull, collectVisits_append, visitKey, lookup_fieldVisits,
        lookup_fieldComparisons]
      cases hbefore : current.lookup key with
      | none =>
        simp only [Option.map_none, map_cons, map_nil, Option.map_some]
        rw [collectVisits_cons _ _ hfull, ihkeys]
        rfl
      | some before =>
        cases hafter : desired.lookup key with
        | none =>
          simp only [Option.map_some, map_cons, map_nil]
          rw [collectVisits_cons _ _ hfull, ihkeys]
          rfl
        | some after =>
          have hfield := ih _ (mem_of_lookup hbefore) after (path ++ "." ++ key) result
          simp only [Option.map_some, map_cons, Option.map_none]
          rw [collectVisits_cons _ _ hfull, Option.toList_none, append_nil, ihkeys,
            hfield, ← rendered_under]

theorem visits_object_ne_nil (h : Value.object current ≠ .object desired) :
    (unionKeys current desired).flatMap (visitKey (fieldVisits current) desired) ≠ [] := by
  obtain ⟨key, hkey⟩ := exists_mem_of_ne_nil _ (unionKeys_ne_nil h)
  obtain ⟨visit, hvisit⟩ := exists_mem_of_ne_nil _
    (visitKey_ne_nil (fieldVisits current) desired key)
  exact ne_nil_of_mem (mem_flatMap.2 ⟨key, hkey, hvisit⟩)

theorem compareWhole_eq (current desired : Value N) (path : String) (result : List String) :
    compareWhole current desired path result =
      collectVisits (rendered path (if current = desired then [] else [some []])) result := by
  rw [compareWhole]
  split_ifs with heq hfull
  · rfl
  · rw [collectVisits_full _ hfull]
    rfl
  · rw [rendered, map_cons, collectVisits_cons _ _ hfull]
    rfl

theorem collectChangedPaths_eq (current desired : Value N) (path : String)
    (result : List String) : collectChangedPaths current desired path result =
      collectVisits (rendered path (visits current desired)) result := by
  induction current generalizing desired path result with
  | object current ih =>
    cases desired with
    | object desired =>
      rw [collectChangedPaths, visits]
      by_cases heq : Value.object current = .object desired
      · rw [if_pos heq, if_pos heq]
        rfl
      · rw [if_neg heq, if_neg heq]
        by_cases hfull : 100 ≤ result.length
        · have hvisits : (rendered path ((unionKeys current desired).flatMap
              (visitKey (fieldVisits current) desired))).isEmpty = false := by
            rw [List.isEmpty_eq_false_iff]
            exact fun h => visits_object_ne_nil heq (map_eq_nil_iff.1 h)
          rw [if_pos hfull, collectVisits_full _ hfull, hvisits]
          rfl
        · rw [if_neg hfull]
          exact compareKeys_eq ih path _ result
    | _ => exact compareWhole_eq _ _ path result
  | _ => exact compareWhole_eq _ _ path result

/-! ## What the visits find -/

open Value

theorem firstDifference_leaf {current desired : Value N}
    (hobjects : current.kind = 5 → desired.kind ≠ 5) (keys : List String) :
    FirstDifference (some current) (some desired) keys ↔
      some keys ∈ if current = desired then [] else [some []] := by
  by_cases heq : current = desired
  · rw [if_pos heq, heq]
    exact iff_of_false (not_firstDifference_self _ _) not_mem_nil
  · rw [if_neg heq, mem_singleton, Option.some.injEq]
    have hnode := node_ne heq hobjects
    cases keys with
    | nil => exact iff_of_true (firstDifference_nil.2 fun h => hnode (Option.some.inj h)) rfl
    | cons key keys =>
      exact iff_of_false (fun h => hnode (firstDifference_cons.1 h).1) (cons_ne_nil _ _)

theorem mem_visitKey (ih : ∀ field ∈ current, ∀ after keys, some keys ∈ visits field.2 after ↔
      FirstDifference (some field.2) (some after) keys)
    (hkey : key ∈ unionKeys current desired) (keys : List String) :
    some keys ∈ visitKey (fieldVisits current) desired key ↔ ∃ rest, keys = key :: rest ∧
        FirstDifference (current.lookup key) (desired.lookup key) rest := by
  rw [visitKey, lookup_fieldVisits]
  have hsome := mem_unionKeys.1 hkey
  cases hbefore : current.lookup key with
  | none =>
    cases hafter : desired.lookup key with
    | none => simp [hbefore, hafter] at hsome
    | some after => simp [firstDifference_of_none]
  | some before =>
    cases hafter : desired.lookup key with
    | none => simp [firstDifference_of_none]
    | some after =>
      have hfield := ih _ (mem_of_lookup hbefore) after
      simp only [Option.map_some, mem_cons, reduceCtorEq, false_or, List.mem_map,
        Option.map_eq_some_iff]
      constructor
      · rintro ⟨visit, hvisit, rest, rfl, rfl⟩
        exact ⟨rest, rfl, (hfield rest).1 hvisit⟩
      · rintro ⟨rest, rfl, hrest⟩
        exact ⟨some rest, (hfield rest).2 hrest, rest, rfl, rfl⟩

theorem visits_leaf {current desired : Value N} (h : current.kind = 5 → desired.kind ≠ 5) :
    visits current desired = if current = desired then [] else [some []] := by
  cases current with
  | object current =>
    cases desired with
    | object desired => exact absurd rfl (h rfl)
    | _ => rfl
  | _ => rfl

theorem mem_visits (current desired : Value N) (keys : List String) :
    some keys ∈ visits current desired ↔ FirstDifference (some current) (some desired) keys := by
  induction current generalizing desired keys with
  | object current ih =>
    cases desired with
    | object desired =>
      rw [visits]
      by_cases heq : Value.object current = .object desired
      · rw [if_pos heq, heq]
        exact iff_of_false not_mem_nil (not_firstDifference_self _ _)
      · rw [if_neg heq, mem_flatMap]
        constructor
        · rintro ⟨key, hkey, hvisit⟩
          obtain ⟨rest, rfl, hrest⟩ := (mem_visitKey (fun field hfield after keys =>
            ih field hfield after keys) hkey keys).1 hvisit
          exact firstDifference_cons.2 ⟨rfl, hrest⟩
        · intro h
          cases keys with
          | nil => exact absurd h.1 (not_not.2 rfl)
          | cons key keys =>
            obtain ⟨-, hrest⟩ := firstDifference_cons.1 h
            have hkey : key ∈ unionKeys current desired := by
              by_contra hnot
              have hnone : current.lookup key = none ∧ desired.lookup key = none := by
                rwa [mem_unionKeys, not_or, Option.not_isSome_iff_eq_none,
                  Option.not_isSome_iff_eq_none] at hnot
              have hboth : Value.get key (.object current) = none ∧
                  Value.get key (.object desired) = none := hnone
              rw [hboth.1, hboth.2] at hrest
              exact not_firstDifference_self _ _ hrest
            exact ⟨key, hkey, (mem_visitKey (fun field hfield after keys =>
              ih field hfield after keys) hkey _).2 ⟨keys, rfl, hrest⟩⟩
    | _ => rw [visits_leaf (by simp [kind]), ← firstDifference_leaf (by simp [kind])]
  | _ => rw [visits_leaf (by simp [kind]), ← firstDifference_leaf (by simp [kind])]

/-! ## Collected paths -/

theorem length_collectVisits {α : Type} (visits : List (Option α)) {result : List α}
    (h : result.length ≤ 100) : (collectVisits visits result).1.length ≤ 100 := by
  induction visits generalizing result with
  | nil => exact h
  | cons visit visits ih =>
    by_cases hfull : 100 ≤ result.length
    · rw [collectVisits_full _ hfull]
      exact h
    · rw [collectVisits_cons _ _ hfull]
      refine ih ?_
      rw [List.length_append]
      cases visit with
      | none => simpa using h
      | some found =>
        rw [Option.toList_some, List.length_singleton]
        omega

theorem mem_take_ofList {paths : List String} (h : paths.length ≤ 100) (path : String) :
    path ∈ (OrdSet.ofList paths).toList.take 100 ↔ path ∈ paths := by
  have hlength : (OrdSet.ofList paths).toList.length ≤ 100 :=
    (subperm_of_subset (OrdSet.nodup _) fun _ h => OrdSet.mem_ofList.1 h).length_le.trans h
  rw [take_of_length_le hlength, OrdSet.mem_toList, OrdSet.mem_ofList]

section

variable (current desired : Value N) (currentCommissioning desiredCommissioning : List String)

theorem changesTruncated_eq :
    (assessRollout current desired currentCommissioning desiredCommissioning).changesTruncated =
      cut (visits current desired) := by
  have hcut : (collectChangedPaths current desired "$" []).2 =
      cut (rendered "$" (visits current desired)) := by
    rw [collectChangedPaths_eq, Bool.eq_iff_iff, cut_iff]
  have hrendered : cut (rendered "$" (visits current desired)) = cut (visits current desired) := by
    rw [cut, cut, rendered, ← map_dropLast, countP_map]
    congr 3
    funext visit
    exact Option.isSome_map
  exact hcut.trans hrendered

theorem mem_changedPaths (h : cut (visits current desired) = false) (path : String) :
    path ∈ (assessRollout current desired currentCommissioning desiredCommissioning).changedPaths ↔
      ∃ keys, FirstDifference (some current) (some desired) keys ∧ path = renderKeys "$" keys := by
  have hlength : (collectChangedPaths current desired "$" []).1.length ≤ 100 := by
    rw [collectChangedPaths_eq]
    exact length_collectVisits _ (by simp)
  have hcut : (collectVisits (rendered "$" (visits current desired)) []).2 = false := by
    rw [← collectChangedPaths_eq]
    exact (changesTruncated_eq current desired currentCommissioning desiredCommissioning).trans h
  refine (mem_take_ofList hlength path).trans ?_
  rw [collectChangedPaths_eq, fst_collectVisits hcut, nil_append, rendered, mem_filterMap]
  simp only [List.mem_map, id_eq]
  constructor
  · rintro ⟨-, ⟨visit, hvisit, rfl⟩, hpath⟩
    obtain ⟨keys, rfl, rfl⟩ := Option.map_eq_some_iff.1 hpath
    exact ⟨keys, (mem_visits current desired keys).1 hvisit, rfl⟩
  · rintro ⟨keys, hkeys, rfl⟩
    exact ⟨_, ⟨some keys, (mem_visits current desired keys).2 hkeys, rfl⟩, rfl⟩

end

/-! ## Reading paths -/

def BeginsSection (key : String) : Prop :=
  startsWith "qualification" key = true ∨ startsWith "commissioning" key = true

def IsSection (key : String) : Prop := key = "qualification" ∨ key = "commissioning"

instance (key : String) : Decidable (BeginsSection key) := inferInstanceAs (Decidable (_ ∨ _))

instance (key : String) : Decidable (IsSection key) := inferInstanceAs (Decidable (_ ∨ _))

theorem startsWith_renderKeys {name : String} (hname : '.' ∉ name.toList) (keys : List String) :
    startsWith ("$." ++ name) (renderKeys "$" keys) = true ↔
      ∃ key ∈ keys.head?, startsWith name key = true := by
  have hroot : ("$." ++ name).toList = '$' :: '.' :: name.toList := by
    rw [String.toList_append]
    rfl
  have hpath : (renderKeys "$" keys).toList = '$' :: dotted keys := by
    rw [toList_renderKeys]
    rfl
  simp only [startsWith, isPrefixOf_iff_prefix]
  rw [hroot, hpath, cons_prefix_cons, and_iff_right rfl, prefix_dotted_iff hname]

theorem readAsSection_iff (keys : List String) :
    (startsWith "$.qualification" (renderKeys "$" keys) ||
      startsWith "$.commissioning" (renderKeys "$" keys)) = true ↔
        ∃ key ∈ keys.head?, BeginsSection key := by
  have hqualification : "$.qualification" = "$." ++ "qualification" := by decide
  have hcommissioning : "$.commissioning" = "$." ++ "commissioning" := by decide
  rw [Bool.or_eq_true, hqualification, hcommissioning, startsWith_renderKeys (by decide),
    startsWith_renderKeys (by decide)]
  constructor
  · rintro (⟨key, hkey, h⟩ | ⟨key, hkey, h⟩)
    · exact ⟨key, hkey, .inl h⟩
    · exact ⟨key, hkey, .inr h⟩
  · rintro ⟨key, hkey, h | h⟩
    · exact .inl ⟨key, hkey, h⟩
    · exact .inr ⟨key, hkey, h⟩

theorem renderKeys_eq_features_iff (keys : List String) : renderKeys "$" keys = "$.setup.features" ↔
      keys = ["setup", "features"] ∨ keys = ["setup.features"] := by
  have hpath : "$.setup.features" = renderKeys "$" ["setup", "features"] := by decide
  have hkey : "setup.features" = "setup" ++ "." ++ "features" := by decide
  rw [hpath, hkey, renderKeys_inj_right, dotted_eq_pair_iff (by decide) (by decide)]

/-! ## Root keys -/

/-- The same stands everywhere but under some paths. -/
def EqualOutside (excluded : List (List String)) (current desired : Value N) : Prop :=
  ∀ keys, (∀ part ∈ excluded, ¬part <+: keys) →
    nodeAt keys (some current) = nodeAt keys (some desired)

theorem equalOutside_iff {excluded : List (List String)} {current desired : Value N} :
    EqualOutside excluded current desired ↔
      ∀ keys, FirstDifference (some current) (some desired) keys →
        ∃ part ∈ excluded, part <+: keys := by
  constructor
  · intro h keys hdiffers
    by_contra houtside
    exact hdiffers.1 (h keys fun part hpart hpre => houtside ⟨part, hpart, hpre⟩)
  · intro h keys houtside
    by_contra hne
    obtain ⟨above, hpre, hdiffers⟩ := exists_firstDifference hne
    obtain ⟨part, hpart, habove⟩ := h above hdiffers
    exact houtside part hpart (habove.trans hpre)

def DiffersAt (current desired : Value N) (key : String) : Prop :=
  current.get key ≠ desired.get key

section

variable (current desired : Spec N) (currentCommissioning desiredCommissioning : List String)

theorem differsAt_iff (key : String) : DiffersAt current.1 desired.1 key ↔
      ∃ rest, FirstDifference (some current.1) (some desired.1) (key :: rest) := by
  obtain ⟨fields, hfields⟩ := exists_object current.2.2
  obtain ⟨fields', hfields'⟩ := exists_object desired.2.2
  have hnode : current.1.node = desired.1.node := by rw [hfields, hfields']; rfl
  simp only [firstDifference_cons, hnode, true_and]
  constructor
  · intro hne
    by_contra hnone
    refine hne ?_
    have hsame : ∀ keys, nodeAt keys (current.1.get key) = nodeAt keys (desired.1.get key) := by
      intro keys
      by_contra hkeys
      obtain ⟨above, -, hdiffers⟩ := exists_firstDifference hkeys
      exact hnone ⟨above, hdiffers⟩
    cases hbefore : current.1.get key with
    | none =>
      cases hafter : desired.1.get key with
      | none => rfl
      | some after => exact absurd (hsame []) (by simp [hbefore, hafter])
    | some before =>
      cases hafter : desired.1.get key with
      | none => exact absurd (hsame []) (by simp [hbefore, hafter])
      | some after =>
        rw [hbefore, hafter] at hsame
        exact congrArg some ((current.2.1.get key hbefore).ext (desired.2.1.get key hafter) hsame)
  · rintro ⟨rest, hdiffers⟩ heq
    rw [heq] at hdiffers
    exact not_firstDifference_self _ _ hdiffers

theorem firstDifference_root {keys : List String}
    (h : FirstDifference (some current.1) (some desired.1) keys) :
    ∃ key rest, keys = key :: rest ∧ DiffersAt current.1 desired.1 key := by
  cases keys with
  | nil =>
    obtain ⟨fields, hfields⟩ := exists_object current.2.2
    obtain ⟨fields', hfields'⟩ := exists_object desired.2.2
    exact absurd (by rw [hfields, hfields']; rfl) h.1
  | cons key rest => exact ⟨key, rest, rfl, (differsAt_iff current desired key).2 ⟨rest, h⟩⟩

/-- Commissioning has changed and is not empty. -/
def Rerun (currentCommissioning desiredCommissioning : List String) : Prop :=
  desiredCommissioning ≠ [] ∧ currentCommissioning ≠ desiredCommissioning

theorem rerunCommissioning_iff : (assessRollout current.1 desired.1 currentCommissioning
        desiredCommissioning).rerunCommissioning = true ↔
      Rerun currentCommissioning desiredCommissioning := by
  simp [assessRollout, Rerun]

theorem reconfigure_iff :
    (assessRollout current.1 desired.1 currentCommissioning desiredCommissioning).reconfigure =
        true ↔
      Rerun currentCommissioning desiredCommissioning ∨ cut (visits current.1 desired.1) = true ∨
        ∃ key, DiffersAt current.1 desired.1 key ∧ ¬BeginsSection key := by
  let assessment := assessRollout current.1 desired.1 currentCommissioning desiredCommissioning
  have hread : assessment.reconfigure = true ↔ (assessment.rerunCommissioning = true ∨
      assessment.changesTruncated = true) ∨ ∃ path ∈ assessment.changedPaths,
        (startsWith "$.qualification" path || startsWith "$.commissioning" path) = false := by
    show (_ || _ || List.any _ _) = true ↔ _
    simp only [Bool.or_eq_true, List.any_eq_true, ← Bool.not_or, Bool.not_eq_true']
    rfl
  rw [hread, rerunCommissioning_iff, changesTruncated_eq, or_assoc]
  refine or_congr_right ?_
  by_cases hcut : cut (visits current.1 desired.1) = true
  · simp [hcut]
  · rw [or_iff_right hcut, or_iff_right hcut]
    have hpaths := mem_changedPaths current.1 desired.1 currentCommissioning desiredCommissioning
      (Bool.eq_false_iff.2 hcut)
    constructor
    · rintro ⟨path, hpath, hoff⟩
      obtain ⟨keys, hdiffers, rfl⟩ := (hpaths path).1 hpath
      obtain ⟨key, rest, rfl, hkey⟩ := firstDifference_root current desired hdiffers
      rw [← Bool.not_eq_true, readAsSection_iff] at hoff
      exact ⟨key, hkey, fun h => hoff ⟨key, rfl, h⟩⟩
    · rintro ⟨key, hkey, hbegins⟩
      obtain ⟨rest, hdiffers⟩ := (differsAt_iff current desired key).1 hkey
      refine ⟨_, (hpaths _).2 ⟨_, hdiffers, rfl⟩, ?_⟩
      rw [← Bool.not_eq_true, readAsSection_iff]
      rintro ⟨key', hkey', h⟩
      exact hbegins (Option.some.inj hkey' ▸ h)

def ReadAsFeatures (keys : List String) : Prop :=
  keys = ["setup", "features"] ∨ keys = ["setup.features"]

/-- Where the two first differ besides the sections, they differ at what is taken for features. -/
def OnlyFeatures (current desired : Spec N) : Prop :=
  ∀ keys, FirstDifference (some current.1) (some desired.1) keys →
    (∃ key ∈ keys.head?, BeginsSection key) ∨ ReadAsFeatures keys

/-- Reapplying is refused on other grounds than the paths at which the two differ. -/
def ReapplyRefused (current desired : Spec N) (currentCommissioning desiredCommissioning
    addedFeatures removedFeatures desiredFeatures : List String) : Prop :=
  Rerun currentCommissioning desiredCommissioning ∨ cut (visits current.1 desired.1) = true ∨
    wantsReboot desired.1 = true ∨ (addedFeatures = [] ∧ removedFeatures = []) ∨
      ∃ feature ∈ desiredFeatures, feature ∉ reapplySetupFeatures

variable (addedFeatures removedFeatures desiredFeatures : List String)

theorem onlyFeatures_iff (h : cut (visits current.1 desired.1) = false) :
    ((assessRollout current.1 desired.1 currentCommissioning
        desiredCommissioning).changedPaths.all fun path => path = "$.setup.features" ||
      startsWith "$.qualification" path || startsWith "$.commissioning" path) = true ↔
        OnlyFeatures current desired := by
  have hpaths := mem_changedPaths current.1 desired.1 currentCommissioning desiredCommissioning h
  have hread : ∀ keys, (renderKeys "$" keys = "$.setup.features" ||
      startsWith "$.qualification" (renderKeys "$" keys) ||
        startsWith "$.commissioning" (renderKeys "$" keys)) = true ↔
      (∃ key ∈ keys.head?, BeginsSection key) ∨ ReadAsFeatures keys := fun keys => by
    rw [Bool.or_assoc, Bool.or_eq_true, readAsSection_iff, decide_eq_true_eq,
      renderKeys_eq_features_iff]
    exact or_comm
  rw [List.all_eq_true]
  constructor
  · exact fun hall keys hdiffers => (hread keys).1 (hall _ ((hpaths _).2 ⟨keys, hdiffers, rfl⟩))
  · intro hall path hpath
    obtain ⟨keys, hdiffers, rfl⟩ := (hpaths path).1 hpath
    exact (hread keys).2 (hall keys hdiffers)

theorem setupReapplySupported_iff : setupReapplySupported
        (assessRollout current.1 desired.1 currentCommissioning desiredCommissioning)
        addedFeatures removedFeatures desiredFeatures = true ↔
      ¬ReapplyRefused current desired currentCommissioning desiredCommissioning addedFeatures
          removedFeatures desiredFeatures ∧
        (∃ key, DiffersAt current.1 desired.1 key ∧ ¬BeginsSection key) ∧
          OnlyFeatures current desired := by
  have hreconfigure := reconfigure_iff current desired currentCommissioning desiredCommissioning
  have hrerun := rerunCommissioning_iff current desired currentCommissioning desiredCommissioning
  have htruncated :=
    changesTruncated_eq current.1 desired.1 currentCommissioning desiredCommissioning
  have hreboot : (assessRollout current.1 desired.1 currentCommissioning
      desiredCommissioning).requiresReboot = ((assessRollout current.1 desired.1
        currentCommissioning desiredCommissioning).reconfigure && wantsReboot desired.1) := rfl
  have hlists : (!addedFeatures.isEmpty || !removedFeatures.isEmpty) = true ↔
      ¬(addedFeatures = [] ∧ removedFeatures = []) := by
    rw [not_and_or, Bool.or_eq_true]
    simp
  have hsupported : (desiredFeatures.all fun feature =>
      reapplySetupFeatures.contains feature) = true ↔
        ¬∃ feature ∈ desiredFeatures, feature ∉ reapplySetupFeatures := by
    simp
  simp only [setupReapplySupported, Bool.and_eq_true, hlists, hsupported, hreboot, htruncated,
    hreconfigure, Bool.not_eq_true', ← Bool.not_eq_true, hrerun, ReapplyRefused]
  by_cases hcut : cut (visits current.1 desired.1) = true
  · simp [hcut]
  · rw [onlyFeatures_iff current desired currentCommissioning desiredCommissioning
      (Bool.eq_false_iff.2 hcut)]
    constructor
    · rintro ⟨⟨⟨⟨⟨⟨hground, hrerun⟩, hboot⟩, -⟩, hchanged⟩, hpaths⟩, hfeatures⟩
      have hother := (hground.resolve_left hrerun).resolve_left hcut
      refine ⟨?_, hother, hpaths⟩
      rintro (h | h | h | h | h)
      · exact hrerun h
      · exact hcut h
      · exact hboot ⟨hground, h⟩
      · exact hchanged h
      · exact hfeatures h
    · rintro ⟨hrefused, hother, hpaths⟩
      simp only [not_or] at hrefused
      obtain ⟨hrerun, -, hboot, hchanged, hfeatures⟩ := hrefused
      exact ⟨⟨⟨⟨⟨⟨.inr (.inr hother), hrerun⟩, fun h => hboot h.2⟩, hcut⟩, hchanged⟩, hpaths⟩,
        hfeatures⟩

/-! ## Soundness -/

def sections : List (List String) := [["qualification"], ["commissioning"]]

/-- What counts as unchanged is so, and the paths are the first differences. -/
structure AssessmentSound : Prop where
  unchanged : (assessRollout current.1 desired.1 currentCommissioning
      desiredCommissioning).reconfigure = false → EqualOutside sections current.1 desired.1
  reapplied : setupReapplySupported (assessRollout current.1 desired.1 currentCommissioning
      desiredCommissioning) addedFeatures removedFeatures desiredFeatures = true →
    EqualOutside (["setup", "features"] :: sections) current.1 desired.1
  paths : (assessRollout current.1 desired.1 currentCommissioning
      desiredCommissioning).changesTruncated = false → ∀ path,
    path ∈ (assessRollout current.1 desired.1 currentCommissioning
        desiredCommissioning).changedPaths ↔
      ∃ keys, FirstDifference (some current.1) (some desired.1) keys ∧ path = renderKeys "$" keys

/-- No root key at which the two differ is taken for a section or for the features, unless the
assessment has other grounds. -/
structure WellNamed : Prop where
  section_names : (∃ key, DiffersAt current.1 desired.1 key ∧ BeginsSection key ∧ ¬IsSection key) →
    Rerun currentCommissioning desiredCommissioning ∨ cut (visits current.1 desired.1) = true ∨
      ∃ key, DiffersAt current.1 desired.1 key ∧ ¬BeginsSection key
  feature_names : (∃ key, DiffersAt current.1 desired.1 key ∧
      (BeginsSection key ∧ ¬IsSection key ∨ key = "setup.features")) →
    ReapplyRefused current desired currentCommissioning desiredCommissioning addedFeatures
        removedFeatures desiredFeatures ∨
      (∀ key, DiffersAt current.1 desired.1 key → BeginsSection key) ∨ ¬OnlyFeatures current desired

theorem prefix_sections_iff {key : String} {rest : List String} :
    (∃ part ∈ sections, part <+: key :: rest) ↔ IsSection key := by
  simp [sections, IsSection, cons_prefix_cons, eq_comm]

theorem equalOutside_sections_iff : EqualOutside sections current.1 desired.1 ↔
      ∀ key, DiffersAt current.1 desired.1 key → IsSection key := by
  rw [equalOutside_iff]
  constructor
  · intro h key hkey
    obtain ⟨rest, hdiffers⟩ := (differsAt_iff current desired key).1 hkey
    exact prefix_sections_iff.1 (h _ hdiffers)
  · intro h keys hdiffers
    obtain ⟨key, rest, rfl, hkey⟩ := firstDifference_root current desired hdiffers
    exact prefix_sections_iff.2 (h key hkey)

theorem equalOutside_features_iff (h : OnlyFeatures current desired) :
    EqualOutside (["setup", "features"] :: sections) current.1 desired.1 ↔
      ∀ key, DiffersAt current.1 desired.1 key →
        ¬(BeginsSection key ∧ ¬IsSection key ∨ key = "setup.features") := by
  have hsetup : ¬BeginsSection "setup" := by decide
  have hfeatures : ¬IsSection "setup.features" := by decide
  rw [equalOutside_iff]
  simp only [mem_cons, exists_eq_or_imp]
  constructor
  · intro hall key hkey hbad
    obtain ⟨rest, hdiffers⟩ := (differsAt_iff current desired key).1 hkey
    rcases hall _ hdiffers with hpre | hpart
    · obtain ⟨rfl, -⟩ := cons_prefix_cons.1 hpre
      rcases hbad with ⟨hbegins, -⟩ | hname
      · exact hsetup hbegins
      · exact absurd hname (by decide)
    · have hsection := prefix_sections_iff.1 hpart
      rcases hbad with ⟨-, hnot⟩ | rfl
      · exact hnot hsection
      · exact hfeatures hsection
  · intro hall keys hdiffers
    obtain ⟨key, rest, rfl, hkey⟩ := firstDifference_root current desired hdiffers
    have hgood := hall key hkey
    rcases h _ hdiffers with ⟨key', hkey', hbegins⟩ | hread | hread
    · obtain rfl := Option.some.inj hkey'
      refine .inr (prefix_sections_iff.2 ?_)
      by_contra hnot
      exact hgood (.inl ⟨hbegins, hnot⟩)
    · exact .inl (hread ▸ prefix_refl _)
    · exact absurd (.inr (cons.inj hread).1) hgood

/-- An assessment is sound exactly when no name is taken for another one. -/
theorem assessmentSound_iff :
    AssessmentSound current desired currentCommissioning desiredCommissioning addedFeatures
        removedFeatures desiredFeatures ↔
      WellNamed current desired currentCommissioning desiredCommissioning addedFeatures
        removedFeatures desiredFeatures := by
  have hreconfigure := reconfigure_iff current desired currentCommissioning desiredCommissioning
  have hreapply := setupReapplySupported_iff current desired currentCommissioning
    desiredCommissioning addedFeatures removedFeatures desiredFeatures
  constructor
  · intro h
    constructor
    · rintro ⟨key, hkey, -, hsection⟩
      by_contra hground
      have hequal := h.unchanged (Bool.eq_false_iff.2 fun htrue => hground (hreconfigure.1 htrue))
      exact hsection ((equalOutside_sections_iff current desired).1 hequal key hkey)
    · rintro ⟨key, hkey, hbad⟩
      by_contra hground
      push Not at hground
      obtain ⟨hrefused, hother, hfeatures⟩ := hground
      have hequal := h.reapplied (hreapply.2 ⟨hrefused, hother, hfeatures⟩)
      exact (equalOutside_features_iff current desired hfeatures).1 hequal key hkey hbad
  · intro h
    refine ⟨fun hfalse => ?_, fun hsupported => ?_, fun htruncated => ?_⟩
    · rw [equalOutside_sections_iff]
      intro key hkey
      by_contra hsection
      have hground : ¬(Rerun currentCommissioning desiredCommissioning ∨
          cut (visits current.1 desired.1) = true ∨
            ∃ key, DiffersAt current.1 desired.1 key ∧ ¬BeginsSection key) := fun hground =>
        absurd (hreconfigure.2 hground) (by simp [hfalse])
      have hbegins : BeginsSection key := by
        by_contra hnot
        exact hground (.inr (.inr ⟨key, hkey, hnot⟩))
      exact hground (h.section_names ⟨key, hkey, hbegins, hsection⟩)
    · obtain ⟨hrefused, ⟨other, hother, hnot⟩, hfeatures⟩ := hreapply.1 hsupported
      rw [equalOutside_features_iff current desired hfeatures]
      intro key hkey hbad
      rcases h.feature_names ⟨key, hkey, hbad⟩ with hground | hground | hground
      · exact hrefused hground
      · exact hnot (hground other hother)
      · exact hground hfeatures
    · rw [changesTruncated_eq] at htruncated
      exact mem_changedPaths current.1 desired.1 currentCommissioning desiredCommissioning
        htruncated

end

/-! ## Samples -/

def fieldSpec (key text : String) : Spec Empty :=
  ⟨.object [(key, .string text)], .object (pairwise_singleton _ _)
    (forall_mem_singleton.2 (.string text)), rfl⟩

theorem policy_not_sound : ¬AssessmentSound (fieldSpec "qualification_policy" "strict")
      (fieldSpec "qualification_policy" "lax") [] [] [] [] [] := by
  intro h
  have hequal := h.unchanged (by decide +kernel) ["qualification_policy"] (by decide)
  exact absurd hequal (by decide)

end Gadgetron.Enrollment
