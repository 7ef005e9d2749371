import Gadgetron.Core.Context
import Gadgetron.Lib.Components
import Gadgetron.Lib.SortBy
import Gadgetron.Lib.Text
import Gadgetron.Lib.Words

/-!
# Duplicate notes

The groups of notes that `list_duplicate_groups_handler` lists, and the selections of notes that can
be merged.
-/

namespace Gadgetron.Knowledge

open Lib Relation List Option

structure NoteRow where
  (id vaultId : Uuid)
  ownerState : String
  (title contentHash : Option String)

structure MergeNoteSnapshot where
  vaultId : Uuid
  (contentHash title : String)

structure DuplicateGroup where
  id : String
  matchReasons : List String
  candidates : List NoteRow

section

-- `str::to_lowercase`, and the hexadecimal digits of SHA-256.
variable (toLowercase digest : String → String)

def normalizedTitle (title : Option String) : Option String := do
  let joined := [' '].intercalate (words isWhitespace (← title).toList)
  let normalized := toLowercase (String.ofList joined)
  if normalized.isEmpty then none else some normalized

def nonemptyEqual (left right : Option String) : Bool :=
  left.any fun text => !text.isEmpty && right = some text

def duplicateMatch (leftHash leftTitle rightHash rightTitle : Option String) : Bool :=
  nonemptyEqual leftHash rightHash ||
    (normalizedTitle toLowercase leftTitle).any fun title =>
      normalizedTitle toLowercase rightTitle = some title

def unionDuplicateRoots : ℕ → List ℕ → ℕ → ℕ → Option (List ℕ) := unite

def matchingRows (left right : NoteRow) : Bool :=
  left.vaultId = right.vaultId &&
    duplicateMatch toLowercase left.contentHash left.title right.contentHash right.title

def matching (rows : List NoteRow) (left right : ℕ) : Bool :=
  rows[left]?.any fun l => rows[right]?.any fun r => matchingRows toLowercase l r

def sweepPairs (n : ℕ) : List (ℕ × ℕ) :=
  (List.range n).flatMap fun left =>
    (List.range' (left + 1) (n - (left + 1))).map fun right => (left, right)

def duplicateMembers (rows : List NoteRow) : Option (List (List ℕ)) := do
  let n := rows.length
  let pairs := (sweepPairs n).filter fun pair => matching toLowercase rows pair.1 pair.2
  let parents ← pairs.foldlM (fun parents pair => unionDuplicateRoots n parents pair.1 pair.2)
    (List.range n)
  let roots ← rootsOf n parents (List.range n)
  some ((collect roots).filter fun members => 1 < members.length)

def anyPair (agree : NoteRow → NoteRow → Bool) : List NoteRow → Bool
  | [] => false
  | row :: rows => rows.any (agree row) || anyPair agree rows

def duplicateGroup (rows : List NoteRow) (members : List ℕ) : DuplicateGroup :=
  let candidates := sortBy (fun left right => compare left.id.toNat right.id.toNat)
    (members.filterMap (rows[·]?))
  let stableIds := String.intercalate ":" (candidates.map (·.id.toText))
  let sameHash := anyPair (fun l r => nonemptyEqual l.contentHash r.contentHash) candidates
  let sameTitle := anyPair (fun l r => (normalizedTitle toLowercase l.title).any fun title =>
    normalizedTitle toLowercase r.title = some title) candidates
  { id := "exact:" ++ String.ofList ((digest stableIds).toList.take 24)
    matchReasons :=
      (if sameHash then ["content_hash"] else []) ++ if sameTitle then ["normalized_title"] else []
    candidates }

def enabledNotes (rows : List NoteRow) : List NoteRow := rows.filter (·.ownerState = "enabled")

/-- `list_duplicate_groups_handler`, on the notes of a space. -/
def listDuplicateGroups (rows : List NoteRow) : Option (List DuplicateGroup) := do
  let rows := enabledNotes rows
  let members ← duplicateMembers toLowercase rows
  some (sortBy (fun left right => compare left.id right.id)
    (members.map (duplicateGroup toLowercase digest rows)))

def matchingSnapshots (snapshots : List MergeNoteSnapshot) (left right : ℕ) : Bool :=
  snapshots[left]?.any fun l => snapshots[right]?.any fun r =>
    duplicateMatch toLowercase (some l.contentHash) (some l.title) (some r.contentHash)
      (some r.title)

/-- `snapshots_form_exact_group`: `none` when its loop does not end within the passes. -/
def snapshotsFormExactGroup (snapshots : List MergeNoteSnapshot) : Option Bool :=
  (sweepAll (matchingSnapshots toLowercase snapshots) snapshots.length (snapshots.length + 1)
    [0]).map fun reached => reached.length = snapshots.length

def mergeable (master : MergeNoteSnapshot) (snapshots : List MergeNoteSnapshot) : Option Bool :=
  if snapshots.any (·.vaultId ≠ master.vaultId) then some false
  else snapshotsFormExactGroup toLowercase snapshots

end

variable {toLowercase : String → String} {rows : List NoteRow}

/-- Matches within a vault connect the two notes, over any number of others. -/
def Connected (toLowercase : String → String) (rows : List NoteRow) : ℕ → ℕ → Prop :=
  EqvGen (Linked (matching toLowercase rows) rows.length)

/-- Matches among the notes that were selected connect all of them. -/
def SelectionConnected (toLowercase : String → String)
    (snapshots : List MergeNoteSnapshot) : Prop :=
  ∀ i < snapshots.length, ∀ j < snapshots.length,
    EqvGen (Linked (matchingSnapshots toLowercase snapshots) snapshots.length) i j

/-- The groups are the components of `Connected` that have at least two notes. -/
structure ExactComponents (toLowercase : String → String) (rows : List NoteRow)
    (groups : List (List ℕ)) : Prop where
  component : ∀ members ∈ groups, ∃ i ∈ members,
    ∀ j, j ∈ members ↔ j < rows.length ∧ Connected toLowercase rows i j
  several : ∀ members ∈ groups, 2 ≤ members.length
  complete : ∀ i < rows.length, ∀ j < rows.length, i ≠ j → Connected toLowercase rows i j →
    ∃ members ∈ groups, i ∈ members ∧ j ∈ members
  disjoint : groups.flatten.Nodup

/-- The snapshot was read from the note as it is listed. -/
structure ReadBack (row : NoteRow) (snapshot : MergeNoteSnapshot) : Prop where
  vault : snapshot.vaultId = row.vaultId
  hash : ∀ hash ∈ row.contentHash, snapshot.contentHash = hash
  title : ∀ title ∈ row.title, snapshot.title = title

/-! ## Matches -/

theorem nonemptyEqual_iff {left right : Option String} : nonemptyEqual left right ↔
      ∃ text, text.isEmpty = false ∧ left = some text ∧ right = some text := by
  rw [nonemptyEqual, Option.any_eq_true]
  simp only [Bool.and_eq_true, Bool.not_eq_true', decide_eq_true_eq]
  exact exists_congr fun text => and_left_comm

theorem duplicateMatch_iff {lh lt rh rt : Option String} : duplicateMatch toLowercase lh lt rh rt ↔
      (∃ text, text.isEmpty = false ∧ lh = some text ∧ rh = some text) ∨
        ∃ title, normalizedTitle toLowercase lt = some title ∧
          normalizedTitle toLowercase rt = some title := by
  rw [duplicateMatch, Bool.or_eq_true, nonemptyEqual_iff, Option.any_eq_true]
  simp only [decide_eq_true_eq]

theorem duplicateMatch_comm (lh lt rh rt : Option String) :
    duplicateMatch toLowercase lh lt rh rt = duplicateMatch toLowercase rh rt lh lt := by
  rw [Bool.eq_iff_iff, duplicateMatch_iff, duplicateMatch_iff]
  simp only [and_comm]

theorem matchingSnapshots_comm (snapshots : List MergeNoteSnapshot) (i j : ℕ) :
    matchingSnapshots toLowercase snapshots i j = matchingSnapshots toLowercase snapshots j i := by
  unfold matchingSnapshots
  cases snapshots[i]? <;> cases snapshots[j]? <;> simp [duplicateMatch_comm]

theorem matching_comm (i j : ℕ) :
    matching toLowercase rows i j = matching toLowercase rows j i := by
  unfold matching matchingRows
  cases rows[i]? <;> cases rows[j]? <;> simp [duplicateMatch_comm, eq_comm]

variable {i j : ℕ}

theorem matching_iff : matching toLowercase rows i j ↔
    ∃ l r, rows[i]? = some l ∧ rows[j]? = some r ∧ l.vaultId = r.vaultId ∧
      duplicateMatch toLowercase l.contentHash l.title r.contentHash r.title := by
  unfold matching matchingRows
  cases rows[i]? <;> cases rows[j]? <;> simp

theorem ReadBack.duplicateMatch {l r : NoteRow} {s t : MergeNoteSnapshot} (hl : ReadBack l s)
    (hr : ReadBack r t)
    (h : duplicateMatch toLowercase l.contentHash l.title r.contentHash r.title) :
    duplicateMatch toLowercase (some s.contentHash) (some s.title) (some t.contentHash)
      (some t.title) := by
  have htitle : ∀ {row : NoteRow} {snapshot : MergeNoteSnapshot}, ReadBack row snapshot →
      ∀ {title}, normalizedTitle toLowercase row.title = some title →
        normalizedTitle toLowercase (some snapshot.title) = some title := by
    intro row snapshot hread title hsome
    cases hrow : row.title with
    | none =>
      rw [hrow] at hsome
      cases hsome
    | some t =>
      rw [hread.title t hrow, ← hrow]
      exact hsome
  rw [duplicateMatch_iff] at h ⊢
  rcases h with ⟨text, hne, hlh, hrh⟩ | ⟨title, hlt, hrt⟩
  · exact .inl ⟨text, hne, congrArg some (hl.hash text hlh), congrArg some (hr.hash text hrh)⟩
  · exact .inr ⟨title, htitle hl hlt, htitle hr hrt⟩

theorem Connected.vault_eq (h : Connected toLowercase rows i j) :
    rows[i]?.map (·.vaultId) = rows[j]?.map (·.vaultId) := by
  induction h with
  | rel a b hab =>
    obtain ⟨l, r, hl, hr, hvault, -⟩ := matching_iff.1 hab.2.2
    rw [hl, hr]
    exact congrArg some hvault
  | refl a => rfl
  | symm a b _ ih => exact ih.symm
  | trans a b c _ _ ihab ihbc => exact ihab.trans ihbc

theorem Connected.lt_iff (h : Connected toLowercase rows i j) :
    i < rows.length ↔ j < rows.length := by
  have hnone : rows[i]?.map (·.vaultId) = none ↔ rows[j]?.map (·.vaultId) = none := by
    rw [h.vault_eq]
  rw [map_eq_none_iff, map_eq_none_iff, List.getElem?_eq_none_iff,
    List.getElem?_eq_none_iff] at hnone
  omega

/-! ## The groups -/

theorem mem_sweepPairs {n : ℕ} {pair : ℕ × ℕ} :
    pair ∈ sweepPairs n ↔ pair.1 < pair.2 ∧ pair.2 < n := by
  obtain ⟨l, r⟩ := pair
  simp only [sweepPairs, mem_flatMap, mem_range, List.mem_map, mem_range'_1, Prod.mk.injEq]
  constructor
  · rintro ⟨left, hleft, right, hright, rfl, rfl⟩
    omega
  · intro h
    exact ⟨l, by omega, r, by omega, rfl, rfl⟩

theorem eqvGen_pairs_iff : EqvGen (fun a b => (a, b) ∈ (sweepPairs rows.length).filter fun pair =>
      matching toLowercase rows pair.1 pair.2) i j ↔ Connected toLowercase rows i j := by
  have hpair : ∀ {a b}, (a, b) ∈ ((sweepPairs rows.length).filter fun pair =>
      matching toLowercase rows pair.1 pair.2) ↔
        (a < b ∧ b < rows.length) ∧ matching toLowercase rows a b := by
    intro a b
    rw [List.mem_filter, mem_sweepPairs]
  constructor
  · intro h
    refine h.mono fun a b hab => ?_
    obtain ⟨⟨hlt, hb⟩, hmatch⟩ := hpair.1 hab
    exact ⟨by omega, hb, hmatch⟩
  · intro h
    induction h with
    | rel a b hab =>
      obtain ⟨ha, hb, hmatch⟩ := hab
      rcases lt_trichotomy a b with hlt | rfl | hlt
      · exact .rel _ _ (hpair.2 ⟨⟨hlt, hb⟩, hmatch⟩)
      · exact .refl _
      · exact .symm _ _ (.rel _ _ (hpair.2 ⟨⟨hlt, ha⟩, matching_comm a b ▸ hmatch⟩))
    | refl a => exact .refl _
    | symm a b _ ih => exact ih.symm
    | trans a b c _ _ ihab ihbc => exact ihab.trans _ _ _ ihbc

theorem exists_duplicateMembers (toLowercase : String → String) (rows : List NoteRow) :
    ∃ groups, duplicateMembers toLowercase rows = some groups ∧
      ExactComponents toLowercase rows groups := by
  have hpairs : ∀ pair ∈ (sweepPairs rows.length).filter fun pair =>
      matching toLowercase rows pair.1 pair.2, pair.1 < rows.length ∧ pair.2 < rows.length := by
    intro pair hpair
    have hlt := mem_sweepPairs.1 (List.mem_filter.1 hpair).1
    omega
  obtain ⟨parents, rep, rank, hfold, hlength, hforest, hrep⟩ := foldlM_unite hpairs
  have hroots := hforest.rootsOf hlength fun i hi => mem_range.1 hi
  have hconn : ∀ {i j}, rep i = rep j ↔ Connected toLowercase rows i j :=
    (hrep _ _).trans eqvGen_pairs_iff
  refine ⟨(collect ((List.range rows.length).map rep)).filter fun members => 1 < members.length,
    ?_, ?_, ?_, ?_, ?_⟩
  · have hunion : unionDuplicateRoots = unite := rfl
    simp only [duplicateMembers, hunion, hfold, bind_eq_bind, bind_some, hroots]
  · intro members hmembers
    obtain ⟨i, hi, rfl⟩ := mem_collect.1 (List.mem_filter.1 hmembers).1
    refine ⟨i, List.mem_filter.2 ⟨mem_range.2 hi, decide_eq_true rfl⟩, fun j => ?_⟩
    rw [List.mem_filter, mem_range, decide_eq_true_eq, eq_comm, hconn]
  · intro members hmembers
    exact of_decide_eq_true (List.mem_filter.1 hmembers).2
  · intro i hi j hj hne h
    have hmem : i ∈ (List.range rows.length).filter (rep · = rep i) :=
      List.mem_filter.2 ⟨mem_range.2 hi, decide_eq_true rfl⟩
    have hmem' : j ∈ (List.range rows.length).filter (rep · = rep i) :=
      List.mem_filter.2 ⟨mem_range.2 hj, decide_eq_true (hconn.2 h).symm⟩
    refine ⟨_, List.mem_filter.2 ⟨mem_collect.2 ⟨i, hi, rfl⟩, decide_eq_true ?_⟩, hmem, hmem'⟩
    have hnodup : [i, j].Nodup := by simpa using hne
    have hsub : [i, j] ⊆ (List.range rows.length).filter (rep · = rep i) :=
      cons_subset.2 ⟨hmem, cons_subset.2 ⟨hmem', nil_subset _⟩⟩
    exact (hnodup.subperm hsub).length_le
  · obtain ⟨hnodup, hpairwise⟩ := nodup_flatten.1 (nodup_flatten_collect
      ((List.range rows.length).map rep))
    exact nodup_flatten.2
      ⟨fun members hmembers => hnodup members (List.mem_filter.1 hmembers).1, hpairwise.filter _⟩

/-! ## Selections -/

variable {snapshots : List MergeNoteSnapshot}

theorem snapshotsFormExactGroup_iff (hne : snapshots ≠ []) :
    ∃ accepted, snapshotsFormExactGroup toLowercase snapshots = some accepted ∧
      (accepted ↔ SelectionConnected toLowercase snapshots) := by
  have hpos := length_pos_of_ne_nil hne
  have hcomm : ∀ i j, matchingSnapshots toLowercase snapshots i j =
      matchingSnapshots toLowercase snapshots j i := matchingSnapshots_comm snapshots
  obtain ⟨all, hall, hiff⟩ := sweepAll_iff hpos hcomm
  refine ⟨decide (all.length = snapshots.length), by rw [snapshotsFormExactGroup, hall]; rfl, ?_⟩
  rw [decide_eq_true_eq, hiff]
  refine ⟨fun h i hi j hj => ?_, fun h i hi => h 0 hpos i hi⟩
  exact ((h i hi).symm _ _).trans _ _ _ (h j hj)

variable {members : List ℕ}

section

variable (hread : List.Forall₂ (fun i s => ∃ row ∈ rows[i]?, ReadBack row s) members snapshots)
include hread

theorem exists_snapshot {i x : ℕ}
    (h : members[i]? = some x) : ∃ s ∈ snapshots[i]?, ∃ row ∈ rows[x]?, ReadBack row s := by
  obtain ⟨hi, rfl⟩ := List.getElem?_eq_some_iff.1 h
  have hi' : i < snapshots.length := hread.length_eq ▸ hi
  exact ⟨snapshots[i], getElem?_eq_getElem hi', hread.get hi hi'⟩

theorem connected_snapshots (hnodup : members.Nodup)
      (hclosed : ∀ {i j}, Connected toLowercase rows i j →
      (i ∈ members ↔ j ∈ members)) {x y : ℕ} (h : Connected toLowercase rows x y)
    (hi : members[i]? = some x) (hj : members[j]? = some y) :
    EqvGen (Linked (matchingSnapshots toLowercase snapshots) snapshots.length) i j := by
  induction h generalizing i j with
  | rel a b hab =>
    obtain ⟨l, r, hl, hr, -, hmatch⟩ := matching_iff.1 hab.2.2
    obtain ⟨s, hs, l', hl', hreadl⟩ := exists_snapshot hread hi
    obtain ⟨t, ht, r', hr', hreadr⟩ := exists_snapshot hread hj
    obtain rfl := mem_unique hl hl'
    obtain rfl := mem_unique hr hr'
    refine .rel _ _ ⟨(List.getElem?_eq_some_iff.1 hs).1, (List.getElem?_eq_some_iff.1 ht).1, ?_⟩
    rw [mem_def] at hs ht
    rw [matchingSnapshots, hs, ht]
    exact hreadl.duplicateMatch hreadr hmatch
  | refl a =>
    have hsame : members[i]? = members[j]? := hi.trans hj.symm
    rw [getElem?_inj (List.getElem?_eq_some_iff.1 hi).1 hnodup] at hsame
    exact hsame ▸ .refl i
  | symm a b _ ih => exact (ih hj hi).symm
  | trans a b c hab hbc ihab ihbc =>
    have hb : b ∈ members := (hclosed hab).1 (mem_of_getElem? hi)
    obtain ⟨k, hk⟩ := getElem?_of_mem hb
    exact (ihab hi hk).trans _ _ _ (ihbc hk hj)

end

theorem mergeable_of_component {groups : List (List ℕ)}
    (hgroups : ExactComponents toLowercase rows groups) {members order : List ℕ}
    (hmembers : members ∈ groups) (horder : order.Perm members) {master : MergeNoteSnapshot}
    (hmaster : master ∈ snapshots)
    (hread : List.Forall₂ (fun i s => ∃ row ∈ rows[i]?, ReadBack row s) order snapshots) :
    mergeable toLowercase master snapshots = some true := by
  obtain ⟨i₀, -, hmem⟩ := hgroups.component members hmembers
  have hmem' : ∀ {j}, j ∈ order ↔ j < rows.length ∧ Connected toLowercase rows i₀ j :=
    fun {j} => horder.mem_iff.trans (hmem j)
  have hnodup : order.Nodup :=
    horder.nodup_iff.2 ((nodup_flatten.1 hgroups.disjoint).1 members hmembers)
  have hclosed : ∀ {i j}, Connected toLowercase rows i j → (i ∈ order ↔ j ∈ order) := by
    intro i j h
    rw [hmem', hmem', h.lt_iff]
    refine and_congr_right fun _ => ⟨fun hi => hi.trans _ _ _ h, fun hj => ?_⟩
    exact hj.trans _ _ _ (h.symm _ _)
  have hvault : ∀ s ∈ snapshots, some s.vaultId = rows[i₀]?.map (·.vaultId) := by
    intro s hs
    obtain ⟨k, hk⟩ := getElem?_of_mem hs
    have hlt := (List.getElem?_eq_some_iff.1 hk).1
    have hget := getElem?_eq_getElem (hread.length_eq ▸ hlt : k < order.length)
    obtain ⟨t, ht, row, hrow, hback⟩ := exists_snapshot hread hget
    obtain rfl := mem_unique hk ht
    rw [(hmem'.1 (mem_of_getElem? hget)).2.vault_eq, hrow]
    exact congrArg some hback.vault
  have hsame : snapshots.any (·.vaultId ≠ master.vaultId) = false := by
    rw [List.any_eq_false]
    intro s hs
    simpa using (hvault s hs).trans (hvault master hmaster).symm
  obtain ⟨accepted, haccepted, hiff⟩ : ∃ accepted,
      snapshotsFormExactGroup toLowercase snapshots = some accepted ∧
        (accepted ↔ SelectionConnected toLowercase snapshots) :=
    snapshotsFormExactGroup_iff (ne_nil_of_mem hmaster)
  have hconnected : SelectionConnected toLowercase snapshots := by
    intro i hi j hj
    rw [← hread.length_eq] at hi hj
    have hx := (hmem'.1 (getElem_mem hi)).2
    have hy := (hmem'.1 (getElem_mem hj)).2
    exact connected_snapshots hread hnodup hclosed ((hx.symm _ _).trans _ _ _ hy)
      (getElem?_eq_getElem hi) (getElem?_eq_getElem hj)
  rw [mergeable, hsame, haccepted, hiff.2 hconnected]
  rfl

theorem perm_candidates {notes : List NoteRow} {group : List ℕ} (digest : String → String)
    (h : ∀ i ∈ group, i < notes.length) :
    ((duplicateGroup toLowercase digest notes group).candidates.map some).Perm
      (group.map (notes[·]?)) := by
  refine ((sortBy_perm _ _).map some).trans (.of_eq ?_)
  induction group with
  | nil => rfl
  | cons i group ih =>
    obtain ⟨hi, hgroup⟩ := forall_mem_cons.1 h
    rw [map_cons, getElem?_eq_getElem hi, filterMap_cons_some
      (getElem?_eq_getElem hi), map_cons, ih hgroup]

/-- The groups that are listed are the components with at least two notes, and a selection is taken
for one group exactly when matches connect it. -/
theorem duplicateGroups_exact (toLowercase digest : String → String) (notes : List NoteRow) :
    (∃ members groups, ExactComponents toLowercase (enabledNotes notes) members ∧
      listDuplicateGroups toLowercase digest notes = some groups ∧
      groups.Perm (members.map (duplicateGroup toLowercase digest (enabledNotes notes))) ∧
      (∀ group ∈ members,
        ((duplicateGroup toLowercase digest (enabledNotes notes) group).candidates.map some).Perm
          (group.map ((enabledNotes notes)[·]?))) ∧
      ∀ group ∈ members, ∀ order, order.Perm group → ∀ snapshots, ∀ master ∈ snapshots,
        List.Forall₂ (fun i s => ∃ row ∈ (enabledNotes notes)[i]?, ReadBack row s) order
          snapshots → mergeable toLowercase master snapshots = some true) ∧
    ∀ snapshots ≠ [], ∃ accepted, snapshotsFormExactGroup toLowercase snapshots = some accepted ∧
      (accepted ↔ SelectionConnected toLowercase snapshots) := by
  obtain ⟨members, hmembers, hexact⟩ := exists_duplicateMembers toLowercase (enabledNotes notes)
  refine ⟨⟨members, sortBy (fun left right => compare left.id right.id)
    (members.map (duplicateGroup toLowercase digest (enabledNotes notes))), hexact, ?_,
      sortBy_perm _ _, fun group hgroup => perm_candidates digest fun i hi => ?_, ?_⟩,
    fun _ => snapshotsFormExactGroup_iff⟩
  · simp only [listDuplicateGroups, hmembers, bind_eq_bind, bind_some]
  · obtain ⟨_, -, hiff⟩ := hexact.component group hgroup
    exact ((hiff i).1 hi).1
  · intro group hgroup order horder snapshots master hmaster hread
    exact mergeable_of_component hexact hgroup horder hmaster hread

end Gadgetron.Knowledge
