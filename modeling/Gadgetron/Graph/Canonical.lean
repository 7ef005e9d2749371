import Gadgetron.Lib.Table
import Gadgetron.Policy.Input
import Gadgetron.Spaces.Access

/-!
# The canonical state of a tenant's knowledge

Vaults, sources, notes, shares and job candidates, the files of the vaults, and the statements that
change them.
-/

namespace Gadgetron.Graph

open Lib Policy Spaces Option

structure KnowledgeVaultRow where
  (id spaceId : Uuid)
  (homeBundleId ownerState : String)

structure SourceColumns where
  (status title : String)
  (requestedUri finalUri contentType contentHash : Option String)

structure KnowledgeSourceRow extends SourceColumns where
  (id vaultId : Uuid)
  sourceKind : String
  revision : ℤ

structure ObjectColumns where
  status : String
  contentHash : Option String
  sourceId : Option Uuid

structure KnowledgeObjectRow extends ObjectColumns where
  (id vaultId : Uuid)
  (canonicalKind path : String)
  revision : ℤ

inductive ShareMode
  | reference
  | snapshot
  | fork
  | promote
  | synthesize
  deriving DecidableEq

def ShareMode.asStr : ShareMode → String
  | .reference => "reference"
  | .snapshot => "snapshot"
  | .fork => "fork"
  | .promote => "promote"
  | .synthesize => "synthesize"

structure KnowledgeShareRow where
  (id sourceSpaceId sourceObjectId : Uuid)
  sourceRevision : ℤ
  targetSpaceId : Uuid
  mode : ShareMode
  followLatest : Bool
  targetObjectId : Option Uuid
  policyDisposition : String
  revision : ℤ
  revoked : Bool

structure CandidateRow where
  (id jobId spaceId outputVaultId : Uuid)
  (title summary : String)
  (payload citations : Json)
  contentHash : String
  changeSetId : Option Uuid
  reviewStatus : Option String
  materializedObjectId : Option Uuid

/-- Where a note's file is: the space, the bundle and the path. -/
abbrev NoteLocation := Uuid × String × String

structure Canonical where
  vaults : Table KnowledgeVaultRow.id
  sources : Table KnowledgeSourceRow.id
  objects : Table KnowledgeObjectRow.id
  shares : Table KnowledgeShareRow.id
  candidates : List CandidateRow
  files : NoteLocation → Option ByteArray

def Canonical.empty : Canonical := ⟨.empty, .empty, .empty, .empty, [], fun _ => none⟩

structure CreateShare where
  sourceRevision : ℤ
  targetSpaceId : Uuid
  mode : ShareMode
  followLatest : Bool
  policyDisposition : String

/-- Why a share is refused; `check` is a constraint of the table. -/
inductive ShareError
  | space (error : KnowledgeSpaceError)
  | check
  | conflict

namespace Canonical

variable (c : Canonical)

def location (object : KnowledgeObjectRow) : Option NoteLocation :=
  (c.vaults.get object.vaultId).map fun vault => (vault.spaceId, vault.homeBundleId, object.path)

def writeFile (location : NoteLocation) (content : Option ByteArray) : Canonical :=
  { c with files := Function.update c.files location content }

/-! ## Statements -/

/-- `ensure_vault`; a vault of the space and the bundle is left as it is. -/
def ensureVault (vault : KnowledgeVaultRow) : Option Canonical :=
  if c.vaults.rows.any fun row =>
      row.spaceId = vault.spaceId && row.homeBundleId = vault.homeBundleId then
    some c
  else (c.vaults.insert { vault with ownerState := "enabled" }).map fun vaults => { c with vaults }

def setBundleOwnerState (homeBundleId state : String) : Canonical :=
  { c with
    vaults := c.vaults.updateWhere
      (fun row => row.homeBundleId = homeBundleId && row.ownerState ≠ state)
      fun row => { row with ownerState := state } }

def insertSource (row : KnowledgeSourceRow) : Option Canonical :=
  if (c.vaults.get row.vaultId).isNone then none
  else (c.sources.insert row).map fun sources => { c with sources }

def updateSource (id : Uuid) (expectedRevision : ℤ) (columns : SourceColumns) : Option Canonical :=
  match c.sources.get id with
  | none => none
  | some row =>
    if row.revision = expectedRevision then
      some { c with
        sources := c.sources.put
          { row with toSourceColumns := columns, revision := row.revision + 1 } }
    else none

/-- A note is registered once its file is written. -/
def insertObject (row : KnowledgeObjectRow) (content : Option ByteArray) : Option Canonical :=
  match c.location row with
  | none => none
  | some location =>
    (c.objects.insert row).map fun objects => { c with objects }.writeFile location content

/-- An `UPDATE` of an object at its revision, once its file is written. -/
def updateObject (id : Uuid) (expectedRevision : ℤ) (columns : ObjectColumns)
    (content : Option ByteArray) : Option Canonical :=
  match c.objects.get id with
  | none => none
  | some row =>
    match c.location row with
    | none => none
    | some location =>
      if row.revision = expectedRevision then
        some ({ c with
          objects := c.objects.put
            { row with toObjectColumns := columns, revision := row.revision + 1 }
          }.writeFile location content)
      else none

def activeObject (id : Uuid) : Option (KnowledgeObjectRow × KnowledgeVaultRow) :=
  match (c.objects.get id).filter fun row => row.status = "active" with
  | none => none
  | some row => (c.vaults.get row.vaultId).map fun vault => (row, vault)

def checkShare (registry : Registry) (actor : SpaceActor) (object : KnowledgeObjectRow)
    (vault : KnowledgeVaultRow) (request : CreateShare) (targetObjectId : Option Uuid) :
    Except ShareError Unit := do
  if object.revision ≠ request.sourceRevision then .error (.space .revisionConflict)
  else
    let _ ← (registry.requireRole actor vault.spaceId .manager true).mapError .space
    let _ ← (registry.requireRole actor request.targetSpaceId .contributor true).mapError .space
    if (request.mode = .promote ∨ request.mode = .synthesize) ∧
        request.policyDisposition ≠ "reviewed" then
      .error (.space .forbidden)
    else if request.mode = .reference ∧ targetObjectId.isSome then
      .error (.space (.invalidInput "reference shares cannot own a target object"))
    else if request.mode ≠ .reference ∧ targetObjectId.isNone then
      .error (.space (.invalidInput "materialized share modes require a target object"))
    else if request.followLatest ≠ (request.mode = .reference) then
      .error (.space (.invalidInput "only reference shares may follow the latest revision"))
    else if targetObjectId.any fun id =>
        (c.activeObject id).map (·.2.spaceId) ≠ some request.targetSpaceId then
      .error (.space (.invalidInput "share target object must belong to the target Space"))
    else .ok ()

/-- The `INSERT` of a share: its spaces differ, and no other one that is not revoked is alike. -/
def insertShare (row : KnowledgeShareRow) : Except ShareError Canonical :=
  if row.sourceSpaceId = row.targetSpaceId then .error .check
  else if c.shares.rows.any fun other =>
      !other.revoked && other.sourceObjectId = row.sourceObjectId &&
        other.targetSpaceId = row.targetSpaceId && other.mode = row.mode then
    .error .conflict
  else
    match c.shares.insert row with
    | none => .error .conflict
    | some shares => .ok { c with shares }

/-- `share_object_with_target`; the row gets the id `shareId`. -/
def shareObjectWithTarget (registry : Registry) (actor : SpaceActor) (objectId : Uuid)
    (request : CreateShare) (targetObjectId : Option Uuid) (shareId : Uuid) :
    Except ShareError Canonical :=
  match c.activeObject objectId with
  | none => .error (.space .notFound)
  | some (object, vault) => do
    c.checkShare registry actor object vault request targetObjectId
    c.insertShare
      { id := shareId
        sourceSpaceId := vault.spaceId
        sourceObjectId := objectId
        sourceRevision := request.sourceRevision
        targetSpaceId := request.targetSpaceId
        mode := request.mode
        followLatest := request.followLatest
        targetObjectId
        policyDisposition := request.policyDisposition
        revision := 1
        revoked := false }

def revokeShare (registry : Registry) (actor : SpaceActor) (shareId : Uuid)
    (expectedRevision : ℤ) : Except KnowledgeSpaceError Canonical :=
  match c.shares.get shareId with
  | none => .error .notFound
  | some row => do
    let _ ← registry.requireRole actor row.sourceSpaceId .manager true
    if row.revision = expectedRevision ∧ row.revoked = false then
      .ok { c with
        shares := c.shares.put { row with revoked := true, revision := row.revision + 1 } }
    else .error .revisionConflict

end Canonical

/-! ## Steps -/

inductive Mutation
  | insertSource (row : KnowledgeSourceRow)
  | updateSource (id : Uuid) (expectedRevision : ℤ) (columns : SourceColumns)
  | insertObject (row : KnowledgeObjectRow) (content : Option ByteArray)
  | updateObject (id : Uuid) (expectedRevision : ℤ) (columns : ObjectColumns)
      (content : Option ByteArray)
  | shareObject (registry : Registry) (actor : SpaceActor) (objectId : Uuid)
      (request : CreateShare) (targetObjectId : Option Uuid) (shareId : Uuid)
  | revokeShare (registry : Registry) (actor : SpaceActor) (shareId : Uuid) (expectedRevision : ℤ)

/-- The state after the change, unless it is refused. -/
def Mutation.apply (c : Canonical) : Mutation → Option Canonical
  | .insertSource row => c.insertSource row
  | .updateSource id expectedRevision columns => c.updateSource id expectedRevision columns
  | .insertObject row content => c.insertObject row content
  | .updateObject id expectedRevision columns content =>
    c.updateObject id expectedRevision columns content
  | .shareObject registry actor objectId request targetObjectId shareId =>
    (c.shareObjectWithTarget registry actor objectId request targetObjectId shareId).toOption
  | .revokeShare registry actor shareId expectedRevision =>
    (c.revokeShare registry actor shareId expectedRevision).toOption

/-- What may happen to the canonical state, with files edited from outside. -/
inductive CanonicalStep
  | mutate (mutation : Mutation)
  | ensureVault (vault : KnowledgeVaultRow)
  | setBundleOwnerState (homeBundleId state : String)
  | setCandidates (candidates : List CandidateRow)
  | editFile (location : NoteLocation) (content : Option ByteArray)

abbrev canonicalMachine : Machine Canonical CanonicalStep where
  step
    | c, .mutate mutation => mutation.apply c
    | c, .ensureVault vault => c.ensureVault vault
    | c, .setBundleOwnerState homeBundleId state => some (c.setBundleOwnerState homeBundleId state)
    | c, .setCandidates candidates => some { c with candidates }
    | c, .editFile location content => some (c.writeFile location content)

/-! ## Shares name the space of their object -/

section

variable {c c' : Canonical}

/-- Vaults stay in their spaces and objects in their vaults. -/
structure Keeps (c c' : Canonical) : Prop where
  vaults : ∀ vault ∈ c.vaults, ∃ vault' ∈ c'.vaults,
    vault'.id = vault.id ∧ vault'.spaceId = vault.spaceId
  objects : ∀ object ∈ c.objects, ∃ object' ∈ c'.objects,
    object'.id = object.id ∧ object'.vaultId = object.vaultId

/-- The object lies in a vault of the space. -/
def InSpace (c : Canonical) (objectId spaceId : Uuid) : Prop :=
  ∃ object ∈ c.objects, object.id = objectId ∧
    ∃ vault ∈ c.vaults, vault.id = object.vaultId ∧ vault.spaceId = spaceId

def Placed (c : Canonical) : Prop :=
  ∀ share ∈ c.shares, InSpace c share.sourceObjectId share.sourceSpaceId

theorem Keeps.refl (c : Canonical) : Keeps c c :=
  ⟨fun vault h => ⟨vault, h, rfl, rfl⟩, fun object h => ⟨object, h, rfl, rfl⟩⟩

theorem InSpace.keep {objectId spaceId : Uuid} (h : InSpace c objectId spaceId)
    (hkeeps : Keeps c c') : InSpace c' objectId spaceId := by
  obtain ⟨object, hobject, hid, vault, hvault, hvaultId, hspace⟩ := h
  obtain ⟨object', hobject', hid', hsame⟩ := hkeeps.objects object hobject
  obtain ⟨vault', hvault', hvaultId', hspace'⟩ := hkeeps.vaults vault hvault
  exact ⟨object', hobject', hid'.trans hid, vault', hvault',
    hvaultId'.trans (hvaultId.trans hsame.symm), hspace'.trans hspace⟩

theorem placed_of_keeps (hkeeps : Keeps c c')
    (hshares : ∀ share ∈ c'.shares, InSpace c share.sourceObjectId share.sourceSpaceId) :
    Placed c' :=
  fun share hshare => (hshares share hshare).keep hkeeps

variable {content : Option ByteArray}

theorem keeps_of_insertObject {row : KnowledgeObjectRow}
    (h : c.insertObject row content = some c') : Keeps c c' ∧ c'.shares = c.shares := by
  unfold Canonical.insertObject at h
  cases hlocation : c.location row with
  | none =>
    rw [hlocation] at h
    cases h
  | some location =>
    rw [hlocation] at h
    obtain ⟨objects, hinsert, rfl⟩ := map_eq_some_iff.1 h
    exact ⟨⟨fun vault hvault => ⟨vault, hvault, rfl, rfl⟩,
      fun object hobject => ⟨object, (Table.mem_insert hinsert).2 (.inl hobject), rfl, rfl⟩⟩, rfl⟩

variable {expectedRevision : ℤ}

theorem keeps_of_updateObject {id : Uuid} {columns : ObjectColumns}
    (h : c.updateObject id expectedRevision columns content = some c') :
    Keeps c c' ∧ c'.shares = c.shares := by
  unfold Canonical.updateObject at h
  cases hget : c.objects.get id with
  | none =>
    rw [hget] at h
    cases h
  | some row =>
    simp only [hget] at h
    cases hlocation : c.location row with
    | none =>
      rw [hlocation] at h
      cases h
    | some location =>
      simp only [hlocation] at h
      obtain ⟨-, h⟩ := ite_none_right_eq_some.1 h
      obtain rfl := some.inj h
      refine ⟨⟨(Keeps.refl c).vaults, fun object hobject => ?_⟩, rfl⟩
      exact Table.exists_mem_put
        (P := fun old new => new.id = old.id ∧ new.vaultId = old.vaultId)
        (r := { row with toObjectColumns := columns, revision := row.revision + 1 })
        (Table.mem_of_get hget) rfl ⟨rfl, rfl⟩ (fun _ => ⟨rfl, rfl⟩) hobject

theorem inSpace_of_activeObject {id : Uuid} {object : KnowledgeObjectRow}
    {vault : KnowledgeVaultRow} (h : c.activeObject id = some (object, vault)) :
    InSpace c id vault.spaceId := by
  unfold Canonical.activeObject at h
  cases hget : (c.objects.get id).filter fun row => row.status = "active" with
  | none =>
    rw [hget] at h
    cases h
  | some row =>
    rw [hget] at h
    obtain ⟨hrow, -⟩ := filter_eq_some_iff.1 hget
    obtain ⟨found, hfound, heq⟩ := map_eq_some_iff.1 h
    obtain ⟨rfl, rfl⟩ := Prod.mk.inj heq
    exact ⟨row, Table.mem_of_get hrow, Table.key_of_get hrow, found, Table.mem_of_get hfound,
      Table.key_of_get hfound, rfl⟩

variable {registry : Registry} {actor : SpaceActor}

theorem shares_of_shareObject {objectId shareId : Uuid}
    {request : CreateShare} {targetObjectId : Option Uuid}
    (h : c.shareObjectWithTarget registry actor objectId request targetObjectId shareId = .ok c') :
    Keeps c c' ∧ ∀ share ∈ c'.shares, share ∈ c.shares ∨
      InSpace c share.sourceObjectId share.sourceSpaceId := by
  unfold Canonical.shareObjectWithTarget at h
  cases hactive : c.activeObject objectId with
  | none =>
    rw [hactive] at h
    cases h
  | some found =>
    obtain ⟨object, vault⟩ := found
    simp only [hactive] at h
    obtain ⟨_, -, h⟩ := bind_eq_ok.1 h
    unfold Canonical.insertShare at h
    split_ifs at h
    split at h
    · cases h
    · rename_i shares hinsert
      obtain rfl := Except.ok.inj h
      refine ⟨⟨(Keeps.refl c).vaults, (Keeps.refl c).objects⟩, fun share hshare => ?_⟩
      rcases (Table.mem_insert hinsert).1 hshare with hold | rfl
      · exact .inl hold
      · exact .inr (inSpace_of_activeObject hactive)

theorem shares_of_revokeShare {shareId : Uuid}
    (h : c.revokeShare registry actor shareId expectedRevision = .ok c') :
    Keeps c c' ∧ ∀ share ∈ c'.shares, ∃ old ∈ c.shares,
      share.sourceObjectId = old.sourceObjectId ∧ share.sourceSpaceId = old.sourceSpaceId := by
  unfold Canonical.revokeShare at h
  cases hget : c.shares.get shareId with
  | none =>
    rw [hget] at h
    cases h
  | some row =>
    simp only [hget] at h
    obtain ⟨_, -, h⟩ := bind_eq_ok.1 h
    split_ifs at h
    obtain rfl := Except.ok.inj h
    refine ⟨⟨(Keeps.refl c).vaults, (Keeps.refl c).objects⟩, fun share hshare => ?_⟩
    rcases Table.of_mem_put hshare with rfl | hold
    · exact ⟨row, Table.mem_of_get hget, rfl, rfl⟩
    · exact ⟨share, hold, rfl, rfl⟩

theorem Placed.mutate {mutation : Mutation} (hplaced : Placed c)
    (h : mutation.apply c = some c') : Placed c' := by
  cases mutation with
  | insertSource row =>
    obtain ⟨-, h⟩ := ite_none_left_eq_some.1 h
    obtain ⟨sources, -, rfl⟩ := map_eq_some_iff.1 h
    exact hplaced
  | updateSource id expectedRevision columns =>
    unfold Mutation.apply Canonical.updateSource at h
    cases hget : c.sources.get id with
    | none =>
      simp only [hget] at h
      cases h
    | some row =>
      simp only [hget] at h
      obtain ⟨-, h⟩ := ite_none_right_eq_some.1 h
      obtain rfl := some.inj h
      exact hplaced
  | insertObject row content =>
    obtain ⟨hkeeps, hshares⟩ := keeps_of_insertObject h
    exact placed_of_keeps hkeeps fun share hshare => hplaced share (hshares ▸ hshare)
  | updateObject id expectedRevision columns content =>
    obtain ⟨hkeeps, hshares⟩ := keeps_of_updateObject h
    exact placed_of_keeps hkeeps fun share hshare => hplaced share (hshares ▸ hshare)
  | shareObject registry actor objectId request targetObjectId shareId =>
    obtain ⟨hkeeps, hshares⟩ := shares_of_shareObject (toOption_eq_some.1 h)
    exact placed_of_keeps hkeeps fun share hshare =>
      (hshares share hshare).elim (hplaced share) id
  | revokeShare registry actor shareId expectedRevision =>
    obtain ⟨hkeeps, hshares⟩ := shares_of_revokeShare (toOption_eq_some.1 h)
    refine placed_of_keeps hkeeps fun share hshare => ?_
    obtain ⟨old, hold, hobject, hspace⟩ := hshares share hshare
    rw [hobject, hspace]
    exact hplaced old hold

theorem Placed.step {step : CanonicalStep} (hplaced : Placed c)
    (h : canonicalMachine.step c step = some c') : Placed c' := by
  cases step with
  | mutate mutation => exact hplaced.mutate h
  | ensureVault vault =>
    unfold Machine.step canonicalMachine at h
    simp only [Canonical.ensureVault] at h
    split_ifs at h
    · obtain rfl := some.inj h
      exact hplaced
    · obtain ⟨vaults, hinsert, rfl⟩ := map_eq_some_iff.1 h
      exact placed_of_keeps ⟨fun vault hvault =>
        ⟨vault, (Table.mem_insert hinsert).2 (.inl hvault), rfl, rfl⟩, (Keeps.refl c).objects⟩
        hplaced
  | setBundleOwnerState homeBundleId state =>
    obtain rfl := some.inj h
    refine placed_of_keeps ⟨fun vault hvault => ?_, (Keeps.refl c).objects⟩ hplaced
    obtain ⟨vault', hvault', rfl | rfl⟩ :=
      Table.exists_mem_updateWhere
        (fun row => row.homeBundleId = homeBundleId && row.ownerState ≠ state)
        (fun row => { row with ownerState := state }) (fun _ => rfl) hvault
    · exact ⟨_, hvault', rfl, rfl⟩
    · exact ⟨_, hvault', rfl, rfl⟩
  | setCandidates | editFile =>
    obtain rfl := some.inj h
    exact hplaced

theorem placed_of_run {steps : List CanonicalStep}
    (hrun : canonicalMachine.exec .empty steps = some c) : Placed c :=
  canonicalMachine.invariant (fun _ _ _ => Placed.step)
    (fun share h => absurd h (Table.not_mem_empty share)) hrun

end

end Gadgetron.Graph
