import Gadgetron.Graph.Exact
import Gadgetron.Graph.Placement
import Gadgetron.Spaces.Reviewed

/-!
# The reviewed reader

`ReviewedVaultReader` finds the notes that the active generation shows as reviewed and reads their
files against the hashes on record, while notes are edited and the graph is built anew.
-/

namespace Gadgetron.Graph

open Lib Policy Spaces

structure ReviewedObjectRow where
  (id spaceId : Uuid)
  (homeBundleId path : String)
  contentHash : Option String
  title : String

structure ReviewedVaultPage where
  (pageName title markdown : String)

inductive ReviewedVaultError
  | vault
  | revisionChanged
  | invalidUtf8

/-- What the reader is built on: `page_segment`, and the properties in the frontmatter of a note. -/
structure ReaderEnv extends GraphEnv where
  pageSegment : String → String
  frontmatter : String → Option (List (String × Json))

/-- A call of `get` or `search`: what it still has to read and what it has read. -/
structure ReaderCall where
  search : Bool
  rows : List ReviewedObjectRow
  pages : List ReviewedVaultPage

structure ReviewState where
  registry : Registry
  canonical : Canonical
  graph : GraphDb
  inputs : List GraphInputs
  snapshots : List GraphSnapshotInput
  calls : List ReaderCall
  returned : List ReviewedVaultPage

def ReviewState.empty : ReviewState := ⟨.empty, .empty, .empty, [], [], [], []⟩

/-! ## The reader -/

namespace ReviewState

variable (s : ReviewState)

def nodeOf (generationId objectId : Uuid) : Option GraphNodeRow :=
  s.graph.nodes.get (generationId, noteId objectId)

/-- The conditions on a node in `visible_rows`. -/
def showsReviewed (node : GraphNodeRow) : Bool :=
  node.status = "active" && ["lesson", "insight"].contains node.nodeKind &&
    ((jsonField "review_state" node.metadata).bind jsonText).any ["reviewed", "verified"].contains

/-- The row of an object, if `visible_rows` selects it. -/
def visibleRow (actor : SpaceActor) (generationId : Uuid) (object : KnowledgeObjectRow) :
    Option ReviewedObjectRow :=
  (s.canonical.vaults.get object.vaultId).bind fun vault =>
    (s.registry.spaces vault.spaceId).bind fun space =>
      (s.nodeOf generationId object.id).bind fun node =>
        if object.status = "active" && vault.ownerState = "enabled" &&
            space.tenantId = actor.tenantId && space.status = .active && showsReviewed node &&
            s.registry.mayRead actor space then
          some
            { id := object.id
              spaceId := vault.spaceId
              homeBundleId := vault.homeBundleId
              path := object.path
              contentHash := object.contentHash
              title := if node.title = "" then object.path else node.title }
        else none

/-- `visible_rows`; `updatedAt` says when the objects were last updated. -/
def visibleRows (actor : SpaceActor) (objectId : Option Uuid) (updatedAt : Uuid → ℕ) :
    List ReviewedObjectRow :=
  match s.graph.activeGeneration with
  | none => []
  | some generation =>
    let objects := s.canonical.objects.rows.filter fun object => objectId.all (· = object.id)
    let ordered := sortBy (fun left right : KnowledgeObjectRow =>
      (compare (updatedAt right.id) (updatedAt left.id)).then
        (compare left.id.toNat right.id.toNat)) objects
    (ordered.filterMap (s.visibleRow actor generation.id)).take (if objectId.isSome then 1 else 200)

end ReviewState

def pageName (env : ReaderEnv) (row : ReviewedObjectRow) : String :=
  "vault/" ++ row.homeBundleId ++ "/" ++ env.pageSegment row.title ++ "--" ++ Uuid.toText row.id

def readPage (env : ReaderEnv) (c : Canonical) (row : ReviewedObjectRow) :
    Except ReviewedVaultError ReviewedVaultPage :=
  match c.files (row.spaceId, row.homeBundleId, row.path) with
  | none => .error .vault
  | some bytes =>
    if row.contentHash ≠ some (env.contentHash bytes) then .error .revisionChanged
    else
      match String.fromUTF8? bytes with
      | none => .error .invalidUtf8
      | some markdown => .ok { pageName := pageName env row, title := row.title, markdown }

/-- A call after its next page; a search passes over a page that has changed. -/
def ReaderCall.next (call : ReaderCall) (rows : List ReviewedObjectRow) :
    Except ReviewedVaultError ReviewedVaultPage → Option ReaderCall
  | .ok page => some { call with rows, pages := call.pages ++ [page] }
  | .error .revisionChanged => if call.search then some { call with rows } else none
  | .error _ => none

/-! ## Steps -/

/-- An edit of a note writes its file and then its hash; a build reads its inputs, then the notes,
and materializes them.  What fails or dies takes no further step. -/
inductive ReviewStep
  | setRegistry (registry : Registry)
  | canonical (step : CanonicalStep)
  | updateNoteHash (objectId : Uuid) (expectedRevision : ℤ) (contentHash : String)
  | register (step : GraphStep)
  | readInputs
  | readNotes (i : ℕ)
  | materialize (i : ℕ) (builtBy : Uuid) (mode : ReconcileMode) (generationId : Uuid) (now : ℕ)
  | query (actor : SpaceActor) (objectId : Option Uuid) (updatedAt : Uuid → ℕ)
  | readPage (i : ℕ)
  | finish (i : ℕ)

def GraphStep.isMaterialize : GraphStep → Bool
  | .materialize _ => true
  | _ => false

/-- The system; the lock of the vault only rules out some of these orders. -/
abbrev reviewMachine (env : ReaderEnv) (digest : GraphSnapshotInput → String) :
    Machine ReviewState ReviewStep where
  step
    | s, .setRegistry registry => some { s with registry }
    | s, .canonical step =>
      (canonicalMachine.step s.canonical step).map fun c => { s with canonical := c }
    | s, .updateNoteHash objectId expectedRevision contentHash =>
      match s.canonical.updateNoteHash objectId expectedRevision contentHash with
      | .error _ => some s
      | .ok (c, _) => some { s with canonical := c }
    | s, .register step =>
      if step.isMaterialize then none
      else ((graphMachine digest).step s.graph step).map fun g => { s with graph := g }
    | s, .readInputs => some { s with inputs := s.inputs ++ [s.canonical.canonicalInputs] }
    | s, .readNotes i =>
      s.inputs[i]?.map fun inputs =>
        match buildFrom env.toGraphEnv inputs s.canonical with
        | .error _ => { s with inputs := s.inputs.eraseIdx i }
        | .ok (c, snapshot) =>
          { s with
            inputs := s.inputs.eraseIdx i
            canonical := c
            snapshots := s.snapshots ++ [snapshot] }
    | s, .materialize i builtBy mode generationId now =>
      s.snapshots[i]?.map fun snapshot =>
        match materialize digest ⟨builtBy, mode, snapshot, generationId, now⟩ s.graph with
        | .error _ => { s with snapshots := s.snapshots.eraseIdx i }
        | .ok (g, _) => { s with snapshots := s.snapshots.eraseIdx i, graph := g }
    | s, .query actor objectId updatedAt =>
      some { s with
        calls := s.calls ++
          [{ search := objectId.isNone
             rows := s.visibleRows actor objectId updatedAt
             pages := [] }] }
    | s, .readPage i =>
      s.calls[i]?.bind fun call =>
        match call.rows with
        | [] => none
        | row :: rows =>
          match call.next rows (readPage env s.canonical row) with
          | none => some { s with calls := s.calls.eraseIdx i }
          | some call => some { s with calls := s.calls.set i call }
    | s, .finish i =>
      s.calls[i]?.bind fun call =>
        if call.rows.isEmpty then
          some { s with calls := s.calls.eraseIdx i, returned := s.returned ++ call.pages }
        else none

end Gadgetron.Graph
