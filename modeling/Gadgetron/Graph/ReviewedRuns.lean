import Gadgetron.Graph.Reviewed

/-!
# What is served as reviewed

A page carries the review against which it is read just when the active generation was built from
the version on record.
-/

namespace Gadgetron.Graph

open Lib Policy Spaces List Option Except

def propertyText (properties : List (String × Json)) (key : String) : Option String :=
  ((properties.find? (·.1 = key)).map (·.2)).bind jsonText

/-- The frontmatter of a note says that it is a reviewed lesson or insight. -/
def ReviewedText (env : ReaderEnv) (markdown : String) : Prop :=
  ∃ properties, env.frontmatter markdown = some properties ∧
    (propertyText properties "knowledge_kind").any ["lesson", "insight"].contains = true ∧
    (propertyText properties "review_state").any ["reviewed", "verified"].contains = true

def NodeFrom (env : ReaderEnv) (contents : Set ByteArray) (node : GraphNodeInput) : Prop :=
  ["lesson", "insight"].contains node.nodeKind = true → ∃ bytes ∈ contents, ∃ markdown properties,
      node.contentHash = some (env.contentHash bytes) ∧
        String.fromUTF8? bytes = some markdown ∧ env.frontmatter markdown = some properties ∧
        propertyText properties "knowledge_kind" = some node.nodeKind ∧
        (jsonField "review_state" node.metadata).bind jsonText =
          propertyText properties "review_state"

/-- Contents with the hash of the row are reviewed. -/
def RowReviewed (env : ReaderEnv) (contents : Set ByteArray) (row : ReviewedObjectRow) : Prop :=
  ∀ bytes ∈ contents, row.contentHash = some (env.contentHash bytes) →
    ∀ markdown, String.fromUTF8? bytes = some markdown → ReviewedText env markdown

/-! ## Files -/

section

variable {c c' : Canonical}

def CanonicalStep.writes : CanonicalStep → Option ByteArray
  | .mutate (.insertObject _ content) => content
  | .mutate (.updateObject _ _ _ content) => content
  | .editFile _ content => content
  | _ => none

theorem of_writeFile {location location' : NoteLocation} {content : Option ByteArray}
    {bytes : ByteArray} (h : (c.writeFile location content).files location' = some bytes) :
    c.files location' = some bytes ∨ content = some bytes := by
  change Function.update c.files location content location' = some bytes at h
  rw [Function.update_apply] at h
  split_ifs at h
  · exact .inr h
  · exact .inl h

theorem files_shareObject {registry : Registry} {actor : SpaceActor} {objectId shareId : Uuid}
    {request : CreateShare} {targetObjectId : Option Uuid}
    (h : c.shareObjectWithTarget registry actor objectId request targetObjectId shareId = .ok c') :
    c'.files = c.files := by
  unfold Canonical.shareObjectWithTarget at h
  split at h
  · cases h
  · obtain ⟨_, -, h⟩ := bind_eq_ok.1 h
    unfold Canonical.insertShare at h
    split_ifs at h
    split at h
    · cases h
    · exact ok.inj h ▸ rfl

theorem files_updateNoteHash {objectId : Uuid} {expectedRevision : ℤ} {contentHash : String}
    {row : KnowledgeObjectRow}
    (h : c.updateNoteHash objectId expectedRevision contentHash = .ok (c', row)) :
    c'.files = c.files ∧ row.contentHash = some contentHash := by
  unfold Canonical.updateNoteHash at h
  split_ifs at h
  split at h
  · cases h
  · split_ifs at h
    obtain ⟨rfl, rfl⟩ := Prod.mk.inj (ok.inj h)
    exact ⟨rfl, rfl⟩

theorem files_of_step {step : CanonicalStep} (h : canonicalMachine.step c step = some c')
    {location : NoteLocation} {bytes : ByteArray} (hfile : c'.files location = some bytes) :
    c.files location = some bytes ∨ step.writes = some bytes := by
  cases step with
  | ensureVault vault =>
    change c.ensureVault vault = some c' at h
    unfold Canonical.ensureVault at h
    split_ifs at h
    · exact .inl (some.inj h ▸ hfile)
    · obtain ⟨vaults, -, rfl⟩ := map_eq_some_iff.1 h
      exact .inl hfile
  | setBundleOwnerState | setCandidates =>
    obtain rfl := some.inj h
    exact .inl hfile
  | editFile location' content =>
    obtain rfl := some.inj h
    exact of_writeFile hfile
  | mutate mutation =>
    change mutation.apply c = some c' at h
    cases mutation with
    | insertSource row =>
      change c.insertSource row = some c' at h
      unfold Canonical.insertSource at h
      split_ifs at h
      obtain ⟨sources, -, rfl⟩ := map_eq_some_iff.1 h
      exact .inl hfile
    | updateSource id expectedRevision columns =>
      change c.updateSource id expectedRevision columns = some c' at h
      unfold Canonical.updateSource at h
      split at h
      · cases h
      · split_ifs at h
        obtain rfl := some.inj h
        exact .inl hfile
    | insertObject row content =>
      change c.insertObject row content = some c' at h
      unfold Canonical.insertObject at h
      split at h
      · cases h
      · obtain ⟨objects, -, rfl⟩ := map_eq_some_iff.1 h
        exact of_writeFile hfile
    | updateObject id expectedRevision columns content =>
      change c.updateObject id expectedRevision columns content = some c' at h
      unfold Canonical.updateObject at h
      split at h
      · cases h
      · split at h
        · cases h
        · split_ifs at h
          obtain rfl := some.inj h
          exact of_writeFile hfile
    | shareObject registry actor objectId request targetObjectId shareId =>
      exact .inl (files_shareObject (toOption_eq_some.1 h) ▸ hfile)
    | revokeShare registry actor shareId expectedRevision =>
      have h := toOption_eq_some.1 h
      unfold Canonical.revokeShare at h
      split at h
      · cases h
      · obtain ⟨_, -, h⟩ := bind_eq_ok.1 h
        split_ifs at h
        obtain rfl := ok.inj h
        exact .inl hfile

theorem reconcileHash_eq_ok {object : GraphObjectInputRow} {hash hash' : String} {revision : ℤ}
    (h : reconcileHash c object hash = .ok (c', revision, hash')) :
    c'.files = c.files ∧ hash' = hash := by
  unfold reconcileHash at h
  split_ifs at h with hchanged
  · obtain ⟨⟨c₁, updated⟩, hupdate, hresult⟩ := map_eq_ok.1 h
    obtain ⟨hfiles, hhash⟩ := files_updateNoteHash (mapError_eq_ok.1 hupdate)
    cases hresult
    rw [hhash]
    exact ⟨hfiles, rfl⟩
  · cases h
    exact ⟨rfl, rfl⟩

end

/-! ## Nodes -/

section

variable {env : ReaderEnv} {contents : Set ByteArray} {c c' : Canonical}

/-- What the notes of a state are built with: the frontmatter is what `parse_graph_note` reads. -/
def ReadsFrontmatter (env : ReaderEnv) : Prop :=
  ∀ raw path note, env.parseGraphNote raw path = .ok note →
    env.frontmatter raw = some note.properties

theorem jsonField_review_state (object : GraphObjectInputRow) (revision : ℤ) (hash : String)
    (note : ParsedGraphNote) :
    jsonField "review_state" (noteNode object revision hash note).metadata =
      some ((note.property "review_state").getD .null) := by
  simp [jsonField, noteNode]

theorem jsonText_getD_null (value : Option Json) :
    jsonText (value.getD .null) = value.bind jsonText := by
  cases value <;> rfl

variable {object : GraphObjectInputRow}

theorem nodeFrom_noteNode {revision : ℤ} {hash markdown : String}
    {note : ParsedGraphNote} {bytes : ByteArray} (hmem : bytes ∈ contents)
    (hhash : hash = env.contentHash bytes) (htext : String.fromUTF8? bytes = some markdown)
    (hnote : env.frontmatter markdown = some note.properties) :
    NodeFrom env contents (noteNode object revision hash note) := by
  intro hkind
  refine ⟨bytes, hmem, markdown, note.properties, congrArg some hhash, htext, hnote, ?_, ?_⟩
  · change ["lesson", "insight"].contains note.nodeKind = true at hkind
    change _ = some note.nodeKind
    unfold ParsedGraphNote.nodeKind at hkind ⊢
    have hproperty : (note.property "knowledge_kind").bind jsonText =
        propertyText note.properties "knowledge_kind" := rfl
    rw [hproperty] at hkind ⊢
    split at hkind
    · rename_i h
      rw [h]
    · rename_i h
      rw [h]
    · exact absurd hkind (by decide)
  · rw [jsonField_review_state, bind_some, jsonText_getD_null]
    rfl

section

variable (hfront : ReadsFrontmatter env)
  (hfiles : ∀ location bytes, c.files location = some bytes → bytes ∈ contents)
include hfront hfiles

theorem nodeFrom_readNote {note : GraphNodeInput × NoteRelations}
    (h : readNote env.toGraphEnv c object = .ok (c', note)) :
    NodeFrom env contents note.1 ∧ c'.files = c.files := by
  unfold readNote at h
  split at h
  · cases h
  · rename_i bytes hfile
    obtain ⟨⟨c₁, revision, hash⟩, hreconcile, parsed, hparse, h⟩ := bind₂_eq_ok.1 h
    obtain ⟨rfl, rfl⟩ := Prod.mk.inj (ok.inj h)
    obtain ⟨hsame, hhash⟩ := reconcileHash_eq_ok hreconcile
    refine ⟨?_, hsame⟩
    unfold parseNote at hparse
    split at hparse
    · cases hparse
    · rename_i raw hraw
      exact nodeFrom_noteNode (hfiles _ _ hfile) hhash hraw (hfront _ _ _ (mapError_eq_ok.1 hparse))

theorem nodeFrom_readNotes {objects : List GraphObjectInputRow}
    {notes : List (GraphNodeInput × NoteRelations)}
    (h : readNotes env.toGraphEnv c objects = .ok (c', notes)) :
    (∀ note ∈ notes, NodeFrom env contents note.1) ∧ c'.files = c.files := by
  induction objects generalizing c c' notes with
  | nil =>
    obtain ⟨rfl, rfl⟩ := Prod.mk.inj (ok.inj h)
    exact ⟨fun note hnote => absurd hnote not_mem_nil, rfl⟩
  | cons object objects ih =>
    unfold readNotes at h
    split_ifs at h with hstatus
    · exact ih hfiles h
    · obtain ⟨⟨c₁, note⟩, hnote, h⟩ := bind_eq_ok.1 h
      obtain ⟨⟨c₂, rest⟩, hrest, h⟩ := bind_eq_ok.1 h
      obtain ⟨rfl, rfl⟩ := Prod.mk.inj (ok.inj h)
      obtain ⟨hfirst, hsame⟩ := nodeFrom_readNote hfront hfiles hnote
      obtain ⟨hothers, hsame'⟩ := ih (fun location bytes hfile =>
        hfiles location bytes (hsame ▸ hfile)) hrest
      exact ⟨forall_mem_cons.2 ⟨hfirst, hothers⟩, hsame'.trans hsame⟩

theorem nodeFrom_buildFrom {inputs : GraphInputs}
    {snapshot : GraphSnapshotInput}
    (h : buildFrom env.toGraphEnv inputs c = .ok (c', snapshot)) :
    (∀ node ∈ snapshot.nodes, NodeFrom env contents node) ∧ c'.files = c.files := by
  obtain ⟨⟨c₁, notes⟩, hnotes, h⟩ := bind_eq_ok.1 h
  obtain ⟨rfl, rfl⟩ := Prod.mk.inj (ok.inj h)
  obtain ⟨hfrom, hsame⟩ := nodeFrom_readNotes hfront hfiles hnotes
  refine ⟨fun node hnode => ?_, hsame⟩
  obtain ⟨freshness, hnodes⟩ := assemble_nodes env.toGraphEnv inputs notes c₁.candidateInputs
  rw [hnodes] at hnode
  obtain ⟨old, hold, rfl⟩ := List.mem_map.1 hnode
  -- the freshness of a node is no part of what it shows
  change NodeFrom env contents old
  rcases mem_assembledNodes.1 hold with hcanonical | ⟨shared, -, rfl⟩
  · rcases mem_canonicalNodes.1 hcanonical with ⟨source, -, -, rfl⟩ | ⟨note, hnote, rfl⟩ |
      ⟨candidate, -, rfl⟩
    · exact fun hkind => absurd hkind (by simp [sourceNode])
    · exact hfrom note hnote
    · exact fun hkind => absurd hkind (by simp [candidateNode])
  · exact fun hkind => absurd hkind (by simp [referenceNode])

end

end

/-! ## Runs -/

def ReviewStep.writes : ReviewStep → Option ByteArray
  | .canonical step => step.writes
  | _ => none

/-- The contents that the steps write. -/
def written (steps : List ReviewStep) : Set ByteArray :=
  { bytes | ∃ step ∈ steps, step.writes = some bytes }

def ReviewState.indexedHash (s : ReviewState) (objectId : Uuid) : Option String :=
  s.graph.activeGeneration.bind fun generation =>
    (s.nodeOf generation.id objectId).bind (·.contentHash)

/-- No query finds a note whose version on record has lost the review that the active generation
still shows. -/
def ReviewStands (env : ReaderEnv) (s : ReviewState) : ReviewStep → Prop
  | .query actor objectId updatedAt => ∀ row ∈ s.visibleRows actor objectId updatedAt,
      s.indexedHash row.id ≠ row.contentHash → RowReviewed env Set.univ row
  | _ => True

structure ReviewKept (env : ReaderEnv) (digest : GraphSnapshotInput → String)
    (contents : Set ByteArray) (s : ReviewState) : Prop where
  files : ∀ location bytes, s.canonical.files location = some bytes → bytes ∈ contents
  sound : Sound digest Set.univ s.graph
  nodes : ∀ row ∈ s.graph.nodes, NodeFrom env contents row.toGraphNodeInput
  snapshots : ∀ snapshot ∈ s.snapshots, ∀ node ∈ snapshot.nodes, NodeFrom env contents node
  rows : ∀ call ∈ s.calls, ∀ row ∈ call.rows, RowReviewed env contents row
  pages : ∀ call ∈ s.calls, ∀ page ∈ call.pages, ReviewedText env page.markdown
  returned : ∀ page ∈ s.returned, ReviewedText env page.markdown

section

variable {env : ReaderEnv} {digest : GraphSnapshotInput → String} {contents : Set ByteArray}
  {s s' : ReviewState}

theorem ReviewKept.empty : ReviewKept env digest contents .empty where
  files location bytes h := by cases h
  sound := .empty digest Set.univ
  nodes row h := absurd h (Table.not_mem_empty row)
  snapshots snapshot h := absurd h not_mem_nil
  rows call h := absurd h not_mem_nil
  pages call h := absurd h not_mem_nil
  returned page h := absurd h not_mem_nil

variable {row : ReviewedObjectRow} {actor : SpaceActor}

theorem of_visibleRow {generationId : Uuid} {object : KnowledgeObjectRow}
    (h : s.visibleRow actor generationId object = some row) :
    row.id = object.id ∧ row.contentHash = object.contentHash ∧
      ∃ node, s.nodeOf generationId object.id = some node ∧
        ReviewState.showsReviewed node = true ∧ ∃ vault space,
        s.canonical.vaults.get object.vaultId = some vault ∧
        s.registry.spaces vault.spaceId = some space ∧ s.registry.mayRead actor space = true := by
  obtain ⟨vault, hvault, h⟩ := bind_eq_some_iff.1 h
  obtain ⟨space, hspace, h⟩ := bind_eq_some_iff.1 h
  obtain ⟨node, hnode, h⟩ := bind_eq_some_iff.1 h
  split at h
  · rename_i hshown
    simp only [Bool.and_eq_true] at hshown
    obtain rfl := some.inj h
    exact ⟨rfl, rfl, node, hnode, hshown.1.2, vault, space, hvault, hspace, hshown.2⟩
  · cases h

variable {updatedAt : Uuid → ℕ} {objectId : Option Uuid}

theorem of_mem_visibleRows (h : row ∈ s.visibleRows actor objectId updatedAt) :
    ∃ generation, s.graph.activeGeneration = some generation ∧
      ∃ object ∈ s.canonical.objects, s.visibleRow actor generation.id object = some row := by
  unfold ReviewState.visibleRows at h
  split at h
  · cases h
  · rename_i generation hactive
    obtain ⟨object, hobject, hrow⟩ := mem_filterMap.1 (mem_of_mem_take h)
    exact ⟨generation, hactive, object, (List.mem_filter.1 (mem_sortBy.1 hobject)).1, hrow⟩

section

variable (hkept : ReviewKept env digest contents s) (hinj : Set.InjOn env.contentHash contents)
include hkept hinj

theorem rowReviewed_of_indexed (hrow : row ∈ s.visibleRows actor objectId updatedAt)
    (hindexed : s.indexedHash row.id = row.contentHash) : RowReviewed env contents row := by
  obtain ⟨generation, hactive, object, hobject, hvisible⟩ := of_mem_visibleRows hrow
  obtain ⟨hid, -, node, hnode, hshown, -⟩ := of_visibleRow hvisible
  simp only [ReviewState.showsReviewed, Bool.and_eq_true] at hshown
  obtain ⟨⟨-, hkind⟩, hreview⟩ := hshown
  obtain ⟨bytes, hmem, markdown, properties, hhash, htext, hfront, hknowledge, hstate⟩ :=
    hkept.nodes node (Table.get_eq_some.1 hnode).1 hkind
  have hindex : s.indexedHash row.id = node.contentHash := by
    rw [ReviewState.indexedHash, hactive, bind_some, hid, hnode, bind_some]
  intro bytes' hmem' hhash' markdown' htext'
  obtain rfl : bytes' = bytes := by
    refine hinj hmem' hmem (some.inj ?_)
    rw [← hhash', ← hindexed, hindex, hhash]
  obtain rfl := mem_unique htext htext'
  refine ⟨properties, hfront, ?_, ?_⟩
  · rw [hknowledge]
    exact hkind
  · rw [← hstate]
    exact hreview

theorem rowReviewed_of_query (hstands : ReviewStands env s (.query actor objectId updatedAt)) :
    ∀ row ∈ s.visibleRows actor objectId updatedAt, RowReviewed env contents row := by
  intro row hrow
  by_cases hindexed : s.indexedHash row.id = row.contentHash
  · exact rowReviewed_of_indexed hkept hinj hrow hindexed
  · exact fun bytes _ => hstands row hrow hindexed bytes (Set.mem_univ bytes)

end

variable {page : ReviewedVaultPage}

theorem readPage_eq_ok {c : Canonical} (h : readPage env c row = .ok page) :
    ∃ bytes, c.files (row.spaceId, row.homeBundleId, row.path) = some bytes ∧
      row.contentHash = some (env.contentHash bytes) ∧
      String.fromUTF8? bytes = some page.markdown := by
  unfold readPage at h
  split at h
  · cases h
  · rename_i bytes hfile
    split_ifs at h with hhash
    split at h
    · cases h
    · rename_i markdown htext
      obtain rfl := ok.inj h
      exact ⟨bytes, hfile, not_not.1 hhash, htext⟩

theorem reviewed_of_readPage (hkept : ReviewKept env digest contents s)
    (hrow : RowReviewed env contents row)
    (h : readPage env s.canonical row = .ok page) : ReviewedText env page.markdown := by
  obtain ⟨bytes, hfile, hhash, htext⟩ := readPage_eq_ok h
  exact hrow bytes (hkept.files _ _ hfile) hhash page.markdown htext

theorem of_mem_nodes_materialize {call : MaterializeCall} {g g' : GraphDb}
    {result : GraphMaterializeResult} (hsound : Sound digest Set.univ g)
    (h : materialize digest call g = .ok (g', result)) {row : GraphNodeRow}
    (hrow : row ∈ g'.nodes) : row ∈ g.nodes ∨ row.toGraphNodeInput ∈ call.snapshot.nodes := by
  obtain ⟨snapshot, hraw, ⟨rfl, -⟩ | ⟨hactivated, -⟩⟩ := materialize_eq_ok hsound h
  · exact .inl hrow
  · rcases (hactivated.replaced.nodes row).1 hrow with ⟨node, hnode, rfl⟩ | ⟨hold, -⟩
    · rw [(normalizeAndValidate_eq_ok hraw).1] at hnode
      exact .inr (mem_sortBy.1 hnode)
    · exact .inl hold

section

variable (hkept : ReviewKept env digest contents s)
include hkept

theorem ReviewKept.materialize {i : ℕ} {builtBy generationId : Uuid} {mode : ReconcileMode}
    {now : ℕ}
    (h : (reviewMachine env digest).step s (.materialize i builtBy mode generationId now) =
      some s') : ReviewKept env digest contents s' := by
  obtain ⟨snapshot, hsnapshot, rfl⟩ := map_eq_some_iff.1 h
  have hmem := mem_of_getElem? hsnapshot
  have hrest : ∀ other ∈ s.snapshots.eraseIdx i, ∀ node ∈ other.nodes,
      NodeFrom env contents node :=
    fun other hother => hkept.snapshots other (mem_of_mem_eraseIdx hother)
  split
  · exact { hkept with snapshots := hrest }
  · rename_i g result hcall
    refine { hkept with snapshots := hrest, sound := ?_, nodes := fun row hrow => ?_ }
    · have hstep : (graphMachine digest).step s.graph
          (.materialize ⟨builtBy, mode, snapshot, generationId, now⟩) = some g := by
        simp only [hcall]
      exact hkept.sound.step (fun _ _ _ _ => Set.mem_univ _) hstep
    · rcases of_mem_nodes_materialize hkept.sound hcall hrow with hold | hnew
      · exact hkept.nodes row hold
      · exact hkept.snapshots snapshot hmem _ hnew

theorem ReviewKept.register {step : GraphStep}
    (h : (reviewMachine env digest).step s (.register step) = some s') :
    ReviewKept env digest contents s' := by
  change (if _ then _ else _) = _ at h
  split_ifs at h with hmaterialize
  obtain ⟨g, hg, rfl⟩ := map_eq_some_iff.1 h
  refine { hkept with
    sound := hkept.sound.step (fun call hcall => absurd (hcall ▸ rfl) hmaterialize) hg
    nodes := fun row hrow => hkept.nodes row ?_ }
  cases step with
  | registerSpace | registerVault | registerUser =>
    obtain rfl := some.inj hg
    exact hrow
  | deleteUser id =>
    change (if _ then _ else _) = _ at hg
    split_ifs at hg
    obtain rfl := some.inj hg
    exact hrow
  | materialize call => exact absurd rfl hmaterialize

theorem ReviewKept.readPage {i : ℕ}
    (h : (reviewMachine env digest).step s (.readPage i) = some s') :
    ReviewKept env digest contents s' := by
  obtain ⟨call, hcall, h⟩ := bind_eq_some_iff.1 h
  have hmem := mem_of_getElem? hcall
  have hrows := hkept.rows call hmem
  split at h
  · cases h
  · rename_i row rows hrow
    rw [hrow] at hrows
    obtain ⟨hfirst, hrest⟩ := forall_mem_cons.1 hrows
    split at h
    · obtain rfl := some.inj h
      exact { hkept with
        rows := fun other hother => hkept.rows other (mem_of_mem_eraseIdx hother)
        pages := fun other hother => hkept.pages other (mem_of_mem_eraseIdx hother) }
    · rename_i call' hnext
      obtain rfl := some.inj h
      have hcall' : (∀ row ∈ call'.rows, RowReviewed env contents row) ∧
          ∀ page ∈ call'.pages, ReviewedText env page.markdown := by
        unfold ReaderCall.next at hnext
        split at hnext
        · rename_i page hpage
          obtain rfl := some.inj hnext
          refine ⟨hrest, fun other hother => ?_⟩
          rcases mem_append.1 hother with hold | hnew
          · exact hkept.pages call hmem other hold
          · rw [mem_singleton.1 hnew]
            exact reviewed_of_readPage hkept hfirst hpage
        · split_ifs at hnext
          obtain rfl := some.inj hnext
          exact ⟨hrest, hkept.pages call hmem⟩
        · cases hnext
      refine { hkept with rows := fun other hother => ?_, pages := fun other hother => ?_ }
      · rcases mem_or_eq_of_mem_set hother with hold | rfl
        · exact hkept.rows other hold
        · exact hcall'.1
      · rcases mem_or_eq_of_mem_set hother with hold | rfl
        · exact hkept.pages other hold
        · exact hcall'.2

end

theorem ReviewKept.step (hfront : ReadsFrontmatter env)
    (hinj : Set.InjOn env.contentHash contents) {step : ReviewStep}
    (hkept : ReviewKept env digest contents s) (hstands : ReviewStands env s step)
    (hwrites : ∀ bytes, step.writes = some bytes → bytes ∈ contents)
    (h : (reviewMachine env digest).step s step = some s') : ReviewKept env digest contents s' := by
  cases step with
  | setRegistry | readInputs =>
    obtain rfl := some.inj h
    exact { hkept with }
  | canonical step =>
    obtain ⟨c, hc, rfl⟩ := map_eq_some_iff.1 h
    refine { hkept with files := fun location bytes hfile => ?_ }
    rcases files_of_step hc hfile with hold | hnew
    · exact hkept.files location bytes hold
    · exact hwrites bytes hnew
  | updateNoteHash objectId expectedRevision contentHash =>
    simp only at h
    split at h
    · exact some.inj h ▸ hkept
    · rename_i c row hupdate
      obtain rfl := some.inj h
      have hsame := (files_updateNoteHash hupdate).1
      exact { hkept with
        files := fun location bytes hfile => hkept.files location bytes (hsame ▸ hfile) }
  | register step => exact hkept.register h
  | readNotes i =>
    obtain ⟨inputs, -, rfl⟩ := map_eq_some_iff.1 h
    split
    · exact { hkept with }
    · rename_i c snapshot hbuild
      obtain ⟨hnodes, hsame⟩ := nodeFrom_buildFrom hfront hkept.files hbuild
      refine { hkept with
        files := fun location bytes hfile => hkept.files location bytes (hsame ▸ hfile)
        snapshots := fun other hother => ?_ }
      rcases mem_append.1 hother with hold | hnew
      · exact hkept.snapshots other hold
      · exact mem_singleton.1 hnew ▸ hnodes
  | materialize i builtBy mode generationId now => exact hkept.materialize h
  | query actor objectId updatedAt =>
    obtain rfl := some.inj h
    have hrows := rowReviewed_of_query hkept hinj hstands
    refine { hkept with rows := fun call hcall => ?_, pages := fun call hcall => ?_ }
    · rcases mem_append.1 hcall with hold | hnew
      · exact hkept.rows call hold
      · exact mem_singleton.1 hnew ▸ hrows
    · rcases mem_append.1 hcall with hold | hnew
      · exact hkept.pages call hold
      · rw [mem_singleton.1 hnew]
        exact fun page hpage => absurd hpage not_mem_nil
  | readPage i => exact hkept.readPage h
  | finish i =>
    obtain ⟨call, hcall, h⟩ := bind_eq_some_iff.1 h
    split_ifs at h
    obtain rfl := some.inj h
    refine { hkept with
      rows := fun other hother => hkept.rows other (mem_of_mem_eraseIdx hother)
      pages := fun other hother => hkept.pages other (mem_of_mem_eraseIdx hother)
      returned := fun page hpage => ?_ }
    rcases mem_append.1 hpage with hold | hnew
    · exact hkept.returned page hold
    · exact hkept.pages call (mem_of_getElem? hcall) page hnew

/-- In a run without such a query, every page that is returned says of itself that it is a reviewed
lesson or insight. -/
theorem returned_reviewed {steps : List ReviewStep} (hfront : ReadsFrontmatter env)
    (hinj : Set.InjOn env.contentHash (written steps))
    (hstands : (reviewMachine env digest).Meets (ReviewStands env) .empty steps)
    (hrun : (reviewMachine env digest).exec .empty steps = some s) :
    ∀ page ∈ s.returned, ReviewedText env page.markdown := by
  have hkept : ReviewKept env digest (written steps) s := by
    refine (reviewMachine env digest).invariant_of_meets (fun s step s' hkept hstep h => ?_)
      .empty (hstands.and_forall _ fun step hstep => hstep) hrun
    exact hkept.step hfront hinj hstep.1 (fun bytes hbytes => ⟨step, hstep.2, hbytes⟩) h
  exact hkept.returned

end

/-! ## Samples -/

def noteText (reviewState : String) : String :=
  "---\nknowledge_kind: lesson\nreview_state: " ++ reviewState ++ "\n---\n"

def sampleFrontmatter (markdown : String) : Option (List (String × Json)) :=
  (["reviewed", "draft"].find? fun state => markdown = noteText state).map fun state =>
    [("knowledge_kind", .string "lesson"), ("review_state", .string state)]

def sampleReader : ReaderEnv where
  parseGraphNote raw path :=
    match sampleFrontmatter raw with
    | none => .error "invalid frontmatter"
    | some properties => .ok ⟨path, properties, []⟩
  normalizedTitle title := title
  stableEdgeId node _ _ _ _ _ := node
  parseUuid := Uuid.ofText
  parseCandidate _ _ := none
  contentHash bytes := String.ofList (List.replicate 64 (if bytes.size = 54 then 'a' else 'b'))
  vaultError location := location.2.2
  pageSegment title := title
  frontmatter := sampleFrontmatter

def sampleRegistry : Registry :=
  { Registry.empty with
    users := fun id => if id = 1 then some ⟨1, .admin, true⟩ else none
    spaces := fun id =>
      if id = 1 then some ⟨1, 1, .tenantShared, none, none, none, .active⟩ else none }

def sampleReviewed : List ReviewStep :=
  [.setRegistry sampleRegistry,
    .canonical (.ensureVault ⟨1, 1, "core", "enabled"⟩),
    .canonical (.mutate (.insertObject
      { id := 1
        vaultId := 1
        canonicalKind := "note"
        path := "note.md"
        revision := 1
        status := "active"
        contentHash := some (sampleReader.contentHash (noteText "reviewed").toUTF8)
        sourceId := none }
      (some (noteText "reviewed").toUTF8))),
    .register (.registerUser 1), .register (.registerSpace 1), .register (.registerVault 1),
    .readInputs, .readNotes 0, .materialize 0 1 .full 1 0]

def sampleGet : List ReviewStep :=
  [.query ⟨1, 1⟩ (some 1) (fun _ => 0), .readPage 0, .finish 0]

def sampleEdit : List ReviewStep :=
  [.canonical (.editFile (1, "core", "note.md") (some (noteText "draft").toUTF8)),
    .updateNoteHash 1 1 (sampleReader.contentHash (noteText "draft").toUTF8)]

/-- A test that is enough for a query to find no review that is lost. -/
def indexedTest (s : ReviewState) : ReviewStep → Bool
  | .query actor objectId updatedAt =>
    (s.visibleRows actor objectId updatedAt).all fun row => s.indexedHash row.id = row.contentHash
  | _ => true

theorem reviewStands_of_indexedTest (s : ReviewState) (step : ReviewStep)
    (h : indexedTest s step = true) : ReviewStands sampleReader s step := by
  cases step with
  | query actor objectId updatedAt =>
    exact fun row hrow hne => absurd (of_decide_eq_true (List.all_eq_true.1 h row hrow)) hne
  | _ => trivial

theorem readsFrontmatter_sampleReader : ReadsFrontmatter sampleReader := by
  intro raw path note h
  simp only [sampleReader] at h ⊢
  split at h
  · cases h
  · rename_i properties hproperties
    obtain rfl := ok.inj h
    exact hproperties

theorem injOn_written_sample :
    Set.InjOn sampleReader.contentHash (written (sampleReviewed ++ sampleGet)) := by
  have hone {bytes : ByteArray} (h : bytes ∈ written (sampleReviewed ++ sampleGet)) :
      bytes = (noteText "reviewed").toUTF8 := by
    obtain ⟨step, hmem, hwrites⟩ := h
    simp only [sampleReviewed, sampleGet, cons_append, nil_append, mem_cons,
      not_mem_nil, or_false] at hmem
    rcases hmem with rfl | rfl | rfl | rfl | rfl | rfl | rfl | rfl | rfl | rfl | rfl | rfl
    case inr.inr.inl => exact (some.inj hwrites).symm
    all_goals cases hwrites
  intro bytes hbytes bytes' hbytes' _
  rw [hone hbytes, hone hbytes']

theorem returned_reviewed_sample : ∃ s,
    (reviewMachine sampleReader fun _ => "").exec .empty (sampleReviewed ++ sampleGet) = some s ∧
      s.returned.length = 1 ∧ ∀ page ∈ s.returned, ReviewedText sampleReader page.markdown := by
  have hrun : ((reviewMachine sampleReader fun _ => "").exec .empty
      (sampleReviewed ++ sampleGet)).map (·.returned.length) = some 1 := by
    decide +kernel
  obtain ⟨s, hs, hlength⟩ := map_eq_some_iff.1 hrun
  refine ⟨s, hs, hlength, returned_reviewed readsFrontmatter_sampleReader injOn_written_sample
    ?_ hs⟩
  exact Machine.meets_of_meetsTest _ reviewStands_of_indexedTest (by decide +kernel)

/-- The review of the note is withdrawn, and the note is served before the graph is built anew. -/
theorem withdrawn_review_is_served : ∃ s page, (reviewMachine sampleReader fun _ => "").exec .empty
        (sampleReviewed ++ sampleEdit ++ sampleGet) = some s ∧
      page ∈ s.returned ∧ ¬ReviewedText sampleReader page.markdown := by
  have hrun : ((reviewMachine sampleReader fun _ => "").exec .empty
      (sampleReviewed ++ sampleEdit ++ sampleGet)).map (·.returned.map (·.markdown)) =
        some [noteText "draft"] := by
    decide +kernel
  obtain ⟨s, hs, hpages⟩ := map_eq_some_iff.1 hrun
  obtain ⟨page, hpage, hmarkdown⟩ := List.mem_map.1 (hpages ▸ mem_singleton_self (noteText "draft"))
  refine ⟨s, page, hs, hpage, ?_⟩
  rintro ⟨properties, hfront, -, hstate⟩
  have hdraft : sampleFrontmatter (noteText "draft") =
      some [("knowledge_kind", .string "lesson"), ("review_state", .string "draft")] := rfl
  rw [hmarkdown] at hfront
  obtain rfl := mem_unique hdraft hfront
  exact absurd hstate (by decide)

end Gadgetron.Graph
