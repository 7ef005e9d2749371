import Gadgetron.Core.Context
import Gadgetron.Knowledge.WikiStore
import Gadgetron.Lib.Attempt
import Gadgetron.Lib.Boundary

/-!
# Batches of notes

`write_notes_batch` puts the notes of a batch below a domain of the vault one by one, each by way of
a temporary file beside it, and commits; where a step fails it writes back what it has written over.
-/

namespace Gadgetron.Knowledge

open Lib List

inductive VaultFile
  | bytes (content : List UInt8)
  | symlink (target : List Char)
  deriving DecidableEq

abbrev VaultPath := List (List Char)

abbrev VaultTree := FileTree (List Char) VaultFile

/-- `VaultLayoutError`, but for the texts of other libraries. -/
inductive VaultError
  | invalidBundleId (value : List Char)
  | lockTimeout
  | tenantMismatch (expected actual : Uuid)
  | unsupportedLayout (version : ℕ)
  | missingLayout
  | invalidNotePath (path : List Char)
  | noteSymlink (path : VaultPath)
  | io
  | git
  | gitRevisionConflict (expected actual : String)
  | json
  deriving DecidableEq

/-- `Uuid::parse_str` on a stem, `char::is_alphanumeric`, and the hash of a note. -/
structure VaultEnv where
  isUuid : List Char → Bool
  isAlphanumeric : Char → Bool
  contentHash : List UInt8 → String

/-! ## Paths -/

def isAsciiLower (b : UInt8) : Bool := 0x61 ≤ b.toNat && b.toNat ≤ 0x7a

def isAsciiDigit (b : UInt8) : Bool := 0x30 ≤ b.toNat && b.toNat ≤ 0x39

def isAsciiHex (b : UInt8) : Bool :=
  isAsciiDigit b || (0x61 ≤ b.toNat && b.toNat ≤ 0x66) || (0x41 ≤ b.toNat && b.toNat ≤ 0x46)

def dash : UInt8 := 0x2d

def validateBundleId (value : List Char) : Except VaultError Unit :=
  let bytes := encodeText value
  let valid := 2 ≤ bytes.length && bytes.length ≤ 64 && bytes.zipIdx.all fun place =>
    isAsciiLower place.1 || (isAsciiDigit place.1 && 0 < place.2) ||
      (place.1 == dash && 0 < place.2 && place.2 + 1 < bytes.length)
  if valid then .ok () else .error (.invalidBundleId value)

def validNotePathPrefix (value : List Char) : Bool :=
  let bytes := encodeText value
  bytes ≠ [] && bytes.length ≤ 63 &&
    bytes.all fun b => isAsciiLower b || isAsciiDigit b || b == dash

/-- `rsplit_once("--")`, on a text from its end. -/
def rsplitDashes : List Char → Option (List Char × List Char)
  | '-' :: '-' :: rest => some (rest, [])
  | c :: rest => (rsplitDashes rest).map fun parts => (parts.1, c :: parts.2)
  | [] => none

def validNoteFileName (env : VaultEnv) (stem : List Char) : Bool :=
  if env.isUuid stem then true
  else
    match rsplitDashes stem.reverse with
    | none => false
    | some (slug, suffix) =>
      slug ≠ [] && stem.length ≤ 96 && (slug.all fun c => env.isAlphanumeric c || c = '-') &&
        (encodeText suffix).length = 8 && (encodeText suffix).all isAsciiHex

def validateNoteRelativePath (env : VaultEnv) (relativePath : List Char) : Except VaultError Unit :=
  match segments relativePath with
  | [directory, fileName] =>
    if validNotePathPrefix directory && mdSuffix.isSuffixOf fileName &&
        validNoteFileName env (trimEndMatches fileName.reverse).reverse then .ok ()
    else .error (.invalidNotePath relativePath)
  | _ => .error (.invalidNotePath relativePath)

def domainRoot (spaceId : Uuid) (homeBundleId : List Char) : VaultPath :=
  ["spaces".toList, (Uuid.toText spaceId).toList, "domains".toList, homeBundleId]

def vaultNotePath (env : VaultEnv) (spaceId : Uuid) (homeBundleId relativePath : List Char) :
    Except VaultError VaultPath := do
  validateBundleId homeBundleId
  validateNoteRelativePath env relativePath
  return domainRoot spaceId homeBundleId ++ segments relativePath

/-- The loop of `reject_symlink_chain`, from `current`. -/
def rejectSymlinks (tree : VaultTree) (current : VaultPath) :
    List (List Char) → Except VaultError Unit
  | [] => .ok ()
  | component :: rest =>
    let current := current ++ [component]
    match tree.node current with
    | some (.file (.symlink _)) => .error (.noteSymlink current)
    -- there are no metadata of what would be below a file
    | some (.file (.bytes _)) => if rest = [] then .ok () else .error .io
    | some .directory => rejectSymlinks tree current rest
    | none => .ok ()

/-! ## One file -/

/-- Where `write_atomic` fails for reasons of the file system's own. -/
inductive WriteFault
  /-- After this number of directories. -/
  | createDirs (made : ℕ)
  | open
  /-- After so much of the content. -/
  | write (written : List UInt8)
  | sync
  | rename
  deriving DecidableEq

/-- A call of `write_atomic`: the id of its temporary file, and where it fails. -/
structure WriteCall where
  id : Uuid
  fault : Option WriteFault

def temporaryPath (path : VaultPath) (id : Uuid) : VaultPath :=
  path.dropLast ++
    [('.' :: path.getLast?.getD "vault".toList) ++ ".tmp-".toList ++ (Uuid.toText id).toList]

abbrev VaultStep (α : Type) := Attempt VaultTree VaultError α

def VaultStep.change (f : VaultTree → Option VaultTree) : VaultStep Unit :=
  Attempt.step fun tree =>
    match f tree with
    | some tree => .ok ((), tree)
    | none => .error .io

/-- What is left where a step fails halfway. -/
def VaultStep.failing (f : VaultTree → Option VaultTree) : VaultStep Unit := fun tree =>
  (.error .io, (f tree).getD tree)

def createParent (parent : VaultPath) (fault : Option WriteFault) : VaultStep Unit :=
  match fault with
  | some (.createDirs made) => VaultStep.failing fun tree => tree.createDirAll (parent.take made)
  | _ => VaultStep.change fun tree => tree.createDirAll parent

def openTemporary (temporary : VaultPath) (fault : Option WriteFault) : VaultStep Unit :=
  if fault = some .open then Attempt.throw .io
  else VaultStep.change fun tree =>
    if tree.node temporary = none then tree.writeFile temporary (.bytes []) else none

def writeTemporary (temporary : VaultPath) (bytes : List UInt8) (fault : Option WriteFault) :
    VaultStep Unit :=
  match fault with
  | some (.write written) => VaultStep.failing fun tree => tree.writeFile temporary (.bytes written)
  | _ => VaultStep.change fun tree => tree.writeFile temporary (.bytes bytes)

def syncTemporary (fault : Option WriteFault) : VaultStep Unit :=
  if fault = some .sync then Attempt.throw .io else pure ()

def renameTemporary (temporary path : VaultPath) (fault : Option WriteFault) : VaultStep Unit :=
  if fault = some .rename then Attempt.throw .io
  else VaultStep.change fun tree => tree.rename temporary path

def writeAtomic (path : VaultPath) (bytes : List UInt8) (call : WriteCall) : VaultStep Unit := do
  let temporary := temporaryPath path call.id
  createParent path.dropLast call.fault
  openTemporary temporary call.fault
  writeTemporary temporary bytes call.fault
  syncTemporary call.fault
  renameTemporary temporary path call.fault

/-! ## A batch -/

structure VaultNoteWrite where
  relativePath : List Char
  bytes : List UInt8

structure VaultNoteState where
  path : List Char
  (contentHash gitRevision : String)
  bytes : List UInt8
  externallyChanged : Bool

structure PreparedWrite where
  write : VaultNoteWrite
  path : VaultPath
  original : Option (List UInt8)

/-- What the file system and git do in a batch: `opened` in the calls before the first write, `read`
in checking and reading a note, `write` and `restore` in its calls of `write_atomic`; the notes in
`removeFails` cannot be removed. -/
structure BatchCall where
  opened : Except VaultError String
  read : List Char → Option VaultError
  (write restore : List Char → WriteCall)
  removeFails : List Char → Bool
  commit : Except VaultError String

/-- The error of a batch.  The source gives the error of a restoring step as it is. -/
inductive BatchError
  | failed (error : VaultError)
  | restoring (error : VaultError)
  deriving DecidableEq

def prepareWrite (env : VaultEnv) (spaceId : Uuid) (homeBundleId : List Char) (call : BatchCall)
    (tree : VaultTree) (write : VaultNoteWrite) : Except VaultError PreparedWrite := do
  let path ← vaultNotePath env spaceId homeBundleId write.relativePath
  rejectSymlinks tree [] path
  match call.read write.relativePath with
  | some error => .error error
  | none =>
    match tree.node path with
    | some (.file (.bytes content)) => .ok ⟨write, path, some content⟩
    | none => .ok ⟨write, path, none⟩
    | _ => .error .io

def prepareWrites (env : VaultEnv) (spaceId : Uuid) (homeBundleId : List Char) (call : BatchCall)
    (tree : VaultTree) :
    List (List Char) → List VaultNoteWrite → Except VaultError (List PreparedWrite)
  | _, [] => .ok []
  | seen, write :: writes => do
    if write.relativePath ∈ seen then .error (.invalidNotePath write.relativePath)
    else do
      let prepared ← prepareWrite env spaceId homeBundleId call tree write
      let rest ← prepareWrites env spaceId homeBundleId call tree (write.relativePath :: seen)
        writes
      return prepared :: rest

def prepareBatch (env : VaultEnv) (spaceId : Uuid) (homeBundleId : List Char)
    (writes : List VaultNoteWrite) (expectedGitRevision : Option String) (call : BatchCall)
    (tree : VaultTree) : Except VaultError (List PreparedWrite) := do
  let current ← call.opened
  match expectedGitRevision with
  | some expected =>
    if expected ≠ current then .error (.gitRevisionConflict expected current)
    else prepareWrites env spaceId homeBundleId call tree [] writes
  | none => prepareWrites env spaceId homeBundleId call tree [] writes

/-- `remove_file`, where a file that is not there will do. -/
def removeNote (path : VaultPath) (fails : Bool) : VaultStep Unit :=
  if fails then Attempt.throw .io
  else VaultStep.change fun tree =>
    if tree.node path = none then some tree else tree.removeFile path

def restoreNote (call : BatchCall) (prepared : PreparedWrite) : VaultStep Unit :=
  match prepared.original with
  | some bytes => writeAtomic prepared.path bytes (call.restore prepared.write.relativePath)
  | none => removeNote prepared.path (call.removeFails prepared.write.relativePath)

/-- The loop of `restore_note_batch`, over the notes from the last on. -/
def restoreNotes (call : BatchCall) : List PreparedWrite → VaultStep Unit
  | [] => pure ()
  | prepared :: rest => do
    restoreNote call prepared
    restoreNotes call rest

def failBatch {α : Type} (call : BatchCall) (done : List PreparedWrite) (error : VaultError) :
    Attempt VaultTree BatchError α := fun tree =>
  match restoreNotes call done.reverse tree with
  | (.ok (), tree) => (.error (.failed error), tree)
  | (.error error, tree) => (.error (.restoring error), tree)

/-- The loop over the notes, and the commit; `done` are those that are written. -/
def writePrepared (call : BatchCall) (done : List PreparedWrite) :
    List PreparedWrite → Attempt VaultTree BatchError String
  | [] =>
    match call.commit with
    | .ok revision => pure revision
    | .error error => failBatch call done error
  | prepared :: rest => fun tree =>
    match writeAtomic prepared.path prepared.write.bytes
        (call.write prepared.write.relativePath) tree with
    | (.ok (), tree) => writePrepared call (done ++ [prepared]) rest tree
    | (.error error, tree) => failBatch call done error tree

def writeNotesBatch (env : VaultEnv) (spaceId : Uuid) (homeBundleId : List Char)
    (writes : List VaultNoteWrite) (expectedGitRevision : Option String) (call : BatchCall) :
    Attempt VaultTree BatchError (List VaultNoteState) := fun tree =>
  if writes = [] then (.ok [], tree)
  else
    match prepareBatch env spaceId homeBundleId writes expectedGitRevision call tree with
    | .error error => (.error (.failed error), tree)
    | .ok prepared =>
      match writePrepared call [] prepared tree with
      | (.error error, tree) => (.error error, tree)
      | (.ok revision, tree) =>
        (.ok (prepared.map fun p =>
          { path := p.write.relativePath
            contentHash := env.contentHash p.write.bytes
            gitRevision := revision
            bytes := p.write.bytes
            externallyChanged := false }), tree)

/-! ## The temporary file -/

section

variable {t t' t₁ : VaultTree} {path : VaultPath} {bytes : List UInt8} {call : WriteCall}
  {fault : Option WriteFault}

variable {f : VaultTree → Option VaultTree}

theorem change_ok (h : f t = some t') : VaultStep.change f t = (.ok (), t') := by
  refine Attempt.step_run_ok ?_
  rw [h]

theorem change_error (h : f t = none) : VaultStep.change f t = (.error .io, t) := by
  refine Attempt.step_run_error ?_
  rw [h]

theorem temporaryPath_dropLast (path : VaultPath) (id : Uuid) :
    (temporaryPath path id).dropLast = path.dropLast := dropLast_concat

theorem temporaryPath_length (hpath : path ≠ []) (id : Uuid) :
    (temporaryPath path id).length = path.length := by
  have hlength := length_pos_iff.2 hpath
  rw [temporaryPath, List.length_append, length_dropLast, List.length_singleton]
  omega

theorem temporaryPath_ne_nil (path : VaultPath) (id : Uuid) : temporaryPath path id ≠ [] := by
  unfold temporaryPath
  simp

/-- A place for a note: there is no file on the way to it, and no directory at it. -/
structure Ready (t : VaultTree) (path : VaultPath) : Prop where
  path_ne : path ≠ []
  way : ∀ p, p <+: path.dropLast → t.fileAt p = none
  place : t.node path ≠ some .directory

structure Made (path : VaultPath) (t t' : VaultTree) : Prop where
  files : ∀ p, t'.fileAt p = t.fileAt p
  nodes : ∀ p : VaultPath, path.length ≤ p.length → t'.node p = t.node p
  parent : t'.node path.dropLast = some .directory

structure Staged (path temporary : VaultPath) (content : List UInt8) (t t' : VaultTree) : Prop where
  file : t'.node temporary = some (.file (.bytes content))
  files : ∀ p, p ≠ temporary → t'.fileAt p = t.fileAt p
  nodes : ∀ p : VaultPath, path.length ≤ p.length → p ≠ temporary → t'.node p = t.node p
  parent : t'.node path.dropLast = some .directory

/-- One file has been put at the path, or taken away from it. -/
structure Wrote (path : VaultPath) (file : Option VaultFile) (t t' : VaultTree) : Prop where
  place : t'.node path = file.map .file
  files : ∀ p, p ≠ path → t'.fileAt p = t.fileAt p
  nodes : ∀ p : VaultPath, path.length ≤ p.length → p ≠ path → t'.node p = t.node p

variable {file : Option VaultFile}

theorem Wrote.fileAt_self (h : Wrote path file t t') : t'.fileAt path = file := by
  unfold FileTree.fileAt
  rw [h.place]
  cases file <;> rfl

theorem not_prefix_of_length {p dst : VaultPath} (hdst : dst ≠ []) (h : dst.length ≤ p.length) :
    ¬p <+: dst.dropLast := by
  intro hle
  have hlength := hle.length_le
  have hpos := length_pos_iff.2 hdst
  rw [length_dropLast] at hlength
  omega

theorem made_of_createDirAll (hpath : path ≠ []) (h : t.createDirAll path.dropLast = some t') :
    Made path t t' where
  files := FileTree.createDirAll_fileAt h
  nodes _ hp := FileTree.createDirAll_node h (not_prefix_of_length hpath hp)
  parent := FileTree.createDirAll_self h

theorem createParent_ok (fault : Option WriteFault) (hready : Ready t path)
    (hfault : ∀ made, fault ≠ some (.createDirs made)) :
    ∃ t', createParent path.dropLast fault t = (.ok (), t') ∧ Made path t t' := by
  obtain ⟨t', hcreate⟩ := FileTree.exists_createDirAll hready.way
  refine ⟨t', ?_, made_of_createDirAll hready.path_ne hcreate⟩
  unfold createParent
  split
  · exact absurd rfl (hfault _)
  · exact change_ok hcreate

theorem createParent_failing (hpath : path ≠ []) (made : ℕ) :
    ∃ t', createParent path.dropLast (some (.createDirs made)) t = (.error .io, t') ∧
      (∀ p, t'.fileAt p = t.fileAt p) ∧
      ∀ p : VaultPath, path.length ≤ p.length → t'.node p = t.node p := by
  cases hcreate : t.createDirAll (path.dropLast.take made) with
  | none =>
    refine ⟨t, ?_, fun _ => rfl, fun _ _ => rfl⟩
    rw [createParent, VaultStep.failing, hcreate]
    rfl
  | some t' =>
    refine ⟨t', ?_, FileTree.createDirAll_fileAt hcreate, fun p hp => ?_⟩
    · rw [createParent, VaultStep.failing, hcreate]
      rfl
    refine FileTree.createDirAll_node hcreate fun hle => ?_
    exact not_prefix_of_length hpath hp (hle.trans ( take_prefix _ _))

variable {temporary : VaultPath} {content : List UInt8}

theorem writeFile_staged (hwrite : t₁.writeFile temporary (.bytes content) = some t')
    (hfiles : ∀ p, p ≠ temporary → t₁.fileAt p = t.fileAt p)
    (hnodes : ∀ p : VaultPath, path.length ≤ p.length → p ≠ temporary → t₁.node p = t.node p)
    (hparent : t₁.node path.dropLast = some .directory) (hne : path.dropLast ≠ temporary) :
    Staged path temporary content t t' := by
  have hnode := FileTree.writeFile_node hwrite
  have hother : ∀ p, p ≠ temporary → t'.node p = t₁.node p := fun p hp => by
    rw [hnode, if_neg hp]
  exact
    { file := by rw [hnode, if_pos rfl]
      files := fun p hp => (FileTree.fileAt_congr (hother p hp)).trans (hfiles p hp)
      nodes := fun p hlength hp => (hother p hp).trans (hnodes p hlength hp)
      parent := (hother _ hne).trans hparent }

theorem dropLast_ne_temporaryPath (hpath : path ≠ []) (id : Uuid) :
    path.dropLast ≠ temporaryPath path id := by
  intro heq
  have hlength := congrArg List.length heq
  have hpos := length_pos_iff.2 hpath
  rw [temporaryPath_length hpath, length_dropLast] at hlength
  omega

variable {id : Uuid}

theorem openTemporary_ok (fault : Option WriteFault) (hpath : path ≠ []) (hmade : Made path t t₁)
    (hfree : t.node (temporaryPath path id) = none) (hfault : fault ≠ some .open) :
    ∃ t', openTemporary (temporaryPath path id) fault t₁ = (.ok (), t') ∧
      Staged path (temporaryPath path id) [] t t' := by
  have hfree₁ : t₁.node (temporaryPath path id) = none :=
    (hmade.nodes _ (temporaryPath_length hpath id).ge).trans hfree
  obtain ⟨t', hwrite⟩ := FileTree.exists_writeFile (t := t₁) (temporaryPath_ne_nil path id)
    (by rw [hfree₁]; simp) (by rw [temporaryPath_dropLast, hmade.parent]) (.bytes [])
  refine ⟨t', ?_, writeFile_staged hwrite (fun p _ => hmade.files p)
    (fun p hp _ => hmade.nodes p hp) hmade.parent (dropLast_ne_temporaryPath hpath id)⟩
  unfold openTemporary
  rw [if_neg hfault]
  exact change_ok (by rw [if_pos hfree₁, hwrite])

theorem openTemporary_failing (hpath : path ≠ []) (hmade : Made path t t₁)
    (h : t.node (temporaryPath path id) ≠ none ∨ fault = some .open) :
    openTemporary (temporaryPath path id) fault t₁ = (.error .io, t₁) := by
  unfold openTemporary
  by_cases hfault : fault = some .open
  · rw [if_pos hfault]
    rfl
  · rw [if_neg hfault]
    refine change_error ?_
    rw [hmade.nodes _ (temporaryPath_length hpath id).ge, if_neg (h.resolve_right hfault)]

theorem writeTemporary_staged (hpath : path ≠ []) {old : List UInt8}
    (hstaged : Staged path (temporaryPath path id) old t t₁) (content : List UInt8) :
    ∃ t', t₁.writeFile (temporaryPath path id) (.bytes content) = some t' ∧
      Staged path (temporaryPath path id) content t t' := by
  obtain ⟨t', hwrite⟩ := FileTree.exists_writeFile (t := t₁) (temporaryPath_ne_nil path id)
    (by rw [hstaged.file]; simp) (by rw [temporaryPath_dropLast, hstaged.parent])
    (.bytes content)
  exact ⟨t', hwrite, writeFile_staged hwrite hstaged.files hstaged.nodes hstaged.parent
    (dropLast_ne_temporaryPath hpath id)⟩

theorem writeTemporary_ok (h : t.writeFile temporary (.bytes bytes) = some t')
    (hfault : ∀ written, fault ≠ some (.write written)) :
    writeTemporary temporary bytes fault t = (.ok (), t') := by
  unfold writeTemporary
  split
  · exact absurd rfl (hfault _)
  · exact change_ok h

theorem syncTemporary_ok (h : fault ≠ some .sync) (t : VaultTree) :
    syncTemporary fault t = (.ok (), t) := by
  unfold syncTemporary
  rw [if_neg h]
  rfl

theorem renameTemporary_ok (hready : Ready t path)
    (hne : temporaryPath path id ≠ path) (hfree : t.node (temporaryPath path id) = none)
    (hstaged : Staged path (temporaryPath path id) bytes t t₁) :
    ∃ t', renameTemporary (temporaryPath path id) path none t₁ = (.ok (), t') ∧
      Wrote path (some (.bytes bytes)) t t' := by
  have hplace : t₁.node path ≠ some .directory := by
    rw [hstaged.nodes path le_rfl hne.symm]
    exact hready.place
  obtain ⟨t', hrename⟩ := FileTree.exists_rename hstaged.file hready.path_ne hplace hstaged.parent
  have hnode := FileTree.rename_file_node hrename hstaged.file hne
  refine ⟨t', ?_, ?_⟩
  · unfold renameTemporary
    rw [if_neg (by simp)]
    exact change_ok hrename
  · have hgone : t'.node (temporaryPath path id) = none := by
      rw [hnode, if_neg hne, if_pos rfl]
    have hother : ∀ p, p ≠ path → p ≠ temporaryPath path id → t'.node p = t₁.node p :=
      fun p hp hp' => by rw [hnode, if_neg hp, if_neg hp']
    refine ⟨by rw [hnode, if_pos rfl]; rfl, fun p hp => ?_, fun p hlength hp => ?_⟩
    · by_cases hp' : p = temporaryPath path id
      · rw [hp', FileTree.fileAt_of_none hgone, FileTree.fileAt_of_none hfree]
      · exact (FileTree.fileAt_congr (hother p hp hp')).trans (hstaged.files p hp')
    · by_cases hp' : p = temporaryPath path id
      · rw [hp', hgone, hfree]
      · exact (hother p hp hp').trans (hstaged.nodes p hlength hp')

/-! ## `write_atomic` -/

theorem temporaryPath_ne (path : VaultPath) (id : Uuid) : temporaryPath path id ≠ path := by
  cases path using List.reverseRecOn with
  | nil => exact temporaryPath_ne_nil [] id
  | append_singleton parent name =>
    unfold temporaryPath
    rw [dropLast_concat, getLast?_concat]
    intro heq
    have hname := singleton_injective (append_cancel_left heq)
    have hlength := congrArg List.length hname
    simp only [Option.getD_some, List.length_append, length_cons] at hlength
    omega

def CanStage (t : VaultTree) (path : VaultPath) (call : WriteCall) : Prop :=
  t.node (temporaryPath path call.id) = none ∧ call.fault ≠ some .open ∧
    ∀ made, call.fault ≠ some (.createDirs made)

section

variable (bytes : List UInt8) (hready : Ready t path)
include hready

theorem writeAtomic_ok (hfree : t.node (temporaryPath path call.id) = none)
    (hfault : call.fault = none) :
    ∃ t', writeAtomic path bytes call t = (.ok (), t') ∧ Wrote path (some (.bytes bytes)) t t' := by
  obtain ⟨t₁, hparent, hmade⟩ := createParent_ok none hready (by simp)
  obtain ⟨t₂, hopen, hstaged⟩ := openTemporary_ok none hready.path_ne hmade hfree (by simp)
  obtain ⟨t₃, hwrite, hstaged⟩ := writeTemporary_staged hready.path_ne hstaged bytes
  obtain ⟨t₄, hrename, hwrote⟩ :=
    renameTemporary_ok hready (temporaryPath_ne path call.id) hfree hstaged
  refine ⟨t₄, ?_, hwrote⟩
  unfold writeAtomic
  rw [hfault, Attempt.bind_run_ok hparent, Attempt.bind_run_ok hopen,
    Attempt.bind_run_ok (writeTemporary_ok hwrite (by simp)),
    Attempt.bind_run_ok (syncTemporary_ok (by simp) t₃), hrename]

theorem writeAtomic_unstaged (h : ¬CanStage t path call) : ∃ t', writeAtomic path bytes call t =
      (.error .io, t') ∧ (∀ p, t'.fileAt p = t.fileAt p) ∧
      ∀ p : VaultPath, path.length ≤ p.length → t'.node p = t.node p := by
  by_cases hdirs : ∃ made, call.fault = some (.createDirs made)
  · obtain ⟨made, hfault⟩ := hdirs
    obtain ⟨t₁, hparent, hsame⟩ := createParent_failing (t := t) hready.path_ne made
    refine ⟨t₁, ?_, hsame⟩
    unfold writeAtomic
    rw [hfault, Attempt.bind_run_error hparent]
  · rw [not_exists] at hdirs
    obtain ⟨t₁, hparent, hmade⟩ := createParent_ok call.fault hready hdirs
    have hblocked : t.node (temporaryPath path call.id) ≠ none ∨ call.fault = some .open := by
      by_contra hnot
      rw [not_or, not_ne_iff] at hnot
      exact h ⟨hnot.1, hnot.2, hdirs⟩
    refine ⟨t₁, ?_, hmade.files, hmade.nodes⟩
    unfold writeAtomic
    rw [Attempt.bind_run_ok hparent,
      Attempt.bind_run_error (openTemporary_failing hready.path_ne hmade hblocked)]

theorem writeAtomic_staged (h : CanStage t path call)
    (hfault : call.fault ≠ none) : ∃ t' content, writeAtomic path bytes call t = (.error .io, t') ∧
      Staged path (temporaryPath path call.id) content t t' := by
  obtain ⟨hfree, hopen, hdirs⟩ := h
  obtain ⟨t₁, hparent, hmade⟩ := createParent_ok call.fault hready hdirs
  obtain ⟨t₂, hcreate, hstaged⟩ := openTemporary_ok call.fault hready.path_ne hmade hfree hopen
  obtain ⟨t₃, hwrite, hwritten⟩ := writeTemporary_staged hready.path_ne hstaged bytes
  have hrun : writeAtomic path bytes call t = (do
        writeTemporary (temporaryPath path call.id) bytes call.fault
        syncTemporary call.fault
        renameTemporary (temporaryPath path call.id) path call.fault : VaultStep Unit) t₂ := by
    unfold writeAtomic
    rw [Attempt.bind_run_ok hparent, Attempt.bind_run_ok hcreate]
  rw [hrun]
  cases hcase : call.fault with
  | none => exact absurd hcase hfault
  | some fault =>
    cases fault with
    | createDirs made => exact absurd hcase (hdirs made)
    | «open» => exact absurd hcase hopen
    | write written =>
      obtain ⟨t₃, hwrite, hwritten⟩ := writeTemporary_staged hready.path_ne hstaged written
      refine ⟨t₃, written, Attempt.bind_run_error ?_, hwritten⟩
      rw [writeTemporary, VaultStep.failing, hwrite]
      rfl
    | sync =>
      refine ⟨t₃, bytes, ?_, hwritten⟩
      rw [Attempt.bind_run_ok (writeTemporary_ok hwrite (by simp))]
      exact Attempt.bind_run_error rfl
    | rename =>
      refine ⟨t₃, bytes, ?_, hwritten⟩
      rw [Attempt.bind_run_ok (writeTemporary_ok hwrite (by simp)),
        Attempt.bind_run_ok (syncTemporary_ok (by simp) t₃)]
      rfl

end

theorem wrote_of_writeAtomic (hready : Ready t path)
    (h : writeAtomic path bytes call t = (.ok (), t')) :
    CanStage t path call ∧ call.fault = none ∧ Wrote path (some (.bytes bytes)) t t' := by
  by_cases hstage : CanStage t path call
  · by_cases hfault : call.fault = none
    · obtain ⟨t'', hrun, hwrote⟩ := writeAtomic_ok bytes hready hstage.1 hfault
      rw [h] at hrun
      cases hrun
      exact ⟨hstage, hfault, hwrote⟩
    · obtain ⟨t'', content, hrun, -⟩ := writeAtomic_staged bytes hready hstage hfault
      rw [h] at hrun
      cases hrun
  · obtain ⟨t'', hrun, -⟩ := writeAtomic_unstaged bytes hready hstage
    rw [h] at hrun
    cases hrun

theorem Ready.of_same (other : VaultPath) (hready : Ready t path)
    (hfiles : ∀ p, p ≠ other → t'.fileAt p = t.fileAt p) (hlength : path.length ≤ other.length)
    (hplace : t'.node path ≠ some .directory) : Ready t' path where
  path_ne := hready.path_ne
  way p hp := by
    have hne : p ≠ other := by
      rintro rfl
      exact not_prefix_of_length hready.path_ne hlength hp
    rw [hfiles p hne]
    exact hready.way p hp
  place := hplace

theorem Ready.wrote {other : VaultPath} (hready : Ready t path)
    (h : Wrote other file t t') (hlength : path.length = other.length) : Ready t' path := by
  refine hready.of_same _ h.files hlength.le ?_
  by_cases hsame : path = other
  · rw [hsame, h.place]
    cases file <;> simp
  · rw [h.nodes path hlength.ge hsame]
    exact hready.place

theorem Ready.staged {other temporary : VaultPath} (hready : Ready t path)
    (h : Staged other temporary content t t') (hlength : path.length = other.length)
    (htemporary : temporary.length = other.length) : Ready t' path := by
  refine hready.of_same _ h.files (hlength.trans htemporary.symm).le ?_
  by_cases hsame : path = temporary
  · rw [hsame, h.file]
    simp
  · rw [h.nodes path hlength.ge hsame]
    exact hready.place

end

/-! ## Restoring -/

section

variable {call : BatchCall} {t t₀ t₁ t' : VaultTree} {prepared : PreparedWrite}
  {done rest : List PreparedWrite}

theorem wrote_of_removeNote {path : VaultPath} {fails : Bool}
    (h : removeNote path fails t = (.ok (), t')) : Wrote path none t t' := by
  unfold removeNote at h
  cases fails with
  | true => cases h
  | false =>
    rw [if_neg (by decide)] at h
    by_cases hnone : t.node path = none
    · rw [change_ok (by rw [if_pos hnone])] at h
      cases h
      exact ⟨hnone, fun _ _ => rfl, fun _ _ _ => rfl⟩
    · cases hremove : t.removeFile path with
      | none =>
        rw [change_error (by rw [if_neg hnone, hremove])] at h
        cases h
      | some t'' =>
        rw [change_ok (by rw [if_neg hnone, hremove])] at h
        cases h
        have hnode := FileTree.removeFile_node hremove
        have hother : ∀ p, p ≠ path → t'.node p = t.node p := fun p hp => by
          rw [hnode, Function.update_of_ne hp]
        exact ⟨by rw [hnode, Function.update_self]; rfl,
          fun p hp => FileTree.fileAt_congr (hother p hp), fun p _ hp => hother p hp⟩

theorem wrote_of_restoreNote (hready : Ready t prepared.path)
    (h : restoreNote call prepared t = (.ok (), t')) :
    Wrote prepared.path (prepared.original.map .bytes) t t' := by
  unfold restoreNote at h
  cases horiginal : prepared.original with
  | none =>
    rw [horiginal] at h
    exact wrote_of_removeNote h
  | some bytes =>
    rw [horiginal] at h
    exact (wrote_of_writeAtomic hready h).2.2

structure Places (depth : ℕ) (t : VaultTree) (notes : List PreparedWrite) : Prop where
  ready : ∀ q ∈ notes, Ready t q.path
  depth_eq : ∀ q ∈ notes, q.path.length = depth

variable {depth : ℕ} {notes : List PreparedWrite}

theorem Places.wrote {path : VaultPath}
    {file : Option VaultFile} (h : Places depth t notes) (hpath : path.length = depth)
    (hwrote : Wrote path file t t') : Places depth t' notes where
  ready q hq := (h.ready q hq).wrote hwrote ((h.depth_eq q hq).trans hpath.symm)
  depth_eq := h.depth_eq

theorem restoreNotes_ok (hplaces : Places depth t notes)
    (hnodup : notes.Pairwise fun q r => q.path ≠ r.path)
    (h : restoreNotes call notes t = (.ok (), t')) :
    (∀ q ∈ notes, t'.fileAt q.path = q.original.map .bytes) ∧
      ∀ p, (∀ q ∈ notes, p ≠ q.path) → t'.fileAt p = t.fileAt p := by
  induction notes generalizing t with
  | nil =>
    cases h
    exact ⟨fun q hq => absurd hq not_mem_nil, fun _ _ => rfl⟩
  | cons prepared notes ih =>
    obtain ⟨hfirst, hnodup⟩ := pairwise_cons.1 hnodup
    have hready := hplaces.ready prepared mem_cons_self
    have hdepth := hplaces.depth_eq prepared mem_cons_self
    rw [restoreNotes] at h
    rcases hrun : restoreNote call prepared t with ⟨result, t₁⟩
    cases result with
    | error error =>
      rw [Attempt.bind_run_error hrun] at h
      cases h
    | ok _ =>
      rw [Attempt.bind_run_ok hrun] at h
      have hwrote := wrote_of_restoreNote hready hrun
      have hplaces₁ : Places depth t₁ (prepared :: notes) := hplaces.wrote hdepth hwrote
      obtain ⟨hnotes, hothers⟩ := ih
        ⟨fun q hq => hplaces₁.ready q (mem_cons_of_mem _ hq),
          fun q hq => hplaces₁.depth_eq q (mem_cons_of_mem _ hq)⟩ hnodup h
      constructor
      · intro q hq
        rcases mem_cons.1 hq with rfl | hq
        · rw [hothers _ hfirst, hwrote.fileAt_self]
        · exact hnotes q hq
      · intro p hp
        rw [hothers p fun q hq => hp q (mem_cons_of_mem _ hq),
          hwrote.files p (hp prepared mem_cons_self)]

/-! ## Runs of a batch -/

structure Prepared (depth : ℕ) (t : VaultTree) (notes : List PreparedWrite) : Prop where
  places : Places depth t notes
  original : ∀ q ∈ notes, t.fileAt q.path = q.original.map .bytes
  nodup : notes.Pairwise fun q r => q.path ≠ r.path
  /-- No note has the name of a temporary file. -/
  temporary : ∀ q ∈ notes, ∀ r ∈ notes, ∀ id, temporaryPath r.path id ≠ q.path

/-- The tree in a run of a batch, where no file has changed but at the places of `done`. -/
structure Progress (depth : ℕ) (all done : List PreparedWrite) (t₀ t : VaultTree) : Prop where
  places : Places depth t all
  files : ∀ p, (∀ q ∈ done, p ≠ q.path) → t.fileAt p = t₀.fileAt p
  nodes : ∀ p : VaultPath, depth ≤ p.length → (∀ q ∈ done, p ≠ q.path) → t.node p = t₀.node p

/-- The batch comes to a note whose temporary file is made and then cannot be put in its place. -/
def LeavesTemporary (t : VaultTree) (call : BatchCall) : List PreparedWrite → Prop
  | [] => False
  | prepared :: rest =>
    CanStage t prepared.path (call.write prepared.write.relativePath) ∧
      ((call.write prepared.write.relativePath).fault = none → LeavesTemporary t call rest)

variable {α : Type} {error e : VaultError}

theorem failBatch_failed
    (hprepared : Prepared depth t₀ (done ++ rest)) (hplaces : Places depth t (done ++ rest))
    (h : (failBatch call done error : Attempt VaultTree BatchError α) t =
      (.error (.failed e), t')) : (∀ q ∈ done, t'.fileAt q.path = t₀.fileAt q.path) ∧
      ∀ p, (∀ q ∈ done, p ≠ q.path) → t'.fileAt p = t.fileAt p := by
  unfold failBatch at h
  split at h
  next tree hrun =>
    cases h
    have hdone : ∀ q, q ∈ done.reverse ↔ q ∈ done := fun q => mem_reverse
    have hmem : ∀ q ∈ done.reverse, q ∈ done ++ rest := fun q hq =>
      mem_append_left rest ((hdone q).1 hq)
    have hnodup : done.reverse.Pairwise fun q r => q.path ≠ r.path :=
      pairwise_reverse.2 ((pairwise_append.1 hprepared.nodup).1.imp Ne.symm)
    obtain ⟨hnotes, hothers⟩ := restoreNotes_ok
      ⟨fun q hq => hplaces.ready q (hmem q hq), fun q hq => hplaces.depth_eq q (hmem q hq)⟩
      hnodup hrun
    constructor
    · intro q hq
      rw [hnotes q ((hdone q).2 hq), hprepared.original q (mem_append_left rest hq)]
    · exact fun p hp => hothers p fun q hq => hp q ((hdone q).1 hq)
  next => cases h

theorem failBatch_error (call : BatchCall) (done : List PreparedWrite)
    (error : VaultError) (t : VaultTree) :
    ∃ e t', (failBatch call done error : Attempt VaultTree BatchError α) t = (.error e, t') := by
  unfold failBatch
  split
  · exact ⟨_, _, rfl⟩
  · exact ⟨_, _, rfl⟩

theorem failBatch_unchanged (hprepared : Prepared depth t₀ (done ++ rest))
    (hprogress : Progress depth (done ++ rest) done t₀ t)
    (h : (failBatch call done error : Attempt VaultTree BatchError α) t =
      (.error (.failed e), t')) (p : VaultPath) : t'.fileAt p = t₀.fileAt p := by
  obtain ⟨hnotes, hothers⟩ := failBatch_failed hprepared hprogress.places h
  by_cases hp : ∃ q ∈ done, p = q.path
  · obtain ⟨q, hq, rfl⟩ := hp
    exact hnotes q hq
  · have hother : ∀ q ∈ done, p ≠ q.path := fun q hq heq => hp ⟨q, hq, heq⟩
    rw [hothers p hother, hprogress.files p hother]

theorem canStage_iff (hprepared : Prepared depth t₀ (done ++ prepared :: rest))
    (hprogress : Progress depth (done ++ prepared :: rest) done t₀ t) (wcall : WriteCall) :
    CanStage t prepared.path wcall ↔ CanStage t₀ prepared.path wcall := by
  have hmem : prepared ∈ done ++ prepared :: rest := mem_append_right _ mem_cons_self
  have hready := hprogress.places.ready prepared hmem
  have hdepth := hprogress.places.depth_eq prepared hmem
  unfold CanStage
  rw [hprogress.nodes _ (by rw [temporaryPath_length hready.path_ne, hdepth]) fun q hq =>
    hprepared.temporary q (mem_append_left _ hq) prepared hmem wcall.id]

theorem Progress.wrote {file : VaultFile} (h : Progress depth (done ++ prepared :: rest) done t₀ t)
    (hwrote : Wrote prepared.path (some file) t t') :
    Progress depth (done ++ [prepared] ++ rest) (done ++ [prepared]) t₀ t' := by
  have hdepth := h.places.depth_eq prepared (mem_append_right _ mem_cons_self)
  have hsplit : ∀ p : VaultPath, (∀ q ∈ done ++ [prepared], p ≠ q.path) →
      (∀ q ∈ done, p ≠ q.path) ∧ p ≠ prepared.path := fun p hp =>
    ⟨fun q hq => hp q (mem_append_left _ hq),
      hp prepared (mem_append_right _ (mem_singleton_self _))⟩
  refine ⟨?_, fun p hp => ?_, fun p hlength hp => ?_⟩
  · rw [List.append_assoc, singleton_append]
    exact h.places.wrote hdepth hwrote
  · rw [hwrote.files p (hsplit p hp).2, h.files p (hsplit p hp).1]
  · rw [hwrote.nodes p (hdepth.trans_le hlength) (hsplit p hp).2, h.nodes p hlength (hsplit p hp).1]

theorem writePrepared_of_ok (h : writeAtomic prepared.path prepared.write.bytes
    (call.write prepared.write.relativePath) t = (.ok (), t₁)) :
    writePrepared call done (prepared :: rest) t =
      writePrepared call (done ++ [prepared]) rest t₁ := by
  simp only [writePrepared, h]

theorem writePrepared_of_error {error : VaultError}
    (h : writeAtomic prepared.path prepared.write.bytes
      (call.write prepared.write.relativePath) t = (.error error, t₁)) :
    writePrepared call done (prepared :: rest) t = failBatch call done error t₁ := by
  simp only [writePrepared, h]

section

variable (hprepared : Prepared depth t₀ (done ++ rest))
  (hprogress : Progress depth (done ++ rest) done t₀ t)
include hprepared hprogress

/-- The loop over the notes: where it fails and is restored, every file is as it was if no temporary
file is left, and only then. -/
theorem writePrepared_failed {e : VaultError}
    (h : writePrepared call done rest t = (.error (.failed e), t')) :
    (∀ p, t'.fileAt p = t₀.fileAt p) ↔ ¬LeavesTemporary t₀ call rest := by
  induction rest generalizing done t with
  | nil =>
    refine iff_of_true ?_ not_false
    cases hcommit : call.commit with
    | ok revision =>
      rw [writePrepared, hcommit] at h
      cases h
    | error error =>
      rw [writePrepared, hcommit] at h
      exact failBatch_unchanged hprepared hprogress h
  | cons prepared rest ih =>
    have hmem : prepared ∈ done ++ prepared :: rest := mem_append_right _ mem_cons_self
    have hready := hprogress.places.ready prepared hmem
    have hdepth := hprogress.places.depth_eq prepared hmem
    have hiff := canStage_iff hprepared hprogress (call.write prepared.write.relativePath)
    by_cases hstage : CanStage t prepared.path (call.write prepared.write.relativePath)
    · by_cases hfault : (call.write prepared.write.relativePath).fault = none
      · obtain ⟨t₁, hrun, hwrote⟩ :=
          writeAtomic_ok prepared.write.bytes hready hstage.1 hfault
        rw [writePrepared_of_ok hrun] at h
        have hnext : done ++ prepared :: rest = done ++ [prepared] ++ rest := append_cons ..
        rw [ih (hnext ▸ hprepared) (hprogress.wrote hwrote) h, LeavesTemporary]
        simp [hiff.1 hstage, hfault]
      · obtain ⟨t₁, content, hrun, hstaged⟩ :=
          writeAtomic_staged prepared.write.bytes hready hstage hfault
        rw [writePrepared_of_error hrun] at h
        have hleaves : LeavesTemporary t₀ call (prepared :: rest) :=
          ⟨hiff.1 hstage, fun hnone => absurd hnone hfault⟩
        refine iff_of_false (fun hsame => ?_) (not_not.2 hleaves)
        have htemporary := temporaryPath_length hready.path_ne
          (call.write prepared.write.relativePath).id
        have hplaces : Places depth t₁ (done ++ prepared :: rest) :=
          ⟨fun q hq => (hprogress.places.ready q hq).staged hstaged
            ((hprogress.places.depth_eq q hq).trans hdepth.symm) htemporary,
            hprogress.places.depth_eq⟩
        have hleft := (failBatch_failed hprepared hplaces h).2 _ fun q hq =>
          hprepared.temporary q (mem_append_left _ hq) prepared hmem
            (call.write prepared.write.relativePath).id
        rw [hsame, FileTree.fileAt_eq_some.2 hstaged.file,
          FileTree.fileAt_of_none (hiff.1 hstage).1] at hleft
        cases hleft
    · obtain ⟨t₁, hrun, hfiles, hnodes⟩ :=
        writeAtomic_unstaged prepared.write.bytes hready hstage
      rw [writePrepared_of_error hrun] at h
      have hprogress₁ : Progress depth (done ++ prepared :: rest) done t₀ t₁ := by
        refine ⟨⟨fun q hq => ?_, hprogress.places.depth_eq⟩, fun p hp => ?_, fun p hlength hp => ?_⟩
        · have hq' := hprogress.places.depth_eq q hq
          refine (hprogress.places.ready q hq).of_same prepared.path
            (fun p _ => hfiles p) (by omega) ?_
          rw [hnodes q.path (by omega)]
          exact (hprogress.places.ready q hq).place
        · rw [hfiles p, hprogress.files p hp]
        · rw [hnodes p (by omega), hprogress.nodes p hlength hp]
      refine iff_of_true (failBatch_unchanged hprepared hprogress₁ h) fun hleaves => ?_
      exact hstage (hiff.2 hleaves.1)

theorem writePrepared_of_leaves (h : LeavesTemporary t₀ call rest) :
    ∃ e t', writePrepared call done rest t = (.error e, t') := by
  induction rest generalizing done t with
  | nil => exact h.elim
  | cons prepared rest ih =>
    have hready := hprogress.places.ready prepared (mem_append_right _ mem_cons_self)
    have hstage := (canStage_iff hprepared hprogress _).2 h.1
    by_cases hfault : (call.write prepared.write.relativePath).fault = none
    · obtain ⟨t₁, hrun, hwrote⟩ :=
        writeAtomic_ok prepared.write.bytes hready hstage.1 hfault
      rw [writePrepared_of_ok hrun]
      have hnext : done ++ prepared :: rest = done ++ [prepared] ++ rest := append_cons ..
      exact ih (hnext ▸ hprepared) (hprogress.wrote hwrote) (h.2 hfault)
    · obtain ⟨t₁, content, hrun, -⟩ :=
        writeAtomic_staged prepared.write.bytes hready hstage hfault
      rw [writePrepared_of_error hrun]
      exact failBatch_error call done .io t₁

end

end

/-! ## What is prepared -/

section

variable {env : VaultEnv} {spaceId : Uuid} {homeBundleId : List Char} {call : BatchCall}
  {t : VaultTree} {write : VaultNoteWrite} {prepared : PreparedWrite}

theorem node_below_none {path rest : VaultPath} (h : t.node path = none) :
    t.node (path ++ rest) = none := by
  by_cases hrest : rest = []
  · rw [hrest, append_nil, h]
  · by_contra hnode
    rw [FileTree.node_of_append hnode hrest] at h
    cases h

theorem rejectSymlinks_ok {current names : VaultPath} (h : rejectSymlinks t current names = .ok ())
    (hcurrent : t.fileAt current = none) :
    ∀ p, p <+: names → p ≠ names → t.fileAt (current ++ p) = none := by
  induction names generalizing current with
  | nil => exact fun p hp hne => absurd (prefix_nil.1 hp) hne
  | cons name names ih =>
    intro p hp hne
    rcases prefix_cons_iff.1 hp with rfl | ⟨p, rfl, hrest⟩
    · rwa [append_nil]
    have hne' : p ≠ names := fun heq => hne (heq ▸ rfl)
    rw [append_cons]
    unfold rejectSymlinks at h
    dsimp only at h
    split at h
    · cases h
    · split_ifs at h with hlast
      rw [hlast] at hrest hne'
      exact absurd (prefix_nil.1 hrest) hne'
    next hdir =>
      refine ih h ?_ p hrest hne'
      unfold FileTree.fileAt
      rw [hdir]
    next hnone => exact FileTree.fileAt_of_none (node_below_none hnone)

variable {relativePath : List Char}

theorem segments_of_validate (h : validateNoteRelativePath env relativePath = .ok ()) :
    ∃ directory fileName, segments relativePath = [directory, fileName] ∧
      mdSuffix <:+ fileName := by
  unfold validateNoteRelativePath at h
  split at h
  next directory fileName hsegments =>
    split_ifs at h with hvalid
    rw [Bool.and_eq_true, Bool.and_eq_true] at hvalid
    exact ⟨directory, fileName, hsegments, isSuffixOf_iff_suffix.1 hvalid.1.2⟩
  next => cases h

theorem vaultNotePath_ok {path : VaultPath}
    (h : vaultNotePath env spaceId homeBundleId relativePath = .ok path) :
    path = domainRoot spaceId homeBundleId ++ segments relativePath ∧
      ∃ directory fileName, segments relativePath = [directory, fileName] ∧
        mdSuffix <:+ fileName := by
  unfold vaultNotePath at h
  obtain ⟨⟨⟩, -, ⟨⟩, hvalid, h⟩ := bind₂_eq_ok.1 h
  cases h
  exact ⟨rfl, segments_of_validate hvalid⟩

theorem prepareWrite_ok (h : prepareWrite env spaceId homeBundleId call t write = .ok prepared) :
    prepared.write = write ∧
      prepared.path = domainRoot spaceId homeBundleId ++ segments write.relativePath ∧
      (∃ directory fileName, segments write.relativePath = [directory, fileName] ∧
        mdSuffix <:+ fileName) ∧
      Ready t prepared.path ∧ t.fileAt prepared.path = prepared.original.map .bytes := by
  unfold prepareWrite at h
  obtain ⟨path, hpath, ⟨⟩, hlinks, h⟩ := bind₂_eq_ok.1 h
  obtain ⟨hpath, hsegments⟩ := vaultNotePath_ok hpath
  have hne : path ≠ [] := by
    rw [hpath]
    simp [domainRoot]
  have hroot : t.fileAt [] = none := by
    unfold FileTree.fileAt
    rw [t.root]
  have hway : ∀ p, p <+: path.dropLast → t.fileAt p = none := by
    intro p hp
    refine rejectSymlinks_ok hlinks hroot p (hp.trans ( dropLast_prefix path)) fun heq => ?_
    exact not_prefix_of_length hne le_rfl (heq ▸ hp)
  split at h
  · cases h
  split at h
  next content hnode =>
    cases h
    exact ⟨rfl, hpath, hsegments, ⟨hne, hway, by rw [hnode]; simp⟩, FileTree.fileAt_eq_some.2 hnode⟩
  next hnode =>
    cases h
    exact ⟨rfl, hpath, hsegments, ⟨hne, hway, by rw [hnode]; simp⟩, FileTree.fileAt_of_none hnode⟩
  next => cases h

theorem segments_injective {a b : List Char} (h : segments a = segments b) : a = b := by
  have hjoin := congrArg (List.intercalate ['/']) h
  rwa [segments, segments, intercalate_splitOn, intercalate_splitOn] at hjoin

variable {writes : List VaultNoteWrite} {notes : List PreparedWrite}

theorem prepareWrites_ok {seen : List (List Char)}
    (h : prepareWrites env spaceId homeBundleId call t seen writes = .ok notes) :
    (∀ q ∈ notes, q.write.relativePath ∉ seen ∧
      prepareWrite env spaceId homeBundleId call t q.write = .ok q) ∧
      notes.Pairwise fun q r => q.write.relativePath ≠ r.write.relativePath := by
  induction writes generalizing seen notes with
  | nil =>
    cases h
    exact ⟨fun q hq => absurd hq not_mem_nil, List.Pairwise.nil⟩
  | cons write writes ih =>
    change ite (write.relativePath ∈ seen) _ _ = _ at h
    split_ifs at h with hseen
    obtain ⟨prepared, hprepare, rest, hrest, h⟩ := bind₂_eq_ok.1 h
    cases h
    obtain ⟨hnotes, hnodup⟩ := ih hrest
    have hwrite := (prepareWrite_ok hprepare).1
    refine ⟨fun q hq => ?_, pairwise_cons.2 ⟨fun q hq heq => ?_, hnodup⟩⟩
    · rcases mem_cons.1 hq with rfl | hq
      · rw [hwrite]
        exact ⟨hseen, hprepare⟩
      · obtain ⟨hnot, hq⟩ := hnotes q hq
        exact ⟨fun hmem => hnot (mem_cons_of_mem _ hmem), hq⟩
    · rw [hwrite] at heq
      exact (hnotes q hq).1 (heq ▸ mem_cons_self)

/-! ## Temporary files are no notes -/

theorem digitChar_ne_dot {d : ℕ} (h : d < 16) : d.digitChar ≠ '.' := by
  decide +revert

theorem dot_notMem_toText (id : Uuid) : '.' ∉ (Uuid.toText id).toList := by
  intro hdot
  have hmem : '.' ∈ (Uuid.toText id).toList.filter (· ≠ '-') := List.mem_filter.2 ⟨hdot, by decide⟩
  rw [Uuid.filter_toText] at hmem
  obtain ⟨i, -, hi⟩ := List.mem_map.1 hmem
  exact digitChar_ne_dot (Nat.mod_lt _ (by omega)) hi

theorem length_toText (id : Uuid) : 32 ≤ (Uuid.toText id).toList.length := by
  have hlength := congrArg List.length (Uuid.filter_toText id)
  rw [List.length_map, length_range] at hlength
  exact hlength ▸ length_filter_le _ _

theorem temporaryPath_ne_note {path parent : VaultPath} {fileName : List Char} (id : Uuid)
    (hfile : mdSuffix <:+ fileName) : temporaryPath path id ≠ parent ++ [fileName] := by
  intro heq
  have hlast := congrArg List.getLast? heq
  rw [temporaryPath, getLast?_concat, getLast?_concat] at hlast
  rw [← Option.some.inj hlast] at hfile
  have hlength := length_toText id
  have hsuffix : mdSuffix <:+ (Uuid.toText id).toList :=
    suffix_of_suffix_length_le hfile (suffix_append _ _)
      (show 3 ≤ (Uuid.toText id).toList.length by omega)
  exact dot_notMem_toText id (hsuffix.subset (by decide))

theorem prepared_of_prepareWrites
    (h : prepareWrites env spaceId homeBundleId call t [] writes = .ok notes) :
    Prepared 6 t notes := by
  obtain ⟨hnotes, hnodup⟩ := prepareWrites_ok h
  refine ⟨⟨fun q hq => ?_, fun q hq => ?_⟩, fun q hq => ?_, ?_, fun q hq r _ id => ?_⟩
  · exact (prepareWrite_ok (hnotes q hq).2).2.2.2.1
  · obtain ⟨-, hpath, ⟨directory, fileName, hsegments, -⟩, -⟩ := prepareWrite_ok (hnotes q hq).2
    rw [hpath, hsegments]
    rfl
  · exact (prepareWrite_ok (hnotes q hq).2).2.2.2.2
  · refine hnodup.imp_of_mem fun {q r} hq hr hne heq => hne ?_
    rw [(prepareWrite_ok (hnotes q hq).2).2.1, (prepareWrite_ok (hnotes r hr).2).2.1] at heq
    exact segments_injective (append_cancel_left heq)
  · obtain ⟨-, hpath, ⟨directory, fileName, hsegments, hfile⟩, -⟩ :=
      prepareWrite_ok (hnotes q hq).2
    rw [hpath, hsegments, append_cons]
    exact temporaryPath_ne_note id hfile

theorem prepared_of_prepareBatch {expectedGitRevision : Option String}
    (h : prepareBatch env spaceId homeBundleId writes expectedGitRevision call t = .ok notes) :
    Prepared 6 t notes := by
  unfold prepareBatch at h
  obtain ⟨current, -, h⟩ := bind_eq_ok.1 h
  cases expectedGitRevision with
  | none => exact prepared_of_prepareWrites h
  | some expected =>
    dsimp only at h
    split_ifs at h
    exact prepared_of_prepareWrites h

end

/-! ## The batch -/

/-- Where restoring succeeds, a batch that fails leaves every file as it was if it has not left the
temporary file of a note, and only then. -/
theorem writeNotesBatch_restored_iff {env : VaultEnv} {spaceId : Uuid} {homeBundleId : List Char}
    {writes : List VaultNoteWrite} {expectedGitRevision : Option String} {call : BatchCall}
    {t : VaultTree}
    (hrestore : ∀ e, (writeNotesBatch env spaceId homeBundleId writes expectedGitRevision call
      t).1 ≠ .error (.restoring e)) :
    (∀ e, (writeNotesBatch env spaceId homeBundleId writes expectedGitRevision call t).1 =
        .error (.failed e) → ∀ p,
      (writeNotesBatch env spaceId homeBundleId writes expectedGitRevision call t).2.fileAt p =
        t.fileAt p) ↔ ∀ notes, writes ≠ [] →
        prepareBatch env spaceId homeBundleId writes expectedGitRevision call t = .ok notes →
        ¬LeavesTemporary t call notes := by
  unfold writeNotesBatch at hrestore ⊢
  by_cases hempty : writes = []
  · rw [if_pos hempty]
    exact iff_of_true (fun e h => by cases h) fun _ hne => absurd hempty hne
  rw [if_neg hempty] at hrestore ⊢
  cases hprepare : prepareBatch env spaceId homeBundleId writes expectedGitRevision call t with
  | error error => exact iff_of_true (fun _ _ _ => rfl) fun _ _ h => by cases h
  | ok notes =>
    rw [hprepare] at hrestore
    dsimp only at hrestore ⊢
    have hprepared := prepared_of_prepareBatch hprepare
    have hprogress : Progress 6 ([] ++ notes) [] t t :=
      ⟨hprepared.places, fun _ _ => rfl, fun _ _ _ => rfl⟩
    rcases hrun : writePrepared call [] notes t with ⟨result, t'⟩
    rw [hrun] at hrestore
    cases result with
    | ok revision =>
      refine iff_of_true (fun e h => by cases h) ?_
      rintro _ - ⟨⟩ hleaves
      obtain ⟨e, t'', herror⟩ := writePrepared_of_leaves hprepared hprogress hleaves
      rw [hrun] at herror
      cases herror
    | error error =>
      cases error with
      | restoring e => exact absurd rfl (hrestore e)
      | failed e =>
        have hiff := writePrepared_failed hprepared hprogress hrun
        constructor
        · rintro h _ - ⟨⟩
          exact hiff.1 (h e rfl)
        · intro h _ _
          exact hiff.2 (h notes hempty rfl)

/-! ## A batch that fails at its second note -/

def sampleVaultEnv : VaultEnv := ⟨fun _ => true, fun _ => true, fun _ => ""⟩

def sampleBatchCall (fault : Option WriteFault) : BatchCall where
  opened := .ok "head"
  read _ := none
  write path := ⟨1, if path = "notes/b.md".toList then fault else none⟩
  restore _ := ⟨2, none⟩
  removeFails _ := false
  commit := .error .git

def sampleBatchWrites : List VaultNoteWrite :=
  [⟨"notes/a.md".toList, [1]⟩, ⟨"notes/b.md".toList, [2]⟩]

def batchErrorOf : Except BatchError (List VaultNoteState) → Option BatchError
  | .error error => some error
  | .ok _ => none

theorem eq_error_of_batchErrorOf {result : Except BatchError (List VaultNoteState)}
    {error : BatchError} (h : batchErrorOf result = some error) : result = .error error := by
  cases result with
  | ok states => cases h
  | error e => rw [Option.some.inj h]

/-- Where the second note cannot be synced the batch fails, the first one is taken back, and the
temporary file of the second is left. -/
theorem temporary_left :
    ∃ e path, (writeNotesBatch sampleVaultEnv 1 "bundle".toList sampleBatchWrites none
        (sampleBatchCall (some .sync)) (.empty _ _)).1 = .error (.failed e) ∧
      (writeNotesBatch sampleVaultEnv 1 "bundle".toList sampleBatchWrites none
        (sampleBatchCall (some .sync)) (.empty _ _)).2.fileAt path ≠
        (FileTree.empty _ _ : VaultTree).fileAt path := by
  refine ⟨.io, temporaryPath (domainRoot 1 "bundle".toList ++ ["notes".toList, "b.md".toList]) 1,
    eq_error_of_batchErrorOf (by decide +kernel), ?_⟩
  decide +kernel

/-- Where the commit fails all is taken back. -/
theorem batch_restored :
    (∀ e, (writeNotesBatch sampleVaultEnv 1 "bundle".toList sampleBatchWrites none
        (sampleBatchCall none) (.empty _ _)).1 ≠ .error (.restoring e)) ∧
      ((∀ e, (writeNotesBatch sampleVaultEnv 1 "bundle".toList sampleBatchWrites none
          (sampleBatchCall none) (.empty _ _)).1 = .error (.failed e) → ∀ p,
        (writeNotesBatch sampleVaultEnv 1 "bundle".toList sampleBatchWrites none
          (sampleBatchCall none) (.empty _ _)).2.fileAt p =
          (FileTree.empty _ _ : VaultTree).fileAt p) ↔ ∀ notes, sampleBatchWrites ≠ [] →
          prepareBatch sampleVaultEnv 1 "bundle".toList sampleBatchWrites none
            (sampleBatchCall none) (.empty _ _) = .ok notes →
          ¬LeavesTemporary (.empty _ _) (sampleBatchCall none) notes) := by
  have hfailed : (writeNotesBatch sampleVaultEnv 1 "bundle".toList sampleBatchWrites none
      (sampleBatchCall none) (.empty _ _)).1 = .error (.failed .git) :=
    eq_error_of_batchErrorOf (by decide +kernel)
  have hrestore : ∀ e, (writeNotesBatch sampleVaultEnv 1 "bundle".toList sampleBatchWrites none
      (sampleBatchCall none) (.empty _ _)).1 ≠ .error (.restoring e) := by
    intro e he
    rw [hfailed] at he
    cases he
  exact ⟨hrestore, writeNotesBatch_restored_iff hrestore⟩

end Gadgetron.Knowledge
