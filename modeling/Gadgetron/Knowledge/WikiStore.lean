import Gadgetron.Lib.Exec
import Gadgetron.Lib.FileTree
import Gadgetron.Lib.Text

/-!
# The pages of a wiki

`Wiki::write` and `Wiki::delete` on the files below the root of a wiki.  A page that is deleted is
moved below `_archived`, to a path that its name and the date of the day make up.
-/

namespace Gadgetron.Knowledge

open Lib List

abbrev WikiPath := List (List Char)

abbrev WikiDisk := FileTree (List Char) String

/-- `WikiError`, as the operations on the files raise it. -/
inductive WikiStoreError
  | pathEscape (userInput : String)
  | pageTooLarge (path : String) (bytes limit : ℕ)
  | credentialBlocked (path pattern : String)
  | pageNotFound (path : String)
  | io
  | git (reason : String)
  deriving DecidableEq

def mdSuffix : List Char := ".md".toList

def maxInputBytes : ℕ := 256

def segments (text : List Char) : List (List Char) := text.splitOn '/'

/-- The components of a text without any `..`. -/
def components (text : List Char) : WikiPath :=
  (segments text).filter fun segment => segment ≠ [] && segment ≠ ['.']

/-- `resolve_path`, without links: a path is canonical without its empty components and those that
are `.`. -/
def resolvePath (userInput : String) : Except WikiStoreError WikiPath :=
  let text := userInput.toList
  if userInput = "" || maxInputBytes < userInput.utf8ByteSize then .error (.pathEscape userInput)
  else if text.any isControl then .error (.pathEscape userInput)
  else if '\\' ∈ text then .error (.pathEscape userInput)
  else if text.head? = some '/' || text.head? = some '~' then .error (.pathEscape userInput)
  else if ['.', '.'] ∈ segments text then .error (.pathEscape userInput)
  else .ok (components (if mdSuffix.isSuffixOf text then text else text ++ mdSuffix))

def padded (width n : ℕ) : List Char :=
  let digits := Nat.toDigits 10 n
  List.replicate (width - digits.length) '0' ++ digits

structure Date where
  (year month day : ℕ)

/-- `%Y-%m-%d`. -/
def Date.format (date : Date) : List Char :=
  padded 4 date.year ++ '-' :: padded 2 date.month ++ '-' :: padded 2 date.day

def archiveDir : List Char := "_archived".toList

def hasMdExtension (path : WikiPath) : Bool :=
  path.getLast?.any fun fileName => mdSuffix.isSuffixOf fileName && fileName ≠ mdSuffix

/-- `archive_abs` in `delete`, from the root of the wiki on. -/
def archivePath (date : Date) (name : String) : List Char :=
  let archiveRel := archiveDir ++ '/' :: date.format ++ '/' :: name.toList
  if hasMdExtension (components archiveRel) then archiveRel else archiveRel ++ mdSuffix

/-- `trim_end_matches(MD_SUFFIX)`, on a text from its end. -/
def trimEndMatches : List Char → List Char
  | 'd' :: 'm' :: '.' :: rest => trimEndMatches rest
  | text => text

/-! ## Operations -/

/-- `blockPatterns` gives the names of the patterns that `check_block_patterns` finds. -/
structure WikiConfig where
  maxPageBytes : ℕ
  autocommit : Bool
  blockPatterns : String → List String

/-- What the file system refuses for reasons of its own, as a name that is too long or a disk that
is full. -/
inductive Fault
  | none
  /-- After this number of directories. -/
  | createDirs (made : ℕ)
  | open
  /-- After so much of the content. -/
  | write (written : String)
  | rename
  deriving DecidableEq

structure WriteResult where
  name : String
  commitOid : Option String
  bytes : ℕ

namespace WikiDisk

def attempt (disk : WikiDisk) (result : Option WikiDisk) : WikiDisk × Bool :=
  (result.getD disk, result.isSome)

def createDirs (disk : WikiDisk) (path : WikiPath) (fault : Fault) : WikiDisk × Bool :=
  match fault with
  | .createDirs made => ((attempt disk (disk.createDirAll (path.take made))).1, false)
  | _ => attempt disk (disk.createDirAll path)

def writePage (disk : WikiDisk) (path : WikiPath) (content : String) (fault : Fault) :
    WikiDisk × Bool :=
  match fault with
  | .open => (disk, false)
  | .write written => ((attempt disk (disk.writeFile path written)).1, false)
  | _ => attempt disk (disk.writeFile path content)

/-- `fs::rename`, which fails on a target that ends in `.`, and with a file on one that ends in
a slash. -/
def renamePage (disk : WikiDisk) (path : WikiPath) (target : List Char) (fault : Fault) :
    WikiDisk × Bool :=
  let last := (segments target).getLast?
  if fault = .rename || last = some ['.'] ||
      last = some [] && disk.node path ≠ some .directory then (disk, false)
  else attempt disk (disk.rename path (components target))

end WikiDisk

namespace WikiConfig

variable (config : WikiConfig)

/-- The first layers of `write`. -/
def checkContent (name content : String) : Except WikiStoreError Unit :=
  if config.maxPageBytes < content.utf8ByteSize then
    .error (.pageTooLarge name content.utf8ByteSize config.maxPageBytes)
  else
    match config.blockPatterns content with
    | pattern :: _ => .error (.credentialBlocked name pattern)
    | [] => .ok ()

/-- The last layer of `write` and `delete`; `git` is what the commit comes to. -/
def commit (git : Except String String) : Except WikiStoreError (Option String) :=
  if config.autocommit then
    match git with
    | .ok oid => .ok (some oid)
    | .error reason => .error (.git reason)
  else .ok none

def read (disk : WikiDisk) (name : String) : Except WikiStoreError String :=
  match resolvePath name with
  | .error e => .error e
  | .ok canonical =>
    match disk.node canonical with
    | some (.file content) => .ok content
    | _ => .error .io

def write (disk : WikiDisk) (name content : String) (fault : Fault)
    (git : Except String String) : WikiDisk × Except WikiStoreError WriteResult :=
  match (config.checkContent name content).bind fun () => resolvePath name with
  | .error e => (disk, .error e)
  | .ok canonical =>
    match disk.createDirs canonical.dropLast fault with
    | (disk, false) => (disk, .error .io)
    | (disk, true) =>
      match disk.writePage canonical content fault with
      | (disk, false) => (disk, .error .io)
      | (disk, true) =>
        (disk, (config.commit git).map fun oid =>
          { name
            commitOid := oid
            bytes := content.utf8ByteSize })

def delete (disk : WikiDisk) (name : String) (date : Date) (fault : Fault)
    (git : Except String String) : WikiDisk × Except WikiStoreError String :=
  match resolvePath name with
  | .error e => (disk, .error e)
  | .ok canonical =>
    if disk.node canonical = none then (disk, .error (.pageNotFound name))
    else
      let archiveAbs := archivePath date name
      match disk.createDirs (components archiveAbs).dropLast fault with
      | (disk, false) => (disk, .error .io)
      | (disk, true) =>
        match disk.renamePage canonical archiveAbs fault with
        | (disk, false) => (disk, .error .io)
        | (disk, true) =>
          (disk, (config.commit git).map fun _ =>
            String.ofList (trimEndMatches archiveAbs.reverse).reverse)

end WikiConfig

/-! ## The wiki over time -/

/-- The files of the wiki, and what the pages contained that have been deleted. -/
structure WikiState where
  disk : WikiDisk
  deleted : List String

inductive WikiLabel
  | write (name content : String) (fault : Fault) (git : Except String String)
  | delete (name : String) (date : Date) (fault : Fault) (git : Except String String)

namespace WikiState

def initial (disk : WikiDisk) : WikiState where
  disk := disk
  deleted := []

end WikiState

/-- What the page contains, if the delete succeeds. -/
def deletedContent (disk : WikiDisk) (name : String) (result : Except WikiStoreError String) :
    List String :=
  match result, WikiConfig.read disk name with
  | .ok _, .ok content => [content]
  | _, _ => []

abbrev wikiMachine (config : WikiConfig) : Machine WikiState WikiLabel where
  step s
    | .write name content fault git =>
      some { s with disk := (config.write s.disk name content fault git).1 }
    | .delete name date fault git =>
      let (disk, result) := config.delete s.disk name date fault git
      some { disk, deleted := deletedContent s.disk name result ++ s.deleted }

/-! ## What an operation keeps of the archive -/

/-- The path lies in the archive. -/
def UnderArchive (path : WikiPath) : Prop := [archiveDir] <+: path

def Keeps (disk disk' : WikiDisk) : Prop :=
  ∀ path content, UnderArchive path → disk.node path = some (.file content) →
    ∃ path', UnderArchive path' ∧ disk'.node path' = some (.file content)

/-- The operation is to write over a file of the archive: a write to a page that is there, or a
delete of a page whose place is taken. -/
def ReplacesArchived (config : WikiConfig) (s : WikiState) : WikiLabel → Prop
  | .write name content _ _ => ∃ canonical old,
      config.checkContent name content = .ok () ∧ resolvePath name = .ok canonical ∧
      UnderArchive canonical ∧ s.disk.node canonical = some (.file old)
  | .delete name date _ _ => ∃ canonical content old, resolvePath name = .ok canonical ∧
      s.disk.node canonical = some (.file content) ∧
      s.disk.node (components (archivePath date name)) = some (.file old)

variable {config : WikiConfig} {disk disk' disk'' : WikiDisk} {path : WikiPath} {content : String}
  {path' : WikiPath} {fault : Fault} {name : String} {date : Date} {git : Except String String}

theorem Keeps.refl (disk : WikiDisk) : Keeps disk disk :=
  fun path _ hpath hfile => ⟨path, hpath, hfile⟩

theorem Keeps.trans (h : Keeps disk disk') (h' : Keeps disk' disk'') : Keeps disk disk'' := by
  intro path content hpath hfile
  obtain ⟨path', hpath', hfile'⟩ := h path content hpath hfile
  exact h' path' content hpath' hfile'

theorem components_archiveDir (rest : List Char) :
    components (archiveDir ++ '/' :: rest) = archiveDir :: components rest := by
  unfold components segments
  rw [splitOn_append_cons_self_of_not_mem (by decide), filter_cons_of_pos (by decide)]

theorem underArchive_archivePath (date : Date) (name : String) :
    UnderArchive (components (archivePath date name)) := by
  have hrest : ∃ rest, archivePath date name = archiveDir ++ '/' :: rest := by
    unfold archivePath
    dsimp only
    split_ifs
    · exact ⟨_, rfl⟩
    · exact ⟨date.format ++ '/' :: (name.toList ++ mdSuffix), by simp⟩
  obtain ⟨rest, hrest⟩ := hrest
  rw [hrest, components_archiveDir]
  exact prefix_append [archiveDir] _

namespace WikiDisk

theorem attempt_cases (disk : WikiDisk) (result : Option WikiDisk) :
    attempt disk result = (disk, false) ∨
      ∃ disk', result = some disk' ∧ attempt disk result = (disk', true) := by
  cases result with
  | none => exact .inl rfl
  | some disk' => exact .inr ⟨disk', rfl, rfl⟩

theorem createDirs_file : (disk.createDirs path fault).1.node path' = some (.file content) ↔
      disk.node path' = some (.file content) := by
  have hattempt : ∀ dirs, (attempt disk (disk.createDirAll dirs)).1.node path' =
      some (.file content) ↔ disk.node path' = some (.file content) := by
    intro dirs
    rcases attempt_cases disk (disk.createDirAll dirs) with h | ⟨disk', hdirs, h⟩
    · rw [h]
    · rw [h]
      exact FileTree.createDirAll_file hdirs
  unfold createDirs
  split <;> exact hattempt _

theorem keeps_createDirs (disk : WikiDisk) (path : WikiPath) (fault : Fault) :
    Keeps disk (disk.createDirs path fault).1 :=
  fun path _ hpath hfile => ⟨path, hpath, createDirs_file.2 hfile⟩

theorem keeps_writePage (h : UnderArchive path → ∀ old, disk.node path ≠ some (.file old)) :
    Keeps disk (disk.writePage path content fault).1 := by
  have hattempt : ∀ written, Keeps disk (attempt disk (disk.writeFile path written)).1 := by
    intro written
    rcases attempt_cases disk (disk.writeFile path written) with hr | ⟨disk', hwrite, hr⟩
    · rw [hr]
      exact .refl disk
    · rw [hr]
      intro p c hp hfile
      refine ⟨p, hp, ?_⟩
      rw [FileTree.writeFile_node hwrite, if_neg, hfile]
      rintro rfl
      exact h hp c hfile
  unfold writePage
  split
  · exact .refl disk
  · exact hattempt _
  · exact hattempt _

variable {target : List Char}

theorem keeps_renamePage (hunder : UnderArchive (components target))
    (hfree : ∀ content old, disk.node path = some (.file content) →
      disk.node (components target) ≠ some (.file old)) :
    Keeps disk (disk.renamePage path target fault).1 := by
  unfold renamePage
  dsimp only
  split_ifs
  · exact .refl disk
  · rcases attempt_cases disk (disk.rename path (components target)) with
      hr | ⟨disk', hrename, hr⟩
    · rw [hr]
      exact .refl disk
    · rw [hr]
      intro p c hp hfile
      refine ⟨FileTree.relocate path (components target) p, ?_,
        FileTree.rename_file hrename hfile ?_⟩
      · unfold FileTree.relocate
        split_ifs
        · exact hunder.trans (prefix_append _ _)
        · exact hp
      · rintro rfl
        obtain ⟨content, hsrc⟩ := FileTree.file_of_rename hrename hfile
        exact hfree content c hsrc hfile

theorem renamePage_moves (h : (disk.renamePage path target fault).2)
    (hfile : disk.node path = some (.file content)) :
    (disk.renamePage path target fault).1.node (components target) = some (.file content) := by
  unfold renamePage at h ⊢
  dsimp only at h ⊢
  split_ifs at h ⊢
  rcases attempt_cases disk (disk.rename path (components target)) with
    hr | ⟨disk', hrename, hr⟩
  · rw [hr] at h
    cases h
  · rw [hr]
    exact FileTree.rename_self hrename hfile

end WikiDisk

namespace WikiConfig

theorem read_eq_ok : read disk name = .ok content ↔
    ∃ canonical, resolvePath name = .ok canonical ∧ disk.node canonical = some (.file content) := by
  unfold read
  cases resolvePath name with
  | error e => simp
  | ok canonical =>
    simp only [Except.ok.injEq, exists_eq_left']
    split <;> simp_all

theorem keeps_write {s : WikiState}
    (h : ¬ ReplacesArchived config s (.write name content fault git)) :
    Keeps s.disk (config.write s.disk name content fault git).1 := by
  unfold write
  split
  · exact .refl _
  · rename_i canonical hchecked
    obtain ⟨_, hcontent, hresolved⟩ := bind_eq_ok.1 hchecked
    have hdirs := WikiDisk.keeps_createDirs s.disk canonical.dropLast fault
    have hfree : UnderArchive canonical → ∀ old,
        (s.disk.createDirs canonical.dropLast fault).1.node canonical ≠ some (.file old) :=
      fun hunder old hfile =>
        h ⟨canonical, old, hcontent, hresolved, hunder, WikiDisk.createDirs_file.1 hfile⟩
    split
    · rename_i disk hcreated
      rwa [hcreated] at hdirs
    · rename_i disk hcreated
      rw [hcreated] at hdirs hfree
      have hpage : Keeps disk (disk.writePage canonical content fault).1 :=
        WikiDisk.keeps_writePage hfree
      split
      all_goals
        rename_i disk' hwritten
        rw [hwritten] at hpage
        exact hdirs.trans hpage

theorem keeps_delete {s : WikiState}
    (h : ¬ ReplacesArchived config s (.delete name date fault git)) :
    Keeps s.disk (config.delete s.disk name date fault git).1 := by
  unfold delete
  split
  · exact .refl _
  · rename_i canonical hresolved
    split_ifs
    · exact .refl _
    · dsimp only
      have hdirs := WikiDisk.keeps_createDirs s.disk
        (components (archivePath date name)).dropLast fault
      have hfree : ∀ content old,
          (s.disk.createDirs (components (archivePath date name)).dropLast fault).1.node canonical =
            some (.file content) →
          (s.disk.createDirs (components (archivePath date name)).dropLast fault).1.node
            (components (archivePath date name)) ≠ some (.file old) :=
        fun content old hfile hold => h ⟨canonical, content, old, hresolved,
          WikiDisk.createDirs_file.1 hfile, WikiDisk.createDirs_file.1 hold⟩
      split
      · rename_i disk hcreated
        rwa [hcreated] at hdirs
      · rename_i disk hcreated
        rw [hcreated] at hdirs hfree
        have hpage : Keeps disk (disk.renamePage canonical (archivePath date name) fault).1 :=
          WikiDisk.keeps_renamePage (underArchive_archivePath date name) hfree
        split
        all_goals
          rename_i disk' hrenamed
          rw [hrenamed] at hpage
          exact hdirs.trans hpage

theorem delete_archives {archived : String}
    (h : (config.delete disk name date fault git).2 = .ok archived)
    (hread : read disk name = .ok content) :
    (config.delete disk name date fault git).1.node (components (archivePath date name)) =
      some (.file content) := by
  obtain ⟨canonical, hresolved, hfile⟩ := read_eq_ok.1 hread
  have hsome : disk.node canonical ≠ none := by simp [hfile]
  simp only [delete, hresolved, if_neg hsome] at h ⊢
  split at h
  · cases h
  · rename_i disk₁ hcreated
    have hfile₁ :
        (disk.createDirs (components (archivePath date name)).dropLast fault).1.node canonical =
          some (.file content) := WikiDisk.createDirs_file.2 hfile
    rw [hcreated] at hfile₁
    split at h
    · cases h
    · rename_i disk₂ hrenamed
      have hmoved : (disk₁.renamePage canonical (archivePath date name) fault).1.node
          (components (archivePath date name)) = some (.file content) :=
        WikiDisk.renamePage_moves (by rw [hrenamed]) hfile₁
      rwa [hrenamed] at hmoved

end WikiConfig

/-! ## Runs -/

def Archived (s : WikiState) : Prop :=
  ∀ content ∈ s.deleted, ∃ path, UnderArchive path ∧ s.disk.node path = some (.file content)

theorem mem_deletedContent {result : Except WikiStoreError String} :
    content ∈ deletedContent disk name result ↔
      (∃ archived, result = .ok archived) ∧ WikiConfig.read disk name = .ok content := by
  unfold deletedContent
  cases result <;> cases WikiConfig.read disk name <;> simp [eq_comm]

theorem Archived.step {s s' : WikiState} {a : WikiLabel} (h : Archived s)
    (hkeeps : ¬ ReplacesArchived config s a) (hstep : (wikiMachine config).step s a = some s') :
    Archived s' := by
  cases a with
  | write name content fault git =>
    obtain rfl := Option.some.inj hstep
    intro old hold
    obtain ⟨path, hpath, hfile⟩ := h old hold
    exact WikiConfig.keeps_write hkeeps path old hpath hfile
  | delete name date fault git =>
    obtain rfl := Option.some.inj hstep
    intro old hold
    rcases mem_append.1 hold with hnew | hold
    · obtain ⟨⟨archived, hok⟩, hread⟩ := mem_deletedContent.1 hnew
      exact ⟨_, underArchive_archivePath date name, WikiConfig.delete_archives hok hread⟩
    · obtain ⟨path, hpath, hfile⟩ := h old hold
      exact WikiConfig.keeps_delete hkeeps path old hpath hfile

/-- If no operation of a run writes over a file of the archive, then what the deleted pages
contained is all in the archive. -/
theorem soft_delete_keeps (config : WikiConfig) (disk : WikiDisk) {as : List WikiLabel}
    {s : WikiState} (hrun : (wikiMachine config).exec (WikiState.initial disk) as = some s)
    (hkeeps : (wikiMachine config).Meets (fun s a => ¬ ReplacesArchived config s a)
      (WikiState.initial disk) as) : ∀ content ∈ s.deleted,
      ∃ path, UnderArchive path ∧ s.disk.node path = some (.file content) :=
  Machine.invariant_of_meets _ (I := Archived) (fun _ _ _ h hkeeps hstep => h.step hkeeps hstep)
    (fun _ hnone => absurd hnone not_mem_nil) hkeeps hrun

def isFile (disk : WikiDisk) (path : WikiPath) : Bool :=
  match disk.node path with
  | some (.file _) => true
  | _ => false

def sparesArchive (s : WikiState) : WikiLabel → Bool
  | .write name _ _ _ =>
    match resolvePath name with
    | .ok canonical => canonical.head? ≠ some archiveDir
    | .error _ => true
  | .delete name date _ _ => !isFile s.disk (components (archivePath date name))

theorem not_replacesArchived_of_sparesArchive {s : WikiState} {a : WikiLabel}
    (h : sparesArchive s a) : ¬ ReplacesArchived config s a := by
  cases a with
  | write name content fault git =>
    rintro ⟨canonical, old, -, hresolved, ⟨rest, rfl⟩, -⟩
    simp [sparesArchive, hresolved] at h
  | delete name date fault git =>
    rintro ⟨canonical, content, old, -, -, hold⟩
    simp [sparesArchive, isFile, hold] at h

def sampleConfig : WikiConfig where
  maxPageBytes := 1000
  autocommit := false
  blockPatterns := fun _ => []

def sampleWrite (name content : String) : WikiLabel := .write name content .none (.error "")

def sampleDelete (name : String) (day : ℕ) : WikiLabel :=
  .delete name ⟨2026, 7, day⟩ .none (.error "")

def sampleRun : List WikiLabel :=
  [sampleWrite "topics/page" "first", sampleDelete "topics/page" 1,
    sampleWrite "topics/page" "second"]

theorem soft_delete_keeps_on_other_days :
    ∃ s, (wikiMachine sampleConfig).exec (.initial (.empty _ _))
        (sampleRun ++ [sampleDelete "topics/page" 2]) = some s ∧ s.deleted = ["second", "first"] ∧
      ∃ path, UnderArchive path ∧ s.disk.node path = some (.file "first") := by
  have hdeleted : ((wikiMachine sampleConfig).exec (.initial (.empty _ _))
      (sampleRun ++ [sampleDelete "topics/page" 2])).map (·.deleted) =
        some ["second", "first"] := by decide +kernel
  obtain ⟨s, hs, hdeleted⟩ := Option.map_eq_some_iff.1 hdeleted
  have hspares : (wikiMachine sampleConfig).meetsTest sparesArchive (.initial (.empty _ _))
      (sampleRun ++ [sampleDelete "topics/page" 2]) := by decide +kernel
  refine ⟨s, hs, hdeleted, soft_delete_keeps _ _ hs ?_ "first" (by rw [hdeleted]; simp)⟩
  exact Machine.meets_of_meetsTest _ (fun _ _ => not_replacesArchived_of_sparesArchive) hspares

/-- The page is deleted once more on the same day, and what it contained at first is gone. -/
theorem second_delete_overwrites_first :
    ∃ s, (wikiMachine sampleConfig).exec (.initial (.empty _ _))
        (sampleRun ++ [sampleDelete "topics/page" 1]) = some s ∧
      "first" ∈ s.deleted ∧ ∀ path, s.disk.node path ≠ some (.file "first") := by
  have hgone : ((wikiMachine sampleConfig).exec (.initial (.empty _ _))
      (sampleRun ++ [sampleDelete "topics/page" 1])).any (fun s => "first" ∈ s.deleted &&
        s.disk.paths.all fun path => s.disk.node path ≠ some (.file "first")) := by decide +kernel
  obtain ⟨s, hs, hgone⟩ := (Option.any_eq_true _ _).1 hgone
  simp only [Bool.and_eq_true, decide_eq_true_eq, List.all_eq_true] at hgone
  refine ⟨s, hs, hgone.1, fun path hfile => ?_⟩
  exact hgone.2 path (s.disk.covered path (by simp [hfile])) hfile

end Gadgetron.Knowledge
