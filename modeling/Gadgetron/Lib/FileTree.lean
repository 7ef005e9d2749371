import Mathlib.Data.List.Infix

/-!
# File trees

Files and directories at paths below a root, without links; a path is the list of its
components.
-/

namespace Lib

open List Option Function

inductive Node (γ : Type*)
  | file (content : γ)
  | directory
  deriving DecidableEq

/-- The nodes at their paths; `paths` has all the paths that have a node, and perhaps others. -/
structure FileTree (κ γ : Type*) where
  node : List κ → Option (Node γ)
  paths : List (List κ)
  root : node [] = some .directory
  parent : ∀ path, path ≠ [] → node path ≠ none → node path.dropLast = some .directory
  covered : ∀ path, node path ≠ none → path ∈ paths

namespace FileTree

variable {κ γ : Type*} {t t' : FileTree κ γ} {path src dst rest : List κ} {content : γ}

def empty (κ γ : Type*) : FileTree κ γ where
  node path := match path with
    | [] => some .directory
    | _ :: _ => none
  paths := [[]]
  root := rfl
  parent path hpath h := by
    cases path with
    | nil => exact absurd rfl hpath
    | cons name path => exact absurd rfl h
  covered path h := by
    cases path with
    | nil => exact mem_singleton_self _
    | cons name path => exact absurd rfl h

theorem node_of_append (h : t.node (path ++ rest) ≠ none) (hrest : rest ≠ []) :
    t.node path = some .directory := by
  induction rest using List.reverseRecOn with
  | nil => exact absurd rfl hrest
  | append_singleton rest name ih =>
    have habove := t.parent _ (by simp) h
    rw [← List.append_assoc, dropLast_concat] at habove
    by_cases hnil : rest = []
    · rwa [hnil, append_nil] at habove
    · exact ih (by rw [habove]; simp) hnil

/-! ## New trees -/

section

variable [DecidableEq κ]

/-- A node is put where there is none or a file. -/
def put (t : FileTree κ γ) (path : List κ) (n : Node γ) (hpath : path ≠ [])
    (hold : t.node path ≠ some .directory) (hparent : t.node path.dropLast = some .directory) :
    FileTree κ γ where
  node := Function.update t.node path (some n)
  paths := path :: t.paths
  root := by rw [update_of_ne (Ne.symm hpath), t.root]
  parent p hp h := by
    have habove : t.node p.dropLast = some .directory := by
      by_cases hpp : p = path
      · rwa [hpp]
      · rw [update_of_ne hpp] at h
        exact t.parent p hp h
    rwa [update_of_ne]
    rintro rfl
    exact hold habove
  covered p h := by
    by_cases hpp : p = path
    · exact hpp ▸ mem_cons_self
    · rw [update_of_ne hpp] at h
      exact mem_cons_of_mem _ (t.covered p h)

def bare (t : FileTree κ γ) (path : List κ) : Bool :=
  t.paths.all fun p => !(path <+: p ∧ p ≠ path) || t.node p = none

theorem bare_eq_true : t.bare dst = true ↔ ∀ rest, rest ≠ [] → t.node (dst ++ rest) = none := by
  unfold bare
  rw [List.all_eq_true]
  constructor
  · intro hall rest hrest
    by_contra hnode
    have hbare := hall _ (t.covered _ hnode)
    simp [hrest] at hbare
    exact hnode hbare
  · intro hbare p _
    by_cases hbelow : dst <+: p ∧ p ≠ dst
    · obtain ⟨⟨rest, rfl⟩, hne⟩ := hbelow
      rw [hbare rest fun hnil => hne (by rw [hnil, append_nil])]
      simp
    · simp [hbelow]

/-- What is at `src` may take the place of what is at `dst`: a file that of a file, and a directory
that of an empty directory. -/
def replaceable (t : FileTree κ γ) (src dst : List κ) : Bool :=
  match t.node src, t.node dst with
  | some _, none => true
  | some (.file _), some (.file _) => true
  | some .directory, some .directory => t.bare dst
  | _, _ => false

theorem not_file_of_replaceable (hreplace : t.replaceable src dst) (hrest : rest ≠ []) :
    t.node (dst ++ rest) = none := by
  by_contra hnode
  have hdir := node_of_append hnode hrest
  unfold replaceable at hreplace
  rw [hdir] at hreplace
  split at hreplace
  · cases ‹some Node.directory = none›
  · cases ‹some Node.directory = some (Node.file _)›
  · exact hnode (bare_eq_true.1 hreplace rest hrest)
  · cases hreplace

def relocate (src dst path : List κ) : List κ :=
  if src <+: path then dst ++ path.drop src.length else path

def nodeRenamed (t : FileTree κ γ) (src dst path : List κ) : Option (Node γ) :=
  if dst <+: path then t.node (src ++ path.drop dst.length)
  else if src <+: path then none
  else t.node path

theorem nodeRenamed_append (src dst rest : List κ) :
    t.nodeRenamed src dst (dst ++ rest) = t.node (src ++ rest) := by
  rw [nodeRenamed, if_pos (prefix_append _ _), drop_left]

theorem nodeRenamed_of_not (hdst : ¬ dst <+: path) (hsrc : ¬ src <+: path) :
    t.nodeRenamed src dst path = t.node path := by
  rw [nodeRenamed, if_neg hdst, if_neg hsrc]

theorem of_nodeRenamed_ne_none (h : t.nodeRenamed src dst path ≠ none) :
    (∃ rest, path = dst ++ rest ∧ t.node (src ++ rest) ≠ none) ∨
      ¬ dst <+: path ∧ ¬ src <+: path ∧ t.node path ≠ none := by
  unfold nodeRenamed at h
  split_ifs at h with hdst hsrc
  · obtain ⟨rest, rfl⟩ := hdst
    rw [drop_left] at h
    exact .inl ⟨rest, rfl, h⟩
  · exact absurd rfl h
  · exact .inr ⟨hdst, hsrc, h⟩

theorem nodeRenamed_parent (hbelow : ¬ src <+: dst) (hdst : dst ≠ [])
    (hparent : t.node dst.dropLast = some .directory) (hpath : path ≠ [])
    (h : t.nodeRenamed src dst path ≠ none) :
    t.nodeRenamed src dst path.dropLast = some .directory := by
  rcases of_nodeRenamed_ne_none h with ⟨rest, rfl, hnode⟩ | ⟨hnot, hnot', hnode⟩
  · by_cases hrest : rest = []
    · -- What is above the new place is not below the old one.
      have hlength := length_pos_iff.2 hdst
      rw [hrest, append_nil, nodeRenamed_of_not, hparent]
      · intro hle
        have hle := hle.length_le
        rw [length_dropLast] at hle
        omega
      · exact fun hle => hbelow (hle.trans ( dropLast_prefix dst))
    · have habove := t.parent (src ++ rest) (by simp [hrest]) hnode
      rw [dropLast_append_of_ne_nil hrest] at habove ⊢
      rwa [nodeRenamed_append]
  · rw [nodeRenamed_of_not (fun hle => hnot (hle.trans ( dropLast_prefix path)))
      fun hle => hnot' (hle.trans ( dropLast_prefix path))]
    exact t.parent path hpath hnode

theorem nodeRenamed_covered (h : t.nodeRenamed src dst path ≠ none) :
    path ∈ t.paths ++ t.paths.map (relocate src dst) := by
  rcases of_nodeRenamed_ne_none h with ⟨rest, rfl, hnode⟩ | ⟨-, -, hnode⟩
  · refine mem_append_right _ (List.mem_map.2 ⟨src ++ rest, t.covered _ hnode, ?_⟩)
    rw [relocate, if_pos (prefix_append _ _), drop_left]
  · exact mem_append_left _ (t.covered path hnode)

/-! ## Operations -/

variable [DecidableEq γ]

/-- `mkdir`, where a directory that is there already will do. -/
def createDir (t : FileTree κ γ) (path : List κ) : Option (FileTree κ γ) :=
  if t.node path = some .directory then some t
  else if h : path ≠ [] ∧ t.node path = none ∧ t.node path.dropLast = some .directory then
    some (t.put path .directory h.1 (by rw [h.2.1]; simp) h.2.2)
  else none

/-- The directories from `path` down along `names`. -/
def createDirsBelow (t : FileTree κ γ) (path : List κ) : List κ → Option (FileTree κ γ)
  | [] => some t
  | name :: names =>
    (t.createDir (path ++ [name])).bind fun t => createDirsBelow t (path ++ [name]) names

def createDirAll (t : FileTree κ γ) (path : List κ) : Option (FileTree κ γ) :=
  t.createDirsBelow [] path

def writeFile (t : FileTree κ γ) (path : List κ) (content : γ) : Option (FileTree κ γ) :=
  if h : path ≠ [] ∧ t.node path ≠ some .directory ∧ t.node path.dropLast = some .directory then
    some (t.put path (.file content) h.1 h.2.1 h.2.2)
  else none

/-- `rename`, with everything below; nothing can move below itself. -/
def rename (t : FileTree κ γ) (src dst : List κ) : Option (FileTree κ γ) :=
  if src = dst then some t
  else if h : ¬ src <+: dst ∧ dst ≠ [] ∧ t.node dst.dropLast = some .directory ∧
      t.replaceable src dst then
    some
      { node := t.nodeRenamed src dst
        paths := t.paths ++ t.paths.map (relocate src dst)
        root := by
          have hsrc : src ≠ [] := fun hnil => h.1 (hnil ▸ nil_prefix)
          rw [nodeRenamed_of_not (by simpa using h.2.1) (by simpa using hsrc), t.root]
        parent := fun _ => nodeRenamed_parent h.1 h.2.1 h.2.2.1
        covered := fun _ => nodeRenamed_covered }
  else none

/-! ## What becomes of the files -/

theorem writeFile_node (h : t.writeFile path content = some t') (p : List κ) :
    t'.node p = if p = path then some (.file content) else t.node p := by
  unfold writeFile at h
  split_ifs at h with hput
  obtain rfl := some.inj h
  exact update_apply _ _ _ _

theorem createDir_file (h : t.createDir dst = some t') :
    t'.node path = some (.file content) ↔ t.node path = some (.file content) := by
  unfold createDir at h
  split_ifs at h with hdir hput
  · rw [some.inj h]
  · obtain rfl := some.inj h
    show Function.update t.node dst _ path = _ ↔ _
    by_cases hpath : path = dst
    · subst hpath
      simp [hput.2.1]
    · rw [update_of_ne hpath]

theorem createDirsBelow_file {names : List κ} (h : t.createDirsBelow dst names = some t') :
    t'.node path = some (.file content) ↔ t.node path = some (.file content) := by
  induction names generalizing t dst with
  | nil => rw [some.inj h]
  | cons name names ih =>
    obtain ⟨t₁, hcreate, hrest⟩ := bind_eq_some_iff.1 h
    exact (ih hrest).trans (createDir_file hcreate)

theorem createDirAll_file (h : t.createDirAll dst = some t') :
    t'.node path = some (.file content) ↔ t.node path = some (.file content) :=
  createDirsBelow_file h

theorem rename_file (h : t.rename src dst = some t') (hfile : t.node path = some (.file content))
    (hpath : path ≠ dst) : t'.node (relocate src dst path) = some (.file content) := by
  unfold rename at h
  split_ifs at h with hsame hmove
  · obtain rfl := some.inj h
    subst hsame
    unfold relocate
    split_ifs with hle
    · obtain ⟨rest, rfl⟩ := hle
      rwa [drop_left]
    · exact hfile
  · obtain rfl := some.inj h
    show t.nodeRenamed src dst _ = _
    by_cases hle : src <+: path
    · obtain ⟨rest, rfl⟩ := hle
      rwa [relocate, if_pos (prefix_append _ _), drop_left, nodeRenamed_append]
    · rw [relocate, if_neg hle, nodeRenamed_of_not _ hle, hfile]
      rintro ⟨rest, rfl⟩
      have hnone : t.node (dst ++ rest) = none := not_file_of_replaceable hmove.2.2.2 fun hnil =>
        hpath (by rw [hnil, append_nil])
      rw [hfile] at hnone
      cases hnone

theorem file_of_rename (h : t.rename src dst = some t')
    (hfile : t.node dst = some (.file content)) : ∃ content, t.node src = some (.file content) := by
  unfold rename at h
  split_ifs at h with hsame hmove
  · exact ⟨content, hsame ▸ hfile⟩
  · have hreplace := hmove.2.2.2
    unfold replaceable at hreplace
    rw [hfile] at hreplace
    split at hreplace
    · cases ‹some (Node.file _) = none›
    · exact ⟨_, ‹t.node src = some (.file _)›⟩
    · cases ‹some (Node.file _) = some Node.directory›
    · cases hreplace

theorem rename_self (h : t.rename src dst = some t') (hfile : t.node src = some (.file content)) :
    t'.node dst = some (.file content) := by
  unfold rename at h
  split_ifs at h with hsame hmove
  · rw [← some.inj h, ← hsame, hfile]
  · obtain rfl := some.inj h
    have hnode := nodeRenamed_append (t := t) src dst []
    simp only [append_nil] at hnode
    exact hnode.trans hfile

end

/-! ## One file -/

def fileAt (t : FileTree κ γ) (path : List κ) : Option γ :=
  match t.node path with
  | some (.file content) => some content
  | _ => none

theorem fileAt_eq_some : t.fileAt path = some content ↔ t.node path = some (.file content) := by
  unfold fileAt
  split
  · simp [*]
  · next hno => exact ⟨fun h => absurd h (by simp), fun h => absurd h (hno content)⟩

theorem fileAt_congr (h : t'.node path = t.node path) : t'.fileAt path = t.fileAt path := by
  unfold fileAt
  rw [h]

theorem fileAt_of_none (h : t.node path = none) : t.fileAt path = none := by
  unfold fileAt
  rw [h]

theorem fileAt_eq_of_iff (h : ∀ content, t'.node path = some (.file content) ↔
    t.node path = some (.file content)) : t'.fileAt path = t.fileAt path := by
  apply Option.ext
  intro content
  rw [fileAt_eq_some, fileAt_eq_some]
  exact h content

theorem node_below_file (h : t.node path = some (.file content)) (hrest : rest ≠ []) :
    t.node (path ++ rest) = none := by
  by_contra hnode
  have hdir := node_of_append hnode hrest
  rw [h] at hdir
  cases hdir

section

variable [DecidableEq κ]

def removeFile (t : FileTree κ γ) (path : List κ) : Option (FileTree κ γ) :=
  match h : t.node path with
  | some (.file _) => some
      { node := Function.update t.node path none
        paths := t.paths
        root := by
          rw [update_of_ne, t.root]
          rintro rfl
          rw [t.root] at h
          cases h
        parent := fun p hp hnode => by
          by_cases hpp : p = path
          · rw [hpp, update_self] at hnode
            exact absurd rfl hnode
          · rw [update_of_ne hpp] at hnode
            have habove := t.parent p hp hnode
            rw [update_of_ne, habove]
            rintro rfl
            rw [h] at habove
            cases habove
        covered := fun p hnode => by
          by_cases hpp : p = path
          · rw [hpp, update_self] at hnode
            exact absurd rfl hnode
          · rw [update_of_ne hpp] at hnode
            exact t.covered p hnode }
  | _ => none

theorem removeFile_node (h : t.removeFile path = some t') :
    t'.node = Function.update t.node path none := by
  unfold removeFile at h
  split at h
  · rw [← some.inj h]
  · cases h

variable [DecidableEq γ]

theorem createDirAll_fileAt (h : t.createDirAll dst = some t') (path : List κ) :
    t'.fileAt path = t.fileAt path :=
  fileAt_eq_of_iff fun _ => createDirAll_file h

theorem createDir_node (h : t.createDir dst = some t') (hpath : path ≠ dst) :
    t'.node path = t.node path := by
  unfold createDir at h
  split_ifs at h with hdir hput
  · rw [some.inj h]
  · obtain rfl := some.inj h
    exact update_of_ne hpath _ _

variable {names : List κ}

theorem createDirsBelow_node (h : t.createDirsBelow dst names = some t')
    (hpath : ¬path <+: dst ++ names) : t'.node path = t.node path := by
  induction names generalizing t dst with
  | nil => rw [some.inj h]
  | cons name names ih =>
    obtain ⟨t₁, hcreate, hrest⟩ := bind_eq_some_iff.1 h
    rw [append_cons] at hpath
    rw [ih hrest hpath, createDir_node hcreate]
    rintro rfl
    exact hpath (prefix_append _ _)

theorem createDirAll_node (h : t.createDirAll dst = some t') (hpath : ¬path <+: dst) :
    t'.node path = t.node path := by
  unfold createDirAll at h
  exact createDirsBelow_node h hpath

theorem createDir_self (h : t.createDir dst = some t') : t'.node dst = some .directory := by
  unfold createDir at h
  split_ifs at h with hdir hput
  · rw [← some.inj h, hdir]
  · obtain rfl := some.inj h
    exact update_self _ _ _

theorem createDirsBelow_self (h : t.createDirsBelow dst names = some t')
    (hdst : t.node dst = some .directory) : t'.node (dst ++ names) = some .directory := by
  induction names generalizing t dst with
  | nil => rw [← some.inj h, append_nil, hdst]
  | cons name names ih =>
    obtain ⟨t₁, hcreate, hrest⟩ := bind_eq_some_iff.1 h
    rw [append_cons]
    exact ih hrest (createDir_self hcreate)

theorem createDirAll_self (h : t.createDirAll dst = some t') : t'.node dst = some .directory := by
  unfold createDirAll at h
  exact createDirsBelow_self h t.root

theorem exists_createDirsBelow (hdst : t.node dst = some .directory)
    (h : ∀ path, path <+: dst ++ names → t.fileAt path = none) :
    ∃ t', t.createDirsBelow dst names = some t' := by
  induction names generalizing t dst with
  | nil => exact ⟨t, rfl⟩
  | cons name names ih =>
    rw [append_cons] at h
    have hnot := h (dst ++ [name]) (prefix_append _ _)
    obtain ⟨t₁, hcreate⟩ : ∃ t₁, t.createDir (dst ++ [name]) = some t₁ := by
      unfold createDir
      by_cases hdir : t.node (dst ++ [name]) = some .directory
      · exact ⟨t, if_pos hdir⟩
      · have hnone : t.node (dst ++ [name]) = none := by
          cases hnode : t.node (dst ++ [name]) with
          | none => rfl
          | some n =>
            cases n with
            | file content =>
              rw [fileAt_eq_some.2 hnode] at hnot
              cases hnot
            | directory => exact absurd hnode hdir
        rw [if_neg hdir, dif_pos ⟨by simp, hnone, by rwa [dropLast_concat]⟩]
        exact ⟨_, rfl⟩
    obtain ⟨t', hrest⟩ := ih (createDir_self hcreate) fun path hpath => by
      rw [fileAt_eq_of_iff fun _ => createDir_file hcreate]
      exact h path hpath
    exact ⟨t', bind_eq_some_iff.2 ⟨t₁, hcreate, hrest⟩⟩

theorem exists_createDirAll (h : ∀ path, path <+: dst → t.fileAt path = none) :
    ∃ t', t.createDirAll dst = some t' := by
  unfold createDirAll
  exact exists_createDirsBelow t.root h

theorem exists_writeFile (hpath : path ≠ []) (hold : t.node path ≠ some .directory)
    (hparent : t.node path.dropLast = some .directory) (content : γ) :
    ∃ t', t.writeFile path content = some t' :=
  ⟨_, dif_pos ⟨hpath, hold, hparent⟩⟩

theorem exists_rename (hsrc : t.node src = some (.file content)) (hdst : dst ≠ [])
    (hold : t.node dst ≠ some .directory) (hparent : t.node dst.dropLast = some .directory) :
    ∃ t', t.rename src dst = some t' := by
  unfold rename
  by_cases hsame : src = dst
  · exact ⟨t, if_pos hsame⟩
  · have hbelow : ¬src <+: dst := by
      rintro ⟨rest, rfl⟩
      have hrest : rest ≠ [] := fun hnil => hsame (by rw [hnil, append_nil])
      have hnone : t.node ((src ++ rest).dropLast) = none := by
        rw [dropLast_append_of_ne_nil hrest] at hparent ⊢
        by_cases hlast : rest.dropLast = []
        · rw [hlast, append_nil, hsrc] at hparent
          cases hparent
        · exact node_below_file hsrc hlast
      rw [hparent] at hnone
      cases hnone
    have hreplace : t.replaceable src dst = true := by
      unfold replaceable
      rw [hsrc]
      cases hnode : t.node dst with
      | none => rfl
      | some n =>
        cases n with
        | file old => rfl
        | directory => exact absurd hnode hold
    rw [if_neg hsame, dif_pos ⟨hbelow, hdst, hparent, hreplace⟩]
    exact ⟨_, rfl⟩

theorem rename_file_node (h : t.rename src dst = some t') (hsrc : t.node src = some (.file content))
    (hne : src ≠ dst) (p : List κ) :
    t'.node p = if p = dst then some (.file content) else if p = src then none else t.node p := by
  unfold rename at h
  rw [if_neg hne] at h
  split_ifs at h with hmove
  obtain rfl := some.inj h
  show t.nodeRenamed src dst p = _
  unfold nodeRenamed
  by_cases hdst : dst <+: p
  · obtain ⟨rest, rfl⟩ := hdst
    rw [if_pos (prefix_append _ _), drop_left]
    by_cases hrest : rest = []
    · subst hrest
      rw [append_nil, append_nil, hsrc, if_pos rfl]
    · have hbelow : t.node (dst ++ rest) = none := not_file_of_replaceable hmove.2.2.2 hrest
      rw [node_below_file hsrc hrest, if_neg (by simpa using hrest), hbelow, ite_self]
  · rw [if_neg hdst, if_neg fun heq : p = dst => hdst (heq ▸ prefix_rfl)]
    by_cases hle : src <+: p
    · obtain ⟨rest, rfl⟩ := hle
      rw [if_pos (prefix_append _ _)]
      by_cases hrest : rest = []
      · subst hrest
        rw [append_nil, if_pos rfl]
      · rw [node_below_file hsrc hrest, ite_self]
    · rw [if_neg hle, if_neg fun heq : p = src => hle (heq ▸ prefix_rfl)]

end

end FileTree

end Lib
