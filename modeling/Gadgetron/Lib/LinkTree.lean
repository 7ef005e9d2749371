import Mathlib.Data.List.Infix

/-!
# File trees with symbolic links

Files, directories and links at their places below `/`, the lookup of a path, which follows the
links up to a limit, and the operations that make directories and open a file for writing.
-/

namespace Lib

open List Option Function Except

/-- A component of a path: `.`, `..` or a name. -/
inductive Step (κ : Type*)
  | here
  | up
  | name (name : κ)
  deriving DecidableEq

structure Target (κ : Type*) where
  absolute : Bool
  steps : List (Step κ)
  deriving DecidableEq

inductive Entry (κ γ : Type*)
  | file (content : γ)
  | directory
  | link (target : Target κ)
  deriving DecidableEq

inductive Errno
  /-- `ENOENT` -/
  | noEntry
  /-- `ENOTDIR` -/
  | notDirectory
  /-- `ELOOP` -/
  | tooManyLinks
  /-- `EEXIST` -/
  | entryExists
  /-- `EISDIR` -/
  | isDirectory
  /-- A reason of the file system's own, as a disk that is full or a name that is too long. -/
  | refused
  deriving DecidableEq

structure LinkTree (κ γ : Type*) where
  node : List κ → Option (Entry κ γ)
  root : node [] = some .directory
  parent : ∀ place name, node (place ++ [name]) ≠ none → node place = some .directory

/-- A link in `place` leads on from here. -/
def Target.start {κ : Type*} (target : Target κ) (place : List κ) : List κ :=
  if target.absolute then [] else place

namespace LinkTree

variable {κ γ : Type*} (t : LinkTree κ γ)

def isDirectory (place : List κ) : Bool :=
  match t.node place with
  | some .directory => true
  | _ => false

/-! ## The lookup -/

/-- The steps from a place on; `more` goes on at a link. -/
def walk (more : List κ → List (Step κ) → Except Errno (List κ)) :
    List κ → List (Step κ) → Except Errno (List κ)
  | place, [] => .ok place
  | place, step :: rest =>
    if t.isDirectory place then
      match step with
      | .here => walk more place rest
      | .up => walk more place.dropLast rest
      | .name name =>
        match t.node (place ++ [name]) with
        | none => .error .noEntry
        | some (.link target) => more (target.start place) (target.steps ++ rest)
        | some _ => walk more (place ++ [name]) rest
    else .error .notDirectory

/-- The place that the steps lead to, if they come to no more links than the limit. -/
def lookup : ℕ → List κ → List (Step κ) → Except Errno (List κ)
  | 0 => t.walk fun _ _ => .error .tooManyLinks
  | limit + 1 => t.walk (lookup limit)

def resolve (limit : ℕ) (path : List κ) : Except Errno (List κ) :=
  t.lookup limit [] (path.map .name)

def isDir (limit : ℕ) (path : List κ) : Bool :=
  match t.resolve limit path with
  | .ok place => t.isDirectory place
  | .error _ => false

variable {t} {limit : ℕ} {place place' rest path : List κ} {steps steps' : List (Step κ)}
  {name : κ} {e : Errno}

theorem isDirectory_iff : t.isDirectory place = true ↔ t.node place = some .directory := by
  unfold isDirectory
  split <;> simp_all

theorem isDirectory_of_node (h : t.node place = some .directory) : t.isDirectory place = true :=
  isDirectory_iff.2 h

theorem node_of_append (h : t.node (place ++ rest) ≠ none) (hrest : rest ≠ []) :
    t.node place = some .directory := by
  induction rest using List.reverseRecOn with
  | nil => exact absurd rfl hrest
  | append_singleton rest name ih =>
    rw [← List.append_assoc] at h
    have habove := t.parent _ _ h
    by_cases hnil : rest = []
    · rwa [hnil, append_nil] at habove
    · exact ih (by simp [habove]) hnil

def Settled (t : LinkTree κ γ) (place : List κ) : Prop :=
  t.node place ≠ none ∧ ∀ target, t.node place ≠ some (.link target)

theorem Settled.of_directory (h : t.node place = some .directory) : t.Settled place := by
  refine ⟨?_, fun target => ?_⟩ <;> simp [h]

theorem settled_root : t.Settled [] := .of_directory t.root

section

attribute [local simp] lookup walk

@[simp] theorem lookup_nil : t.lookup limit place [] = .ok place := by
  cases limit <;> rfl

theorem lookup_cons_of_not_directory (h : t.isDirectory place = false) (step : Step κ) :
    t.lookup limit place (step :: steps) = .error .notDirectory := by
  cases limit <;> simp [lookup, walk, h]

section

variable (h : t.isDirectory place = true)

include h

theorem lookup_here :
    t.lookup limit place (.here :: steps) = t.lookup limit place steps := by
  cases limit <;> simp [lookup, walk, h]

theorem lookup_up :
    t.lookup limit place (.up :: steps) = t.lookup limit place.dropLast steps := by
  cases limit <;> simp [lookup, walk, h]

theorem lookup_missing (hnode : t.node (place ++ [name]) = none) :
    t.lookup limit place (.name name :: steps) = .error .noEntry := by
  cases limit <;> simp [lookup, walk, h, hnode]

theorem lookup_settled (hnode : t.Settled (place ++ [name])) :
    t.lookup limit place (.name name :: steps) = t.lookup limit (place ++ [name]) steps := by
  have hwalk : ∀ more, t.walk more place (.name name :: steps) =
      t.walk more (place ++ [name]) steps := by
    intro more
    simp only [walk, h, if_true]
    split
    · next hnone => exact absurd hnone hnode.1
    · next target hlink => exact absurd hlink (hnode.2 target)
    · rfl
  cases limit <;> exact hwalk _

end

variable {target : Target κ}

section

variable (h : t.isDirectory place = true) (hnode : t.node (place ++ [name]) = some (.link target))
include h hnode

theorem lookup_link_zero :
    t.lookup 0 place (.name name :: steps) = .error .tooManyLinks := by
  simp [lookup, walk, h, hnode]

theorem lookup_link_succ :
    t.lookup (limit + 1) place (.name name :: steps) =
      t.lookup limit (target.start place) (target.steps ++ steps) := by
  simp [lookup, walk, h, hnode]

end

end

theorem lookup_induct {motive : ℕ → List κ → List (Step κ) → Prop}
    (nil : ∀ limit place, motive limit place [])
    (stop : ∀ limit place step steps, t.isDirectory place = false →
      motive limit place (step :: steps))
    (here : ∀ limit place steps, t.isDirectory place = true → motive limit place steps →
      motive limit place (.here :: steps))
    (up : ∀ limit place steps, t.isDirectory place = true → motive limit place.dropLast steps →
      motive limit place (.up :: steps))
    (missing : ∀ limit place name steps, t.isDirectory place = true →
      t.node (place ++ [name]) = none → motive limit place (.name name :: steps))
    (settled : ∀ limit place name steps, t.isDirectory place = true →
      t.Settled (place ++ [name]) → motive limit (place ++ [name]) steps →
      motive limit place (.name name :: steps))
    (last : ∀ place name steps target, t.isDirectory place = true →
      t.node (place ++ [name]) = some (.link target) → motive 0 place (.name name :: steps))
    (link : ∀ limit place name steps target, t.isDirectory place = true →
      t.node (place ++ [name]) = some (.link target) →
      motive limit (target.start place) (target.steps ++ steps) →
      motive (limit + 1) place (.name name :: steps))
    (limit : ℕ) (place : List κ) (steps : List (Step κ)) : motive limit place steps := by
  induction limit generalizing place steps with
  | zero =>
    induction steps generalizing place with
    | nil => exact nil 0 place
    | cons step steps ih =>
      cases hdir : t.isDirectory place with
      | false => exact stop 0 place step steps hdir
      | true =>
        cases step with
        | here => exact here 0 place steps hdir (ih place)
        | up => exact up 0 place steps hdir (ih _)
        | name name =>
          cases hnode : t.node (place ++ [name]) with
          | none => exact missing 0 place name steps hdir hnode
          | some entry =>
            cases entry with
            | link target => exact last place name steps target hdir hnode
            | _ => exact settled 0 place name steps hdir (by simp [Settled, hnode]) (ih _)
  | succ limit ihLimit =>
    induction steps generalizing place with
    | nil => exact nil _ place
    | cons step steps ih =>
      cases hdir : t.isDirectory place with
      | false => exact stop _ place step steps hdir
      | true =>
        cases step with
        | here => exact here _ place steps hdir (ih place)
        | up => exact up _ place steps hdir (ih _)
        | name name =>
          cases hnode : t.node (place ++ [name]) with
          | none => exact missing _ place name steps hdir hnode
          | some entry =>
            cases entry with
            | link target =>
              exact link limit place name steps target hdir hnode (ihLimit _ _)
            | _ => exact settled _ place name steps hdir (by simp [Settled, hnode]) (ih _)

theorem settled_of_lookup (hplace : t.Settled place) (h : t.lookup limit place steps = .ok place') :
    t.Settled place' := by
  induction limit, place, steps using t.lookup_induct with
  | nil limit place =>
    rw [lookup_nil] at h
    exact ok.inj h ▸ hplace
  | stop limit place step steps hdir => simp [lookup_cons_of_not_directory hdir] at h
  | here limit place steps hdir ih => exact ih hplace (by rwa [lookup_here hdir] at h)
  | up limit place steps hdir ih =>
    refine ih ?_ (by rwa [lookup_up hdir] at h)
    cases hlast : place.getLast? with
    | none =>
      rw [getLast?_eq_none_iff.1 hlast]
      exact settled_root
    | some name =>
      have hsplit := dropLast_append_getLast? name hlast
      exact .of_directory (t.parent _ name (by rw [hsplit]; exact hplace.1))
  | missing limit place name steps hdir hnode => simp [lookup_missing hdir hnode] at h
  | settled limit place name steps hdir hnode ih =>
    exact ih hnode (by rwa [lookup_settled hdir hnode] at h)
  | last place name steps target hdir hnode => simp [lookup_link_zero hdir hnode] at h
  | link limit place name steps target hdir hnode ih =>
    refine ih ?_ (by rwa [lookup_link_succ hdir hnode] at h)
    unfold Target.start
    split_ifs
    · exact settled_root
    · exact .of_directory (isDirectory_iff.1 hdir)

theorem lookup_append (limit : ℕ) (place : List κ) (steps : List (Step κ)) :
    (∃ e, ∀ steps', t.lookup limit place (steps ++ steps') = .error e) ∨
      ∃ place' left, left ≤ limit ∧
        ∀ steps', t.lookup limit place (steps ++ steps') = t.lookup left place' steps' := by
  induction limit, place, steps using t.lookup_induct with
  | nil limit place => exact .inr ⟨place, limit, le_rfl, fun _ => rfl⟩
  | stop limit place step steps hdir =>
    exact .inl ⟨_, fun _ => lookup_cons_of_not_directory hdir step⟩
  | here limit place steps hdir ih =>
    simpa only [cons_append, lookup_here hdir] using ih
  | up limit place steps hdir ih =>
    simpa only [cons_append, lookup_up hdir] using ih
  | missing limit place name steps hdir hnode =>
    exact .inl ⟨_, fun _ => lookup_missing hdir hnode⟩
  | settled limit place name steps hdir hnode ih =>
    simpa only [cons_append, lookup_settled hdir hnode] using ih
  | last place name steps target hdir hnode =>
    exact .inl ⟨_, fun _ => lookup_link_zero hdir hnode⟩
  | link limit place name steps target hdir hnode ih =>
    simp only [cons_append, lookup_link_succ hdir hnode, ← List.append_assoc]
    rcases ih with ⟨e, he⟩ | ⟨place', left, hleft, heq⟩
    · exact .inl ⟨e, he⟩
    · exact .inr ⟨place', left, by omega, heq⟩

theorem lookup_append_of_ok (h : t.lookup limit place steps = .ok place') :
    ∃ left ≤ limit, ∀ steps', t.lookup limit place (steps ++ steps') =
      t.lookup left place' steps' := by
  rcases lookup_append (t := t) limit place steps with ⟨e, he⟩ | ⟨q, left, hleft, heq⟩
  · have hnil := he []
    rw [append_nil, h] at hnil
    cases hnil
  · have hnil := heq []
    rw [append_nil, h, lookup_nil] at hnil
    exact ⟨left, hleft, ok.inj hnil ▸ heq⟩

theorem lookup_append_of_error (h : t.lookup limit place steps = .error e)
    (steps' : List (Step κ)) : t.lookup limit place (steps ++ steps') = .error e := by
  rcases lookup_append (t := t) limit place steps with ⟨e', he⟩ | ⟨q, left, hleft, heq⟩
  · have hnil := he []
    rw [append_nil, h] at hnil
    rw [he, hnil]
  · have hnil := heq []
    rw [append_nil, h, lookup_nil] at hnil
    cases hnil

theorem lookup_mono {limit' : ℕ} (h : t.lookup limit place steps ≠ .error .tooManyLinks)
    (hle : limit ≤ limit') : t.lookup limit' place steps = t.lookup limit place steps := by
  induction limit, place, steps using t.lookup_induct generalizing limit' with
  | nil limit place => simp
  | stop limit place step steps hdir => simp only [lookup_cons_of_not_directory hdir]
  | here limit place steps hdir ih =>
    rw [lookup_here hdir] at h ⊢
    rw [lookup_here hdir, ih h hle]
  | up limit place steps hdir ih =>
    rw [lookup_up hdir] at h ⊢
    rw [lookup_up hdir, ih h hle]
  | missing limit place name steps hdir hnode => simp only [lookup_missing hdir hnode]
  | settled limit place name steps hdir hnode ih =>
    rw [lookup_settled hdir hnode] at h ⊢
    rw [lookup_settled hdir hnode, ih h hle]
  | last place name steps target hdir hnode => exact absurd (lookup_link_zero hdir hnode) h
  | link limit place name steps target hdir hnode ih =>
    obtain ⟨more, rfl⟩ := Nat.exists_eq_add_of_le' hle
    rw [lookup_link_succ hdir hnode] at h ⊢
    rw [← Nat.add_assoc, lookup_link_succ hdir hnode, ih h (by omega)]

theorem lookup_names (h : t.Settled (place ++ path)) :
    t.lookup limit place (path.map .name ++ steps) = t.lookup limit (place ++ path) steps := by
  induction path generalizing place with
  | nil => simp
  | cons name path ih =>
    have hplace : t.node place = some .directory := node_of_append h.1 (by simp)
    rw [append_cons] at h
    have hnext : t.Settled (place ++ [name]) := by
      by_cases hnil : path = []
      · rwa [hnil, append_nil] at h
      · exact .of_directory (node_of_append h.1 hnil)
    rw [map_cons, cons_append, lookup_settled (isDirectory_of_node hplace) hnext,
      ih h, ← append_cons]

theorem resolve_nil : t.resolve limit [] = .ok [] := lookup_nil

theorem resolve_of_settled (h : t.Settled path) : t.resolve limit path = .ok path := by
  have hnames : t.lookup limit [] (path.map .name ++ []) = t.lookup limit ([] ++ path) [] :=
    lookup_names h
  rwa [append_nil, lookup_nil] at hnames

theorem resolve_append_of_error (h : t.resolve limit path = .error e) (rest : List κ) :
    t.resolve limit (path ++ rest) = .error e := by
  unfold resolve
  rw [map_append]
  exact lookup_append_of_error h _

theorem resolve_append_of_ok (h : t.resolve limit path = .ok place) :
    ∃ left ≤ limit, ∀ rest : List κ, t.resolve limit (path ++ rest) =
      t.lookup left place (rest.map .name) := by
  obtain ⟨left, hleft, heq⟩ := lookup_append_of_ok h
  refine ⟨left, hleft, fun rest => ?_⟩
  unfold resolve
  rw [map_append]
  exact heq _

theorem lookup_name_cases (t : LinkTree κ γ) (limit : ℕ) (place : List κ) (name : κ) :
    (t.isDirectory place = false ∧ t.lookup limit place [.name name] = .error .notDirectory) ∨
      t.isDirectory place = true ∧
        (t.node (place ++ [name]) = none ∧ t.lookup limit place [.name name] = .error .noEntry ∨
          (∃ target, t.node (place ++ [name]) = some (.link target)) ∨ t.Settled (place ++ [name]) ∧
            t.lookup limit place [.name name] = .ok (place ++ [name])) := by
  cases hdir : t.isDirectory place with
  | false => exact .inl ⟨rfl, lookup_cons_of_not_directory hdir _⟩
  | true =>
    refine .inr ⟨rfl, ?_⟩
    cases hnode : t.node (place ++ [name]) with
    | none => exact .inl ⟨rfl, lookup_missing hdir hnode⟩
    | some entry =>
      cases entry with
      | link target => exact .inr (.inl ⟨target, rfl⟩)
      | _ =>
        have hsettled : t.Settled (place ++ [name]) := by simp [Settled, hnode]
        refine .inr (.inr ⟨hsettled, ?_⟩)
        rw [lookup_settled hdir hsettled, lookup_nil]

/-! ## Trees that have more -/

def Extends (t t' : LinkTree κ γ) : Prop :=
  ∀ place, t.node place ≠ none → t'.node place = t.node place

theorem lookup_extends {t' : LinkTree κ γ} (hext : t.Extends t')
    (h : t.lookup limit place steps = .ok place') : t'.lookup limit place steps = .ok place' := by
  have hdirectory : ∀ p, t.isDirectory p = true → t'.isDirectory p = true := by
    intro p hp
    rw [isDirectory_iff] at hp ⊢
    rw [hext p (by simp [hp]), hp]
  induction limit, place, steps using t.lookup_induct with
  | nil limit place => rwa [lookup_nil] at h ⊢
  | stop limit place step steps hdir => simp [lookup_cons_of_not_directory hdir] at h
  | here limit place steps hdir ih =>
    rw [lookup_here hdir] at h
    rw [lookup_here (hdirectory _ hdir), ih h]
  | up limit place steps hdir ih =>
    rw [lookup_up hdir] at h
    rw [lookup_up (hdirectory _ hdir), ih h]
  | missing limit place name steps hdir hnode => simp [lookup_missing hdir hnode] at h
  | settled limit place name steps hdir hnode ih =>
    have hsame := hext _ hnode.1
    have hnode' : t'.Settled (place ++ [name]) := by
      unfold Settled
      rw [hsame]
      exact hnode
    rw [lookup_settled hdir hnode] at h
    rw [lookup_settled (hdirectory _ hdir) hnode', ih h]
  | last place name steps target hdir hnode => simp [lookup_link_zero hdir hnode] at h
  | link limit place name steps target hdir hnode ih =>
    have hnode' : t'.node (place ++ [name]) = some (.link target) := by
      rw [hext _ (by simp [hnode]), hnode]
    rw [lookup_link_succ hdir hnode] at h
    rw [lookup_link_succ (hdirectory _ hdir) hnode', ih h]

/-! ## Operations -/

variable (t) in
def writable (place : List κ) : Bool :=
  match t.node place with
  | none => true
  | some (.file _) => true
  | _ => false

theorem not_isDirectory_of_writable (h : t.writable place = true) :
    t.isDirectory place = false := by
  unfold writable at h
  unfold isDirectory
  split at h <;> simp_all

theorem not_isDirectory_of_none (h : t.node place = none) : t.isDirectory place = false := by
  simp [isDirectory, h]

section

variable [DecidableEq κ]

variable (t) in
def put (place : List κ) (name : κ) (entry : Entry κ γ) (hdir : t.isDirectory place = true)
    (hold : t.isDirectory (place ++ [name]) = false) : LinkTree κ γ where
  node := Function.update t.node (place ++ [name]) (some entry)
  root := by rw [update_of_ne (by simp), t.root]
  parent p n h := by
    have habove : t.node p = some .directory := by
      by_cases hpn : p ++ [n] = place ++ [name]
      · rw [(append_inj' hpn rfl).1]
        exact isDirectory_iff.1 hdir
      · rw [update_of_ne hpn] at h
        exact t.parent p n h
    rw [update_of_ne, habove]
    rintro rfl
    rw [isDirectory_of_node habove] at hold
    cases hold

variable (t) in
/-- `mkdir` of a name in a path.  `grants` is what the file system lets be made. -/
def mkdir (limit : ℕ) (grants : List κ → Bool) (path : List κ) (name : κ) :
    Except Errno (LinkTree κ γ) :=
  match t.resolve limit path with
  | .error e => .error e
  | .ok place =>
    if hdir : t.isDirectory place = true then
      if hnone : (t.node (place ++ [name])).isNone = true then
        if grants (place ++ [name]) then
          .ok (t.put place name .directory hdir (by
            rw [isNone_iff_eq_none] at hnone
            simp [isDirectory, hnone]))
        else .error .refused
      else .error .entryExists
    else .error .notDirectory

variable (t) in
/-- `create_dir_all` of a path with its last name first. -/
def createDirAll (limit : ℕ) (grants : List κ → Bool) : List κ → LinkTree κ γ × Bool
  | [] => (t, true)
  | name :: above =>
    match t.mkdir limit grants above.reverse name with
    | .ok t' => (t', true)
    | .error .noEntry =>
      match createDirAll limit grants above with
      | (t', false) => (t', false)
      | (t', true) =>
        match t'.mkdir limit grants above.reverse name with
        | .ok t'' => (t'', true)
        | .error _ => (t', t'.isDir limit (above.reverse ++ [name]))
    | .error _ => (t, t.isDir limit (above.reverse ++ [name]))

variable (t) in
/-- A file that is opened with `O_NOFOLLOW`, to be made or cut, with what is then written to it. -/
def writeNoFollow (limit : ℕ) (grants : List κ → Bool) (path : List κ) (content : γ) :
    Except Errno (LinkTree κ γ) :=
  match path.getLast? with
  | none => .error .isDirectory
  | some name =>
    match t.resolve limit path.dropLast with
    | .error e => .error e
    | .ok place =>
      if hdir : t.isDirectory place = true then
        if hwritable : t.writable (place ++ [name]) = true then
          if grants (place ++ [name]) then
            .ok (t.put place name (.file content) hdir (not_isDirectory_of_writable hwritable))
          else .error .refused
        else if t.isDirectory (place ++ [name]) then .error .isDirectory
        else .error .tooManyLinks
      else .error .notDirectory

variable (t) in
/-- A file is written after the directories above it have been made. -/
def writeFile (limit : ℕ) (grants : List κ → Bool) (path : List κ) (content : γ) :
    LinkTree κ γ × Bool :=
  match t.createDirAll limit grants path.dropLast.reverse with
  | (t', false) => (t', false)
  | (t', true) =>
    match t'.writeNoFollow limit grants path content with
    | .ok t'' => (t'', true)
    | .error _ => (t', false)

end

/-! ## Where a write lands -/

variable (t) in
/-- The place of the first directory that `createDirAll` makes. -/
def firstMade (limit : ℕ) : List κ → Option (List κ)
  | [] => none
  | name :: above =>
    match t.resolve limit above.reverse with
    | .ok place =>
      if t.isDirectory place && (t.node (place ++ [name])).isNone then some (place ++ [name])
      else none
    | .error .noEntry => firstMade limit above
    | .error _ => none

variable (t) in
/-- The place of the first entry that `writeFile` makes or changes: that of the file, or of the
first missing directory. -/
def landing (limit : ℕ) (path : List κ) : Option (List κ) :=
  match path.getLast? with
  | none => none
  | some name =>
    match t.resolve limit path.dropLast with
    | .ok place =>
      if t.isDirectory place && t.writable (place ++ [name]) then some (place ++ [name])
      else none
    | .error .noEntry => t.firstMade limit path.dropLast.reverse
    | .error _ => none

variable {grants : List κ → Bool} {content : γ} {entry : Entry κ γ} {first above last p : List κ}
  {t' : LinkTree κ γ}

theorem landing_of_ok (h : t.resolve limit above = .ok place) : t.landing limit (above ++ [name]) =
      if t.isDirectory place && t.writable (place ++ [name]) then some (place ++ [name])
      else none := by
  simp [landing, h]

theorem landing_of_noEntry (h : t.resolve limit above = .error .noEntry) :
    t.landing limit (above ++ [name]) = t.firstMade limit above.reverse := by
  simp [landing, h]

theorem landing_of_error (h : t.resolve limit above = .error e) (he : e ≠ .noEntry) :
    t.landing limit (above ++ [name]) = none := by
  simp [landing, h]

theorem landing_of_settled (h : t.Settled path) (hlanding : t.landing limit path = some first) :
    first = path := by
  cases path using List.reverseRecOn with
  | nil => cases hlanding
  | append_singleton above name =>
    have habove : t.Settled above := .of_directory (t.parent above name h.1)
    rw [landing_of_ok (resolve_of_settled habove)] at hlanding
    split_ifs at hlanding
    exact (some.inj hlanding).symm

theorem firstMade_append (h : t.resolve limit (above ++ [name]) = .error e) (rest : List κ) :
    t.firstMade limit (above ++ [name] ++ rest).reverse = none ∨
      t.firstMade limit (above ++ [name] ++ rest).reverse =
        t.firstMade limit (above ++ [name]).reverse := by
  induction rest using List.reverseRecOn with
  | nil => exact .inr (by rw [append_nil])
  | append_singleton rest last ih =>
    rw [← List.append_assoc, reverse_concat, firstMade, reverse_reverse, resolve_append_of_error h]
    cases e with
    | noEntry => exact ih
    | _ => exact .inl rfl

theorem landing_of_missing (hsettled : t.Settled above)
    (h : t.resolve limit (above ++ [name]) = .error e)
    (hlanding : t.landing limit (above ++ name :: rest) = some first) :
    first = above ++ [name] ∧ t.node (above ++ [name]) = none := by
  have habove : t.resolve limit above = .ok above := resolve_of_settled hsettled
  have hmissing : t.isDirectory above = true → t.writable (above ++ [name]) = true →
      t.node (above ++ [name]) = none := by
    intro hdir hwritable
    by_contra hnode
    have hfile : t.Settled (above ++ [name]) := by
      refine ⟨hnode, fun target hlink => ?_⟩
      rw [writable, hlink] at hwritable
      cases hwritable
    rw [resolve_of_settled hfile] at h
    cases h
  rw [append_cons] at hlanding
  cases rest using List.reverseRecOn with
  | nil =>
    rw [append_nil, landing_of_ok habove] at hlanding
    split_ifs at hlanding with hcond
    rw [Bool.and_eq_true] at hcond
    exact ⟨(some.inj hlanding).symm, hmissing hcond.1 hcond.2⟩
  | append_singleton rest last =>
    have hpath := resolve_append_of_error h rest
    rw [← List.append_assoc] at hlanding
    by_cases he : e = .noEntry
    · subst he
      rw [landing_of_noEntry hpath] at hlanding
      rcases firstMade_append h rest with hnone | hsame
      · rw [hnone] at hlanding
        cases hlanding
      · rw [hsame, reverse_concat, firstMade, reverse_reverse, habove] at hlanding
        dsimp only at hlanding
        split_ifs at hlanding with hcond
        rw [Bool.and_eq_true, isNone_iff_eq_none] at hcond
        exact ⟨(some.inj hlanding).symm, hcond.2⟩
    · rw [landing_of_error hpath he] at hlanding
      cases hlanding

/-! ## What the operations change -/

/-- The directories from the first place on have been made, down to the last one. -/
structure Grown (t t' : LinkTree κ γ) (first last : List κ) : Prop where
  fresh : t.node first = none
  below : first <+: last
  made : t'.node first = some .directory
  directory : t'.node last = some .directory
  bare : ∀ name, t'.node (last ++ [name]) = none
  elsewhere : ∀ place, ¬first <+: place → t'.node place = t.node place

/-- What comes of making a directory where there is none: the tree `t'`, and whether it was made. -/
structure Making (t : LinkTree κ γ) (limit : ℕ) (grants : List κ → Bool) (path first : List κ)
    (result : LinkTree κ γ × Bool) : Prop where
  elsewhere : ∀ place, ¬first <+: place → result.1.node place = t.node place
  grown : result.2 = true →
    ∃ last, result.1.resolve limit path = .ok last ∧ Grown t result.1 first last
  granted : (∀ place, grants place = true) → result.2 = true

theorem making_failed {t' : LinkTree κ γ} (helsewhere : ∀ place, ¬first <+: place →
    t'.node place = t.node place) (hgrants : ¬∀ place, grants place = true) :
    Making t limit grants path first (t', false) where
  elsewhere := helsewhere
  grown := fun h => by cases h
  granted := fun h => absurd h hgrants

section

variable [DecidableEq κ]

section

variable (hdir : t.isDirectory place = true) (hold : t.isDirectory (place ++ [name]) = false)
include hdir hold

theorem put_self :
    (t.put place name entry hdir hold).node (place ++ [name]) = some entry :=
  update_self ..

theorem put_of_ne (h : place' ≠ place ++ [name]) :
    (t.put place name entry hdir hold).node place' = t.node place' :=
  update_of_ne h ..

theorem grown_put (hnone : t.node (place ++ [name]) = none) :
    Grown t (t.put place name .directory hdir hold) (place ++ [name]) (place ++ [name]) where
  fresh := hnone
  below := prefix_rfl
  made := put_self hdir hold
  directory := put_self hdir hold
  bare n := by
    rw [put_of_ne hdir hold (by simp)]
    by_contra hnode
    rw [t.parent _ _ hnode] at hnone
    cases hnone
  elsewhere p hp := put_of_ne hdir hold (by rintro rfl; exact hp prefix_rfl)

end

theorem Grown.put (h : Grown t t' first last) (hdir : t'.isDirectory last = true)
    (hold : t'.isDirectory (last ++ [name]) = false) :
    Grown t (t'.put last name .directory hdir hold) first (last ++ [name]) where
  fresh := h.fresh
  below := h.below.trans (prefix_append _ _)
  made := by
    rw [put_of_ne hdir hold, h.made]
    rintro rfl
    have hlength := h.below.length_le
    rw [List.length_append, List.length_singleton] at hlength
    omega
  directory := put_self hdir hold
  bare n := by
    rw [put_of_ne hdir hold (by simp)]
    by_contra hnode
    have hlast := t'.parent _ _ hnode
    rw [h.bare] at hlast
    cases hlast
  elsewhere p hp := by
    rw [put_of_ne hdir hold, h.elsewhere p hp]
    rintro rfl
    exact hp (h.below.trans (prefix_append _ _))

theorem extends_put_directory (hdir : t.isDirectory place = true)
    (hold : t.isDirectory (place ++ [name]) = false) (hnone : t.node (place ++ [name]) = none) :
    t.Extends (t.put place name entry hdir hold) := by
  intro p hp
  refine put_of_ne hdir hold ?_
  rintro rfl
  exact hp hnone

theorem mkdir_of_error (h : t.resolve limit path = .error e) :
    t.mkdir limit grants path name = .error e := by
  simp [mkdir, h]

theorem createDirAll_of_ok (h : t.resolve limit path.reverse = .ok place) :
    t.createDirAll limit grants path = (t, t.isDirectory place) := by
  cases path with
  | nil =>
    rw [reverse_nil, resolve_nil] at h
    rw [← ok.inj h, isDirectory_of_node t.root]
    rfl
  | cons name above =>
    rw [reverse_cons] at h
    have hisDir : t.isDir limit (above.reverse ++ [name]) = t.isDirectory place := by
      simp [isDir, h]
    cases habove : t.resolve limit above.reverse with
    | error e => simp [resolve_append_of_error habove [name]] at h
    | ok parent =>
      obtain ⟨left, -, heq⟩ := resolve_append_of_ok habove
      rw [heq [name], map_singleton] at h
      have hmkdir : t.mkdir limit grants above.reverse name = .error .entryExists := by
        rcases lookup_name_cases t left parent name with
          ⟨-, herr⟩ | ⟨hdir, ⟨-, herr⟩ | ⟨target, hnode⟩ | ⟨hnode, -⟩⟩
        · simp [herr] at h
        · simp [herr] at h
        · simp [mkdir, habove, hdir, hnode]
        · simp [mkdir, habove, hdir, hnode.1]
      simp [createDirAll, hmkdir, hisDir]

theorem createDirAll_of_error (h : t.resolve limit path.reverse = .error e) (he : e ≠ .noEntry) :
    t.createDirAll limit grants path = (t, false) := by
  cases path with
  | nil =>
    rw [reverse_nil, resolve_nil] at h
    cases h
  | cons name above =>
    rw [reverse_cons] at h
    have hisDir : t.isDir limit (above.reverse ++ [name]) = false := by simp [isDir, h]
    have hmkdir : ∃ e', e' ≠ .noEntry ∧ t.mkdir limit grants above.reverse name = .error e' := by
      cases habove : t.resolve limit above.reverse with
      | error e' =>
        rw [resolve_append_of_error habove] at h
        exact ⟨e', error.inj h ▸ he, mkdir_of_error habove⟩
      | ok parent =>
        obtain ⟨left, -, heq⟩ := resolve_append_of_ok habove
        rw [heq [name], map_singleton] at h
        rcases lookup_name_cases t left parent name with
          ⟨hdir, -⟩ | ⟨hdir, ⟨-, herr⟩ | ⟨target, hnode⟩ | ⟨hnode, -⟩⟩
        · exact ⟨.notDirectory, by decide, by simp [mkdir, habove, hdir]⟩
        · rw [herr] at h
          exact absurd (error.inj h).symm he
        · exact ⟨.entryExists, by decide, by simp [mkdir, habove, hdir, hnode]⟩
        · exact ⟨.entryExists, by decide, by simp [mkdir, habove, hdir, hnode.1]⟩
    obtain ⟨e', he', hmkdir⟩ := hmkdir
    unfold createDirAll
    rw [hmkdir]
    cases e' with
    | noEntry => exact absurd rfl he'
    | _ => simp [hisDir]

theorem mkdir_of_ok (grants : List κ → Bool) (h : t.resolve limit path = .ok place)
    (hdir : t.isDirectory place = true) (hnone : t.node (place ++ [name]) = none) :
    t.mkdir limit grants path name = if grants (place ++ [name]) then
      .ok (t.put place name .directory hdir (not_isDirectory_of_none hnone))
      else .error .refused := by
  simp [mkdir, h, hdir, hnone]

theorem resolve_put (h : t.resolve limit path = .ok place) (hdir : t.isDirectory place = true)
    (hnone : t.node (place ++ [name]) = none) :
    (t.put place name .directory hdir (not_isDirectory_of_none hnone)).resolve limit
      (path ++ [name]) = .ok (place ++ [name]) := by
  have hold := not_isDirectory_of_none hnone
  have hext : t.Extends (t.put place name .directory hdir hold) :=
    extends_put_directory hdir hold hnone
  have hbefore := lookup_extends hext h
  obtain ⟨left, -, heq⟩ := resolve_append_of_ok hbefore
  rw [heq, map_singleton, lookup_settled, lookup_nil]
  · rw [isDirectory_iff, put_of_ne hdir hold (by simp)]
    exact isDirectory_iff.1 hdir
  · exact .of_directory (put_self hdir hold)

theorem createDirAll_of_noEntry (grants : List κ → Bool) (path : List κ)
    (h : t.resolve limit path.reverse = .error .noEntry) :
    (t.firstMade limit path = none ∧ t.createDirAll limit grants path = (t, false)) ∨
      ∃ first, t.firstMade limit path = some first ∧
        Making t limit grants path.reverse first (t.createDirAll limit grants path) := by
  induction path with
  | nil =>
    rw [reverse_nil, resolve_nil] at h
    cases h
  | cons name above ih =>
    rw [reverse_cons] at h ⊢
    have hisDir : t.isDir limit (above.reverse ++ [name]) = false := by simp [isDir, h]
    cases habove : t.resolve limit above.reverse with
    | ok parent =>
      obtain ⟨left, -, heq⟩ := resolve_append_of_ok habove
      rw [heq [name], map_singleton] at h
      rcases lookup_name_cases t left parent name with
        ⟨-, herr⟩ | ⟨hdir, ⟨hnone, -⟩ | ⟨target, hnode⟩ | ⟨-, hok⟩⟩
      · rw [herr] at h
        cases h
      · refine .inr ⟨parent ++ [name], by simp [firstMade, habove, hdir, hnone], ?_⟩
        have hmkdir := mkdir_of_ok grants habove hdir hnone
        by_cases hgrant : grants (parent ++ [name]) = true
        · have hgrown := grown_put hdir (not_isDirectory_of_none hnone) hnone
          rw [if_pos hgrant] at hmkdir
          rw [createDirAll, hmkdir]
          exact ⟨hgrown.elsewhere, fun _ => ⟨_, resolve_put habove hdir hnone, hgrown⟩,
            fun _ => rfl⟩
        · rw [if_neg hgrant] at hmkdir
          rw [createDirAll, hmkdir]
          simp only [hisDir]
          exact making_failed (fun _ _ => rfl) fun hall => hgrant (hall _)
      · have hmkdir : t.mkdir limit grants above.reverse name = .error .entryExists := by
          simp [mkdir, habove, hdir, hnode]
        refine .inl ⟨by simp [firstMade, habove, hnode], ?_⟩
        rw [createDirAll, hmkdir]
        simp only [hisDir]
      · rw [hok] at h
        cases h
    | error e =>
      rw [resolve_append_of_error habove] at h
      obtain rfl : e = .noEntry := error.inj h
      have hmkdir : t.mkdir limit grants above.reverse name = .error .noEntry :=
        mkdir_of_error habove
      have hfirst : t.firstMade limit (name :: above) = t.firstMade limit above := by
        simp [firstMade, habove]
      rw [hfirst, createDirAll, hmkdir]
      simp only []
      rcases ih habove with ⟨hnone, hr⟩ | ⟨first, hsome, hmaking⟩
      · exact .inl ⟨hnone, by rw [hr]⟩
      · refine .inr ⟨first, hsome, ?_⟩
        rcases hr : t.createDirAll limit grants above with ⟨t', made⟩
        rw [hr] at hmaking
        cases made with
        | false =>
          refine making_failed hmaking.elsewhere fun hall => ?_
          cases hmaking.granted hall
        | true =>
          obtain ⟨last, hlast, hgrown⟩ := hmaking.grown rfl
          have hdir := isDirectory_of_node hgrown.directory
          have hmkdir' := mkdir_of_ok grants hlast hdir (hgrown.bare name)
          by_cases hgrant : grants (last ++ [name]) = true
          · have hgrown' := hgrown.put hdir (not_isDirectory_of_none (hgrown.bare name))
            rw [if_pos hgrant] at hmkdir'
            simp only [hmkdir']
            exact ⟨hgrown'.elsewhere,
              fun _ => ⟨_, resolve_put hlast hdir (hgrown.bare name), hgrown'⟩, fun _ => rfl⟩
          · have hmissing : t'.isDir limit (above.reverse ++ [name]) = false := by
              obtain ⟨left, -, heq⟩ := resolve_append_of_ok hlast
              have hlookup := heq [name]
              rw [map_singleton, lookup_missing hdir (hgrown.bare name)] at hlookup
              simp [isDir, hlookup]
            rw [if_neg hgrant] at hmkdir'
            simp only [hmkdir', hmissing]
            exact making_failed hmaking.elsewhere fun hall => hgrant (hall _)

/-! ## What a written file changes -/

theorem writeNoFollow_of_ok (h : t.resolve limit above = .ok place) :
    t.writeNoFollow limit grants (above ++ [name]) content =
      if hdir : t.isDirectory place = true then
        if hwritable : t.writable (place ++ [name]) = true then if grants (place ++ [name]) then
            .ok (t.put place name (.file content) hdir (not_isDirectory_of_writable hwritable))
          else .error .refused
        else if t.isDirectory (place ++ [name]) then .error .isDirectory
        else .error .tooManyLinks
      else .error .notDirectory := by
  simp [writeNoFollow, h]

theorem writeNoFollow_elsewhere {t' : LinkTree κ γ} (h : t.resolve limit above = .ok place)
    (hwrite : t.writeNoFollow limit grants (above ++ [name]) content = .ok t')
    (hp : p ≠ place ++ [name]) : t'.node p = t.node p := by
  rw [writeNoFollow_of_ok h] at hwrite
  split_ifs at hwrite with hdir hwritable hgrant
  cases hwrite
  exact put_of_ne hdir _ hp

theorem writeFile_concat : t.writeFile limit grants (above ++ [name]) content =
    match t.createDirAll limit grants above.reverse with
    | (t', false) => (t', false)
    | (t', true) =>
      match t'.writeNoFollow limit grants (above ++ [name]) content with
      | .ok t'' => (t'', true)
      | .error _ => (t', false) := by
  rw [writeFile, dropLast_concat]

theorem createDirAll_of_resolve (grants : List κ → Bool) (h : t.resolve limit above = .ok place) :
    t.createDirAll limit grants above.reverse = (t, t.isDirectory place) :=
  createDirAll_of_ok (by rwa [reverse_reverse])

theorem writeFile_elsewhere (path : List κ) (content : γ)
    (h : ∀ first, t.landing limit path = some first → ¬first <+: p) :
    (t.writeFile limit grants path content).1.node p = t.node p := by
  cases path using List.reverseRecOn with
  | nil => rfl
  | append_singleton above name =>
    rw [writeFile_concat]
    cases habove : t.resolve limit above with
    | ok place =>
      rw [createDirAll_of_resolve grants habove]
      rw [landing_of_ok habove] at h
      cases hdir : t.isDirectory place with
      | false => rfl
      | true =>
        cases hwrite : t.writeNoFollow limit grants (above ++ [name]) content with
        | error e => simp [hwrite]
        | ok t' =>
          simp only [hwrite]
          refine writeNoFollow_elsewhere habove hwrite ?_
          rintro rfl
          rw [writeNoFollow_of_ok habove, dif_pos hdir] at hwrite
          split_ifs at hwrite with hwritable hgrant
          exact h _ (by simp [hdir, hwritable]) prefix_rfl
    | error e =>
      by_cases he : e = .noEntry
      · subst he
        rw [landing_of_noEntry habove] at h
        rcases createDirAll_of_noEntry grants above.reverse
          (by rwa [reverse_reverse]) with ⟨-, hr⟩ | ⟨first, hfirst, hmaking⟩
        · rw [hr]
        · rw [reverse_reverse] at hmaking
          rcases hr : t.createDirAll limit grants above.reverse with ⟨t', made⟩
          rw [hr] at hmaking
          have hsame := hmaking.elsewhere p (h first hfirst)
          cases made with
          | false => exact hsame
          | true =>
            obtain ⟨last, hlast, hgrown⟩ := hmaking.grown rfl
            cases hwrite : t'.writeNoFollow limit grants (above ++ [name]) content with
            | error e => simpa [hwrite] using hsame
            | ok t'' =>
              simp only [hwrite]
              rw [writeNoFollow_elsewhere hlast hwrite, hsame]
              rintro rfl
              exact h first hfirst (hgrown.below.trans (prefix_append _ _))
      · rw [createDirAll_of_error (by rwa [reverse_reverse]) he]

theorem writeFile_landing (hgrants : ∀ place, grants place = true)
    (h : t.landing limit path = some first) {content' : γ} (hne : content ≠ content') :
    (t.writeFile limit grants path content).1.node first ≠ t.node first ∨
      (t.writeFile limit grants path content').1.node first ≠ t.node first := by
  cases path using List.reverseRecOn with
  | nil => cases h
  | append_singleton above name =>
    cases habove : t.resolve limit above with
    | ok place =>
      have hr := createDirAll_of_resolve grants habove
      rw [landing_of_ok habove] at h
      split_ifs at h with hcond
      cases h
      rw [Bool.and_eq_true] at hcond
      have hwritten : ∀ c, (t.writeFile limit grants (above ++ [name]) c).1.node
          (place ++ [name]) = some (.file c) := by
        intro c
        rw [writeFile_concat, hr, hcond.1]
        simp only [writeNoFollow_of_ok habove, hcond.1, hcond.2, hgrants, if_true, dif_pos]
        exact put_self ..
      rw [hwritten, hwritten]
      by_cases hold : t.node (place ++ [name]) = some (.file content)
      · refine .inr ?_
        rw [hold]
        exact fun heq => hne (by cases heq; rfl)
      · exact .inl fun heq => hold heq.symm
    | error e =>
      by_cases he : e = .noEntry
      · subst he
        rw [landing_of_noEntry habove] at h
        refine .inl ?_
        rcases createDirAll_of_noEntry grants above.reverse
          (by rwa [reverse_reverse]) with ⟨hnone, -⟩ | ⟨first', hfirst, hmaking⟩
        · rw [hnone] at h
          cases h
        · rw [hfirst] at h
          cases h
          rw [reverse_reverse] at hmaking
          rw [writeFile_concat]
          rcases hr : t.createDirAll limit grants above.reverse with ⟨t', made⟩
          rw [hr] at hmaking
          obtain rfl : made = true := hmaking.granted hgrants
          obtain ⟨last, hlast, hgrown⟩ := hmaking.grown rfl
          have hmade : t'.node first ≠ t.node first := by
            rw [hgrown.made, hgrown.fresh]
            nofun
          cases hwrite : t'.writeNoFollow limit grants (above ++ [name]) content with
          | error e => simpa [hwrite] using hmade
          | ok t'' =>
            simp only [hwrite]
            rwa [writeNoFollow_elsewhere hlast hwrite]
            intro heq
            have hlength := hgrown.below.length_le
            rw [heq, List.length_append, List.length_singleton] at hlength
            omega
      · rw [landing_of_error habove he] at h
        cases h

end

end LinkTree

end Lib
