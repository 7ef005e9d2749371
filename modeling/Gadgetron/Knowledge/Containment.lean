import Gadgetron.Knowledge.WikiStore
import Gadgetron.Lib.Lines
import Gadgetron.Lib.LinkTree

/-!
# The containment of a wiki

`resolve_path` and `Wiki::write` on a file system with symbolic links. The path that `resolve_path`
returns is inside the root by its name; the write follows links on its way once more. A lookup fails
on the tree or on its links; that a path is too long for it is left out.
-/

namespace Gadgetron.Knowledge.Containment

open Lib List Except

abbrev LinkedDisk := LinkTree (List Char) String

def maxSymlinks : ℕ := 40

def candidate (root : List (Step (List Char))) (normalized : WikiPath) : List (Step (List Char)) :=
  root ++ normalized.map .name

variable (disk : LinkedDisk) (limit : ℕ) (root : List (Step (List Char)))

/-- `canonicalize_with_missing_tail`, of a path with its last component first. -/
def canonicalizeWithMissingTail : List (Step (List Char)) → WikiPath →
    Except WikiStoreError WikiPath
  | existing, tail =>
    match disk.lookup limit [] existing.reverse with
    | .ok canonical => .ok (canonical ++ tail)
    | .error _ =>
      match existing with
      | .name fileName :: parent => canonicalizeWithMissingTail parent (fileName :: tail)
      | .here :: parent => canonicalizeWithMissingTail parent tail
      | _ => .error (.pathEscape "")

/-- `resolve_path`, after the checks of the name. -/
def resolvePath (userInput : String) : Except WikiStoreError WikiPath :=
  match Knowledge.resolvePath userInput with
  | .error e => .error e
  | .ok normalized =>
    match disk.lookup limit [] root with
    | .error _ => .error .io
    | .ok canonicalRoot =>
      let canonical : Except WikiStoreError WikiPath :=
        match disk.lookup limit [] (candidate root normalized) with
        | .ok canonical => .ok canonical
        | .error _ =>
          canonicalizeWithMissingTail disk limit (candidate root normalized).reverse []
      match canonical with
      | .error e => .error e
      | .ok canonical =>
        if canonicalRoot <+: canonical then .ok canonical
        else .error (.pathEscape userInput)

/-! ## Writing -/

structure Refusals where
  /-- The places at which it lets a directory be made or a file be opened. -/
  grants : WikiPath → Bool
  /-- What of the content it stores, if not all. -/
  cut : Option String

/-- The directories and the file of `Wiki::write`. -/
def writePage (refusals : Refusals) (canonical : WikiPath) (content : String) : LinkedDisk × Bool :=
  match disk.writeFile limit refusals.grants canonical (refusals.cut.getD content) with
  | (disk', written) => (disk', written && refusals.cut.isNone)

/-! ## Containment -/

/-- What the write does to the path of an accepted name makes and changes nothing outside of the
canonical root. -/
def Contained (name : String) : Prop :=
  ∀ canonicalRoot canonical, disk.lookup limit [] root = .ok canonicalRoot →
    resolvePath disk limit root name = .ok canonical →
    ∀ refusals content place, ¬canonicalRoot <+: place →
      (writePage disk limit refusals canonical content).1.node place = disk.node place

/-- The lookup of the page is cut off, as it comes to more links than the limit. -/
def CutOff (name : String) : Prop :=
  ∃ normalized, Knowledge.resolvePath name = .ok normalized ∧
    disk.lookup limit [] (candidate root normalized) = .error .tooManyLinks

/-- A lookup from the root comes to the place by the names found, and fails at the next one. -/
structure Reaches (found missing place : WikiPath) : Prop where
  comes : disk.lookup limit [] (candidate root found) = .ok place
  fails : ∀ next ∈ missing.head?, ∃ e,
    disk.lookup limit [] (candidate root (found ++ [next])) = .error e

/-- By the missing names, from the place that a lookup of the page reaches, the first entry that
would be made or changed is inside of the root. -/
def LandsInside (name : String) : Prop :=
  ∀ canonicalRoot found missing place first, disk.lookup limit [] root = .ok canonicalRoot →
    Knowledge.resolvePath name = .ok (found ++ missing) →
    Reaches disk limit root found missing place → canonicalRoot <+: place ++ missing →
    disk.landing limit (place ++ missing) = some first → canonicalRoot <+: first

variable {disk limit root} {name : String} {canonical canonicalRoot tail normalized : WikiPath}

theorem candidate_concat (root : List (Step (List Char))) (normalized : WikiPath)
    (fileName : List Char) : candidate root (normalized ++ [fileName]) =
      candidate root normalized ++ [.name fileName] := by
  simp [candidate]

variable {place : WikiPath} {fileName : List Char}

theorem resolve_missing {steps : List (Step (List Char))}
    {e : Errno} (hplace : disk.lookup limit [] steps = .ok place)
    (h : disk.lookup limit [] (steps ++ [.name fileName]) = .error e) (he : e ≠ .tooManyLinks) :
    disk.resolve limit (place ++ [fileName]) = .error e := by
  have hsettled : disk.Settled ([] ++ place) :=
    LinkTree.settled_of_lookup LinkTree.settled_root hplace
  obtain ⟨left, hleft, heq⟩ := LinkTree.lookup_append_of_ok hplace
  rw [heq] at h
  unfold LinkTree.resolve
  rw [map_append, LinkTree.lookup_names hsettled, nil_append, map_singleton,
    LinkTree.lookup_mono _ hleft, h]
  rw [h]
  exact fun hcut => he (error.inj hcut)

variable {found missing : WikiPath}

theorem exists_reaches (hroot : disk.lookup limit [] root = .ok canonicalRoot)
    (normalized : WikiPath) : ∃ found missing place, found ++ missing = normalized ∧
      Reaches disk limit root found missing place := by
  induction normalized using List.reverseRecOn with
  | nil => exact ⟨[], [], canonicalRoot, rfl, by simpa [candidate] using hroot, nofun⟩
  | append_singleton normalized fileName ih =>
    obtain ⟨found, missing, place, rfl, hfound, hmissing⟩ := ih
    cases missing with
    | cons next missing =>
      exact ⟨found, next :: (missing ++ [fileName]), place, by simp, hfound, hmissing⟩
    | nil =>
      rw [append_nil]
      cases hlookup : disk.lookup limit [] (candidate root (found ++ [fileName])) with
      | ok place' => exact ⟨_, [], place', append_nil _, hlookup, nofun⟩
      | error e =>
        refine ⟨found, [fileName], place, rfl, hfound, fun next hnext => ?_⟩
        obtain rfl := Option.some.inj hnext
        exact ⟨e, hlookup⟩

theorem canonicalizeWithMissingTail_of_reaches (h : Reaches disk limit root found missing place)
    (tail : WikiPath) : canonicalizeWithMissingTail disk limit
      (candidate root (found ++ missing)).reverse tail = .ok (place ++ missing ++ tail) := by
  induction missing using List.reverseRecOn generalizing tail with
  | nil =>
    unfold canonicalizeWithMissingTail
    rw [reverse_reverse, append_nil, h.comes, append_nil]
  | append_singleton missing fileName ih =>
    have hfails : ∃ e, disk.lookup limit []
        (candidate root (found ++ missing) ++ [.name fileName]) = .error e := by
      cases missing with
      | nil =>
        rw [append_nil, ← candidate_concat]
        exact h.fails fileName rfl
      | cons next missing =>
        obtain ⟨e, he⟩ := h.fails next rfl
        refine ⟨e, ?_⟩
        have happend := LinkTree.lookup_append_of_error he ((missing ++ [fileName]).map .name)
        simpa [candidate] using happend
    have hshorter : Reaches disk limit root found missing place := by
      refine ⟨h.comes, fun next hnext => h.fails next ?_⟩
      rw [Option.mem_def] at hnext ⊢
      rw [head?_append, hnext]
      rfl
    obtain ⟨e, he⟩ := hfails
    rw [← List.append_assoc, candidate_concat]
    unfold canonicalizeWithMissingTail
    rw [reverse_reverse, he, reverse_concat]
    simpa using ih hshorter (fileName :: tail)

section

variable (hroot : disk.lookup limit [] root = .ok canonicalRoot)

include hroot

theorem resolvePath_of_reaches (hname : Knowledge.resolvePath name = .ok (found ++ missing))
    (h : Reaches disk limit root found missing place)
    (hinside : canonicalRoot <+: place ++ missing) :
    resolvePath disk limit root name = .ok (place ++ missing) := by
  have hcanonical := canonicalizeWithMissingTail_of_reaches h []
  rw [append_nil] at hcanonical
  simp only [resolvePath, hname, hroot, hcanonical]
  cases hlookup : disk.lookup limit [] (candidate root (found ++ missing)) with
  | error e => simp only [if_pos hinside]
  | ok canonical =>
    have hsame : canonical = place ++ missing := by
      unfold canonicalizeWithMissingTail at hcanonical
      rw [reverse_reverse, hlookup] at hcanonical
      simpa using hcanonical
    simp only [hsame, if_pos hinside]

theorem canonicalizeWithMissingTail_ok
    (hcut : disk.lookup limit [] (candidate root normalized) ≠ .error .tooManyLinks)
    (h : canonicalizeWithMissingTail disk limit (candidate root normalized).reverse [] =
      .ok canonical) : disk.lookup limit [] (candidate root normalized) = .ok canonical ∨
      ∃ place fileName rest e, disk.Settled place ∧
        disk.resolve limit (place ++ [fileName]) = .error e ∧
        canonical = place ++ fileName :: rest := by
  obtain ⟨found, missing, place, rfl, hreaches⟩ := exists_reaches hroot normalized
  rw [canonicalizeWithMissingTail_of_reaches hreaches, append_nil] at h
  obtain rfl := ok.inj h
  cases missing with
  | nil =>
    left
    rw [append_nil, append_nil]
    exact hreaches.comes
  | cons fileName rest =>
    obtain ⟨e, he⟩ := hreaches.fails fileName rfl
    refine .inr ⟨place, fileName, rest, e, ?_, ?_, rfl⟩
    · exact LinkTree.settled_of_lookup LinkTree.settled_root hreaches.comes
    · rw [candidate_concat] at he
      refine resolve_missing hreaches.comes he ?_
      rintro rfl
      have happend := LinkTree.lookup_append_of_error he (rest.map .name)
      exact hcut (by simpa [candidate] using happend)

theorem resolvePath_ok (h : resolvePath disk limit root name = .ok canonical) :
    canonicalRoot <+: canonical ∧ ∃ normalized, Knowledge.resolvePath name = .ok normalized ∧
      (disk.lookup limit [] (candidate root normalized) = .ok canonical ∨
        canonicalizeWithMissingTail disk limit (candidate root normalized).reverse [] =
          .ok canonical) := by
  unfold resolvePath at h
  split at h
  · cases h
  next normalized hnormalized =>
    rw [hroot] at h
    dsimp only at h
    split at h
    · cases h
    next canonical' hcanonical =>
      split_ifs at h with hinside
      cases h
      refine ⟨hinside, normalized, hnormalized, ?_⟩
      split at hcanonical
      next place hplace => exact .inl (by rw [hplace, ok.inj hcanonical])
      next => exact .inr hcanonical

end

theorem prefix_of_missing {place rest : WikiPath}
    (hroot : disk.Settled canonicalRoot) (hnone : disk.node (place ++ [fileName]) = none)
    (hinside : canonicalRoot <+: place ++ fileName :: rest) :
    canonicalRoot <+: place ++ [fileName] := by
  rw [append_cons] at hinside
  rcases prefix_or_prefix_of_prefix hinside (prefix_append (place ++ [fileName]) rest)
    with h | ⟨below, hbelow⟩
  · exact h
  · by_cases hnil : below = []
    · rw [hnil, append_nil] at hbelow
      rw [hbelow]
    · have hdir := LinkTree.node_of_append (hbelow ▸ hroot.1) hnil
      rw [hdir] at hnone
      cases hnone

theorem landing_inside_of_not_cutOff (h : ¬CutOff disk limit root name)
    (hroot : disk.lookup limit [] root = .ok canonicalRoot)
    (hresolve : resolvePath disk limit root name = .ok canonical) {first : WikiPath}
    (hlanding : disk.landing limit canonical = some first) : canonicalRoot <+: first := by
  obtain ⟨hinside, normalized, hnormalized, hcanonical⟩ := resolvePath_ok hroot hresolve
  have hcut : disk.lookup limit [] (candidate root normalized) ≠ .error .tooManyLinks :=
    fun hmany => h ⟨normalized, hnormalized, hmany⟩
  rcases hcanonical.elim .inl (canonicalizeWithMissingTail_ok hroot hcut) with
    hplace | ⟨place, fileName, rest, e, hsettled, hmissing, rfl⟩
  · have hsettled := LinkTree.settled_of_lookup LinkTree.settled_root hplace
    rwa [LinkTree.landing_of_settled hsettled hlanding]
  · obtain ⟨rfl, hnone⟩ := LinkTree.landing_of_missing hsettled hmissing hlanding
    exact prefix_of_missing (LinkTree.settled_of_lookup LinkTree.settled_root hroot) hnone hinside

theorem landing_inside_of_cutOff (hcut : CutOff disk limit root name)
    (h : LandsInside disk limit root name)
    (hroot : disk.lookup limit [] root = .ok canonicalRoot)
    (hresolve : resolvePath disk limit root name = .ok canonical) {first : WikiPath}
    (hlanding : disk.landing limit canonical = some first) : canonicalRoot <+: first := by
  obtain ⟨hinside, normalized, hnormalized, hcanonical⟩ := resolvePath_ok hroot hresolve
  obtain ⟨normalized', hnormalized', hmany⟩ := hcut
  obtain rfl := ok.inj (hnormalized.symm.trans hnormalized')
  obtain ⟨found, missing, place, rfl, hreaches⟩ := exists_reaches hroot normalized
  rcases hcanonical with hplace | htail
  · cases hmany.symm.trans hplace
  · rw [canonicalizeWithMissingTail_of_reaches hreaches, append_nil] at htail
    obtain rfl := ok.inj htail
    exact h canonicalRoot found missing place first hroot hnormalized hreaches hinside hlanding

/-- The write of an accepted page stays inside of the wiki exactly if the lookup of the page is not
cut off, or the missing names lead inside all the same. -/
theorem contained_iff (disk : LinkedDisk) (limit : ℕ) (root : List (Step (List Char)))
    (name : String) : Contained disk limit root name ↔
      (CutOff disk limit root name → LandsInside disk limit root name) := by
  constructor
  · intro h _ canonicalRoot found missing place first hroot hname hreaches hinside hlanding
    by_contra hout
    have hresolve := resolvePath_of_reaches hroot hname hreaches hinside
    have hsame := fun content =>
      h canonicalRoot _ hroot hresolve ⟨fun _ => true, none⟩ content first hout
    have hcontents : "" ≠ "a" := by decide
    rcases LinkTree.writeFile_landing (fun _ => rfl) hlanding hcontents with hne | hne
    · exact hne (hsame "")
    · exact hne (hsame "a")
  · intro h canonicalRoot canonical hroot hresolve refusals content place hout
    refine LinkTree.writeFile_elsewhere canonical _ fun first hlanding hbelow => hout ?_
    by_cases hcut : CutOff disk limit root name
    · exact (landing_inside_of_cutOff hcut (h hcut) hroot hresolve hlanding).trans hbelow
    · exact (landing_inside_of_not_cutOff hcut hroot hresolve hlanding).trans hbelow

/-! ## A chain of links -/

/-- In the wiki `/w` each name of so many `l` is a link to the one before, and the last one a link
to `/o`; `/r` is a link to the wiki. -/
def chained : LinkedDisk where
  node
    | [] => some .directory
    | [top] =>
      if top = ['w'] ∨ top = ['o'] then some .directory
      else if top = ['r'] then some (.link ⟨true, [.name ['w']]⟩)
      else none
    | [top, page] =>
      if top = ['w'] ∧ page.all (· = 'l') ∧ page.length ≤ maxSymlinks ∧ page ≠ [] then
        if page.length = 1 then some (.link ⟨true, [.name ['o']]⟩)
        else some (.link ⟨false, [.name page.tail]⟩)
      else none
    | _ => none
  root := rfl
  parent place name h := by
    match place with
    | [] => rfl
    | [top] =>
      simp only [cons_append, nil_append] at h
      split at h
      next hcond => simp [hcond.1]
      next => exact absurd rfl h
    | [_, _] => exact absurd rfl h
    | _ :: _ :: _ :: _ => exact absurd rfl h

def deepPage : String := String.ofList (List.replicate maxSymlinks 'l' ++ ['/', 'p'])

def outsidePage : WikiPath := [['o'], ['p', '.', 'm', 'd']]

/-- Through the link `/r` the chain is one link too long for a lookup, which takes it for missing;
the write follows it to `/o`. -/
theorem not_contained_of_chain : ¬Contained chained maxSymlinks [.name ['r']] deepPage := by
  intro h
  have hresolve : resolvePath chained maxSymlinks [.name ['r']] deepPage =
      .ok [['w'], List.replicate maxSymlinks 'l', ['p', '.', 'm', 'd']] := by
    decide +kernel
  have hsame := h [['w']] _ (by decide +kernel) hresolve ⟨fun _ => true, none⟩ "a" outsidePage
    (by decide +kernel)
  revert hsame
  decide +kernel

end Gadgetron.Knowledge.Containment
