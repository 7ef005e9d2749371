import Gadgetron.Jobs.Materialize
import Gadgetron.Jobs.Review

/-!
# What change sets overwrite

An operation that changes a note reads it under one lock and writes it under another.
-/

namespace Gadgetron.Jobs.Materialize

open Lib Policy Spaces List Option Function

section

variable {T : Type} {env : Env T}

theorem ensure_eq_ok {holds : Bool} {detail : String} :
    ensure holds detail = .ok () ↔ holds = true := by
  unfold ensure
  split_ifs with h
  · simp [h]
  · simp [h]

theorem orFail_eq_ok {α : Type} {value : Option α} {detail : String} {a : α} :
    orFail value detail = .ok a ↔ value = some a := by
  cases value with
  | none | some => simp [orFail]

def AddsUnread (prepared prepared' : Prepared) : Prop :=
  ∃ added, prepared'.writes = prepared.writes ++ added ∧ ∀ write ∈ added, write.read = none

theorem AddsUnread.trans {p₁ p₂ p₃ : Prepared} (h : AddsUnread p₁ p₂) (h' : AddsUnread p₂ p₃) :
    AddsUnread p₁ p₃ := by
  obtain ⟨l, hl, hunread⟩ := h
  obtain ⟨l', hl', hunread'⟩ := h'
  refine ⟨l ++ l', by rw [hl', hl, List.append_assoc], fun write hwrite => ?_⟩
  exact (mem_append.1 hwrite).elim (hunread write) (hunread' write)

variable {prepared prepared' : Prepared} {id : Uuid}

theorem touch_writes
    (h : touch prepared id = .ok prepared') : prepared'.writes = prepared.writes := by
  obtain ⟨⟨⟩, -, h⟩ := bind_eq_ok.1 h
  cases h
  rfl

theorem pushNewNote_addsUnread {body : String} {properties : Knowledge.Properties Json}
    (h : pushNewNote env prepared id body properties = .ok prepared') :
    AddsUnread prepared prepared' := by
  obtain ⟨bytes, -, subject, -, h₂⟩ := bind₂_eq_ok.1 h
  cases h₂
  refine ⟨_, rfl, fun write hwrite => ?_⟩
  rw [mem_singleton.1 hwrite]

variable {context : Context}

theorem createNote_addsUnread {source : Json} {set : List (String × Json)}
    (h : createNote env context prepared id source set = .ok prepared') :
    AddsUnread prepared prepared' := by
  obtain ⟨p₁, htouch, title, -, h₂⟩ := bind₂_eq_ok.1 h
  obtain ⟨body, -, properties, -, h₄⟩ := bind₂_eq_ok.1 h₂
  obtain ⟨properties', -, ⟨⟩, -, h₆⟩ := bind₂_eq_ok.1 h₄
  obtain ⟨added, hadded, hunread⟩ := pushNewNote_addsUnread h₆
  exact ⟨added, by rw [hadded, touch_writes htouch], hunread⟩

variable {objects : Table KnowledgeObjectRow.id} {operation : Json} {position : ℕ}

theorem mergeNotes_addsUnread
    (h : mergeNotes env objects context position operation prepared = .ok prepared') :
    AddsUnread prepared prepared' := by
  obtain ⟨sources, -, ⟨⟩, -, h₂⟩ := bind₂_eq_ok.1 h
  obtain ⟨seen, -, h₃⟩ := bind_eq_ok.1 h₂
  exact createNote_addsUnread h₃

theorem splitNote_addsUnread
    (h : splitNote env objects context position operation prepared = .ok prepared') :
    AddsUnread prepared prepared' := by
  obtain ⟨sourceId, -, revision, -, h₂⟩ := bind₂_eq_ok.1 h
  obtain ⟨source, -, ⟨⟩, -, h₄⟩ := bind₂_eq_ok.1 h₂
  obtain ⟨outputs, -, h₅⟩ := bind_eq_ok.1 h₄
  refine foldlM_invariant (fun p output p' hp hstep => ?_) ⟨[], by simp⟩ h₅
  exact AddsUnread.trans hp (createNote_addsUnread hstep)

theorem openOperation_addsUnread
    (h : openOperation env objects context position operation prepared = .ok (.done prepared')) :
    AddsUnread prepared prepared' := by
  obtain ⟨kind, -, h⟩ := bind_eq_ok.1 h
  split at h
  · obtain ⟨p, hcreate, hp⟩ := map_eq_ok.1 h
    cases hp
    exact createNote_addsUnread hcreate
  iterate 2
    · obtain ⟨target, -, htarget⟩ := map_eq_ok.1 h
      cases htarget
  · obtain ⟨p, hmerge, hp⟩ := map_eq_ok.1 h
    cases hp
    exact mergeNotes_addsUnread hmerge
  · obtain ⟨p, hsplit, hp⟩ := map_eq_ok.1 h
    cases hp
    exact splitNote_addsUnread hsplit
  · cases h

theorem changeTarget_writes {target : Target} {bytes : ByteArray}
    (h : changeTarget env objects context target bytes prepared = .ok prepared') : ∃ written,
      prepared'.writes = prepared.writes ++ [⟨target.object.path, written, some bytes⟩] := by
  obtain ⟨raw, -, note, -, h₂⟩ := bind₂_eq_ok.1 h
  obtain ⟨subject, -, ⟨⟩, -, h₄⟩ := bind₂_eq_ok.1 h₂
  obtain ⟨⟨⟩, -, ⟨properties, body⟩, -, h₆⟩ := bind₂_eq_ok.1 h₄
  obtain ⟨written, -, h₇⟩ := bind_eq_ok.1 h₆
  cases h₇
  exact ⟨written, rfl⟩

/-! ## What a batch writes -/

/-- The notes after the writes, the last of which comes first. -/
def contents (start : Uuid → Files) : List WriteRecord → Uuid → Files
  | [] => start
  | record :: records =>
    Function.update (contents start records) record.tenantId
      (Function.update (contents start records record.tenantId) record.path (some record.bytes))

/-- Every write has replaced what the writes before it had left. -/
def Chained (start : Uuid → Files) : List WriteRecord → Prop
  | [] => True
  | record :: records =>
    record.replaced = contents start records record.tenantId record.path ∧ Chained start records

theorem checkPaths_nodup {writes : List VaultNoteWrite} (h : checkPaths env writes = .ok ()) :
    (writes.map (·.relativePath)).Nodup := by
  obtain ⟨seen, hfold, -⟩ := bind_eq_ok.1 h
  clear h
  suffices hgeneral : ∀ (writes : List VaultNoteWrite) (before seen : List String),
      writes.foldlM (fun seen write => do
        ensure (!seen.contains write.relativePath)
          ("invalid Domain Vault note path " ++ write.relativePath.quote)
        checkNotePath env write.relativePath
        .ok (write.relativePath :: seen)) before = .ok seen →
      (writes.map (·.relativePath)).Nodup ∧ ∀ path ∈ before, path ∉ writes.map (·.relativePath) by
    exact (hgeneral writes [] seen hfold).1
  intro writes
  induction writes with
  | nil => simp
  | cons write writes ih =>
    intro before seen hfold
    rw [foldlM_cons] at hfold
    obtain ⟨between, hbetween, hrest⟩ := bind_eq_ok.1 hfold
    obtain ⟨⟨⟩, hnew, ⟨⟩, -, hbetween⟩ := bind₂_eq_ok.1 hbetween
    cases hbetween
    obtain ⟨hnodup, hbefore⟩ := ih _ _ hrest
    have hnew : write.relativePath ∉ before := by simpa using ensure_eq_ok.1 hnew
    constructor
    · exact nodup_cons.2 ⟨hbefore _ mem_cons_self, hnodup⟩
    · intro path hpath hmem
      rcases mem_cons.1 hmem with rfl | hmem
      · exact hnew hpath
      · exact hbefore path (mem_cons_of_mem _ hpath) hmem

theorem writeAll_update {path : NotePath} {bytes : Option ByteArray}
    {writes : List VaultNoteWrite}
      (hpath : ∀ write ∈ writes, context.path write.relativePath ≠ path)
    (files : Files) : writeAll context (Function.update files path bytes) writes =
      Function.update (writeAll context files writes) path bytes := by
  induction writes generalizing files with
  | nil => rfl
  | cons write writes ih =>
    have hne := hpath write mem_cons_self
    simp only [writeAll, foldl_cons]
    rw [update_comm hne.symm]
    exact ih (fun write hwrite => hpath write (mem_cons_of_mem _ hwrite)) _

section

variable {context : Context} {files : Files} {start : Uuid → Files} {before : List WriteRecord}

variable {writes : List VaultNoteWrite}

theorem path_ne {write : VaultNoteWrite} (hnew : write.relativePath ∉ writes.map (·.relativePath)) :
    ∀ write' ∈ writes, context.path write'.relativePath ≠ context.path write.relativePath := by
  intro write' hwrite' hpath
  have hsame : write'.relativePath = write.relativePath := congrArg NotePath.relativePath hpath
  exact hnew (hsame ▸ List.mem_map_of_mem hwrite')

theorem contents_records_of_ne {tenantId : Uuid} (htenant : tenantId ≠ context.actor.tenantId) :
    contents start (records context files writes ++ before) tenantId =
      contents start before tenantId := by
  induction writes with
  | nil => rfl
  | cons write writes ih =>
    change Function.update _ context.actor.tenantId _ tenantId = _
    rw [update_of_ne htenant]
    exact ih

theorem contents_records (hnodup : (writes.map (·.relativePath)).Nodup) :
    contents start (records context files writes ++ before) context.actor.tenantId =
      writeAll context (contents start before context.actor.tenantId) writes := by
  induction writes with
  | nil => rfl
  | cons write writes ih =>
    obtain ⟨hnew, hnodup⟩ := nodup_cons.1 hnodup
    have hpaths := @path_ne context writes write hnew
    have hlater := @writeAll_update _ _ (some write.bytes) _ hpaths
      (contents start before context.actor.tenantId)
    rw [← ih hnodup] at hlater
    exact (update_self ..).trans hlater.symm

theorem chained_records (hnodup : (writes.map (·.relativePath)).Nodup)
    (hfiles : contents start before context.actor.tenantId = files)
      (hbefore : Chained start before) :
    Chained start (records context files writes ++ before) := by
  induction writes with
  | nil => exact hbefore
  | cons write writes ih =>
    obtain ⟨hnew, hnodup⟩ := nodup_cons.1 hnodup
    refine ⟨?_, ih hnodup⟩
    change files (context.path write.relativePath) =
      contents start (records context files writes ++ before) context.actor.tenantId
        (context.path write.relativePath)
    rw [contents_records hnodup, hfiles]
    -- The other writes of the batch are to other notes.
    have hpaths := @path_ne context writes write hnew
    have h := congrFun (@writeAll_update _ _ (files (context.path write.relativePath)) _ hpaths
      files) (context.path write.relativePath)
    rw [update_eq_self, update_self] at h
    exact h.symm

end

/-! ## The invariant -/

def KnownHead (vault : Vault) (head : Option String) : Prop := ∃ v, head = some v ∧ vault.Knows v

def heads : ChangeSetAction → List (Option String)
  | .edit input => [input.expectedGitRevision]
  | .refreshMaterializationRetry head | .returnMaterializationToReview _ head _ => [some head]
  | _ => []

/-- While the Vault has the head that the change set expects, the notes that were read are as they
were read. -/
def ReadsHold (vault : Vault) (row : KnowledgeChangeSetRow) (context : Context)
    (prepared : Prepared) : Prop :=
  ∃ head, row.expectedGitRevision = some head ∧
    vault.Seen head fun files => ∀ write ∈ prepared.writes, ∀ bytes, write.read = some bytes →
      files (context.path write.relativePath) = some bytes

def StageReads (vault : Vault) (actor : SpaceActor) : Stage → Prop
  | .check call | .write call =>
    call.actor = actor ∧ ∀ head ∈ heads call.action, KnownHead vault head
  | .snapshot _ => True
  | .refresh _ head => vault.Knows head
  | .opening row => KnownHead vault row.expectedGitRevision
  | .prepare row context _ prepared | .read row context _ _ prepared
  | .batch row context prepared => context.actor = actor ∧ ReadsHold vault row context prepared

/-- What holds in every world, for the notes that there were at the start. -/
structure WritesSound (start : Uuid → Files) (s : World) : Prop where
  rows : ∀ row ∈ s.store.changeSets, KnownHead (s.vaults row.tenantId) row.expectedGitRevision
  requests : ∀ r ∈ s.requests, StageReads (s.vaults r.actor.tenantId) r.actor r.stage
  exact : ∀ record ∈ s.written, ∀ bytes, record.read = some bytes → record.replaced = some bytes
  chained : Chained start s.written
  files : ∀ tenantId, (s.vaults tenantId).value = contents start s.written tenantId

variable {vault : Vault}

theorem KnownHead.commit {head : Option String} (h : KnownHead vault head)
    (oid : String) (files : Files) : KnownHead (vault.commit oid files) head := by
  obtain ⟨v, rfl, hv⟩ := h
  exact ⟨v, rfl, hv.commit oid files⟩

variable {row : KnowledgeChangeSetRow}

theorem ReadsHold.commit {prepared : Prepared} (h : ReadsHold vault row context prepared)
    {oid : String} (hfresh : ¬ vault.Knows oid)
    (files : Files) : ReadsHold (vault.commit oid files) row context prepared := by
  obtain ⟨head, hhead, hseen⟩ := h
  exact ⟨head, hhead, hseen.commit hfresh files⟩

theorem StageReads.commit {actor : SpaceActor} {stage : Stage}
    (h : StageReads vault actor stage) {oid : String} (hfresh : ¬ vault.Knows oid)
    (files : Files) : StageReads (vault.commit oid files) actor stage := by
  cases stage with
  | check call | write call => exact ⟨h.1, fun head hhead => (h.2 head hhead).commit oid files⟩
  | snapshot row => trivial
  | refresh row head => exact Versioned.Knows.commit h oid files
  | opening row => exact KnownHead.commit h oid files
  | prepare row context operations prepared | read row context target operations prepared
  | batch row context prepared => exact ⟨h.1, h.2.commit hfresh files⟩

theorem ReadsHold.addsUnread (h : ReadsHold vault row context prepared)
    (hadds : AddsUnread prepared prepared') : ReadsHold vault row context prepared' := by
  obtain ⟨head, hhead, hseen⟩ := h
  obtain ⟨added, hadded, hunread⟩ := hadds
  refine ⟨head, hhead, hseen.mono fun files hfiles write hwrite bytes hread => ?_⟩
  rw [hadded] at hwrite
  rcases mem_append.1 hwrite with hold | hnew
  · exact hfiles write hold bytes hread
  · rw [hunread write hnew] at hread
    cases hread

theorem ReadsHold.changeTarget (h : ReadsHold vault row context prepared) {target : Target}
    {bytes : ByteArray} (hread : vault.value (context.path target.object.path) = some bytes)
    (hchange : changeTarget env objects context target bytes prepared = .ok prepared') :
    ReadsHold vault row context prepared' := by
  obtain ⟨head, hhead, hseen⟩ := h
  obtain ⟨written, hwrites⟩ := changeTarget_writes hchange
  have hnow := Versioned.Knows.seen (P := fun files : Files =>
    files (context.path target.object.path) = some bytes) hseen.knows hread
  refine ⟨head, hhead, (hseen.and hnow).mono ?_⟩
  rintro files ⟨hfiles, hnow⟩ write hwrite bytes' hbytes
  rw [hwrites] at hwrite
  rcases mem_append.1 hwrite with hold | hnew
  · exact hfiles write hold bytes' hbytes
  · obtain rfl := mem_singleton.1 hnew
    cases hbytes
    exact hnow

/-! ## What a step keeps -/

section

variable {start : Uuid → Files} {s : World}

theorem WritesSound.congr (h : WritesSound start s) {s' : World} (hvaults : s'.vaults = s.vaults)
    (hwritten : s'.written = s.written)
    (hrows : ∀ row ∈ s'.store.changeSets, KnownHead (s.vaults row.tenantId) row.expectedGitRevision)
    (hrequests : ∀ r ∈ s'.requests, StageReads (s.vaults r.actor.tenantId) r.actor r.stage) :
    WritesSound start s' where
  rows := by rwa [hvaults]
  requests := by rwa [hvaults]
  exact := by
    rw [hwritten]
    exact h.exact
  chained := by
    rw [hwritten]
    exact h.chained
  files := by
    rw [hvaults, hwritten]
    exact h.files

variable {oid : String}

theorem WritesSound.setVault (h : WritesSound start s) {tenantId : Uuid}
    (hfresh : ¬ (s.vaults tenantId).Knows oid) (files : Files) {written : List WriteRecord}
    (hexact : ∀ record ∈ written, ∀ bytes, record.read = some bytes → record.replaced = some bytes)
    (hchained : Chained start written)
    (hfiles : Function.update (fun t => (s.vaults t).value) tenantId files =
      contents start written) : WritesSound start
      { s.setVault tenantId ((s.vaults tenantId).commit oid files) with written } where
  rows row hrow := by
    have hknown := h.rows row hrow
    change KnownHead (Function.update s.vaults tenantId _ row.tenantId) _
    by_cases htenant : row.tenantId = tenantId
    · rw [htenant, update_self]
      exact (htenant ▸ hknown).commit oid files
    · rw [update_of_ne htenant]
      exact hknown
  requests r hr := by
    have hreads := h.requests r hr
    change StageReads (Function.update s.vaults tenantId _ r.actor.tenantId) _ _
    by_cases htenant : r.actor.tenantId = tenantId
    · rw [htenant, update_self]
      exact (htenant ▸ hreads).commit hfresh files
    · rw [update_of_ne htenant]
      exact hreads
  exact := hexact
  chained := hchained
  files t := by
    rw [← congrFun hfiles t]
    change (Function.update s.vaults tenantId _ t).value = _
    by_cases ht : t = tenantId
    · rw [ht, update_self, update_self]
      rfl
    · rw [update_of_ne ht, update_of_ne ht]

section

variable (action : ChangeSetAction) (now : ℤ) (userId : Uuid) (row : KnowledgeChangeSetRow)

theorem apply_expectedGitRevision :
    (action.apply now userId row).expectedGitRevision = row.expectedGitRevision ∨
      (action.apply now userId row).expectedGitRevision ∈ heads action := by
  cases action with
  | edit | refreshMaterializationRetry | returnMaterializationToReview =>
    exact .inr mem_cons_self
  | decide | beginMaterialization | completeMaterialization | failMaterialization => exact .inl rfl

theorem apply_tenantId : (action.apply now userId row).tenantId = row.tenantId := by
  cases action <;> rfl

end

variable {call : ChangeSetCall}

theorem WritesSound.write (h : WritesSound start s) {store : ChangeSetStore}
    {row' : KnowledgeChangeSetRow}
    (hheads : ∀ head ∈ heads call.action, KnownHead (s.vaults call.actor.tenantId) head)
    (hwrite : s.store.write call = .ok (store, row')) :
    KnownHead (s.vaults call.actor.tenantId) row'.expectedGitRevision ∧
      WritesSound start { s with store } := by
  obtain ⟨row, objects, htarget, -, hresult⟩ := write_ok hwrite
  cases hresult
  obtain ⟨hrow, -, htenant, -, -⟩ := target_eq_some.1 htarget
  have hknown : KnownHead (s.vaults call.actor.tenantId)
      (call.action.apply s.store.now call.actor.userId row).expectedGitRevision := by
    rcases apply_expectedGitRevision call.action s.store.now call.actor.userId row with heq | hmem
    · rw [heq, ← htenant]
      exact h.rows row hrow
    · exact hheads _ hmem
  refine ⟨hknown, h.congr rfl rfl (fun x hx => ?_) h.requests⟩
  rcases (Table.mem_put hrow (apply_id _ _ _).symm).1 hx with rfl | ⟨hx, -⟩
  · rwa [apply_tenantId, htenant]
  · exact h.rows x hx

variable {actor : SpaceActor} {vault : Vault}

theorem stageReads_refused (hactor : call.actor = actor) (detail : String) :
    ∀ stage ∈ refused call detail, StageReads vault actor stage := by
  intro stage hstage
  unfold refused at hstage
  split at hstage
  · cases hstage
    exact ⟨hactor, nofun⟩
  · cases hstage

theorem stageReads_failing (vault : Vault) (actor : SpaceActor) (row : KnowledgeChangeSetRow)
    (detail : String) : StageReads vault actor (failing actor row detail) :=
  ⟨rfl, nofun⟩

variable {row : KnowledgeChangeSetRow}

theorem stageReads_following (hactor : call.actor = actor)
    (hrow : KnownHead vault row.expectedGitRevision) :
    ∀ stage ∈ following call row, StageReads vault actor stage := by
  intro stage hstage
  unfold following at hstage
  split at hstage
  · cases hstage
    exact ⟨hactor, nofun⟩
  · cases hstage
    exact ⟨hactor, nofun⟩
  · cases hstage
    exact hrow
  · cases hstage

theorem readNoteReconciled_ok {vault vault' : Vault} {path : NotePath}
    {expectedHash : Option String} {bytes : ByteArray} {externallyChanged : Bool}
    (h : readNoteReconciled env vault path expectedHash oid =
      .ok (vault', bytes, externallyChanged)) :
    checkNotePath env path.relativePath = .ok () ∧ vault.value path = some bytes ∧
      externallyChanged = decide (expectedHash ≠ some (env.hash bytes)) ∧
      vault' = if externallyChanged then vault.commit oid vault.value else vault := by
  obtain ⟨⟨⟩, hpath, bytes', hbytes, h⟩ := bind₂_eq_ok.1 h
  cases h
  exact ⟨hpath, orFail_eq_ok.1 hbytes, rfl, rfl⟩

variable {states : List VaultNoteState} {state : VaultNoteState} {context : Context}

theorem writeNotesBatch_ok {vault vault' : Vault}
    {writes : List VaultNoteWrite} {expectedGitRevision : Option String}
    (h : writeNotesBatch env vault context writes expectedGitRevision oid =
      .ok (vault', state :: states)) :
    (∀ expected ∈ expectedGitRevision, expected = vault.version) ∧ checkPaths env writes = .ok () ∧
      vault' = vault.commit oid (writeAll context vault.value writes) ∧
      state :: states = noteStates env writes oid := by
  unfold writeNotesBatch at h
  split_ifs at h
  · cases h
  · obtain ⟨⟨⟩, hexpected, h⟩ := bind_eq_ok.1 h
    obtain ⟨⟨⟩, hpaths, h⟩ := bind_eq_ok.1 h
    obtain ⟨rfl, hstates⟩ := Prod.mk.inj (Except.ok.inj h)
    refine ⟨?_, hpaths, rfl, hstates.symm⟩
    simpa [Option.all_eq_true] using ensure_eq_ok.1 hexpected

theorem WritesSound.readNote (h : WritesSound start s) {tenantId : Uuid}
    (hfresh : ¬ (s.vaults tenantId).Knows oid) (externallyChanged : Bool) :
    WritesSound start (s.setVault tenantId
      (if externallyChanged then (s.vaults tenantId).commit oid (s.vaults tenantId).value
        else s.vaults tenantId)) := by
  cases externallyChanged with
  | false =>
    have hsame : s.setVault tenantId (s.vaults tenantId) = s := by
      simp [World.setVault, update_eq_self]
    simpa [hsame] using h
  | true =>
    refine h.setVault hfresh _ h.exact h.chained ?_
    rw [update_eq_self (f := fun t => (s.vaults t).value)]
    exact funext h.files

theorem WritesSound.batch (h : WritesSound start s) {prepared : Prepared}
    (hreads : ReadsHold (s.vaults context.actor.tenantId) row context prepared)
    (hfresh : ¬ (s.vaults context.actor.tenantId).Knows oid)
    (hbatch : writeNotesBatch env (s.vaults context.actor.tenantId) context prepared.writes
      row.expectedGitRevision oid = .ok (vault, state :: states)) : WritesSound start
      { s.setVault context.actor.tenantId vault with
        written :=
          records context (s.vaults context.actor.tenantId).value prepared.writes ++ s.written
            } := by
  obtain ⟨hexpected, hpaths, rfl, -⟩ := writeNotesBatch_ok hbatch
  have hnodup := checkPaths_nodup hpaths
  obtain ⟨head, hhead, hseen⟩ := hreads
  have hhold := hseen.holds (hexpected head hhead).symm
  have hfiles := h.files context.actor.tenantId
  refine h.setVault hfresh _ ?_ (chained_records hnodup hfiles.symm h.chained) ?_
  · intro record hrecord bytes hread
    rcases mem_append.1 hrecord with hnew | hold
    · obtain ⟨write, hwrite, rfl⟩ := List.mem_map.1 hnew
      exact hhold write hwrite bytes hread
    · exact h.exact record hold bytes hread
  · funext t
    by_cases ht : t = context.actor.tenantId
    · rw [ht, update_self, contents_records hnodup, hfiles]
    · rw [update_of_ne ht, contents_records_of_ne ht]
      exact h.files t

theorem openContext_ok {operations : List Json}
    (h : openContext env actor row = .ok (context, operations)) : context.actor = actor := by
  obtain ⟨homeBundleId, -, operations', -, h⟩ := bind₂_eq_ok.1 h
  obtain ⟨pins, -, ⟨⟩, -, h⟩ := bind₂_eq_ok.1 h
  obtain ⟨⟨⟩, -, h⟩ := bind_eq_ok.1 h
  cases h
  rfl

theorem KnownHead.readsHold_empty (h : KnownHead vault row.expectedGitRevision) :
    ReadsHold vault row context .empty := by
  obtain ⟨head, hhead, hknown⟩ := h
  exact ⟨head, hhead, hknown, fun _ write hwrite => absurd hwrite not_mem_nil⟩

variable {r : Request}

theorem WritesSound.advance (h : WritesSound start s) (hr : r ∈ s.requests)
    (hfresh : r.stage.commits → ¬ (s.vaults r.actor.tenantId).Knows oid) :
    WritesSound start (s.advance env r oid).1 ∧ ∀ stage ∈ (s.advance env r oid).2,
        StageReads ((s.advance env r oid).1.vaults r.actor.tenantId) r.actor stage := by
  have hreads := h.requests r hr
  obtain ⟨actor, stage⟩ := r
  have hone : ∀ (vault : Vault) (next : Stage), StageReads vault actor next →
      ∀ stage ∈ some next, StageReads vault actor stage := by
    intro vault next hnext stage hstage
    cases hstage
    exact hnext
  unfold World.advance
  cases stage with
  | check call =>
    dsimp only
    split
    · exact ⟨h, hone _ _ hreads⟩
    · exact ⟨h, stageReads_refused hreads.1 _⟩
  | write call =>
    dsimp only
    split
    · rename_i store row hwrite
      obtain ⟨rfl, hheads⟩ := hreads
      obtain ⟨hknown, hsound⟩ := h.write hheads hwrite
      exact ⟨hsound, stageReads_following rfl hknown⟩
    · exact ⟨h, stageReads_refused hreads.1 _⟩
  | snapshot row => exact ⟨h, hone _ _ (Versioned.knows_version _)⟩
  | refresh row head =>
    dsimp only
    split
    · refine ⟨h, hone _ _ ⟨rfl, fun head' hhead' => ?_⟩⟩
      unfold retryCall callOn at hhead'
      split_ifs at hhead' <;>
        · cases mem_singleton.1 hhead'
          exact ⟨head, rfl, hreads⟩
    · exact ⟨h, by simp⟩
  | opening row =>
    dsimp only
    split
    · rename_i context operations hopen
      exact ⟨h, hone _ _ ⟨openContext_ok hopen, KnownHead.readsHold_empty hreads⟩⟩
    · exact ⟨h, hone _ _ (stageReads_failing ..)⟩
  | prepare row context operations prepared =>
    obtain ⟨hactor, hhold⟩ := hreads
    cases operations with
    | nil => exact ⟨h, hone _ _ ⟨hactor, hhold⟩⟩
    | cons operation operations =>
      dsimp only
      split
      · rename_i hdone
        exact ⟨h, hone _ _ ⟨hactor, hhold.addsUnread (openOperation_addsUnread hdone)⟩⟩
      · exact ⟨h, hone _ _ ⟨hactor, hhold⟩⟩
      · exact ⟨h, hone _ _ (stageReads_failing ..)⟩
  | read row context target operations prepared =>
    obtain ⟨rfl, hhold⟩ := hreads
    dsimp only
    split
    · exact ⟨h, hone _ _ (stageReads_failing ..)⟩
    · rename_i vault bytes externallyChanged hread
      obtain ⟨-, hbytes, -, rfl⟩ := readNoteReconciled_ok hread
      have hsound := h.readNote (hfresh rfl) externallyChanged
      cases externallyChanged with
      | true => exact ⟨hsound, hone _ _ (stageReads_failing ..)⟩
      | false =>
        simp only [Bool.false_eq_true, if_false] at hsound ⊢
        split
        · rename_i prepared' hchange
          refine ⟨hsound, hone _ _ ⟨rfl, ?_⟩⟩
          simp only [World.setVault, update_self]
          exact hhold.changeTarget hbytes hchange
        · exact ⟨hsound, hone _ _ (stageReads_failing ..)⟩
  | batch row context prepared =>
    obtain ⟨rfl, hhold⟩ := hreads
    dsimp only
    split
    iterate 2 · exact ⟨h, hone _ _ (stageReads_failing ..)⟩
    · rename_i vault state states hbatch
      exact ⟨h.batch hhold (hfresh rfl) hbatch, hone _ _ ⟨rfl, nofun⟩⟩

variable {next : Option Stage}

theorem mem_proceed {index : ℕ} {r r' : Request} (h : r' ∈ (s.proceed index r next).requests) :
    r' ∈ s.requests ∨ ∃ stage ∈ next, r' = { r with stage } := by
  cases next with
  | none => exact .inl (mem_of_mem_eraseIdx h)
  | some stage =>
    rcases mem_or_eq_of_mem_set h with hold | rfl
    · exact .inl hold
    · exact .inr ⟨stage, rfl, rfl⟩

theorem advance_requests (r : Request) (oid : String) :
    (s.advance env r oid).1.requests = s.requests := by
  obtain ⟨actor, stage⟩ := r
  unfold World.advance
  cases stage with
  | prepare row context operations prepared =>
    cases operations with
    | nil => rfl
    | cons operation operations =>
      dsimp only
      split <;> rfl
  | read row context target operations prepared =>
    dsimp only
    split
    · rfl
    · split_ifs
      · rfl
      · split <;> rfl
  | snapshot row => rfl
  | _ =>
    dsimp only
    split <;> rfl

theorem WritesSound.proceed (h : WritesSound start s) {index : ℕ}
    (hnext : ∀ stage ∈ next, StageReads (s.vaults r.actor.tenantId) r.actor stage) :
    WritesSound start (s.proceed index r next) := by
  refine h.congr (World.proceed_vaults ..) (World.proceed_written ..)
    (World.proceed_store s index r next ▸ h.rows) fun r' hr' => ?_
  rcases mem_proceed hr' with hold | ⟨stage, hstage, rfl⟩
  · exact h.requests r' hold
  · exact hnext stage hstage

theorem WritesSound.begin (h : WritesSound start s) {stage : Stage}
    (hstage : StageReads (s.vaults actor.tenantId) actor stage) :
    WritesSound start (s.start actor stage) := by
  refine h.congr rfl rfl h.rows fun r hr => ?_
  rcases mem_append.1 hr with hold | hnew
  · exact h.requests r hold
  · obtain rfl := mem_singleton.1 hnew
    exact hstage

theorem stageReads_faulted (h : StageReads (s.vaults r.actor.tenantId) r.actor r.stage)
    (detail : String) :
    ∀ stage ∈ faulted r detail, StageReads (s.vaults r.actor.tenantId) r.actor stage := by
  obtain ⟨actor, stage⟩ := r
  intro next hnext
  cases stage with
  | check call | write call => exact stageReads_refused h.1 _ next hnext
  | snapshot row | refresh row head => cases hnext
  | opening | prepare | read | batch =>
    cases hnext
    exact stageReads_failing ..

theorem WritesSound.create (h : WritesSound start s) {input : NewChangeSet}
    (hvalid : s.validNew input) :
    WritesSound start { s with store := (s.store.create input).getD s.store } := by
  refine h.congr rfl rfl (fun row hrow => ?_) h.requests
  cases hcreate : s.store.create input with
  | none =>
    rw [hcreate] at hrow
    exact h.rows row hrow
  | some store =>
    rw [hcreate] at hrow
    unfold ChangeSetStore.create at hcreate
    split_ifs at hcreate with htaken
    obtain ⟨changeSets, hinsert, rfl⟩ := map_eq_some_iff.1 hcreate
    rcases (Table.mem_insert hinsert).1 hrow with hold | rfl
    · exact h.rows row hold
    · obtain ⟨head, hhead, hknows⟩ :=
        (Option.any_eq_true _ _).1 (Bool.and_eq_true_iff.1 hvalid).2
      exact ⟨head, hhead, of_decide_eq_true hknows⟩

theorem WritesSound.step (h : WritesSound start s) {a : Label} {s' : World}
    (hstep : (machine env).step s a = some s') : WritesSound start s' := by
  cases a with
  | access registry | tick elapsed =>
    cases hstep
    exact h.congr rfl rfl h.rows h.requests
  | job id sources =>
    obtain ⟨-, hs'⟩ := ite_none_right_eq_some.1 hstep
    cases hs'
    exact h.congr rfl rfl h.rows h.requests
  | create input =>
    obtain ⟨hvalid, hs'⟩ := ite_none_right_eq_some.1 hstep
    cases hs'
    exact h.create hvalid
  | edit actor changeSetId input =>
    cases hstep
    refine h.begin ⟨rfl, fun head hhead => ?_⟩
    obtain rfl := mem_singleton.1 hhead
    exact ⟨_, rfl, Versioned.knows_version _⟩
  | accept | reject =>
    cases hstep
    exact h.begin ⟨rfl, nofun⟩
  | retry actor changeSetId expectedRevision =>
    dsimp only at hstep
    split at hstep
    · split_ifs at hstep <;> cases hstep
      · exact h.begin trivial
      · exact h
    · cases hstep
      exact h
  | step index oid =>
    obtain ⟨r, hr, hstep⟩ := bind_eq_some_iff.1 hstep
    obtain ⟨hfresh, hs'⟩ := ite_none_right_eq_some.1 hstep
    cases hs'
    have hnew : r.stage.commits → ¬ (s.vaults r.actor.tenantId).Knows oid := by
      intro hcommits
      rw [hcommits, Bool.not_true, Bool.false_or] at hfresh
      simpa using (Bool.and_eq_true_iff.1 hfresh).2
    obtain ⟨hsound, hnext⟩ := WritesSound.advance h (mem_of_getElem? hr) hnew
    exact hsound.proceed hnext
  | fault index detail =>
    obtain ⟨r, hr, rfl⟩ := map_eq_some_iff.1 hstep
    exact h.proceed (stageReads_faulted (h.requests r (mem_of_getElem? hr)) detail)
  | die index =>
    obtain ⟨r, hr, rfl⟩ := map_eq_some_iff.1 hstep
    exact h.congr rfl rfl h.rows fun r' hr' => h.requests r' (mem_of_mem_eraseIdx hr')

end

/-! ## Runs -/

theorem writesSound_initial (access : Registry) (now : ℤ) (objects : Table KnowledgeObjectRow.id)
    (vaults : Uuid → Vault) : WritesSound (fun tenantId => (vaults tenantId).value)
      (World.initial access now objects vaults) where
  rows row hrow := absurd hrow (Table.not_mem_empty row)
  requests _ hr := absurd hr not_mem_nil
  exact _ hrecord := absurd hrecord not_mem_nil
  chained := trivial
  files _ := rfl

/-- What is written over a note that an operation has read is what it has read, and the writes of
each note form one chain from the note at the start to the one there is now. -/
theorem writes_replace_what_was_read (env : Env T) (access : Registry) (now : ℤ)
    (objects : Table KnowledgeObjectRow.id) (vaults : Uuid → Vault) {as : List Label} {s : World}
    (hrun : (machine env).exec (World.initial access now objects vaults) as = some s) :
    (∀ record ∈ s.written, ∀ bytes, record.read = some bytes → record.replaced = some bytes) ∧
      Chained (fun tenantId => (vaults tenantId).value) s.written ∧
      ∀ tenantId, (s.vaults tenantId).value =
        contents (fun tenantId => (vaults tenantId).value) s.written tenantId := by
  have hsound := (machine env).invariant (fun _ _ _ hs hstep => hs.step hstep)
    (writesSound_initial access now objects vaults) hrun
  exact ⟨hsound.exact, hsound.chained, hsound.files⟩

end

def sampleUpdateRun : List Label :=
  sampleAccepted 7 (sampleCreateNote "Body") "head" ++ sampleSteps 8 "a" ++ sampleSteps 2 "b" ++
    sampleAccepted 8 (sampleUpdateNote "Second") "a" ++ sampleSteps 9 "b"

theorem writes_replace_what_was_read_sample :
    ∃ s, (machine sampleEnv).exec sampleWorld sampleUpdateRun = some s ∧
      (∃ record ∈ s.written, record.read = some (sampleNote "Body").toUTF8 ∧
        record.bytes = (sampleNote "Second").toUTF8) ∧
      ∀ record ∈ s.written, ∀ bytes, record.read = some bytes → record.replaced = some bytes := by
  have hrun : ∃ s, (machine sampleEnv).exec sampleWorld sampleUpdateRun = some s ∧
      ∃ record ∈ s.written, record.read = some (sampleNote "Body").toUTF8 ∧
        record.bytes = (sampleNote "Second").toUTF8 := by decide +kernel
  obtain ⟨s, hs, hrecord⟩ := hrun
  exact ⟨s, hs, hrecord, (writes_replace_what_was_read sampleEnv sampleAccess 0 .empty _ hs).1⟩

/-- A note is made and committed, the completion fails, and the change set is edited and accepted
again. -/
def sampleRewriteRun : List Label :=
  sampleAccepted 7 (sampleCreateNote "Body") "head" ++ sampleSteps 8 "a" ++
    [.step 0 "b", .fault 0 "knowledge job persistence failed"] ++ sampleSteps 2 "b" ++
    [.edit ⟨1, 2⟩ 7 ⟨4, "title", "", sampleCreateNote "Second", .array [], none⟩] ++
    sampleSteps 2 "b" ++ [.accept ⟨1, 2⟩ 7 5 none] ++ sampleSteps 8 "b"

/-- The second note replaces the first one, which no step of the change set has read. -/
theorem note_rewritten_unread :
    ∃ s, (machine sampleEnv).exec sampleWorld sampleRewriteRun = some s ∧
      ∃ record ∈ s.written, record.replaced = some (sampleNote "Body").toUTF8 ∧
        record.bytes = (sampleNote "Second").toUTF8 ∧ record.read = none := by
  decide +kernel

end Gadgetron.Jobs.Materialize
