import Gadgetron.Jobs.Applicable
import Gadgetron.Jobs.Stranding

/-!
# Attempts to materialize a change set

A materialization that nothing comes in between of is refused, applies the change set, or fails.
-/

namespace Gadgetron.Jobs.Materialize

open Lib Policy Spaces List Option

structure Basis where
  objects : Table KnowledgeObjectRow.id
  files : Files
  actor : SpaceActor
  row : KnowledgeChangeSetRow

namespace Basis

variable {T : Type} (env : Env T) (b : Basis) (store : ChangeSetStore) (vault : Vault)

/-! ## Phases of a materialization -/

abbrev begun : KnowledgeChangeSetRow := b.row.beginMaterialization

/-- The row is this one, and registry and notes are as they were. -/
structure Quiet (row : KnowledgeChangeSetRow) : Prop where
  mem : row ∈ store.changeSets
  objects : store.objects = b.objects
  files : vault.value = b.files

structure Written (context : Context) (prepared : Prepared) : Prop where
  mem : b.begun ∈ store.changeSets
  objects : store.objects = b.objects
  prepares : Prepares env b.objects b.files b.actor b.row context prepared
  nonempty : prepared.writes ≠ []
  paths : checkPaths env prepared.writes = .ok ()
  files : vault.value = writeAll context b.files prepared.writes

inductive Leaves : Files → Prop
  | before : Leaves b.files
  | after {context : Context} {prepared : Prepared}
      (prepares : Prepares env b.objects b.files b.actor b.row context prepared)
      (paths : checkPaths env prepared.writes = .ok ()) :
      Leaves (writeAll context b.files prepared.writes)

/-- The materialization has not succeeded, and the row is this one. -/
structure Failed (row : KnowledgeChangeSetRow) : Prop where
  mem : row ∈ store.changeSets
  objects : store.objects = b.objects
  leaves : b.Leaves env vault.value

inductive Ended : Prop
  | refused (quiet : b.Quiet store vault b.row)
  | stranded (failed : b.Failed env store vault b.begun)
  | failed (detail : String)
      (failed : b.Failed env store vault (b.begun.failMaterialization detail))
  | applied (context : Context) (prepared : Prepared) (now : ℤ) (gitRevision : String)
      (applies : Applies env b.objects b.files b.actor b.row context prepared store.objects)
      (mem : b.begun.completeMaterialization now gitRevision (materialized env prepared) ∈
        store.changeSets)
      (files : vault.value = writeAll context b.files prepared.writes)

inductive Phase : Option Stage → Prop
  | beginCheck (quiet : b.Quiet store vault b.row) :
      Phase (some (.check (callOn b.actor b.row .beginMaterialization)))
  | beginWrite (quiet : b.Quiet store vault b.row) :
      Phase (some (.write (callOn b.actor b.row .beginMaterialization)))
  | opening (quiet : b.Quiet store vault b.begun) : Phase (some (.opening b.begun))
  | prepare {context : Context} {operations : List Json} {done rest : List (Json × ℕ)}
      {prepared : Prepared} (quiet : b.Quiet store vault b.begun)
      (opened : openContext env b.actor b.row = .ok (context, operations))
      (split : operations.zipIdx = done ++ rest)
      (sofar : done.foldlM (prepareOperation env b.objects b.files context) .empty =
        .ok prepared) : Phase (some (.prepare b.begun context rest prepared))
  | read {context : Context} {operations : List Json} {done rest : List (Json × ℕ)}
      {operation : Json × ℕ} {target : Target} {prepared : Prepared}
        (quiet : b.Quiet store vault b.begun)
      (opened : openContext env b.actor b.row = .ok (context, operations))
      (split : operations.zipIdx = done ++ operation :: rest)
      (sofar : done.foldlM (prepareOperation env b.objects b.files context) .empty = .ok prepared)
      (reads : openOperation env b.objects context operation.2 operation.1 prepared =
        .ok (.reads target)) : Phase (some (.read b.begun context target rest prepared))
  | batch {context : Context} {prepared : Prepared} (quiet : b.Quiet store vault b.begun)
      (prepares : Prepares env b.objects b.files b.actor b.row context prepared) :
      Phase (some (.batch b.begun context prepared))
  | completeCheck {context : Context} {prepared : Prepared} (gitRevision : String)
      (written : b.Written env store vault context prepared) :
      Phase (some (.check (callOn b.actor b.begun
        (.completeMaterialization gitRevision (materialized env prepared)))))
  | completeWrite {context : Context} {prepared : Prepared} (gitRevision : String)
      (written : b.Written env store vault context prepared)
      (valid : ∀ object ∈ materialized env prepared, validObject env.isAlphanumeric object) :
      Phase (some (.write (callOn b.actor b.begun
        (.completeMaterialization gitRevision (materialized env prepared)))))
  | failCheck (detail : String) (failed : b.Failed env store vault b.begun) :
      Phase (some (.check (callOn b.actor b.begun (.failMaterialization detail))))
  | failWrite (detail : String) (failed : b.Failed env store vault b.begun) :
      Phase (some (.write (callOn b.actor b.begun (.failMaterialization detail))))
  | finished (ended : b.Ended env store vault) : Phase none

variable {env b store vault} {s s' : World} {row : KnowledgeChangeSetRow}

theorem Quiet.failed (h : b.Quiet store vault row) : b.Failed env store vault row where
  mem := h.mem
  objects := h.objects
  leaves := by
    rw [h.files]
    exact .before

theorem Written.failed {context : Context} {prepared : Prepared}
    (h : b.Written env store vault context prepared) : b.Failed env store vault b.begun where
  mem := h.mem
  objects := h.objects
  leaves := by
    rw [h.files]
    exact .after h.prepares h.paths

variable {call : ChangeSetCall}

theorem write_result {store : ChangeSetStore}
    {result : ChangeSetStore × KnowledgeChangeSetRow} (hrow : row ∈ store.changeSets)
    (hid : call.changeSetId = row.id) (h : store.write call = .ok result) :
    ∃ objects, call.action.objects.foldlM
        (ChangeSetStore.writeObject call.actor.tenantId row.outputVaultId) store.objects =
          .ok objects ∧ result = ({ store.writeRow call row with objects },
        call.action.apply store.now call.actor.userId row) ∧
      call.action.apply store.now call.actor.userId row ∈ result.1.changeSets := by
  obtain ⟨row', objects, htarget, hobjects, rfl⟩ := write_ok h
  obtain ⟨hrow', hid', -⟩ := target_eq_some.1 htarget
  obtain rfl := Table.eq_of_key hrow hrow' (hid.symm.trans hid'.symm)
  refine ⟨objects, hobjects, rfl, ?_⟩
  exact (Table.mem_put hrow (apply_id ..).symm).2 (.inl rfl)

theorem foldlM_snoc {context : Context} {done : List (Json × ℕ)} {operation : Json × ℕ}
    {prepared prepared' : Prepared}
    (hdone : done.foldlM (prepareOperation env b.objects b.files context) .empty = .ok prepared)
    (hstep : prepareOperation env b.objects b.files context prepared operation = .ok prepared') :
    (done ++ [operation]).foldlM (prepareOperation env b.objects b.files context) .empty =
      .ok prepared' := by
  rw [List.foldlM_append]
  refine bind_eq_ok.2 ⟨prepared, hdone, ?_⟩
  rw [foldlM_cons]
  exact bind_eq_ok.2 ⟨prepared', hstep, rfl⟩

theorem hashed_noteStates (prepared : Prepared) (oid : String) :
    hashed prepared.objects (noteStates env prepared.writes oid) = materialized env prepared := by
  unfold materialized hashed noteStates
  simp only [find?_map, Option.map_map, Function.comp_def]

theorem valid_of_check {store : ChangeSetStore} {gitRevision : String}
    {objects : List MaterializedObjectInput}
    (haction : call.action = .completeMaterialization gitRevision objects)
    (h : store.check env.parse env.isAlphanumeric call = .ok ()) :
    ∀ object ∈ objects, validObject env.isAlphanumeric object := by
  obtain ⟨⟨⟩, -, row, -, h⟩ := bind₂_eq_ok.1 h
  obtain ⟨⟨⟩, -, h⟩ := bind_eq_ok.1 h
  rw [haction] at h
  intro object hobject
  have hvalid := forM_eq_ok.1 h object hobject
  unfold require at hvalid
  split_ifs at hvalid with hobject
  exact hobject

abbrev At (env : Env T) (b : Basis) (s : World) (next : Option Stage) : Prop :=
  b.Phase env s.store (s.vaults b.actor.tenantId) next

theorem at_setVault {vault : Vault} {next : Option Stage} :
    b.At env (s.setVault b.actor.tenantId vault) next ↔ b.Phase env s.store vault next := by
  simp only [At, World.setVault, Function.update_self]

/-- From this stage the materialization comes to one of its phases. -/
abbrev Advances (env : Env T) (b : Basis) (s : World) (oid : String) (stage : Stage) : Prop :=
  b.At env (s.advance env ⟨b.actor, stage⟩ oid).1 (s.advance env ⟨b.actor, stage⟩ oid).2

section

variable {oid : String} {context : Context} {operations : List Json}
  {done rest : List (Json × ℕ)} {prepared : Prepared} {gitRevision detail : String}

theorem advances_beginCheck (quiet : b.Quiet s.store (s.vaults b.actor.tenantId) b.row) :
    b.Advances env s oid (.check (callOn b.actor b.row .beginMaterialization)) := by
  unfold Advances World.advance
  dsimp only
  split
  · exact .beginWrite quiet
  · exact .finished (.refused quiet)

theorem advances_beginWrite (quiet : b.Quiet s.store (s.vaults b.actor.tenantId) b.row) :
    b.Advances env s oid (.write (callOn b.actor b.row .beginMaterialization)) := by
  unfold Advances World.advance
  dsimp only
  split
  · rename_i store row hwrite
    obtain ⟨objects, hobjects, hresult, hmem⟩ := write_result quiet.mem rfl hwrite
    cases hobjects
    cases hresult
    exact .opening ⟨hmem, quiet.objects, quiet.files⟩
  · exact .finished (.refused quiet)

section

variable (quiet : b.Quiet s.store (s.vaults b.actor.tenantId) b.begun)
include quiet

theorem advances_opening :
    b.Advances env s oid (.opening b.begun) := by
  unfold Advances World.advance
  dsimp only
  split
  · rename_i context operations hopen
    exact .prepare quiet hopen (nil_append _).symm rfl
  · exact .failCheck _ quiet.failed

theorem advances_prepare (opened : openContext env b.actor b.row = .ok (context, operations))
    (split : operations.zipIdx = done ++ rest)
    (sofar : done.foldlM (prepareOperation env b.objects b.files context) .empty = .ok prepared) :
    b.Advances env s oid (.prepare b.begun context rest prepared) := by
  cases rest with
  | nil =>
    rw [append_nil] at split
    exact .batch quiet ⟨operations, opened, by rw [split]; exact sofar⟩
  | cons operation rest =>
    obtain ⟨operation, position⟩ := operation
    unfold Advances World.advance
    dsimp only
    rw [quiet.objects]
    split
    · rename_i prepared' hdone
      have hstep : prepareOperation env b.objects b.files context prepared
          (operation, position) = .ok prepared' := bind_eq_ok.2 ⟨_, hdone, rfl⟩
      refine .prepare quiet opened ?_ (foldlM_snoc sofar hstep)
      rw [split, List.append_assoc]
      rfl
    · rename_i target hreads
      exact .read quiet opened split sofar hreads
    · exact .failCheck _ quiet.failed

theorem advances_read {operation : Json × ℕ} {target : Target}
    (opened : openContext env b.actor b.row = .ok (context, operations))
    (split : operations.zipIdx = done ++ operation :: rest)
    (sofar : done.foldlM (prepareOperation env b.objects b.files context) .empty = .ok prepared)
    (reads : openOperation env b.objects context operation.2 operation.1 prepared =
      .ok (.reads target)) : b.Advances env s oid (.read b.begun context target rest prepared) := by
  unfold Advances World.advance
  dsimp only
  split
  · exact .failCheck _ quiet.failed
  · rename_i vault bytes externallyChanged hread
    obtain ⟨hpath, hbytes, hchanged, rfl⟩ := readNoteReconciled_ok hread
    have hquiet : b.Quiet s.store (if externallyChanged then
        (s.vaults b.actor.tenantId).commit oid (s.vaults b.actor.tenantId).value
        else s.vaults b.actor.tenantId) b.begun := by
      refine ⟨quiet.mem, quiet.objects, ?_⟩
      rw [← quiet.files]
      split_ifs <;> rfl
    cases hexternal : externallyChanged with
    | true =>
      rw [hexternal] at hquiet
      exact at_setVault.2 (.failCheck _ hquiet.failed)
    | false =>
      rw [hexternal] at hquiet hchanged
      simp only [Bool.false_eq_true, if_false] at hquiet ⊢
      have hexact : readExact env b.files (context.path target.object.path)
          target.object.contentHash = .ok bytes := by
        rw [quiet.files] at hbytes
        refine bind_eq_ok.2 ⟨(), hpath, bind_eq_ok.2 ⟨bytes, orFail_eq_ok.2 hbytes,
          bind_eq_ok.2 ⟨(), ensure_eq_ok.2 ?_, rfl⟩⟩⟩
        simpa using hchanged
      split
      · rename_i prepared' hchange
        have hchange' : changeTarget env b.objects context target bytes prepared =
            .ok prepared' := by
          rw [← quiet.objects]
          exact hchange
        refine at_setVault.2 (.prepare hquiet opened ?_
          (foldlM_snoc sofar (bind_eq_ok.2 ⟨_, reads, bind_eq_ok.2 ⟨_, hexact, hchange'⟩⟩)))
        rw [split, List.append_assoc]
        rfl
      · exact at_setVault.2 (.failCheck _ hquiet.failed)

theorem advances_batch (prepares : Prepares env b.objects b.files b.actor b.row context prepared) :
    b.Advances env s oid (.batch b.begun context prepared) := by
  unfold Advances World.advance
  dsimp only
  split
  · exact .failCheck _ quiet.failed
  · exact .failCheck _ quiet.failed
  · rename_i vault state states hbatch
    obtain ⟨-, hpaths, rfl, hstates⟩ := writeNotesBatch_ok hbatch
    rw [hstates, hashed_noteStates]
    refine at_setVault.2 (.completeCheck _
      ⟨quiet.mem, quiet.objects, prepares, ?_, hpaths, by rw [quiet.files]; rfl⟩)
    intro hnil
    rw [hnil] at hstates
    cases hstates

end

theorem advances_completeCheck
    (written : b.Written env s.store (s.vaults b.actor.tenantId) context prepared) :
    b.Advances env s oid (.check (callOn b.actor b.begun
      (.completeMaterialization gitRevision (materialized env prepared)))) := by
  unfold Advances World.advance
  dsimp only
  split
  · rename_i hcheck
    exact .completeWrite gitRevision written (valid_of_check rfl hcheck)
  · exact .failCheck _ written.failed

theorem advances_completeWrite
    (written : b.Written env s.store (s.vaults b.actor.tenantId) context prepared)
    (valid : ∀ object ∈ materialized env prepared, validObject env.isAlphanumeric object) :
    b.Advances env s oid (.write (callOn b.actor b.begun
      (.completeMaterialization gitRevision (materialized env prepared)))) := by
  unfold Advances World.advance
  dsimp only
  split
  · rename_i store row hwrite
    obtain ⟨objects, hobjects, hresult, hmem⟩ := write_result written.mem rfl hwrite
    cases hresult
    refine .finished (.applied context prepared _ gitRevision
      ⟨written.prepares, written.nonempty, written.paths, valid, ?_⟩ hmem written.files)
    rw [← written.objects]
    exact hobjects
  · exact .failCheck _ written.failed

theorem advances_failCheck
    (failed : b.Failed env s.store (s.vaults b.actor.tenantId) b.begun) :
    b.Advances env s oid (.check (callOn b.actor b.begun (.failMaterialization detail))) := by
  unfold Advances World.advance
  dsimp only
  split
  · exact .failWrite detail failed
  · exact .finished (.stranded failed)

theorem advances_failWrite
    (failed : b.Failed env s.store (s.vaults b.actor.tenantId) b.begun) :
    b.Advances env s oid (.write (callOn b.actor b.begun (.failMaterialization detail))) := by
  unfold Advances World.advance
  dsimp only
  split
  · rename_i store row hwrite
    obtain ⟨objects, hobjects, hresult, hmem⟩ := write_result failed.mem rfl hwrite
    cases hobjects
    cases hresult
    exact .finished (.failed detail ⟨hmem, failed.objects, failed.leaves⟩)
  · exact .finished (.stranded failed)

end

theorem At.advance {stage : Stage} (h : b.At env s (some stage)) (oid : String) :
    b.Advances env s oid stage := by
  cases h with
  | beginCheck quiet => exact advances_beginCheck quiet
  | beginWrite quiet => exact advances_beginWrite quiet
  | opening quiet => exact advances_opening quiet
  | prepare quiet opened split sofar => exact advances_prepare quiet opened split sofar
  | read quiet opened split sofar reads => exact advances_read quiet opened split sofar reads
  | batch quiet prepares => exact advances_batch quiet prepares
  | completeCheck gitRevision written => exact advances_completeCheck written
  | completeWrite gitRevision written valid => exact advances_completeWrite written valid
  | failCheck detail failed => exact advances_failCheck failed
  | failWrite detail failed => exact advances_failWrite failed

theorem Phase.faulted {stage : Stage} (h : b.Phase env store vault (some stage))
    (detail : String) : b.Phase env store vault (faulted ⟨b.actor, stage⟩ detail) := by
  cases h with
  | beginCheck quiet | beginWrite quiet => exact .finished (.refused quiet)
  | opening quiet | prepare quiet | read quiet | batch quiet => exact .failCheck _ quiet.failed
  | completeCheck _ written | completeWrite _ written => exact .failCheck _ written.failed
  | failCheck detail failed | failWrite detail failed => exact .finished (.stranded failed)

/-! ## The only request -/

end Basis

section

variable {T : Type} {env : Env T} {s s' : World} {actor : SpaceActor} {next : Option Stage}

/-- The only request is at this stage, or there is none any more. -/
def Alone (actor : SpaceActor) (s : World) (next : Option Stage) : Prop :=
  s.requests = (next.map (Request.mk actor)).toList

theorem alone_proceed {stage : Stage} (h : s.requests = [⟨actor, stage⟩]) (next : Option Stage) :
    Alone actor (s.proceed 0 ⟨actor, stage⟩ next) next := by
  cases next <;> simp [Alone, World.proceed, h]

theorem Alone.getElem? (h : Alone actor s next) {index : ℕ} {r : Request}
    (hr : s.requests[index]? = some r) :
    index = 0 ∧ ∃ stage, next = some stage ∧ r = ⟨actor, stage⟩ := by
  rw [h] at hr
  cases next with
  | none => simp at hr
  | some stage =>
    have hindex := (List.getElem?_eq_some_iff.1 hr).1
    obtain rfl : index = 0 := by simpa using hindex
    exact ⟨rfl, stage, rfl, by simpa using hr.symm⟩

theorem Alone.step (h : Alone actor s next) {index : ℕ} {oid : String}
    (hstep : (machine env).step s (.step index oid) = some s') :
    ∃ stage, next = some stage ∧ (stage.commits → s.freshHead actor.tenantId oid) ∧
      s'.store = (s.advance env ⟨actor, stage⟩ oid).1.store ∧
      s'.vaults = (s.advance env ⟨actor, stage⟩ oid).1.vaults ∧
      Alone actor s' (s.advance env ⟨actor, stage⟩ oid).2 := by
  obtain ⟨r, hr, hstep⟩ := bind_eq_some_iff.1 hstep
  obtain ⟨hfresh, hs'⟩ := ite_none_right_eq_some.1 hstep
  cases hs'
  obtain ⟨rfl, stage, rfl, rfl⟩ := h.getElem? hr
  refine ⟨stage, rfl, fun hcommits => ?_, World.proceed_store .., World.proceed_vaults ..,
    alone_proceed ((advance_requests ⟨actor, stage⟩ oid).trans h) _⟩
  simpa [hcommits] using hfresh

theorem Alone.exists_step {stage : Stage} (h : Alone actor s (some stage)) {oid : String}
    (hfresh : stage.commits → s.freshHead actor.tenantId oid) :
    ∃ s', (machine env).step s (.step 0 oid) = some s' := by
  have hr : s.requests[0]? = some ⟨actor, stage⟩ := by rw [h]; rfl
  refine ⟨_, bind_eq_some_iff.2 ⟨_, hr, ite_none_right_eq_some.2 ⟨?_, rfl⟩⟩⟩
  cases hcommits : stage.commits with
  | false => rfl
  | true => simpa using hfresh hcommits

end

namespace Basis

variable {T : Type} {env : Env T} {b : Basis} {s s' : World} {next : Option Stage}

section

variable (h : b.At env s next) (halone : Alone b.actor s next)
include h halone

theorem At.step {a : Label}
    (ha : OfRequest a) (hstep : (machine env).step s a = some s') :
    ∃ next', b.At env s' next' ∧ Alone b.actor s' next' := by
  cases a with
  | step index oid =>
    obtain ⟨stage, rfl, -, hstore, hvaults, halone'⟩ := halone.step hstep
    refine ⟨_, ?_, halone'⟩
    rw [At, hstore, hvaults]
    exact h.advance oid
  | fault index detail =>
    obtain ⟨r, hr, rfl⟩ := map_eq_some_iff.1 hstep
    obtain ⟨rfl, stage, rfl, rfl⟩ := halone.getElem? hr
    refine ⟨_, ?_, alone_proceed halone _⟩
    rw [At, World.proceed_store, World.proceed_vaults]
    exact h.faulted detail
  | _ => exact ha.elim

theorem At.exec {as : List Label}
    (has : ∀ a ∈ as, OfRequest a) {t : World} (hrun : (machine env).exec s as = some t) :
    ∃ next', b.At env t next' ∧ Alone b.actor t next' := by
  induction as generalizing s next with
  | nil =>
    cases hrun
    exact ⟨next, h, halone⟩
  | cons a as ih =>
    obtain ⟨s', hstep, hrest⟩ := (machine env).exec_cons_eq_some.1 hrun
    obtain ⟨next', h', halone'⟩ := h.step halone (has a mem_cons_self) hstep
    exact ih h' halone' (fun b hb => has b (mem_cons_of_mem _ hb)) hrest

theorem At.ended (hover : s.requests = []) :
    b.Ended env s.store (s.vaults b.actor.tenantId) := by
  cases next with
  | none =>
    cases h with
    | finished ended => exact ended
  | some stage =>
    rw [Alone, hover] at halone
    cases halone

end

end Basis

end Gadgetron.Jobs.Materialize
