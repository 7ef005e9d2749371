import Gadgetron.Penny.GadgetRegistry
import Gadgetron.Lib.Exec

/-!
# Reconfiguring the registry while gadgets are dispatched

`reconfigure` replaces the allowed set, the ask set and the mode snapshot one after the other;
`dispatch` loads the allowed set and then the ask set.
-/

namespace Gadgetron.Penny

open Lib GadgetRegistry List

/-- A stored name set.  The configuration it was computed from is not kept by the code. -/
structure Snapshot where
  source : GadgetsConfig
  names : OrdSet String

/-- How far a `reconfigure` call has come. -/
inductive Stage
  | begun
  | storedAllowed
  | storedAsk

/-- How far a dispatch has come. -/
inductive Phase
  | started
  | loadedAllowed (allowed : Snapshot)
  | loaded (isAllowed requiresApproval : Bool)
  | decided (outcome : Outcome)

structure Dispatch where
  name : String
  context : DispatchContext
  phase : Phase

/-- The three cells, the `reconfigure` call in progress, and the dispatches. -/
structure State where
  (allowedNames askNames : Snapshot)
  gadgetsConfig : GadgetsConfig
  reconfiguring : Option (GadgetsConfig × Stage)
  dispatches : ℕ → Option Dispatch

inductive Label
  /-- `reconfigure` begins; the sets are computed from the configuration. -/
  | reconfigure (gadgets : GadgetsConfig)
  | storeAllowed
  | storeAsk
  /-- The last store, after which `reconfigure` returns. -/
  | storeConfig
  | start (n : ℕ) (name : String) (context : DispatchContext)
  | loadAllowed (n : ℕ)
  | loadAsk (n : ℕ)
  /-- A gadget without a local provider is gated by the mode snapshot alone. -/
  | loadConfig (n : ℕ)
  | gate (n : ℕ)

namespace State

/-- The registry as `freeze` leaves it. -/
def frozen (R : GadgetRegistry) (gadgets : GadgetsConfig) : State where
  allowedNames := ⟨gadgets, R.allowedFor gadgets⟩
  askNames := ⟨gadgets, R.askFor gadgets⟩
  gadgetsConfig := gadgets
  reconfiguring := none
  dispatches _ := none

/-- The configurations in force: the last one stored in full and the one being stored. -/
def inForce (s : State) : List GadgetsConfig :=
  s.gadgetsConfig :: (s.reconfiguring.map Prod.fst).toList

def setPhase (s : State) (n : ℕ) (d : Dispatch) (phase : Phase) : State :=
  { s with dispatches := Function.update s.dispatches n (some { d with phase }) }

@[simp] theorem setPhase_dispatches_self (s : State) (n : ℕ) (d : Dispatch) (phase : Phase) :
    (s.setPhase n d phase).dispatches n = some { d with phase } :=
  Function.update_self ..

variable (R : GadgetRegistry)

/-- Whether a schema is allowed and must ask under a configuration; a forward-only one needs calls
to be forwarded. -/
def schemaGate (schema : GadgetSchema) (gadgets : GadgetsConfig) (askHandler : Bool) : Phase :=
  .loaded (toolIsEnabled schema gadgets askHandler) (toolAsks schema gadgets)

/-- One step; `none` when it is not enabled.  One `reconfigure` call runs at a time. -/
def step (s : State) : Label → Option State
  | .reconfigure gadgets =>
    match s.reconfiguring with
    | none => some { s with reconfiguring := some (gadgets, .begun) }
    | some _ => none
  | .storeAllowed =>
    match s.reconfiguring with
    | some (gadgets, .begun) => some
        { s with
          allowedNames := ⟨gadgets, R.allowedFor gadgets⟩
          reconfiguring := some (gadgets, .storedAllowed) }
    | _ => none
  | .storeAsk =>
    match s.reconfiguring with
    | some (gadgets, .storedAllowed) => some
        { s with
          askNames := ⟨gadgets, R.askFor gadgets⟩
          reconfiguring := some (gadgets, .storedAsk) }
    | _ => none
  | .storeConfig =>
    match s.reconfiguring with
    | some (gadgets, .storedAsk) =>
      some { s with gadgetsConfig := gadgets, reconfiguring := none }
    | _ => none
  | .start n name context =>
    match s.dispatches n with
    | none => some (s.setPhase n ⟨name, context, .started⟩
        (if (R.target name).isSome then .started else .decided .unknownGadget))
    | some _ => none
  | .loadAllowed n =>
    match s.dispatches n with
    | some d =>
      match d.phase, R.target d.name with
      | .started, some .static => some (s.setPhase n d (.loadedAllowed s.allowedNames))
      | _, _ => none
    | none => none
  | .loadAsk n =>
    match s.dispatches n with
    | some d =>
      match d.phase with
      | .loadedAllowed allowed => some (s.setPhase n d
          (.loaded (decide (d.name ∈ allowed.names)) (decide (d.name ∈ s.askNames.names))))
      | _ => none
    | none => none
  | .loadConfig n =>
    match s.dispatches n with
    | some d =>
      match d.phase, R.target d.name with
      | .started, some (.forwarded schema) =>
        some (s.setPhase n d (schemaGate schema s.gadgetsConfig R.forward))
      | .started, some (.dynamic schema) =>
        some (s.setPhase n d (schemaGate schema s.gadgetsConfig R.hasAskHandler))
      | _, _ => none
    | none => none
  | .gate n =>
    match s.dispatches n with
    | some d =>
      match d.phase, R.target d.name with
      | .loaded isAllowed requiresApproval, some target => some (s.setPhase n d
          (.decided (R.gate target d.context d.name isAllowed requiresApproval)))
      | _, _ => none
    | none => none

abbrev machine : Machine State Label := ⟨step R⟩

/-! ## What a step can do -/

/-- The configurations that the allowed set and the ask set come from. -/
def sources (s : State) : GadgetsConfig × GadgetsConfig :=
  match s.reconfiguring with
  | none | some (_, .begun) => (s.gadgetsConfig, s.gadgetsConfig)
  | some (gadgets, .storedAllowed) => (gadgets, s.gadgetsConfig)
  | some (gadgets, .storedAsk) => (gadgets, gadgets)

/-- The cells hold the sets of the configurations they should. -/
structure CellsInv (s : State) : Prop where
  sources : (s.allowedNames.source, s.askNames.source) = s.sources
  allowed : s.allowedNames.names = R.allowedFor s.allowedNames.source
  ask : s.askNames.names = R.askFor s.askNames.source

inductive Advance (s : State) (n : ℕ) (d : Dispatch) : Label → Phase → Prop
  | loadAllowed (h : d.phase = .started) :
      Advance s n d (.loadAllowed n) (.loadedAllowed s.allowedNames)
  | loadAsk {allowed : Snapshot} (h : d.phase = .loadedAllowed allowed) : Advance s n d (.loadAsk n)
        (.loaded (decide (d.name ∈ allowed.names)) (decide (d.name ∈ s.askNames.names)))
  | loadConfig {schema : GadgetSchema} {askHandler : Bool} (h : d.phase = .started)
      (hlocal : R.target d.name ≠ some .static) :
      Advance s n d (.loadConfig n) (schemaGate schema s.gadgetsConfig askHandler)
  | gate {target : Target} {isAllowed requiresApproval : Bool}
      (h : d.phase = .loaded isAllowed requiresApproval) :
      Advance s n d (.gate n) (.decided (R.gate target d.context d.name isAllowed requiresApproval))

variable {R} {s s' : State} {a : Label}

theorem CellsInv.allowed_inForce (h : s.CellsInv R) : s.allowedNames.source ∈ s.inForce := by
  have hsrc := congrArg Prod.fst h.sources
  unfold State.sources at hsrc
  unfold inForce
  rcases hr : s.reconfiguring with _ | ⟨gadgets, _ | _ | _⟩ <;> simp [hr] at hsrc ⊢ <;> simp [hsrc]

theorem CellsInv.ask_inForce (h : s.CellsInv R) : s.askNames.source ∈ s.inForce := by
  have hsrc := congrArg Prod.snd h.sources
  unfold State.sources at hsrc
  unfold inForce
  rcases hr : s.reconfiguring with _ | ⟨gadgets, _ | _ | _⟩ <;> simp [hr] at hsrc ⊢ <;> simp [hsrc]

/-- A step changes the cells and no dispatch, or one dispatch and no cell; only a `reconfigure` call
brings a configuration into force. -/
theorem step_cases (h : (machine R).step s a = some s') :
    (s'.dispatches = s.dispatches ∧ (s.CellsInv R → s'.CellsInv R) ∧
        ∀ gadgets ∈ s'.inForce, gadgets ∈ s.inForce ∨ a = .reconfigure gadgets) ∨
      ∃ n d phase, s' = s.setPhase n d phase ∧
        (s.dispatches n = none ∨ s.dispatches n = some d ∧ Advance R s n d a phase) := by
  cases a with
  | reconfigure gadgets =>
    simp only [step] at h
    split at h
    · rename_i hr
      cases h
      refine Or.inl ⟨rfl, fun hs => ⟨?_, hs.allowed, hs.ask⟩, fun _ hmem => ?_⟩
      · exact hs.sources.trans (by simp [State.sources, hr])
      · simpa [inForce, hr, eq_comm] using hmem
    · cases h
  | storeAllowed =>
    simp only [step] at h
    split at h
    · rename_i gadgets hr
      cases h
      refine Or.inl ⟨rfl, fun hs => ⟨?_, rfl, hs.ask⟩, fun _ hmem => Or.inl ?_⟩
      · have hsrc := hs.sources
        simp only [State.sources, hr, Prod.mk.injEq] at hsrc
        simp [State.sources, hsrc.2]
      · simpa [inForce, hr] using hmem
    · cases h
  | storeAsk =>
    simp only [step] at h
    split at h
    · rename_i gadgets hr
      cases h
      refine Or.inl ⟨rfl, fun hs => ⟨?_, hs.allowed, rfl⟩, fun _ hmem => Or.inl ?_⟩
      · have hsrc := hs.sources
        simp only [State.sources, hr, Prod.mk.injEq] at hsrc
        simp [State.sources, hsrc.1]
      · simpa [inForce, hr] using hmem
    · cases h
  | storeConfig =>
    simp only [step] at h
    split at h
    · rename_i gadgets hr
      cases h
      refine Or.inl ⟨rfl, fun hs => ⟨?_, hs.allowed, hs.ask⟩, fun _ hmem => Or.inl ?_⟩
      · exact hs.sources.trans (by simp [State.sources, hr])
      · rw [inForce, hr]
        exact mem_cons_of_mem _ hmem
    · cases h
  | start n name context =>
    simp only [step] at h
    split at h
    · rename_i hn
      cases h
      exact Or.inr ⟨n, _, _, rfl, Or.inl hn⟩
    · cases h
  | loadAllowed n =>
    simp only [step] at h
    split at h
    · rename_i d hd
      split at h
      · rename_i hphase _
        cases h
        exact Or.inr ⟨n, d, _, rfl, Or.inr ⟨hd, .loadAllowed hphase⟩⟩
      · cases h
    · cases h
  | loadAsk n =>
    simp only [step] at h
    split at h
    · rename_i d hd
      split at h
      · rename_i allowed hphase
        cases h
        exact Or.inr ⟨n, d, _, rfl, Or.inr ⟨hd, .loadAsk hphase⟩⟩
      · cases h
    · cases h
  | loadConfig n =>
    simp only [step] at h
    split at h
    · rename_i d hd
      split at h
      iterate 2
        · rename_i schema hphase htarget
          cases h
          exact Or.inr ⟨n, d, _, rfl, Or.inr ⟨hd, .loadConfig hphase (by simp [htarget])⟩⟩
      · cases h
    · cases h
  | gate n =>
    simp only [step] at h
    split at h
    · rename_i d hd
      split at h
      · rename_i isAllowed requiresApproval target hphase _
        cases h
        exact Or.inr ⟨n, d, _, rfl, Or.inr ⟨hd, .gate hphase⟩⟩
      · cases h
    · cases h

variable {gadgets : GadgetsConfig}

theorem inForce_step (h : (machine R).step s a = some s')
    (hmem : gadgets ∈ s'.inForce) : gadgets ∈ s.inForce ∨ a = .reconfigure gadgets := by
  rcases step_cases h with ⟨-, -, hinForce⟩ | ⟨_, _, _, rfl, -⟩
  · exact hinForce gadgets hmem
  · exact Or.inl hmem

variable {as : List Label}

theorem inForce_of_exec {P : GadgetsConfig → Prop}
    (hs : ∀ gadgets ∈ s.inForce, P gadgets) (has : ∀ gadgets, .reconfigure gadgets ∈ as → P gadgets)
    (h : (machine R).exec s as = some s') : ∀ gadgets ∈ s'.inForce, P gadgets := by
  induction as generalizing s with
  | nil =>
    cases h
    exact hs
  | cons a as ih =>
    obtain ⟨s₁, hs₁, h⟩ := (Machine.exec_cons_eq_some _).1 h
    refine ih ?_ (fun gadgets hmem => has gadgets (mem_cons_of_mem _ hmem)) h
    intro gadgets hmem
    rcases inForce_step hs₁ hmem with hold | rfl
    · exact hs gadgets hold
    · exact has gadgets mem_cons_self

theorem CellsInv.step (hs : s.CellsInv R) (h : (machine R).step s a = some s') : s'.CellsInv R := by
  rcases step_cases h with ⟨-, hcells, -⟩ | ⟨n, d, phase, rfl, -⟩
  · exact hcells hs
  · exact ⟨hs.sources, hs.allowed, hs.ask⟩

variable {n : ℕ}

theorem dispatch_step {d : Dispatch} (hd : s.dispatches n = some d)
    (h : (machine R).step s a = some s') : s'.dispatches n = some d ∨
      ∃ phase, s'.dispatches n = some { d with phase } ∧ Advance R s n d a phase := by
  rcases step_cases h with ⟨hsame, -⟩ | ⟨m, d', phase, rfl, hm⟩
  · exact Or.inl (by rw [hsame, hd])
  · by_cases hmn : n = m
    · subst hmn
      rcases hm with hnone | ⟨hd', hadv⟩
      · rw [hd] at hnone
        cases hnone
      · rw [hd] at hd'
        cases hd'
        exact Or.inr ⟨phase, setPhase_dispatches_self .., hadv⟩
    · exact Or.inl ((Function.update_of_ne hmn ..).trans hd)

theorem decided_of_exec {d : Dispatch} {outcome : Outcome}
    (hd : s.dispatches n = some d) (hphase : d.phase = .decided outcome)
    (h : (machine R).exec s as = some s') : s'.dispatches n = some d := by
  refine Machine.invariant (machine R) (I := fun s => s.dispatches n = some d) ?_ hd h
  intro s₁ b s₂ hs₁ hstep
  rcases dispatch_step hs₁ hstep with hsame | ⟨phase, -, hadv⟩
  · exact hsame
  · cases hadv with
    | loadAllowed hp | loadAsk hp | loadConfig hp _ | gate hp =>
      rw [hphase] at hp
      cases hp

/-! ## Which configurations a decision rests on -/

/-- A dispatch that has seen its gadget allowed by a configuration with mode `Ask` does not load the
ask set of one with mode `Never`. -/
def NoMixedModes (s : State) : Label → Prop
  | .loadAsk n => ∀ name context allowed,
      s.dispatches n = some ⟨name, context, .loadedAllowed allowed⟩ → name ∈ allowed.names →
      resolveWriteMode name allowed.source = .ask → resolveWriteMode name s.askNames.source ≠ .never
  | _ => True

/-- Some configuration in force during the run has the gadget in mode `Auto`. -/
def AutoSeen (R : GadgetRegistry) (name : String) (s : State) (as : List Label) : Prop :=
  ∃ as₁ as₂ s₁, as = as₁ ++ as₂ ∧ (machine R).exec s as₁ = some s₁ ∧
    ∃ gadgets ∈ s₁.inForce, resolveWriteMode name gadgets = .auto

variable {name : String}

theorem AutoSeen.append (h : AutoSeen R name s as)
    (bs : List Label) : AutoSeen R name s (as ++ bs) := by
  obtain ⟨as₁, as₂, s₁, rfl, hrun, hauto⟩ := h
  exact ⟨as₁, as₂ ++ bs, s₁, by rw [List.append_assoc], hrun, hauto⟩

theorem AutoSeen.last (hrun : (machine R).exec s as = some s') (hmem : gadgets ∈ s'.inForce)
    (hauto : resolveWriteMode name gadgets = .auto) : AutoSeen R name s as :=
  ⟨as, [], s', (append_nil _).symm, hrun, gadgets, hmem, hauto⟩

/-- What a phase of a dispatch tells about the steps taken since its start. -/
def Grounded (R : GadgetRegistry) (name : String) (s : State) (as : List Label) : Phase → Prop
  | .started => True
  | .loadedAllowed allowed => allowed.names = R.allowedFor allowed.source ∧
      (resolveWriteMode name allowed.source = .auto → AutoSeen R name s as)
  | .loaded isAllowed requiresApproval =>
    isAllowed = true → requiresApproval = false → AutoSeen R name s as
  | .decided _ => True

theorem Grounded.append {phase : Phase}
    (h : Grounded R name s as phase) (bs : List Label) : Grounded R name s (as ++ bs) phase := by
  cases phase with
  | started | decided outcome => trivial
  | loadedAllowed allowed => exact ⟨h.1, fun hauto => (h.2 hauto).append bs⟩
  | loaded isAllowed requiresApproval => exact fun ha hr => (h ha hr).append bs

variable {s₀ : State}

theorem grounded_loadAsk {allowed : Snapshot}
    (hwrite : R.IsWriteGadget name) (hcells : s.CellsInv R) (hrun : (machine R).exec s₀ as = some s)
    (hallowed : Grounded R name s₀ as (.loadedAllowed allowed))
    (hmixed : name ∈ allowed.names → resolveWriteMode name allowed.source = .ask →
      resolveWriteMode name s.askNames.source ≠ .never) : Grounded R name s₀ as
      (.loaded (decide (name ∈ allowed.names)) (decide (name ∈ s.askNames.names))) := by
  intro ha hr
  have hmem : name ∈ allowed.names := of_decide_eq_true ha
  have hnot : name ∉ s.askNames.names := of_decide_eq_false hr
  rw [hcells.ask] at hnot
  have hne : resolveWriteMode name s.askNames.source ≠ .ask := hwrite.mode_of_not_mem_askFor hnot
  rcases hwrite.mode_of_mem_allowedFor (hallowed.1 ▸ hmem) with hauto | hask
  · exact hallowed.2 hauto
  · apply AutoSeen.last hrun hcells.ask_inForce
    have hnever := hmixed hmem hask
    rcases hmode : resolveWriteMode name s.askNames.source with _ | _ | _
    · rfl
    · exact absurd hmode hne
    · exact absurd hmode hnever

/-- What is known of an unauthorised dispatch of `name` after the steps `as` that follow `s₀`. -/
def Watched (R : GadgetRegistry) (n : ℕ) (name : String) (s₀ : State) (as : List Label)
    (s : State) : Prop :=
  s.CellsInv R ∧ ∃ phase, s.dispatches n = some ⟨name, ⟨false, false⟩, phase⟩ ∧
    Grounded R name s₀ as phase

theorem Watched.step (hwrite : R.IsWriteGadget name) (hrun : (machine R).exec s₀ as = some s)
    (hs : Watched R n name s₀ as s) (hmixed : s.NoMixedModes a)
    (h : (machine R).step s a = some s') : Watched R n name s₀ (as ++ [a]) s' := by
  obtain ⟨hcells, phase, hd, hphase⟩ := hs
  refine ⟨hcells.step h, ?_⟩
  rcases dispatch_step hd h with hsame | ⟨phase', hd', hadv⟩
  · exact ⟨phase, hsame, hphase.append [a]⟩
  · refine ⟨phase', hd', Grounded.append ?_ [a]⟩
    cases hadv with
    | loadAllowed _ =>
      exact ⟨hcells.allowed, fun hauto => AutoSeen.last hrun hcells.allowed_inForce hauto⟩
    | loadAsk hp =>
      cases hp
      exact grounded_loadAsk hwrite hcells hrun hphase (hmixed _ _ _ hd)
    | loadConfig _ hlocal => exact absurd hwrite.target_eq hlocal
    | gate _ => trivial

theorem watched_of_start (hwrite : R.IsWriteGadget name)
    (hs : s.CellsInv R) (h : (machine R).step s (.start n name ⟨false, false⟩) = some s') :
    Watched R n name s' [] s' := by
  refine ⟨hs.step h, ?_⟩
  simp only [State.step] at h
  split at h
  · cases h
    refine ⟨_, setPhase_dispatches_self .., ?_⟩
    rw [hwrite.target_eq]
    trivial
  · cases h

theorem Watched.autoSeen_of_gate (hforward : R.forward = false) (hs : Watched R n name s₀ as s)
    (h : (machine R).step s (.gate n) = some s')
    (hruns : s'.dispatches n = some ⟨name, ⟨false, false⟩, .decided .runs⟩) :
    AutoSeen R name s₀ as := by
  obtain ⟨-, phase, hd, hphase⟩ := hs
  simp only [State.step, hd] at h
  split at h
  · cases h
    rw [setPhase_dispatches_self] at hruns
    simp only [Option.some.injEq, Dispatch.mk.injEq, true_and, Phase.decided.injEq] at hruns
    obtain ⟨ha, hr⟩ := gate_eq_runs hforward hruns
    exact hphase ha hr
  · cases h

theorem dispatches_after_gate {t : State}
    (hgate : (machine R).step s (.gate n) = some s') (hrun : (machine R).exec s' as = some t) :
    t.dispatches n = s'.dispatches n := by
  simp only [State.step] at hgate
  split at hgate
  · split at hgate
    · cases hgate
      rw [setPhase_dispatches_self]
      exact decided_of_exec (setPhase_dispatches_self ..) rfl hrun
    · cases hgate
  · cases hgate

/-- If no dispatch mixes modes, a write runs only under a mode of its time that is `Auto`. -/
theorem runs_only_if_auto_in_force (R : GadgetRegistry) (hforward : R.forward = false)
    (gadgets : GadgetsConfig) (name : String) (hwrite : R.IsWriteGadget name) (n : ℕ)
    (before between after : List Label) (t : State)
    (hrun : (machine R).exec (frozen R gadgets)
      (before ++ .start n name ⟨false, false⟩ :: (between ++ .gate n :: after)) = some t)
    (hmeets : (machine R).Meets NoMixedModes (frozen R gadgets)
      (before ++ .start n name ⟨false, false⟩ :: (between ++ .gate n :: after)))
    (hruns : t.dispatches n = some ⟨name, ⟨false, false⟩, .decided .runs⟩) :
    ∃ between₁ between₂ s, between = between₁ ++ between₂ ∧ (machine R).exec (frozen R gadgets)
        (before ++ .start n name ⟨false, false⟩ :: between₁) = some s ∧
      ∃ inForce ∈ s.inForce, resolveWriteMode name inForce = .auto := by
  obtain ⟨s₁, hs₁, hrun⟩ := (Machine.exec_append_eq_some _).1 hrun
  have hmeets := hmeets.of_append _ hs₁
  obtain ⟨s₂, hs₂, hrun⟩ := (Machine.exec_cons_eq_some _).1 hrun
  have hmeets := hmeets.2 s₂ hs₂
  obtain ⟨s₃, hs₃, hrun⟩ := (Machine.exec_append_eq_some _).1 hrun
  obtain ⟨s₄, hs₄, hrun⟩ := (Machine.exec_cons_eq_some _).1 hrun
  have hcells : s₁.CellsInv R :=
    Machine.invariant (machine R) (fun _ _ _ hs hstep => hs.step hstep)
      ⟨rfl, rfl, rfl⟩ hs₁
  have hwatched : Watched R n name s₂ between s₃ :=
    Machine.history_of_meets (machine R) (I := Watched R n name s₂)
      (watched_of_start hwrite hcells hs₂)
      (fun _ _ _ _ hrun hs hmixed hstep => hs.step hwrite hrun hmixed hstep) hmeets.append_left hs₃
  obtain ⟨between₁, between₂, s, hsplit, hexec, hauto⟩ :=
    hwatched.autoSeen_of_gate hforward hs₄ ((dispatches_after_gate hs₄ hrun).symm.trans hruns)
  refine ⟨between₁, between₂, s, hsplit, ?_, hauto⟩
  refine (Machine.exec_append_eq_some _).2 ⟨s₁, hs₁, ?_⟩
  exact (Machine.exec_cons_eq_some _).2 ⟨s₂, hs₂, hexec⟩

end State

/-! ## Two runs of one gadget -/

section

def sampleRegistry : GadgetRegistry where
  allSchemas := [⟨"wiki.write", .write⟩]
  forwardedSchemas := []
  dynamicSurface := none
  approvalStore := true
  forward := false
  forwarded_not_local := nofun

def wikiMode (mode : GadgetMode) : GadgetsConfig where
  write := ⟨.never, mode, .never, .never, .never, .empty, .empty⟩
  destructiveEnabled := false

theorem sampleRegistry_isWriteGadget : sampleRegistry.IsWriteGadget "wiki.write" :=
  ⟨⟨_, mem_singleton_self _, rfl⟩, fun schema hmem _ => by
    rw [mem_singleton.1 hmem]⟩

/-- The allowed set is loaded under `Ask`, then the mode becomes `Never`, and then the ask set is
loaded. -/
def askThenNever : List Label :=
  [.loadAllowed 0, .reconfigure (wikiMode .never), .storeAllowed, .storeAsk, .storeConfig,
    .loadAsk 0]

theorem ask_then_never_runs :
    sampleRegistry.forward = false ∧ sampleRegistry.IsWriteGadget "wiki.write" ∧
      (∃ t, (State.machine sampleRegistry).exec (State.frozen sampleRegistry (wikiMode .ask))
          ([] ++ .start 0 "wiki.write" ⟨false, false⟩ :: (askThenNever ++ .gate 0 :: [])) = some t ∧
        t.dispatches 0 = some ⟨"wiki.write", ⟨false, false⟩, .decided .runs⟩) ∧
      ¬ ∃ between₁ between₂ s, askThenNever = between₁ ++ between₂ ∧
        (State.machine sampleRegistry).exec (State.frozen sampleRegistry (wikiMode .ask))
          ([] ++ .start 0 "wiki.write" ⟨false, false⟩ :: between₁) = some s ∧
        ∃ inForce ∈ s.inForce, resolveWriteMode "wiki.write" inForce = .auto := by
  refine ⟨rfl, sampleRegistry_isWriteGadget, ⟨_, rfl, rfl⟩, ?_⟩
  rintro ⟨between₁, between₂, s, hsplit, hrun, inForce, hmem, hauto⟩
  -- the modes in force are `Ask` and `Never` throughout
  have hmode : resolveWriteMode "wiki.write" inForce ≠ .auto := by
    refine State.inForce_of_exec (P := fun gadgets => resolveWriteMode "wiki.write" gadgets ≠ .auto)
      ?_ ?_ hrun inForce hmem
    · intro gadgets hgadgets
      cases mem_singleton.1 hgadgets
      decide
    · intro gadgets hgadgets
      have hlabel : Label.reconfigure gadgets ∈ askThenNever := by
        rw [hsplit]
        exact mem_append_left _ (by simpa using hgadgets)
      have hnever : gadgets = wikiMode .never := by simpa [askThenNever] using hlabel
      rw [hnever]
      decide
  exact hmode hauto

/-- Both sets are loaded under `Auto`, and a change to `Ask` begins before the gate decides. -/
def autoThenAsk : List Label :=
  [.loadAllowed 0, .loadAsk 0, .reconfigure (wikiMode .ask), .storeAllowed]

theorem meets_autoThenAsk : (State.machine sampleRegistry).Meets State.NoMixedModes
      (State.frozen sampleRegistry (wikiMode .auto))
      ([] ++ .start 0 "wiki.write" ⟨false, false⟩ :: (autoThenAsk ++ .gate 0 :: [])) := by
  refine Machine.Meets.cons _ trivial rfl (Machine.Meets.cons _ trivial rfl ?_)
  refine Machine.Meets.cons _ ?_ rfl ?_
  · rintro name context allowed ⟨⟩ - hmode
    cases hmode
  · iterate 3 refine Machine.Meets.cons _ trivial rfl ?_
    trivial

theorem auto_wiki_write_runs : ∃ between₁ between₂ s, autoThenAsk = between₁ ++ between₂ ∧
      (State.machine sampleRegistry).exec (State.frozen sampleRegistry (wikiMode .auto))
        ([] ++ .start 0 "wiki.write" ⟨false, false⟩ :: between₁) = some s ∧
      ∃ inForce ∈ s.inForce, resolveWriteMode "wiki.write" inForce = .auto :=
  State.runs_only_if_auto_in_force sampleRegistry rfl (wikiMode .auto) "wiki.write"
    sampleRegistry_isWriteGadget 0 [] autoThenAsk [] _ rfl meets_autoThenAsk rfl

end

end Gadgetron.Penny
