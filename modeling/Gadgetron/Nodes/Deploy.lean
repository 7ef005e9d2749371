import Gadgetron.Lib.Exec
import Gadgetron.Lib.Table
import Mathlib.Data.UInt

/-!
# Deployment of models to nodes

The scheduler keeps the deployments in one map and what the nodes reported at their last heartbeat
in another.
-/

namespace Gadgetron.Nodes

open Lib

/-- `GpuInfo`; only the memory is read here. -/
structure GpuInfo where
  index : ℕ
  (vramTotalMb vramUsedMb : UInt64)

/-- `u64::saturating_sub`. -/
def saturatingSub (a b : UInt64) : UInt64 := if b ≤ a then a - b else 0

structure NodeStatus where
  id : String
  healthy : Bool
  gpus : List GpuInfo

def NodeStatus.availableVramMb (node : NodeStatus) : UInt64 :=
  (node.gpus.map fun g => saturatingSub g.vramTotalMb g.vramUsedMb).sum

inductive InferenceEngine
  | ollama
  | vllm
  | sglang
  | llamaCpp
  | tgi
  deriving DecidableEq

inductive ModelState
  | loading
  | running
  | stopping
  | stopped
  | failed
  deriving DecidableEq

structure ModelDeployment where
  id : String
  engine : InferenceEngine
  status : ModelState
  assignedNode : String
  port : ℕ
  vramRequirementMb : UInt64
  priority : ℤ
  args : Option (List String)
  lastUsed : ℤ
  requestCount : ℕ
  deriving DecidableEq

def ModelDeployment.isAvailable (d : ModelDeployment) : Bool := d.status = .running

inductive GadgetronError
  | routing (message : String)
  | node (message : String)
  deriving DecidableEq

abbrev Deployments := Table ModelDeployment.id

structure Scheduler where
  deployments : Deployments
  nodes : List NodeStatus
  agents : List String

namespace Scheduler

variable (self : Scheduler)

/-! ## Placement -/

def findNodeWithVram (requiredMb : UInt64) : Option String :=
  ((self.nodes.filter NodeStatus.healthy).find? fun n => requiredMb ≤ n.availableVramMb).map
    NodeStatus.id

/-- The loop over the candidates of one node: those that are taken, and what they free. -/
def takeCandidates (available requiredMb freed : UInt64) :
    List ModelDeployment → List String × UInt64
  | [] => ([], freed)
  | candidate :: rest =>
    let freed := freed + candidate.vramRequirementMb
    if requiredMb ≤ available + freed then
      ([candidate.id], freed)
    else
      let (taken, freed) := takeCandidates available requiredMb freed rest
      (candidate.id :: taken, freed)

/-- The running deployments of a node, the least recently used first; the order `values` of the map
decides between equal times. -/
def candidates (values : List ModelDeployment) (node : String) : List ModelDeployment :=
  sortBy (fun a b => compare a.lastUsed b.lastUsed)
    (values.filter fun d => d.assignedNode = node ∧ d.isAvailable)

def collectEvictions (values : List ModelDeployment) (requiredMb : UInt64) :
    Option (String × List String) :=
  (self.nodes.filter NodeStatus.healthy).findSome? fun node =>
    let (taken, freed) := takeCandidates node.availableVramMb requiredMb 0
      (candidates values node.id)
    if requiredMb ≤ node.availableVramMb + freed then some (node.id, taken) else none

def placement (values : List ModelDeployment) (requiredMb : UInt64) :
    Except GadgetronError (String × List String) :=
  match self.findNodeWithVram requiredMb with
  | some node => .ok (node, [])
  | none =>
    match self.collectEvictions values requiredMb with
    | some plan => .ok plan
    | none =>
      .error (.routing s!"no node can free {requiredMb} MB VRAM even after LRU eviction")

/-- The end of `evict_and_free`, which does not depend on whether the processes were stopped. -/
def markStopped (ids : List String) : Scheduler :=
  { self with
    deployments := self.deployments.updateWhere (fun d => d.id ∈ ids)
      (fun d => { d with status := .stopped }) fun _ => rfl }

/-! ## Deploy and undeploy -/

structure DeployCall where
  modelId : String
  engine : InferenceEngine
  vramMb : UInt64
  values : List ModelDeployment
  now : ℤ
  started : Except GadgetronError ℕ

def loadingRecord (call : DeployCall) (node : String) : ModelDeployment :=
  match self.deployments.get call.modelId with
  | some existing => { existing with assignedNode := node, status := .loading }
  | none =>
    { id := call.modelId
      engine := call.engine
      status := .loading
      assignedNode := node
      port := 0
      vramRequirementMb := call.vramMb
      priority := 0
      args := none
      lastUsed := call.now
      requestCount := 0 }

def load (call : DeployCall) (node : String) : Except GadgetronError Unit × Scheduler :=
  let record := self.loadingRecord call node
  let loading := { self with deployments := self.deployments.upsert record }
  if node ∉ self.agents then
    (.error (.routing s!"no agent registered for node {node}"), loading)
  else
    match call.started with
    | .error e => (.error e, loading)
    | .ok port =>
      (.ok (), { loading with
        deployments := loading.deployments.upsert { record with status := .running, port } })

def available (modelId : String) : Bool :=
  (self.deployments.get modelId).any ModelDeployment.isAvailable

def deploy (call : DeployCall) : Except GadgetronError Unit × Scheduler :=
  if self.available call.modelId then
    (.ok (), self)
  else
    match self.placement call.values call.vramMb with
    | .error e => (.error e, self)
    | .ok (node, evicted) => (self.markStopped evicted).load call node

def undeploy (modelId : String) : Except GadgetronError Unit × Scheduler :=
  match self.deployments.get modelId with
  | none => (.error (.routing s!"model not found: {modelId}"), self)
  | some _ =>
    (.ok (), { self with deployments := self.deployments.deleteWhere fun d => d.id = modelId })

end Scheduler

end Gadgetron.Nodes
