import CogWsl.System

/-!
`CognitiveIntegrationManager`, one `CognitiveProcessMonitor` attached to it, and
`AutogeneticAgentFactory`, over one flat record. No event callback is registered, so
`ProcessWslEvent` only broadcasts. Clock readings are inputs, in milliseconds.
-/

namespace CogWsl

structure IntegrationStats where
  processesMonitored : Nat
  eventsHandled : Nat
  cognitiveAgents : Nat
  activeQueries : Nat

structure ProcessInfo where
  distroId : String
  processId : UInt32
  command : String
  startTime : Int
  behaviorLog : List String
  cognitiveRepresentation : Option Nat

/-- Process memory with the global atom space of the current system; the fields of the
manager; the tracked processes of the monitor; and whether `std::terminate` ran. The monitor's
thread and its flag are in `CogWsl.MonitorThread`. -/
structure World where
  graph : Graph
  initialized : Bool
  system : Option CognitiveSystem
  processMapping : AList (fun _ : String => UInt32)
  stats : IntegrationStats
  trackedProcesses : AList (fun _ : String => ProcessInfo)
  halted : Bool

namespace World

def init : World :=
  ⟨⟨Memory.init, AtomSpace.empty⟩, false, none, ∅, ⟨0, 0, 0, 0⟩, ∅, false⟩

def withSystem (w : World) (f : Graph → CognitiveSystem → Graph × CognitiveSystem) : World :=
  match w.system with
  | none => w
  | some s => let r := f w.graph s; { w with graph := r.1, system := some r.2 }

def countEvent (w : World) : World :=
  { w with stats := { w.stats with eventsHandled := w.stats.eventsHandled + 1 } }

/-- `ProcessWslEvent` with no callback registered. -/
def processWslEvent (w : World) (eventType source data : String) : World :=
  w.withSystem fun g s => s.broadcastMessage g (eventType ++ ":" ++ source ++ ":" ++ data)

def updateCognitiveKnowledge (w : World) (concept information : String) (confidence : ℚ) : World :=
  if w.system.isNone then w
  else
    let c := w.graph.createAtom .concept concept (1 / 2) confidence
    let i := c.1.createAtom .memory (concept ++ "_Info:" ++ information) (4 / 5) confidence
    let g := (i.1.addOutgoingLink c.2 (some i.2)).update c.2 fun a => a.setAttention (a.attention + 1 / 10)
    { w with graph := g }

def processName (distroId : String) (processId : UInt32) : String :=
  "Process:" ++ distroId ++ ":" ++ toString processId

def onProcessCreate (w : World) (distroId : String) (processId : UInt32) (command : String) : World :=
  if w.system.isNone then w
  else
    let name := processName distroId processId
    let pa := w.graph.createAtom .process name 1 (4 / 5)
    let ca := pa.1.createAtom .concept ("Command:" ++ command) (7 / 10) (3 / 5)
    let w := { w with
      graph := ca.1.addOutgoingLink pa.2 (some ca.2)
      processMapping := w.processMapping.insert name processId }
    let w := w.processWslEvent "process_create" distroId (name ++ ":" ++ command)
    let w := w.countEvent
    { w with stats := { w.stats with processesMonitored := w.stats.processesMonitored + 1 } }

def completeProcess (g : Graph) (p : Nat) (name : String) (exitCode : Int) : Graph :=
  let truthValue : ℚ := if exitCode = 0 then 1 else 3 / 10
  let g := g.update p fun a => a.setTruthValue truthValue (a.confidence + 1 / 10)
  let m := g.createAtom .memory ("Completion:" ++ name ++ ":" ++ toString exitCode) truthValue (9 / 10)
  m.1.addOutgoingLink p (some m.2)

def onProcessDestroy (w : World) (distroId : String) (processId : UInt32) (exitCode : Int) : World :=
  if w.system.isNone then w
  else
    let name := processName distroId processId
    let g := match w.graph.space.findAtom name with
      | some p => completeProcess w.graph p name exitCode
      | none => w.graph
    let w := { w with graph := g, processMapping := w.processMapping.erase name }
    (w.processWslEvent "process_destroy" distroId (name ++ ":" ++ toString exitCode)).countEvent

def onDistroEvent (w : World) (distroId eventType data : String) : World :=
  if w.system.isNone then w
  else
    let w := w.updateCognitiveKnowledge ("Distro:" ++ distroId) (eventType ++ ":" ++ data) (4 / 5)
    (w.processWslEvent "distro_event" distroId (eventType ++ ":" ++ data)).countEvent

def onSystemEvent (w : World) (eventType data : String) : World :=
  if w.system.isNone then w
  else
    let w := w.updateCognitiveKnowledge "System" (eventType ++ ":" ++ data) (9 / 10)
    (w.processWslEvent "system_event" "system" (eventType ++ ":" ++ data)).countEvent

def countAgent (w : World) : World :=
  { w with stats := { w.stats with cognitiveAgents := w.stats.cognitiveAgents + 1 } }

@[simp] theorem countAgent_graph (w : World) : w.countAgent.graph = w.graph := rfl

@[simp] theorem countAgent_system (w : World) : w.countAgent.system = w.system := rfl

def addAgentGoal (w : World) (agent : String) (goal : String × ℚ × ℚ) : World :=
  w.withSystem fun g s =>
    let r := g.createAtom .goal goal.1 goal.2.1 goal.2.2
    (r.1, s.updateAgent agent fun ag => ag.addGoal r.1.mem (some r.2))

def roleGoal (name role : String) : Option (String × ℚ × ℚ) :=
  if role = "monitoring" then some ("MonitorSystem:" ++ name, 9 / 10, 4 / 5)
  else if role = "optimization" then some ("OptimizePerformance:" ++ name, 4 / 5, 9 / 10)
  else if role = "security" then some ("EnsureSecurity:" ++ name, 1, 1)
  else none

def startAgent (w : World) (name : String) : World :=
  match w.system with
  | none => w
  | some s =>
    match s.agents.lookup name with
    | none => w
    | some ag =>
      match ag.start with
      | none => { w with halted := true }
      | some ag' => { w with system := some { s with agents := s.agents.replace name ag' } }

def createCognitiveAgent (w : World) (name role : String) : World × Bool :=
  match w.system with
  | none => (w, false)
  | some _ =>
    let w := w.withSystem fun g s => s.createAgent g name
    let w := match roleGoal name role with
      | some goal => w.addAgentGoal name goal
      | none => w
    ((w.startAgent name).countAgent, true)

def destroyCognitiveAgent (w : World) (name : String) : World × Bool :=
  match w.system with
  | none => (w, false)
  | some s =>
    let r := s.removeAgent name
    let w := { w with system := some r.1 }
    if r.2 then
      let n := w.stats.cognitiveAgents
      ({ w with stats := { w.stats with cognitiveAgents := if 0 < n then n - 1 else n } }, true)
    else (w, false)

theorem destroyCognitiveAgent_graph (w : World) (name : String) :
    (w.destroyCognitiveAgent name).1.graph = w.graph := by
  unfold destroyCognitiveAgent
  split
  · rfl
  · dsimp only
    split <;> rfl

def executeCognitiveCommand (w : World) (agentName command parameters : String) : World × Bool :=
  match w.system with
  | none => (w, false)
  | some s =>
    match s.getAgent agentName with
    | none => (w, false)
    | some _ =>
      (w.withSystem fun g s => s.withAgent g agentName fun g ag =>
        ag.receiveMessage g "System" (command ++ ":" ++ parameters), true)

def setCognitiveConfiguration (w : World) (key value : String) : World :=
  match w.system with
  | none => w
  | some s => { w with system := some (s.setConfiguration key value) }

@[simp] theorem setCognitiveConfiguration_graph (w : World) (key value : String) :
    (w.setCognitiveConfiguration key value).graph = w.graph := by
  unfold setCognitiveConfiguration
  split <;> rfl

/-- `QueryCognitiveState`: the text it renders is left out, its count is not. -/
def queryCognitiveState (w : World) : World :=
  match w.system with
  | none => w
  | some _ => { w with stats := { w.stats with activeQueries := w.stats.activeQueries + 1 } }

@[simp] theorem countEvent_graph (w : World) : w.countEvent.graph = w.graph := rfl

theorem startAgent_graph (w : World) (name : String) : (w.startAgent name).graph = w.graph := by
  unfold startAgent
  split
  · rfl
  · split
    · rfl
    · split <;> rfl

def onGraph (w : World) (f : Graph → Graph) : World :=
  { w with graph := f w.graph }

/-- The calls of the `try` block of `Initialize`: the assignment of a new `CognitiveSystem`, its
`Initialize`, a `CreateAtom` in its global atom space, or a `CreateCognitiveAgent`. -/
inductive InitCall
  | assignSystem
  | initializeSystem
  | createAtom (type : AtomType) (name : String) (truthValue confidence : ℚ)
  | createCognitiveAgent (name role : String)
  deriving DecidableEq

def initStep (w : World) : InitCall → World
  | .assignSystem => let c := CognitiveSystem.create w.graph.mem; { w with graph := c.1, system := some c.2 }
  | .initializeSystem => w.withSystem CognitiveSystem.initializeSystem
  | .createAtom type name v c => w.onGraph fun g => (g.createAtom type name v c).1
  | .createCognitiveAgent name role => (w.createCognitiveAgent name role).1

def initializeCalls : List InitCall :=
  [.assignSystem, .initializeSystem, .createAtom .concept "WSL_Process" 1 1,
    .createAtom .concept "WSL_Distribution" 1 1, .createAtom .concept "WSL_System" 1 1,
    .createAtom .goal "OptimizeWSLPerformance" (4 / 5) (9 / 10), .createAtom .goal "EnsureSystemSecurity" 1 1,
    .createCognitiveAgent "SystemMonitor" "monitoring", .createCognitiveAgent "ProcessOptimizer" "optimization",
    .createCognitiveAgent "SecurityAnalyzer" "security"]

/-- `Initialize` of the manager, on its success path. -/
def initializeManager (w : World) : World × Bool :=
  if w.initialized then (w, true)
  else
    let c := CognitiveSystem.create w.graph.mem
    let r := c.2.initializeSystem c.1
    let g := (r.1.createAtom .concept "WSL_Process" 1 1).1
    let g := (g.createAtom .concept "WSL_Distribution" 1 1).1
    let g := (g.createAtom .concept "WSL_System" 1 1).1
    let g := (g.createAtom .goal "OptimizeWSLPerformance" (4 / 5) (9 / 10)).1
    let g := (g.createAtom .goal "EnsureSystemSecurity" 1 1).1
    let w := { w with initialized := true, graph := g, system := some r.2 }
    let w := (w.createCognitiveAgent "SystemMonitor" "monitoring").1
    let w := (w.createCognitiveAgent "ProcessOptimizer" "optimization").1
    ((w.createCognitiveAgent "SecurityAnalyzer" "security").1, true)

/-- `Initialize` when a call of its body throws, the first `k` of them having returned: the
`catch (...)` clears the flag and keeps what they built, the new system included. -/
def initializeManagerThrows (w : World) (k : Fin 10) : World × Bool :=
  if w.initialized then (w, true)
  else ({ (initializeCalls.take k).foldl initStep { w with initialized := true } with initialized := false }, false)

theorem initializeManager_eq {w : World} (h : w.initialized = false) :
    w.initializeManager.1 = initializeCalls.foldl initStep { w with initialized := true } := by
  unfold initializeManager
  rw [if_neg (by simp [h])]
  simp only [initializeCalls, List.foldl_cons, List.foldl_nil, initStep, withSystem, onGraph]

def shutdownManager (w : World) : World :=
  if w.initialized then { w with initialized := false, system := none, processMapping := ∅ } else w

@[simp] theorem queryCognitiveState_graph (w : World) : w.queryCognitiveState.graph = w.graph := by
  unfold queryCognitiveState
  split <;> rfl

@[simp] theorem shutdownManager_graph (w : World) : w.shutdownManager.graph = w.graph := by
  unfold shutdownManager
  split <;> rfl

def processKey (distroId : String) (processId : UInt32) : String :=
  distroId ++ ":" ++ toString processId

def trackProcess (w : World) (distroId : String) (processId : UInt32) (command : String) (now : Int) :
    World :=
  let key := processKey distroId processId
  let r : Graph × Option Nat := if w.system.isSome then
      let a := w.graph.createAtom .process ("MonitoredProcess:" ++ key) 1 (4 / 5)
      (a.1, some a.2)
    else (w.graph, none)
  { w with
    graph := r.1
    trackedProcesses := w.trackedProcesses.insert key ⟨distroId, processId, command, now, [], r.2⟩ }

def behaviorAtom (command : String) (rep : Nat) (g : Graph) (behavior : String) : Graph :=
  let b := g.createAtom .memory (command ++ "_behavior:" ++ behavior) (3 / 5) (7 / 10)
  b.1.addOutgoingLink rep (some b.2)

def updateProcessKnowledge (w : World) (process : ProcessInfo) : World :=
  if w.system.isNone then w
  else
    match process.cognitiveRepresentation with
    | none => w
    | some rep =>
      let g := w.graph.update rep (·.setAttention (min 1 (1 / 2 + process.behaviorLog.length / 100)))
      { w with graph := process.behaviorLog.foldl (behaviorAtom process.command rep) g }

def untrackProcess (w : World) (distroId : String) (processId : UInt32) : World :=
  let key := processKey distroId processId
  match w.trackedProcesses.lookup key with
  | none => w
  | some info =>
    let w := w.updateProcessKnowledge info
    { w with trackedProcesses := w.trackedProcesses.erase key }

def analyzeProcessBehavior (w : World) (distroId : String) (processId : UInt32) : World :=
  match w.trackedProcesses.lookup (processKey distroId processId) with
  | none => w
  | some info => w.updateProcessKnowledge info

/-- The first loop of `LearnFromProcessPatterns`: a count and a running duration per command.
`clock key` is the time read at the turn of the process under `key`. -/
def commandStats (tracked : List (Σ _ : String, ProcessInfo)) (clock : String → Int) :
    AList (fun _ : String => Int) × AList (fun _ : String => Int) :=
  tracked.foldl (fun acc e =>
    let cmd := e.2.command
    (acc.1.insert cmd (((acc.1.lookup cmd).getD 0) + 1),
      acc.2.insert cmd (Int.tdiv (((acc.2.lookup cmd).getD 0) + (clock e.1 - e.2.startTime)) 2)))
    (∅, ∅)

def patternAtoms (durations : AList (fun _ : String => Int)) (g : Graph)
    (e : Σ _ : String, Int) : Graph :=
  let pattern := g.createAtom .rule ("Pattern:" ++ e.1 ++ "_frequency") ((e.2 : ℚ) / 100) (4 / 5)
  let duration := pattern.1.createAtom .memory ("Duration:" ++ e.1)
    (((durations.lookup e.1).getD 0 : ℚ) / 10000) (7 / 10)
  duration.1.addOutgoingLink pattern.2 (some duration.2)

def learnFromProcessPatterns (w : World) (clock : String → Int) : World :=
  let st := commandStats w.trackedProcesses.entries clock
  if w.system.isSome then { w with graph := st.1.entries.foldl (patternAtoms st.2) w.graph } else w

/-- The rest of one turn of `MonitoringLoop`: each tracked process logs its age in seconds. -/
def observeBehavior (w : World) (clock : String → Int) : World :=
  { w with trackedProcesses := ⟨w.trackedProcesses.entries.map fun e =>
      ⟨e.1, { e.2 with behaviorLog := e.2.behaviorLog ++
        ["Behavior_" ++ toString (Int.tdiv (clock e.1 - e.2.startTime) 1000)] }⟩,
    by simpa [List.NodupKeys, List.keys] using w.trackedProcesses.nodupKeys⟩ }

def monitoringTurn (w : World) (learnClock observeClock : String → Int) : World :=
  (w.learnFromProcessPatterns learnClock).observeBehavior observeClock

/-- `Pause`, `Resume` or the locked block of `Stop`, on a registered agent. -/
def withRegistered (w : World) (name : String) (f : Agent → Agent) : World :=
  match w.system with
  | none => w
  | some s => { w with system := some (s.updateAgent name f) }

@[simp] theorem withRegistered_graph (w : World) (name : String) (f : Agent → Agent) :
    (w.withRegistered name f).graph = w.graph := by
  unfold withRegistered
  split <;> rfl

/-- One stage of the processing loop of the registered agent `name`, with its `catch`. -/
def runStage (w : World) (name : String) (st : Stage) : World :=
  w.withSystem fun g s => s.withAgent g name fun g ag =>
    let o := runStages [st] g ag
    (o.graph, o.agent)

end World

namespace AutogeneticAgentFactory

inductive AgentType
  | processOptimizer | resourceManager | securityAnalyzer | performanceMonitor | systemLearner
  | adaptiveScheduler
  deriving DecidableEq, Repr

/-- The body shared by `CreateProcessOptimizerAgent` and its siblings: an agent made by
`CreateCognitiveAgent` with a role, then two goal atoms made and given to it. -/
def createTypedAgent (w : World) (name role : String) (goal₁ goal₂ : String × ℚ × ℚ) :
    World × Bool :=
  let r := w.createCognitiveAgent name role
  if r.2 then
    (r.1.withSystem fun g s =>
      let a := g.createAtom .goal goal₁.1 goal₁.2.1 goal₁.2.2
      let b := a.1.createAtom .goal goal₂.1 goal₂.2.1 goal₂.2.2
      (b.1, s.updateAgent name fun ag => (ag.addGoal b.1.mem (some a.2)).addGoal b.1.mem (some b.2)),
      true)
  else r

def createProcessOptimizerAgent (w : World) (name : String) : World × Bool :=
  createTypedAgent w name "optimization" ("MaximizeProcessEfficiency", 9 / 10, 4 / 5)
    ("MinimizeResourceUsage", 4 / 5, 9 / 10)

def createResourceManagerAgent (w : World) (name : String) : World × Bool :=
  createTypedAgent w name "resource_management" ("OptimizeMemoryUsage", 4 / 5, 9 / 10)
    ("BalanceCPULoad", 4 / 5, 9 / 10)

def createSecurityAnalyzerAgent (w : World) (name : String) : World × Bool :=
  createTypedAgent w name "security" ("DetectThreats", 1, 1) ("PreventIntrusions", 1, 1)

def createPerformanceMonitorAgent (w : World) (name : String) : World × Bool :=
  createTypedAgent w name "monitoring" ("MonitorPerformance", 9 / 10, 4 / 5)
    ("AlertOnAnomalies", 4 / 5, 9 / 10)

def createSystemLearnerAgent (w : World) (name : String) : World × Bool :=
  createTypedAgent w name "learning" ("LearnSystemPatterns", 9 / 10, 4 / 5)
    ("AdaptToChanges", 4 / 5, 9 / 10)

def createAdaptiveSchedulerAgent (w : World) (name : String) : World × Bool :=
  createTypedAgent w name "scheduling" ("OptimizeScheduling", 4 / 5, 9 / 10)
    ("BalanceWorkload", 4 / 5, 9 / 10)

/-- `SetSelfModificationParameters(name, 0.01f, "safe_modifications_only")`; the flag that
`EnableSelfModification` sets lives in the factory and is left out. -/
def setSelfModificationParameters (w : World) (name : String) : World :=
  (w.setCognitiveConfiguration (name ++ "_self_mod_prob") "0.010000").setCognitiveConfiguration
    (name ++ "_self_mod_constraints") "safe_modifications_only"

@[simp] theorem setSelfModificationParameters_graph (w : World) (name : String) :
    (setSelfModificationParameters w name).graph = w.graph := by
  simp [setSelfModificationParameters]

def createAgent (w : World) (type : AgentType) (name : String) : World × Bool :=
  if w.system.isNone then (w, false)
  else
    let r := match type with
      | .processOptimizer => createProcessOptimizerAgent w name
      | .resourceManager => createResourceManagerAgent w name
      | .securityAnalyzer => createSecurityAnalyzerAgent w name
      | .performanceMonitor => createPerformanceMonitorAgent w name
      | .systemLearner => createSystemLearnerAgent w name
      | .adaptiveScheduler => createAdaptiveSchedulerAgent w name
    if r.2 then (setSelfModificationParameters r.1 name, true) else r

def createCustomAgent (w : World) (name specification : String) : World × Bool :=
  let r := w.createCognitiveAgent name "custom"
  if r.2 then
    (r.1.withSystem fun g s =>
      let a := g.createAtom .goal ("CustomGoal:" ++ specification) (4 / 5) (9 / 10)
      (a.1, s.updateAgent name fun ag => ag.addGoal a.1.mem (some a.2)), true)
  else r

end AutogeneticAgentFactory

/-- The calls a run of the whole system is made of, one at a time: the atom space's own
operations, a stage of a registered agent, the calls on `CognitiveSystem`, on the integration
manager, on the factory and on the process monitor. -/
inductive Op
  | createAtom (type : AtomType) (name : String) (truthValue confidence : ℚ)
  | removeAtom (id : Nat)
  | clear
  | setTruthValue (p : Nat) (truth confidence : ℚ)
  | setAttention (p : Nat) (attention : ℚ)
  | addOutgoingLink (p : Nat) (atom : Option Nat)
  | addIncomingLink (p : Nat) (atom : Option Nat)
  | updateAttentionValues
  | stage (agent : String) (st : Stage)
  | pause (agent : String)
  | resume (agent : String)
  | createAgent (name : String)
  | broadcastMessage (message : String)
  | updateSystem
  | initializeManager
  | initializeManagerThrows (k : Fin 10)
  | shutdownManager
  | processCreate (distroId : String) (processId : UInt32) (command : String)
  | processDestroy (distroId : String) (processId : UInt32) (exitCode : Int)
  | distroEvent (distroId eventType data : String)
  | systemEvent (eventType data : String)
  | createCognitiveAgent (name role : String)
  | destroyCognitiveAgent (name : String)
  | executeCognitiveCommand (agentName command parameters : String)
  | setCognitiveConfiguration (key value : String)
  | queryCognitiveState
  | factoryCreateAgent (type : AutogeneticAgentFactory.AgentType) (name : String)
  | createCustomAgent (name specification : String)
  | trackProcess (distroId : String) (processId : UInt32) (command : String) (now : Int)
  | untrackProcess (distroId : String) (processId : UInt32)
  | analyzeProcessBehavior (distroId : String) (processId : UInt32)
  | learnFromProcessPatterns (clock : String → Int)
  | monitoringTurn (learnClock observeClock : String → Int)

namespace World

/-- One call; nothing runs once `std::terminate` has. -/
def apply (w : World) (o : Op) : World :=
  if w.halted then w
  else
    match o with
    | .createAtom type name v c => w.onGraph fun g => (g.createAtom type name v c).1
    | .removeAtom id => w.onGraph fun g => (g.removeAtom id).1
    | .clear => w.onGraph Graph.clear
    | .setTruthValue p t c => w.onGraph (·.setTruthValue p t c)
    | .setAttention p v => w.onGraph (·.setAttention p v)
    | .addOutgoingLink p q => w.onGraph (·.addOutgoingLink p q)
    | .addIncomingLink p q => w.onGraph (·.addIncomingLink p q)
    | .updateAttentionValues => w.onGraph Graph.updateAttentionValues
    | .stage name st => w.runStage name st
    | .pause name => w.withRegistered name Agent.pause
    | .resume name => w.withRegistered name Agent.resume
    | .createAgent name => w.withSystem fun g s => s.createAgent g name
    | .broadcastMessage message => w.withSystem fun g s => s.broadcastMessage g message
    | .updateSystem => w.withSystem CognitiveSystem.updateSystem
    | .initializeManager => w.initializeManager.1
    | .initializeManagerThrows k => (w.initializeManagerThrows k).1
    | .shutdownManager => w.shutdownManager
    | .processCreate d pid cmd => w.onProcessCreate d pid cmd
    | .processDestroy d pid code => w.onProcessDestroy d pid code
    | .distroEvent d e data => w.onDistroEvent d e data
    | .systemEvent e data => w.onSystemEvent e data
    | .createCognitiveAgent name role => (w.createCognitiveAgent name role).1
    | .destroyCognitiveAgent name => (w.destroyCognitiveAgent name).1
    | .executeCognitiveCommand name cmd params => (w.executeCognitiveCommand name cmd params).1
    | .setCognitiveConfiguration key value => w.setCognitiveConfiguration key value
    | .queryCognitiveState => w.queryCognitiveState
    | .factoryCreateAgent type name => (AutogeneticAgentFactory.createAgent w type name).1
    | .createCustomAgent name spec => (AutogeneticAgentFactory.createCustomAgent w name spec).1
    | .trackProcess d pid cmd now => w.trackProcess d pid cmd now
    | .untrackProcess d pid => w.untrackProcess d pid
    | .analyzeProcessBehavior d pid => w.analyzeProcessBehavior d pid
    | .learnFromProcessPatterns clock => w.learnFromProcessPatterns clock
    | .monitoringTurn c₁ c₂ => w.monitoringTurn c₁ c₂

def run (w : World) (ops : List Op) : World :=
  ops.foldl apply w

end World

end CogWsl
