import CogWsl.Integration

/-!
What one call of the whole system writes, stated once per call. Its graph moves only by the
writes the program's own code makes (`Graph.CodeWrite`): `CreateAtom`, a write through a pointer
that keeps the atom's name, type and incoming links, its outgoing links free of duplicates and its
attention at the floor, and the pass of `UpdateAttentionValues`. `RemoveAtom`, `Clear`,
`SetAttention` and `AddIncomingLink` called from outside, and `Initialize`, which puts a new atom
space in place, are the exceptions. The calls of the cognitive layer leave the manager's
bookkeeping and the monitor's table alone (`World.Frame`). The invariants of the later modules
are derived from these two facts.
-/

namespace CogWsl

open Relation

namespace Graph

inductive CodeWrite : Graph → Graph → Prop
  | createAtom (g : Graph) (type : AtomType) (name : String) (v c : ℚ) :
      CodeWrite g (g.createAtom type name v c).1
  | update (g : Graph) (p : Nat) (f : Atom → Atom)
      (hf : ∀ a, (f a).name = a.name ∧ (f a).type = a.type ∧ (f a).incomingLinks = a.incomingLinks ∧
        (a.outgoingLinks.Nodup → (f a).outgoingLinks.Nodup))
      (hfloor : ∀ a, 1 / 100 ≤ a.attention → 1 / 100 ≤ (f a).attention) :
      CodeWrite g (g.update p f)
  | updateAttentionValues (g : Graph) : CodeWrite g g.updateAttentionValues

theorem codeWrite_writes : Writes CodeWrite where
  createAtom := CodeWrite.createAtom
  setTruthValue g p t c := .update g p (·.setTruthValue t c) (fun _ => ⟨rfl, rfl, rfl, id⟩) fun _ ha => ha
  setFullAttention g p := .update g p (·.setAttention 1) (fun _ => ⟨rfl, rfl, rfl, id⟩) fun _ _ => by norm_num
  addOutgoingLink g p q :=
    .update g p (·.addOutgoingLink q) (fun _ => ⟨rfl, rfl, rfl, (Atom.addLink_nodup · q)⟩) fun _ ha => ha

theorem createAtom_codeWrites (g : Graph) (type : AtomType) (name : String) (v c : ℚ) :
    ReflTransGen CodeWrite g (g.createAtom type name v c).1 :=
  .single (.createAtom g type name v c)

theorem addOutgoingLink_codeWrites (g : Graph) (p : Nat) (q : Option Nat) :
    ReflTransGen CodeWrite g (g.addOutgoingLink p q) :=
  .single (codeWrite_writes.addOutgoingLink g p q)

theorem setAttention_codeWrites (g : Graph) (p : Nat) {v : Atom → ℚ}
    (hv : ∀ a, 1 / 100 ≤ a.attention → 1 / 100 ≤ v a) :
    ReflTransGen CodeWrite g (g.update p fun a => a.setAttention (v a)) :=
  .single (.update g p _ (fun _ => ⟨rfl, rfl, rfl, id⟩) fun a ha => by simpa using hv a ha)

end Graph

open Graph (CodeWrite codeWrite_writes createAtom_codeWrites addOutgoingLink_codeWrites)

namespace CognitiveSystem

theorem withAgent_codeWrites (g : Graph) (s : CognitiveSystem) (name : String)
    {f : Graph → Agent → Graph × Agent} (hf : ∀ g ag, ReflTransGen CodeWrite g (f g ag).1) :
    ReflTransGen CodeWrite g (s.withAgent g name f).1 := by
  unfold withAgent
  split
  · exact .refl
  · exact hf _ _

theorem createAgent_codeWrites (g : Graph) (s : CognitiveSystem) (name : String) :
    ReflTransGen CodeWrite g (s.createAgent g name).1 := by
  unfold createAgent
  split
  · exact .refl
  · exact (Agent.create_reach codeWrite_writes g name true).tail (.createAtom _ _ _ _ _)

theorem broadcastMessage_codeWrites (g : Graph) (s : CognitiveSystem) (message : String) :
    ReflTransGen CodeWrite g (s.broadcastMessage g message).1 :=
  Graph.reach_foldl Prod.fst (fun r _ => withAgent_codeWrites r.1 r.2 _ fun g ag =>
    Agent.receiveMessage_reach codeWrite_writes g ag _ _) _ (g, s)

theorem initializeSystem_codeWrites (g : Graph) (s : CognitiveSystem) :
    ReflTransGen CodeWrite g (s.initializeSystem g).1 := by
  unfold initializeSystem
  split
  · exact .refl
  · exact (createAtom_codeWrites _ _ _ _ _).trans <| (createAtom_codeWrites _ _ _ _ _).trans
      (createAtom_codeWrites _ _ _ _ _)

theorem updateSystem_codeWrites (g : Graph) (s : CognitiveSystem) :
    ReflTransGen CodeWrite g (s.updateSystem g).1 := by
  unfold updateSystem
  split
  · exact .single (.updateAttentionValues g)
  · exact .refl

end CognitiveSystem

namespace World

theorem withSystem_codeWrites (w : World) {f : Graph → CognitiveSystem → Graph × CognitiveSystem}
    (hf : ∀ g s, ReflTransGen CodeWrite g (f g s).1) :
    ReflTransGen CodeWrite w.graph (w.withSystem f).graph := by
  unfold withSystem
  split
  · exact .refl
  · exact hf _ _

theorem processWslEvent_codeWrites (w : World) (eventType source data : String) :
    ReflTransGen CodeWrite w.graph (w.processWslEvent eventType source data).graph :=
  w.withSystem_codeWrites fun g s => s.broadcastMessage_codeWrites g _

theorem updateCognitiveKnowledge_codeWrites (w : World) (concept information : String) (c : ℚ) :
    ReflTransGen CodeWrite w.graph (w.updateCognitiveKnowledge concept information c).graph := by
  unfold updateCognitiveKnowledge
  split
  · exact .refl
  · exact (createAtom_codeWrites _ _ _ _ _).trans <| (createAtom_codeWrites _ _ _ _ _).trans <|
      (addOutgoingLink_codeWrites _ _ _).trans (Graph.setAttention_codeWrites _ _ fun _ h => by linarith)

theorem onProcessCreate_codeWrites (w : World) (d : String) (pid : UInt32) (cmd : String) :
    ReflTransGen CodeWrite w.graph (w.onProcessCreate d pid cmd).graph := by
  unfold onProcessCreate
  split
  · exact .refl
  · dsimp only
    rw [countEvent_graph]
    refine ReflTransGen.trans ?_ (processWslEvent_codeWrites _ _ _ _)
    exact (createAtom_codeWrites _ _ _ _ _).trans <| (createAtom_codeWrites _ _ _ _ _).trans
      (addOutgoingLink_codeWrites _ _ _)

theorem completeProcess_codeWrites (g : Graph) (p : Nat) (name : String) (exitCode : Int) :
    ReflTransGen CodeWrite g (completeProcess g p name exitCode) :=
  (ReflTransGen.single (.update g p _ (fun _ => ⟨rfl, rfl, rfl, id⟩) fun _ ha => ha)).trans <|
    (createAtom_codeWrites _ _ _ _ _).trans (addOutgoingLink_codeWrites _ _ _)

theorem onProcessDestroy_codeWrites (w : World) (d : String) (pid : UInt32) (exitCode : Int) :
    ReflTransGen CodeWrite w.graph (w.onProcessDestroy d pid exitCode).graph := by
  unfold onProcessDestroy
  split
  · exact .refl
  · refine ReflTransGen.trans ?_ (processWslEvent_codeWrites _ _ _ _)
    dsimp only
    split
    · exact completeProcess_codeWrites _ _ _ _
    · exact .refl

theorem onDistroEvent_codeWrites (w : World) (d eventType data : String) :
    ReflTransGen CodeWrite w.graph (w.onDistroEvent d eventType data).graph := by
  unfold onDistroEvent
  split
  · exact .refl
  · exact (updateCognitiveKnowledge_codeWrites _ _ _ _).trans (processWslEvent_codeWrites _ _ _ _)

theorem onSystemEvent_codeWrites (w : World) (eventType data : String) :
    ReflTransGen CodeWrite w.graph (w.onSystemEvent eventType data).graph := by
  unfold onSystemEvent
  split
  · exact .refl
  · exact (updateCognitiveKnowledge_codeWrites _ _ _ _).trans (processWslEvent_codeWrites _ _ _ _)

theorem createCognitiveAgent_codeWrites (w : World) (name role : String) :
    ReflTransGen CodeWrite w.graph (w.createCognitiveAgent name role).1.graph := by
  unfold createCognitiveAgent
  split
  · exact .refl
  · dsimp only
    refine (w.withSystem_codeWrites fun g s => s.createAgent_codeWrites g name).trans ?_
    rw [countAgent_graph, startAgent_graph]
    split
    · exact withSystem_codeWrites _ fun g _ => createAtom_codeWrites g _ _ _ _
    · exact .refl

theorem executeCognitiveCommand_codeWrites (w : World) (agentName command parameters : String) :
    ReflTransGen CodeWrite w.graph (w.executeCognitiveCommand agentName command parameters).1.graph := by
  unfold executeCognitiveCommand
  split
  · exact .refl
  · split
    · exact .refl
    · exact w.withSystem_codeWrites fun g s => s.withAgent_codeWrites g _ fun g ag =>
        Agent.receiveMessage_reach codeWrite_writes g ag _ _

theorem initStep_codeWrites (w : World) {c : InitCall} (hc : c ≠ .assignSystem) :
    ReflTransGen CodeWrite w.graph (w.initStep c).graph := by
  cases c with
  | assignSystem => exact absurd rfl hc
  | initializeSystem => exact w.withSystem_codeWrites fun g s => s.initializeSystem_codeWrites g
  | createAtom => exact createAtom_codeWrites _ _ _ _ _
  | createCognitiveAgent => exact createCognitiveAgent_codeWrites _ _ _

theorem updateProcessKnowledge_codeWrites (w : World) (process : ProcessInfo) :
    ReflTransGen CodeWrite w.graph (w.updateProcessKnowledge process).graph := by
  unfold updateProcessKnowledge
  split
  · exact .refl
  · split
    · exact .refl
    · refine (Graph.setAttention_codeWrites _ _ fun _ _ => ?_).trans <| Graph.reach_foldl id
        (fun g _ => (createAtom_codeWrites _ _ _ _ _).trans (addOutgoingLink_codeWrites _ _ _)) _ _
      have : (0 : ℚ) ≤ process.behaviorLog.length / 100 := div_nonneg (Nat.cast_nonneg _) (by norm_num)
      exact le_min (by norm_num) (by linarith)

theorem trackProcess_codeWrites (w : World) (d : String) (pid : UInt32) (cmd : String) (now : Int) :
    ReflTransGen CodeWrite w.graph (w.trackProcess d pid cmd now).graph := by
  unfold trackProcess
  dsimp only
  split
  · exact createAtom_codeWrites _ _ _ _ _
  · exact .refl

theorem untrackProcess_codeWrites (w : World) (d : String) (pid : UInt32) :
    ReflTransGen CodeWrite w.graph (w.untrackProcess d pid).graph := by
  unfold untrackProcess
  dsimp only
  split
  · exact .refl
  · exact updateProcessKnowledge_codeWrites _ _

theorem analyzeProcessBehavior_codeWrites (w : World) (d : String) (pid : UInt32) :
    ReflTransGen CodeWrite w.graph (w.analyzeProcessBehavior d pid).graph := by
  unfold analyzeProcessBehavior
  split
  · exact .refl
  · exact updateProcessKnowledge_codeWrites _ _

theorem learnFromProcessPatterns_codeWrites (w : World) (clock : String → Int) :
    ReflTransGen CodeWrite w.graph (w.learnFromProcessPatterns clock).graph := by
  unfold learnFromProcessPatterns
  split
  · exact Graph.reach_foldl id (fun g _ => (createAtom_codeWrites _ _ _ _ _).trans <|
      (createAtom_codeWrites _ _ _ _ _).trans (addOutgoingLink_codeWrites _ _ _)) _ _
  · exact .refl

theorem runStage_codeWrites (w : World) (name : String) (st : Stage) :
    ReflTransGen CodeWrite w.graph (w.runStage name st).graph :=
  w.withSystem_codeWrites fun g s => s.withAgent_codeWrites g name fun g ag =>
    runStages_reach codeWrite_writes [st] g ag

end World

namespace AutogeneticAgentFactory

open World (createCognitiveAgent_codeWrites)

theorem createTypedAgent_codeWrites (w : World) (name role : String) (goal₁ goal₂ : String × ℚ × ℚ) :
    ReflTransGen CodeWrite w.graph (createTypedAgent w name role goal₁ goal₂).1.graph := by
  unfold createTypedAgent
  dsimp only
  split
  · exact (createCognitiveAgent_codeWrites _ _ _).trans <| World.withSystem_codeWrites _ fun _ _ =>
      (createAtom_codeWrites _ _ _ _ _).trans (createAtom_codeWrites _ _ _ _ _)
  · exact createCognitiveAgent_codeWrites _ _ _

theorem createAgent_codeWrites (w : World) (type : AgentType) (name : String) :
    ReflTransGen CodeWrite w.graph (createAgent w type name).1.graph := by
  unfold createAgent
  split
  · exact .refl
  · cases type <;>
    · dsimp only
      split
      · rw [setSelfModificationParameters_graph]
        exact createTypedAgent_codeWrites _ _ _ _ _
      · exact createTypedAgent_codeWrites _ _ _ _ _

theorem createCustomAgent_codeWrites (w : World) (name specification : String) :
    ReflTransGen CodeWrite w.graph (createCustomAgent w name specification).1.graph := by
  unfold createCustomAgent
  dsimp only
  split
  · exact (createCognitiveAgent_codeWrites _ _ _).trans <| World.withSystem_codeWrites _ fun _ _ =>
      createAtom_codeWrites _ _ _ _ _
  · exact createCognitiveAgent_codeWrites _ _ _

end AutogeneticAgentFactory

def Op.codeWrites : Op → Bool
  | .removeAtom _ | .clear | .setAttention _ _ | .addIncomingLink _ _ | .initializeManager
  | .initializeManagerThrows _ => false
  | _ => true

namespace World

open AutogeneticAgentFactory (createAgent_codeWrites createCustomAgent_codeWrites)

theorem apply_codeWrites (w : World) {o : Op} (ho : o.codeWrites = true) :
    ReflTransGen CodeWrite w.graph (w.apply o).graph := by
  unfold apply
  split
  · exact .refl
  · cases o with
    | createAtom => exact createAtom_codeWrites _ _ _ _ _
    | setTruthValue => exact .single (codeWrite_writes.setTruthValue _ _ _ _)
    | addOutgoingLink => exact addOutgoingLink_codeWrites _ _ _
    | updateAttentionValues => exact .single (.updateAttentionValues _)
    | stage => exact runStage_codeWrites _ _ _
    | pause | resume => rw [withRegistered_graph]
    | createAgent => exact withSystem_codeWrites _ fun g s => s.createAgent_codeWrites g _
    | broadcastMessage => exact withSystem_codeWrites _ fun g s => s.broadcastMessage_codeWrites g _
    | updateSystem => exact withSystem_codeWrites _ fun g s => s.updateSystem_codeWrites g
    | shutdownManager => rw [shutdownManager_graph]
    | processCreate => exact onProcessCreate_codeWrites _ _ _ _
    | processDestroy => exact onProcessDestroy_codeWrites _ _ _ _
    | distroEvent => exact onDistroEvent_codeWrites _ _ _ _
    | systemEvent => exact onSystemEvent_codeWrites _ _ _
    | createCognitiveAgent => exact createCognitiveAgent_codeWrites _ _ _
    | destroyCognitiveAgent => rw [destroyCognitiveAgent_graph]
    | executeCognitiveCommand => exact executeCognitiveCommand_codeWrites _ _ _ _
    | setCognitiveConfiguration => rw [setCognitiveConfiguration_graph]
    | queryCognitiveState => rw [queryCognitiveState_graph]
    | factoryCreateAgent => exact createAgent_codeWrites _ _ _
    | createCustomAgent => exact createCustomAgent_codeWrites _ _ _
    | trackProcess => exact trackProcess_codeWrites _ _ _ _ _
    | untrackProcess => exact untrackProcess_codeWrites _ _ _
    | analyzeProcessBehavior => exact analyzeProcessBehavior_codeWrites _ _ _
    | learnFromProcessPatterns | monitoringTurn => exact learnFromProcessPatterns_codeWrites _ _
    | removeAtom | clear | setAttention | addIncomingLink | initializeManager | initializeManagerThrows =>
      cases ho

structure Frame (w w' : World) : Prop where
  initialized : w'.initialized = w.initialized
  isSome : w'.system.isSome = w.system.isSome
  processMapping : w'.processMapping = w.processMapping
  processesMonitored : w'.stats.processesMonitored = w.stats.processesMonitored
  trackedProcesses : w'.trackedProcesses = w.trackedProcesses

theorem Frame.refl (w : World) : Frame w w := ⟨rfl, rfl, rfl, rfl, rfl⟩

theorem Frame.trans {w₁ w₂ w₃ : World} (h₁ : Frame w₁ w₂) (h₂ : Frame w₂ w₃) : Frame w₁ w₃ :=
  ⟨h₂.initialized.trans h₁.initialized, h₂.isSome.trans h₁.isSome, h₂.processMapping.trans h₁.processMapping,
    h₂.processesMonitored.trans h₁.processesMonitored, h₂.trackedProcesses.trans h₁.trackedProcesses⟩

section Frame

variable (w : World)

theorem withSystem_frame (f : Graph → CognitiveSystem → Graph × CognitiveSystem) : Frame w (w.withSystem f) := by
  unfold withSystem
  split
  · exact .refl w
  · exact ⟨rfl, by simp_all, rfl, rfl, rfl⟩

theorem countEvent_frame : Frame w w.countEvent := ⟨rfl, rfl, rfl, rfl, rfl⟩

theorem countAgent_frame : Frame w w.countAgent := ⟨rfl, rfl, rfl, rfl, rfl⟩

theorem processWslEvent_frame (eventType source data : String) : Frame w (w.processWslEvent eventType source data) :=
  w.withSystem_frame _

theorem updateCognitiveKnowledge_frame (concept information : String) (c : ℚ) :
    Frame w (w.updateCognitiveKnowledge concept information c) := by
  unfold updateCognitiveKnowledge
  split
  · exact .refl w
  · exact ⟨rfl, rfl, rfl, rfl, rfl⟩

theorem onDistroEvent_frame (d eventType data : String) : Frame w (w.onDistroEvent d eventType data) := by
  unfold onDistroEvent
  split
  · exact .refl w
  · exact ((updateCognitiveKnowledge_frame _ _ _ _).trans (processWslEvent_frame _ _ _ _)).trans
      (countEvent_frame _)

theorem onSystemEvent_frame (eventType data : String) : Frame w (w.onSystemEvent eventType data) := by
  unfold onSystemEvent
  split
  · exact .refl w
  · exact ((updateCognitiveKnowledge_frame _ _ _ _).trans (processWslEvent_frame _ _ _ _)).trans
      (countEvent_frame _)

theorem addAgentGoal_frame (agent : String) (goal : String × ℚ × ℚ) : Frame w (w.addAgentGoal agent goal) :=
  w.withSystem_frame _

theorem startAgent_frame (name : String) : Frame w (w.startAgent name) := by
  unfold startAgent
  split
  · exact .refl w
  · split
    · exact .refl w
    · split
      · exact ⟨rfl, rfl, rfl, rfl, rfl⟩
      · exact ⟨rfl, by simp_all, rfl, rfl, rfl⟩

theorem createCognitiveAgent_frame (name role : String) : Frame w (w.createCognitiveAgent name role).1 := by
  unfold createCognitiveAgent
  split
  · exact .refl w
  · dsimp only
    refine (w.withSystem_frame fun g s => s.createAgent g name).trans
      (Frame.trans ?_ ((startAgent_frame _ name).trans (countAgent_frame _)))
    split
    · exact addAgentGoal_frame _ _ _
    · exact .refl _

theorem destroyCognitiveAgent_frame (name : String) : Frame w (w.destroyCognitiveAgent name).1 := by
  unfold destroyCognitiveAgent
  split
  · exact .refl w
  · dsimp only
    split <;> exact ⟨rfl, by simp_all, rfl, rfl, rfl⟩

theorem executeCognitiveCommand_frame (agentName command parameters : String) :
    Frame w (w.executeCognitiveCommand agentName command parameters).1 := by
  unfold executeCognitiveCommand
  split
  · exact .refl w
  · split
    · exact .refl w
    · dsimp only
      exact withSystem_frame w _

theorem setCognitiveConfiguration_frame (key value : String) : Frame w (w.setCognitiveConfiguration key value) := by
  unfold setCognitiveConfiguration
  split
  · exact .refl w
  · exact ⟨rfl, by simp_all, rfl, rfl, rfl⟩

theorem queryCognitiveState_frame : Frame w w.queryCognitiveState := by
  unfold queryCognitiveState
  split
  · exact .refl w
  · exact ⟨rfl, rfl, rfl, rfl, rfl⟩

theorem withRegistered_frame (name : String) (f : Agent → Agent) : Frame w (w.withRegistered name f) := by
  unfold withRegistered
  split
  · exact .refl w
  · exact ⟨rfl, by simp_all, rfl, rfl, rfl⟩

theorem runStage_frame (name : String) (st : Stage) : Frame w (w.runStage name st) :=
  w.withSystem_frame _

theorem updateProcessKnowledge_frame (process : ProcessInfo) : Frame w (w.updateProcessKnowledge process) := by
  unfold updateProcessKnowledge
  split
  · exact .refl w
  · split
    · exact .refl w
    · exact ⟨rfl, rfl, rfl, rfl, rfl⟩

theorem analyzeProcessBehavior_frame (d : String) (pid : UInt32) : Frame w (w.analyzeProcessBehavior d pid) := by
  unfold analyzeProcessBehavior
  split
  · exact .refl w
  · exact updateProcessKnowledge_frame _ _

theorem learnFromProcessPatterns_frame (clock : String → Int) : Frame w (w.learnFromProcessPatterns clock) := by
  unfold learnFromProcessPatterns
  split
  · exact ⟨rfl, rfl, rfl, rfl, rfl⟩
  · exact .refl w

end Frame

end World

namespace AutogeneticAgentFactory

open World (Frame createCognitiveAgent_frame)

theorem createTypedAgent_frame (w : World) (name role : String) (goal₁ goal₂ : String × ℚ × ℚ) :
    Frame w (createTypedAgent w name role goal₁ goal₂).1 := by
  unfold createTypedAgent
  dsimp only
  split
  · dsimp only
    exact (createCognitiveAgent_frame w name role).trans (World.withSystem_frame _ _)
  · exact createCognitiveAgent_frame _ _ _

theorem setSelfModificationParameters_frame (w : World) (name : String) :
    Frame w (setSelfModificationParameters w name) :=
  (World.setCognitiveConfiguration_frame _ _ _).trans (World.setCognitiveConfiguration_frame _ _ _)

theorem createAgent_frame (w : World) (type : AgentType) (name : String) : Frame w (createAgent w type name).1 := by
  unfold createAgent
  split
  · exact .refl w
  · cases type <;>
    · dsimp only
      split
      · exact (createTypedAgent_frame _ _ _ _ _).trans (setSelfModificationParameters_frame _ _)
      · exact createTypedAgent_frame _ _ _ _ _

theorem createCustomAgent_frame (w : World) (name specification : String) :
    Frame w (createCustomAgent w name specification).1 := by
  unfold createCustomAgent
  dsimp only
  split
  · dsimp only
    exact (createCognitiveAgent_frame w name "custom").trans (World.withSystem_frame _ _)
  · exact createCognitiveAgent_frame _ _ _

end AutogeneticAgentFactory

def Op.writesBookkeeping : Op → Bool
  | .initializeManager | .initializeManagerThrows _ | .shutdownManager | .processCreate _ _ _
  | .processDestroy _ _ _ | .trackProcess _ _ _ _ | .untrackProcess _ _ | .monitoringTurn _ _ => true
  | _ => false

namespace World

open AutogeneticAgentFactory (createAgent_frame createCustomAgent_frame)

theorem apply_frame (w : World) {o : Op} (ho : o.writesBookkeeping = false) : Frame w (w.apply o) := by
  unfold apply
  split
  · exact .refl w
  · cases o with
    | createAtom | removeAtom | clear | setTruthValue | setAttention | addOutgoingLink | addIncomingLink
    | updateAttentionValues => exact ⟨rfl, rfl, rfl, rfl, rfl⟩
    | stage => exact runStage_frame _ _ _
    | pause | resume => exact withRegistered_frame _ _ _
    | createAgent | broadcastMessage | updateSystem => exact withSystem_frame _ _
    | distroEvent => exact onDistroEvent_frame _ _ _ _
    | systemEvent => exact onSystemEvent_frame _ _ _
    | createCognitiveAgent => exact createCognitiveAgent_frame _ _ _
    | destroyCognitiveAgent => exact destroyCognitiveAgent_frame _ _
    | executeCognitiveCommand => exact executeCognitiveCommand_frame _ _ _ _
    | setCognitiveConfiguration => exact setCognitiveConfiguration_frame _ _ _
    | queryCognitiveState => exact queryCognitiveState_frame _
    | factoryCreateAgent => exact createAgent_frame _ _ _
    | createCustomAgent => exact createCustomAgent_frame _ _ _
    | analyzeProcessBehavior => exact analyzeProcessBehavior_frame _ _ _
    | learnFromProcessPatterns => exact learnFromProcessPatterns_frame _ _
    | initializeManager | initializeManagerThrows | shutdownManager | processCreate | processDestroy
    | trackProcess | untrackProcess | monitoringTurn => cases ho

end World

end CogWsl
