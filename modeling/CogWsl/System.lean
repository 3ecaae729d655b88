import CogWsl.Agent

/-!
`CognitiveSystem`. The registry holds its agents by value under their names; the global atom
space is the `space` of the graph the operations take, and its constructor is
`CognitiveSystem.create`.
-/

namespace CogWsl

structure CognitiveSystem where
  agents : AList (fun _ : String => Agent)
  configuration : AList (fun _ : String => String)
  initialized : Bool

structure SystemStats where
  totalAgents : Nat
  activeAgents : Nat
  totalAtoms : Nat
  averageAttention : ℚ

namespace CognitiveSystem

def create (mem : Memory) : Graph × CognitiveSystem :=
  (Graph.newAtomSpace mem, ⟨∅, ∅, false⟩)

def setConfiguration (s : CognitiveSystem) (key value : String) : CognitiveSystem :=
  { s with configuration := s.configuration.insert key value }

def getConfiguration (s : CognitiveSystem) (key : String) : String :=
  (s.configuration.lookup key).getD ""

def initializeSystem (g : Graph) (s : CognitiveSystem) : Graph × CognitiveSystem :=
  if s.initialized then (g, s)
  else
    let g := (g.createAtom .concept "CognitiveSystem" 1 1).1
    let g := (g.createAtom .goal "SystemStability" 1 1).1
    let g := (g.createAtom .goal "OptimizePerformance" (4 / 5) (9 / 10)).1
    (g, (({ s with initialized := true }.setConfiguration "max_agents" "10").setConfiguration
      "attention_update_interval" "1000").setConfiguration "self_modification_probability" "0.01")

/-- The agents are stopped and dropped. -/
def shutdown (s : CognitiveSystem) : CognitiveSystem :=
  if s.initialized then { s with initialized := false, agents := ∅ } else s

def createAgent (g : Graph) (s : CognitiveSystem) (name : String) : Graph × CognitiveSystem :=
  match s.agents.lookup name with
  | some _ => (g, s)
  | none =>
    let r := Agent.create g name true
    let goal := r.1.createAtom .goal ("AgentGoal:" ++ name) (1 / 2) (4 / 5)
    (goal.1, { s with agents := s.agents.insert name (r.2.addGoal goal.1.mem (some goal.2)) })

def getAgent (s : CognitiveSystem) (name : String) : Option Agent :=
  s.agents.lookup name

def removeAgent (s : CognitiveSystem) (name : String) : CognitiveSystem × Bool :=
  match s.agents.lookup name with
  | none => (s, false)
  | some _ => ({ s with agents := s.agents.erase name }, true)

def getAgentNames (s : CognitiveSystem) : List String :=
  s.agents.keys

def getAgentCount (s : CognitiveSystem) : Nat :=
  s.agents.entries.length

theorem getAgentCount_eq (s : CognitiveSystem) : s.getAgentCount = s.agents.keys.length := by
  simp [getAgentCount, AList.keys, List.keys]

theorem createAgent_of_registered (g : Graph) {s : CognitiveSystem} {name : String}
    (h : (s.agents.lookup name).isSome) : s.createAgent g name = (g, s) := by
  unfold createAgent
  split
  · rfl
  · simp_all

def withAgent (g : Graph) (s : CognitiveSystem) (name : String) (f : Graph → Agent → Graph × Agent) :
    Graph × CognitiveSystem :=
  match s.agents.lookup name with
  | none => (g, s)
  | some ag => let r := f g ag; (r.1, { s with agents := s.agents.replace name r.2 })

def updateAgent (s : CognitiveSystem) (name : String) (f : Agent → Agent) : CognitiveSystem :=
  match s.agents.lookup name with
  | none => s
  | some ag => { s with agents := s.agents.replace name (f ag) }

@[simp] theorem updateAgent_getAgentCount (s : CognitiveSystem) (name : String) (f : Agent → Agent) :
    (s.updateAgent name f).getAgentCount = s.getAgentCount := by
  unfold updateAgent
  split
  · rfl
  · simp only [getAgentCount_eq, AList.keys_replace]

def broadcastMessage (g : Graph) (s : CognitiveSystem) (message : String) : Graph × CognitiveSystem :=
  s.agents.keys.foldl (fun r name => withAgent r.1 r.2 name fun g ag => ag.receiveMessage g "System" message)
    (g, s)

def isActive (state : AgentState) : Bool :=
  state == .active || state == .learning || state == .planning || state == .executing ||
    state == .selfModifying

def getStatistics (g : Graph) (s : CognitiveSystem) : SystemStats where
  totalAgents := s.agents.entries.length
  activeAgents := (s.agents.entries.filter fun e => isActive e.2.state).length
  totalAtoms := g.space.getAtomCount
  averageAttention :=
    let attentions := (g.query fun _ => true).filterMap fun p => (g.mem.objects p).map (·.attention)
    if attentions.isEmpty then 0 else attentions.sum / attentions.length

/-- The loop of `UpdateSystem` over the agents: `Resume` the first `Inactive` one, then stop. -/
def resumeFirstInactive (agents : AList (fun _ : String => Agent)) : AList (fun _ : String => Agent) :=
  match agents.entries.find? (fun e => e.2.state == .inactive) with
  | some e => agents.replace e.1 e.2.resume
  | none => agents

def updateGoal (g : Graph) (s : CognitiveSystem) (goal : Nat) : CognitiveSystem :=
  if (g.mem.nameOf goal) = some "OptimizePerformance" then
    let stats := getStatistics g s
    if stats.activeAgents < stats.totalAgents / 2 then { s with agents := resumeFirstInactive s.agents }
    else s
  else s

def updateSystem (g : Graph) (s : CognitiveSystem) : Graph × CognitiveSystem :=
  if s.initialized then
    let g := g.updateAttentionValues
    (g, (g.findAtomsByType .goal).foldl (updateGoal g) s)
  else (g, s)

theorem updateSystem_odd_boundary (g : Graph) (s : CognitiveSystem)
    (h : s.agents.entries.length = 2 * (s.agents.entries.filter fun e => isActive e.2.state).length + 1) :
    (updateSystem g s).2 = s := by
  unfold updateSystem
  split
  · refine List.foldl_fixed' (fun goal => ?_) _
    unfold updateGoal
    split
    · exact if_neg (by simp only [getStatistics]; omega)
    · rfl
  · rfl

def soloSystem : Graph × CognitiveSystem :=
  let r := create Memory.init
  let r := r.2.initializeSystem r.1
  r.2.createAgent r.1 "Solo"

theorem updateSystem_misses_inactive :
    (soloSystem.2.agents.lookup "Solo").map (fun ag => (ag.state, ag.shouldStop)) =
        some (.inactive, false) ∧
      ((updateSystem soloSystem.1 soloSystem.2).2.agents.lookup "Solo").map (·.state) =
        some .inactive := by
  rw [updateSystem_odd_boundary soloSystem.1 soloSystem.2 (by decide)]
  decide

theorem getAgentCount_shutdown (s : CognitiveSystem) :
    s.shutdown.getAgentCount = if s.initialized then 0 else s.getAgentCount := by
  unfold shutdown
  split <;> rfl

def preInitAgent : Graph × CognitiveSystem :=
  let r := create Memory.init
  r.2.createAgent r.1 "A"

def reinitAgent : Graph × CognitiveSystem :=
  let r := create Memory.init
  let r := r.2.initializeSystem r.1
  let r := (r.1, r.2.shutdown)
  r.2.createAgent r.1 "A"

theorem shutdown_keeps_late_agent :
    preInitAgent.2.shutdown.getAgentCount = 1 ∧ reinitAgent.2.shutdown.getAgentCount = 1 := by
  simp only [getAgentCount_shutdown]
  decide

end CognitiveSystem

end CogWsl
