import CogWsl.Integration

/-!
`IntegrationStats::cognitiveAgents` against the registry of the cognitive system.
`CreateCognitiveAgent` counts an agent whether `CognitiveSystem::CreateAgent` made it or found it,
and `Shutdown` drops the registry with the counter left as it was.
-/

namespace CogWsl

namespace World

/-- The number of agents registered in `GetCognitiveSystem()`, or 0 when it is null. -/
def registeredAgents (w : World) : Nat :=
  (w.system.map CognitiveSystem.getAgentCount).getD 0

@[simp] theorem withSystem_stats (w : World) (f : Graph → CognitiveSystem → Graph × CognitiveSystem) :
    (w.withSystem f).stats = w.stats := by
  unfold withSystem
  split <;> rfl

theorem withSystem_registeredAgents (w : World) {f : Graph → CognitiveSystem → Graph × CognitiveSystem}
    (hf : ∀ g s, (f g s).2.getAgentCount = s.getAgentCount) :
    (w.withSystem f).registeredAgents = w.registeredAgents := by
  unfold withSystem registeredAgents
  split <;> simp_all

@[simp] theorem startAgent_stats (w : World) (name : String) : (w.startAgent name).stats = w.stats := by
  unfold startAgent
  split
  · rfl
  · split
    · rfl
    · split <;> rfl

theorem startAgent_registeredAgents (w : World) (name : String) :
    (w.startAgent name).registeredAgents = w.registeredAgents := by
  unfold startAgent
  split
  · rfl
  · split
    · rfl
    · split
      · rfl
      · simp_all [registeredAgents, CognitiveSystem.getAgentCount_eq, AList.keys_replace]

theorem addAgentGoal_registeredAgents (w : World) (agent : String) (goal : String × ℚ × ℚ) :
    (w.addAgentGoal agent goal).registeredAgents = w.registeredAgents :=
  w.withSystem_registeredAgents fun _ s => s.updateAgent_getAgentCount _ _

@[simp] theorem countAgent_registeredAgents (w : World) :
    w.countAgent.registeredAgents = w.registeredAgents := rfl

theorem createCognitiveAgent_cognitiveAgents {w : World} (hs : w.system.isSome) (name role : String) :
    (w.createCognitiveAgent name role).1.stats.cognitiveAgents = w.stats.cognitiveAgents + 1 := by
  unfold createCognitiveAgent
  split
  · simp_all
  · dsimp only
    simp only [countAgent, startAgent_stats]
    split <;> simp [addAgentGoal]

theorem createCognitiveAgent_registeredAgents {w : World} {s : CognitiveSystem} (hs : w.system = some s)
    {name : String} (hreg : (s.agents.lookup name).isSome) (role : String) :
    (w.createCognitiveAgent name role).1.registeredAgents = w.registeredAgents := by
  have hcreate : (w.withSystem fun g s => s.createAgent g name) = w := by
    unfold withSystem
    rw [hs]
    dsimp only
    rw [CognitiveSystem.createAgent_of_registered _ hreg]
    cases w
    cases hs
    rfl
  unfold createCognitiveAgent
  rw [hs]
  dsimp only
  rw [hcreate, countAgent_registeredAgents, startAgent_registeredAgents]
  split
  · exact addAgentGoal_registeredAgents _ _ _
  · rfl

@[simp] theorem shutdownManager_stats (w : World) : w.shutdownManager.stats = w.stats := by
  unfold shutdownManager
  split <;> rfl

theorem shutdownManager_registeredAgents {w : World} (h : w.initialized = true) :
    w.shutdownManager.registeredAgents = 0 := by
  simp [shutdownManager, h, registeredAgents]

theorem agentCounter_drifts :
    (init.run [.initializeManager, .createCognitiveAgent "SystemMonitor" "monitoring"]).stats.cognitiveAgents = 4 ∧
    (init.run [.initializeManager, .createCognitiveAgent "SystemMonitor" "monitoring"]).registeredAgents = 3 ∧
    (init.run [.initializeManager, .shutdownManager]).stats.cognitiveAgents = 3 ∧
    (init.run [.initializeManager, .shutdownManager]).registeredAgents = 0 := by
  let w := init.run [.initializeManager]
  have hw : w.halted = false ∧ w.initialized = true ∧ w.stats.cognitiveAgents = 3 ∧
      w.registeredAgents = 3 := by decide
  obtain ⟨s, hs, hreg⟩ : ∃ s, w.system = some s ∧ (s.agents.lookup "SystemMonitor").isSome :=
    ⟨_, rfl, by decide⟩
  have hcreate : init.run [.initializeManager, .createCognitiveAgent "SystemMonitor" "monitoring"] =
      (w.createCognitiveAgent "SystemMonitor" "monitoring").1 := by
    show w.apply (.createCognitiveAgent "SystemMonitor" "monitoring") = _
    simp only [apply, hw.1]
    rfl
  have hshutdown : init.run [.initializeManager, .shutdownManager] = w.shutdownManager := by
    show w.apply .shutdownManager = _
    simp only [apply, hw.1]
    rfl
  refine ⟨?_, ?_, ?_, ?_⟩
  · rw [hcreate, createCognitiveAgent_cognitiveAgents (by simp [hs]), hw.2.2.1]
  · rw [hcreate, createCognitiveAgent_registeredAgents hs hreg, hw.2.2.2]
  · rw [hshutdown, shutdownManager_stats, hw.2.2.1]
  · rw [hshutdown, shutdownManager_registeredAgents hw.2.1]

end World

end CogWsl
