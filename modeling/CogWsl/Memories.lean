import CogWsl.Agent

/-!
The list `m_memories` of an agent: `Perceive` and `ReceiveMessage` append to it, `Learn` cuts
the oldest 100 entries once it holds more than 1000.
-/

namespace CogWsl

open Relation
open Graph (SpaceStep)

namespace Agent

variable (g : Graph) (ag : Agent)

theorem perceiveAtom_memories (r : Graph × Agent) (p : Nat) :
    r.2.memories <+: (perceiveAtom r p).2.memories ∧ (perceiveAtom r p).2.hasSpace = r.2.hasSpace := by
  unfold perceiveAtom
  split
  · exact ⟨List.prefix_refl _, rfl⟩
  · exact ⟨List.prefix_append _ _, rfl⟩

theorem perceiveAtoms_memories (l : List Nat) (r : Graph × Agent) :
    r.2.memories <+: (l.foldl perceiveAtom r).2.memories ∧
      (l.foldl perceiveAtom r).2.hasSpace = r.2.hasSpace := by
  induction l generalizing r with
  | nil => exact ⟨List.prefix_refl _, rfl⟩
  | cons p l ih =>
    obtain ⟨h1, h2⟩ := perceiveAtom_memories r p
    obtain ⟨h3, h4⟩ := ih (perceiveAtom r p)
    exact ⟨h1.trans h3, h4.trans h2⟩

theorem perceive_memories :
    ag.memories <+: (ag.perceive g).2.memories ∧ (ag.perceive g).2.hasSpace = ag.hasSpace ∧
      (ag.hasSpace = false → (ag.perceive g).2.memories = ag.memories) := by
  unfold perceive
  split
  · have h := perceiveAtoms_memories (g.query highAttention) (g, { ag with state := .active })
    exact ⟨h.1, h.2, fun h' => by simp_all⟩
  · exact ⟨List.prefix_refl _, rfl, fun _ => rfl⟩

theorem receiveMessage_memories (fromAgent message : String) :
    (ag.receiveMessage g fromAgent message).2.memories =
      if ag.hasSpace then
        ag.memories ++ [(g.createAtom .memory ("Message:" ++ fromAgent ++ ":" ++ message) 1 (9 / 10)).2]
      else ag.memories := by
  unfold receiveMessage
  split <;> rfl

@[simp] theorem receiveMessage_hasSpace (fromAgent message : String) :
    (ag.receiveMessage g fromAgent message).2.hasSpace = ag.hasSpace := by
  unfold receiveMessage
  split <;> rfl

theorem learn_memories :
    (ag.learn g).2.memories = if ag.hasSpace then trimMemories ag.memories else ag.memories := by
  unfold learn
  split <;> rfl

@[simp] theorem learn_hasSpace : (ag.learn g).2.hasSpace = ag.hasSpace := by
  unfold learn
  split <;> rfl

@[simp] theorem selfModify_memories : (ag.selfModify g).2.memories = ag.memories := by
  unfold selfModify
  split <;> rfl

@[simp] theorem selfModify_hasSpace : (ag.selfModify g).2.hasSpace = ag.hasSpace := by
  unfold selfModify
  split <;> rfl

theorem trimMemories_length (l : List Nat) :
    (trimMemories l).length = if 1000 < l.length then l.length - 100 else l.length := by
  unfold trimMemories
  split <;> simp

def NamesLong (mem : Memory) (memories : List Nat) : Prop :=
  ∀ p ∈ memories, ∃ n, mem.nameOf p = some n ∧ 9 ≤ n.length

theorem NamesLong.keepsNames {mem mem' : Memory} {l : List Nat} (h : NamesLong mem l)
    (hm : mem.KeepsNames mem') : NamesLong mem' l := fun p hp => by
  obtain ⟨n, hn, hl⟩ := h p hp
  exact ⟨n, hm p n hn, hl⟩

theorem NamesLong.append {mem : Memory} {l : List Nat} (h : NamesLong mem l) {p : Nat} {n : String}
    (hp : mem.nameOf p = some n) (hn : 9 ≤ n.length) : NamesLong mem (l ++ [p]) := fun q hq => by
  rcases List.mem_append.mp hq with hq | hq
  · exact h q hq
  · obtain rfl := List.mem_singleton.mp hq
    exact ⟨n, hp, hn⟩

theorem perceiveAtom_namesLong (r : Graph × Agent) (p : Nat) (hg : r.1.Coherent)
    (h : NamesLong r.1.mem r.2.memories) :
    (perceiveAtom r p).1.Coherent ∧ NamesLong (perceiveAtom r p).1.mem (perceiveAtom r p).2.memories := by
  unfold perceiveAtom
  split
  · exact ⟨hg, h⟩
  · refine ⟨Graph.createAtom_coherent hg _ _ _ _, ?_⟩
    refine (h.keepsNames (Graph.keepsNames_of_reach (Graph.createAtom_reach Graph.spaceStep_writes r.1 _ _ _ _))).append
      (Graph.createAtom_nameOf hg _ _ _ _) ?_
    simp only [String.length_append]
    exact Nat.le_add_right_of_le (by decide)

theorem perceive_namesLong (hg : g.Coherent) (h : NamesLong g.mem ag.memories) :
    (ag.perceive g).1.Coherent ∧ NamesLong (ag.perceive g).1.mem (ag.perceive g).2.memories := by
  unfold perceive
  split
  · exact List.foldlRecOn (motive := fun r => r.1.Coherent ∧ NamesLong r.1.mem r.2.memories)
      _ _ (g, { ag with state := .active }) ⟨hg, h⟩ fun r hr p _ => perceiveAtom_namesLong r p hr.1 hr.2
  · exact ⟨hg, h⟩

theorem reasonMemories_ok (ms : List Nat) (g : Graph) (h : NamesLong g.mem ms) :
    (reasonMemories ms g).2 = false := by
  induction ms generalizing g with
  | nil => rfl
  | cons m ms ih =>
    obtain ⟨n, hn, hl⟩ := h m (List.mem_cons_self _ _)
    obtain ⟨a, ha, rfl⟩ := Option.map_eq_some'.mp hn
    obtain ⟨g', hg'⟩ : ∃ g', reasonMemory g m = some g' :=
      ⟨_, by simp only [reasonMemory, ha, if_neg (Nat.not_lt.mpr hl)]; rfl⟩
    have ht : NamesLong g.mem ms := fun p hp => h p (List.mem_cons_of_mem _ hp)
    simp only [reasonMemories, hg']
    exact ih g' (ht.keepsNames (Graph.keepsNames_of_reach (reasonMemory_reach Graph.spaceStep_writes g hg')))

theorem plan_some (hs : ag.hasSpace = true) : ∃ g', ag.plan g = some g' := by
  unfold plan
  rw [hs]
  induction ag.goals generalizing g with
  | nil => exact ⟨g, rfl⟩
  | cons goal goals ih =>
    obtain ⟨g₁, h₁⟩ : ∃ g₁, planGoal true g goal = some g₁ := by
      unfold planGoal
      split
      · exact ⟨_, rfl⟩
      · split <;> exact ⟨_, rfl⟩
    rw [List.foldlM_cons, h₁]
    exact ih g₁

theorem act_some (hs : ag.hasSpace = true) : ag.act g = some ((g.findAtomsByType .process).foldl actPlan g) := by
  simp [act, hs]

theorem cycle_memories (hs : ag.hasSpace = true) (hg : g.Coherent) (h : NamesLong g.mem ag.memories)
    (selfModifies : Bool) :
    (cycle g ag selfModifies).agent.memories = trimMemories (ag.perceive g).2.memories := by
  have h₁ := perceive_namesLong g ag hg h
  have hs₁ : (ag.perceive g).2.hasSpace = true := (perceive_memories g ag).2.1.trans hs
  have hr : ((ag.perceive g).2.reason (ag.perceive g).1).2 = false := by
    simp only [reason, hs₁, if_true]
    exact reasonMemories_ok _ _ h₁.2
  obtain ⟨g₂, hp⟩ := plan_some ((ag.perceive g).2.reason (ag.perceive g).1).1 _ hs₁
  have e₂ : Stage.reason.run (ag.perceive g).1 (ag.perceive g).2 =
      ⟨((ag.perceive g).2.reason (ag.perceive g).1).1, (ag.perceive g).2, none⟩ := by
    simp only [Stage.run, hr]; rfl
  have e₃ : Stage.plan.run ((ag.perceive g).2.reason (ag.perceive g).1).1 (ag.perceive g).2 =
      ⟨g₂, (ag.perceive g).2, none⟩ := by
    simp only [Stage.run, hp]
  have e₄ : Stage.act.run g₂ (ag.perceive g).2 =
      ⟨(g₂.findAtomsByType .process).foldl actPlan g₂, (ag.perceive g).2, none⟩ := by
    simp only [Stage.run, act_some _ _ hs₁]
  simp only [cycle, cycleStages, List.cons_append, List.nil_append]
  rw [runStages_cons_of_run rfl, runStages_cons_of_run e₂, runStages_cons_of_run e₃,
    runStages_cons_of_run e₄, runStages_cons_of_run rfl]
  cases selfModifies <;> simp [runStages, Stage.run, learn_memories, hs₁]

theorem receiveMessage_namesLong (fromAgent message : String) (hg : g.Coherent)
    (h : NamesLong g.mem ag.memories) :
    (ag.receiveMessage g fromAgent message).1.Coherent ∧
      NamesLong (ag.receiveMessage g fromAgent message).1.mem
        (ag.receiveMessage g fromAgent message).2.memories := by
  unfold receiveMessage
  split
  · refine ⟨Graph.createAtom_coherent hg _ _ _ _, ?_⟩
    refine (h.keepsNames (Graph.keepsNames_of_reach (Graph.createAtom_reach Graph.spaceStep_writes g _ _ _ _))).append
      (Graph.createAtom_nameOf hg _ _ _ _) ?_
    simp only [String.length_append]
    have : "Message:".length + ":".length = 9 := rfl
    omega
  · exact ⟨hg, h⟩

end Agent

def deliver (g : Graph) (ag : Agent) (messages : List (String × String)) : Graph × Agent :=
  messages.foldl (fun r m => r.2.receiveMessage r.1 m.1 m.2) (g, ag)

theorem deliver_cons (g : Graph) (ag : Agent) (m : String × String) (ms : List (String × String)) :
    deliver g ag (m :: ms) =
      deliver (ag.receiveMessage g m.1 m.2).1 (ag.receiveMessage g m.1 m.2).2 ms := rfl

theorem deliver_memories (messages : List (String × String)) (g : Graph) (ag : Agent)
    (hs : ag.hasSpace = true) (hg : g.Coherent) (h : Agent.NamesLong g.mem ag.memories) :
    (deliver g ag messages).1.Coherent ∧ Agent.NamesLong (deliver g ag messages).1.mem
      (deliver g ag messages).2.memories ∧ (deliver g ag messages).2.hasSpace = true ∧
      (deliver g ag messages).2.memories.length = ag.memories.length + messages.length := by
  induction messages generalizing g ag with
  | nil => exact ⟨hg, h, hs, rfl⟩
  | cons m ms ih =>
    obtain ⟨hg', h'⟩ := Agent.receiveMessage_namesLong g ag m.1 m.2 hg h
    have hs' := (Agent.receiveMessage_hasSpace g ag m.1 m.2).trans hs
    have hl : (ag.receiveMessage g m.1 m.2).2.memories.length = ag.memories.length + 1 := by
      simp [Agent.receiveMessage_memories, hs]
    obtain ⟨h₁, h₂, h₃, h₄⟩ := ih _ _ hs' hg' h'
    rw [deliver_cons]
    refine ⟨h₁, h₂, h₃, ?_⟩
    rw [h₄, hl, List.length_cons]
    omega

theorem cycle_memories_exceed_of {g : Graph} {ag : Agent} (hs : ag.hasSpace = true)
    (hg : g.Coherent) (h : Agent.NamesLong g.mem ag.memories) (hl : 1100 < ag.memories.length)
    (selfModifies : Bool) : 1000 < (cycle g ag selfModifies).agent.memories.length := by
  rw [Agent.cycle_memories _ _ hs hg h, Agent.trimMemories_length]
  have hp := ((Agent.perceive_memories g ag).1).length_le
  split <;> omega

theorem cycle_memories_exceed :
    1000 < (cycle (deliver (Agent.create (Graph.newAtomSpace Memory.init) "TestAgent" true).1
        (Agent.create (Graph.newAtomSpace Memory.init) "TestAgent" true).2
        (List.replicate 1101 ("System", "ping"))).1
      (deliver (Agent.create (Graph.newAtomSpace Memory.init) "TestAgent" true).1
        (Agent.create (Graph.newAtomSpace Memory.init) "TestAgent" true).2
        (List.replicate 1101 ("System", "ping"))).2 false).agent.memories.length := by
  have hg := Graph.coherent_of_reach (Agent.create_reach Graph.spaceStep_writes _ "TestAgent" true)
    (Graph.newAtomSpace_coherent Memory.init)
  have h₀ : (Agent.create (Graph.newAtomSpace Memory.init) "TestAgent" true).2.memories = [] := rfl
  obtain ⟨hg', hn', hs', hl'⟩ := deliver_memories (List.replicate 1101 ("System", "ping")) _
    (Agent.create (Graph.newAtomSpace Memory.init) "TestAgent" true).2 rfl hg
    (fun p hp => by rw [h₀] at hp; cases hp)
  refine cycle_memories_exceed_of hs' hg' hn' ?_ false
  rw [hl', List.length_replicate, h₀]
  decide

inductive AgentEvent
  | receive (fromAgent message : String)
  | stage (st : Stage)
  | other (g : Graph)

def AgentEvent.apply : AgentEvent → Graph × Agent → Graph × Agent
  | .receive fromAgent message, s => s.2.receiveMessage s.1 fromAgent message
  | .stage st, s => ((runStages [st] s.1 s.2).graph, (runStages [st] s.1 s.2).agent)
  | .other g, s => (g, s.2)

namespace Agent

theorem mem_of_mem_trimMemories {l : List Nat} {p : Nat} (h : p ∈ trimMemories l) : p ∈ l := by
  unfold trimMemories at h
  split at h
  · exact List.mem_of_mem_drop h
  · exact h

theorem stage_namesLong (st : Stage) (hg : g.Coherent) (h : NamesLong g.mem ag.memories) :
    (st.run g ag).graph.Coherent ∧ NamesLong (st.run g ag).graph.mem (st.run g ag).agent.memories := by
  have hr := st.run_reach Graph.spaceStep_writes g ag
  have hk := h.keepsNames (Graph.keepsNames_of_reach hr)
  refine ⟨Graph.coherent_of_reach hr hg, ?_⟩
  cases st with
  | perceive => exact (perceive_namesLong g ag hg h).2
  | learn =>
    show NamesLong _ (ag.learn g).2.memories
    rw [learn_memories]
    split
    · exact fun p hp => hk p (mem_of_mem_trimMemories hp)
    · exact hk
  | plan | act =>
    simp only [Stage.run] at hk ⊢
    split <;> simp_all
  | reason => exact hk
  | selfModify => simpa only [Stage.run, selfModify_memories] using hk

end Agent

theorem runStages_namesLong (sts : List Stage) {g : Graph} {ag : Agent} (hg : g.Coherent)
    (h : Agent.NamesLong g.mem ag.memories) :
    (runStages sts g ag).graph.Coherent ∧
      Agent.NamesLong (runStages sts g ag).graph.mem (runStages sts g ag).agent.memories := by
  induction sts generalizing g ag with
  | nil => exact ⟨hg, h⟩
  | cons st sts ih =>
    have hst := Agent.stage_namesLong st hg h
    simp only [runStages]
    split
    · exact ih hst.1 hst.2
    · exact hst
    · exact hst

/-- A step of an agent's run: a message to it, a run of its stages (one stage, or a whole turn of
`ProcessingLoop` with its early exit on a fault), or atom-space operations by anyone else on the
shared graph. -/
inductive AgentStep : Graph × Agent → Graph × Agent → Prop
  | receive (s : Graph × Agent) (fromAgent message : String) :
      AgentStep s ((AgentEvent.receive fromAgent message).apply s)
  | stages (s : Graph × Agent) (sts : List Stage) :
      AgentStep s ((runStages sts s.1 s.2).graph, (runStages sts s.1 s.2).agent)
  | other (s : Graph × Agent) (g : Graph) (h : ReflTransGen SpaceStep s.1 g) :
      AgentStep s ((AgentEvent.other g).apply s)

theorem AgentStep.namesLong {s t : Graph × Agent} (h : AgentStep s t) (hg : s.1.Coherent)
    (hn : Agent.NamesLong s.1.mem s.2.memories) : t.1.Coherent ∧ Agent.NamesLong t.1.mem t.2.memories := by
  cases h with
  | receive fromAgent message => exact Agent.receiveMessage_namesLong s.1 s.2 fromAgent message hg hn
  | stages sts => exact runStages_namesLong sts hg hn
  | other g hs => exact ⟨Graph.coherent_of_reach hs hg, hn.keepsNames (Graph.keepsNames_of_reach hs)⟩

theorem memoryNames_long {g : Graph} (hg : g.Coherent) (name : String) (hasSpace : Bool)
    {s : Graph × Agent} (h : ReflTransGen AgentStep (Agent.create g name hasSpace) s) :
    Agent.NamesLong s.1.mem s.2.memories ∧ (Stage.reason.run s.1 s.2).fault = none := by
  have hinv : s.1.Coherent ∧ Agent.NamesLong s.1.mem s.2.memories := by
    induction h with
    | refl =>
      refine ⟨Graph.coherent_of_reach (Agent.create_reach Graph.spaceStep_writes g name hasSpace) hg,
        fun p hp => ?_⟩
      unfold Agent.create at hp
      split at hp <;> cases hp
    | tail _ hst ih => exact hst.namesLong ih.1 ih.2
  refine ⟨hinv.2, ?_⟩
  simp only [Stage.run, Agent.reason]
  split
  · rw [Agent.reasonMemories_ok _ _ hinv.2]
    rfl
  · rfl

theorem memoryNames_long_emptyMessage :
    (Graph.newAtomSpace Memory.init).Coherent ∧
      ReflTransGen AgentStep (Agent.create (Graph.newAtomSpace Memory.init) "A" true)
        ((AgentEvent.receive "" "").apply (Agent.create (Graph.newAtomSpace Memory.init) "A" true)) ∧
      Agent.NamesLong ((AgentEvent.receive "" "").apply
          (Agent.create (Graph.newAtomSpace Memory.init) "A" true)).1.mem
        ((AgentEvent.receive "" "").apply (Agent.create (Graph.newAtomSpace Memory.init) "A" true)).2.memories ∧
      (Stage.reason.run ((AgentEvent.receive "" "").apply
          (Agent.create (Graph.newAtomSpace Memory.init) "A" true)).1
        ((AgentEvent.receive "" "").apply (Agent.create (Graph.newAtomSpace Memory.init) "A" true)).2).fault =
        none :=
  have hg := Graph.newAtomSpace_coherent Memory.init
  have hs := ReflTransGen.single (AgentStep.receive _ "" "")
  ⟨hg, hs, memoryNames_long hg "A" true hs⟩

end CogWsl
