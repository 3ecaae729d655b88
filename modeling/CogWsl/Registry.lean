import CogWsl.Runs
import CogWsl.Memories

/-!
The registry of `CognitiveSystem` over whole runs of the system. Every agent it holds is stored
under its own name, has the global atom space, holds only `Goal` atoms in `m_goals`, and only
memories whose names `Reason` can cut with `substr(9)`. Every call of the system keeps this,
together with the agreement of the atom space's maps, from the fresh process on: no atom ever
changes its name or its type, `AddGoal` checks the type, and only `Perceive` and `ReceiveMessage`
push memories.
-/

namespace CogWsl

open Relation

namespace Memory

def KeepsKinds (mem mem' : Memory) : Prop :=
  ∀ p a, mem.objects p = some a → ∃ a', mem'.objects p = some a' ∧ a'.name = a.name ∧ a'.type = a.type

theorem KeepsKinds.refl (mem : Memory) : mem.KeepsKinds mem := fun _ a h => ⟨a, h, rfl, rfl⟩

theorem KeepsKinds.trans {m₁ m₂ m₃ : Memory} (h₁ : m₁.KeepsKinds m₂) (h₂ : m₂.KeepsKinds m₃) :
    m₁.KeepsKinds m₃ := fun p a h => by
  obtain ⟨b, hb, hnb, htb⟩ := h₁ p a h
  obtain ⟨c, hc, hnc, htc⟩ := h₂ p b hb
  exact ⟨c, hc, hnc.trans hnb, htc.trans htb⟩

theorem KeepsKinds.keepsNames {mem mem' : Memory} (h : mem.KeepsKinds mem') : mem.KeepsNames mem' :=
  fun p n hn => by
    obtain ⟨a, ha, rfl⟩ := Option.map_eq_some'.mp hn
    obtain ⟨a', ha', hname, -⟩ := h p a ha
    exact Option.map_eq_some'.mpr ⟨a', ha', hname⟩

theorem keepsKinds_alloc (mem : Memory) (a : Atom) : mem.KeepsKinds (mem.alloc a) :=
  fun _ b h => ⟨b, (alloc_objects_of_lt _ _ (objects_lt h)).trans h, rfl, rfl⟩

theorem keepsKinds_modify (mem : Memory) (p : Nat) {f : Atom → Atom}
    (hf : ∀ a, (f a).name = a.name ∧ (f a).type = a.type) : mem.KeepsKinds (mem.modify p f) :=
  fun q a h => by
    rw [modify_objects]
    split
    · exact ⟨f a, by rw [h, Option.map_some'], hf a⟩
    · exact ⟨a, h, rfl, rfl⟩

end Memory

namespace Graph

theorem SpaceCall.keepsKinds {g g' : Graph} (h : SpaceCall g g') : g.mem.KeepsKinds g'.mem := by
  cases h with
  | createAtom type name v c =>
    cases hn : g.space.atomsByName.lookup name with
    | some p => rw [createAtom_of_lookup hn]; exact .refl _
    | none => rw [createAtom_of_lookup_none hn]; exact Memory.keepsKinds_alloc _ _
  | update p f hf => exact Memory.keepsKinds_modify _ p fun a => ⟨(hf a).1, (hf a).2.1⟩
  | removeAtom id => rw [removeAtom_mem]; exact .refl _
  | clear => exact .refl _

theorem keepsKinds_of_spaceCalls {g g' : Graph} (h : ReflTransGen SpaceCall g g') :
    g.mem.KeepsKinds g'.mem := by
  induction h with
  | refl => exact .refl _
  | tail _ h ih => exact ih.trans h.keepsKinds

theorem coherent_of_spaceCalls {g g' : Graph} (h : ReflTransGen SpaceCall g g') (hg : g.Coherent) :
    g'.Coherent :=
  coherent_of_reach (h.mono fun _ _ h => h.spaceStep) hg

end Graph

open Graph (SpaceCall spaceCall_writes spaceCalls_of_grows spaceCalls_of_codeWrites keepsKinds_of_spaceCalls
  coherent_of_spaceCalls)

namespace Agent

structure Registered (mem : Memory) (name : String) (ag : Agent) : Prop where
  name_eq : ag.name = name
  hasSpace : ag.hasSpace = true
  goals : ∀ p ∈ ag.goals, ∃ a, mem.objects p = some a ∧ a.type = .goal
  memories : NamesLong mem ag.memories

structure SameRole (ag ag' : Agent) : Prop where
  name : ag'.name = ag.name
  hasSpace : ag'.hasSpace = ag.hasSpace
  goals : ag'.goals = ag.goals

theorem SameRole.refl (ag : Agent) : SameRole ag ag := ⟨rfl, rfl, rfl⟩

theorem SameRole.trans {a₁ a₂ a₃ : Agent} (h₁ : SameRole a₁ a₂) (h₂ : SameRole a₂ a₃) : SameRole a₁ a₃ :=
  ⟨h₂.name.trans h₁.name, h₂.hasSpace.trans h₁.hasSpace, h₂.goals.trans h₁.goals⟩

section Registered

variable {mem mem' : Memory} {name : String} {ag ag' : Agent}

theorem Registered.update (h : Registered mem name ag) (hr : SameRole ag ag')
    (hm : mem.KeepsKinds mem') (hn : NamesLong mem' ag'.memories) : Registered mem' name ag' where
  name_eq := hr.name.trans h.name_eq
  hasSpace := hr.hasSpace.trans h.hasSpace
  goals p hp := by
    obtain ⟨a, ha, ht⟩ := h.goals p (hr.goals ▸ hp)
    obtain ⟨a', ha', -, ht'⟩ := hm p a ha
    exact ⟨a', ha', ht'.trans ht⟩
  memories := hn

theorem Registered.keepsKinds (h : Registered mem name ag) (hm : mem.KeepsKinds mem') :
    Registered mem' name ag :=
  h.update (.refl ag) hm (h.memories.keepsNames hm.keepsNames)

theorem Registered.addGoal (h : Registered mem name ag) (q : Option Nat) :
    Registered mem name (ag.addGoal mem q) := by
  cases q with
  | none => exact h
  | some p =>
    by_cases hp : (mem.objects p).any (·.type == .goal) = true
    · have hgoal : ∃ a, mem.objects p = some a ∧ a.type = .goal := by
        cases ha : mem.objects p with
        | none => simp [ha] at hp
        | some a => exact ⟨a, rfl, by simpa [ha] using hp⟩
      simp only [Agent.addGoal, hp, if_true]
      refine ⟨h.name_eq, h.hasSpace, fun r hr => ?_, h.memories⟩
      rcases List.mem_append.mp hr with hr | hr
      · exact h.goals r hr
      · exact List.mem_singleton.mp hr ▸ hgoal
    · simpa only [Agent.addGoal, hp] using h

end Registered

theorem perceive_sameRole (g : Graph) (ag : Agent) : SameRole ag (ag.perceive g).2 := by
  unfold perceive
  split
  · refine List.foldlRecOn (motive := fun r : Graph × Agent => SameRole ag r.2) _ _ _ ⟨rfl, rfl, rfl⟩
      fun r h p _ => ?_
    unfold perceiveAtom
    split
    · exact h
    · exact ⟨h.name, h.hasSpace, h.goals⟩
  · exact .refl ag

theorem receiveMessage_sameRole (g : Graph) (ag : Agent) (fromAgent message : String) :
    SameRole ag (ag.receiveMessage g fromAgent message).2 := by
  unfold receiveMessage
  split
  · exact ⟨rfl, rfl, rfl⟩
  · exact .refl ag

theorem Stage.run_sameRole (st : Stage) (g : Graph) (ag : Agent) : SameRole ag (st.run g ag).agent := by
  cases st with
  | perceive => exact perceive_sameRole g ag
  | reason => exact .refl ag
  | plan | act =>
    simp only [Stage.run]
    split <;> exact .refl ag
  | learn =>
    show SameRole ag (ag.learn g).2
    unfold learn
    split
    · exact ⟨rfl, rfl, rfl⟩
    · exact .refl ag
  | selfModify =>
    show SameRole ag (ag.selfModify g).2
    unfold selfModify
    split
    · exact ⟨rfl, rfl, rfl⟩
    · exact .refl ag

theorem runStages_sameRole (sts : List Stage) (g : Graph) (ag : Agent) :
    SameRole ag (runStages sts g ag).agent := by
  induction sts generalizing g ag with
  | nil => exact .refl ag
  | cons st sts ih =>
    have h := Stage.run_sameRole st g ag
    simp only [runStages]
    split
    · exact h.trans (ih _ _)
    · exact ⟨h.name, h.hasSpace, h.goals⟩
    · exact h

theorem pause_sameRole (ag : Agent) : SameRole ag ag.pause ∧ ag.pause.memories = ag.memories := by
  unfold pause
  split <;> exact ⟨⟨rfl, rfl, rfl⟩, rfl⟩

theorem resume_sameRole (ag : Agent) : SameRole ag ag.resume ∧ ag.resume.memories = ag.memories := by
  unfold resume
  split <;> exact ⟨⟨rfl, rfl, rfl⟩, rfl⟩

theorem start_sameRole {ag ag' : Agent} (h : ag.start = some ag') :
    SameRole ag ag' ∧ ag'.memories = ag.memories := by
  unfold start at h
  split at h
  · cases h; exact ⟨.refl ag, rfl⟩
  · split at h
    · cases h
    · cases h; exact ⟨⟨rfl, rfl, rfl⟩, rfl⟩

theorem Registered.control {mem : Memory} {name : String} {ag ag' : Agent} (h : Registered mem name ag)
    (hr : SameRole ag ag' ∧ ag'.memories = ag.memories) : Registered mem name ag' :=
  h.update hr.1 (.refl mem) (hr.2 ▸ h.memories)

theorem create_registered (g : Graph) (name : String) (mem : Memory) :
    Registered mem name (create g name true).2 := by
  unfold create
  exact ⟨rfl, rfl, fun _ h => (nomatch h), fun _ h => (nomatch h)⟩

def KeepsRegistered (name : String) (f : Graph → Agent → Graph × Agent) : Prop :=
  ∀ g ag, g.Coherent → Registered g.mem name ag →
    ReflTransGen SpaceCall g (f g ag).1 ∧ Registered (f g ag).1.mem name (f g ag).2

theorem receiveMessage_keepsRegistered (name fromAgent message : String) :
    KeepsRegistered name fun g ag => ag.receiveMessage g fromAgent message := fun g ag hg h =>
  have hr := receiveMessage_reach spaceCall_writes g ag fromAgent message
  ⟨hr, h.update (receiveMessage_sameRole g ag fromAgent message) (keepsKinds_of_spaceCalls hr)
    (receiveMessage_namesLong g ag fromAgent message hg h.memories).2⟩

theorem runStages_keepsRegistered (name : String) (sts : List Stage) :
    KeepsRegistered name fun g ag => ((runStages sts g ag).graph, (runStages sts g ag).agent) :=
  fun g ag hg h =>
  have hr := runStages_reach spaceCall_writes sts g ag
  ⟨hr, h.update (runStages_sameRole sts g ag) (keepsKinds_of_spaceCalls hr)
    (runStages_namesLong sts hg h.memories).2⟩

theorem reason_ok {g : Graph} {ag : Agent} (h : NamesLong g.mem ag.memories) :
    (Stage.reason.run g ag).fault = none := by
  simp only [Stage.run, Agent.reason]
  split
  · rw [reasonMemories_ok _ _ h]
    rfl
  · rfl

end Agent

theorem mem_lookmap {α : Type} {f : α → Option α} {l : List α} {x : α} (hx : x ∈ l.lookmap f) :
    x ∈ l ∨ ∃ a ∈ l, f a = some x := by
  induction l with
  | nil => exact absurd hx (List.not_mem_nil x)
  | cons a l ih =>
    cases hf : f a with
    | none =>
      rw [List.lookmap_cons_none _ _ hf] at hx
      rcases List.mem_cons.mp hx with rfl | hx
      · exact .inl (List.mem_cons_self _ _)
      · rcases ih hx with h | ⟨b, hb, hfb⟩
        · exact .inl (List.mem_cons_of_mem _ h)
        · exact .inr ⟨b, List.mem_cons_of_mem _ hb, hfb⟩
    | some b =>
      rw [List.lookmap_cons_some _ _ hf] at hx
      rcases List.mem_cons.mp hx with rfl | hx
      · exact .inr ⟨a, List.mem_cons_self _ _, hf⟩
      · exact .inl (List.mem_cons_of_mem _ hx)

namespace CognitiveSystem

def AgentsRegistered (mem : Memory) (agents : AList (fun _ : String => Agent)) : Prop :=
  ∀ e ∈ agents.entries, e.2.Registered mem e.1

section AgentsRegistered

variable {mem mem' : Memory} {agents : AList (fun _ : String => Agent)}

theorem agentsRegistered_empty (mem : Memory) : AgentsRegistered mem ∅ := fun _ h => nomatch h

theorem AgentsRegistered.lookup (h : AgentsRegistered mem agents) {name : String} {ag : Agent}
    (hl : agents.lookup name = some ag) : ag.Registered mem name :=
  h ⟨name, ag⟩ (AList.mem_lookup_iff.mp hl)

theorem AgentsRegistered.keepsKinds (h : AgentsRegistered mem agents) (hm : mem.KeepsKinds mem') :
    AgentsRegistered mem' agents := fun e he => (h e he).keepsKinds hm

theorem AgentsRegistered.replace (h : AgentsRegistered mem agents) {name : String} {ag : Agent}
    (hag : ag.Registered mem name) : AgentsRegistered mem (agents.replace name ag) := fun e he => by
  rcases mem_lookmap he with he | ⟨c, -, hc⟩
  · exact h e he
  · split at hc
    · cases hc
      exact hag
    · cases hc

theorem AgentsRegistered.insert (h : AgentsRegistered mem agents) {name : String} {ag : Agent}
    (hag : ag.Registered mem name) : AgentsRegistered mem (agents.insert name ag) := fun e he => by
  rcases List.mem_cons.mp he with rfl | he
  · exact hag
  · exact h e ((List.kerase_sublist name _).subset he)

theorem AgentsRegistered.erase (h : AgentsRegistered mem agents) (name : String) :
    AgentsRegistered mem (agents.erase name) := fun e he => h e ((List.kerase_sublist name _).subset he)

end AgentsRegistered

def KeepsRegistry (f : Graph → CognitiveSystem → Graph × CognitiveSystem) : Prop :=
  ∀ g s, g.Coherent → AgentsRegistered g.mem s.agents →
    ReflTransGen SpaceCall g (f g s).1 ∧ AgentsRegistered (f g s).1.mem (f g s).2.agents

theorem withAgent_keepsRegistry (name : String) {f : Graph → Agent → Graph × Agent}
    (hf : Agent.KeepsRegistered name f) : KeepsRegistry fun g s => s.withAgent g name f := by
  intro g s hg h
  dsimp only
  unfold withAgent
  split
  · exact ⟨.refl, h⟩
  · rename_i ag hl
    obtain ⟨hr, hag⟩ := hf g ag hg (h.lookup hl)
    exact ⟨hr, (h.keepsKinds (keepsKinds_of_spaceCalls hr)).replace hag⟩

theorem updateAgent_registered {mem : Memory} {s : CognitiveSystem} (h : AgentsRegistered mem s.agents)
    (name : String) {f : Agent → Agent} (hf : ∀ ag, ag.Registered mem name → (f ag).Registered mem name) :
    AgentsRegistered mem (s.updateAgent name f).agents := by
  unfold updateAgent
  split
  · exact h
  · exact h.replace (hf _ (h.lookup ‹_›))

theorem createAgent_keepsRegistry (name : String) : KeepsRegistry fun g s => s.createAgent g name := by
  intro g s hg h
  dsimp only
  refine ⟨spaceCalls_of_codeWrites (createAgent_codeWrites g s name), ?_⟩
  unfold createAgent
  split
  · exact h
  · exact (h.keepsKinds (keepsKinds_of_spaceCalls ((Agent.create_reach spaceCall_writes g name true).tail
      (.createAtom _ _ _ _ _)))).insert ((Agent.create_registered g name _).addGoal _)

theorem broadcastMessage_keepsRegistry (message : String) :
    KeepsRegistry fun g s => s.broadcastMessage g message := by
  intro g s hg h
  dsimp only
  refine ⟨spaceCalls_of_codeWrites (broadcastMessage_codeWrites g s message), ?_⟩
  refine (List.foldlRecOn (motive := fun r : Graph × CognitiveSystem =>
      r.1.Coherent ∧ AgentsRegistered r.1.mem r.2.agents) _ _ (g, s) ⟨hg, h⟩ fun r hr name _ => ?_).2
  obtain ⟨hreach, hreg⟩ := withAgent_keepsRegistry name
    (Agent.receiveMessage_keepsRegistered name "System" message) r.1 r.2 hr.1 hr.2
  exact ⟨coherent_of_spaceCalls hreach hr.1, hreg⟩

theorem resumeFirstInactive_registered {mem : Memory} {agents : AList (fun _ : String => Agent)}
    (h : AgentsRegistered mem agents) : AgentsRegistered mem (resumeFirstInactive agents) := by
  unfold resumeFirstInactive
  split
  · rename_i e he
    exact h.replace ((h e (List.mem_of_find?_eq_some he)).control (Agent.resume_sameRole e.2))
  · exact h

theorem updateSystem_keepsRegistry : KeepsRegistry updateSystem := by
  intro g s hg h
  refine ⟨spaceCalls_of_codeWrites (updateSystem_codeWrites g s), ?_⟩
  unfold updateSystem
  split
  · have hk := h.keepsKinds (keepsKinds_of_spaceCalls (spaceCalls_of_grows (Graph.updateAttentionValues_grows g)))
    refine List.foldlRecOn (motive := fun s' : CognitiveSystem => AgentsRegistered _ s'.agents) _ _ s hk
      fun s' hs' goal _ => ?_
    unfold updateGoal
    split
    · dsimp only
      split
      · exact resumeFirstInactive_registered hs'
      · exact hs'
    · exact hs'
  · exact h

theorem initializeSystem_agents (g : Graph) (s : CognitiveSystem) :
    (s.initializeSystem g).2.agents = s.agents := by
  unfold initializeSystem
  split <;> rfl

theorem initializeSystem_keepsRegistry : KeepsRegistry initializeSystem := fun g s _ h =>
  have hr := spaceCalls_of_codeWrites (initializeSystem_codeWrites g s)
  ⟨hr, initializeSystem_agents g s ▸ h.keepsKinds (keepsKinds_of_spaceCalls hr)⟩

theorem create_spaceCalls (g : Graph) : ReflTransGen SpaceCall g (create g.mem).1 :=
  Graph.newAtomSpace_spaceCalls g

theorem removeAgent_registered {mem : Memory} {s : CognitiveSystem} (h : AgentsRegistered mem s.agents)
    (name : String) : AgentsRegistered mem (s.removeAgent name).1.agents := by
  unfold removeAgent
  split
  · exact h
  · exact h.erase name

end CognitiveSystem

structure ValidState (g : Graph) (system : Option CognitiveSystem) : Prop where
  coherent : g.Coherent
  registry : ∀ s, system = some s → CognitiveSystem.AgentsRegistered g.mem s.agents

open CognitiveSystem (KeepsRegistry)
open Graph (createAtom_spaceCalls addOutgoingLink_spaceCalls)

namespace World

def Valid (w : World) : Prop :=
  ValidState w.graph w.system

theorem init_valid : init.Valid := ⟨Graph.clear_coherent init.graph, fun _ h => nomatch h⟩

section Valid

variable {w : World}

theorem Valid.of_spaceCalls {w' : World} (h : w.Valid) (hs : w'.system = w.system)
    (hr : ReflTransGen SpaceCall w.graph w'.graph) : w'.Valid :=
  ⟨coherent_of_spaceCalls hr h.coherent, fun s hs' =>
    (h.registry s (hs ▸ hs')).keepsKinds (keepsKinds_of_spaceCalls hr)⟩

theorem Valid.countEvent (h : w.Valid) : w.countEvent.Valid := h

theorem Valid.setStats (h : w.Valid) (stats : IntegrationStats) : ({ w with stats := stats } : World).Valid := h

theorem Valid.withSystem (h : w.Valid) {f : Graph → CognitiveSystem → Graph × CognitiveSystem}
    (hf : KeepsRegistry f) : (w.withSystem f).Valid := by
  unfold World.withSystem
  split
  · exact h
  · rename_i s hs
    obtain ⟨hr, hreg⟩ := hf w.graph s h.coherent (h.registry s hs)
    exact ⟨coherent_of_spaceCalls hr h.coherent, fun s' hs' => by cases hs'; exact hreg⟩

theorem Valid.processWslEvent (h : w.Valid) (eventType source data : String) :
    (w.processWslEvent eventType source data).Valid :=
  h.withSystem (CognitiveSystem.broadcastMessage_keepsRegistry _)

theorem Valid.updateCognitiveKnowledge (h : w.Valid) (concept information : String) (c : ℚ) :
    (w.updateCognitiveKnowledge concept information c).Valid := by
  refine h.of_spaceCalls ?_ (spaceCalls_of_codeWrites (updateCognitiveKnowledge_codeWrites w concept information c))
  unfold World.updateCognitiveKnowledge
  split <;> rfl

theorem Valid.onProcessCreate (h : w.Valid) (d : String) (pid : UInt32) (cmd : String) :
    (w.onProcessCreate d pid cmd).Valid := by
  unfold World.onProcessCreate
  split
  · exact h
  · refine (Valid.processWslEvent ?_ _ _ _).countEvent.setStats _
    exact h.of_spaceCalls rfl ((createAtom_spaceCalls _ _ _ _ _).trans <|
      (createAtom_spaceCalls _ _ _ _ _).trans (addOutgoingLink_spaceCalls _ _ _))

theorem Valid.onProcessDestroy (h : w.Valid) (d : String) (pid : UInt32) (exitCode : Int) :
    (w.onProcessDestroy d pid exitCode).Valid := by
  unfold World.onProcessDestroy
  split
  · exact h
  · refine (Valid.processWslEvent ?_ _ _ _).countEvent
    refine h.of_spaceCalls rfl ?_
    dsimp only
    split
    · exact spaceCalls_of_codeWrites (completeProcess_codeWrites _ _ _ _)
    · exact .refl

theorem Valid.onDistroEvent (h : w.Valid) (d eventType data : String) :
    (w.onDistroEvent d eventType data).Valid := by
  unfold World.onDistroEvent
  split
  · exact h
  · exact ((h.updateCognitiveKnowledge _ _ _).processWslEvent _ _ _).countEvent

theorem Valid.onSystemEvent (h : w.Valid) (eventType data : String) :
    (w.onSystemEvent eventType data).Valid := by
  unfold World.onSystemEvent
  split
  · exact h
  · exact ((h.updateCognitiveKnowledge _ _ _).processWslEvent _ _ _).countEvent

theorem Valid.addAgentGoal (h : w.Valid) (agent : String) (goal : String × ℚ × ℚ) :
    (w.addAgentGoal agent goal).Valid :=
  h.withSystem fun g _ _ hs =>
    have hr := createAtom_spaceCalls g .goal goal.1 goal.2.1 goal.2.2
    ⟨hr, CognitiveSystem.updateAgent_registered (hs.keepsKinds (keepsKinds_of_spaceCalls hr)) agent
      fun _ hag => hag.addGoal _⟩

theorem Valid.startAgent (h : w.Valid) (name : String) : (w.startAgent name).Valid := by
  unfold World.startAgent
  split
  · exact h
  · rename_i s hs
    split
    · exact h
    · rename_i ag hl
      split
      · exact h
      · rename_i ag' hag'
        exact ⟨h.coherent, fun s' hs' => by
          cases hs'
          exact (h.registry s hs).replace (((h.registry s hs).lookup hl).control
            (Agent.start_sameRole hag'))⟩

theorem Valid.createCognitiveAgent (h : w.Valid) (name role : String) :
    (w.createCognitiveAgent name role).1.Valid := by
  unfold World.createCognitiveAgent
  split
  · exact h
  · dsimp only
    have h₁ := h.withSystem (CognitiveSystem.createAgent_keepsRegistry name)
    split
    · exact (h₁.addAgentGoal _ _).startAgent _
    · exact h₁.startAgent _

theorem Valid.destroyCognitiveAgent (h : w.Valid) (name : String) :
    (w.destroyCognitiveAgent name).1.Valid := by
  unfold World.destroyCognitiveAgent
  split
  · exact h
  · rename_i s hs
    have hv : ({ w with system := some (s.removeAgent name).1 } : World).Valid :=
      ⟨h.coherent, fun s' hs' => by
        cases hs'
        exact CognitiveSystem.removeAgent_registered (h.registry s hs) name⟩
    dsimp only
    split
    · exact hv.setStats _
    · exact hv

theorem Valid.executeCognitiveCommand (h : w.Valid) (agentName command parameters : String) :
    (w.executeCognitiveCommand agentName command parameters).1.Valid := by
  unfold World.executeCognitiveCommand
  split
  · exact h
  · split
    · exact h
    · exact h.withSystem (CognitiveSystem.withAgent_keepsRegistry _
        (Agent.receiveMessage_keepsRegistered _ _ _))

theorem Valid.setCognitiveConfiguration (h : w.Valid) (key value : String) :
    (w.setCognitiveConfiguration key value).Valid := by
  unfold World.setCognitiveConfiguration
  split
  · exact h
  · rename_i s hs
    exact ⟨h.coherent, fun s' hs' => by cases hs'; exact h.registry s hs⟩

theorem Valid.queryCognitiveState (h : w.Valid) : w.queryCognitiveState.Valid := by
  unfold World.queryCognitiveState
  split
  · exact h
  · exact h.setStats _

theorem Valid.initStep (h : w.Valid) (c : InitCall) : (w.initStep c).Valid := by
  cases c with
  | assignSystem =>
    refine ⟨coherent_of_spaceCalls (CognitiveSystem.create_spaceCalls w.graph) h.coherent, fun s hs => ?_⟩
    obtain rfl := Option.some.inj hs
    exact CognitiveSystem.agentsRegistered_empty _
  | initializeSystem => exact h.withSystem CognitiveSystem.initializeSystem_keepsRegistry
  | createAtom => exact h.of_spaceCalls rfl (Graph.createAtom_spaceCalls _ _ _ _ _)
  | createCognitiveAgent => exact h.createCognitiveAgent _ _

theorem Valid.initCalls (h : w.Valid) (cs : List InitCall) : (cs.foldl World.initStep w).Valid := by
  induction cs generalizing w with
  | nil => exact h
  | cons c cs ih => exact ih (h.initStep c)

theorem Valid.initializeManager (h : w.Valid) : w.initializeManager.1.Valid := by
  cases hi : w.initialized
  · rw [World.initializeManager_eq hi]
    exact Valid.initCalls (w := { w with initialized := true }) h initializeCalls
  · simpa only [World.initializeManager, hi, if_true] using h

theorem Valid.initializeManagerThrows (h : w.Valid) (k : Fin 10) : (w.initializeManagerThrows k).1.Valid := by
  unfold World.initializeManagerThrows
  split
  · exact h
  · exact Valid.initCalls (w := { w with initialized := true }) h (initializeCalls.take k)

theorem Valid.shutdownManager (h : w.Valid) : w.shutdownManager.Valid := by
  unfold World.shutdownManager
  split
  · exact ⟨h.coherent, fun _ hs => nomatch hs⟩
  · exact h

theorem Valid.updateProcessKnowledge (h : w.Valid) (process : ProcessInfo) :
    (w.updateProcessKnowledge process).Valid := by
  refine h.of_spaceCalls ?_ (spaceCalls_of_codeWrites (updateProcessKnowledge_codeWrites w process))
  unfold World.updateProcessKnowledge
  split
  · rfl
  · split <;> rfl

theorem Valid.untrackProcess (h : w.Valid) (d : String) (pid : UInt32) : (w.untrackProcess d pid).Valid := by
  unfold World.untrackProcess
  dsimp only
  split
  · exact h
  · exact h.updateProcessKnowledge _

theorem Valid.analyzeProcessBehavior (h : w.Valid) (d : String) (pid : UInt32) :
    (w.analyzeProcessBehavior d pid).Valid := by
  unfold World.analyzeProcessBehavior
  split
  · exact h
  · exact h.updateProcessKnowledge _

theorem Valid.learnFromProcessPatterns (h : w.Valid) (clock : String → Int) :
    (w.learnFromProcessPatterns clock).Valid := by
  refine h.of_spaceCalls ?_ (spaceCalls_of_codeWrites (learnFromProcessPatterns_codeWrites w clock))
  unfold World.learnFromProcessPatterns
  split <;> rfl

theorem Valid.withRegistered (h : w.Valid) (name : String) {f : Agent → Agent}
    (hf : ∀ ag, Agent.SameRole ag (f ag) ∧ (f ag).memories = ag.memories) : (w.withRegistered name f).Valid := by
  unfold World.withRegistered
  split
  · exact h
  · rename_i s hs
    exact ⟨h.coherent, fun s' hs' => by
      cases hs'
      exact CognitiveSystem.updateAgent_registered (h.registry s hs) name fun ag hag => hag.control (hf ag)⟩

end Valid

end World

namespace AutogeneticAgentFactory

open World (Valid)
open Graph (createAtom_spaceCalls)

section Valid

variable {w : World}

theorem valid_createTypedAgent (h : w.Valid) (name role : String) (goal₁ goal₂ : String × ℚ × ℚ) :
    (createTypedAgent w name role goal₁ goal₂).1.Valid := by
  unfold createTypedAgent
  dsimp only
  split
  · exact (h.createCognitiveAgent name role).withSystem fun g _ _ hs =>
      have hr := (createAtom_spaceCalls g .goal goal₁.1 goal₁.2.1 goal₁.2.2).trans
        (createAtom_spaceCalls _ .goal goal₂.1 goal₂.2.1 goal₂.2.2)
      ⟨hr, CognitiveSystem.updateAgent_registered (hs.keepsKinds (keepsKinds_of_spaceCalls hr)) name
        fun _ hag => (hag.addGoal _).addGoal _⟩
  · exact h.createCognitiveAgent name role

theorem valid_createAgent (h : w.Valid) (type : AgentType) (name : String) :
    (createAgent w type name).1.Valid := by
  unfold createAgent
  split
  · exact h
  · cases type <;>
    · dsimp only
      split
      · exact ((valid_createTypedAgent h _ _ _ _).setCognitiveConfiguration _ _).setCognitiveConfiguration _ _
      · exact valid_createTypedAgent h _ _ _ _

theorem valid_createCustomAgent (h : w.Valid) (name specification : String) :
    (createCustomAgent w name specification).1.Valid := by
  unfold createCustomAgent
  dsimp only
  split
  · exact (h.createCognitiveAgent name "custom").withSystem fun g _ _ hs =>
      have hr := createAtom_spaceCalls g .goal ("CustomGoal:" ++ specification) (4 / 5) (9 / 10)
      ⟨hr, CognitiveSystem.updateAgent_registered (hs.keepsKinds (keepsKinds_of_spaceCalls hr)) name
        fun _ hag => hag.addGoal _⟩
  · exact h.createCognitiveAgent name "custom"

end Valid

end AutogeneticAgentFactory

namespace World

open AutogeneticAgentFactory (valid_createAgent valid_createCustomAgent)

theorem Valid.apply {w : World} (h : w.Valid) (o : Op) : (w.apply o).Valid := by
  unfold World.apply
  split
  · exact h
  · cases o with
    | createAtom => exact h.of_spaceCalls rfl (Graph.createAtom_spaceCalls _ _ _ _ _)
    | removeAtom => exact h.of_spaceCalls rfl (.single (.removeAtom _ _))
    | clear => exact h.of_spaceCalls rfl (.single (.clear _))
    | setTruthValue => exact h.of_spaceCalls rfl (.single (spaceCall_writes.setTruthValue _ _ _ _))
    | setAttention p v => exact h.of_spaceCalls rfl (spaceCalls_of_grows (Graph.setAttention_grows _ p fun _ => v))
    | addOutgoingLink => exact h.of_spaceCalls rfl (Graph.addOutgoingLink_spaceCalls _ _ _)
    | addIncomingLink p q =>
      exact ⟨(Graph.addIncomingLink_step _ p q).coherent h.coherent, fun s hs =>
        (h.registry s hs).keepsKinds (Memory.keepsKinds_modify _ p fun _ => ⟨rfl, rfl⟩)⟩
    | updateAttentionValues => exact h.of_spaceCalls rfl (spaceCalls_of_grows (Graph.updateAttentionValues_grows _))
    | stage name st =>
      exact h.withSystem (CognitiveSystem.withAgent_keepsRegistry name (Agent.runStages_keepsRegistered name [st]))
    | pause => exact h.withRegistered _ Agent.pause_sameRole
    | resume => exact h.withRegistered _ Agent.resume_sameRole
    | createAgent => exact h.withSystem (CognitiveSystem.createAgent_keepsRegistry _)
    | broadcastMessage => exact h.withSystem (CognitiveSystem.broadcastMessage_keepsRegistry _)
    | updateSystem => exact h.withSystem CognitiveSystem.updateSystem_keepsRegistry
    | initializeManager => exact h.initializeManager
    | initializeManagerThrows k => exact h.initializeManagerThrows k
    | shutdownManager => exact h.shutdownManager
    | processCreate => exact h.onProcessCreate _ _ _
    | processDestroy => exact h.onProcessDestroy _ _ _
    | distroEvent => exact h.onDistroEvent _ _ _
    | systemEvent => exact h.onSystemEvent _ _
    | createCognitiveAgent => exact h.createCognitiveAgent _ _
    | destroyCognitiveAgent => exact h.destroyCognitiveAgent _
    | executeCognitiveCommand => exact h.executeCognitiveCommand _ _ _
    | setCognitiveConfiguration => exact h.setCognitiveConfiguration _ _
    | queryCognitiveState => exact h.queryCognitiveState
    | factoryCreateAgent => exact valid_createAgent h _ _
    | createCustomAgent => exact valid_createCustomAgent h _ _
    | trackProcess => exact h.of_spaceCalls rfl (spaceCalls_of_codeWrites (trackProcess_codeWrites _ _ _ _ _))
    | untrackProcess => exact h.untrackProcess _ _
    | analyzeProcessBehavior => exact h.analyzeProcessBehavior _ _
    | learnFromProcessPatterns => exact h.learnFromProcessPatterns _
    | monitoringTurn => exact h.learnFromProcessPatterns _

theorem Valid.run {w : World} (h : w.Valid) (ops : List Op) : (w.run ops).Valid := by
  induction ops generalizing w with
  | nil => exact h
  | cons o ops ih => exact ih (h.apply o)

theorem init_run_registered (ops : List Op) :
    (init.run ops).Valid ∧ ∀ s ∈ (init.run ops).system, ∀ e ∈ s.agents.entries,
      (Stage.reason.run (init.run ops).graph e.2).fault = none :=
  have h := init_valid.run ops
  ⟨h, fun s hs e he => Agent.reason_ok (h.registry s hs e he).memories⟩

end World

end CogWsl
