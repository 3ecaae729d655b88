import CogWsl.System
import Mathlib.Data.String.Basic

/-!
What the stages of a cycle do to goals, to concepts and through a null atom space. `Plan` links
a goal to its plan with `AddOutgoingLink` only, and nothing calls `AddIncomingLink`, so `Act`
never finds a goal among a plan's incoming links. `Reason` matches from the 9th character of a
memory's name, one short of the 10-character prefix `"Perceived:"`. `Plan` and `Act` call
through the atom space without checking it.
-/

namespace CogWsl

namespace Memory

def NoIncoming (mem : Memory) : Prop :=
  ∀ q a, mem.objects q = some a → a.incomingLinks = []

theorem NoIncoming.alloc {mem : Memory} (h : mem.NoIncoming) {a : Atom} (ha : a.incomingLinks = []) :
    (mem.alloc a).NoIncoming := fun q b hq => by
  rw [alloc_objects] at hq
  split at hq
  · cases hq
    exact ha
  · exact h q b hq

theorem NoIncoming.modify {mem : Memory} (h : mem.NoIncoming) (p : Nat) {f : Atom → Atom}
    (hf : ∀ a, (f a).incomingLinks = a.incomingLinks) : (mem.modify p f).NoIncoming := fun q b hq => by
  rw [modify_objects] at hq
  split at hq
  · obtain ⟨a, ha, rfl⟩ := Option.map_eq_some'.mp hq
    rw [hf]
    exact h q a ha
  · exact h q b hq

end Memory

namespace Graph

theorem noIncoming_createAtom {g : Graph} (h : g.mem.NoIncoming) (type : AtomType) (name : String)
    (v c : ℚ) : (g.createAtom type name v c).1.mem.NoIncoming := by
  cases hn : g.space.atomsByName.lookup name with
  | some p => rw [createAtom_of_lookup hn]; exact h
  | none => rw [createAtom_of_lookup_none hn]; exact h.alloc rfl

def IncomingStep (g g' : Graph) : Prop :=
  g.mem.NoIncoming → g'.mem.NoIncoming

theorem incomingStep_writes : Writes IncomingStep where
  createAtom _ type name v c h := noIncoming_createAtom h type name v c
  setTruthValue _ p _ _ h := h.modify p fun _ => rfl
  setFullAttention _ p h := h.modify p fun _ => rfl
  addOutgoingLink _ p _ h := h.modify p fun _ => rfl

theorem IncomingStep.of_reach {g g' : Graph} (h : Relation.ReflTransGen IncomingStep g g') :
    IncomingStep g g' := by
  induction h with
  | refl => exact id
  | tail _ h₂ ih => exact h₂ ∘ ih

def TruthAt (g : Graph) (q : Nat) (type : AtomType) (v : ℚ) : Prop :=
  ∃ a, g.mem.objects q = some a ∧ a.type = type ∧ a.truthValue = v

section TruthAt

variable {g : Graph} {q : Nat} {t : AtomType} {v : ℚ}

theorem TruthAt.createAtom (h : g.TruthAt q t v) (type : AtomType) (name : String) (v' c : ℚ) :
    (g.createAtom type name v' c).1.TruthAt q t v := by
  obtain ⟨a, ha, rfl, rfl⟩ := h
  cases hn : g.space.atomsByName.lookup name with
  | some p => rw [createAtom_of_lookup hn]; exact ⟨a, ha, rfl, rfl⟩
  | none =>
    rw [createAtom_of_lookup_none hn]
    exact ⟨a, (Memory.alloc_objects_of_lt _ _ (Memory.objects_lt ha)).trans ha, rfl, rfl⟩

theorem TruthAt.update_ne (h : g.TruthAt q t v) {p : Nat} (hne : p ≠ q) (f : Atom → Atom) :
    (g.update p f).TruthAt q t v := by
  obtain ⟨a, ha, hat, hav⟩ := h
  refine ⟨a, ?_, hat, hav⟩
  show (g.mem.modify p f).objects q = some a
  rw [Memory.modify_objects, if_neg (Ne.symm hne), ha]

theorem TruthAt.update (h : g.TruthAt q t v) (p : Nat) {f : Atom → Atom}
    (hf : ∀ a, (f a).type = a.type ∧ (f a).truthValue = a.truthValue) : (g.update p f).TruthAt q t v := by
  by_cases hpq : p = q
  · obtain ⟨a, ha, rfl, rfl⟩ := h
    refine ⟨f a, ?_, (hf a).1, (hf a).2⟩
    show (g.mem.modify p f).objects q = some (f a)
    rw [Memory.modify_objects, if_pos hpq.symm, ha, Option.map_some']
  · exact h.update_ne hpq f

theorem TruthAt.not_mem_findAtomsByType (h : g.TruthAt q t v) {type : AtomType} (hne : t ≠ type) :
    q ∉ g.findAtomsByType type := fun hq => by
  obtain ⟨a, ha, rfl, -⟩ := h
  have hp := (List.mem_filter.mp hq).2
  simp only [ha, Option.any_some, beq_iff_eq] at hp
  exact hne hp

end TruthAt

end Graph

namespace Agent

open Graph

section PlanAct

variable {g : Graph} {q : Nat} {t : AtomType} {v : ℚ}

theorem planGoal_keeps (goal : Nat) (hin : g.mem.NoIncoming) (h : g.TruthAt q t v) :
    ∃ g', planGoal true g goal = some g' ∧ g'.mem.NoIncoming ∧ g'.TruthAt q t v := by
  unfold planGoal
  split
  · exact ⟨g, rfl, hin, h⟩
  · split
    · exact ⟨_, rfl, (noIncoming_createAtom hin _ _ _ _).modify _ fun _ => rfl,
        (h.createAtom _ _ _ _).update _ fun _ => ⟨rfl, rfl⟩⟩
    · exact ⟨g, rfl, hin, h⟩

theorem plan_keeps (goals : List Nat) (hin : g.mem.NoIncoming) (h : g.TruthAt q t v) :
    ∃ g', goals.foldlM (planGoal true) g = some g' ∧ g'.mem.NoIncoming ∧ g'.TruthAt q t v := by
  induction goals generalizing g with
  | nil => exact ⟨g, rfl, hin, h⟩
  | cons goal goals ih =>
    obtain ⟨g₁, h₁, hin₁, hq₁⟩ := planGoal_keeps goal hin h
    obtain ⟨g₂, h₂, hin₂, hq₂⟩ := ih hin₁ hq₁
    exact ⟨g₂, by rw [List.foldlM_cons, h₁]; exact h₂, hin₂, hq₂⟩

theorem actPlan_keeps (hin : g.mem.NoIncoming) (h : g.TruthAt q t v) {r : Nat} (hne : r ≠ q) :
    (actPlan g r).mem.NoIncoming ∧ (actPlan g r).TruthAt q t v := by
  unfold actPlan
  split
  · exact ⟨hin, h⟩
  · rename_i plan hplan
    split
    · rw [hin r plan hplan, List.foldl_nil]
      exact ⟨hin.modify r fun _ => rfl, h.update_ne hne _⟩
    · exact ⟨hin, h⟩

theorem actPlans_keeps (ps : List Nat) (hps : ∀ r ∈ ps, r ≠ q) (hin : g.mem.NoIncoming)
    (h : g.TruthAt q t v) : (ps.foldl actPlan g).mem.NoIncoming ∧ (ps.foldl actPlan g).TruthAt q t v := by
  induction ps generalizing g with
  | nil => exact ⟨hin, h⟩
  | cons r ps ih =>
    have h₁ := actPlan_keeps hin h (hps r (List.mem_cons_self r ps))
    exact ih (fun r hr => hps r (List.mem_cons_of_mem _ hr)) h₁.1 h₁.2

theorem plan_act_keeps_goal {ag : Agent} (hs : ag.hasSpace = true) (hin : g.mem.NoIncoming)
    (h : g.TruthAt q .goal v) :
    (runStages [.plan, .act] g ag).fault = none ∧ (runStages [.plan, .act] g ag).graph.TruthAt q .goal v := by
  obtain ⟨g₁, h₁, hin₁, hq₁⟩ := plan_keeps ag.goals hin h
  have hplan : ag.plan g = some g₁ := by rw [plan, hs]; exact h₁
  have hact := actPlans_keeps (g₁.findAtomsByType .process)
    (fun r hr hrq => hq₁.not_mem_findAtomsByType (by decide) (hrq ▸ hr)) hin₁ hq₁
  simp only [runStages, Stage.run, hplan, act, hs, if_true]
  exact ⟨trivial, hact.2⟩

def agentGoalState : Graph × CognitiveSystem :=
  let r := CognitiveSystem.create Memory.init
  r.2.createAgent r.1 "A"

theorem plan_act_leaves_agentGoal :
    (agentGoalState.2.agents.lookup "A").map (·.goals) = some [5] ∧
      (agentGoalState.1.mem.objects 5).map (fun a => (a.type, a.name, a.truthValue)) =
        some (.goal, "AgentGoal:A", 1 / 2) ∧
      agentGoalState.1.space.findAtom "Plan:AgentGoal:A" = none ∧
      (agentGoalState.2.agents.lookup "A").map (fun ag =>
        ((runStages [.plan, .act] agentGoalState.1 ag).graph.mem.objects 5).map Atom.truthValue) =
        some (some (1 / 2)) := by
  have he : (Graph.mk Memory.init AtomSpace.empty).mem.NoIncoming := fun _ _ h => Option.noConfusion h
  have h₀ : (newAtomSpace Memory.init).mem.NoIncoming :=
    noIncoming_createAtom (noIncoming_createAtom (noIncoming_createAtom he _ _ _ _) _ _ _ _) _ _ _ _
  have hin : agentGoalState.1.mem.NoIncoming :=
    noIncoming_createAtom (IncomingStep.of_reach (Agent.create_reach incomingStep_writes _ "A" true) h₀) _ _ _ _
  have hq : agentGoalState.1.TruthAt 5 .goal (1 / 2) := ⟨_, rfl, rfl, rfl⟩
  have hA : (agentGoalState.2.agents.lookup "A").map Agent.hasSpace = some true := by decide
  obtain ⟨ag, hag, hs⟩ := Option.map_eq_some'.mp hA
  obtain ⟨-, a, ha, -, hv⟩ := plan_act_keeps_goal hs hin hq
  refine ⟨by decide, by with_unfolding_all decide, by decide, ?_⟩
  rw [hag, Option.map_some', ha, Option.map_some', hv]

end PlanAct

section Reason

theorem perceived_drop_data (n : String) : (("Perceived:" ++ n).drop 9).data = ':' :: n.data := by
  rw [String.data_drop, String.data_append, List.drop_append_of_le_length (by decide)]
  rfl

theorem not_occursIn_perceived (n : String) : occursIn (("Perceived:" ++ n).drop 9) n = false := by
  rw [occursIn, decide_eq_false_iff_not, perceived_drop_data]
  intro h
  simpa using h.length_le

theorem reasonRelated_objects_ne {memory r p : Nat} (g : Graph) (hne : r ≠ p) :
    (reasonRelated memory g r).mem.objects p = g.mem.objects p := by
  unfold reasonRelated
  split
  · exact if_neg (Ne.symm hne)
  · rfl

theorem reasonRelated_foldl_objects {memory p : Nat} (related : List Nat) (g : Graph)
    (h : ∀ r ∈ related, r ≠ p) : (related.foldl (reasonRelated memory) g).mem.objects p = g.mem.objects p := by
  induction related generalizing g with
  | nil => rfl
  | cons r related ih =>
    rw [List.foldl_cons, ih _ fun r' hr' => h r' (List.mem_cons_of_mem _ hr'),
      reasonRelated_objects_ne g (h r (List.mem_cons_self r related))]

theorem reasonMemories_keeps {ms : List Nat} {g : Graph} {p : Nat} {c : Atom} (hc : g.mem.objects p = some c)
    (hkey : ∀ m ∈ ms, ∃ n, g.mem.nameOf m = some n ∧ occursIn (n.drop 9) c.name = false) :
    (reasonMemories ms g).1.mem.objects p = some c := by
  induction ms generalizing g with
  | nil => exact hc
  | cons m ms ih =>
    unfold reasonMemories
    cases hr : reasonMemory g m with
    | none => exact hc
    | some g' =>
      have hn := keepsNames_of_reach (reasonMemory_reach spaceStep_writes g hr)
      refine ih ?_ fun m' hm' => ?_
      · obtain ⟨n, hmn, hk⟩ := hkey m (.head _)
        unfold reasonMemory at hr
        split at hr
        · cases hr; exact hc
        · rename_i a ha
          split at hr
          · cases hr
          · cases hr
            rw [reasonRelated_foldl_objects _ _ fun r hr hrp => ?_, hc]
            subst hrp
            have hmatch := (List.mem_filter.mp hr).2
            obtain rfl : a.name = n := by simpa [Memory.nameOf, ha] using hmn
            simp [hc, hk] at hmatch
      · obtain ⟨n, hmn, hk⟩ := hkey m' (.tail _ hm')
        exact ⟨n, hn _ _ hmn, hk⟩

theorem perceive_objects {g : Graph} {ag : Agent} {p : Nat} {a : Atom} (h : g.mem.objects p = some a) :
    (ag.perceive g).1.mem.objects p = some a := by
  unfold perceive
  split
  · refine List.foldlRecOn (motive := fun r : Graph × Agent => r.1.mem.objects p = some a) _ _ _ h
      fun r hr q _ => ?_
    unfold perceiveAtom
    split
    · exact hr
    · exact createAtom_objects hr _ _ _ _
  · exact h

def perceivedFooState : Graph × Agent :=
  Agent.create (((newAtomSpace Memory.init).createAtom .concept "Foo" (1 / 2) (1 / 2)).1.setAttention 4 1)
    "A" true

theorem reason_misses_perceived_concept :
    (runStages [.perceive, .reason] perceivedFooState.1 perceivedFooState.2).fault = none ∧
      (runStages [.perceive, .reason] perceivedFooState.1 perceivedFooState.2).agent.memories.map
        (runStages [.perceive, .reason] perceivedFooState.1 perceivedFooState.2).graph.mem.nameOf =
        [some "Perceived:Agent:A", some "Perceived:Foo"] ∧
      ((runStages [.perceive, .reason] perceivedFooState.1 perceivedFooState.2).graph.mem.objects 4).map
        (fun a => (a.type, a.name, a.truthValue, a.confidence)) = some (.concept, "Foo", 1 / 2, 1 / 2) := by
  let P := perceivedFooState.2.perceive perceivedFooState.1
  have hgraph : (runStages [.perceive, .reason] perceivedFooState.1 perceivedFooState.2).graph =
      (reasonMemories P.2.memories P.1).1 := by
    have hs : (perceivedFooState.2.perceive perceivedFooState.1).2.hasSpace = true := by
      with_unfolding_all decide
    rw [runStages_cons_of_run rfl]
    simp only [runStages, Stage.run]
    split <;> simp [reason, hs]
  obtain ⟨c, hc, hcfoo⟩ : ∃ c, perceivedFooState.1.mem.objects 4 = some c ∧
      (c.type, c.name, c.truthValue, c.confidence) = (.concept, "Foo", 1 / 2, 1 / 2) := ⟨_, rfl, rfl⟩
  have hnames : P.2.memories.map P.1.mem.nameOf = [some "Perceived:Agent:A", some ("Perceived:" ++ "Foo")] := by
    with_unfolding_all decide
  have hkey : ∀ m ∈ P.2.memories, ∃ n, P.1.mem.nameOf m = some n ∧ occursIn (n.drop 9) c.name = false := by
    intro m hm
    have hn' : P.1.mem.nameOf m ∈ P.2.memories.map P.1.mem.nameOf := List.mem_map_of_mem _ hm
    rw [hnames] at hn'
    rw [show c.name = "Foo" from congrArg (fun x => x.2.1) hcfoo]
    simp only [List.mem_cons, List.mem_singleton, List.not_mem_nil, or_false] at hn'
    rcases hn' with h | h <;> refine ⟨_, h, ?_⟩
    · with_unfolding_all decide
    · exact not_occursIn_perceived "Foo"
  refine ⟨by with_unfolding_all decide, by with_unfolding_all decide, ?_⟩
  rw [hgraph, reasonMemories_keeps (perceive_objects hc) hkey, Option.map_some', hcfoo]

end Reason

theorem cycle_without_space_faults (g : Graph) {ag : Agent} (hs : ag.hasSpace = false)
    (selfModifies : Bool) : (cycle g ag selfModifies).fault = some .nullDeref := by
  have hp : Stage.perceive.run g ag = ⟨g, ag, none⟩ := by simp [Stage.run, perceive, hs]
  have hr : Stage.reason.run g ag = ⟨g, ag, none⟩ := by simp [Stage.run, reason, hs]
  rw [cycle, cycleStages, List.cons_append, List.cons_append, runStages_cons_of_run hp,
    runStages_cons_of_run hr]
  simp only [runStages, Stage.run]
  cases ag.plan g <;> simp [act, hs]

theorem null_space_cycle_faults :
    (create (newAtomSpace Memory.init) "A" false).2.goals = [] ∧
      (cycle (newAtomSpace Memory.init) (create (newAtomSpace Memory.init) "A" false).2 false).fault =
        some .nullDeref :=
  ⟨rfl, cycle_without_space_faults _ rfl false⟩

end Agent

end CogWsl
