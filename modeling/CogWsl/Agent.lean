import CogWsl.Coherence
import Mathlib.Data.List.Infix

/-!
`CognitiveAgent`. A stage reads and writes the graph of the agent's atom space; `hasSpace`
says whether `m_atomSpace` is non-null. The thread is only `joinable`, the flag
`m_processingThread.joinable()`; its steps are in `CogWsl.AgentThread`.
-/

namespace CogWsl

inductive AgentState
  | inactive | active | learning | planning | executing | selfModifying | error
  deriving DecidableEq, Repr

structure Agent where
  name : String
  hasSpace : Bool
  state : AgentState
  shouldStop : Bool
  joinable : Bool
  goals : List Nat
  memories : List Nat

/-- `name.find(key) != std::string::npos`. -/
def occursIn (key name : String) : Bool :=
  decide (key.data <:+: name.data)

/-- How a stage ends: normally, by an exception `ProcessingLoop` catches, or by a call through
the null atom space. -/
inductive Fault
  | threw | nullDeref
  deriving DecidableEq, Repr

structure Outcome where
  graph : Graph
  agent : Agent
  fault : Option Fault

namespace Agent

def create (g : Graph) (name : String) (hasSpace : Bool) : Graph × Agent :=
  let ag : Agent := ⟨name, hasSpace, .inactive, false, false, [], []⟩
  if hasSpace then
    let self := g.createAtom .agent ("Agent:" ++ name) 1 1
    (self.1.setAttention self.2 1, ag)
  else (g, ag)

def perceiveAtom (r : Graph × Agent) (p : Nat) : Graph × Agent :=
  match r.1.mem.objects p with
  | none => r
  | some atom =>
    let memory := r.1.createAtom .memory ("Perceived:" ++ atom.name) atom.truthValue atom.confidence
    (memory.1, { r.2 with memories := r.2.memories ++ [memory.2] })

def highAttention (a : Atom) : Bool := decide (7 / 10 < a.attention)

def perceive (g : Graph) (ag : Agent) : Graph × Agent :=
  if ag.hasSpace then
    (g.query highAttention).foldl perceiveAtom (g, { ag with state := .active })
  else (g, ag)

def reasonRelated (memory : Nat) (g : Graph) (related : Nat) : Graph :=
  match g.mem.objects related, g.mem.objects memory with
  | some r, some m =>
    g.setTruthValue related ((r.truthValue + m.truthValue) / 2) (r.confidence * (11 / 10))
  | _, _ => g

/-- `Reason` for one memory; `none` when `substr(9)` throws on a name shorter than 9. -/
def reasonMemory (g : Graph) (memory : Nat) : Option Graph :=
  match g.mem.objects memory with
  | none => some g
  | some m =>
    if m.name.length < 9 then none
    else
      let related := g.query fun a => a.type == .concept && occursIn (m.name.drop 9) a.name
      some (related.foldl (reasonRelated memory) g)

def reasonMemories : List Nat → Graph → Graph × Bool
  | [], g => (g, false)
  | m :: ms, g =>
    match reasonMemory g m with
    | none => (g, true)
    | some g' => reasonMemories ms g'

def reason (g : Graph) (ag : Agent) : Graph × Bool :=
  if ag.hasSpace then reasonMemories ag.memories g else (g, false)

/-- `Plan` for one goal; `none` when it calls `CreateAtom` through the null atom space. -/
def planGoal (hasSpace : Bool) (g : Graph) (goal : Nat) : Option Graph :=
  match g.mem.objects goal with
  | none => some g
  | some a =>
    if a.truthValue < 4 / 5 then
      if hasSpace then
        let plan := g.createAtom .process ("Plan:" ++ a.name) (1 / 2) (4 / 5)
        some (plan.1.addOutgoingLink goal (some plan.2))
      else none
    else some g

def plan (g : Graph) (ag : Agent) : Option Graph :=
  ag.goals.foldlM (planGoal ag.hasSpace) g

def actIncoming (g : Graph) (incoming : Nat) : Graph :=
  match g.mem.objects incoming with
  | some a => if a.type == .goal then g.setTruthValue incoming (a.truthValue + 1 / 20) a.confidence else g
  | none => g

def actPlan (g : Graph) (p : Nat) : Graph :=
  match g.mem.objects p with
  | none => g
  | some plan =>
    if plan.name.take 5 == "Plan:" && decide (2 / 5 < plan.truthValue) then
      plan.incomingLinks.foldl actIncoming (g.setTruthValue p (plan.truthValue + 1 / 10) plan.confidence)
    else g

/-- `Act`; `none` because `FindAtomsByType` is called through the null atom space. -/
def act (g : Graph) (ag : Agent) : Option Graph :=
  if ag.hasSpace then some ((g.findAtomsByType .process).foldl actPlan g) else none

def learnConcept (g : Graph) (p : Nat) : Graph :=
  match g.mem.objects p with
  | none => g
  | some c =>
    if 1 / 2 < c.attention then g.setTruthValue p c.truthValue (min 1 (c.confidence + 1 / 100))
    else g

/-- The clean-up at the end of `Learn`: the oldest 100 go once there are more than 1000. -/
def trimMemories (memories : List Nat) : List Nat :=
  if 1000 < memories.length then memories.drop 100 else memories

def learn (g : Graph) (ag : Agent) : Graph × Agent :=
  if ag.hasSpace then
    ((g.findAtomsByType .concept).foldl learnConcept g,
      { ag with state := .learning, memories := trimMemories ag.memories })
  else (g, ag)

def successfulPlan (a : Atom) : Bool :=
  a.type == .process && a.name.take 5 == "Plan:" && decide (4 / 5 < a.truthValue)

def selfModifyPlan (g : Graph) (p : Nat) : Graph :=
  match g.mem.objects p with
  | none => g
  | some plan =>
    let rule := g.createAtom .rule ("Rule:" ++ plan.name) plan.truthValue plan.confidence
    rule.1.addOutgoingLink p (some rule.2)

def selfModify (g : Graph) (ag : Agent) : Graph × Agent :=
  if ag.hasSpace then
    ((g.query successfulPlan).foldl selfModifyPlan g, { ag with state := .selfModifying })
  else (g, ag)

def receiveMessage (g : Graph) (ag : Agent) (fromAgent message : String) : Graph × Agent :=
  if ag.hasSpace then
    let memory := g.createAtom .memory ("Message:" ++ fromAgent ++ ":" ++ message) 1 (9 / 10)
    (memory.1, { ag with memories := ag.memories ++ [memory.2] })
  else (g, ag)

def addGoal (mem : Memory) (ag : Agent) : Option Nat → Agent
  | some p => if (mem.objects p).any (·.type == .goal) then { ag with goals := ag.goals ++ [p] } else ag
  | none => ag

def removeGoal (ag : Agent) (goalId : Nat) : Agent :=
  { ag with goals := ag.goals.filter (· ≠ goalId) }

/-- `Start`; `none` is the `std::terminate` of assigning to a joinable `std::thread`. -/
def start (ag : Agent) : Option Agent :=
  if ag.state ≠ .inactive then some ag
  else if ag.joinable then none
  else some { ag with shouldStop := false, state := .active, joinable := true }

/-- The locked block of `Stop`. -/
def stopSignal (ag : Agent) : Agent :=
  { ag with shouldStop := true, state := .inactive }

/-- `Stop` once its `join` has returned. -/
def stop (ag : Agent) : Agent :=
  { ag.stopSignal with joinable := false }

def pause (ag : Agent) : Agent :=
  if ag.state = .active then { ag with state := .inactive } else ag

def resume (ag : Agent) : Agent :=
  if ag.state = .inactive ∧ ag.shouldStop = false then { ag with state := .active } else ag

end Agent

open Relation
open Graph (SpaceStep reach_foldl)

structure Graph.Writes (R : Graph → Graph → Prop) : Prop where
  createAtom (g : Graph) (type : AtomType) (name : String) (v c : ℚ) :
    R g (g.createAtom type name v c).1
  setTruthValue (g : Graph) (p : Nat) (t c : ℚ) : R g (g.setTruthValue p t c)
  setFullAttention (g : Graph) (p : Nat) : R g (g.setAttention p 1)
  addOutgoingLink (g : Graph) (p : Nat) (q : Option Nat) : R g (g.addOutgoingLink p q)

theorem Graph.spaceStep_writes : Graph.Writes SpaceStep :=
  ⟨SpaceStep.createAtom, Graph.setTruthValue_step, fun g p => Graph.setAttention_step g p 1,
    Graph.addOutgoingLink_step⟩

section Reach

variable {R : Graph → Graph → Prop} (hR : Graph.Writes R) (g : Graph) (ag : Agent)
include hR

theorem Graph.createAtom_reach (type : AtomType) (name : String) (v c : ℚ) :
    ReflTransGen R g (g.createAtom type name v c).1 :=
  .single (hR.createAtom g type name v c)

namespace Agent

theorem create_reach (name : String) (hasSpace : Bool) :
    ReflTransGen R g (create g name hasSpace).1 := by
  unfold create
  dsimp only
  split
  · exact (Graph.createAtom_reach hR g _ _ _ _).tail (hR.setFullAttention _ _)
  · exact .refl

theorem perceiveAtom_reach (r : Graph × Agent) (p : Nat) :
    ReflTransGen R r.1 (perceiveAtom r p).1 := by
  unfold perceiveAtom
  split
  · exact .refl
  · exact Graph.createAtom_reach hR r.1 _ _ _ _

theorem perceive_reach : ReflTransGen R g (ag.perceive g).1 := by
  unfold perceive
  split
  · exact reach_foldl Prod.fst (perceiveAtom_reach hR) _ (g, _)
  · exact .refl

theorem reasonMemory_reach {m : Nat} {g' : Graph} (h : reasonMemory g m = some g') :
    ReflTransGen R g g' := by
  unfold reasonMemory at h
  split at h
  · cases h; exact .refl
  · split at h
    · cases h
    · cases h
      refine reach_foldl id (fun g p => ?_) _ _
      unfold reasonRelated
      split
      · exact .single (hR.setTruthValue _ _ _ _)
      · exact .refl

theorem reasonMemories_reach (ms : List Nat) : ReflTransGen R g (reasonMemories ms g).1 := by
  induction ms generalizing g with
  | nil => exact .refl
  | cons m ms ih =>
    unfold reasonMemories
    split
    · exact .refl
    · exact (reasonMemory_reach hR g ‹_›).trans (ih _)

theorem reason_reach : ReflTransGen R g (ag.reason g).1 := by
  unfold reason
  split
  · exact reasonMemories_reach hR g _
  · exact .refl

theorem planGoal_reach {hasSpace : Bool} {goal : Nat} {g' : Graph}
    (h : planGoal hasSpace g goal = some g') : ReflTransGen R g g' := by
  unfold planGoal at h
  dsimp only at h
  split at h
  · cases h; exact .refl
  · split at h
    · split at h
      · cases h
        exact (Graph.createAtom_reach hR g _ _ _ _).tail (hR.addOutgoingLink _ _ _)
      · cases h
    · cases h; exact .refl

theorem planGoals_reach {hasSpace : Bool} (goals : List Nat) {g' : Graph}
    (h : goals.foldlM (planGoal hasSpace) g = some g') : ReflTransGen R g g' := by
  induction goals generalizing g with
  | nil => cases h; exact .refl
  | cons goal goals ih =>
    rw [List.foldlM_cons] at h
    obtain ⟨g₁, h₁, h₂⟩ := Option.bind_eq_some.mp h
    exact (planGoal_reach hR g h₁).trans (ih g₁ h₂)

theorem plan_reach {g' : Graph} (h : ag.plan g = some g') : ReflTransGen R g g' :=
  planGoals_reach hR g ag.goals h

theorem actPlan_reach (p : Nat) : ReflTransGen R g (actPlan g p) := by
  unfold actPlan
  split
  · exact .refl
  · split
    · refine ReflTransGen.head (hR.setTruthValue _ _ _ _) (reach_foldl id (fun g q => ?_) _ _)
      unfold actIncoming
      split
      · split
        · exact .single (hR.setTruthValue _ _ _ _)
        · exact .refl
      · exact .refl
    · exact .refl

theorem act_reach {g' : Graph} (h : ag.act g = some g') : ReflTransGen R g g' := by
  unfold act at h
  split at h
  · cases h; exact reach_foldl id (fun g p => actPlan_reach hR g p) _ _
  · cases h

theorem learn_reach : ReflTransGen R g (ag.learn g).1 := by
  unfold learn
  split
  · refine reach_foldl id (fun g p => ?_) _ _
    unfold learnConcept
    split
    · exact .refl
    · split
      · exact .single (hR.setTruthValue _ _ _ _)
      · exact .refl
  · exact .refl

theorem selfModify_reach : ReflTransGen R g (ag.selfModify g).1 := by
  unfold selfModify
  split
  · refine reach_foldl id (fun g p => ?_) _ _
    unfold selfModifyPlan
    split
    · exact .refl
    · dsimp only
      exact (Graph.createAtom_reach hR g _ _ _ _).tail (hR.addOutgoingLink _ _ _)
  · exact .refl

theorem receiveMessage_reach (fromAgent message : String) :
    ReflTransGen R g (ag.receiveMessage g fromAgent message).1 := by
  unfold receiveMessage
  split
  · exact Graph.createAtom_reach hR g _ _ _ _
  · exact .refl

end Agent

end Reach

inductive Stage
  | perceive | reason | plan | act | learn | selfModify
  deriving DecidableEq, Repr

def Stage.run : Stage → Graph → Agent → Outcome
  | .perceive, g, ag => ⟨(ag.perceive g).1, (ag.perceive g).2, none⟩
  | .reason, g, ag => ⟨(ag.reason g).1, ag, if (ag.reason g).2 then some .threw else none⟩
  | .plan, g, ag => match ag.plan g with
    | some g' => ⟨g', ag, none⟩
    | none => ⟨g, ag, some .nullDeref⟩
  | .act, g, ag => match ag.act g with
    | some g' => ⟨g', ag, none⟩
    | none => ⟨g, ag, some .nullDeref⟩
  | .learn, g, ag => ⟨(ag.learn g).1, (ag.learn g).2, none⟩
  | .selfModify, g, ag => ⟨(ag.selfModify g).1, (ag.selfModify g).2, none⟩

/-- Run the stages in order until one faults; then the `catch` of `ProcessingLoop`. -/
def runStages : List Stage → Graph → Agent → Outcome
  | [], g, ag => ⟨g, ag, none⟩
  | st :: sts, g, ag =>
    let o := st.run g ag
    match o.fault with
    | none => runStages sts o.graph o.agent
    | some .threw => ⟨o.graph, { o.agent with state := .error }, some .threw⟩
    | some .nullDeref => o

/-- The stages of one turn of `ProcessingLoop`: `SelfModify` runs when the draw falls
under `0.01`. -/
def cycleStages (selfModifies : Bool) : List Stage :=
  [.perceive, .reason, .plan, .act, .learn] ++ if selfModifies then [.selfModify] else []

def cycle (g : Graph) (ag : Agent) (selfModifies : Bool) : Outcome :=
  runStages (cycleStages selfModifies) g ag

open Relation in
theorem Stage.run_reach {R : Graph → Graph → Prop} (hR : Graph.Writes R) (st : Stage) (g : Graph)
    (ag : Agent) :
    ReflTransGen R g (st.run g ag).graph := by
  cases st with
  | perceive => exact Agent.perceive_reach hR g ag
  | reason => exact Agent.reason_reach hR g ag
  | plan =>
    simp only [Stage.run]
    split
    · exact Agent.plan_reach hR g ag ‹_›
    · exact .refl
  | act =>
    simp only [Stage.run]
    split
    · exact Agent.act_reach hR g ag ‹_›
    · exact .refl
  | learn => exact Agent.learn_reach hR g ag
  | selfModify => exact Agent.selfModify_reach hR g ag

open Relation in
theorem runStages_reach {R : Graph → Graph → Prop} (hR : Graph.Writes R) (sts : List Stage)
    (g : Graph) (ag : Agent) :
    ReflTransGen R g (runStages sts g ag).graph := by
  induction sts generalizing g ag with
  | nil => exact .refl
  | cons st sts ih =>
    have h := st.run_reach hR g ag
    simp only [runStages]
    split
    · exact h.trans (ih _ _)
    · exact h
    · exact h

theorem runStages_cons_of_run {st : Stage} {sts : List Stage} {g g' : Graph} {ag ag' : Agent}
    (h : st.run g ag = ⟨g', ag', none⟩) : runStages (st :: sts) g ag = runStages sts g' ag' := by
  simp only [runStages, h]

end CogWsl
