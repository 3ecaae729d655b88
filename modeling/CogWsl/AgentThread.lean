import CogWsl.Agent

/-!
The calls `Start`, `Stop`, `Pause` and `Resume` of a `CognitiveAgent`, interleaved with the
steps of its processing thread. The graph is left out: a stage is one step that writes
`m_state` as the stage does (`Stage.stateWrite`, checked against `Stage.run`) and then ends
normally, throws, or calls through a null atom space. `Stop` is three steps, its locked block,
its test of the handle and its `join`, and any number of `Stop`s can be in flight at once.
-/

namespace CogWsl

/-- The write to `m_state` a stage makes before anything in it can fail. -/
def Stage.stateWrite : Stage → Agent → AgentState
  | .perceive, ag => if ag.hasSpace then .active else ag.state
  | .learn, ag => if ag.hasSpace then .learning else ag.state
  | .selfModify, ag => if ag.hasSpace then .selfModifying else ag.state
  | _, ag => ag.state

theorem Stage.run_state (st : Stage) (g : Graph) (ag : Agent) :
    (st.run g ag).agent.state = st.stateWrite ag := by
  cases st <;> simp only [Stage.run, stateWrite, Agent.perceive, Agent.learn, Agent.selfModify]
  · split
    · exact List.foldlRecOn (motive := fun r : Graph × Agent => r.2.state = .active) _ _
        (g, { ag with state := .active }) rfl
        fun r hr p _ => by unfold Agent.perceiveAtom; split <;> exact hr
    · rfl
  all_goals first | rfl | (split <;> rfl)

namespace AgentThread

inductive Pc
  | loopTest
  | stage (st : Stage)
  | draw
  | wait
  | blocked
  | catchHandler
  deriving DecidableEq, Repr

/-- The `Stop`s in flight are counted by where they are: `testing` have left their locked block and
not yet tested `joinable()`, `joining` wait in `join`. -/
structure Lifecycle where
  agent : Agent
  thread : Option Pc
  testing : Nat
  joining : Nat
  terminated : Bool

def Lifecycle.stopping (s : Lifecycle) : Bool := s.testing + s.joining != 0

inductive Event
  | start | stopSignal | stopTest | stopJoin | pause | resume
  | advance
  | raise
  | crash
  | draw (selfModifies : Bool)
  deriving DecidableEq, Repr

def init (name : String) (hasSpace : Bool) : Lifecycle :=
  ⟨⟨name, hasSpace, .inactive, false, false, [], []⟩, none, 0, 0, false⟩

def next : Stage → Pc
  | .perceive => .stage .reason
  | .reason => .stage .plan
  | .plan => .stage .act
  | .act => .stage .learn
  | .learn => .draw
  | .selfModify => .wait

def Lifecycle.setState (s : Lifecycle) (state : AgentState) : Lifecycle :=
  { s with agent := { s.agent with state := state } }

def Lifecycle.moveTo (s : Lifecycle) (pc : Option Pc) : Lifecycle :=
  { s with thread := pc }

def advance (s : Lifecycle) : Pc → Option Lifecycle
  | .loopTest => some (s.moveTo (if s.agent.shouldStop then none else some (.stage .perceive)))
  | .stage .act => if s.agent.hasSpace then some (s.moveTo (some (.stage .learn))) else none
  | .stage st => some ((s.setState (st.stateWrite s.agent)).moveTo (some (next st)))
  | .draw => none
  | .wait =>
    some (s.moveTo (some (if s.agent.shouldStop || s.agent.state != .active then .loopTest
      else .blocked)))
  | .blocked => some (s.moveTo (some .loopTest))
  | .catchHandler => some ((s.setState .error).moveTo (some .loopTest))

/-- A step of the processing thread that throws into the `catch`; a stage can throw only with
an atom space, since without one it returns at once or crashes. -/
def raise (s : Lifecycle) : Pc → Option Lifecycle
  | .stage st =>
    if s.agent.hasSpace then some ((s.setState (st.stateWrite s.agent)).moveTo (some .catchHandler))
    else none
  | .draw | .wait => some (s.moveTo (some .catchHandler))
  | _ => none

def step (s : Lifecycle) (e : Event) : Option Lifecycle :=
  if s.terminated then none
  else match e with
    | .start =>
      match s.agent.start with
      | none => some { s with terminated := true }
      | some ag => some { s with
          agent := ag
          thread := (if s.agent.state = .inactive then some .loopTest else s.thread) }
    | .stopSignal => some { s with agent := s.agent.stopSignal, testing := s.testing + 1 }
    | .stopTest =>
      if s.testing = 0 then none
      else some { s with
        testing := s.testing - 1
        joining := if s.agent.joinable then s.joining + 1 else s.joining }
    | .stopJoin =>
      if s.joining = 0 ∨ s.thread ≠ none then none
      else if s.agent.joinable then
        some { s with agent := { s.agent with joinable := false }, joining := s.joining - 1 }
      else some { s with terminated := true }
    | .pause => some { s with agent := s.agent.pause }
    | .resume => some { s with agent := s.agent.resume }
    | .advance => s.thread.bind (advance s)
    | .raise => s.thread.bind (raise s)
    | .crash =>
      if s.agent.hasSpace = false ∧ (s.thread = some (.stage .plan) ∨ s.thread = some (.stage .act))
      then some { s with terminated := true } else none
    | .draw b => if s.thread = some .draw then
        some (s.moveTo (some (if b then .stage .selfModify else .wait))) else none

def run : Lifecycle → List Event → Option Lifecycle
  | s, [] => some s
  | s, e :: es => (step s e).bind (run · es)

inductive Reachable (s₀ : Lifecycle) : Lifecycle → Prop
  | init : Reachable s₀ s₀
  | step {s s' : Lifecycle} (e : Event) : Reachable s₀ s → step s e = some s' → Reachable s₀ s'

theorem run_append (s : Lifecycle) (es es' : List Event) : run s (es ++ es') = (run s es).bind (run · es') := by
  induction es generalizing s with
  | nil => rfl
  | cons e es ih =>
    show (step s e).bind (run · (es ++ es')) = ((step s e).bind (run · es)).bind (run · es')
    simp only [ih, Option.bind_assoc]

theorem reachable_of_run {s₀ s s' : Lifecycle} {es : List Event} (hs : Reachable s₀ s)
    (h : run s es = some s') : Reachable s₀ s' := by
  induction es generalizing s with
  | nil => cases h; exact hs
  | cons e es ih =>
    obtain ⟨s₁, h₁, h₂⟩ := Option.bind_eq_some.mp h
    exact ih (hs.step e h₁) h₂

def stopBeforeLearn : List Event :=
  [.start, .advance, .advance, .advance, .advance, .advance, .stopSignal, .advance, .draw false,
    .advance, .advance, .stopTest, .stopJoin]

theorem stop_returns_learning_without_thread :
    (run (init "TestAgent" true) stopBeforeLearn).map (fun s => (s.agent.state, s.thread, s.stopping)) =
        some (.learning, none, false) ∧
      (run (init "TestAgent" true) [.resume]).map (fun s => (s.agent.state, s.thread)) =
        some (.active, none) := by
  decide

theorem start_after_pause_terminates :
    (run (init "TestAgent" true) [.start, .pause]).map
        (fun s => (s.agent.state, s.agent.joinable, s.thread.isSome)) = some (.inactive, true, true) ∧
      (run (init "TestAgent" true) [.start, .pause, .start]).map (·.terminated) = some true := by
  decide

theorem pause_leaves_cycle_running :
    (run (init "TestAgent" true) [.start, .advance, .advance, .advance, .advance, .advance, .advance,
        .pause]).map (fun s => (s.agent.state, s.thread)) = some (.learning, some .draw) ∧
      (run (init "TestAgent" true) [.start, .advance, .advance, .pause, .advance, .advance, .advance,
        .advance]).map (fun s => (s.agent.state, s.thread)) = some (.learning, some .draw) := by
  decide

def Event.noControlCall : Event → Bool
  | .stopSignal | .stopTest | .stopJoin | .pause | .resume => false
  | _ => true

def WaitInv (s : Lifecycle) : Prop :=
  s.agent.hasSpace = true ∧ (s.thread = some .draw ∨ s.thread = some .wait → s.agent.state ≠ .active)

theorem waitInv_init (name : String) : WaitInv (init name true) :=
  ⟨rfl, by simp [init]⟩

theorem waitInv_advance {s s' : Lifecycle} {pc : Pc} (h : WaitInv s) (hs : advance s pc = some s') :
    WaitInv s' := by
  obtain ⟨hsp, -⟩ := h
  cases pc with
  | stage st =>
    cases st <;> simp only [advance, hsp, if_true] at hs <;> cases hs <;>
      simp [WaitInv, Lifecycle.setState, Lifecycle.moveTo, next, Stage.stateWrite, hsp]
  | draw => cases hs
  | _ =>
    simp only [advance] at hs
    cases hs
    exact ⟨hsp, by simp only [Lifecycle.moveTo, Lifecycle.setState]; (try split_ifs) <;> simp⟩

theorem waitInv_raise {s s' : Lifecycle} {pc : Pc} (h : WaitInv s) (hs : raise s pc = some s') :
    WaitInv s' := by
  cases pc <;> simp only [raise, h.1, if_true] at hs <;> cases hs <;>
    exact ⟨h.1, by simp [Lifecycle.moveTo, Lifecycle.setState]⟩

theorem waitInv_start {s : Lifecycle} {ag : Agent} (h : WaitInv s) (hst : s.agent.start = some ag) :
    WaitInv { s with
      agent := ag
      thread := if s.agent.state = .inactive then some .loopTest else s.thread } := by
  unfold Agent.start at hst
  split_ifs at hst with h₁ <;> cases hst
  · exact ⟨h.1, by simpa [h₁] using h.2⟩
  · exact ⟨h.1, by simp [not_not.mp h₁]⟩

theorem waitInv_step {s s' : Lifecycle} {e : Event} (h : WaitInv s) (he : e.noControlCall = true)
    (hs : step s e = some s') : WaitInv s' := by
  by_cases ht : s.terminated
  · simp [step, ht] at hs
  rw [step.eq_def, if_neg ht] at hs
  cases e with
  | start =>
    dsimp only at hs
    cases hst : s.agent.start with
    | none => rw [hst] at hs; cases hs; exact h
    | some ag => rw [hst] at hs; cases hs; exact waitInv_start h hst
  | advance =>
    obtain ⟨pc, -, hs⟩ := Option.bind_eq_some.mp hs
    exact waitInv_advance h hs
  | raise =>
    obtain ⟨pc, -, hs⟩ := Option.bind_eq_some.mp hs
    exact waitInv_raise h hs
  | crash =>
    dsimp only at hs
    split at hs <;> cases hs
    exact h
  | draw b =>
    dsimp only at hs
    split at hs <;> cases hs
    rename_i hd
    exact ⟨h.1, by cases b <;> simp [Lifecycle.moveTo, h.2 (.inl hd)]⟩
  | _ => cases he

theorem waitInv_run {s s' : Lifecycle} {es : List Event} (h : WaitInv s)
    (hes : ∀ e ∈ es, e.noControlCall = true) (hr : run s es = some s') : WaitInv s' := by
  induction es generalizing s with
  | nil => cases hr; exact h
  | cons e es ih =>
    obtain ⟨s₁, h₁, h₂⟩ := Option.bind_eq_some.mp hr
    exact ih (waitInv_step h (hes e (List.mem_cons_self e es)) h₁) (fun e he => hes e (List.mem_cons_of_mem _ he)) h₂

theorem wait_returns_at_once {name : String} {es : List Event} {s : Lifecycle}
    (hes : ∀ e ∈ es, e.noControlCall = true) (hr : run (init name true) es = some s)
    (hw : s.thread = some .wait) :
    (s.agent.shouldStop || s.agent.state != .active) = true ∧
      advance s .wait = some (s.moveTo (some .loopTest)) := by
  have hstate := (waitInv_run (waitInv_init name) hes hr).2 (.inr hw)
  have hpred : (s.agent.shouldStop || s.agent.state != .active) = true := by simp [hstate]
  exact ⟨hpred, by simp only [advance, hpred, if_true]⟩

theorem first_cycle_skips_wait :
    (run (init "TestAgent" true) [.start, .advance, .advance, .advance, .advance, .advance, .advance,
        .draw false]).map (fun s => (s.agent.state, s.thread)) = some (.learning, some .wait) ∧
      (run (init "TestAgent" true) [.start, .advance, .advance, .advance, .advance, .advance, .advance,
        .draw false, .advance]).map (·.thread) = some (some .loopTest) := by
  obtain ⟨s, hr, hs, ht⟩ : ∃ s, run (init "TestAgent" true) [.start, .advance, .advance, .advance,
      .advance, .advance, .advance, .draw false] = some s ∧
      (s.agent.state, s.thread) = (.learning, some .wait) ∧ s.terminated = false := ⟨_, rfl, rfl, rfl⟩
  have hw : s.thread = some .wait := congrArg Prod.snd hs
  have hadv := (wait_returns_at_once (by decide) hr hw).2
  refine ⟨by rw [hr]; exact congrArg some hs, ?_⟩
  rw [show [Event.start, .advance, .advance, .advance, .advance, .advance, .advance, .draw false, .advance] =
      [.start, .advance, .advance, .advance, .advance, .advance, .advance, .draw false] ++ [.advance] from rfl,
    run_append, hr]
  simp [run, step, ht, hw, hadv, Lifecycle.moveTo]

def Owned (s : Lifecycle) : Prop :=
  s.thread.isSome → s.agent.joinable = true

theorem owned_init (name : String) (hasSpace : Bool) : Owned (init name hasSpace) := fun h => by
  simp [init] at h

theorem advance_joinable {s s' : Lifecycle} {pc : Pc} (h : advance s pc = some s') :
    s'.agent.joinable = s.agent.joinable := by
  unfold advance at h
  split at h <;> (try split at h) <;> cases h <;> rfl

theorem raise_joinable {s s' : Lifecycle} {pc : Pc} (h : raise s pc = some s') :
    s'.agent.joinable = s.agent.joinable := by
  unfold raise at h
  split at h <;> (try split at h) <;> cases h <;> rfl

theorem Owned.step {s s' : Lifecycle} {e : Event} (h : Owned s) (hs : step s e = some s') : Owned s' := by
  by_cases ht : s.terminated
  · simp [AgentThread.step, ht] at hs
  rw [AgentThread.step.eq_def, if_neg ht] at hs
  cases e with
  | start =>
    dsimp only at hs
    cases hst : s.agent.start with
    | none => rw [hst] at hs; cases hs; exact h
    | some ag =>
      rw [hst] at hs; cases hs
      unfold Agent.start at hst
      split_ifs at hst with h₁ <;> cases hst
      · simpa [Owned, h₁] using h
      · exact fun _ => rfl
  | stopSignal => cases hs; exact h
  | stopTest => dsimp only at hs; split at hs <;> cases hs; exact h
  | stopJoin =>
    dsimp only at hs
    split at hs
    · cases hs
    · rename_i hj
      have hthread : s.thread = none := not_not.mp (not_or.mp hj).2
      split at hs <;> cases hs <;> simp [Owned, hthread]
  | pause =>
    cases hs
    unfold Agent.pause
    split <;> exact h
  | resume =>
    cases hs
    unfold Agent.resume
    split <;> exact h
  | advance =>
    obtain ⟨pc, hpc, hs⟩ := Option.bind_eq_some.mp hs
    exact fun _ => (advance_joinable hs).trans (h (by simp [hpc]))
  | raise =>
    obtain ⟨pc, hpc, hs⟩ := Option.bind_eq_some.mp hs
    exact fun _ => (raise_joinable hs).trans (h (by simp [hpc]))
  | crash => dsimp only at hs; split at hs <;> cases hs; exact h
  | draw b =>
    dsimp only at hs
    split at hs <;> cases hs
    rename_i hd
    exact fun _ => h (by simp [hd])

theorem Owned.reachable {s₀ s : Lifecycle} (h : Owned s₀) (hs : Reachable s₀ s) : Owned s := by
  induction hs with
  | init => exact h
  | step _ _ hst ih => exact ih.step hst

theorem stop_joins_thread {name : String} {hasSpace : Bool} {s : Lifecycle}
    (hs : Reachable (init name hasSpace) s) :
    (s.thread.isSome → s.agent.joinable = true) ∧
      (∀ s', step s .stopJoin = some s' → s.thread = none) ∧
      ∀ s', step s .start = some s' → s.thread.isSome → s'.thread = s.thread := by
  have ho := (owned_init name hasSpace).reachable hs
  refine ⟨ho, fun s' hj => ?_, fun s' hst hthread => ?_⟩
  · by_cases ht : s.terminated
    · simp [step, ht] at hj
    rw [step.eq_def, if_neg ht] at hj
    dsimp only at hj
    split at hj
    · cases hj
    · exact not_not.mp (not_or.mp ‹_›).2
  · by_cases ht : s.terminated
    · simp [step, ht] at hst
    rw [step.eq_def, if_neg ht] at hst
    dsimp only at hst
    cases hag : s.agent.start with
    | none => rw [hag] at hst; cases hst; rfl
    | some ag =>
      rw [hag] at hst; cases hst
      unfold Agent.start at hag
      split_ifs at hag with h₁ h₂
      · simp [h₁]
      · simp [ho hthread] at h₂

def stopSignalled : Lifecycle :=
  ⟨⟨"TestAgent", true, .inactive, true, true, [], []⟩, none, 0, 2, false⟩

theorem stopSignalled_joins :
    Reachable (init "TestAgent" true) stopSignalled ∧
      (stopSignalled.thread.isSome → stopSignalled.agent.joinable = true) ∧
      (∀ s', step stopSignalled .stopJoin = some s' → stopSignalled.thread = none) ∧
      ∀ s', step stopSignalled .start = some s' → stopSignalled.thread.isSome →
        s'.thread = stopSignalled.thread :=
  have h : Reachable (init "TestAgent" true) stopSignalled :=
    reachable_of_run .init (show run (init "TestAgent" true)
      [.start, .stopSignal, .stopSignal, .advance, .stopTest, .stopTest] = some stopSignalled from rfl)
  ⟨h, stop_joins_thread h⟩

example : (run stopSignalled [.stopJoin, .stopJoin]).map (·.terminated) = some true := by decide

end AgentThread

end CogWsl
