import CogWsl.Races
import CogWsl.AgentThread

/-!
What the races of the process monitor and of an agent need. The handle of the monitoring thread,
which no mutex guards, is safe as long as `StartMonitoring`, `StopMonitoring` and the destructor
are called one at a time: the monitoring thread may then run at any point, and `std::terminate`
never runs. Likewise a `Start` of a `CognitiveAgent` made while no `Stop` is in progress never
assigns to a joinable handle, whatever its processing thread does, unless `Pause` has been called.
-/

namespace CogWsl

namespace MonitorThread

def Pc.isEntry : Pc → Bool
  | .startExchange | .stopExchange _ => true
  | _ => false

structure State.Between (s : State) : Prop where
  alive : s.terminated = false
  joinable : s.joinable = s.monitoring
  loop : s.loopRunning = true → s.monitoring = true

def State.SoundAt (s : State) : Pc → Prop
  | .startAssign => s.monitoring = true ∧ s.joinable = false ∧ s.loopRunning = false
  | .stopTest _ | .stopJoin _ => s.monitoring = false ∧ s.joinable = true
  | .release => s.monitoring = false ∧ s.joinable = false ∧ s.loopRunning = false
  | _ => s.joinable = s.monitoring ∧ (s.loopRunning = true → s.monitoring = true)

def State.Serial (s : State) : Prop :=
  s.terminated = false ∧ ∃ pc, s.calls = [pc] ∧ s.SoundAt pc

theorem State.Serial.step {s s' : State} (h : s.Serial) {m : Move} (hs : step s m = some s') : s'.Serial := by
  obtain ⟨halive, pc, hcalls, hsound⟩ := h
  cases m with
  | loop =>
    simp only [MonitorThread.step, halive, Bool.not_false, Bool.and_true] at hs
    split at hs
    · cases hs
      refine ⟨rfl, pc, hcalls, ?_⟩
      cases pc <;> simp_all [State.SoundAt]
    · cases hs
  | call t =>
    simp only [MonitorThread.step, halive, hcalls, Bool.false_eq_true, ↓reduceIte] at hs
    rcases t with _ | t
    swap
    · simp at hs
    simp only [List.get?_cons_zero] at hs
    cases pc with
    | startExchange =>
      cases hs
      refine ⟨rfl, _, rfl, ?_⟩
      cases hm : s.monitoring <;> simp_all [State.SoundAt, State.setPc]
    | startAssign =>
      simp only [hsound.2.1, Bool.false_eq_true, ↓reduceIte] at hs
      cases hs
      exact ⟨rfl, _, rfl, by simp_all [State.SoundAt, State.setPc]⟩
    | stopExchange d =>
      cases hs
      refine ⟨rfl, _, rfl, ?_⟩
      cases hm : s.monitoring <;> cases d <;> simp_all [State.SoundAt, State.setPc, afterStop]
    | stopTest d =>
      simp only [hsound.2, ↓reduceIte] at hs
      cases hs
      exact ⟨halive, .stopJoin d, by simp [State.setPc, hcalls], hsound⟩
    | stopJoin d =>
      dsimp only at hs
      split at hs
      · cases hs
      · cases hs
        refine ⟨rfl, afterStop d, by simp [State.setPc, hcalls], ?_⟩
        cases d <;> simp_all [State.SoundAt, State.setPc, afterStop]
    | release =>
      dsimp only at hs
      simp only [hsound.2.1, Bool.false_eq_true, ↓reduceIte] at hs
      cases hs
      exact ⟨halive, .finished, by simp [State.setPc, hcalls], by simp_all [State.SoundAt, State.setPc]⟩
    | finished => cases hs

theorem State.Serial.run {s s' : State} (h : s.Serial) {ms : List Move} (hr : run s ms = some s') : s'.Serial := by
  induction ms generalizing s with
  | nil => cases hr; exact h
  | cons m ms ih =>
    obtain ⟨s₁, h₁, hr⟩ := Option.bind_eq_some.mp hr
    exact ih (h.step h₁) hr

theorem start_between (calls : List Pc) : (start calls).Between :=
  ⟨rfl, rfl, fun h => h⟩

theorem serial_call_safe {s s' : State} (hs : s.Between) {pc : Pc} (hpc : pc.isEntry = true)
    (ms : List Move) (hr : run { s with calls := [pc] } ms = some s') :
    s'.terminated = false ∧ (s'.calls = [.finished] → s'.Between) := by
  have hentry : State.SoundAt { s with calls := [pc] } pc := by
    cases pc <;> first | exact ⟨hs.joinable, hs.loop⟩ | cases hpc
  have h₀ : State.Serial { s with calls := [pc] } := ⟨hs.alive, pc, rfl, hentry⟩
  obtain ⟨halive, pc', hcalls, hsound⟩ := h₀.run hr
  refine ⟨halive, fun hf => ?_⟩
  obtain rfl : pc' = .finished := by simpa [hf] using hcalls.symm
  exact ⟨halive, hsound.1, hsound.2⟩

theorem startOnce_safe :
    ∃ s', run { start [] with calls := [.startExchange] } [.call 0, .call 0, .loop] = some s' ∧
      s'.terminated = false ∧ (s'.calls = [.finished] → s'.Between) :=
  ⟨_, rfl, serial_call_safe (start_between []) (show Pc.startExchange.isEntry = true from rfl)
    [.call 0, .call 0, .loop] rfl⟩

end MonitorThread

namespace AgentThread

theorem Stage.stateWrite_inactive {st : Stage} {ag : Agent} (h : st.stateWrite ag = .inactive) :
    ag.state = .inactive := by
  cases st <;> simp only [Stage.stateWrite] at h <;> (try split_ifs at h) <;> exact h

theorem advance_inactive {s s' : Lifecycle} {pc : Pc} (hs : advance s pc = some s') :
    (s'.agent.state = .inactive → s.agent.state = .inactive) ∧ s'.agent.joinable = s.agent.joinable ∧
      s'.stopping = s.stopping := by
  unfold advance at hs
  split at hs <;> (try split at hs) <;> cases hs <;>
    simp only [Lifecycle.moveTo, Lifecycle.setState, Lifecycle.stopping, and_self, and_true] <;>
    first | exact id | exact Stage.stateWrite_inactive | nofun

theorem raise_inactive {s s' : Lifecycle} {pc : Pc} (hs : raise s pc = some s') :
    (s'.agent.state = .inactive → s.agent.state = .inactive) ∧ s'.agent.joinable = s.agent.joinable ∧
      s'.stopping = s.stopping := by
  unfold raise at hs
  split at hs <;> (try split at hs) <;> cases hs <;>
    simp only [Lifecycle.moveTo, Lifecycle.setState, Lifecycle.stopping, and_self, and_true] <;>
    first | exact id | exact Stage.stateWrite_inactive

def Restartable (s : Lifecycle) : Prop :=
  s.agent.state = .inactive → s.stopping = false → s.agent.joinable = false

theorem Restartable.of_thread {s s' : Lifecycle} (h : Restartable s)
    (hs : (s'.agent.state = .inactive → s.agent.state = .inactive) ∧ s'.agent.joinable = s.agent.joinable ∧
      s'.stopping = s.stopping) : Restartable s' := fun hi hst => by
  rw [hs.2.1]
  exact h (hs.1 hi) (hs.2.2 ▸ hst)

theorem Restartable.step {s s' : Lifecycle} {e : Event} (h : Restartable s) (he : e ≠ .pause)
    (hs : step s e = some s') : Restartable s' := by
  by_cases ht : s.terminated
  · simp [AgentThread.step, ht] at hs
  rw [AgentThread.step.eq_def, if_neg ht] at hs
  cases e with
  | start =>
    dsimp only at hs
    cases hst : s.agent.start with
    | none => rw [hst] at hs; cases hs; exact h
    | some ag =>
      rw [hst] at hs; cases hs
      unfold Agent.start at hst
      split_ifs at hst <;> cases hst
      · exact h
      · exact fun hi => nomatch hi
  | stopSignal => cases hs; exact fun _ hst => by simp [Lifecycle.stopping] at hst
  | stopTest =>
    dsimp only at hs
    split at hs
    · cases hs
    · cases hs
      intro hi hst
      cases hj : s.agent.joinable
      · rfl
      · simp [Lifecycle.stopping, hj] at hst
  | stopJoin =>
    dsimp only at hs
    split at hs
    · cases hs
    · split at hs <;> cases hs
      · exact fun _ _ => rfl
      · exact fun _ _ => Bool.eq_false_iff.mpr ‹_›
  | pause => exact absurd rfl he
  | resume =>
    cases hs
    unfold Agent.resume
    split
    · exact fun hi => nomatch hi
    · exact h
  | advance =>
    obtain ⟨pc, -, hs⟩ := Option.bind_eq_some.mp hs
    exact h.of_thread (advance_inactive hs)
  | raise =>
    obtain ⟨pc, -, hs⟩ := Option.bind_eq_some.mp hs
    exact h.of_thread (raise_inactive hs)
  | crash => dsimp only at hs; split at hs <;> cases hs; exact h
  | draw b => dsimp only at hs; split at hs <;> cases hs; exact h

theorem Restartable.run {s s' : Lifecycle} {es : List Event} (h : Restartable s) (hes : ∀ e ∈ es, e ≠ .pause)
    (hr : run s es = some s') : Restartable s' := by
  induction es generalizing s with
  | nil => cases hr; exact h
  | cons e es ih =>
    obtain ⟨s₁, h₁, h₂⟩ := Option.bind_eq_some.mp hr
    exact ih (h.step (hes e (List.mem_cons_self e es)) h₁) (fun e he => hes e (List.mem_cons_of_mem _ he)) h₂

theorem start_safe_without_pause {name : String} {hasSpace : Bool} {es : List Event}
    (hes : ∀ e ∈ es, e ≠ .pause) {s : Lifecycle} (hr : run (init name hasSpace) es = some s)
    (hstop : s.stopping = false) : ∀ s', step s .start = some s' → s'.terminated = false := by
  have hrs := Restartable.run (fun _ _ => rfl) hes hr
  intro s' hs
  by_cases ht : s.terminated
  · simp [AgentThread.step, ht] at hs
  rw [AgentThread.step.eq_def, if_neg ht] at hs
  dsimp only at hs
  cases hst : s.agent.start with
  | none =>
    unfold Agent.start at hst
    split_ifs at hst with h₁ h₂
    simp [hrs (not_not.mp h₁) hstop] at h₂
  | some ag => rw [hst] at hs; cases hs; exact Bool.eq_false_iff.mpr ht

theorem restart_safe :
    (∀ e ∈ [Event.start, .stopSignal, .advance, .stopTest, .stopJoin], e ≠ .pause) ∧
      ∃ s, run (init "TestAgent" true) [.start, .stopSignal, .advance, .stopTest, .stopJoin] = some s ∧
        s.stopping = false ∧ ∀ s', step s .start = some s' → s'.terminated = false :=
  ⟨by decide, _, rfl, rfl, @start_safe_without_pause "TestAgent" true
    [.start, .stopSignal, .advance, .stopTest, .stopJoin] (by decide) _ rfl rfl⟩

end AgentThread

end CogWsl
