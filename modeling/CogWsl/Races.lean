import CogWsl.Integration

/-!
Two lifecycles whose calls may come from any threads. `CognitiveIntegrationManager::Initialize`
takes the lock and then exchanges `m_initialized`, while `Shutdown` exchanges first and locks
after. `CognitiveProcessMonitor::StartMonitoring` exchanges `m_monitoring` and assigns
`m_monitoringThread` afterwards, while `StopMonitoring` exchanges and then tests `joinable()`.
Each exchange, lock step, assignment, test and join is one step, and a run replays a list of them.
-/

namespace CogWsl

namespace World

/-- `IsInitialized()` and whether `GetCognitiveSystem()` is non-null. -/
def lifecycleFlags (w : World) : Bool × Bool :=
  (w.initialized, w.system.isSome)

theorem withSystem_lifecycleFlags (w : World) (f : Graph → CognitiveSystem → Graph × CognitiveSystem) :
    (w.withSystem f).lifecycleFlags = w.lifecycleFlags := by
  unfold withSystem
  split <;> simp_all [lifecycleFlags]

theorem startAgent_lifecycleFlags (w : World) (name : String) :
    (w.startAgent name).lifecycleFlags = w.lifecycleFlags := by
  unfold startAgent
  split
  · rfl
  · split
    · rfl
    · split <;> simp_all [lifecycleFlags]

theorem createCognitiveAgent_lifecycleFlags (w : World) (name role : String) :
    (w.createCognitiveAgent name role).1.lifecycleFlags = w.lifecycleFlags := by
  unfold createCognitiveAgent
  split
  · rfl
  · dsimp only
    rw [show ∀ w : World, w.countAgent.lifecycleFlags = w.lifecycleFlags from fun _ => rfl,
      startAgent_lifecycleFlags]
    split <;> simp only [addAgentGoal, withSystem_lifecycleFlags]

theorem initializeManager_lifecycleFlags {w : World} (h : w.initialized = false) :
    w.initializeManager.1.lifecycleFlags = (true, true) := by
  unfold initializeManager
  rw [if_neg (by simp [h])]
  dsimp only
  rw [createCognitiveAgent_lifecycleFlags, createCognitiveAgent_lifecycleFlags,
    createCognitiveAgent_lifecycleFlags]
  rfl

theorem shutdownManager_lifecycleFlags {w : World} (h : w.initialized = true) :
    w.shutdownManager.lifecycleFlags = (false, false) := by
  simp [shutdownManager, h, lifecycleFlags]

end World

namespace ManagerLifecycle

inductive Pc
  | initLock | initExchange | initAssign | initBody
  | shutdownExchange | shutdownLock | shutdownReset
  | finished
  deriving DecidableEq, Repr

/-- `m_initialized`, whether `m_cognitiveSystem` is non-null, the holder of `m_mutex`, and the
calls in flight. -/
structure State where
  initialized : Bool
  hasSystem : Bool
  lock : Option Nat
  calls : List Pc

def start (calls : List Pc) : State :=
  ⟨false, false, none, calls⟩

def State.setPc (s : State) (t : Nat) (pc : Pc) : State :=
  { s with calls := s.calls.set t pc }

def State.idle (s : State) : Bool :=
  s.calls.all (· == .finished)

inductive Move
  | step (t : Nat)
  | throw (t : Nat)
  deriving DecidableEq, Repr

def step (s : State) (t : Nat) : Option State :=
  match s.calls.get? t with
  | some .initLock =>
    if s.lock.isNone then some ({ s with lock := some t }.setPc t .initExchange) else none
  | some .initExchange =>
    if s.initialized then some ({ s with lock := none }.setPc t .finished)
    else some ({ s with initialized := true }.setPc t .initAssign)
  | some .initAssign => some ({ s with hasSystem := true }.setPc t .initBody)
  | some .initBody => some ({ s with lock := none }.setPc t .finished)
  | some .shutdownExchange =>
    some ({ s with initialized := false }.setPc t
      (if s.initialized then .shutdownLock else .finished))
  | some .shutdownLock =>
    if s.lock.isNone then some ({ s with lock := some t }.setPc t .shutdownReset) else none
  | some .shutdownReset => some ({ s with hasSystem := false, lock := none }.setPc t .finished)
  | _ => none

/-- A throw in the body of `Initialize` after its exchange, before or after the new system is
assigned: the `catch` clears the flag, and the lock is released on return. -/
def throw (s : State) (t : Nat) : Option State :=
  match s.calls.get? t with
  | some .initAssign | some .initBody =>
    some ({ s with initialized := false, lock := none }.setPc t .finished)
  | _ => none

def next (s : State) : Move → Option State
  | .step t => step s t
  | .throw t => throw s t

def run : State → List Move → Option State
  | s, [] => some s
  | s, m :: ms => (next s m).bind (run · ms)

def shutdownOvertaken : List Move :=
  [.step 0, .step 0, .step 0, .step 0, .step 1, .step 2, .step 2, .step 2, .step 2, .step 1, .step 1]

def throwAfterAssign : List Move :=
  [.step 0, .step 0, .step 0, .throw 0]

theorem lifecycle_flag_without_system :
    (run (start [.initLock, .shutdownExchange, .initLock]) shutdownOvertaken).map
        (fun s => (s.idle, s.initialized, s.hasSystem)) = some (true, true, false) ∧
      (run (start [.initLock]) throwAfterAssign).map
        (fun s => (s.idle, s.initialized, s.hasSystem)) = some (true, false, true) := by
  decide

end ManagerLifecycle

namespace MonitorThread

/-- Where a call of `StartMonitoring`, `StopMonitoring` or the destructor is; `destroying` says
whether `StopMonitoring` runs inside the destructor, which then destroys `m_monitoringThread`. -/
inductive Pc
  | startExchange | startAssign
  | stopExchange (destroying : Bool) | stopTest (destroying : Bool) | stopJoin (destroying : Bool)
  | release
  | finished
  deriving DecidableEq, Repr

/-- `m_monitoring`, `m_monitoringThread.joinable()`, whether `MonitoringLoop` still runs, the calls
in flight, and whether `std::terminate` ran. -/
structure State where
  monitoring : Bool
  joinable : Bool
  loopRunning : Bool
  calls : List Pc
  terminated : Bool

def start (calls : List Pc) : State :=
  ⟨false, false, false, calls, false⟩

def State.setPc (s : State) (t : Nat) (pc : Pc) : State :=
  { s with calls := s.calls.set t pc }

def afterStop (destroying : Bool) : Pc :=
  if destroying then .release else .finished

inductive Move
  | call (t : Nat)
  | loop
  deriving DecidableEq, Repr

/-- A step of call `t`, or one test of `while (m_monitoring)` by the monitoring thread. -/
def step (s : State) : Move → Option State
  | .loop => if s.loopRunning && !s.terminated then some { s with loopRunning := s.monitoring } else none
  | .call t =>
    if s.terminated then none
    else
      match s.calls.get? t with
      | some .startExchange =>
        some ({ s with monitoring := true }.setPc t (if s.monitoring then .finished else .startAssign))
      | some .startAssign =>
        if s.joinable then some { s with terminated := true }
        else some ({ s with joinable := true, loopRunning := true }.setPc t .finished)
      | some (.stopExchange d) =>
        some ({ s with monitoring := false }.setPc t (if s.monitoring then .stopTest d else afterStop d))
      | some (.stopTest d) => some (s.setPc t (if s.joinable then .stopJoin d else afterStop d))
      | some (.stopJoin d) =>
        if s.loopRunning then none else some ({ s with joinable := false }.setPc t (afterStop d))
      | some .release => if s.joinable then some { s with terminated := true } else some (s.setPc t .finished)
      | _ => none

def run : State → List Move → Option State
  | s, [] => some s
  | s, m :: ms => (step s m).bind (run · ms)

def stopOvertakesAssign : List Move :=
  [.call 0, .call 1, .call 1, .call 0, .loop]

theorem monitor_handle_left_joinable :
    (run (start [.startExchange, .stopExchange false]) stopOvertakesAssign).map
        (fun s => (s.calls, s.monitoring, s.joinable, s.loopRunning)) =
        some ([.finished, .finished], false, true, false) ∧
      (run (start [.startExchange, .stopExchange false, .stopExchange true])
        (stopOvertakesAssign ++ [.call 2, .call 2])).map (·.terminated) = some true ∧
      (run (start [.startExchange, .stopExchange false, .startExchange])
        (stopOvertakesAssign ++ [.call 2, .call 2])).map (·.terminated) = some true := by
  decide

end MonitorThread

end CogWsl
