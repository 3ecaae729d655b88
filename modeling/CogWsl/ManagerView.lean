import CogWsl.ProcessLifecycle

/-!
The manager's own bookkeeping: the flag `m_initialized`, whether `m_cognitiveSystem` is set,
`m_processMapping` and the counter `processesMonitored`. Of all the calls of the system only
`Initialize`, also when its body throws into its `catch (...)`, `Shutdown`, `OnProcessCreate` and
`OnProcessDestroy` write it, and each writes it from the bookkeeping alone. So the bookkeeping of a run of the whole system is a run of a small
machine (`ManagerView.step`) over the calls made before a `std::terminate`, and what that machine
keeps, every run of the system keeps.
-/

namespace CogWsl

namespace World

structure ManagerView where
  initialized : Bool
  systemUp : Bool
  processMapping : AList (fun _ : String => UInt32)
  processesMonitored : Nat

def managerView (w : World) : ManagerView :=
  ⟨w.initialized, w.system.isSome, w.processMapping, w.stats.processesMonitored⟩

namespace ManagerView

/-- What a call does to the bookkeeping: `Initialize` and `Shutdown` set and reset the flag and
the system together and `Shutdown` clears the mapping; an `Initialize` whose body throws clears
the flag and keeps the new system once it is assigned; the process events bind and unbind
`Process:distro:pid` while the system is up; no other call writes it. -/
def step (v : ManagerView) : Op → ManagerView
  | .initializeManager => if v.initialized then v else { v with initialized := true, systemUp := true }
  | .initializeManagerThrows k =>
    if v.initialized then v else { v with initialized := false, systemUp := v.systemUp || decide (0 < k.val) }
  | .shutdownManager => if v.initialized then ⟨false, false, ∅, v.processesMonitored⟩ else v
  | .processCreate d pid _ =>
    if v.systemUp then
      { v with
        processMapping := v.processMapping.insert (processName d pid) pid
        processesMonitored := v.processesMonitored + 1 }
    else v
  | .processDestroy d pid _ =>
    if v.systemUp then { v with processMapping := v.processMapping.erase (processName d pid) } else v
  | _ => v

def run (v : ManagerView) (ops : List Op) : ManagerView :=
  ops.foldl step v

end ManagerView

theorem Frame.managerView {w w' : World} (h : Frame w w') : w'.managerView = w.managerView := by
  simp only [World.managerView, h.initialized, h.isSome, h.processMapping, h.processesMonitored]

theorem ManagerView.step_of_frame {o : Op} (ho : o.writesBookkeeping = false) (v : ManagerView) :
    v.step o = v := by
  cases o <;> first | rfl | cases ho

section ViewFrame

variable (w : World)

theorem initStep_managerView_of_ne {c : InitCall} (hc : c ≠ .assignSystem) :
    (w.initStep c).managerView = w.managerView := by
  cases c with
  | assignSystem => exact absurd rfl hc
  | initializeSystem => exact (withSystem_frame _ _).managerView
  | createAtom => rfl
  | createCognitiveAgent => exact (createCognitiveAgent_frame _ _ _).managerView

theorem foldl_initStep_managerView {cs : List InitCall} (hcs : ∀ c ∈ cs, c ≠ .assignSystem) :
    (cs.foldl initStep w).managerView = w.managerView := by
  induction cs generalizing w with
  | nil => rfl
  | cons c cs ih =>
    rw [List.foldl_cons, ih _ fun c' h => hcs c' (.tail _ h), initStep_managerView_of_ne _ (hcs c (.head _))]

theorem initCalls_managerView (k : Nat) :
    ((initializeCalls.take k).foldl initStep w).managerView =
      { w.managerView with systemUp := w.managerView.systemUp || decide (0 < k) } := by
  cases k with
  | zero => simp [managerView]
  | succ j =>
    have hcs : ∀ c ∈ initializeCalls.tail.take j, c ≠ .assignSystem := fun c hc =>
      (by decide : ∀ c ∈ initializeCalls.tail, c ≠ .assignSystem) c (List.mem_of_mem_take hc)
    rw [show initializeCalls.take (j + 1) = .assignSystem :: initializeCalls.tail.take j from rfl,
      List.foldl_cons, foldl_initStep_managerView _ hcs]
    simp [managerView, initStep]

theorem initializeManager_managerView :
    w.initializeManager.1.managerView = w.managerView.step .initializeManager := by
  cases h : w.initialized
  · rw [initializeManager_eq h, ← show initializeCalls.take 10 = initializeCalls from rfl, initCalls_managerView]
    simp [managerView, ManagerView.step, h]
  · simp [initializeManager, ManagerView.step, managerView, h]

theorem initializeManagerThrows_managerView (k : Fin 10) :
    (w.initializeManagerThrows k).1.managerView = w.managerView.step (.initializeManagerThrows k) := by
  unfold initializeManagerThrows
  split
  · simp_all [managerView, ManagerView.step]
  · have hv := initCalls_managerView { w with initialized := true } k
    simp_all [managerView, ManagerView.step]

theorem shutdownManager_managerView :
    w.shutdownManager.managerView = w.managerView.step .shutdownManager := by
  unfold shutdownManager
  split <;> simp_all [managerView, ManagerView.step]

theorem onProcessCreate_managerView (d : String) (pid : UInt32) (cmd : String) :
    (w.onProcessCreate d pid cmd).managerView = w.managerView.step (.processCreate d pid cmd) := by
  unfold onProcessCreate
  cases hs : w.system <;> simp [managerView, ManagerView.step, countEvent, processWslEvent, withSystem, hs]

theorem onProcessDestroy_managerView (d : String) (pid : UInt32) (exitCode : Int) :
    (w.onProcessDestroy d pid exitCode).managerView = w.managerView.step (.processDestroy d pid exitCode) := by
  unfold onProcessDestroy
  cases hs : w.system <;> simp [managerView, ManagerView.step, countEvent, processWslEvent, withSystem, hs]

theorem untrackProcess_managerView (d : String) (pid : UInt32) :
    (w.untrackProcess d pid).managerView = w.managerView := by
  unfold untrackProcess
  dsimp only
  split
  · rfl
  · exact (updateProcessKnowledge_frame _ _).managerView

end ViewFrame

theorem apply_managerView (w : World) (o : Op) :
    (w.apply o).managerView = if w.halted then w.managerView else w.managerView.step o := by
  cases hb : o.writesBookkeeping
  · rw [(w.apply_frame hb).managerView, ManagerView.step_of_frame hb, ite_self]
  · unfold World.apply
    split
    · rfl
    · cases o with
      | initializeManager => exact initializeManager_managerView w
      | initializeManagerThrows k => exact initializeManagerThrows_managerView w k
      | shutdownManager => exact shutdownManager_managerView w
      | processCreate d pid cmd => exact onProcessCreate_managerView w d pid cmd
      | processDestroy d pid code => exact onProcessDestroy_managerView w d pid code
      | trackProcess => rfl
      | monitoringTurn c₁ => exact (learnFromProcessPatterns_frame w c₁).managerView
      | untrackProcess d pid => exact untrackProcess_managerView w d pid
      | _ => cases hb

theorem run_of_step {P : ManagerView → Prop} (hstep : ∀ v o, P v → P (v.step o)) {w : World}
    (h : P w.managerView) (ops : List Op) : P (w.run ops).managerView := by
  induction ops generalizing w with
  | nil => exact h
  | cons o ops ih =>
    refine ih ?_
    rw [apply_managerView]
    split
    · exact h
    · exact hstep _ _ h

theorem init_managerView : init.managerView = ⟨false, false, ∅, 0⟩ := rfl

structure ManagerView.Mapped (v : ManagerView) : Prop where
  key_eq : ∀ e ∈ v.processMapping.entries, ∃ d, e.1 = processName d e.2
  count : v.processMapping.entries.length ≤ v.processesMonitored

theorem ManagerView.Mapped.step {v : ManagerView} (h : v.Mapped) (o : Op) : (v.step o).Mapped := by
  cases o with
  | processCreate d pid cmd =>
    simp only [ManagerView.step]
    split
    · refine ⟨fun e he => ?_, ?_⟩
      · rw [AList.insert_entries, List.mem_cons] at he
        rcases he with rfl | he
        · exact ⟨d, rfl⟩
        · exact h.key_eq e ((List.kerase_sublist _ _).subset he)
      · rw [AList.insert_entries, List.length_cons]
        exact Nat.succ_le_succ (((List.kerase_sublist _ _).length_le).trans h.count)
    · exact h
  | processDestroy d pid code =>
    simp only [ManagerView.step]
    split
    · exact ⟨fun e he => h.key_eq e ((List.kerase_sublist _ _).subset he),
        ((List.kerase_sublist _ _).length_le).trans h.count⟩
    · exact h
  | shutdownManager =>
    simp only [ManagerView.step]
    split
    · exact ⟨fun _ he => (by cases he), Nat.zero_le _⟩
    · exact h
  | initializeManager | initializeManagerThrows =>
    simp only [ManagerView.step]
    split <;> exact ⟨h.key_eq, h.count⟩
  | _ => exact h

theorem init_run_mapped (ops : List Op) :
    (∀ e ∈ (init.run ops).processMapping.entries, ∃ d, e.1 = processName d e.2) ∧
      (∀ d pid v, (init.run ops).processMapping.lookup (processName d pid) = some v → v = pid) ∧
      (init.run ops).processMapping.entries.length ≤ (init.run ops).stats.processesMonitored := by
  have h : (init.run ops).managerView.Mapped :=
    run_of_step (fun _ o h => h.step o) ⟨fun _ he => (by cases he), Nat.zero_le _⟩ ops
  refine ⟨h.key_eq, fun d pid v hv => ?_, h.count⟩
  obtain ⟨d', hd⟩ := h.key_eq _ (AList.mem_lookup_iff.mp hv)
  exact ((processName_inj hd).2).symm

structure ManagerView.Consistent (v : ManagerView) : Prop where
  system_of_flag : v.initialized = true → v.systemUp = true
  empty_down : v.systemUp = false → v.processMapping.entries = []

theorem ManagerView.Consistent.step {v : ManagerView} (h : v.Consistent) (o : Op) :
    (v.step o).Consistent := by
  cases o with
  | initializeManager =>
    simp only [ManagerView.step]
    split
    · exact h
    · exact ⟨fun _ => rfl, fun h => nomatch h⟩
  | initializeManagerThrows =>
    simp only [ManagerView.step]
    split
    · exact h
    · exact ⟨(fun h => nomatch h), fun hs => h.empty_down (Bool.or_eq_false_iff.mp hs).1⟩
  | shutdownManager =>
    simp only [ManagerView.step]
    split
    · exact ⟨(fun h => nomatch h), fun _ => rfl⟩
    · exact h
  | processCreate | processDestroy =>
    simp only [ManagerView.step]
    split
    · rename_i hup
      exact ⟨h.system_of_flag, fun hs => nomatch hup.symm.trans hs⟩
    · exact h
  | _ => exact h

def ManagerView.Settled (v : ManagerView) : Prop := v.systemUp = true → v.initialized = true

theorem ManagerView.Settled.step {v : ManagerView} (h : v.Settled) {o : Op}
    (ho : ∀ k : Fin 10, o = .initializeManagerThrows k → k.val = 0) : (v.step o).Settled := by
  cases o with
  | initializeManager =>
    simp only [ManagerView.step]
    split
    · exact h
    · exact fun _ => rfl
  | initializeManagerThrows k =>
    simp only [ManagerView.step, ho k rfl]
    split
    · exact h
    · rename_i hi
      exact fun hs => absurd (h (by simpa using hs)) hi
  | shutdownManager =>
    simp only [ManagerView.step]
    split
    · exact fun h => nomatch h
    · exact h
  | processCreate | processDestroy =>
    simp only [ManagerView.step]
    split <;> exact h
  | _ => exact h

theorem run_unsettled {w : World} (h : w.managerView.Settled) (ops : List Op)
    (hs : ¬(w.run ops).managerView.Settled) :
    ∃ k : Fin 10, 0 < k.val ∧ Op.initializeManagerThrows k ∈ ops := by
  induction ops generalizing w with
  | nil => exact absurd h hs
  | cons o ops ih =>
    by_cases ho : ∃ k : Fin 10, o = .initializeManagerThrows k ∧ 0 < k.val
    · obtain ⟨k, rfl, hk⟩ := ho
      exact ⟨k, hk, .head _⟩
    · have h' : (w.apply o).managerView.Settled := by
        rw [apply_managerView]
        split
        · exact h
        · exact h.step fun k hk => Nat.eq_zero_of_not_pos fun hk' => ho ⟨k, hk, hk'⟩
      obtain ⟨k, hk, hm⟩ := ih h' hs
      exact ⟨k, hk, .tail _ hm⟩

theorem init_run_consistent (ops : List Op) :
    ((init.run ops).initialized = true → (init.run ops).system.isSome = true) ∧
      ((init.run ops).system.isSome = false → (init.run ops).processMapping.entries = []) ∧
      ((init.run ops).system.isSome = true → (init.run ops).initialized = false →
        ∃ k : Fin 10, 0 < k.val ∧ Op.initializeManagerThrows k ∈ ops) := by
  have h : (init.run ops).managerView.Consistent :=
    run_of_step (fun _ o h => h.step o) ⟨(fun h => nomatch h), fun _ => rfl⟩ ops
  exact ⟨h.system_of_flag, h.empty_down,
    fun hs hi => run_unsettled (by simp [ManagerView.Settled, init_managerView]) ops fun hset => nomatch (hset hs).symm.trans hi⟩

end World

end CogWsl
