import CogWsl.SystemLoops
import CogWsl.ProcessKeys

/-!
A process's life as the integration manager sees it: `OnProcessCreate` binds the name
`Process:<distro>:<pid>` to a process atom, and `OnProcessDestroy` finds that atom again by the
name, sets its truth value from the exit code and links the completion memory from it. The
events in between broadcast messages whose memory atoms carry other names, so they leave the
binding alone.
-/

namespace CogWsl

open Relation

theorem String.ne_of_head {s t : String} (h : s.data.head? ≠ t.data.head?) : s ≠ t :=
  fun e => h (e ▸ rfl)

theorem Atom.mem_addLink (links : List Nat) (q : Nat) : q ∈ Atom.addLink links (some q) := by
  show q ∈ if q ∈ links then links else links ++ [q]
  split
  · assumption
  · exact List.mem_append_right _ (List.mem_singleton_self q)

namespace World

open CognitiveSystem (systemMemory)

theorem systemMemory_findAtom (g : Graph) (message : String) {n : String} (hn : n.data.head? ≠ some 'M') :
    (systemMemory g message).1.space.findAtom n = g.space.findAtom n :=
  @Graph.createAtom_findAtom_ne g n ("Message:" ++ "System" ++ ":" ++ message)
    (String.ne_of_head fun h => hn (h.trans rfl)) .memory 1 (9 / 10)

theorem processWslEvent_graph (w : World) (eventType source data : String) :
    (w.processWslEvent eventType source data).graph = w.graph ∨
      (w.processWslEvent eventType source data).graph =
        (systemMemory w.graph (eventType ++ ":" ++ source ++ ":" ++ data)).1 := by
  unfold processWslEvent withSystem
  split
  · exact .inl rfl
  · rename_i s _
    exact ((@CognitiveSystem.deliveredTo_nil w.graph s _).foldl s.agents.nodupKeys fun _ _ h => nomatch h).graph

theorem processWslEvent_system (w : World) (eventType source data : String) :
    (w.processWslEvent eventType source data).system.isSome = w.system.isSome := by
  unfold processWslEvent withSystem
  split
  · rfl
  · rename_i hs; rw [hs]; rfl

theorem processWslEvent_findAtom (w : World) (eventType source data : String) {n : String}
    (hn : n.data.head? ≠ some 'M') :
    (w.processWslEvent eventType source data).graph.space.findAtom n = w.graph.space.findAtom n := by
  rcases processWslEvent_graph w eventType source data with h | h <;> rw [h]
  exact systemMemory_findAtom _ _ hn

theorem processWslEvent_objects (w : World) (eventType source data : String) {p : Nat} {a : Atom}
    (h : w.graph.mem.objects p = some a) :
    (w.processWslEvent eventType source data).graph.mem.objects p = some a := by
  rcases processWslEvent_graph w eventType source data with h' | h' <;> rw [h']
  · exact h
  · exact Graph.createAtom_objects h _ _ _ _

theorem onProcessCreate_binds (w : World) (hw : w.graph.Coherent) (hs : w.system.isSome) (d : String)
    (pid : UInt32) (cmd : String) :
    (w.onProcessCreate d pid cmd).graph.Coherent ∧ (w.onProcessCreate d pid cmd).system.isSome ∧
      ∃ p, (w.onProcessCreate d pid cmd).graph.space.findAtom (processName d pid) = some p := by
  have hc := Graph.coherent_of_spaceCalls (Graph.spaceCalls_of_codeWrites (onProcessCreate_codeWrites w d pid cmd)) hw
  unfold onProcessCreate at hc ⊢
  rw [if_neg (by simpa using Option.isSome_iff_ne_none.mp hs)] at hc ⊢
  dsimp only at hc ⊢
  refine ⟨hc, (processWslEvent_system _ _ _ _).trans hs, ?_⟩
  rw [countEvent_graph, processWslEvent_findAtom _ _ _ _ (by simp [processName])]
  exact ⟨_, (Graph.createAtom_findAtom_ne _ (String.ne_of_head (by simp [processName])) _ _ _).trans
    (Graph.createAtom_lookup_self _ _ _ _ _)⟩

theorem onProcessDestroy_graph {w : World} (hs : w.system.isSome) {d : String} {pid : UInt32}
    (exitCode : Int) {p : Nat} (hp : w.graph.space.findAtom (processName d pid) = some p) :
    (w.onProcessDestroy d pid exitCode).graph =
      ({ w with
        graph := completeProcess w.graph p (processName d pid) exitCode
        processMapping := w.processMapping.erase (processName d pid) }.processWslEvent "process_destroy" d
        (processName d pid ++ ":" ++ toString exitCode)).graph := by
  unfold onProcessDestroy
  rw [if_neg (by simpa using Option.isSome_iff_ne_none.mp hs)]
  simp only [hp, countEvent_graph]

theorem completeProcess_spec {g : Graph} {p : Nat} {a : Atom} {name : String} (ha : g.mem.objects p = some a)
    (hp : g.space.findAtom name = some p) (hname : name.data.head? ≠ some 'C') (exitCode : Int) :
    ∃ m a', (completeProcess g p name exitCode).space.findAtom name = some p ∧
      (completeProcess g p name exitCode).space.findAtom ("Completion:" ++ name ++ ":" ++ toString exitCode) =
        some m ∧
      (completeProcess g p name exitCode).mem.objects p = some a' ∧
      a'.truthValue = (if exitCode = 0 then 1 else 3 / 10) ∧ m ∈ a'.outgoingLinks := by
  have hu := Graph.update_objects_self ha fun a =>
    a.setTruthValue (if exitCode = 0 then 1 else 3 / 10) (a.confidence + 1 / 10)
  refine ⟨_, _, (@Graph.createAtom_findAtom_ne _ name ("Completion:" ++ name ++ ":" ++ toString exitCode)
      (String.ne_of_head fun h => hname (h.trans rfl)) .memory _ _).trans hp,
    Graph.createAtom_lookup_self _ _ _ _ _,
    Graph.update_objects_self (Graph.createAtom_objects hu _ _ _ _) _, ?_, ?_⟩
  · show Atom.clamp _ 0 1 = _
    split <;> norm_num [Atom.clamp]
  · exact Atom.mem_addLink _ _

theorem processCreate_destroy (w : World) (hw : w.graph.Coherent) (hs : w.system.isSome) (d : String)
    (pid : UInt32) (cmd : String) (exitCode : Int) :
    ∃ p m a, ((w.onProcessCreate d pid cmd).onProcessDestroy d pid exitCode).graph.space.findAtom
        (processName d pid) = some p ∧
      ((w.onProcessCreate d pid cmd).onProcessDestroy d pid exitCode).graph.space.findAtom
        ("Completion:" ++ processName d pid ++ ":" ++ toString exitCode) = some m ∧
      ((w.onProcessCreate d pid cmd).onProcessDestroy d pid exitCode).graph.mem.objects p = some a ∧
      a.truthValue = (if exitCode = 0 then 1 else 3 / 10) ∧ m ∈ a.outgoingLinks ∧
      ((w.onProcessCreate d pid cmd).onProcessDestroy d pid exitCode).processMapping.lookup
        (processName d pid) = none := by
  obtain ⟨hc, hs₁, p, hp⟩ := onProcessCreate_binds w hw hs d pid cmd
  generalize w.onProcessCreate d pid cmd = w₁ at hc hs₁ hp ⊢
  obtain ⟨a, ha, -⟩ := Option.map_eq_some'.mp (hc.byName_agree _ p hp).1
  obtain ⟨m, a', hfind, hm, ha', htruth, hlink⟩ :=
    completeProcess_spec ha hp (by simp [processName]) exitCode
  have hmap := onProcessDestroy_processMapping w₁ d pid exitCode (processName d pid)
  rw [if_pos ⟨hs₁, rfl⟩] at hmap
  rw [onProcessDestroy_graph hs₁ exitCode hp]
  exact ⟨p, m, a', (processWslEvent_findAtom _ _ _ _ (by simp [processName])).trans hfind,
    (processWslEvent_findAtom _ _ _ _ (by simp)).trans hm, processWslEvent_objects _ _ _ _ ha', htruth,
    hlink, hmap⟩

def managerUp : World :=
  init.run [.initializeManager]

theorem managerUp_make_exits :
    managerUp.graph.Coherent ∧ managerUp.system.isSome ∧
      ∃ p m a, ((managerUp.onProcessCreate "Ubuntu" 7 "make").onProcessDestroy "Ubuntu" 7 0).graph.space.findAtom
          (processName "Ubuntu" 7) = some p ∧
        ((managerUp.onProcessCreate "Ubuntu" 7 "make").onProcessDestroy "Ubuntu" 7 0).graph.space.findAtom
          ("Completion:" ++ processName "Ubuntu" 7 ++ ":" ++ toString (0 : Int)) = some m ∧
        ((managerUp.onProcessCreate "Ubuntu" 7 "make").onProcessDestroy "Ubuntu" 7 0).graph.mem.objects p = some a ∧
        a.truthValue = (if (0 : Int) = 0 then 1 else 3 / 10) ∧ m ∈ a.outgoingLinks ∧
        ((managerUp.onProcessCreate "Ubuntu" 7 "make").onProcessDestroy "Ubuntu" 7 0).processMapping.lookup
          (processName "Ubuntu" 7) = none :=
  have hw : managerUp.graph.Coherent := (init_valid.run _).coherent
  have hs : managerUp.system.isSome := by decide
  ⟨hw, hs, processCreate_destroy managerUp hw hs "Ubuntu" 7 "make" 0⟩

end World

end CogWsl
