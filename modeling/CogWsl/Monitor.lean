import CogWsl.ProcessLifecycle

/-!
The process monitor's table against the atom space. Every tracked process is stored under the key
`distro:pid` of its own distribution and id, and its cognitive representation is the atom named
`MonitoredProcess:` and that key: `TrackProcess` gets or creates it by that name, atoms never
change their names, and no other call writes the table. So two tracked processes never share an
atom, and `UpdateProcessKnowledge` writes only to the atom of the process it is given: its loop
over the behaviour log gets or creates one memory per behaviour and links it from that atom.
-/

namespace CogWsl

open Relation

namespace World

section Frame

variable (w : World)

theorem initCalls_trackedProcesses (cs : List InitCall) :
    (cs.foldl initStep w).trackedProcesses = w.trackedProcesses := by
  induction cs generalizing w with
  | nil => rfl
  | cons c cs ih =>
    rw [List.foldl_cons, ih]
    cases c with
    | assignSystem | createAtom => rfl
    | initializeSystem => exact (withSystem_frame _ _).trackedProcesses
    | createCognitiveAgent => exact (createCognitiveAgent_frame _ _ _).trackedProcesses

theorem initializeManager_trackedProcesses :
    w.initializeManager.1.trackedProcesses = w.trackedProcesses := by
  cases h : w.initialized
  · rw [initializeManager_eq h, initCalls_trackedProcesses]
  · simp [initializeManager, h]

theorem initializeManagerThrows_trackedProcesses (k : Fin 10) :
    (w.initializeManagerThrows k).1.trackedProcesses = w.trackedProcesses := by
  unfold initializeManagerThrows
  split
  · rfl
  · exact initCalls_trackedProcesses _ _

theorem shutdownManager_trackedProcesses : w.shutdownManager.trackedProcesses = w.trackedProcesses := by
  unfold shutdownManager
  split <;> rfl

theorem onProcessCreate_trackedProcesses (d : String) (pid : UInt32) (cmd : String) :
    (w.onProcessCreate d pid cmd).trackedProcesses = w.trackedProcesses := by
  unfold onProcessCreate
  split
  · rfl
  · exact (processWslEvent_frame _ _ _ _).trackedProcesses

theorem onProcessDestroy_trackedProcesses (d : String) (pid : UInt32) (exitCode : Int) :
    (w.onProcessDestroy d pid exitCode).trackedProcesses = w.trackedProcesses := by
  unfold onProcessDestroy
  split
  · rfl
  · exact (processWslEvent_frame _ _ _ _).trackedProcesses

end Frame

end World

theorem Atom.subset_addLink (links : List Nat) (q : Option Nat) : links ⊆ Atom.addLink links q := by
  cases q with
  | none => exact List.Subset.refl _
  | some q =>
    show links ⊆ if q ∈ links then links else links ++ [q]
    split
    · exact List.Subset.refl _
    · exact List.subset_append_left _ _

namespace Graph

structure LinksOnly (rep : Nat) (g g' : Graph) : Prop where
  names : ∀ n q, g.space.findAtom n = some q → g'.space.findAtom n = some q
  others : ∀ q, q ≠ rep → ∀ c, g.mem.objects q = some c → g'.mem.objects q = some c
  grows : ∀ a, g.mem.objects rep = some a → ∃ links, a.outgoingLinks ⊆ links ∧
    g'.mem.objects rep = some { a with outgoingLinks := links }

theorem LinksOnly.refl (rep : Nat) (g : Graph) : LinksOnly rep g g :=
  ⟨fun _ _ h => h, fun _ _ _ h => h, fun a h => ⟨a.outgoingLinks, List.Subset.refl _, h⟩⟩

theorem LinksOnly.trans {rep : Nat} {g₁ g₂ g₃ : Graph} (h₁ : LinksOnly rep g₁ g₂) (h₂ : LinksOnly rep g₂ g₃) :
    LinksOnly rep g₁ g₃ where
  names n q h := h₂.names n q (h₁.names n q h)
  others q hq c h := h₂.others q hq c (h₁.others q hq c h)
  grows a h := by
    obtain ⟨l₂, hs₂, h₂a⟩ := h₁.grows a h
    obtain ⟨l₃, hs₃, h₃a⟩ := h₂.grows _ h₂a
    exact ⟨l₃, hs₂.trans hs₃, h₃a⟩

end Graph

open Graph (LinksOnly)

namespace World

theorem behaviorAtom_linksOnly (command : String) (rep : Nat) (g : Graph) (behavior : String) :
    LinksOnly rep g (behaviorAtom command rep g behavior) ∧
      ∀ a, g.mem.objects rep = some a → ∃ q,
        (behaviorAtom command rep g behavior).space.findAtom (command ++ "_behavior:" ++ behavior) = some q ∧
        (behaviorAtom command rep g behavior).mem.objects rep =
          some { a with outgoingLinks := Atom.addLink a.outgoingLinks (some q) } := by
  have hobj : ∀ a, g.mem.objects rep = some a → (behaviorAtom command rep g behavior).mem.objects rep =
      some (a.addOutgoingLink (some (g.createAtom .memory (command ++ "_behavior:" ++ behavior) (3 / 5) (7 / 10)).2)) :=
    fun a ha =>
    Graph.update_objects_self (Graph.createAtom_objects ha .memory (command ++ "_behavior:" ++ behavior)
      (3 / 5) (7 / 10)) (·.addOutgoingLink (some _))
  refine ⟨⟨fun n q h => Graph.createAtom_findAtom_some h _ _ _ _, fun q hq c h => ?_, fun a ha =>
    ⟨_, Atom.subset_addLink _ _, hobj a ha⟩⟩, fun a ha => ⟨_, Graph.createAtom_lookup_self _ _ _ _ _, hobj a ha⟩⟩
  exact (Graph.update_objects_ne _ hq _).trans (Graph.createAtom_objects h _ _ _ _)

theorem foldl_behaviorAtom (command : String) (rep : Nat) (log : List String) {g : Graph} {a : Atom}
    (ha : g.mem.objects rep = some a) :
    LinksOnly rep g (log.foldl (behaviorAtom command rep) g) ∧ ∃ links, a.outgoingLinks ⊆ links ∧
      (log.foldl (behaviorAtom command rep) g).mem.objects rep = some { a with outgoingLinks := links } ∧
      ∀ b ∈ log, ∃ q,
        (log.foldl (behaviorAtom command rep) g).space.findAtom (command ++ "_behavior:" ++ b) = some q ∧
        q ∈ links := by
  induction log generalizing g a with
  | nil => exact ⟨.refl rep g, a.outgoingLinks, List.Subset.refl _, ha, fun _ h => nomatch h⟩
  | cons b log ih =>
    obtain ⟨hstep, hlink⟩ := behaviorAtom_linksOnly command rep g b
    obtain ⟨q, hq, ha₁⟩ := hlink a ha
    obtain ⟨hrun, links, hsub, hrep, hlog⟩ := ih ha₁
    refine ⟨hstep.trans hrun, links, fun x hx => hsub (Atom.subset_addLink _ (some q) hx), hrep, fun b' hb' => ?_⟩
    rcases List.mem_cons.mp hb' with rfl | hb'
    · exact ⟨q, hrun.names _ _ hq, hsub (Atom.mem_addLink _ _)⟩
    · exact hlog b' hb'

theorem updateProcessKnowledge_spec {w : World} (hs : w.system.isSome) {info : ProcessInfo} {rep : Nat}
    (hrep : info.cognitiveRepresentation = some rep) {a : Atom} (ha : w.graph.mem.objects rep = some a) :
    (∀ n q, w.graph.space.findAtom n = some q → (w.updateProcessKnowledge info).graph.space.findAtom n = some q) ∧
      (∀ q, q ≠ rep → ∀ c, w.graph.mem.objects q = some c →
        (w.updateProcessKnowledge info).graph.mem.objects q = some c) ∧
      ∃ links, a.outgoingLinks ⊆ links ∧
        (w.updateProcessKnowledge info).graph.mem.objects rep =
          some { a with attention := min 1 (1 / 2 + info.behaviorLog.length / 100), outgoingLinks := links } ∧
        ∀ b ∈ info.behaviorLog, ∃ q,
          (w.updateProcessKnowledge info).graph.space.findAtom (info.command ++ "_behavior:" ++ b) = some q ∧
          q ∈ links := by
  unfold updateProcessKnowledge
  rw [if_neg (by simpa using Option.isSome_iff_ne_none.mp hs), hrep]
  obtain ⟨hrun, links, hsub, hobj, hlog⟩ := foldl_behaviorAtom info.command rep info.behaviorLog
    (Graph.update_objects_self ha (·.setAttention (min 1 (1 / 2 + info.behaviorLog.length / 100))))
  exact ⟨fun n q h => hrun.names n q h, fun q hq c h => hrun.others q hq c
    ((Graph.update_objects_ne _ hq _).trans h), links, hsub, hobj, hlog⟩

end World

namespace World

end World

namespace World

structure Tracked (w : World) : Prop where
  key_eq : ∀ e ∈ w.trackedProcesses.entries, e.1 = processKey e.2.distroId e.2.processId
  rep_named : ∀ e ∈ w.trackedProcesses.entries, ∀ p, e.2.cognitiveRepresentation = some p →
    w.graph.mem.nameOf p = some ("MonitoredProcess:" ++ e.1)

theorem init_tracked : init.Tracked := ⟨fun _ h => (nomatch h), fun _ h => (nomatch h)⟩

theorem Tracked.key_of_rep {w : World} (h : w.Tracked) {e₁ e₂ : Σ _ : String, ProcessInfo}
    (he₁ : e₁ ∈ w.trackedProcesses.entries) (he₂ : e₂ ∈ w.trackedProcesses.entries) {p : Nat}
    (hp₁ : e₁.2.cognitiveRepresentation = some p) (hp₂ : e₂.2.cognitiveRepresentation = some p) :
    e₁.1 = e₂.1 := by
  have hname := (h.rep_named e₁ he₁ p hp₁).symm.trans (h.rep_named e₂ he₂ p hp₂)
  exact String.ext (List.append_cancel_left (congrArg String.data (Option.some.inj hname)))

theorem Tracked.of_entries {w w' : World} (h : w.Tracked)
    (ht : ∀ e ∈ w'.trackedProcesses.entries, ∃ e₀ ∈ w.trackedProcesses.entries, e.1 = e₀.1 ∧
      e.2.distroId = e₀.2.distroId ∧ e.2.processId = e₀.2.processId ∧
      e.2.cognitiveRepresentation = e₀.2.cognitiveRepresentation)
    (hn : w.graph.mem.KeepsNames w'.graph.mem) : w'.Tracked where
  key_eq e he := by
    obtain ⟨e₀, he₀, h₁, h₂, h₃, -⟩ := ht e he
    rw [h₁, h₂, h₃]
    exact h.key_eq e₀ he₀
  rep_named e he p hp := by
    obtain ⟨e₀, he₀, h₁, -, -, h₄⟩ := ht e he
    rw [h₁]
    exact hn _ _ (h.rep_named e₀ he₀ p (h₄ ▸ hp))

theorem Tracked.of_frame {w w' : World} (h : w.Tracked) (ht : w'.trackedProcesses = w.trackedProcesses)
    (hn : w.graph.mem.KeepsNames w'.graph.mem) : w'.Tracked :=
  h.of_entries (fun e he => ⟨e, ht ▸ he, rfl, rfl, rfl, rfl⟩) hn

theorem Tracked.trackProcess {w : World} (h : w.Tracked) (hw : w.graph.Coherent) (d : String)
    (pid : UInt32) (cmd : String) (now : Int)
    (hn : w.graph.mem.KeepsNames (w.trackProcess d pid cmd now).graph.mem) :
    (w.trackProcess d pid cmd now).Tracked := by
  unfold World.trackProcess at hn ⊢
  dsimp only at hn ⊢
  refine ⟨fun e he => ?_, fun e he p hp => ?_⟩ <;>
    rw [AList.insert_entries, List.mem_cons] at he <;> rcases he with rfl | he
  · rfl
  · exact h.key_eq e ((List.kerase_sublist _ _).subset he)
  · by_cases hs : w.system.isSome = true <;> simp only [hs, if_true, if_false, Bool.false_eq_true] at hp ⊢
    · cases hp
      exact Graph.createAtom_nameOf hw _ _ _ _
    · cases hp
  · exact hn _ _ (h.rep_named e ((List.kerase_sublist _ _).subset he) p hp)

theorem apply_keepsNames (w : World) (o : Op) : w.graph.mem.KeepsNames (w.apply o).graph.mem := by
  cases ho : o.addsIncomingLink with
  | false => exact (Graph.keepsKinds_of_spaceCalls (apply_spaceCalls w ho)).keepsNames
  | true =>
    obtain ⟨p, q, rfl⟩ : ∃ p q, o = .addIncomingLink p q := by
      cases o <;> first | exact ⟨_, _, rfl⟩ | cases ho
    unfold apply
    split
    · exact .refl _
    · exact Memory.keepsNames_modify _ p fun _ => rfl

theorem Tracked.apply {w : World} (h : w.Tracked) (hw : w.graph.Coherent) (o : Op) : (w.apply o).Tracked := by
  have hn := apply_keepsNames w o
  cases hb : o.writesBookkeeping
  · exact h.of_frame (w.apply_frame hb).trackedProcesses hn
  by_cases hh : w.halted = true
  · simpa only [World.apply, hh, if_true] using h
  simp only [World.apply, hh, if_false, Bool.false_eq_true] at hn ⊢
  cases o with
  | trackProcess d pid cmd now => exact h.trackProcess hw d pid cmd now hn
  | untrackProcess d pid =>
    dsimp only at hn ⊢
    refine h.of_entries (fun e he => ⟨e, ?_, rfl, rfl, rfl, rfl⟩) hn
    unfold untrackProcess at he
    dsimp only at he
    split at he
    · exact he
    · rw [← updateProcessKnowledge_trackedProcesses w ‹_›]
      exact (List.kerase_sublist _ _).subset he
  | monitoringTurn c₁ c₂ =>
    dsimp only at hn ⊢
    refine h.of_entries (fun e he => ?_) hn
    obtain ⟨e₀, he₀, rfl⟩ := List.mem_map.mp he
    exact ⟨e₀, by simpa [(learnFromProcessPatterns_frame w c₁).trackedProcesses] using he₀, rfl, rfl, rfl, rfl⟩
  | initializeManager => exact h.of_frame (initializeManager_trackedProcesses w) hn
  | initializeManagerThrows k => exact h.of_frame (initializeManagerThrows_trackedProcesses w k) hn
  | shutdownManager => exact h.of_frame (shutdownManager_trackedProcesses w) hn
  | processCreate d pid cmd => exact h.of_frame (onProcessCreate_trackedProcesses w d pid cmd) hn
  | processDestroy d pid code => exact h.of_frame (onProcessDestroy_trackedProcesses w d pid code) hn
  | _ => cases hb

theorem Tracked.run {w : World} (h : w.Tracked) (hv : w.Valid) (ops : List Op) : (w.run ops).Tracked := by
  induction ops generalizing w with
  | nil => exact h
  | cons o ops ih => exact ih (h.apply hv.coherent o) (hv.apply o)

theorem init_run_tracked (ops : List Op) :
    (init.run ops).Tracked ∧ ∀ e₁ ∈ (init.run ops).trackedProcesses.entries,
      ∀ e₂ ∈ (init.run ops).trackedProcesses.entries, ∀ p, e₁.2.cognitiveRepresentation = some p →
        e₂.2.cognitiveRepresentation = some p → e₁ = e₂ := by
  have h := init_tracked.run init_valid ops
  exact ⟨h, fun e₁ he₁ e₂ he₂ p hp₁ hp₂ =>
    (init.run ops).trackedProcesses.nodupKeys.eq_of_fst_eq he₁ he₂ (h.key_of_rep he₁ he₂ hp₁ hp₂)⟩

theorem analyzeProcessBehavior_writes_own (ops : List Op) (d : String) (pid : UInt32) {info : ProcessInfo}
    {rep : Nat} (hs : (init.run ops).system.isSome)
    (hl : (init.run ops).trackedProcesses.lookup (processKey d pid) = some info)
    (hrep : info.cognitiveRepresentation = some rep) :
    ∃ a links, (init.run ops).graph.mem.objects rep = some a ∧ a.name = "MonitoredProcess:" ++ processKey d pid ∧
      a.outgoingLinks ⊆ links ∧
      ((init.run ops).analyzeProcessBehavior d pid).graph.mem.objects rep =
        some { a with attention := min 1 (1 / 2 + info.behaviorLog.length / 100), outgoingLinks := links } ∧
      (∀ b ∈ info.behaviorLog, ∃ q, ((init.run ops).analyzeProcessBehavior d pid).graph.space.findAtom
        (info.command ++ "_behavior:" ++ b) = some q ∧ q ∈ links) ∧
      (∀ q, q ≠ rep → ∀ c, (init.run ops).graph.mem.objects q = some c →
        ((init.run ops).analyzeProcessBehavior d pid).graph.mem.objects q = some c) ∧
      ∀ n q, (init.run ops).graph.space.findAtom n = some q →
        ((init.run ops).analyzeProcessBehavior d pid).graph.space.findAtom n = some q := by
  have he : (⟨processKey d pid, info⟩ : Σ _ : String, ProcessInfo) ∈ (init.run ops).trackedProcesses.entries :=
    AList.mem_lookup_iff.mp hl
  obtain ⟨a, ha, hname⟩ := Option.map_eq_some'.mp ((init_tracked.run init_valid ops).rep_named _ he rep hrep)
  obtain ⟨hnames, hothers, links, hsub, hobj, hlog⟩ := updateProcessKnowledge_spec hs hrep ha
  unfold analyzeProcessBehavior
  rw [hl]
  exact ⟨a, links, ha, hname, hsub, hobj, hlog, hothers, hnames⟩

def observedMake : World :=
  init.run [.initializeManager, .trackProcess "Ubuntu" 1 "make" 0, .monitoringTurn (fun _ => 2000) fun _ => 2000]

theorem observedMake_analyzed :
    observedMake.system.isSome ∧
      observedMake.trackedProcesses.lookup (processKey "Ubuntu" 1) =
        some ⟨"Ubuntu", 1, "make", 0, ["Behavior_2"], some 21⟩ ∧
      ∃ a links, observedMake.graph.mem.objects 21 = some a ∧ a.name = "MonitoredProcess:" ++ processKey "Ubuntu" 1 ∧
        a.outgoingLinks ⊆ links ∧
        (observedMake.analyzeProcessBehavior "Ubuntu" 1).graph.mem.objects 21 =
          some { a with attention := min 1 (1 / 2 + (["Behavior_2"] : List String).length / 100), outgoingLinks := links } ∧
        (∀ b ∈ ["Behavior_2"], ∃ q, (observedMake.analyzeProcessBehavior "Ubuntu" 1).graph.space.findAtom
          ("make" ++ "_behavior:" ++ b) = some q ∧ q ∈ links) ∧
        (∀ q, q ≠ 21 → ∀ c, observedMake.graph.mem.objects q = some c →
          (observedMake.analyzeProcessBehavior "Ubuntu" 1).graph.mem.objects q = some c) ∧
        ∀ n q, observedMake.graph.space.findAtom n = some q →
          (observedMake.analyzeProcessBehavior "Ubuntu" 1).graph.space.findAtom n = some q :=
  have hs : observedMake.system.isSome := by decide
  have hl : observedMake.trackedProcesses.lookup (processKey "Ubuntu" 1) =
      some ⟨"Ubuntu", 1, "make", 0, ["Behavior_2"], some 21⟩ := rfl
  ⟨hs, hl, @analyzeProcessBehavior_writes_own
    [.initializeManager, .trackProcess "Ubuntu" 1 "make" 0, .monitoringTurn (fun _ => 2000) fun _ => 2000]
    "Ubuntu" 1 ⟨"Ubuntu", 1, "make", 0, ["Behavior_2"], some 21⟩ 21 hs hl rfl⟩

end World

end CogWsl
