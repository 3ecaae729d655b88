import CogWsl.Integration
import CogWsl.Stages

/-!
`LearnFromProcessPatterns` gives its atoms `count / 100` and `duration / 10000` as truth values,
commented as normalized to `[0, 1]`. Nothing bounds either quotient: one process tracked for 30 s
already gives the `Duration:` atom of its command a truth value of `3/2`.
-/

namespace CogWsl

namespace World

theorem duration_ne_otherPattern (cmd other : String) :
    "Duration:" ++ cmd ≠ "Pattern:" ++ other ++ "_frequency" := by
  intro h
  have h₁ : ("Duration:" ++ cmd).data.head? = some 'D' := rfl
  have h₂ : ("Pattern:" ++ other ++ "_frequency").data.head? = some 'P' := rfl
  rw [h, h₂] at h₁
  exact absurd h₁ (by decide)

theorem duration_ne_pattern (cmd : String) : "Duration:" ++ cmd ≠ "Pattern:" ++ cmd ++ "_frequency" :=
  duration_ne_otherPattern cmd cmd

theorem duration_inj {cmd other : String} (h : "Duration:" ++ cmd = "Duration:" ++ other) :
    cmd = other :=
  String.ext (List.append_cancel_left (congrArg String.data h))

theorem pattern_inj {cmd other : String}
    (h : "Pattern:" ++ cmd ++ "_frequency" = "Pattern:" ++ other ++ "_frequency") : cmd = other :=
  String.ext (List.append_cancel_left (List.append_cancel_right (congrArg String.data h)))

section Frame

variable {durations : AList (fun _ : String => Int)}

theorem patternAtoms_findAtom_ne (g : Graph) {cmd : String} {e : Σ _ : String, Int} (hne : e.1 ≠ cmd) :
    (patternAtoms durations g e).space.findAtom ("Duration:" ++ cmd) =
      g.space.findAtom ("Duration:" ++ cmd) :=
  (Graph.createAtom_findAtom_ne _ (fun h => hne (duration_inj h).symm) _ _ _).trans
    (Graph.createAtom_findAtom_ne _ (duration_ne_otherPattern cmd e.1) _ _ _)

theorem patternAtoms_truthAt {g : Graph} {q : Nat} {t : AtomType} {v : ℚ} (h : g.TruthAt q t v)
    (e : Σ _ : String, Int) : (patternAtoms durations g e).TruthAt q t v :=
  ((h.createAtom _ _ _ _).createAtom _ _ _ _).update _ fun _ => ⟨rfl, rfl⟩

theorem foldl_patternAtoms_findAtom_eq {n : String} (L : List (Σ _ : String, Int))
    (hL : ∀ e ∈ L, ∀ g : Graph, (patternAtoms durations g e).space.findAtom n = g.space.findAtom n)
    (g : Graph) : (L.foldl (patternAtoms durations) g).space.findAtom n = g.space.findAtom n := by
  induction L generalizing g with
  | nil => rfl
  | cons e L ih =>
    rw [List.foldl_cons, ih (fun e' h' => hL e' (List.mem_cons_of_mem e h')), hL e (List.mem_cons_self e L)]

theorem foldl_patternAtoms_findAtom (L : List (Σ _ : String, Int)) {cmd : String} (hL : ∀ e ∈ L, e.1 ≠ cmd)
    (g : Graph) :
    (L.foldl (patternAtoms durations) g).space.findAtom ("Duration:" ++ cmd) =
      g.space.findAtom ("Duration:" ++ cmd) :=
  foldl_patternAtoms_findAtom_eq L (fun e he g => patternAtoms_findAtom_ne g (hL e he)) g

theorem patternAtoms_findPattern_ne (g : Graph) {cmd : String} {e : Σ _ : String, Int} (hne : e.1 ≠ cmd) :
    (patternAtoms durations g e).space.findAtom ("Pattern:" ++ cmd ++ "_frequency") =
      g.space.findAtom ("Pattern:" ++ cmd ++ "_frequency") :=
  (Graph.createAtom_findAtom_ne _ (fun h => duration_ne_otherPattern e.1 cmd h.symm) _ _ _).trans
    (Graph.createAtom_findAtom_ne _ (fun h => hne (pattern_inj h).symm) _ _ _)

theorem foldl_patternAtoms_truthAt {g : Graph} {q : Nat} {t : AtomType} {v : ℚ} (h : g.TruthAt q t v)
    (L : List (Σ _ : String, Int)) : (L.foldl (patternAtoms durations) g).TruthAt q t v := by
  induction L generalizing g with
  | nil => exact h
  | cons e L ih => exact ih (patternAtoms_truthAt h e)

theorem patternAtoms_self (g : Graph) (cmd : String) (count : Int)
    (hd : g.space.findAtom ("Duration:" ++ cmd) = none) :
    ∃ p, (patternAtoms durations g ⟨cmd, count⟩).space.findAtom ("Duration:" ++ cmd) = some p ∧
      (patternAtoms durations g ⟨cmd, count⟩).TruthAt p .memory (((durations.lookup cmd).getD 0 : ℚ) / 10000) := by
  have hd' := (Graph.createAtom_findAtom_ne g (duration_ne_pattern cmd) .rule ((count : ℚ) / 100) (4 / 5)).trans hd
  obtain ⟨hfind, hobj⟩ := Graph.createAtom_fresh hd' .memory (((durations.lookup cmd).getD 0 : ℚ) / 10000) (7 / 10)
  exact ⟨_, hfind, Graph.TruthAt.update ⟨_, hobj, rfl, rfl⟩ _ fun _ => ⟨rfl, rfl⟩⟩

theorem patternAtoms_pattern (g : Graph) (cmd : String) (count : Int)
    (hp : g.space.findAtom ("Pattern:" ++ cmd ++ "_frequency") = none) :
    ∃ p, (patternAtoms durations g ⟨cmd, count⟩).space.findAtom ("Pattern:" ++ cmd ++ "_frequency") = some p ∧
      (patternAtoms durations g ⟨cmd, count⟩).TruthAt p .rule ((count : ℚ) / 100) := by
  obtain ⟨hfind, hobj⟩ := Graph.createAtom_fresh hp .rule ((count : ℚ) / 100) (4 / 5)
  have htruth : (g.createAtom .rule ("Pattern:" ++ cmd ++ "_frequency") ((count : ℚ) / 100) (4 / 5)).1.TruthAt
      g.mem.nextId .rule ((count : ℚ) / 100) := ⟨_, hobj, rfl, rfl⟩
  exact ⟨_, (Graph.createAtom_findAtom_ne _ (duration_ne_otherPattern cmd cmd).symm _ _ _).trans hfind,
    (htruth.createAtom _ _ _ _).update _ fun _ => ⟨rfl, rfl⟩⟩

end Frame

theorem patternAtoms_duration (durations : AList (fun _ : String => Int)) (g : Graph) (cmd : String)
    (count : Int) (hd : g.space.findAtom ("Duration:" ++ cmd) = none) :
    ∃ p a, (patternAtoms durations g ⟨cmd, count⟩).space.findAtom ("Duration:" ++ cmd) = some p ∧
      (patternAtoms durations g ⟨cmd, count⟩).mem.objects p = some a ∧
      a.truthValue = ((durations.lookup cmd).getD 0 : ℚ) / 10000 := by
  obtain ⟨p, hp, a, ha, -, htruth⟩ := @patternAtoms_self durations g cmd count hd
  exact ⟨p, a, hp, ha, htruth⟩

def longProcessRun : List Op :=
  [.initializeManager, .trackProcess "Ubuntu" 1 "make" 0, .learnFromProcessPatterns fun _ => 30000]

theorem longProcess_duration_truth :
    ∃ p a, (init.run longProcessRun).graph.space.findAtom "Duration:make" = some p ∧
      (init.run longProcessRun).graph.mem.objects p = some a ∧ a.truthValue = 3 / 2 := by
  let w := init.run [.initializeManager, .trackProcess "Ubuntu" 1 "make" 0]
  have hw : w.system.isSome = true ∧ w.halted = false := by decide
  have hcounts : (commandStats w.trackedProcesses.entries fun _ => 30000).1.entries =
      [⟨"make", 1⟩] := by decide
  have havg : (commandStats w.trackedProcesses.entries fun _ => 30000).2.lookup "make" =
      some 15000 := by decide
  have hd : w.graph.space.findAtom ("Duration:" ++ "make") = none := by decide
  have hrun : (init.run longProcessRun).graph =
      patternAtoms (commandStats w.trackedProcesses.entries fun _ => 30000).2 w.graph ⟨"make", 1⟩ := by
    show (w.apply (.learnFromProcessPatterns fun _ => 30000)).graph = _
    simp only [apply, hw, learnFromProcessPatterns, hcounts]
    rfl
  obtain ⟨p, a, hp, ha, htruth⟩ := patternAtoms_duration _ _ "make" 1 hd
  rw [havg] at htruth
  rw [hrun]
  exact ⟨p, a, hp, ha, by rw [htruth]; norm_num⟩

def runningDuration (ds : List Int) : Int :=
  ds.foldl (fun v d => Int.tdiv (v + d) 2) 0

def commandDurations (tracked : List (Σ _ : String, ProcessInfo)) (clock : String → Int)
    (cmd : String) : List Int :=
  (tracked.filter (·.2.command == cmd)).map fun e => clock e.1 - e.2.startTime

theorem runningDuration_append (ds : List Int) (d : Int) :
    runningDuration (ds ++ [d]) = Int.tdiv (runningDuration ds + d) 2 := by
  simp only [runningDuration, List.foldl_append, List.foldl_cons, List.foldl_nil]

theorem commandStats_append (tracked : List (Σ _ : String, ProcessInfo)) (e : Σ _ : String, ProcessInfo)
    (clock : String → Int) :
    commandStats (tracked ++ [e]) clock =
      ((commandStats tracked clock).1.insert e.2.command
          (((commandStats tracked clock).1.lookup e.2.command).getD 0 + 1),
        (commandStats tracked clock).2.insert e.2.command
          (Int.tdiv (((commandStats tracked clock).2.lookup e.2.command).getD 0 +
            (clock e.1 - e.2.startTime)) 2)) := by
  simp only [commandStats, List.foldl_append, List.foldl_cons, List.foldl_nil]

theorem commandStats_lookup (tracked : List (Σ _ : String, ProcessInfo)) (clock : String → Int)
    (cmd : String) :
    ((commandStats tracked clock).1.lookup cmd).getD 0 = ((tracked.filter (·.2.command == cmd)).length : Int) ∧
      ((commandStats tracked clock).2.lookup cmd).getD 0 = runningDuration (commandDurations tracked clock cmd) := by
  induction tracked using List.reverseRecOn with
  | nil => exact ⟨rfl, rfl⟩
  | append_singleton tracked e ih =>
    rw [commandStats_append, commandDurations, List.filter_append, List.map_append]
    by_cases hc : e.2.command = cmd
    · subst hc
      simp only [AList.lookup_insert, Option.getD_some, List.filter_cons, beq_self_eq_true, if_true,
        List.filter_nil, List.length_append, List.length_singleton, List.map_cons, List.map_nil,
        runningDuration_append, ih.1, ih.2, commandDurations, and_true]
      omega
    · have hne : (e.2.command == cmd) = false := beq_false_of_ne hc
      simp only [AList.lookup_insert_ne (Ne.symm hc), List.filter_cons, hne, Bool.false_eq_true,
        if_false, List.filter_nil, List.map_nil, List.append_nil, ih.1, ih.2, commandDurations, and_self]

theorem commandStats_mem (tracked : List (Σ _ : String, ProcessInfo)) (clock : String → Int)
    {e : Σ _ : String, ProcessInfo} (he : e ∈ tracked) :
    ∃ n, (⟨e.2.command, n⟩ : Σ _ : String, Int) ∈ (commandStats tracked clock).1.entries := by
  have hlen : 0 < (tracked.filter (·.2.command == e.2.command)).length :=
    List.length_pos_of_mem (List.mem_filter.mpr ⟨he, beq_self_eq_true _⟩)
  cases hl : (commandStats tracked clock).1.lookup e.2.command with
  | none =>
    have h := (commandStats_lookup tracked clock e.2.command).1
    rw [hl, Option.getD_none] at h
    omega
  | some n => exact ⟨n, AList.mem_lookup_iff.mp hl⟩

theorem learnFromProcessPatterns_turn (w : World) (clock : String → Int) (hs : w.system.isSome)
    {e : Σ _ : String, ProcessInfo} (he : e ∈ w.trackedProcesses.entries) :
    ∃ (n : Int) (L₁ L₂ : List (Σ _ : String, Int)),
      (commandStats w.trackedProcesses.entries clock).1.lookup e.2.command = some n ∧
      (∀ e' ∈ L₁ ++ L₂, e'.1 ≠ e.2.command) ∧
      (w.learnFromProcessPatterns clock).graph =
        L₂.foldl (patternAtoms (commandStats w.trackedProcesses.entries clock).2)
          (patternAtoms (commandStats w.trackedProcesses.entries clock).2
            (L₁.foldl (patternAtoms (commandStats w.trackedProcesses.entries clock).2) w.graph)
            ⟨e.2.command, n⟩) := by
  let st := commandStats w.trackedProcesses.entries clock
  obtain ⟨n, hn⟩ := commandStats_mem w.trackedProcesses.entries clock he
  obtain ⟨L₁, L₂, hL⟩ := List.append_of_mem hn
  have hkeys : e.2.command ∉ (L₁ ++ L₂).keys :=
    (List.nodupKeys_cons.mp ((List.perm_nodupKeys List.perm_middle).mp (hL ▸ st.1.nodupKeys))).1
  refine ⟨n, L₁, L₂, AList.mem_lookup_iff.mpr hn, fun e' h' heq => hkeys (heq ▸ List.mem_keys_of_mem h'), ?_⟩
  simp only [learnFromProcessPatterns, hs, if_true]
  show st.1.entries.foldl _ _ = _
  rw [hL, List.foldl_append, List.foldl_cons]

theorem learnFromProcessPatterns_duration (w : World) (clock : String → Int) (hs : w.system.isSome)
    {e : Σ _ : String, ProcessInfo} (he : e ∈ w.trackedProcesses.entries)
    (hd : w.graph.space.findAtom ("Duration:" ++ e.2.command) = none) :
    ∃ p, (w.learnFromProcessPatterns clock).graph.space.findAtom ("Duration:" ++ e.2.command) = some p ∧
      (w.learnFromProcessPatterns clock).graph.TruthAt p .memory
        ((runningDuration (commandDurations w.trackedProcesses.entries clock e.2.command) : ℚ) / 10000) := by
  obtain ⟨n, L₁, L₂, -, hother, hgraph⟩ := learnFromProcessPatterns_turn w clock hs he
  obtain ⟨p, hp, htruth⟩ := @patternAtoms_self (commandStats w.trackedProcesses.entries clock).2 _
    e.2.command n
    ((foldl_patternAtoms_findAtom L₁ (fun e' h' => hother e' (List.mem_append_left L₂ h')) w.graph).trans hd)
  rw [(commandStats_lookup w.trackedProcesses.entries clock e.2.command).2] at htruth
  rw [hgraph, foldl_patternAtoms_findAtom L₂ fun e' h' => hother e' (List.mem_append_right L₁ h')]
  exact ⟨p, hp, foldl_patternAtoms_truthAt htruth L₂⟩

theorem learnFromProcessPatterns_frequency (w : World) (clock : String → Int) (hs : w.system.isSome)
    {e : Σ _ : String, ProcessInfo} (he : e ∈ w.trackedProcesses.entries)
    (hp : w.graph.space.findAtom ("Pattern:" ++ e.2.command ++ "_frequency") = none) :
    ∃ p, (w.learnFromProcessPatterns clock).graph.space.findAtom ("Pattern:" ++ e.2.command ++ "_frequency") =
        some p ∧
      (w.learnFromProcessPatterns clock).graph.TruthAt p .rule
        (((w.trackedProcesses.entries.filter (·.2.command == e.2.command)).length : ℚ) / 100) := by
  obtain ⟨n, L₁, L₂, hn, hother, hgraph⟩ := learnFromProcessPatterns_turn w clock hs he
  have hframe : ∀ L : List (Σ _ : String, Int), (∀ e' ∈ L, e'.1 ≠ e.2.command) → ∀ g : Graph,
      (L.foldl (patternAtoms (commandStats w.trackedProcesses.entries clock).2) g).space.findAtom
        ("Pattern:" ++ e.2.command ++ "_frequency") = g.space.findAtom ("Pattern:" ++ e.2.command ++ "_frequency") :=
    fun L hL => foldl_patternAtoms_findAtom_eq L fun e' he' g => patternAtoms_findPattern_ne g (hL e' he')
  obtain ⟨p, hp', htruth⟩ := @patternAtoms_pattern (commandStats w.trackedProcesses.entries clock).2 _
    e.2.command n ((hframe L₁ (fun e' h' => hother e' (List.mem_append_left L₂ h')) w.graph).trans hp)
  have hcount := (commandStats_lookup w.trackedProcesses.entries clock e.2.command).1
  rw [hn, Option.getD_some] at hcount
  have hv : (n : ℚ) / 100 = ((w.trackedProcesses.entries.filter (·.2.command == e.2.command)).length : ℚ) / 100 := by
    rw [hcount, Int.cast_natCast]
  rw [hv] at htruth
  rw [hgraph, hframe L₂ fun e' h' => hother e' (List.mem_append_right L₁ h')]
  exact ⟨p, hp', foldl_patternAtoms_truthAt htruth L₂⟩

def makeTracked : World :=
  init.run [.initializeManager, .trackProcess "Ubuntu" 1 "make" 0]

theorem makeTracked_frequency :
    makeTracked.system.isSome ∧
      (⟨"Ubuntu:1", ⟨"Ubuntu", 1, "make", 0, [], some 21⟩⟩ : Σ _ : String, ProcessInfo) ∈
        makeTracked.trackedProcesses.entries ∧
      makeTracked.graph.space.findAtom ("Pattern:" ++ "make" ++ "_frequency") = none ∧
      ∃ p, (makeTracked.learnFromProcessPatterns fun _ => 5000).graph.space.findAtom
          ("Pattern:" ++ "make" ++ "_frequency") = some p ∧
        (makeTracked.learnFromProcessPatterns fun _ => 5000).graph.TruthAt p .rule
          (((makeTracked.trackedProcesses.entries.filter (·.2.command == "make")).length : ℚ) / 100) :=
  have hs : makeTracked.system.isSome := by decide
  have hentries : makeTracked.trackedProcesses.entries = [⟨"Ubuntu:1", ⟨"Ubuntu", 1, "make", 0, [], some 21⟩⟩] := rfl
  have he : (⟨"Ubuntu:1", ⟨"Ubuntu", 1, "make", 0, [], some 21⟩⟩ : Σ _ : String, ProcessInfo) ∈
      makeTracked.trackedProcesses.entries := hentries ▸ List.mem_singleton_self _
  have hp : makeTracked.graph.space.findAtom ("Pattern:" ++ "make" ++ "_frequency") = none := by decide
  ⟨hs, he, hp, learnFromProcessPatterns_frequency makeTracked _ hs he hp⟩

def twoMakeRun : List Op :=
  [.initializeManager, .trackProcess "Ubuntu" 1 "make" 0, .trackProcess "Ubuntu" 2 "make" 10000,
    .learnFromProcessPatterns fun _ => 20000]

theorem twoMake_duration_not_mean :
    ∃ p a, (init.run twoMakeRun).graph.space.findAtom "Duration:make" = some p ∧
      (init.run twoMakeRun).graph.mem.objects p = some a ∧
      a.truthValue = (runningDuration [10000, 20000] : ℚ) / 10000 ∧ a.truthValue = 5 / 4 ∧
      a.truthValue ≠ (20000 + 10000) / 2 / 10000 ∧
      runningDuration [20000, 10000] ≠ runningDuration [10000, 20000] := by
  let w := init.run [.initializeManager, .trackProcess "Ubuntu" 1 "make" 0,
    .trackProcess "Ubuntu" 2 "make" 10000]
  have hw : w.system.isSome = true ∧ w.halted = false := by decide
  obtain ⟨e, he, hcmd⟩ : ∃ e ∈ w.trackedProcesses.entries, e.2.command = "make" := by decide
  have hd : w.graph.space.findAtom ("Duration:" ++ e.2.command) = none := by rw [hcmd]; decide
  have hds : commandDurations w.trackedProcesses.entries (fun _ => 20000) e.2.command = [10000, 20000] := by
    rw [hcmd]; decide
  have hrun : (init.run twoMakeRun).graph = (w.learnFromProcessPatterns fun _ => 20000).graph := by
    show (w.apply (.learnFromProcessPatterns fun _ => 20000)).graph = _
    simp only [apply, hw.2]
    rfl
  obtain ⟨p, hp, a, ha, -, htruth⟩ := learnFromProcessPatterns_duration w _ hw.1 he hd
  rw [hds] at htruth
  rw [hcmd] at hp
  have hvalue : runningDuration [10000, 20000] = 12500 := by decide
  rw [hrun]
  refine ⟨p, a, hp, ha, htruth, ?_, ?_, by decide⟩ <;> rw [htruth, hvalue] <;> norm_num

end World

end CogWsl
