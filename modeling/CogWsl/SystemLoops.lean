import CogWsl.Registry

/-!
The two loops of `CognitiveSystem` over its registry. `BroadcastMessage` hands every agent that
has the atom space one memory, the same atom for all of them: the first `ReceiveMessage` creates
it and the others find it by name. `UpdateSystem` tests every `Goal` atom for the name
`OptimizePerformance`; names are unique in a coherent atom space, so it resumes at most once.
-/

namespace CogWsl

namespace CognitiveSystem

def systemMemory (g : Graph) (message : String) : Graph × Nat :=
  g.createAtom .memory ("Message:" ++ "System" ++ ":" ++ message) 1 (9 / 10)

def delivered (p : Nat) (ag : Agent) : Agent :=
  if ag.hasSpace then { ag with memories := ag.memories ++ [p] } else ag

section Broadcast

variable {g : Graph} {s : CognitiveSystem} {message : String}

theorem receiveMessage_system {g' : Graph} (hg : g' = g ∨ g' = (systemMemory g message).1) (ag : Agent) :
    ((ag.receiveMessage g' "System" message).1 = g ∨
        (ag.receiveMessage g' "System" message).1 = (systemMemory g message).1) ∧
      (ag.receiveMessage g' "System" message).2 = delivered (systemMemory g message).2 ag := by
  have hm : g'.createAtom .memory ("Message:" ++ "System" ++ ":" ++ message) 1 (9 / 10) =
      systemMemory g message := by
    rcases hg with rfl | rfl
    · rfl
    · exact Graph.createAtom_again _ _ _ _ _ _ _ _
  unfold Agent.receiveMessage delivered
  split
  · rw [hm]
    exact ⟨.inr rfl, rfl⟩
  · exact ⟨hg, rfl⟩

structure DeliveredTo (g : Graph) (s : CognitiveSystem) (message : String) (done : List String)
    (r : Graph × CognitiveSystem) : Prop where
  graph : r.1 = g ∨ r.1 = (systemMemory g message).1
  keys : r.2.agents.keys = s.agents.keys
  lookup : ∀ name, r.2.agents.lookup name =
    if name ∈ done then (s.agents.lookup name).map (delivered (systemMemory g message).2)
    else s.agents.lookup name
  configuration : r.2.configuration = s.configuration
  initialized : r.2.initialized = s.initialized

theorem deliveredTo_nil : DeliveredTo g s message [] (g, s) :=
  ⟨.inl rfl, rfl, fun _ => rfl, rfl, rfl⟩

theorem DeliveredTo.step {done : List String} {r : Graph × CognitiveSystem} {name : String}
    (h : DeliveredTo g s message done r) (hn : name ∉ done) :
    DeliveredTo g s message (done ++ [name])
      (withAgent r.1 r.2 name fun g ag => ag.receiveMessage g "System" message) := by
  have hmem : ∀ n, n ≠ name → (n ∈ done ++ [name] ↔ n ∈ done) := fun n hne => by simp [hne]
  unfold withAgent
  split
  · next hl =>
    refine ⟨h.graph, h.keys, fun n => ?_, h.configuration, h.initialized⟩
    by_cases hne : n = name
    · subst hne
      have hs : s.agents.lookup n = none := by simpa [hn, h.lookup n] using hl
      simp [hs, hl]
    · rw [h.lookup n, if_congr (hmem n hne) rfl rfl]
  · next ag hl =>
    have hs : s.agents.lookup name = some ag := by simpa [hn, h.lookup name] using hl
    have hr := receiveMessage_system h.graph ag
    refine ⟨hr.1, (AList.keys_replace _ _ _).trans h.keys, fun n => ?_, h.configuration, h.initialized⟩
    rw [lookup_replace_ite, hr.2]
    by_cases hne : n = name
    · subst hne
      simp [hl, hs]
    · rw [if_neg hne, h.lookup n, if_congr (hmem n hne) rfl rfl]

theorem DeliveredTo.foldl {done : List String} {r : Graph × CognitiveSystem} (h : DeliveredTo g s message done r)
    {names : List String} (hnd : names.Nodup) (hdisj : ∀ n ∈ names, n ∉ done) :
    DeliveredTo g s message (done ++ names)
      (names.foldl (fun r name => withAgent r.1 r.2 name fun g ag => ag.receiveMessage g "System" message) r) := by
  induction names generalizing done r with
  | nil => simpa using h
  | cons n ns ih =>
    obtain ⟨hn, hns⟩ := List.nodup_cons.mp hnd
    have h' := h.step (hdisj n (List.mem_cons_self n ns))
    rw [List.foldl_cons, ← List.singleton_append, ← List.append_assoc]
    refine ih h' hns fun m hm => ?_
    simp only [List.mem_append, List.mem_singleton, not_or]
    exact ⟨hdisj m (List.mem_cons_of_mem n hm), fun hmn => hn (hmn ▸ hm)⟩

theorem broadcastMessage_delivers (g : Graph) (s : CognitiveSystem) (message : String) :
    ((s.broadcastMessage g message).1 = g ∨ (s.broadcastMessage g message).1 = (systemMemory g message).1) ∧
      (s.broadcastMessage g message).2.agents.keys = s.agents.keys ∧
      (∀ name, (s.broadcastMessage g message).2.agents.lookup name =
        (s.agents.lookup name).map (delivered (systemMemory g message).2)) ∧
      (s.broadcastMessage g message).2.configuration = s.configuration ∧
      (s.broadcastMessage g message).2.initialized = s.initialized := by
  have h := (@deliveredTo_nil g s message).foldl s.agents.nodupKeys fun _ _ h => nomatch h
  refine ⟨h.graph, h.keys, fun name => (h.lookup name).trans ?_, h.configuration, h.initialized⟩
  rw [List.nil_append]
  split
  · rfl
  · rename_i hk
    rw [AList.lookup_eq_none.mpr (fun hm => hk (AList.mem_keys.mpr hm)), Option.map_none']

end Broadcast

theorem foldl_of_forall_not {α σ : Type} {f : σ → α → σ} {P : α → Prop}
    (hf : ∀ s a, ¬P a → f s a = s) {l : List α} (hl : ∀ a ∈ l, ¬P a) (s : σ) : l.foldl f s = s := by
  induction l with
  | nil => rfl
  | cons a l ih =>
    rw [List.foldl_cons, hf s a (hl a (List.mem_cons_self a l))]
    exact ih fun b hb => hl b (List.mem_cons_of_mem a hb)

theorem foldl_at_most_once {α σ : Type} {f : σ → α → σ} {P : α → Prop}
    (hf : ∀ s a, ¬P a → f s a = s) {l : List α} (hl : l.Nodup)
    (hP : ∀ a ∈ l, ∀ b ∈ l, P a → P b → a = b) (s : σ) :
    l.foldl f s = s ∨ ∃ a, P a ∧ l.foldl f s = f s a := by
  induction l generalizing s with
  | nil => exact .inl rfl
  | cons a l ih =>
    obtain ⟨ha, hl⟩ := List.nodup_cons.mp hl
    rw [List.foldl_cons]
    by_cases hpa : P a
    · refine .inr ⟨a, hpa, foldl_of_forall_not hf (fun b hb hpb => ha ?_) _⟩
      exact hP b (List.mem_cons_of_mem a hb) a (List.mem_cons_self a l) hpb hpa ▸ hb
    · rw [hf s a hpa]
      exact ih hl (fun x hx y hy => hP x (List.mem_cons_of_mem a hx) y (List.mem_cons_of_mem a hy)) s

theorem findAtomsByType_unique {g : Graph} (hg : g.Coherent) (type : AtomType) :
    (g.findAtomsByType type).Nodup ∧ ∀ p ∈ g.findAtomsByType type, ∀ q ∈ g.findAtomsByType type,
      ∀ n, g.mem.nameOf p = some n → g.mem.nameOf q = some n → p = q := by
  have hvals : g.space.atoms.entries.map Sigma.snd = g.space.atoms.keys :=
    List.map_congr_left fun e he => (hg.atoms_agree e.1 e.2 (AList.mem_lookup_iff.mpr he)).1
  have hsub : ∀ p ∈ g.findAtomsByType type, g.space.atoms.lookup p = some p := fun p hp =>
    hg.lookup_of_mem (List.mem_filter.mp hp).1
  refine ⟨List.Nodup.filter _ (hvals ▸ g.space.atoms.nodupKeys), fun p hp q hq n hpn hqn => ?_⟩
  exact hg.name_injective (hsub p hp) (hsub q hq) hpn hqn

theorem updateSystem_at_most_once {g : Graph} (hg : g.Coherent) (s : CognitiveSystem) :
    (updateSystem g s).2 = s ∨ (updateSystem g s).2 = { s with agents := resumeFirstInactive s.agents } := by
  unfold updateSystem
  split
  · dsimp only
    have hg' := (Graph.updateAttentionValues_step g).coherent hg
    obtain ⟨hnd, huniq⟩ := findAtomsByType_unique hg' .goal
    have hf : ∀ s goal, ¬g.updateAttentionValues.mem.nameOf goal = some "OptimizePerformance" →
        updateGoal g.updateAttentionValues s goal = s := fun _ _ h => if_neg h
    rcases foldl_at_most_once hf hnd (fun p hp q hq => huniq p hp q hq _) s with h | ⟨goal, hgoal, h⟩
    · exact .inl h
    · rw [h, updateGoal, if_pos hgoal]
      dsimp only
      split
      · exact .inr rfl
      · exact .inl rfl
  · exact .inl rfl

end CognitiveSystem

namespace World

theorem init_run_updateSystem (ops : List Op) :
    ((init.run ops).apply .updateSystem).system = (init.run ops).system ∨
      ((init.run ops).apply .updateSystem).system =
        (init.run ops).system.map fun s => { s with agents := CognitiveSystem.resumeFirstInactive s.agents } := by
  have hg := (init_valid.run ops).coherent
  unfold World.apply
  split
  · exact .inl rfl
  · dsimp only
    unfold withSystem
    split
    · exact .inl rfl
    · rename_i s hs
      rw [hs]
      rcases CognitiveSystem.updateSystem_at_most_once hg s with h | h
      · exact .inl (congrArg some h)
      · exact .inr (congrArg some h)

end World

end CogWsl
