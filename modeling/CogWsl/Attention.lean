import CogWsl.Footprint

/-!
The attention floor: every atom object keeps attention at least `0.01` along every run, as long as
the callers outside the code pass at least that much to `SetAttention`. The spreading pass of
`UpdateAttentionValues` only adds to a target because every sender is itself above the floor, so
the floor is proved for whole runs at once.
-/

namespace CogWsl

open Relation

namespace Memory

def AttentionFloor (mem : Memory) : Prop :=
  ∀ p a, mem.objects p = some a → 1 / 100 ≤ a.attention

theorem init_attentionFloor : init.AttentionFloor := fun _ _ h => nomatch h

theorem AttentionFloor.alloc {mem : Memory} (h : mem.AttentionFloor) {a : Atom}
    (ha : 1 / 100 ≤ a.attention) : (mem.alloc a).AttentionFloor := by
  intro q b hq
  rw [alloc_objects] at hq
  split at hq
  · cases hq; exact ha
  · exact h q b hq

theorem AttentionFloor.modify {mem : Memory} (h : mem.AttentionFloor) (p : Nat) {f : Atom → Atom}
    (hf : ∀ a, 1 / 100 ≤ a.attention → 1 / 100 ≤ (f a).attention) :
    (mem.modify p f).AttentionFloor := by
  intro q b hq
  rw [modify_objects] at hq
  split at hq
  · obtain ⟨a, ha, rfl⟩ := Option.map_eq_some'.mp hq
    exact hf a (h q a ha)
  · exact h q b hq

theorem AttentionFloor.foldl {α : Type} {step : Memory → α → Memory}
    (hs : ∀ m x, m.AttentionFloor → (step m x).AttentionFloor) (l : List α) {mem : Memory}
    (h : mem.AttentionFloor) : (l.foldl step mem).AttentionFloor :=
  List.foldlRecOn (motive := AttentionFloor) l step mem h fun m hm x _ => hs m x hm

end Memory

namespace Graph

def FloorStep (g g' : Graph) : Prop :=
  g.mem.AttentionFloor → g'.mem.AttentionFloor

theorem FloorStep.refl (g : Graph) : FloorStep g g := id

theorem FloorStep.trans {g₁ g₂ g₃ : Graph} (h₁ : FloorStep g₁ g₂) (h₂ : FloorStep g₂ g₃) :
    FloorStep g₁ g₃ := h₂ ∘ h₁

theorem FloorStep.of_mem {g g' : Graph} (h : g'.mem = g.mem) : FloorStep g g' := fun hg => h ▸ hg

theorem FloorStep.of_reach {g g' : Graph} (h : ReflTransGen FloorStep g g') : FloorStep g g' := by
  induction h with
  | refl => exact .refl _
  | tail _ hs ih => exact ih.trans hs

theorem update_floorStep (g : Graph) (p : Nat) {f : Atom → Atom}
    (hf : ∀ a, 1 / 100 ≤ a.attention → 1 / 100 ≤ (f a).attention) : FloorStep g (g.update p f) :=
  fun h => h.modify p hf

theorem createAtom_floorStep (g : Graph) (type : AtomType) (name : String) (v c : ℚ) :
    FloorStep g (g.createAtom type name v c).1 := fun h => by
  unfold createAtom
  split
  · exact h
  · exact h.alloc (by norm_num [Atom.construct])

theorem newAtomSpace_floorStep (g : Graph) : FloorStep g (newAtomSpace g.mem) := fun h =>
  ((createAtom_floorStep ⟨g.mem, .empty⟩ _ _ _ _).trans <| (createAtom_floorStep _ _ _ _ _).trans
    (createAtom_floorStep _ _ _ _ _)) h

theorem attentionStep_floor {mem : Memory} (h : mem.AttentionFloor) (p : Nat) :
    (attentionStep mem p).AttentionFloor := by
  unfold attentionStep
  split
  · exact h
  · rename_i a ha
    have spread : 0 ≤ a.attention * (1 / 10) / a.outgoingLinks.length :=
      div_nonneg (mul_nonneg (by linarith [h p a ha]) (by norm_num)) (Nat.cast_nonneg _)
    refine Memory.AttentionFloor.modify ?_ p fun _ _ => le_max_left _ _
    split
    · exact h
    · refine Memory.AttentionFloor.foldl (fun m _ hm => hm.modify _ fun b hb => ?_) _ h
      simp only [Atom.setAttention_attention]
      linarith

theorem updateAttentionValues_floorStep (g : Graph) : FloorStep g g.updateAttentionValues :=
  fun h => Memory.AttentionFloor.foldl (fun _ e hm => attentionStep_floor hm e.2) _ h

theorem CodeWrite.floorStep {g g' : Graph} (h : CodeWrite g g') : FloorStep g g' := by
  cases h with
  | createAtom type name v c => exact createAtom_floorStep g type name v c
  | update p f _ hfloor => exact update_floorStep g p hfloor
  | updateAttentionValues => exact updateAttentionValues_floorStep g

theorem floorStep_of_codeWrites {g g' : Graph} (h : ReflTransGen CodeWrite g g') : FloorStep g g' :=
  FloorStep.of_reach (h.mono fun _ _ => CodeWrite.floorStep)

end Graph

open Graph (FloorStep floorStep_of_codeWrites)

namespace World

theorem initStep_floorStep (w : World) (c : InitCall) : FloorStep w.graph (w.initStep c).graph := by
  cases c with
  | assignSystem => exact Graph.newAtomSpace_floorStep w.graph
  | _ => exact floorStep_of_codeWrites (w.initStep_codeWrites nofun)

theorem initCalls_floorStep (w : World) (cs : List InitCall) : FloorStep w.graph (cs.foldl initStep w).graph :=
  FloorStep.of_reach (Graph.reach_foldl World.graph (fun w c => .single (initStep_floorStep w c)) cs w)

theorem initializeManager_floorStep (w : World) : FloorStep w.graph w.initializeManager.1.graph := by
  cases h : w.initialized
  · rw [initializeManager_eq h]
    exact initCalls_floorStep { w with initialized := true } initializeCalls
  · simp only [initializeManager, h, if_true]
    exact .refl _

theorem initializeManagerThrows_floorStep (w : World) (k : Fin 10) :
    FloorStep w.graph (w.initializeManagerThrows k).1.graph := by
  unfold initializeManagerThrows
  split
  · exact .refl _
  · exact initCalls_floorStep { w with initialized := true } (initializeCalls.take k)

end World

namespace Op

/-- What the code asks of its callers: a value passed to `SetAttention` from outside is at least
`0.01`. -/
def Allowed : Op → Prop
  | .setAttention _ v => 1 / 100 ≤ v
  | _ => True

end Op

namespace World

theorem apply_floorStep (w : World) {o : Op} (ho : o.Allowed) :
    FloorStep w.graph (w.apply o).graph := by
  cases hc : o.codeWrites
  · unfold apply
    split
    · exact .refl _
    · cases o with
      | removeAtom => exact .of_mem (Graph.removeAtom_mem _ _)
      | clear => exact .refl _
      | setAttention p v => exact Graph.update_floorStep _ p fun _ _ => ho
      | addIncomingLink => exact Graph.update_floorStep _ _ fun _ ha => ha
      | initializeManager => exact initializeManager_floorStep _
      | initializeManagerThrows => exact initializeManagerThrows_floorStep _ _
      | _ => cases hc
  · exact floorStep_of_codeWrites (w.apply_codeWrites hc)

theorem run_floorStep (w : World) {ops : List Op} (hops : ∀ o ∈ ops, o.Allowed) :
    FloorStep w.graph (w.run ops).graph := by
  induction ops generalizing w with
  | nil => exact .refl _
  | cons o ops ih =>
    exact (w.apply_floorStep (hops o (.head _))).trans (ih _ fun o' h => hops o' (.tail _ h))

theorem attention_floor (ops : List Op) (hops : ∀ o ∈ ops, o.Allowed) :
    ∀ p a, (init.run ops).graph.mem.objects p = some a → 1 / 100 ≤ a.attention :=
  init.run_floorStep hops Memory.init_attentionFloor

theorem attention_floor_initialize_spread :
    (∀ o ∈ [Op.initializeManager, .setAttention 2 (1 / 100), .updateAttentionValues, .updateSystem],
      o.Allowed) ∧
    ∀ p a, (init.run [.initializeManager, .setAttention 2 (1 / 100), .updateAttentionValues, .updateSystem]).graph.mem.objects p = some a →
      1 / 100 ≤ a.attention :=
  have h : ∀ o ∈ [Op.initializeManager, .setAttention 2 (1 / 100), .updateAttentionValues, .updateSystem],
      o.Allowed := by simp [Op.Allowed]
  ⟨h, attention_floor _ h⟩

end World

end CogWsl
