import CogWsl.Footprint
import CogWsl.Stages

/-!
Every call of the whole system changes the graph by a run of atom-space calls: `CreateAtom`,
`RemoveAtom`, `Clear`, and writes to one atom that keep its name, its type and its incoming
links. `AddIncomingLink` is the one exception, and no code of the program calls it. So what those
calls keep, every run of the system keeps: the agreement of the two maps of the atom space, and
the absence of incoming links.
-/

namespace CogWsl

open Relation

namespace Graph

inductive SpaceCall : Graph → Graph → Prop
  | createAtom (g : Graph) (type : AtomType) (name : String) (v c : ℚ) :
      SpaceCall g (g.createAtom type name v c).1
  | update (g : Graph) (p : Nat) (f : Atom → Atom)
      (hf : ∀ a, (f a).name = a.name ∧ (f a).type = a.type ∧ (f a).incomingLinks = a.incomingLinks ∧
        (a.outgoingLinks.Nodup → (f a).outgoingLinks.Nodup)) :
      SpaceCall g (g.update p f)
  | removeAtom (g : Graph) (id : Nat) : SpaceCall g (g.removeAtom id).1
  | clear (g : Graph) : SpaceCall g g.clear

theorem spaceCall_writes : Writes SpaceCall where
  createAtom := SpaceCall.createAtom
  setTruthValue g p t c := .update g p (·.setTruthValue t c) fun _ => ⟨rfl, rfl, rfl, id⟩
  setFullAttention g p := .update g p (·.setAttention 1) fun _ => ⟨rfl, rfl, rfl, id⟩
  addOutgoingLink g p q := .update g p (·.addOutgoingLink q) fun _ => ⟨rfl, rfl, rfl, (Atom.addLink_nodup · q)⟩

theorem createAtom_spaceCalls (g : Graph) (type : AtomType) (name : String) (v c : ℚ) :
    ReflTransGen SpaceCall g (g.createAtom type name v c).1 :=
  .single (.createAtom g type name v c)

theorem addOutgoingLink_spaceCalls (g : Graph) (p : Nat) (q : Option Nat) :
    ReflTransGen SpaceCall g (g.addOutgoingLink p q) :=
  .single (spaceCall_writes.addOutgoingLink g p q)

theorem SpaceCall.spaceStep {g g' : Graph} (h : SpaceCall g g') : SpaceStep g g' := by
  cases h with
  | createAtom type name v c => exact .createAtom g type name v c
  | update p f hf => exact .write g _ (Memory.keepsNames_modify _ _ fun a => (hf a).1)
  | removeAtom id => exact .removeAtom g id
  | clear => exact .clear g

theorem SpaceCall.incomingStep {g g' : Graph} (h : SpaceCall g g') : IncomingStep g g' := by
  cases h with
  | createAtom type name v c => exact fun hg => noIncoming_createAtom hg type name v c
  | update p f hf => exact fun hg => hg.modify p fun a => (hf a).2.2.1
  | removeAtom id => exact fun hg => (removeAtom_mem g id).symm ▸ hg
  | clear => exact id

inductive Grows : Graph → Graph → Prop
  | createAtom (g : Graph) (type : AtomType) (name : String) (v c : ℚ) :
      Grows g (g.createAtom type name v c).1
  | update (g : Graph) (p : Nat) (f : Atom → Atom)
      (hf : ∀ a, (f a).name = a.name ∧ (f a).type = a.type ∧ (f a).incomingLinks = a.incomingLinks ∧
        (a.outgoingLinks.Nodup → (f a).outgoingLinks.Nodup)) :
      Grows g (g.update p f)

theorem Grows.spaceCall {g g' : Graph} (h : Grows g g') : SpaceCall g g' := by
  cases h with
  | createAtom type name v c => exact .createAtom g type name v c
  | update p f hf => exact .update g p f hf

theorem spaceCalls_of_grows {g g' : Graph} (h : ReflTransGen Grows g g') : ReflTransGen SpaceCall g g' :=
  h.mono fun _ _ => Grows.spaceCall

theorem findAtom_of_grows {g g' : Graph} (h : ReflTransGen Grows g g') {n : String} {p : Nat}
    (hp : g.space.findAtom n = some p) : g'.space.findAtom n = some p := by
  induction h with
  | refl => exact hp
  | tail _ hs ih =>
    cases hs with
    | createAtom type name v c => exact createAtom_findAtom_some ih type name v c
    | update => exact ih

theorem setAttention_grows (g : Graph) (p : Nat) (v : Atom → ℚ) :
    ReflTransGen Grows g (g.update p fun a => a.setAttention (v a)) :=
  .single (.update g p _ fun _ => ⟨rfl, rfl, rfl, id⟩)

theorem attentionStep_grows (mem : Memory) (s : AtomSpace) (p : Nat) :
    ReflTransGen Grows ⟨mem, s⟩ ⟨attentionStep mem p, s⟩ := by
  unfold attentionStep
  split
  · exact .refl
  · dsimp only
    split
    · exact .single (.update _ p _ fun _ => ⟨rfl, rfl, rfl, id⟩)
    · exact (reach_foldl (fun m => (⟨m, s⟩ : Graph))
        (fun m q => .single (.update ⟨m, s⟩ q _ fun _ => ⟨rfl, rfl, rfl, id⟩)) _ _).tail
        (.update _ p _ fun _ => ⟨rfl, rfl, rfl, id⟩)

theorem updateAttentionValues_grows (g : Graph) :
    ReflTransGen Grows g g.updateAttentionValues :=
  reach_foldl (fun m => (⟨m, g.space⟩ : Graph))
    (fun m (e : Σ _ : Nat, Nat) => attentionStep_grows m g.space e.2) g.space.atoms.entries g.mem

theorem newAtomSpace_spaceCalls (g : Graph) : ReflTransGen SpaceCall g (newAtomSpace g.mem) :=
  .head (.clear g) <| (createAtom_spaceCalls _ _ _ _ _).trans <|
    (createAtom_spaceCalls _ _ _ _ _).trans (createAtom_spaceCalls _ _ _ _ _)

theorem CodeWrite.grows {g g' : Graph} (h : CodeWrite g g') : ReflTransGen Grows g g' := by
  cases h with
  | createAtom type name v c => exact .single (.createAtom g type name v c)
  | update p f hf => exact .single (.update g p f hf)
  | updateAttentionValues => exact updateAttentionValues_grows g

theorem grows_of_codeWrites {g g' : Graph} (h : ReflTransGen CodeWrite g g') : ReflTransGen Grows g g' :=
  h.lift' id fun _ _ => CodeWrite.grows

theorem spaceCalls_of_codeWrites {g g' : Graph} (h : ReflTransGen CodeWrite g g') :
    ReflTransGen SpaceCall g g' :=
  spaceCalls_of_grows (grows_of_codeWrites h)

end Graph

open Graph (SpaceCall Grows CodeWrite createAtom_spaceCalls spaceCalls_of_grows grows_of_codeWrites
  spaceCalls_of_codeWrites)

/-- `AddIncomingLink`, the one atom-space call that no code of the program makes. -/
def Op.addsIncomingLink : Op → Bool
  | .addIncomingLink _ _ => true
  | _ => false

/-- The calls that take atoms out of the atom space: `RemoveAtom` and `Clear`, and `Initialize`,
which puts a new atom space in place of the old one, also when its body throws later. -/
def Op.removesAtoms : Op → Bool
  | .removeAtom _ | .clear | .initializeManager | .initializeManagerThrows _ => true
  | _ => false

namespace World

theorem initStep_spaceCalls (w : World) (c : InitCall) : ReflTransGen SpaceCall w.graph (w.initStep c).graph := by
  cases c with
  | assignSystem => exact Graph.newAtomSpace_spaceCalls w.graph
  | _ => exact spaceCalls_of_codeWrites (w.initStep_codeWrites nofun)

theorem initCalls_spaceCalls (w : World) (cs : List InitCall) :
    ReflTransGen SpaceCall w.graph (cs.foldl initStep w).graph :=
  Graph.reach_foldl World.graph (fun w c => initStep_spaceCalls w c) cs w

theorem initializeManager_spaceCalls (w : World) :
    ReflTransGen SpaceCall w.graph w.initializeManager.1.graph := by
  cases h : w.initialized
  · rw [initializeManager_eq h]
    exact initCalls_spaceCalls { w with initialized := true } initializeCalls
  · simp only [initializeManager, h, if_true]
    exact .refl

theorem initializeManagerThrows_spaceCalls (w : World) (k : Fin 10) :
    ReflTransGen SpaceCall w.graph (w.initializeManagerThrows k).1.graph := by
  unfold initializeManagerThrows
  split
  · exact .refl
  · exact initCalls_spaceCalls { w with initialized := true } (initializeCalls.take k)

theorem apply_grows (w : World) {o : Op} (ho : o.removesAtoms = false ∧ o.addsIncomingLink = false) :
    ReflTransGen Grows w.graph (w.apply o).graph := by
  cases hc : o.codeWrites
  · unfold apply
    split
    · exact .refl
    · cases o with
      | setAttention p v => exact Graph.setAttention_grows _ p fun _ => v
      | removeAtom | clear | initializeManager | initializeManagerThrows | addIncomingLink =>
        simp [Op.removesAtoms, Op.addsIncomingLink] at ho
      | _ => cases hc
  · exact grows_of_codeWrites (w.apply_codeWrites hc)

theorem apply_spaceCalls (w : World) {o : Op} (ho : o.addsIncomingLink = false) :
    ReflTransGen SpaceCall w.graph (w.apply o).graph := by
  cases hr : o.removesAtoms
  · exact spaceCalls_of_grows (apply_grows w ⟨hr, ho⟩)
  · unfold apply
    split
    · exact .refl
    · cases o with
      | removeAtom => exact .single (.removeAtom _ _)
      | clear => exact .single (.clear _)
      | initializeManager => exact initializeManager_spaceCalls _
      | initializeManagerThrows => exact initializeManagerThrows_spaceCalls _ _
      | _ => simp [Op.removesAtoms] at hr

theorem run_spaceCalls (w : World) (ops : List Op) (hops : ∀ o ∈ ops, o.addsIncomingLink = false) :
    ReflTransGen SpaceCall w.graph (w.run ops).graph := by
  induction ops generalizing w with
  | nil => exact .refl
  | cons o ops ih =>
    exact (apply_spaceCalls w (hops o (List.mem_cons_self o ops))).trans
      (ih _ fun o' h' => hops o' (List.mem_cons_of_mem o h'))

theorem apply_findAtom (w : World) {o : Op} (ho : o.removesAtoms = false) {n : String} {p : Nat}
    (hp : w.graph.space.findAtom n = some p) : (w.apply o).graph.space.findAtom n = some p := by
  cases hi : o.addsIncomingLink
  · exact Graph.findAtom_of_grows (apply_grows w ⟨ho, hi⟩) hp
  · obtain ⟨q, r, rfl⟩ : ∃ q r, o = .addIncomingLink q r := by
      cases o <;> first | exact ⟨_, _, rfl⟩ | cases hi
    unfold apply
    split <;> exact hp

theorem run_findAtom (w : World) (ops : List Op) (hops : ∀ o ∈ ops, o.removesAtoms = false) {n : String}
    {p : Nat} (hp : w.graph.space.findAtom n = some p) : (w.run ops).graph.space.findAtom n = some p := by
  induction ops generalizing w with
  | nil => exact hp
  | cons o ops ih =>
    exact ih _ (fun o' h' => hops o' (List.mem_cons_of_mem o h'))
      (apply_findAtom w (hops o (List.mem_cons_self o ops)) hp)

def xBound : World :=
  init.run [.createAtom .concept "X" 1 1]

theorem xBound_stays :
    (∀ o ∈ [Op.updateAttentionValues, .addIncomingLink 1 (some 1), .createAtom .goal "Y" 1 1],
      o.removesAtoms = false) ∧ xBound.graph.space.findAtom "X" = some 1 ∧
      (xBound.run [.updateAttentionValues, .addIncomingLink 1 (some 1), .createAtom .goal "Y" 1 1]).graph.space.findAtom
        "X" = some 1 :=
  have hops : ∀ o ∈ [Op.updateAttentionValues, .addIncomingLink 1 (some 1), .createAtom .goal "Y" 1 1],
      o.removesAtoms = false := by decide
  have hp : xBound.graph.space.findAtom "X" = some 1 := rfl
  ⟨hops, hp, run_findAtom xBound _ hops hp⟩

def busyRun : List Op :=
  [.initializeManager, .processCreate "Ubuntu" 1 "make", .distroEvent "Ubuntu" "start" "",
    .stage "SystemMonitor" .plan, .stage "SystemMonitor" .act, .updateSystem]

theorem busyRun_spaceCalls :
    (∀ o ∈ busyRun, o.addsIncomingLink = false) ∧ ReflTransGen SpaceCall init.graph (init.run busyRun).graph :=
  ⟨by decide, run_spaceCalls init busyRun (by decide)⟩

theorem run_noIncoming (w : World) (ops : List Op) (hops : ∀ o ∈ ops, o.addsIncomingLink = false)
    (hw : w.graph.mem.NoIncoming) : (w.run ops).graph.mem.NoIncoming := by
  induction ops generalizing w with
  | nil => exact hw
  | cons o ops ih =>
    exact ih _ (fun o' h' => hops o' (List.mem_cons_of_mem o h'))
      (Graph.IncomingStep.of_reach ((apply_spaceCalls w (hops o (List.mem_cons_self o ops))).mono
        fun _ _ h => h.incomingStep) hw)

theorem init_run_noIncoming (ops : List Op) (hops : ∀ o ∈ ops, o.addsIncomingLink = false) :
    (init.run ops).graph.mem.NoIncoming :=
  run_noIncoming init ops hops fun _ _ h => nomatch h

theorem busyRun_noIncoming :
    (∀ o ∈ busyRun, o.addsIncomingLink = false) ∧ (init.run busyRun).graph.mem.NoIncoming :=
  ⟨by decide, init_run_noIncoming busyRun (by decide)⟩

end World

end CogWsl
