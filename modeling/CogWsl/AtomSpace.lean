import CogWsl.Atom

/-!
`AtomSpace` holds `m_atoms` (id to pointer) and `m_atomsByName` (name to pointer); a `Graph` is
an atom space with the memory its pointers reach. A hash map is an `AList` whose entry order is
its iteration order: the model leaves that order free, as `std::unordered_map` does.
-/

namespace CogWsl

section Maps

variable {κ ν : Type} [DecidableEq κ]

theorem lookup_insert_ite (m : AList (fun _ : κ => ν)) (k k' : κ) (v : ν) :
    (m.insert k' v).lookup k = if k = k' then some v else m.lookup k := by
  split
  · rename_i h; subst h; exact AList.lookup_insert m
  · exact AList.lookup_insert_ne ‹_›

theorem lookup_erase_ite (m : AList (fun _ : κ => ν)) (k k' : κ) :
    (m.erase k').lookup k = if k = k' then none else m.lookup k := by
  split
  · rename_i h; subst h; exact AList.lookup_erase _ m
  · exact AList.lookup_erase_ne ‹_›

theorem lookup_replace_ite (m : AList (fun _ : κ => ν)) (k k' : κ) (v : ν) :
    (m.replace k' v).lookup k = if k = k' then (m.lookup k).map fun _ => v else m.lookup k := by
  cases m with
  | mk l hl =>
  simp only [AList.replace, AList.lookup, List.kreplace]
  clear hl
  induction l with
  | nil => split <;> rfl
  | cons e l ih =>
    obtain ⟨a, b⟩ := e
    by_cases ha : k' = a
    · subst ha
      rw [List.lookmap_cons_some _ l (if_pos rfl)]
      by_cases hk : k = k'
      · subst hk
        simp [List.dlookup_cons_eq]
      · simp [hk, List.dlookup_cons_ne]
    · rw [List.lookmap_cons_none _ l (if_neg ha)]
      by_cases hk : k = a
      · subst hk
        simp [Ne.symm ha, List.dlookup_cons_eq]
      · simp only [List.dlookup_cons_ne _ (⟨a, b⟩ : (_ : κ) × ν) hk, ih]

end Maps

structure AtomSpace where
  atoms : AList (fun _ : Nat => Nat)
  atomsByName : AList (fun _ : String => Nat)

namespace AtomSpace

def empty : AtomSpace := ⟨∅, ∅⟩

def getAtom (s : AtomSpace) (id : Nat) : Option Nat := s.atoms.lookup id

def findAtom (s : AtomSpace) (name : String) : Option Nat := s.atomsByName.lookup name

def getAtomCount (s : AtomSpace) : Nat := s.atoms.entries.length

theorem getAtomCount_eq_keys (s : AtomSpace) : s.getAtomCount = s.atoms.keys.length := by
  simp [getAtomCount, AList.keys, List.keys]

end AtomSpace

structure Graph where
  mem : Memory
  space : AtomSpace

namespace Graph

def createAtom (g : Graph) (type : AtomType) (name : String) (truthValue confidence : ℚ) :
    Graph × Nat :=
  match g.space.atomsByName.lookup name with
  | some p => (g, p)
  | none =>
    (⟨g.mem.alloc (Atom.construct type name truthValue confidence),
      ⟨g.space.atoms.insert g.mem.nextId g.mem.nextId,
        g.space.atomsByName.insert name g.mem.nextId⟩⟩, g.mem.nextId)

def newAtomSpace (mem : Memory) : Graph :=
  let g := (Graph.mk mem AtomSpace.empty).createAtom .concept "Self" 1 1
  let g := g.1.createAtom .concept "System" 1 1
  (g.1.createAtom .concept "WSL" 1 1).1

def removeAtom (g : Graph) (id : Nat) : Graph × Bool :=
  match g.space.atoms.lookup id with
  | none => (g, false)
  | some atom =>
    let byName := match g.mem.nameOf atom with
      | some n => g.space.atomsByName.erase n
      | none => g.space.atomsByName
    (⟨g.mem, ⟨g.space.atoms.erase id, byName⟩⟩, true)

def clear (g : Graph) : Graph := ⟨g.mem, AtomSpace.empty⟩

/-- The pointers of `m_atoms` whose atom satisfies `predicate`, in iteration order. -/
def query (g : Graph) (predicate : Atom → Bool) : List Nat :=
  (g.space.atoms.entries.map Sigma.snd).filter fun p => (g.mem.objects p).any predicate

def findAtomsByType (g : Graph) (type : AtomType) : List Nat :=
  g.query fun a => a.type == type

def getAtomCountByType (g : Graph) (type : AtomType) : Nat :=
  (g.findAtomsByType type).length

def update (g : Graph) (p : Nat) (f : Atom → Atom) : Graph :=
  ⟨g.mem.modify p f, g.space⟩

def setTruthValue (g : Graph) (p : Nat) (truth confidence : ℚ) : Graph :=
  ⟨g.mem.modify p (·.setTruthValue truth confidence), g.space⟩

def setAttention (g : Graph) (p : Nat) (attention : ℚ) : Graph :=
  ⟨g.mem.modify p (·.setAttention attention), g.space⟩

def addOutgoingLink (g : Graph) (p : Nat) (atom : Option Nat) : Graph :=
  ⟨g.mem.modify p (·.addOutgoingLink atom), g.space⟩

def addIncomingLink (g : Graph) (p : Nat) (atom : Option Nat) : Graph :=
  ⟨g.mem.modify p (·.addIncomingLink atom), g.space⟩

/-- One turn of the loop of `UpdateAttentionValues`, for the atom `p`: the spread reads the live
attention of each target, the decay the attention `p` had when its turn began. -/
def attentionStep (mem : Memory) (p : Nat) : Memory :=
  match mem.objects p with
  | none => mem
  | some a =>
    let spreadMem :=
      if a.outgoingLinks.isEmpty then mem
      else a.outgoingLinks.foldl (fun m linked => m.modify linked fun b =>
        b.setAttention (b.attention + a.attention * (1 / 10) / a.outgoingLinks.length)) mem
    spreadMem.modify p (·.setAttention (max (1 / 100) (a.attention * (95 / 100))))

def updateAttentionValues (g : Graph) : Graph :=
  ⟨g.space.atoms.entries.foldl (fun mem e => attentionStep mem e.2) g.mem, g.space⟩

theorem createAtom_of_lookup {g : Graph} {name : String} {p : Nat}
    (h : g.space.atomsByName.lookup name = some p) (type : AtomType) (v c : ℚ) :
    g.createAtom type name v c = (g, p) := by
  simp [createAtom, h]

theorem createAtom_of_lookup_none {g : Graph} {name : String}
    (h : g.space.atomsByName.lookup name = none) (type : AtomType) (v c : ℚ) :
    g.createAtom type name v c =
      (⟨g.mem.alloc (Atom.construct type name v c),
        ⟨g.space.atoms.insert g.mem.nextId g.mem.nextId,
          g.space.atomsByName.insert name g.mem.nextId⟩⟩, g.mem.nextId) := by
  simp [createAtom, h]

theorem createAtom_fresh {g : Graph} {name : String} (h : g.space.findAtom name = none)
    (type : AtomType) (v c : ℚ) :
    (g.createAtom type name v c).1.space.findAtom name = some g.mem.nextId ∧
      (g.createAtom type name v c).1.mem.objects g.mem.nextId = some (Atom.construct type name v c) := by
  rw [createAtom_of_lookup_none h]
  exact ⟨AList.lookup_insert _, Memory.alloc_objects_self _ _⟩

theorem createAtom_findAtom_ne (g : Graph) {n name : String} (hne : n ≠ name) (type : AtomType)
    (v c : ℚ) : (g.createAtom type name v c).1.space.findAtom n = g.space.findAtom n := by
  unfold createAtom
  split
  · rfl
  · exact AList.lookup_insert_ne hne

theorem createAtom_findAtom_some {g : Graph} {n : String} {q : Nat} (h : g.space.findAtom n = some q)
    (type : AtomType) (name : String) (v c : ℚ) : (g.createAtom type name v c).1.space.findAtom n = some q := by
  by_cases hn : n = name
  · subst hn
    rw [createAtom_of_lookup h]
    exact h
  · exact (createAtom_findAtom_ne g hn type v c).trans h

theorem createAtom_objects {g : Graph} {p : Nat} {a : Atom} (h : g.mem.objects p = some a)
    (type : AtomType) (name : String) (v c : ℚ) : (g.createAtom type name v c).1.mem.objects p = some a := by
  cases hn : g.space.atomsByName.lookup name with
  | some q => rw [createAtom_of_lookup hn]; exact h
  | none => rw [createAtom_of_lookup_none hn]; exact (Memory.alloc_objects_of_lt _ _ (Memory.objects_lt h)).trans h

theorem update_objects_ne (g : Graph) {p q : Nat} (hq : q ≠ p) (f : Atom → Atom) :
    (g.update p f).mem.objects q = g.mem.objects q :=
  if_neg hq

theorem update_objects_self {g : Graph} {p : Nat} {a : Atom} (h : g.mem.objects p = some a) (f : Atom → Atom) :
    (g.update p f).mem.objects p = some (f a) := by
  show (g.mem.modify p f).objects p = _
  rw [Memory.modify_objects, if_pos rfl, h, Option.map_some']

theorem createAtom_lookup_self (g : Graph) (type : AtomType) (name : String) (v c : ℚ) :
    (g.createAtom type name v c).1.space.atomsByName.lookup name = some (g.createAtom type name v c).2 := by
  unfold createAtom
  split
  · assumption
  · exact AList.lookup_insert _

theorem createAtom_again (g : Graph) (type type' : AtomType) (name : String) (v c v' c' : ℚ) :
    (g.createAtom type name v c).1.createAtom type' name v' c' = g.createAtom type name v c :=
  createAtom_of_lookup (createAtom_lookup_self g type name v c) type' v' c'

theorem addOutgoingLink_truthValue (g : Graph) (p : Nat) (q : Option Nat) {r : Nat} {a : Atom}
    (h : g.mem.objects r = some a) :
    ∃ a', (g.addOutgoingLink p q).mem.objects r = some a' ∧ a'.truthValue = a.truthValue := by
  show ∃ a', (g.mem.modify p _).objects r = some a' ∧ _
  rw [Memory.modify_objects, h]
  split
  · exact ⟨_, rfl, rfl⟩
  · exact ⟨a, rfl, rfl⟩

@[simp] theorem removeAtom_mem (g : Graph) (id : Nat) : (g.removeAtom id).1.mem = g.mem := by
  unfold removeAtom
  split <;> rfl

theorem keepsNames_attentionStep (mem : Memory) (p : Nat) : mem.KeepsNames (attentionStep mem p) := by
  unfold attentionStep
  split
  · exact Memory.KeepsNames.refl mem
  · refine Memory.KeepsNames.trans ?_ (Memory.keepsNames_modify _ _ fun _ => rfl)
    split
    · exact Memory.KeepsNames.refl mem
    · apply Memory.keepsNames_foldl
      exact fun m _ => Memory.keepsNames_modify m _ fun _ => rfl

theorem keepsNames_updateAttentionValues (g : Graph) :
    g.mem.KeepsNames g.updateAttentionValues.mem := by
  apply Memory.keepsNames_foldl
  exact fun m e => keepsNames_attentionStep m e.2

end Graph

end CogWsl
