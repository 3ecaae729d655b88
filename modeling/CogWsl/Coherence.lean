import CogWsl.AtomSpace
import Mathlib.Logic.Relation

/-!
The representation invariant of `AtomSpace`: `m_atoms` and `m_atomsByName` index one set of
atoms, by id and by name.
-/

namespace CogWsl

namespace Graph

structure Coherent (g : Graph) : Prop where
  atoms_agree : ∀ id p, g.space.atoms.lookup id = some p →
    p = id ∧ ∃ n, g.mem.nameOf p = some n ∧ g.space.atomsByName.lookup n = some p
  byName_agree : ∀ n p, g.space.atomsByName.lookup n = some p →
    g.mem.nameOf p = some n ∧ g.space.atoms.lookup p = some p

variable {g : Graph}

theorem Coherent.lt_of_atoms (hg : g.Coherent) {id p : Nat}
    (h : g.space.atoms.lookup id = some p) : p < g.mem.nextId := by
  obtain ⟨-, n, hn, -⟩ := hg.atoms_agree id p h
  exact Memory.nameOf_lt hn

theorem Coherent.fresh_not_mem (hg : g.Coherent) : g.space.atoms.lookup g.mem.nextId = none := by
  cases h : g.space.atoms.lookup g.mem.nextId with
  | none => rfl
  | some p =>
    obtain ⟨rfl, -⟩ := hg.atoms_agree _ _ h
    exact absurd (hg.lt_of_atoms h) (lt_irrefl _)

theorem createAtom_coherent (hg : g.Coherent) (type : AtomType) (name : String) (v c : ℚ) :
    (g.createAtom type name v c).1.Coherent := by
  cases hn : g.space.atomsByName.lookup name with
  | some p => rwa [createAtom_of_lookup hn]
  | none =>
    rw [createAtom_of_lookup_none hn]
    constructor
    · intro id p h
      simp only [lookup_insert_ite, Memory.nameOf_alloc] at h ⊢
      split at h
      next hid => cases h; exact ⟨hid.symm, name, by simp [Atom.construct], by simp⟩
      next =>
        obtain ⟨rfl, n, h1, h2⟩ := hg.atoms_agree id p h
        have hne : n ≠ name := by rintro rfl; simp [hn] at h2
        exact ⟨rfl, n, by simp [h1, (Memory.nameOf_lt h1).ne], by simp [hne, h2]⟩
    · intro n p h
      simp only [lookup_insert_ite, Memory.nameOf_alloc] at h ⊢
      split at h
      next hn' => cases h; simp [hn', Atom.construct]
      next =>
        obtain ⟨h1, h2⟩ := hg.byName_agree n p h
        simp [h1, h2, (Memory.nameOf_lt h1).ne]

theorem removeAtom_coherent (hg : g.Coherent) (id : Nat) : (g.removeAtom id).1.Coherent := by
  unfold removeAtom
  cases hid : g.space.atoms.lookup id with
  | none => exact hg
  | some p =>
    obtain ⟨rfl, n, hn, hp⟩ := hg.atoms_agree id p hid
    simp only [hn]
    constructor
    · intro k q h
      simp only [lookup_erase_ite] at h ⊢
      split at h
      next => cases h
      next hk =>
        obtain ⟨rfl, m, hm, hq⟩ := hg.atoms_agree k q h
        have hmn : m ≠ n := by rintro rfl; exact hk (Option.some.inj (hq.symm.trans hp))
        exact ⟨rfl, m, hm, by simp [hmn, hq]⟩
    · intro m q h
      simp only [lookup_erase_ite] at h ⊢
      split at h
      next => cases h
      next hm =>
        obtain ⟨hq, hq'⟩ := hg.byName_agree m q h
        have hqp : q ≠ p := by rintro rfl; exact hm (Option.some.inj (hq.symm.trans hn))
        simp [hq, hq', hqp]

theorem clear_coherent (g : Graph) : g.clear.Coherent :=
  ⟨fun _ _ h => by simp [clear, AtomSpace.empty] at h, fun _ _ h => by simp [clear, AtomSpace.empty] at h⟩

theorem Coherent.of_names (hg : g.Coherent) {mem : Memory}
    (h : g.mem.KeepsNames mem) : (Graph.mk mem g.space).Coherent :=
  ⟨fun id p hp => by
    obtain ⟨rfl, n, hn, hb⟩ := hg.atoms_agree id p hp
    exact ⟨rfl, n, h _ _ hn, hb⟩,
   fun n p hp => by
    obtain ⟨hn, ha⟩ := hg.byName_agree n p hp
    exact ⟨h _ _ hn, ha⟩⟩

theorem Coherent.of_perm (hg : g.Coherent) {s : AtomSpace}
    (ha : s.atoms.entries.Perm g.space.atoms.entries)
    (hb : s.atomsByName.entries.Perm g.space.atomsByName.entries) : (Graph.mk g.mem s).Coherent :=
  ⟨fun id p hp => by
    rw [AList.perm_lookup ha] at hp
    simpa only [AList.perm_lookup hb] using hg.atoms_agree id p hp,
   fun n p hp => by
    rw [AList.perm_lookup hb] at hp
    simpa only [AList.perm_lookup ha] using hg.byName_agree n p hp⟩

theorem newAtomSpace_coherent (mem : Memory) : (newAtomSpace mem).Coherent := by
  have h0 : (Graph.mk mem AtomSpace.empty).Coherent :=
    ⟨fun _ _ h => by simp [AtomSpace.empty] at h, fun _ _ h => by simp [AtomSpace.empty] at h⟩
  exact createAtom_coherent (createAtom_coherent (createAtom_coherent h0 _ _ _ _) _ _ _ _) _ _ _ _

theorem Coherent.lookups (hg : g.Coherent) {id p : Nat} (h : g.space.atoms.lookup id = some p) :
    ∃ n, g.mem.nameOf p = some n ∧ g.space.getAtom p = some p ∧ g.space.findAtom n = some p := by
  obtain ⟨rfl, n, hn, hb⟩ := hg.atoms_agree id p h
  exact ⟨n, hn, h, hb⟩

theorem Coherent.name_injective (hg : g.Coherent) {p q : Nat} {n : String}
    (hp : g.space.atoms.lookup p = some p) (hq : g.space.atoms.lookup q = some q)
    (hpn : g.mem.nameOf p = some n) (hqn : g.mem.nameOf q = some n) : p = q := by
  obtain ⟨-, m, hm, hbp⟩ := hg.atoms_agree p p hp
  obtain ⟨-, m', hm', hbq⟩ := hg.atoms_agree q q hq
  rw [hpn] at hm
  rw [hqn] at hm'
  cases hm; cases hm'
  exact Option.some.inj (hbp.symm.trans hbq)

theorem Coherent.count_eq (hg : g.Coherent) :
    g.space.atoms.entries.length = g.space.atomsByName.entries.length := by
  have hnd : (g.space.atomsByName.entries.map Sigma.snd).Nodup := by
    refine List.Nodup.map_on ?_ g.space.atomsByName.nodupKeys.nodup
    rintro ⟨n, p⟩ hx ⟨m, q⟩ hy (rfl : p = q)
    have hn := (hg.byName_agree n p (AList.mem_lookup_iff.mpr hx)).1
    have hm := (hg.byName_agree m p (AList.mem_lookup_iff.mpr hy)).1
    cases hn.symm.trans hm
    rfl
  have hperm : g.space.atoms.keys.Perm (g.space.atomsByName.entries.map Sigma.snd) := by
    refine (List.perm_ext_iff_of_nodup g.space.atoms.keys_nodup hnd).mpr fun p => ?_
    simp only [← AList.mem_keys, List.mem_map]
    constructor
    · intro hp
      obtain ⟨q, hq⟩ := Option.isSome_iff_exists.mp (AList.lookup_isSome.mpr hp)
      obtain ⟨rfl, n, -, hb⟩ := hg.atoms_agree p q hq
      exact ⟨⟨n, q⟩, AList.mem_lookup_iff.mp hb, rfl⟩
    · rintro ⟨⟨n, q⟩, hx, rfl⟩
      exact AList.lookup_isSome.mp (by simp [(hg.byName_agree n q (AList.mem_lookup_iff.mpr hx)).2])
  simpa [AList.keys, List.keys] using hperm.length_eq

/-- One change of an atom space and of the memory its atoms live in: a structural call of
`AtomSpace`, a write that keeps the name of every atom (the setters, the link calls, the
attention pass, atoms made in other atom spaces), or a new iteration order of the hash maps. -/
inductive SpaceStep : Graph → Graph → Prop
  | createAtom (g : Graph) (type : AtomType) (name : String) (v c : ℚ) :
      SpaceStep g (g.createAtom type name v c).1
  | removeAtom (g : Graph) (id : Nat) : SpaceStep g (g.removeAtom id).1
  | clear (g : Graph) : SpaceStep g g.clear
  | write (g : Graph) (mem : Memory) (h : g.mem.KeepsNames mem) : SpaceStep g ⟨mem, g.space⟩
  | rehash (g : Graph) (s : AtomSpace) (ha : s.atoms.entries.Perm g.space.atoms.entries)
      (hb : s.atomsByName.entries.Perm g.space.atomsByName.entries) : SpaceStep g ⟨g.mem, s⟩

theorem SpaceStep.coherent {g g' : Graph} (h : SpaceStep g g') (hg : g.Coherent) : g'.Coherent := by
  cases h with
  | createAtom type name v c => exact createAtom_coherent hg type name v c
  | removeAtom id => exact removeAtom_coherent hg id
  | clear => exact clear_coherent g
  | write mem h => exact hg.of_names h
  | rehash s ha hb => exact hg.of_perm ha hb

theorem setTruthValue_step (g : Graph) (p : Nat) (t c : ℚ) : SpaceStep g (g.setTruthValue p t c) :=
  .write g _ (Memory.keepsNames_modify _ _ fun _ => rfl)

theorem setAttention_step (g : Graph) (p : Nat) (v : ℚ) : SpaceStep g (g.setAttention p v) :=
  .write g _ (Memory.keepsNames_modify _ _ fun _ => rfl)

theorem addOutgoingLink_step (g : Graph) (p : Nat) (q : Option Nat) :
    SpaceStep g (g.addOutgoingLink p q) :=
  .write g _ (Memory.keepsNames_modify _ _ fun _ => rfl)

theorem addIncomingLink_step (g : Graph) (p : Nat) (q : Option Nat) :
    SpaceStep g (g.addIncomingLink p q) :=
  .write g _ (Memory.keepsNames_modify _ _ fun _ => rfl)

theorem updateAttentionValues_step (g : Graph) : SpaceStep g g.updateAttentionValues :=
  .write g _ (keepsNames_updateAttentionValues g)

theorem SpaceStep.keepsNames {g g' : Graph} (h : SpaceStep g g') : g.mem.KeepsNames g'.mem := by
  cases h with
  | createAtom type name v c =>
    cases hn : g.space.atomsByName.lookup name with
    | some p => rw [createAtom_of_lookup hn]; exact Memory.KeepsNames.refl _
    | none => rw [createAtom_of_lookup_none hn]; exact Memory.keepsNames_alloc _ _
  | removeAtom id => rw [removeAtom_mem]; exact Memory.KeepsNames.refl _
  | write mem h => exact h
  | _ => exact Memory.KeepsNames.refl _

theorem keepsNames_of_reach {g g' : Graph} (h : Relation.ReflTransGen SpaceStep g g') :
    g.mem.KeepsNames g'.mem := by
  induction h with
  | refl => exact Memory.KeepsNames.refl _
  | tail _ hs ih => exact ih.trans hs.keepsNames

theorem coherent_of_reach {g g' : Graph} (h : Relation.ReflTransGen SpaceStep g g')
    (hg : g.Coherent) : g'.Coherent := by
  induction h with
  | refl => exact hg
  | tail _ hs ih => exact hs.coherent ih

theorem createAtom_nameOf (hg : g.Coherent) (type : AtomType) (name : String) (v c : ℚ) :
    (g.createAtom type name v c).1.mem.nameOf (g.createAtom type name v c).2 = some name := by
  cases hn : g.space.atomsByName.lookup name with
  | some p => rw [createAtom_of_lookup hn]; exact (hg.byName_agree name p hn).1
  | none => rw [createAtom_of_lookup_none hn]; simp [Memory.nameOf, Atom.construct]

theorem reach_foldl {σ α : Type} {R : Graph → Graph → Prop} (π : σ → Graph) {f : σ → α → σ}
    (hf : ∀ s x, Relation.ReflTransGen R (π s) (π (f s x))) (l : List α) (s : σ) :
    Relation.ReflTransGen R (π s) (π (l.foldl f s)) :=
  List.foldlRecOn (motive := fun s' => Relation.ReflTransGen R (π s) (π s')) l f s .refl
    fun s' h x _ => h.trans (hf s' x)

theorem coherent_of_reachable {mem : Memory}
    (h : Relation.ReflTransGen SpaceStep (newAtomSpace mem) g) : g.Coherent := by
  induction h with
  | refl => exact newAtomSpace_coherent mem
  | tail _ hs ih => exact hs.coherent ih

structure MapsAgree (g : Graph) : Prop where
  coherent : g.Coherent
  count_eq : g.space.getAtomCount = g.space.atomsByName.entries.length
  names_unique : ∀ p q n, g.space.atoms.lookup p = some p → g.space.atoms.lookup q = some q →
    g.mem.nameOf p = some n → g.mem.nameOf q = some n → p = q
  lookups : ∀ id p, g.space.atoms.lookup id = some p →
    ∃ n, g.mem.nameOf p = some n ∧ g.space.getAtom p = some p ∧ g.space.findAtom n = some p

theorem reachable_mapsAgree {mem : Memory}
    (h : Relation.ReflTransGen SpaceStep (newAtomSpace mem) g) : g.MapsAgree :=
  have hg := coherent_of_reachable h
  ⟨hg, hg.count_eq, fun _ _ _ => hg.name_injective, fun _ _ => hg.lookups⟩

def structuralRun : Graph :=
  let g := ((newAtomSpace Memory.init).createAtom .concept "A" 1 1).1
  let g := ((g.removeAtom 1).1.clear.createAtom .goal "B" 1 1).1
  (g.createAtom .concept "A" (1 / 2) 1).1

theorem structuralRun_mapsAgree :
    Relation.ReflTransGen SpaceStep (newAtomSpace Memory.init) structuralRun ∧ structuralRun.MapsAgree ∧
      structuralRun.space.getAtomCount = 2 :=
  have h : Relation.ReflTransGen SpaceStep (newAtomSpace Memory.init) structuralRun :=
    .tail (.tail (.tail (.tail (.single (.createAtom _ .concept "A" 1 1)) (.removeAtom _ 1)) (.clear _))
      (.createAtom _ .goal "B" 1 1)) (.createAtom _ .concept "A" (1 / 2) 1)
  ⟨h, reachable_mapsAgree h, by decide⟩

structure Created (g : Graph) (type : AtomType) (name : String) (v c : ℚ) (r : Graph × Nat) :
    Prop where
  id_eq : r.2 = g.mem.nextId
  atom : r.1.mem.objects r.2 = some (Atom.construct type name v c)
  fresh : ∀ q a, g.mem.objects q = some a → q ≠ r.2
  find : r.1.space.findAtom name = some r.2
  get : r.1.space.getAtom r.2 = some r.2
  count : r.1.space.getAtomCount = g.space.getAtomCount + 1
  other_ids : ∀ id, id ≠ r.2 → r.1.space.getAtom id = g.space.getAtom id
  other_names : ∀ n, n ≠ name → r.1.space.findAtom n = g.space.findAtom n
  other_atoms : ∀ q, q ≠ r.2 → r.1.mem.objects q = g.mem.objects q

structure GetOrCreate (g : Graph) (type : AtomType) (name : String) (v c : ℚ) : Prop where
  bound : ∀ p, g.space.findAtom name = some p → g.createAtom type name v c = (g, p)
  unbound : g.space.findAtom name = none → Created g type name v c (g.createAtom type name v c)
  again : ∀ type' v' c', (g.createAtom type name v c).1.createAtom type' name v' c' =
    g.createAtom type name v c

theorem createAtom_created (hg : g.Coherent) {type : AtomType} {name : String} {v c : ℚ}
    (hn : g.space.atomsByName.lookup name = none) :
    Created g type name v c (g.createAtom type name v c) := by
  rw [createAtom_of_lookup_none hn]
  refine ⟨rfl, by simp, fun q a hq => (Memory.objects_lt hq).ne, by simp [AtomSpace.findAtom],
    by simp [AtomSpace.getAtom], ?_, fun id h => ?_, fun n h => ?_, fun q h => ?_⟩
  · simp only [AtomSpace.getAtomCount, AList.insert_entries_of_neg
      (AList.lookup_eq_none.mp hg.fresh_not_mem), List.length_cons]
  · simp [AtomSpace.getAtom, lookup_insert_ite, h]
  · simp [AtomSpace.findAtom, lookup_insert_ite, h]
  · simp [Memory.alloc_objects, h]

theorem createAtom_getOrCreate (hg : g.Coherent) (type : AtomType) (name : String) (v c : ℚ) :
    GetOrCreate g type name v c := by
  refine ⟨fun p hp => createAtom_of_lookup hp type v c, createAtom_created hg, fun type' v' c' => ?_⟩
  cases hn : g.space.atomsByName.lookup name with
  | some p => simp only [createAtom_of_lookup hn]
  | none =>
    have hf := (@createAtom_created g hg type name v c hn).find
    exact createAtom_of_lookup hf type' v' c'

theorem newAtomSpace_getOrCreate :
    (newAtomSpace Memory.init).Coherent ∧
      (newAtomSpace Memory.init).space.findAtom "TestConcept" = none ∧
      GetOrCreate (newAtomSpace Memory.init) .concept "TestConcept" (4 / 5) (9 / 10) ∧
      (newAtomSpace Memory.init).space.findAtom "Self" = some 1 ∧
      GetOrCreate (newAtomSpace Memory.init) .goal "Self" (1 / 5) (1 / 2) :=
  have hg := newAtomSpace_coherent Memory.init
  ⟨hg, rfl, createAtom_getOrCreate hg _ _ _ _, rfl, createAtom_getOrCreate hg _ _ _ _⟩

theorem Coherent.lookup_of_mem (hg : g.Coherent) {p : Nat}
    (hp : p ∈ g.space.atoms.entries.map Sigma.snd) : g.space.atoms.lookup p = some p := by
  obtain ⟨⟨k, v⟩, hk, rfl⟩ := List.mem_map.mp hp
  have hl := AList.mem_lookup_iff.mpr hk
  obtain ⟨rfl, -⟩ := hg.atoms_agree k v hl
  exact hl

structure AtomRemoved (g : Graph) (id : Nat) (g' : Graph) : Prop where
  get : g'.space.getAtom id = none
  find : ∀ n, g.mem.nameOf id = some n → g'.space.findAtom n = none
  count : g'.space.getAtomCount + 1 = g.space.getAtomCount
  query : ∀ predicate, id ∉ g'.query predicate
  findAtomsByType : ∀ type, id ∉ g'.findAtomsByType type
  others : ∀ q p, q ≠ id → g.space.getAtom q = some p →
    g'.space.getAtom q = some p ∧ ∀ n, g.mem.nameOf p = some n → g'.space.findAtom n = some p
  recreate : ∀ n type v c, g.mem.nameOf id = some n →
    Created g' type n v c (g'.createAtom type n v c)

structure RemovesAtom (g : Graph) (id : Nat) : Prop where
  result : (g.removeAtom id).2 = (g.space.getAtom id).isSome
  unchanged : (g.removeAtom id).2 = false → (g.removeAtom id).1 = g
  removed : (g.removeAtom id).2 = true → AtomRemoved g id (g.removeAtom id).1

theorem removeAtom_of_lookup {id p : Nat} {n : String} (hp : g.space.atoms.lookup id = some p)
    (hn : g.mem.nameOf p = some n) :
    g.removeAtom id = (⟨g.mem, ⟨g.space.atoms.erase id, g.space.atomsByName.erase n⟩⟩, true) := by
  simp [removeAtom, hp, hn]

theorem atomRemoved (hg : g.Coherent) {id : Nat} (hid : g.space.atoms.lookup id = some id) :
    AtomRemoved g id (g.removeAtom id).1 := by
  obtain ⟨-, n₀, hn₀, hb₀⟩ := hg.atoms_agree id id hid
  have hr := removeAtom_of_lookup hid hn₀
  have hc := removeAtom_coherent hg id
  rw [hr] at hc ⊢
  have hfind : ∀ n, g.mem.nameOf id = some n →
      (AList.erase n₀ g.space.atomsByName).lookup n = none := fun n hn => by
    cases hn₀.symm.trans hn
    exact AList.lookup_erase _ _
  have hgone : ∀ P, id ∉ Graph.query ⟨g.mem, ⟨g.space.atoms.erase id, _⟩⟩ P := fun P hq => by
    have hl := hc.lookup_of_mem (List.mem_filter.mp hq).1
    rw [AList.lookup_erase] at hl
    cases hl
  refine ⟨AList.lookup_erase _ _, hfind, ?_, hgone, fun t => hgone _, fun q p hq hp => ?_,
    fun n type v c hn => createAtom_created hc (hfind n hn)⟩
  · have hmem : id ∈ g.space.atoms.keys := AList.mem_keys.mp (AList.lookup_isSome.mp (by simp [hid]))
    have hlen := List.length_erase_of_mem hmem
    have hpos := List.length_pos_of_mem hmem
    simp only [AtomSpace.getAtomCount_eq_keys, AList.keys_erase]
    omega
  · obtain ⟨rfl, n', hn', hb'⟩ := hg.atoms_agree q p hp
    have hne : n' ≠ n₀ := by
      rintro rfl
      exact hq (Option.some.inj (hb'.symm.trans hb₀))
    refine ⟨(AList.lookup_erase_ne hq).trans hp, fun n hn => ?_⟩
    cases hn'.symm.trans hn
    exact (AList.lookup_erase_ne hne).trans hb'

theorem removeAtom_contract (hg : g.Coherent) (id : Nat) : RemovesAtom g id := by
  cases hid : g.space.atoms.lookup id with
  | none => exact ⟨by simp [removeAtom, hid, AtomSpace.getAtom], fun _ => by simp [removeAtom, hid],
      fun h => by simp [removeAtom, hid] at h⟩
  | some p =>
    obtain ⟨rfl, -⟩ := hg.atoms_agree id p hid
    exact ⟨by simp [removeAtom, hid, AtomSpace.getAtom], fun h => by simp [removeAtom, hid] at h,
      fun _ => atomRemoved hg hid⟩

theorem newAtomSpace_removesSelf :
    (newAtomSpace Memory.init).Coherent ∧ RemovesAtom (newAtomSpace Memory.init) 1 :=
  ⟨newAtomSpace_coherent _, removeAtom_contract (newAtomSpace_coherent _) 1⟩

end Graph

end CogWsl
