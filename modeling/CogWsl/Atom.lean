import Mathlib.Data.List.AList
import Mathlib.Algebra.Order.Field.Rat
import Mathlib.Tactic.Linarith

/-!
The atoms of `cognitive.cpp`. Scalars are exact rationals in place of `float`. An atom object
is named by its id: `Atom::s_nextId` hands every constructed atom a fresh id, so the id also
stands for the `shared_ptr` that holds it. Objects are never freed here, since a `shared_ptr`
keeps a removed atom alive for as long as a link or an agent refers to it.
-/

namespace CogWsl

inductive AtomType
  | concept | link | process | agent | rule | goal | memory
  deriving DecidableEq, Repr

structure Atom where
  type : AtomType
  name : String
  truthValue : ℚ
  confidence : ℚ
  attention : ℚ
  incomingLinks : List Nat
  outgoingLinks : List Nat

namespace Atom

def construct (type : AtomType) (name : String) (truthValue confidence : ℚ) : Atom :=
  ⟨type, name, truthValue, confidence, 1 / 2, [], []⟩

def clamp (v lo hi : ℚ) : ℚ :=
  if v < lo then lo else if hi < v then hi else v

def setTruthValue (a : Atom) (truth confidence : ℚ) : Atom :=
  { a with truthValue := clamp truth 0 1, confidence := clamp confidence 0 1 }

def setAttention (a : Atom) (attention : ℚ) : Atom :=
  { a with attention := attention }

/-- The body shared by `AddIncomingLink` and `AddOutgoingLink`: a null or present target is
ignored, any other is appended. -/
def addLink (links : List Nat) : Option Nat → List Nat
  | some p => if p ∈ links then links else links ++ [p]
  | none => links

theorem addLink_nodup {links : List Nat} (h : links.Nodup) (q : Option Nat) : (addLink links q).Nodup := by
  cases q with
  | none => exact h
  | some p =>
    show (if p ∈ links then links else links ++ [p]).Nodup
    split
    · exact h
    · exact h.append (List.nodup_singleton p) (List.disjoint_singleton.mpr ‹_›)

def addIncomingLink (a : Atom) (atom : Option Nat) : Atom :=
  { a with incomingLinks := addLink a.incomingLinks atom }

def addOutgoingLink (a : Atom) (atom : Option Nat) : Atom :=
  { a with outgoingLinks := addLink a.outgoingLinks atom }

@[simp] theorem setTruthValue_name (a : Atom) (t c : ℚ) : (a.setTruthValue t c).name = a.name := rfl
@[simp] theorem setTruthValue_type (a : Atom) (t c : ℚ) : (a.setTruthValue t c).type = a.type := rfl
@[simp] theorem setTruthValue_attention (a : Atom) (t c : ℚ) :
    (a.setTruthValue t c).attention = a.attention := rfl
@[simp] theorem setAttention_name (a : Atom) (v : ℚ) : (a.setAttention v).name = a.name := rfl
@[simp] theorem setAttention_type (a : Atom) (v : ℚ) : (a.setAttention v).type = a.type := rfl
@[simp] theorem setAttention_truthValue (a : Atom) (v : ℚ) :
    (a.setAttention v).truthValue = a.truthValue := rfl
@[simp] theorem setAttention_confidence (a : Atom) (v : ℚ) :
    (a.setAttention v).confidence = a.confidence := rfl
@[simp] theorem setAttention_attention (a : Atom) (v : ℚ) : (a.setAttention v).attention = v := rfl
@[simp] theorem setAttention_outgoingLinks (a : Atom) (v : ℚ) :
    (a.setAttention v).outgoingLinks = a.outgoingLinks := rfl
@[simp] theorem setAttention_setAttention (a : Atom) (u v : ℚ) :
    (a.setAttention u).setAttention v = a.setAttention v := rfl
@[simp] theorem setAttention_self (a : Atom) : a.setAttention a.attention = a := rfl
@[simp] theorem addIncomingLink_name (a : Atom) (p : Option Nat) :
    (a.addIncomingLink p).name = a.name := rfl
@[simp] theorem addOutgoingLink_name (a : Atom) (p : Option Nat) :
    (a.addOutgoingLink p).name = a.name := rfl
@[simp] theorem addOutgoingLink_type (a : Atom) (p : Option Nat) :
    (a.addOutgoingLink p).type = a.type := rfl
@[simp] theorem addOutgoingLink_truthValue (a : Atom) (p : Option Nat) :
    (a.addOutgoingLink p).truthValue = a.truthValue := rfl
@[simp] theorem addOutgoingLink_confidence (a : Atom) (p : Option Nat) :
    (a.addOutgoingLink p).confidence = a.confidence := rfl
@[simp] theorem addOutgoingLink_attention (a : Atom) (p : Option Nat) :
    (a.addOutgoingLink p).attention = a.attention := rfl

end Atom

/-- The atom objects alive in the process, by id, and `Atom::s_nextId`. -/
structure Memory where
  objects : Nat → Option Atom
  nextId : Nat
  fresh : ∀ p, nextId ≤ p → objects p = none

namespace Memory

def init : Memory := ⟨fun _ => none, 1, fun _ _ => rfl⟩

/-- `std::make_shared<Atom>`: the new object takes the id `nextId`. -/
def alloc (mem : Memory) (a : Atom) : Memory where
  objects q := if q = mem.nextId then some a else mem.objects q
  nextId := mem.nextId + 1
  fresh q hq := by dsimp only; rw [if_neg (by omega)]; exact mem.fresh q (by omega)

/-- A write through the pointer `p`; a no-op on an id no atom has. -/
def modify (mem : Memory) (p : Nat) (f : Atom → Atom) : Memory where
  objects q := if q = p then (mem.objects q).map f else mem.objects q
  nextId := mem.nextId
  fresh q hq := by dsimp only; split <;> simp [mem.fresh q hq]

def nameOf (mem : Memory) (p : Nat) : Option String :=
  (mem.objects p).map Atom.name

@[simp] theorem alloc_nextId (mem : Memory) (a : Atom) : (mem.alloc a).nextId = mem.nextId + 1 := rfl

theorem alloc_objects (mem : Memory) (a : Atom) (q : Nat) :
    (mem.alloc a).objects q = if q = mem.nextId then some a else mem.objects q := rfl

@[simp] theorem alloc_objects_self (mem : Memory) (a : Atom) :
    (mem.alloc a).objects mem.nextId = some a := by simp [alloc_objects]

@[simp] theorem modify_nextId (mem : Memory) (p : Nat) (f : Atom → Atom) :
    (mem.modify p f).nextId = mem.nextId := rfl

theorem modify_objects (mem : Memory) (p : Nat) (f : Atom → Atom) (q : Nat) :
    (mem.modify p f).objects q = if q = p then (mem.objects q).map f else mem.objects q := rfl

theorem objects_lt {mem : Memory} {p : Nat} {a : Atom} (h : mem.objects p = some a) :
    p < mem.nextId := by
  by_contra hp
  simp [mem.fresh p (by omega)] at h

theorem alloc_objects_of_lt (mem : Memory) (a : Atom) {q : Nat} (hq : q < mem.nextId) :
    (mem.alloc a).objects q = mem.objects q := by
  rw [alloc_objects, if_neg (by omega)]

theorem nameOf_modify (mem : Memory) (p : Nat) {f : Atom → Atom} (hf : ∀ a, (f a).name = a.name)
    (q : Nat) : (mem.modify p f).nameOf q = mem.nameOf q := by
  unfold nameOf
  rw [modify_objects]
  split
  · cases mem.objects q <;> simp [hf]
  · rfl

theorem nameOf_alloc (mem : Memory) (a : Atom) (q : Nat) :
    (mem.alloc a).nameOf q = if q = mem.nextId then some a.name else mem.nameOf q := by
  unfold nameOf
  rw [alloc_objects]
  split <;> rfl

theorem nameOf_lt {mem : Memory} {p : Nat} {n : String} (h : mem.nameOf p = some n) :
    p < mem.nextId := by
  obtain ⟨a, ha, -⟩ := Option.map_eq_some'.mp h
  exact objects_lt ha

def KeepsNames (mem mem' : Memory) : Prop :=
  ∀ p n, mem.nameOf p = some n → mem'.nameOf p = some n

theorem KeepsNames.refl (mem : Memory) : mem.KeepsNames mem := fun _ _ h => h

theorem KeepsNames.trans {m₁ m₂ m₃ : Memory} (h₁ : m₁.KeepsNames m₂) (h₂ : m₂.KeepsNames m₃) :
    m₁.KeepsNames m₃ := fun p n h => h₂ p n (h₁ p n h)

theorem keepsNames_modify (mem : Memory) (p : Nat) {f : Atom → Atom}
    (hf : ∀ a, (f a).name = a.name) : mem.KeepsNames (mem.modify p f) := fun q n h => by
  rwa [nameOf_modify mem p hf]

theorem keepsNames_alloc (mem : Memory) (a : Atom) : mem.KeepsNames (mem.alloc a) := fun q n h => by
  rwa [nameOf_alloc, if_neg (nameOf_lt h).ne]

theorem keepsNames_foldl {α : Type} (l : List α) {step : Memory → α → Memory}
    (h : ∀ (m : Memory) x, m.KeepsNames (step m x)) (mem : Memory) :
    mem.KeepsNames (l.foldl step mem) := by
  induction l generalizing mem with
  | nil => exact KeepsNames.refl mem
  | cons x l ih => exact (h mem x).trans (ih _)

end Memory

end CogWsl
