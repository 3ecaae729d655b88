import CogWsl.Attention
import Mathlib.Algebra.Order.BigOperators.Group.List

/-!
`AtomSpace::UpdateAttentionValues` updates the atoms in place, in the iteration order of
`m_atoms`: spread an atom receives before its own turn is decayed with it, spread it receives
after is not, and a sender spreads from a value already raised earlier in the pass. The bound
below holds for every order. Each stored atom ends at least at `max(0.01, 0.95 (a + S))`, where
`S` is what the other stored atoms spread from their attentions before the pass.
-/

namespace CogWsl

namespace Memory

def spreadShare (mem : Memory) (x y : Nat) : ℚ :=
  match mem.objects y with
  | some b => if x ∈ b.outgoingLinks then b.attention * (1 / 10) / b.outgoingLinks.length else 0
  | none => 0

def receivedSpread (mem : Memory) (ys : List Nat) (x : Nat) : ℚ :=
  ((ys.filter (· ≠ x)).map (mem.spreadShare x)).sum

theorem receivedSpread_append (mem : Memory) (ys : List Nat) (x y : Nat) :
    mem.receivedSpread (ys ++ [y]) x =
      mem.receivedSpread ys x + if y = x then 0 else mem.spreadShare x y := by
  by_cases h : y = x <;> simp [receivedSpread, List.filter_append, h]

theorem spread_objects (s : ℚ) (out : List Nat) (mem : Memory) (x : Nat) :
    (out.foldl (fun m linked => m.modify linked fun b => b.setAttention (b.attention + s))
      mem).objects x = (mem.objects x).map fun a => a.setAttention (a.attention + out.count x * s) := by
  induction out generalizing mem with
  | nil => simp
  | cons z out ih =>
    rw [List.foldl_cons, ih, modify_objects, List.count_cons]
    by_cases hx : x = z
    · subst hx
      cases mem.objects x <;> simp
      rw [add_one_mul, add_assoc, add_comm s]
    · simp [hx, Ne.symm hx]

end Memory

namespace Graph

open Memory

theorem attentionStep_objects {mem : Memory} {y : Nat} {b : Atom} (hb : mem.objects y = some b)
    (x : Nat) :
    (attentionStep mem y).objects x = (mem.objects x).map fun a => a.setAttention
      (if x = y then max (1 / 100) (b.attention * (95 / 100))
        else a.attention + b.outgoingLinks.count x * (b.attention * (1 / 10) / b.outgoingLinks.length)) := by
  have hif : ∀ f : Memory → Nat → Memory,
      (if b.outgoingLinks.isEmpty then mem else b.outgoingLinks.foldl f mem) =
        b.outgoingLinks.foldl f mem := fun f => by
    split <;> simp_all [List.isEmpty_iff]
  unfold attentionStep
  rw [hb]
  dsimp only
  rw [hif, modify_objects, spread_objects]
  split_ifs with hxy
  · subst hxy
    simp [hb]
  · rfl

section Pass

variable {mem₀ : Memory} (hnn : ∀ p a, mem₀.objects p = some a → 0 ≤ a.attention)
include hnn

theorem spreadShare_nonneg (x y : Nat) : 0 ≤ mem₀.spreadShare x y := by
  unfold spreadShare
  split
  · split
    · exact div_nonneg (mul_nonneg (hnn _ _ ‹_›) (by norm_num)) (Nat.cast_nonneg _)
    · exact le_refl 0
  · exact le_refl 0

theorem receivedSpread_nonneg (ys : List Nat) (x : Nat) : 0 ≤ mem₀.receivedSpread ys x :=
  List.sum_nonneg fun _ h => by
    obtain ⟨y, -, rfl⟩ := List.mem_map.mp h
    exact spreadShare_nonneg hnn x y

theorem spreadShare_le {y : Nat} {b c : Atom} (hc : mem₀.objects y = some c)
    (hlinks : b.outgoingLinks = c.outgoingLinks) (hcb : c.attention ≤ b.attention) (x : Nat) :
    mem₀.spreadShare x y ≤
      b.outgoingLinks.count x * (b.attention * (1 / 10) / b.outgoingLinks.length) := by
  have hc0 := hnn y c hc
  have hs0 : 0 ≤ b.attention * (1 / 10) / b.outgoingLinks.length :=
    div_nonneg (mul_nonneg (hc0.trans hcb) (by norm_num)) (Nat.cast_nonneg _)
  simp only [spreadShare, hc, ← hlinks]
  split_ifs with hx
  · have hcount : (1 : ℚ) ≤ b.outgoingLinks.count x := by
      exact_mod_cast List.count_pos_iff.mpr hx
    have hs : c.attention * (1 / 10) / b.outgoingLinks.length ≤
        b.attention * (1 / 10) / b.outgoingLinks.length :=
      div_le_div_of_nonneg_right (by linarith) (Nat.cast_nonneg _)
    exact hs.trans (le_mul_of_one_le_left hs0 hcount)
  · exact mul_nonneg (Nat.cast_nonneg _) hs0

omit hnn in
theorem decayed_add {A M B C : ℚ} (h : max (1 / 100) (95 / 100 * A) ≤ M) (hB : 0 ≤ B)
    (hBC : B ≤ C) : max (1 / 100) (95 / 100 * (A + B)) ≤ M + C :=
  max_le (by linarith [le_max_left (1 / 100 : ℚ) (95 / 100 * A)])
    (by linarith [le_max_right (1 / 100 : ℚ) (95 / 100 * A)])

omit hnn in
structure PassBound (mem₀ : Memory) (done : List Nat) (mem : Memory) : Prop where
  absent : ∀ x, mem₀.objects x = none → mem.objects x = none
  present : ∀ x a, mem₀.objects x = some a → ∃ a', mem.objects x = some a' ∧
    a'.outgoingLinks = a.outgoingLinks ∧
    (if x ∈ done then max (1 / 100) (95 / 100 * (a.attention + mem₀.receivedSpread done x))
      else a.attention + mem₀.receivedSpread done x) ≤ a'.attention

omit hnn in
theorem PassBound.init (mem₀ : Memory) : PassBound mem₀ [] mem₀ :=
  ⟨fun _ h => h, fun x a h => ⟨a, h, rfl, by simp [receivedSpread]⟩⟩

omit hnn in
theorem PassBound.skip {done : List Nat} {mem : Memory} {y : Nat} (h : PassBound mem₀ done mem)
    (hy₀ : mem₀.objects y = none) : PassBound mem₀ (done ++ [y]) mem := by
  refine ⟨h.absent, fun x a hx => ?_⟩
  have hxy : x ≠ y := by rintro rfl; simp [hy₀] at hx
  simpa [receivedSpread_append, spreadShare, hy₀, hxy] using h.present x a hx

theorem PassBound.turn {done : List Nat} {mem : Memory} {y : Nat} {b : Atom}
    (h : PassBound mem₀ done mem) (hy : y ∉ done) (hb : mem.objects y = some b) :
    PassBound mem₀ (done ++ [y]) (attentionStep mem y) := by
  obtain ⟨c, hc⟩ := Option.ne_none_iff_exists'.mp fun hc => by simp [h.absent y hc] at hb
  obtain ⟨b', hb', hlinks, hby⟩ := h.present y c hc
  rw [hb] at hb'
  cases hb'
  rw [if_neg hy] at hby
  have hcb : c.attention ≤ b.attention := by linarith [receivedSpread_nonneg hnn done y]
  refine ⟨fun x hx => by simp [attentionStep_objects hb, h.absent x hx], fun x a hx => ?_⟩
  obtain ⟨a', ha', hlinks', hbound⟩ := h.present x a hx
  simp only [attentionStep_objects hb, ha', Option.map_some', Option.some.injEq, exists_eq_left',
    Atom.setAttention_outgoingLinks, Atom.setAttention_attention, hlinks', true_and,
    receivedSpread_append, List.mem_append, List.mem_singleton]
  by_cases hxy : x = y
  · subst hxy
    rw [ha'] at hb
    cases hb
    rw [hc] at hx
    cases hx
    simp only [↓reduceIte, or_true, add_zero]
    exact max_le_max le_rfl (by linarith)
  · have hsh := spreadShare_le hnn hc hlinks hcb x
    have hsh0 := spreadShare_nonneg hnn x y
    simp only [hxy, Ne.symm hxy, if_false, or_false]
    split_ifs at hbound ⊢
    · rw [← add_assoc]
      exact decayed_add hbound hsh0 hsh
    · linarith

theorem PassBound.step {done : List Nat} {mem : Memory} {y : Nat} (h : PassBound mem₀ done mem)
    (hy : y ∉ done) : PassBound mem₀ (done ++ [y]) (attentionStep mem y) := by
  cases hb : mem.objects y with
  | some b => exact h.turn hnn hy hb
  | none =>
    have hy₀ : mem₀.objects y = none := by
      cases hc : mem₀.objects y with
      | none => rfl
      | some c => obtain ⟨_, h', -⟩ := h.present y c hc; simp [hb] at h'
    rw [show attentionStep mem y = mem by simp [attentionStep, hb]]
    exact h.skip hy₀

theorem PassBound.foldl (ys : List Nat) {done : List Nat} {mem : Memory}
    (hnd : (done ++ ys).Nodup) (h : PassBound mem₀ done mem) :
    PassBound mem₀ (done ++ ys) (ys.foldl attentionStep mem) := by
  induction ys generalizing done mem with
  | nil => simpa using h
  | cons y ys ih =>
    have hy : y ∉ done := fun hy => (List.nodup_append.mp hnd).2.2 hy (List.mem_cons_self y ys)
    simpa using ih (by simpa using hnd) (h.step hnn hy)

end Pass

/-- The atoms of `m_atoms`, in the order the loop of `UpdateAttentionValues` visits them. -/
def stored (g : Graph) : List Nat := g.space.atoms.entries.map Sigma.snd

theorem updateAttentionValues_mem (g : Graph) :
    g.updateAttentionValues.mem = g.stored.foldl attentionStep g.mem :=
  (List.foldl_map _ _ _ _).symm

theorem Coherent.stored_nodup {g : Graph} (hg : g.Coherent) : g.stored.Nodup := by
  have hkeys : g.stored = g.space.atoms.keys := List.map_congr_left fun ⟨k, v⟩ hk =>
    (hg.atoms_agree k v (AList.mem_lookup_iff.mpr hk)).1
  rw [hkeys]
  exact g.space.atoms.keys_nodup

theorem updateAttentionValues_bound (g : Graph) (hnd : g.stored.Nodup)
    (hnn : ∀ p a, g.mem.objects p = some a → 0 ≤ a.attention) (x : Nat) (a : Atom)
    (hx : g.mem.objects x = some a) :
    ∃ a', g.updateAttentionValues.mem.objects x = some a' ∧
      (x ∈ g.stored →
        max (1 / 100) (95 / 100 * (a.attention + g.mem.receivedSpread g.stored x)) ≤ a'.attention) ∧
      (x ∉ g.stored → a.attention ≤ a'.attention) := by
  obtain ⟨a', ha', -, hbound⟩ := ((PassBound.init g.mem).foldl hnn g.stored hnd).present x a hx
  simp only [List.nil_append] at hbound
  refine ⟨a', by rw [updateAttentionValues_mem]; exact ha', fun hm => ?_, fun hm => ?_⟩
  · rwa [if_pos hm] at hbound
  · rw [if_neg hm] at hbound
    linarith [receivedSpread_nonneg hnn g.stored x]

end Graph

namespace World

def linkedPair : World :=
  init.run [.initializeManager, .createAtom .concept "A" 1 1, .createAtom .concept "B" 1 1,
    .addOutgoingLink 21 (some 22), .addOutgoingLink 22 (some 21)]

theorem linkedPair_attentionBound :
    linkedPair.graph.stored.Nodup ∧ (∀ p a, linkedPair.graph.mem.objects p = some a → 0 ≤ a.attention) ∧
      ∃ a, linkedPair.graph.mem.objects 21 = some a ∧
        0 < linkedPair.graph.mem.receivedSpread linkedPair.graph.stored 21 ∧
        ∃ a', linkedPair.graph.updateAttentionValues.mem.objects 21 = some a' ∧
          (21 ∈ linkedPair.graph.stored → max (1 / 100)
            (95 / 100 * (a.attention + linkedPair.graph.mem.receivedSpread linkedPair.graph.stored 21)) ≤
              a'.attention) ∧
          (21 ∉ linkedPair.graph.stored → a.attention ≤ a'.attention) :=
  have hnd : linkedPair.graph.stored.Nodup := by decide
  have hnn : ∀ p a, linkedPair.graph.mem.objects p = some a → 0 ≤ a.attention := fun p a h =>
    le_trans (by norm_num) (init.run_floorStep (by simp [Op.Allowed]) Memory.init_attentionFloor p a h)
  ⟨hnd, hnn, _, rfl, by with_unfolding_all decide, Graph.updateAttentionValues_bound _ hnd hnn 21 _ rfl⟩

end World

end CogWsl
