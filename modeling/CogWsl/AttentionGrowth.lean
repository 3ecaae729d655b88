import CogWsl.AttentionPass
import Mathlib.Algebra.Order.Archimedean.Basic
import Mathlib.Algebra.BigOperators.Ring.List

/-!
`AtomSpace::UpdateAttentionValues` is commented as decay and spreading, but `SetAttention` has no
upper clamp and the spread comes on top of the decay: at its turn an atom loses `5%` of its
attention and hands `10%` to the atoms it links. So a set of atoms that all link, and only to one
another, gains at least `5%` of its total attention in every pass, whatever the iteration order and
whatever the other atoms do, and repeated passes raise its attention without bound.
-/

namespace CogWsl

namespace Memory

def attentionOf (mem : Memory) (x : Nat) : ℚ :=
  ((mem.objects x).map Atom.attention).getD 0

def totalAttention (mem : Memory) (ys : List Nat) : ℚ :=
  (ys.map mem.attentionOf).sum

theorem attentionOf_of_objects {mem : Memory} {x : Nat} {a : Atom} (h : mem.objects x = some a) :
    mem.attentionOf x = a.attention := by
  simp [attentionOf, h]

structure LinkClosed (mem : Memory) (ys : List Nat) : Prop where
  nodup : ys.Nodup
  present : ∀ y ∈ ys, (mem.objects y).isSome
  linked : ∀ y ∈ ys, ∀ b ∈ mem.objects y, b.outgoingLinks ≠ [] ∧ y ∉ b.outgoingLinks ∧
    ∀ x ∈ b.outgoingLinks, x ∈ ys

end Memory

theorem sum_map_ite_eq_count (ys : List Nat) (y : Nat) (c : ℚ) :
    (ys.map fun x => if x = y then c else 0).sum = ys.count y * c := by
  induction ys with
  | nil => simp
  | cons z ys ih =>
    by_cases h : z = y
    · subst h
      simp [ih, add_mul, add_comm]
    · simp [ih, h, List.count_cons, Ne.symm h]

theorem sum_map_count_of_subset {ys out : List Nat} (hnd : ys.Nodup) (hsub : ∀ x ∈ out, x ∈ ys) :
    (ys.map fun x => (out.count x : ℚ)).sum = out.length := by
  induction out with
  | nil => simp
  | cons z out ih =>
    have h1 := sum_map_ite_eq_count ys z 1
    rw [List.count_eq_one_of_mem hnd (hsub z (List.mem_cons_self z out))] at h1
    simp only [List.count_cons, beq_iff_eq, Nat.cast_add, Nat.cast_ite, Nat.cast_one, Nat.cast_zero,
      List.sum_map_add, List.length_cons]
    rw [ih fun x hx => hsub x (List.mem_cons_of_mem z hx)]
    simp only [eq_comm (a := z)] at h1 ⊢
    rw [h1]
    push_cast
    ring

theorem sum_map_ite_append {S done : List Nat} (hnd : S.Nodup) {y : Nat} (hy : y ∉ done) (f : Nat → ℚ) :
    (S.map fun x => if x ∈ done ++ [y] then f x else 0).sum =
      (S.map fun x => if x ∈ done then f x else 0).sum + if y ∈ S then f y else 0 := by
  have hx : ∀ x ∈ S, (if x ∈ done ++ [y] then f x else 0) =
      (if x ∈ done then f x else 0) + if x = y then f y else 0 := fun x _ => by
    by_cases hxd : x ∈ done
    · have hxy : x ≠ y := fun h => hy (h ▸ hxd)
      simp [hxd, hxy]
    · by_cases hxy : x = y
      · subst hxy
        simp [hxd]
      · simp [hxd, hxy]
  rw [List.map_congr_left hx, List.sum_map_add, sum_map_ite_eq_count]
  split_ifs with hyS
  · rw [List.count_eq_one_of_mem hnd hyS, Nat.cast_one, one_mul]
  · rw [List.count_eq_zero_of_not_mem hyS, Nat.cast_zero, zero_mul]

namespace Graph

open Memory

section Turn

variable {mem : Memory} {y : Nat} {b : Atom} (hb : mem.objects y = some b)
include hb

theorem attentionOf_attentionStep_self :
    (attentionStep mem y).attentionOf y = max (1 / 100) (b.attention * (95 / 100)) := by
  simp [attentionOf, attentionStep_objects hb, hb]

theorem attentionOf_attentionStep_ne {x : Nat} (hxy : x ≠ y) (hx : (mem.objects x).isSome) :
    (attentionStep mem y).attentionOf x =
      mem.attentionOf x + b.outgoingLinks.count x * (b.attention * (1 / 10) / b.outgoingLinks.length) := by
  obtain ⟨a, ha⟩ := Option.isSome_iff_exists.mp hx
  simp [attentionOf, attentionStep_objects hb, ha, hxy]

theorem totalAttention_attentionStep_not_mem {ys : List Nat} (hy : y ∉ ys)
    (hpresent : ∀ x ∈ ys, (mem.objects x).isSome) :
    (attentionStep mem y).totalAttention ys = mem.totalAttention ys +
      (ys.map fun x => (b.outgoingLinks.count x : ℚ)).sum * (b.attention * (1 / 10) / b.outgoingLinks.length) := by
  unfold totalAttention
  rw [List.map_congr_left fun x hx => attentionOf_attentionStep_ne hb (fun h => hy (h ▸ hx)) (hpresent x hx),
    List.sum_map_add, List.sum_map_mul_right]

theorem totalAttention_attentionStep_mem {ys : List Nat} (hnd : ys.Nodup) (hy : y ∈ ys)
    (hpresent : ∀ x ∈ ys, (mem.objects x).isSome) (hne : b.outgoingLinks ≠ [])
    (hself : y ∉ b.outgoingLinks) (hsub : ∀ x ∈ b.outgoingLinks, x ∈ ys) :
    (attentionStep mem y).totalAttention ys =
      mem.totalAttention ys + (max (1 / 100) (b.attention * (95 / 100)) - b.attention) + b.attention / 10 := by
  have hlen : (b.outgoingLinks.length : ℚ) ≠ 0 := by exact_mod_cast mt List.length_eq_zero.mp hne
  have hx : ∀ x ∈ ys, (attentionStep mem y).attentionOf x = mem.attentionOf x +
      (if x = y then max (1 / 100) (b.attention * (95 / 100)) - b.attention else 0) +
      b.outgoingLinks.count x * (b.attention * (1 / 10) / b.outgoingLinks.length) := fun x hx => by
    by_cases hxy : x = y
    · subst hxy
      rw [attentionOf_attentionStep_self hb, attentionOf_of_objects hb, List.count_eq_zero.mpr hself, if_pos rfl,
        Nat.cast_zero, zero_mul, add_zero, add_sub_cancel]
    · rw [attentionOf_attentionStep_ne hb hxy (hpresent x hx), if_neg hxy, add_zero]
  unfold totalAttention
  rw [List.map_congr_left hx, List.sum_map_add, List.sum_map_add, sum_map_ite_eq_count,
    List.count_eq_one_of_mem hnd hy, List.sum_map_mul_right, sum_map_count_of_subset hnd hsub, Nat.cast_one,
    one_mul, mul_div_cancel_of_imp' fun h => absurd h hlen]
  ring

omit hb in
theorem share_nonneg (h0 : 0 ≤ b.attention) : 0 ≤ b.attention * (1 / 10) / b.outgoingLinks.length :=
  div_nonneg (mul_nonneg h0 (by norm_num)) (Nat.cast_nonneg _)

theorem attentionStep_nonneg (h : ∀ p a, mem.objects p = some a → 0 ≤ a.attention) :
    ∀ p a, (attentionStep mem y).objects p = some a → 0 ≤ a.attention := fun p a hp => by
  rw [attentionStep_objects hb] at hp
  obtain ⟨a', ha', rfl⟩ := Option.map_eq_some'.mp hp
  split_ifs
  · exact le_trans (by norm_num) (le_max_left _ _)
  · exact add_nonneg (h p a' ha') (mul_nonneg (Nat.cast_nonneg _) (share_nonneg (h y b hb)))

theorem attentionStep_le (h0 : 0 ≤ b.attention) {x : Nat} {a : Atom} (ha : mem.objects x = some a) :
    ∃ a' ∈ (attentionStep mem y).objects x, a'.outgoingLinks = a.outgoingLinks ∧
      (x ≠ y → a.attention ≤ a'.attention) := by
  have hobj := attentionStep_objects hb x
  rw [ha, Option.map_some'] at hobj
  refine ⟨_, hobj, rfl, fun hxy => ?_⟩
  rw [Atom.setAttention_attention, if_neg hxy]
  exact le_add_of_nonneg_right (mul_nonneg (Nat.cast_nonneg _) (share_nonneg h0))

end Turn

section Pass

variable {mem₀ : Memory} {S : List Nat}

structure GainBound (mem₀ : Memory) (S done : List Nat) (mem : Memory) : Prop where
  nonneg : ∀ p a, mem.objects p = some a → 0 ≤ a.attention
  present : ∀ x ∈ S, ∀ a ∈ mem₀.objects x, ∃ a' ∈ mem.objects x, a'.outgoingLinks = a.outgoingLinks ∧
    (x ∉ done → a.attention ≤ a'.attention)
  total : mem₀.totalAttention S + (S.map fun x => if x ∈ done then mem₀.attentionOf x else 0).sum / 20 ≤
    mem.totalAttention S

theorem GainBound.init (h : ∀ p a, mem₀.objects p = some a → 0 ≤ a.attention) :
    GainBound mem₀ S [] mem₀ :=
  ⟨h, fun _ _ a ha => ⟨a, ha, rfl, fun _ => le_rfl⟩, by simp⟩

theorem GainBound.isSome (hS : mem₀.LinkClosed S) {done : List Nat} {mem : Memory}
    (h : GainBound mem₀ S done mem) {x : Nat} (hx : x ∈ S) : (mem.objects x).isSome := by
  obtain ⟨a, ha⟩ := Option.isSome_iff_exists.mp (hS.present x hx)
  obtain ⟨a', ha', -⟩ := h.present x hx a ha
  exact Option.isSome_iff_exists.mpr ⟨a', ha'⟩

theorem GainBound.step (hS : mem₀.LinkClosed S) {done : List Nat} {mem : Memory}
    (h : GainBound mem₀ S done mem) {y : Nat} (hy : y ∉ done) :
    GainBound mem₀ S (done ++ [y]) (attentionStep mem y) := by
  have hgain := sum_map_ite_append hS.nodup hy mem₀.attentionOf
  have hpresent : ∀ x ∈ S, (mem.objects x).isSome := fun x hx => h.isSome hS hx
  cases hb : mem.objects y with
  | none =>
    have hyS : y ∉ S := fun hyS => by simpa [hb] using hpresent y hyS
    rw [show attentionStep mem y = mem by simp [attentionStep, hb]]
    refine ⟨h.nonneg, fun x hx a ha => ?_, ?_⟩
    · obtain ⟨a', ha', hl, hle⟩ := h.present x hx a ha
      exact ⟨a', ha', hl, fun hx' => hle fun hd => hx' (List.mem_append_left _ hd)⟩
    · rw [hgain, if_neg hyS, add_zero]
      exact h.total
  | some b =>
    have hb0 := h.nonneg y b hb
    refine ⟨attentionStep_nonneg hb h.nonneg, fun x hx a ha => ?_, ?_⟩
    · obtain ⟨a', ha', hl, hle⟩ := h.present x hx a ha
      obtain ⟨a'', ha'', hl', hle'⟩ := attentionStep_le hb hb0 ha'
      exact ⟨a'', ha'', hl'.trans hl, fun hx' => (hle fun hd => hx' (List.mem_append_left _ hd)).trans
        (hle' fun e => hx' (List.mem_append_right _ (e ▸ List.mem_singleton_self _)))⟩
    · rw [hgain]
      by_cases hyS : y ∈ S
      · obtain ⟨a, ha⟩ := Option.isSome_iff_exists.mp (hS.present y hyS)
        obtain ⟨a', ha', hl, hle⟩ := h.present y hyS a ha
        rw [hb] at ha'
        cases ha'
        obtain ⟨hne, hself, hsub⟩ := hS.linked y hyS a ha
        rw [← hl] at hne hself hsub
        rw [totalAttention_attentionStep_mem hb hS.nodup hyS hpresent hne hself hsub, if_pos hyS,
          attentionOf_of_objects ha]
        linarith [h.total, hle hy, le_max_right (1 / 100 : ℚ) (b.attention * (95 / 100))]
      · rw [totalAttention_attentionStep_not_mem hb hyS hpresent, if_neg hyS, add_zero]
        exact h.total.trans (le_add_of_nonneg_right (mul_nonneg (List.sum_nonneg fun _ hx => by
          obtain ⟨x, -, rfl⟩ := List.mem_map.mp hx
          exact Nat.cast_nonneg _) (share_nonneg hb0)))

theorem GainBound.foldl (hS : mem₀.LinkClosed S) (ys : List Nat) {done : List Nat} {mem : Memory}
    (hnd : (done ++ ys).Nodup) (h : GainBound mem₀ S done mem) :
    GainBound mem₀ S (done ++ ys) (ys.foldl attentionStep mem) := by
  induction ys generalizing done mem with
  | nil => simpa using h
  | cons y ys ih =>
    have hy : y ∉ done := fun hy => (List.nodup_append.mp hnd).2.2 hy (List.mem_cons_self y ys)
    simpa using ih (by simpa using hnd) (h.step hS hy)

end Pass

theorem updateAttentionValues_gain {g : Graph} {S : List Nat} (hS : g.mem.LinkClosed S)
    (hsub : ∀ x ∈ S, x ∈ g.stored) (hnd : g.stored.Nodup)
    (hnn : ∀ p a, g.mem.objects p = some a → 0 ≤ a.attention) :
    g.updateAttentionValues.mem.LinkClosed S ∧
      (∀ p a, g.updateAttentionValues.mem.objects p = some a → 0 ≤ a.attention) ∧
      21 / 20 * g.mem.totalAttention S ≤ g.updateAttentionValues.mem.totalAttention S := by
  have h := (GainBound.init (S := S) hnn).foldl hS g.stored (by simpa using hnd)
  rw [List.nil_append] at h
  rw [updateAttentionValues_mem]
  refine ⟨⟨hS.nodup, fun x hx => h.isSome hS hx, fun y hy b' hb' => ?_⟩, h.nonneg, ?_⟩
  · obtain ⟨a, ha⟩ := Option.isSome_iff_exists.mp (hS.present y hy)
    obtain ⟨a', ha', hl, -⟩ := h.present y hy a ha
    rw [Option.mem_def.mp hb'] at ha'
    cases ha'
    rw [hl]
    exact hS.linked y hy a ha
  · have hall : (S.map fun x => if x ∈ g.stored then g.mem.attentionOf x else 0).sum = g.mem.totalAttention S :=
      congrArg List.sum (List.map_congr_left fun x hx => if_pos (hsub x hx))
    linarith [h.total]

theorem space_iterate_updateAttentionValues (g : Graph) (n : Nat) :
    (updateAttentionValues^[n] g).space = g.space := by
  induction n with
  | zero => rfl
  | succ n ih => rw [Function.iterate_succ_apply']; exact ih

theorem iterate_updateAttentionValues_gain {g : Graph} {S : List Nat} (hS : g.mem.LinkClosed S)
    (hsub : ∀ x ∈ S, x ∈ g.stored) (hnd : g.stored.Nodup)
    (hnn : ∀ p a, g.mem.objects p = some a → 0 ≤ a.attention) (n : Nat) :
    (updateAttentionValues^[n] g).mem.LinkClosed S ∧
      (∀ p a, (updateAttentionValues^[n] g).mem.objects p = some a → 0 ≤ a.attention) ∧
      (21 / 20) ^ n * g.mem.totalAttention S ≤ (updateAttentionValues^[n] g).mem.totalAttention S := by
  induction n with
  | zero => simpa using ⟨hS, hnn⟩
  | succ n ih =>
    obtain ⟨hS', hnn', hgrow⟩ := ih
    have hstored : (updateAttentionValues^[n] g).stored = g.stored := by
      unfold stored
      rw [space_iterate_updateAttentionValues]
    obtain ⟨hS'', hnn'', hstep⟩ :=
      updateAttentionValues_gain hS' (hstored ▸ hsub) (hstored ▸ hnd) hnn'
    rw [Function.iterate_succ_apply']
    refine ⟨hS'', hnn'', ?_⟩
    calc (21 / 20) ^ (n + 1) * g.mem.totalAttention S
        = 21 / 20 * ((21 / 20) ^ n * g.mem.totalAttention S) := by ring
      _ ≤ 21 / 20 * (updateAttentionValues^[n] g).mem.totalAttention S :=
        mul_le_mul_of_nonneg_left hgrow (by norm_num)
      _ ≤ _ := hstep

theorem attention_unbounded {g : Graph} {S : List Nat} (hS : g.mem.LinkClosed S)
    (hsub : ∀ x ∈ S, x ∈ g.stored) (hnd : g.stored.Nodup)
    (hnn : ∀ p a, g.mem.objects p = some a → 0 ≤ a.attention) (hpos : 0 < g.mem.totalAttention S) :
    (∀ n, (21 / 20) ^ n * g.mem.totalAttention S ≤ (updateAttentionValues^[n] g).mem.totalAttention S) ∧
      ∀ M : ℚ, ∃ n, M < (updateAttentionValues^[n] g).mem.totalAttention S := by
  have hgrow := fun n => (iterate_updateAttentionValues_gain hS hsub hnd hnn n).2.2
  refine ⟨hgrow, fun M => ?_⟩
  obtain ⟨n, hn⟩ := pow_unbounded_of_one_lt (M / g.mem.totalAttention S) (by norm_num : (1 : ℚ) < 21 / 20)
  exact ⟨n, lt_of_lt_of_le ((div_lt_iff₀ hpos).mp hn) (hgrow n)⟩

end Graph

namespace CognitiveSystem

theorem updateSystem_initialized (g : Graph) (s : CognitiveSystem) :
    (updateSystem g s).2.initialized = s.initialized := by
  unfold updateSystem
  split
  · refine List.foldlRecOn (motive := fun s' : CognitiveSystem => s'.initialized = s.initialized) _ _ _ rfl fun s' h goal _ => ?_
    unfold updateGoal
    dsimp only
    split_ifs <;> exact h
  · rfl

end CognitiveSystem

namespace World

theorem apply_updateSystem {w : World} (hi : w.system.map CognitiveSystem.initialized = some true)
    (hh : w.halted = false) :
    (w.apply .updateSystem).graph = w.graph.updateAttentionValues ∧
      (w.apply .updateSystem).system.map CognitiveSystem.initialized = some true ∧
      (w.apply .updateSystem).halted = false := by
  obtain ⟨s, hs, hsi⟩ := Option.map_eq_some'.mp hi
  have happly : w.apply .updateSystem = w.withSystem CognitiveSystem.updateSystem := by
    unfold apply
    rw [hh]
    rfl
  rw [happly]
  unfold withSystem
  rw [hs]
  exact ⟨by simp [CognitiveSystem.updateSystem, hsi],
    by simp [CognitiveSystem.updateSystem_initialized, hsi], hh⟩

theorem run_replicate_updateSystem {w : World} (hi : w.system.map CognitiveSystem.initialized = some true)
    (hh : w.halted = false) (n : Nat) :
    (w.run (List.replicate n .updateSystem)).graph = Graph.updateAttentionValues^[n] w.graph := by
  induction n generalizing w with
  | zero => rfl
  | succ n ih =>
    obtain ⟨hg, hi', hh'⟩ := apply_updateSystem hi hh
    show ((w.apply .updateSystem).run (List.replicate n .updateSystem)).graph = _
    rw [ih hi' hh', hg, Function.iterate_succ_apply]

theorem updateSystem_attention_unbounded {w : World}
    (hi : w.system.map CognitiveSystem.initialized = some true) (hh : w.halted = false) (hnd : w.graph.stored.Nodup)
    (hnn : ∀ p a, w.graph.mem.objects p = some a → 0 ≤ a.attention) {S : List Nat}
    (hS : w.graph.mem.LinkClosed S) (hsub : ∀ x ∈ S, x ∈ w.graph.stored)
    (hpos : 0 < w.graph.mem.totalAttention S) :
    (∀ n, (21 / 20) ^ n * w.graph.mem.totalAttention S ≤
        (w.run (List.replicate n .updateSystem)).graph.mem.totalAttention S) ∧
      ∀ M : ℚ, ∃ n, M < (w.run (List.replicate n .updateSystem)).graph.mem.totalAttention S := by
  simp only [run_replicate_updateSystem hi hh]
  exact Graph.attention_unbounded hS hsub hnd hnn hpos

theorem linkedPair_unbounded :
    linkedPair.system.map CognitiveSystem.initialized = some true ∧ linkedPair.halted = false ∧
      linkedPair.graph.stored.Nodup ∧ (∀ p a, linkedPair.graph.mem.objects p = some a → 0 ≤ a.attention) ∧
      linkedPair.graph.mem.LinkClosed [21, 22] ∧ (∀ x ∈ [21, 22], x ∈ linkedPair.graph.stored) ∧
      0 < linkedPair.graph.mem.totalAttention [21, 22] ∧
      (∀ n, (21 / 20) ^ n * linkedPair.graph.mem.totalAttention [21, 22] ≤
        (linkedPair.run (List.replicate n .updateSystem)).graph.mem.totalAttention [21, 22]) ∧
      ∀ M : ℚ, ∃ n, M < (linkedPair.run (List.replicate n .updateSystem)).graph.mem.totalAttention [21, 22] :=
  have hi : linkedPair.system.map CognitiveSystem.initialized = some true := rfl
  have hh : linkedPair.halted = false := rfl
  have hnd : linkedPair.graph.stored.Nodup := by decide
  have hnn : ∀ p a, linkedPair.graph.mem.objects p = some a → 0 ≤ a.attention := fun p a h =>
    le_trans (by norm_num) (init.run_floorStep (by simp [Op.Allowed]) Memory.init_attentionFloor p a h)
  have hS : linkedPair.graph.mem.LinkClosed [21, 22] := ⟨by decide, by decide, by decide⟩
  have hsub : ∀ x ∈ [21, 22], x ∈ linkedPair.graph.stored := by decide
  have hpos : 0 < linkedPair.graph.mem.totalAttention [21, 22] := by with_unfolding_all decide
  ⟨hi, hh, hnd, hnn, hS, hsub, hpos, updateSystem_attention_unbounded hi hh hnd hnn hS hsub hpos⟩

end World

end CogWsl
