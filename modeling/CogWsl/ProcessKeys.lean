import CogWsl.Integration

/-!
The keys the integration layer files a process under: `"Process:" + d + ":" + to_string(p)`
for the atom and the `m_processMapping` entry of `CognitiveIntegrationManager`, and
`d + ":" + to_string(p)` for the entries of `CognitiveProcessMonitor`. The decimal rendering of a
pid has no `':'`, so the last `':'` of a key splits it back into the distro id and the pid, what
colons the distro id may hold.
-/

namespace CogWsl

section Decimal

def digitsValue (acc : Nat) (cs : List Char) : Nat :=
  cs.foldl (fun acc c => acc * 10 + (c.toNat - '0'.toNat)) acc

theorem digitChar_value : ∀ k < 10, (Nat.digitChar k).toNat - '0'.toNat = k := by
  decide

theorem digitChar_ne_colon : ∀ k < 10, Nat.digitChar k ≠ ':' := by
  decide

theorem toDigitsCore_succ (f n : Nat) (ds : List Char) :
    Nat.toDigitsCore 10 (f + 1) n ds =
      if n / 10 = 0 then Nat.digitChar (n % 10) :: ds
      else Nat.toDigitsCore 10 f (n / 10) (Nat.digitChar (n % 10) :: ds) := rfl

theorem digitsValue_toDigitsCore (f n : Nat) (ds : List Char) (hn : n < f) :
    digitsValue 0 (Nat.toDigitsCore 10 f n ds) = digitsValue n ds := by
  induction f generalizing n ds with
  | zero => omega
  | succ f ih =>
    have hd := digitChar_value (n % 10) (Nat.mod_lt n (by decide))
    rw [toDigitsCore_succ]
    split
    · rename_i h0
      simp only [digitsValue, List.foldl_cons, zero_mul, zero_add, hd]
      rw [Nat.mod_eq_of_lt (by omega)]
    · rw [ih _ _ (by omega)]
      simp only [digitsValue, List.foldl_cons, hd, Nat.div_add_mod']

theorem toDigits_injective {m n : Nat} (h : Nat.toDigits 10 m = Nat.toDigits 10 n) : m = n := by
  have hv := congrArg (digitsValue 0) h
  rwa [show Nat.toDigits 10 m = Nat.toDigitsCore 10 (m + 1) m [] from rfl,
    show Nat.toDigits 10 n = Nat.toDigitsCore 10 (n + 1) n [] from rfl,
    digitsValue_toDigitsCore _ _ _ (by omega),
    digitsValue_toDigitsCore _ _ _ (by omega)] at hv

theorem colon_not_mem_toDigitsCore (f n : Nat) (ds : List Char) (hds : ':' ∉ ds) :
    ':' ∉ Nat.toDigitsCore 10 f n ds := by
  have hd : Nat.digitChar (n % 10) ≠ ':' := digitChar_ne_colon _ (Nat.mod_lt n (by decide))
  induction f generalizing n ds with
  | zero => exact hds
  | succ f ih =>
    rw [toDigitsCore_succ]
    split
    · simp [hds, Ne.symm hd]
    · exact ih _ _ (by simp [hds, Ne.symm hd]) (digitChar_ne_colon _ (Nat.mod_lt _ (by decide)))

theorem uint32_toString_data (p : UInt32) : (toString p).data = Nat.toDigits 10 p.toNat := rfl

theorem colon_not_mem_toString (p : UInt32) : ':' ∉ (toString p).data := by
  rw [uint32_toString_data]
  exact colon_not_mem_toDigitsCore _ _ _ (List.not_mem_nil _)

theorem toString_injective {p q : UInt32} (h : (toString p).data = (toString q).data) : p = q := by
  rw [uint32_toString_data, uint32_toString_data] at h
  exact UInt32.toNat.inj (toDigits_injective h)

end Decimal

theorem append_cons_inj_of_not_mem {c : Char} :
    ∀ {l₁ l₂ r₁ r₂ : List Char}, l₁ ++ c :: r₁ = l₂ ++ c :: r₂ → c ∉ r₁ → c ∉ r₂ →
      l₁ = l₂ ∧ r₁ = r₂
  | [], [], _, _, h, _, _ => ⟨rfl, (List.cons.inj h).2⟩
  | [], _ :: l₂, _, _, h, h₁, _ => absurd (by simp [(List.cons.inj h).2]) h₁
  | _ :: l₁, [], _, _, h, _, h₂ => absurd (by simp [← (List.cons.inj h).2]) h₂
  | _ :: _, _ :: _, _, _, h, h₁, h₂ => by
    obtain ⟨rfl, ht⟩ := List.cons.inj h
    obtain ⟨rfl, rfl⟩ := append_cons_inj_of_not_mem ht h₁ h₂
    exact ⟨rfl, rfl⟩

theorem colon_key_inj {x₁ x₂ : String} {p₁ p₂ : UInt32}
    (h : x₁ ++ ":" ++ toString p₁ = x₂ ++ ":" ++ toString p₂) : x₁ = x₂ ∧ p₁ = p₂ := by
  have hd := congrArg String.data h
  simp only [String.data_append, List.append_assoc] at hd
  obtain ⟨hx, hp⟩ := append_cons_inj_of_not_mem hd (colon_not_mem_toString p₁)
    (colon_not_mem_toString p₂)
  exact ⟨String.ext hx, toString_injective hp⟩

namespace World

theorem withSystem_processMapping (w : World) (f : Graph → CognitiveSystem → Graph × CognitiveSystem) :
    (w.withSystem f).processMapping = w.processMapping := by
  unfold withSystem
  split <;> rfl

theorem updateProcessKnowledge_trackedProcesses (w : World) (process : ProcessInfo) :
    (w.updateProcessKnowledge process).trackedProcesses = w.trackedProcesses := by
  unfold updateProcessKnowledge
  split
  · rfl
  · split <;> rfl

theorem onProcessDestroy_processMapping (w : World) (d : String) (p : UInt32) (exitCode : Int)
    (name : String) :
    (w.onProcessDestroy d p exitCode).processMapping.lookup name =
      if w.system.isSome ∧ name = processName d p then none else w.processMapping.lookup name := by
  unfold onProcessDestroy
  split
  · rename_i hs
    simp [Option.isNone_iff_eq_none.mp hs]
  · rename_i hs
    have hsome : w.system.isSome = true := by cases h : w.system <;> simp_all
    simp only [countEvent, processWslEvent, withSystem_processMapping]
    by_cases hn : name = processName d p
    · rw [if_pos ⟨hsome, hn⟩, hn, AList.lookup_erase]
    · simp [hn, AList.lookup_erase_ne hn]

theorem processName_inj {d₁ d₂ : String} {p₁ p₂ : UInt32}
    (h : processName d₁ p₁ = processName d₂ p₂) : d₁ = d₂ ∧ p₁ = p₂ := by
  obtain ⟨hd, hp⟩ := colon_key_inj h
  exact ⟨String.ext (List.append_cancel_left (congrArg String.data hd)), hp⟩

end World

end CogWsl
