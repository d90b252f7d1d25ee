import OpenRecall.Model.Provisioning
import OpenRecall.Foundation.Run

/-!
# What a boot loads

The key is persisted before the state flips, so that a boot finds what is in memory. But the write of
the flag is not looked at: when only that one fails, the operation reports success and a boot finds
the sensor unprovisioned. And an operation that fails after its first write leaves what it wrote.

`bootSafe_iff` says exactly which failures these are, for every run of operations.
-/

set_option autoImplicit false

namespace OpenRecall.Analysis.ProvisionedBoot

open Foundation OpenRecall.Model OpenRecall.Model.Provisioning

/-! ## The law and the condition -/

def step (d : Sensor) (op : Operation) : Sensor := (op.perform d).2

/-- After an operation that reports success a boot would load what is in memory; one that reports
failure changes neither. -/
def BootSafe (d : Sensor) (op : Operation) : Prop :=
  if (op.perform d).1 then (step d op).core = init (step d op).nvs
  else (step d op).core = d.core ∧ init (step d op).nvs = init d.nvs

/-- There is a key of the right length. -/
def Held (s : Nvs) : Prop := ∃ key, s.key = some key ∧ key.length = 32

/-- The flag is set. -/
def Flagged (s : Nvs) : Prop := s.provisioned.getD 0 ≠ 0

instance (s : Nvs) : Decidable (Flagged s) := inferInstanceAs (Decidable (_ ≠ _))

/-- A key that is applied gets its flag, and one that is not does not end up beside a flag; a reset
that fails leaves a provisioned sensor its key and its flag. -/
def Atomic (d : Sensor) : Operation → Prop
  | .applyKey _ run => d.core.state = .unprovisioned → run.opens →
      if run.key.ok ∧ run.commits then run.flag.ok ∨ run.flag.lands ∨ Flagged d.nvs
      else ¬ ((run.key.lands ∨ Held d.nvs) ∧ (run.key.ok ∧ run.flag.lands ∨ Flagged d.nvs))
  | .factoryReset run => d.core.state = .provisioned → run.opens →
      ¬ (run.key.ok ∧ run.commits) → ¬ run.key.lands ∧ ¬ (run.key.ok ∧ run.flag.lands)

/-! ## What a boot finds -/

theorem init_of_not {s : Nvs} (h : ¬ (Held s ∧ Flagged s)) :
    init s = ⟨.unprovisioned, zeroKey⟩ := by
  unfold init nvsGet
  cases hkey : s.key with
  | none => rfl
  | some key =>
    by_cases hlength : key.length = 32
    · have hflag : s.provisioned.getD 0 = 0 := by
        by_contra hset
        exact h ⟨⟨key, hkey, hlength⟩, hset⟩
      simp [hlength, hflag]
    · simp [hlength]

theorem init_of_held {s : Nvs} {key : Bytes} (hkey : s.key = some key) (h : key.length = 32)
    (hflag : Flagged s) : init s = ⟨.provisioned, ⟨key, h⟩⟩ := by
  unfold Flagged at hflag
  simp [init, nvsGet, hkey, h, hflag]

/-- A boot finds the sensor provisioned exactly with a key and a flag. -/
theorem state_init_iff (s : Nvs) : (init s).state = .provisioned ↔ Held s ∧ Flagged s := by
  by_cases h : Held s ∧ Flagged s
  · obtain ⟨⟨key, hkey, hlength⟩, hflag⟩ := h
    simp [init_of_held hkey hlength hflag, hflag, Held, hkey, hlength]
  · simp [init_of_not h, h]

theorem init_eq_iff (s : Nvs) :
    init s = ⟨.unprovisioned, zeroKey⟩ ↔ ¬ (Held s ∧ Flagged s) := by
  constructor
  · intro h hboth
    have hstate := (state_init_iff s).mpr hboth
    rw [h] at hstate
    cases hstate
  · exact init_of_not

/-! ## The operations -/

/-- What a call on the open storage writes, entry by entry. -/
theorem nvsWrite_of_opens {run : NvsRun} (h : run.opens = true) (key : Option Bytes) (flag : UInt8)
    (s : Nvs) : nvsWrite run key flag s =
      (run.key.ok && run.commits,
        { key := if run.key.ok && run.commits || run.key.lands then key else s.key
          provisioned := if run.key.ok && (run.flag.ok && run.commits || run.flag.lands) then some flag
            else s.provisioned }) := by
  unfold nvsWrite Write.found
  cases hok : run.key.ok <;> simp [h]

/-- A sensor that holds what a boot would load. -/
def Booted (d : Sensor) : Prop := d.core = init d.nvs

theorem Booted.step {d : Sensor} {op : Operation} (h : Booted d) (hsafe : BootSafe d op) :
    Booted (step d op) := by
  unfold BootSafe at hsafe
  split_ifs at hsafe
  · exact hsafe
  · exact hsafe.1.trans (h.trans hsafe.2.symm)

/-- A call that does not reach the storage changes nothing. -/
theorem bootSafe_of_same {d : Sensor} {op : Operation} (h : op.perform d = (false, d)) :
    BootSafe d op := by
  simp [BootSafe, ProvisionedBoot.step, h]

/-- **Applying a key.** -/
theorem bootSafe_applyKey_iff {d : Sensor} (h : Booted d) (key : Key) (run : NvsRun) :
    BootSafe d (.applyKey key run) ↔ Atomic d (.applyKey key run) := by
  cases hstate : d.core.state with
  | provisioned =>
    refine iff_of_true (bootSafe_of_same ?_) (by simp [Atomic, hstate])
    simp [Operation.perform, applyKey, hstate]
  | unprovisioned =>
    cases hopens : run.opens with
    | false =>
      refine iff_of_true (bootSafe_of_same ?_) (by simp [Atomic, hopens])
      simp [Operation.perform, applyKey, hstate, nvsSet, nvsWrite, hopens]
    | true =>
      have hbefore : ¬ (Held d.nvs ∧ Flagged d.nvs) := by
        rw [← state_init_iff, ← h, hstate]
        simp
      obtain ⟨next, hnext⟩ : ∃ next, next = (nvsSet run key d.nvs).2 := ⟨_, rfl⟩
      have hset : nvsSet run key d.nvs = (run.key.ok && run.commits, next) := by
        rw [hnext, nvsSet, nvsWrite_of_opens hopens]
      have hflagged : Flagged next ↔
          run.key.ok ∧ (run.flag.ok ∧ run.commits ∨ run.flag.lands) ∨ Flagged d.nvs := by
        rw [hnext, nvsSet, nvsWrite_of_opens hopens]
        simp only [Flagged]
        split_ifs with hwritten
        · simpa using Or.inl hwritten
        · simp_all
      cases hdone : run.key.ok && run.commits with
      | true =>
        obtain ⟨hok, hcommits⟩ := Bool.and_eq_true_iff.mp hdone
        have hkey : next.key = some key.toList := by
          simp [hnext, nvsSet, nvsWrite_of_opens hopens, hok, hcommits]
        have hlaw : BootSafe d (.applyKey key run) ↔ (⟨.provisioned, key⟩ : Core) = init next := by
          simp [BootSafe, ProvisionedBoot.step, Operation.perform, applyKey, hstate, hset, hok,
            hcommits]
        have hcond : Atomic d (.applyKey key run) ↔ Flagged next := by
          simp [Atomic, hstate, hopens, hok, hcommits, hflagged, or_assoc]
        rw [hlaw, hcond]
        constructor
        · intro hload
          exact ((state_init_iff next).mp (by rw [← hload])).2
        · exact fun hflag => (init_of_held hkey key.toList_length hflag).symm
      | false =>
        have hheld : Held next ↔ run.key.lands ∨ Held d.nvs := by
          rw [hnext, nvsSet, nvsWrite_of_opens hopens]
          simp only [Held, hdone, Bool.false_or]
          split_ifs with hlands <;> simp [hlands]
        have hlaw : BootSafe d (.applyKey key run) ↔ init next = init d.nvs := by
          simp [BootSafe, ProvisionedBoot.step, Operation.perform, applyKey, hstate, hset, hdone]
        rw [hlaw, init_of_not hbefore, init_eq_iff, hheld, hflagged]
        simp only [Bool.and_eq_false_iff] at hdone
        simp only [Atomic, hstate, hopens, true_implies]
        rw [if_neg (by grind)]
        grind

/-- **A factory reset.** -/
theorem bootSafe_factoryReset_iff {d : Sensor} (h : Booted d) (run : NvsRun) :
    BootSafe d (.factoryReset run) ↔ Atomic d (.factoryReset run) := by
  cases hopens : run.opens with
  | false =>
    refine iff_of_true (bootSafe_of_same ?_) (by simp [Atomic, hopens])
    simp [Operation.perform, factoryReset, nvsClear, nvsWrite, hopens]
  | true =>
    obtain ⟨next, hnext⟩ : ∃ next, next = (nvsClear run d.nvs).2 := ⟨_, rfl⟩
    have hclear : nvsClear run d.nvs = (run.key.ok && run.commits, next) := by
      rw [hnext, nvsClear, nvsWrite_of_opens hopens]
    cases hdone : run.key.ok && run.commits with
    | true =>
      obtain ⟨hok, hcommits⟩ := Bool.and_eq_true_iff.mp hdone
      have hkey : next.key = none := by
        simp [hnext, nvsClear, nvsWrite_of_opens hopens, hok, hcommits]
      refine iff_of_true ?_ (by simp [Atomic, hok, hcommits])
      have hload : init next = ⟨.unprovisioned, zeroKey⟩ := init_of_not (by simp [Held, hkey])
      simp [BootSafe, ProvisionedBoot.step, Operation.perform, factoryReset, hclear, hok, hcommits,
        hload]
    | false =>
      have hlaw : BootSafe d (.factoryReset run) ↔ init next = init d.nvs := by
        simp [BootSafe, ProvisionedBoot.step, Operation.perform, factoryReset, hclear, hdone]
      have hkey : next.key = if run.key.lands then none else d.nvs.key := by
        simp [hnext, nvsClear, nvsWrite_of_opens hopens, hdone]
      have hprovisioned : next.provisioned =
          if run.key.ok && run.flag.lands then some 0 else d.nvs.provisioned := by
        rw [hnext, nvsClear, nvsWrite_of_opens hopens]
        grind
      have hheld : Held next → Held d.nvs := by
        unfold Held
        rw [hkey]
        split_ifs <;> simp
      have hflagged : Flagged next → Flagged d.nvs := by
        unfold Flagged
        rw [hprovisioned]
        split_ifs <;> simp
      rw [hlaw]
      by_cases hbefore : Held d.nvs ∧ Flagged d.nvs
      · have hstate : d.core.state = .provisioned := by
          rw [h, state_init_iff]
          exact hbefore
        have hcond : Atomic d (.factoryReset run) ↔
            ¬ run.key.lands ∧ ¬ (run.key.ok ∧ run.flag.lands) := by
          have hnot : ¬ (run.key.ok = true ∧ run.commits = true) := by
            rw [← Bool.and_eq_true_iff, hdone]
            exact Bool.false_ne_true
          simp only [Atomic, hstate, hopens, true_implies, hnot, not_false_eq_true]
        rw [hcond]
        constructor
        · -- what is erased, or zeroed, a boot does not find
          intro hload
          have hafter : Held next ∧ Flagged next := by
            rw [← state_init_iff, hload, state_init_iff]
            exact hbefore
          refine ⟨fun hlands => ?_, fun hzeroed => ?_⟩
          · simp [Held, hkey, hlands] at hafter
          · simp [Flagged, hprovisioned, hzeroed] at hafter
        · rintro ⟨hkept, hset⟩
          have hsamekey : next.key = d.nvs.key := by simp [hkey, hkept]
          have hsameflag : next.provisioned = d.nvs.provisioned := by
            rw [hprovisioned, if_neg (by simpa using hset)]
          have hsame : next = d.nvs := by
            calc next = ⟨next.key, next.provisioned⟩ := rfl
              _ = d.nvs := by rw [hsamekey, hsameflag]
          rw [hsame]
      · have hstate : d.core.state ≠ .provisioned := by
          rw [h, ne_eq, state_init_iff]
          exact hbefore
        refine iff_of_true ?_ (by simp [Atomic, hstate])
        rw [init_of_not hbefore, init_of_not fun hafter => hbefore ⟨hheld hafter.1, hflagged hafter.2⟩]

/-! ## Runs -/

/-- **What a boot loads is what is in memory**, after every operation of a run on a sensor that has
booted, exactly when the writes of each operation stand together: each applied key has its flag, and
each operation that fails leaves no part of itself.
SOURCE: provisioning_core.c:9-36, provisioning.c:22-54 -/
theorem bootSafe_iff (nvs : Nvs) (ops : List Operation) :
    EveryStep step BootSafe ⟨init nvs, nvs⟩ ops ↔ EveryStep step Atomic ⟨init nvs, nvs⟩ ops := by
  refine everyStep_iff_of_invariant (I := Booted) (fun d op h _ => h.step) (fun d op h _ => ?_) rfl
    (everyStep_true _ ops)
  cases op with
  | applyKey key run => exact bootSafe_applyKey_iff h key run
  | factoryReset run => exact bootSafe_factoryReset_iff h run

/-- The storage has no room for the flag. -/
def flagFails : NvsRun where
  opens := true
  key := ⟨true, true⟩
  flag := ⟨false, false⟩
  commits := true

/-- The key is applied, but the next boot is unprovisioned. -/
theorem not_always_bootSafe :
    ¬ ∀ (nvs : Nvs) (ops : List Operation), EveryStep step BootSafe ⟨init nvs, nvs⟩ ops := by
  intro h
  have happlied : (⟨.provisioned, List.Vector.replicate 32 1⟩ : Core) = ⟨.unprovisioned, zeroKey⟩ :=
    (h {} [.applyKey (List.Vector.replicate 32 1) flagFails]).1
  exact ProvState.noConfusion (congrArg Core.state happlied)

end OpenRecall.Analysis.ProvisionedBoot
