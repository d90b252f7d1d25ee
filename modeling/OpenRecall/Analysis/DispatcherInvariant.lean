import OpenRecall.Model.Dispatcher

/-!
# What every dispatcher call preserves

`Valid` relates the dispatcher's maps: a signed command is filed under its own id, a key
names a tracked command that carries it, and an unacked command is the one its key
names. `issue_cases` says once what `issue` can do; the invariant, and every later fact
about a run, goes through it.
-/

set_option autoImplicit false

namespace OpenRecall.Model.CommandDispatcher

open Foundation

/-- How the dispatcher's maps fit together. -/
structure Valid (d : CommandDispatcher) : Prop where
  signed_id : ∀ id sc, d.signed.get? id = some sc → sc.command.commandId = id
  idem_signed : ∀ key id, d.idem.get? key = some id →
    ∃ sc, d.signed.get? id = some sc ∧ sc.command.idempotencyKey = some key
  unacked_held : ∀ id sc key, d.signed.get? id = some sc →
    sc.command.idempotencyKey = some key → key ≠ "" → id ∉ d.acked →
    d.idem.get? key = some id

/-- The holder of a key is the unacked command the key names.
SOURCE: commands/dispatcher.py:71-76 -/
theorem heldBy_eq_some_iff (d : CommandDispatcher) (key : Option String) (sc : SignedCommand) :
    d.heldBy key = some sc ↔ ∃ k id, key = some k ∧ k ≠ "" ∧ d.idem.get? k = some id ∧
      id ∉ d.acked ∧ d.signed.get? id = some sc := by
  unfold heldBy
  cases key with
  | none => simp
  | some k =>
    by_cases hk : k = ""
    · simp [hk]
    · simp only [hk, if_false, Option.some.injEq]
      cases hid : d.idem.get? k with
      | none =>
        constructor
        · intro h; cases h
        · rintro ⟨k', id, rfl, -, h, -⟩
          rw [hid] at h
          cases h
      | some id =>
        by_cases hack : id ∈ d.acked
        · simp only [hack, if_true]
          constructor
          · intro h; cases h
          · rintro ⟨k', id', rfl, -, h, hn, -⟩
            obtain rfl : id = id' := Option.some.inj (hid.symm.trans h)
            exact absurd hack hn
        · simp only [hack, if_false]
          constructor
          · intro h
            exact ⟨k, id, rfl, hk, hid, hack, h⟩
          · rintro ⟨k', id', rfl, -, h, -, hsc⟩
            obtain rfl : id = id' := Option.some.inj (hid.symm.trans h)
            exact hsc

/-- A signed command is offered when it is tracked, unacked and unexpired.
SOURCE: commands/dispatcher.py:186-193 -/
theorem mem_pending_iff (d : CommandDispatcher) (now : Time) (sc : SignedCommand) :
    sc ∈ d.pending now ↔
      ∃ id, d.signed.get? id = some sc ∧ id ∉ d.acked ∧ ¬ sc.command.isExpired now := by
  simp only [pending, List.mem_map, List.mem_filter, decide_eq_true_eq]
  constructor
  · rintro ⟨⟨id, sc'⟩, ⟨hmem, hack, hexp⟩, rfl⟩
    exact ⟨id, (Dict.get?_eq_some_iff _ _ _).mpr hmem, hack, hexp⟩
  · rintro ⟨id, hget, hack, hexp⟩
    exact ⟨(id, sc), ⟨(Dict.get?_eq_some_iff _ _ _).mp hget, hack, hexp⟩, rfl⟩

/-- **What `issue` does**: it returns the unacked holder of the key, or the command
already filed under the id, and changes nothing; otherwise it tracks the new command.
SOURCE: commands/dispatcher.py:60-99 -/
theorem issue_cases (signer : CommandSigner) (now : Time) (c : Command) (d : CommandDispatcher) :
    (∃ sc, d.heldBy c.idempotencyKey = some sc ∧ d.issue signer now c = (sc, d)) ∨
    (d.heldBy c.idempotencyKey = none ∧
      ∃ sc, d.signed.get? c.commandId = some sc ∧ d.issue signer now c = (sc, d)) ∨
    (d.heldBy c.idempotencyKey = none ∧ d.signed.get? c.commandId = none ∧
      d.issue signer now c = (signer.sign c, d.track signer now c)) := by
  unfold issue
  cases hheld : d.heldBy c.idempotencyKey with
  | some sc => exact Or.inl ⟨sc, rfl, rfl⟩
  | none =>
    right
    cases hget : d.signed.get? c.commandId with
    | some sc => exact Or.inl ⟨rfl, sc, rfl, rfl⟩
    | none => exact Or.inr ⟨rfl, rfl, rfl⟩

@[simp] theorem track_acked (signer : CommandSigner) (now : Time) (c : Command)
    (d : CommandDispatcher) : (d.track signer now c).acked = d.acked := rfl

/-- The signed commands after tracking one more. -/
theorem track_signed (signer : CommandSigner) (now : Time) (c : Command)
    (d : CommandDispatcher) (id : String) :
    (d.track signer now c).signed.get? id =
      if id = c.commandId then some (signer.sign c) else d.signed.get? id :=
  Dict.get?_set _ _ _ _

/-- The key map after tracking one more: only a non-empty key is filed. -/
theorem track_idem (signer : CommandSigner) (now : Time) (c : Command)
    (d : CommandDispatcher) (key : String) :
    (d.track signer now c).idem.get? key =
      if c.idempotencyKey = some key ∧ key ≠ "" then some c.commandId else d.idem.get? key := by
  unfold CommandDispatcher.track
  dsimp only
  cases hkey : c.idempotencyKey with
  | none => simp
  | some k =>
    by_cases hk : k = ""
    · subst hk
      have hnot : ¬ (some "" = some key ∧ key ≠ "") := by
        rintro ⟨h, hne⟩
        exact hne (Option.some.inj h).symm
      simp only [if_true]
      rw [if_neg hnot]
    · simp only [hk, if_false, Dict.get?_set]
      by_cases h : key = k
      · subst h
        simp [hk]
      · have hnot : ¬ (some k = some key ∧ key ≠ "") := by
          rintro ⟨h', -⟩
          exact h (Option.some.inj h').symm
        rw [if_neg h, if_neg hnot]

/-- The empty dispatcher satisfies the invariant. -/
theorem valid_init (st : Option (Dict String CommandRecord)) :
    ({ store := st } : CommandDispatcher).Valid where
  signed_id := by intro id sc h; cases h
  idem_signed := by intro key id h; cases h
  unacked_held := by intro id sc key h; cases h

/-- Tracking a command under a fresh id whose key no unacked command holds keeps the
invariant. -/
theorem Valid.track {d : CommandDispatcher} (hd : d.Valid) (signer : CommandSigner) (now : Time)
    {c : Command} (hheld : d.heldBy c.idempotencyKey = none)
    (hfresh : d.signed.get? c.commandId = none) : (d.track signer now c).Valid where
  signed_id := by
    intro id sc hget
    rw [track_signed] at hget
    split_ifs at hget with h
    · obtain rfl := Option.some.inj hget
      exact h.symm
    · exact hd.signed_id id sc hget
  idem_signed := by
    intro key id hget
    rw [track_idem] at hget
    split_ifs at hget with h
    · obtain rfl := Option.some.inj hget
      refine ⟨signer.sign c, ?_, h.1⟩
      rw [track_signed, if_pos rfl]
    · obtain ⟨sc, hsc, hkey⟩ := hd.idem_signed key id hget
      have hne : id ≠ c.commandId := by
        rintro rfl
        rw [hfresh] at hsc
        cases hsc
      refine ⟨sc, ?_, hkey⟩
      rw [track_signed, if_neg hne]
      exact hsc
  unacked_held := by
    intro id sc key hget hkey hne hack
    rw [track_signed] at hget
    rw [track_idem]
    split_ifs at hget with h
    · obtain rfl := Option.some.inj hget
      rw [CommandSigner.sign_command] at hkey
      rw [if_pos ⟨hkey, hne⟩, h]
    · have hold := hd.unacked_held id sc key hget hkey hne hack
      -- the old command would have absorbed the new one, were their keys the same
      have hother : ¬ (c.idempotencyKey = some key ∧ key ≠ "") := by
        rintro ⟨hck, -⟩
        have hsome := (heldBy_eq_some_iff d c.idempotencyKey sc).mpr
          ⟨key, id, hck, hne, hold, hack, hget⟩
        rw [hheld] at hsome
        cases hsome
      rw [if_neg hother]
      exact hold

/-- Issuing keeps the invariant. -/
theorem Valid.issue {d : CommandDispatcher} (hd : d.Valid) (signer : CommandSigner) (now : Time)
    (c : Command) : (d.issue signer now c).2.Valid := by
  obtain ⟨sc, -, h⟩ | ⟨-, sc, -, h⟩ | ⟨hheld, hfresh, h⟩ := issue_cases signer now c d
  · rw [h]; exact hd
  · rw [h]; exact hd
  · rw [h]; exact hd.track signer now hheld hfresh

/-- An ack only shrinks what is unacked. -/
theorem Valid.ack {d : CommandDispatcher} (hd : d.Valid) (id : String) : (d.ack id).Valid where
  signed_id := hd.signed_id
  idem_signed := hd.idem_signed
  unacked_held := by
    intro id' sc key hget hkey hne hack
    have hack' : id' ∉ d.acked := fun h => hack (Finset.mem_insert_of_mem h)
    exact hd.unacked_held id' sc key hget hkey hne hack'

/-- A transition that the state machine allows touches the lifecycle only. -/
theorem transition_ok {d d' : CommandDispatcher} {id : String} {dst : CommandStatus}
    {when_ : Time} {detail : Params} (h : d.transition id dst when_ detail = .ok d') :
    d'.signed = d.signed ∧ d'.idem = d.idem ∧ d'.acked = d.acked := by
  unfold transition at h
  split at h
  · cases h
  · split_ifs at h with hv
    cases h
    exact ⟨rfl, rfl, rfl⟩

/-- One call leaves the delivery maps alone, tracks a command or records an ack: the
part of the state that delivery reads, after one step. -/
theorem step_transition_eq (signer : CommandSigner) (d : CommandDispatcher) (now : Time)
    (id : String) (dst : CommandStatus) (detail : Params) :
    let d' := d.step signer ⟨now, .transition id dst detail⟩
    d'.signed = d.signed ∧ d'.idem = d.idem ∧ d'.acked = d.acked := by
  simp only [step]
  cases h : d.transition id dst now detail with
  | ok d' => exact transition_ok h
  | error e => exact ⟨rfl, rfl, rfl⟩

/-- Every call keeps the invariant. -/
theorem Valid.step {d : CommandDispatcher} (hd : d.Valid) (signer : CommandSigner)
    (st : DispatcherStep) : (d.step signer st).Valid := by
  obtain ⟨now, call⟩ := st
  cases call with
  | issue c => exact hd.issue signer now c
  | ack id => exact hd.ack id
  | transition id dst detail =>
    obtain ⟨hs, hi, ha⟩ := step_transition_eq signer d now id dst detail
    exact ⟨hs ▸ hd.signed_id, hs ▸ hi ▸ hd.idem_signed, hs ▸ hi ▸ ha ▸ hd.unacked_held⟩

/-- Every reachable dispatcher satisfies the invariant. -/
theorem valid_run (signer : CommandSigner) (st : Option (Dict String CommandRecord))
    (steps : List DispatcherStep) :
    (run (step signer) { store := st } steps).Valid :=
  run_invariant (fun _ a hd => hd.step signer a) (valid_init st) steps

end OpenRecall.Model.CommandDispatcher
