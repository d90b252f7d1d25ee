import OpenRecall.Analysis.DispatcherInvariant

/-!
# When an issued command is offered for delivery

`issue` answers a request either with a fresh command or with the unacked command that
already holds the request's idempotency key. The dedup looks at acks only, while
`pending` looks at acks and at the expiry, so the two disagree on one kind of state: the
key is held by a command that has expired and was never acked. There the new request is
absorbed into a command no transport is offered again, and the key stays dead from then
on (`heldBy_expired_persists`).

`issue_deliverable_iff` shows that this is the only such state.
-/

set_option autoImplicit false

namespace OpenRecall.Analysis.Deliverability

open Foundation OpenRecall.Model OpenRecall.Model.CommandDispatcher

/-- The key is held by a command that was never acked and has expired.
SOURCE: commands/dispatcher.py:71-76, commands/model.py:68-69 -/
def ExpiredHolder (d : CommandDispatcher) (key : Option String) (now : Time) : Prop :=
  ∃ k id sc, key = some k ∧ k ≠ "" ∧ d.idem.get? k = some id ∧ id ∉ d.acked ∧
    d.signed.get? id = some sc ∧ sc.command.isExpired now

/-- A step neither issues nor acks the command id. -/
def Untouched (id : String) (st : DispatcherStep) : Prop :=
  st.call ≠ .ack id ∧ ∀ c, st.call = .issue c → c.commandId ≠ id

/-- The id is neither tracked nor acked. -/
def Unknown (id : String) (d : CommandDispatcher) : Prop :=
  d.signed.get? id = none ∧ id ∉ d.acked

/-- A step that does not touch an unknown id leaves it unknown. -/
theorem unknown_step (signer : CommandSigner) (id : String) (d : CommandDispatcher)
    (st : DispatcherStep) (hd : Unknown id d) (hst : Untouched id st) :
    Unknown id (d.step signer st) := by
  obtain ⟨now, call⟩ := st
  cases call with
  | issue c =>
    have hne : id ≠ c.commandId := fun h => hst.2 c rfl h.symm
    show Unknown id (d.issue signer now c).2
    obtain ⟨sc, -, h⟩ | ⟨-, sc, -, h⟩ | ⟨-, -, h⟩ := issue_cases signer now c d
    · rw [h]; exact hd
    · rw [h]; exact hd
    · rw [h]
      exact ⟨by rw [track_signed, if_neg hne]; exact hd.1, hd.2⟩
  | ack id' =>
    have hne : id ≠ id' := by
      rintro rfl
      exact hst.1 rfl
    exact ⟨hd.1, fun h => (Finset.mem_insert.mp h).elim hne hd.2⟩
  | transition id' dst detail =>
    obtain ⟨hs, -, ha⟩ := step_transition_eq signer d now id' dst detail
    exact ⟨hs ▸ hd.1, ha ▸ hd.2⟩

/-- An id that no call of the run touched is unknown where the run ends. -/
theorem unknown_run (signer : CommandSigner) (id : String)
    (store : Option (Dict String CommandRecord)) (steps : List DispatcherStep)
    (h : ∀ st ∈ steps, Untouched id st) :
    Unknown id (run (step signer) { store := store } steps) := by
  have hgen : ∀ d : CommandDispatcher, Unknown id d →
      Unknown id (run (step signer) d steps) := by
    induction steps with
    | nil => intro d hd; exact hd
    | cons st steps ih =>
      intro d hd
      exact ih (fun st' hst' => h st' (List.mem_cons_of_mem _ hst')) _
        (unknown_step signer id d st hd (h st List.mem_cons_self))
  exact hgen _ ⟨rfl, Finset.notMem_empty id⟩

/-- An expired holder keeps its key until it is acked, whatever is issued. -/
theorem heldBy_expired_persists (signer : CommandSigner) (d : CommandDispatcher)
    (st : DispatcherStep) (k : String) (sc : SignedCommand) (hd : d.Valid)
    (hheld : d.heldBy (some k) = some sc) (hst : st.call ≠ .ack sc.command.commandId) :
    (d.step signer st).heldBy (some k) = some sc := by
  obtain ⟨k', id, hk', hne, hidem, hack, hget⟩ := (heldBy_eq_some_iff d _ sc).mp hheld
  obtain rfl := Option.some.inj hk'
  have hid : sc.command.commandId = id := hd.signed_id id sc hget
  rw [heldBy_eq_some_iff]
  refine ⟨k, id, rfl, hne, ?_⟩
  obtain ⟨now, call⟩ := st
  cases call with
  | issue c =>
    show (d.issue signer now c).2.idem.get? k = some id ∧
      id ∉ (d.issue signer now c).2.acked ∧ (d.issue signer now c).2.signed.get? id = some sc
    obtain ⟨sc', -, h⟩ | ⟨-, sc', -, h⟩ | ⟨hnone, hfresh, h⟩ := issue_cases signer now c d
    · rw [h]; exact ⟨hidem, hack, hget⟩
    · rw [h]; exact ⟨hidem, hack, hget⟩
    · rw [h]
      have hkey : ¬ (c.idempotencyKey = some k ∧ k ≠ "") := by
        rintro ⟨hc, -⟩
        rw [hc, hheld] at hnone
        cases hnone
      have hne' : id ≠ c.commandId := by
        rintro rfl
        rw [hfresh] at hget
        cases hget
      refine ⟨?_, hack, ?_⟩
      · rw [track_idem, if_neg hkey]; exact hidem
      · rw [track_signed, if_neg hne']; exact hget
  | ack id' =>
    have hne' : id ≠ id' := by
      rintro rfl
      exact hst (by rw [hid])
    exact ⟨hidem, fun h => (Finset.mem_insert.mp h).elim hne' hack, hget⟩
  | transition id' dst detail =>
    obtain ⟨hs, hi, ha⟩ := step_transition_eq signer d now id' dst detail
    exact ⟨hi ▸ hidem, ha ▸ hack, hs ▸ hget⟩

/-- In a valid state, a command that is new and not expired is offered right after it is
issued, unless an expired command holds its key.
SOURCE: commands/dispatcher.py:60-99, commands/dispatcher.py:186-193 -/
theorem issue_mem_pending_iff (signer : CommandSigner) (d : CommandDispatcher) (now : Time)
    (c : Command) (hnew : Unknown c.commandId d) (hlive : ¬ c.isExpired now) :
    (d.issue signer now c).1 ∈ (d.issue signer now c).2.pending now ↔
      ¬ ExpiredHolder d c.idempotencyKey now := by
  obtain ⟨sc, hheld, h⟩ | ⟨-, sc, hget, -⟩ | ⟨hheld, -, h⟩ := issue_cases signer now c d
  · obtain ⟨k, id, hk, hne, hidem, hack, hget⟩ := (heldBy_eq_some_iff d _ sc).mp hheld
    rw [h, mem_pending_iff]
    constructor
    · rintro ⟨-, -, -, hexp⟩ ⟨k', id', sc', hk', -, hidem', -, hget', hexp'⟩
      obtain rfl : k = k' := Option.some.inj (hk.symm.trans hk')
      obtain rfl : id = id' := Option.some.inj (hidem.symm.trans hidem')
      obtain rfl : sc = sc' := Option.some.inj (hget.symm.trans hget')
      exact hexp hexp'
    · intro hnot
      exact ⟨id, hget, hack, fun hexp => hnot ⟨k, id, sc, hk, hne, hidem, hack, hget, hexp⟩⟩
  · rw [hnew.1] at hget
    cases hget
  · rw [h, mem_pending_iff]
    constructor
    · rintro - ⟨k, id, sc, hk, hne, hidem, hack, hget, -⟩
      have hsome := (heldBy_eq_some_iff d c.idempotencyKey sc).mpr
        ⟨k, id, hk, hne, hidem, hack, hget⟩
      rw [hheld] at hsome
      cases hsome
    · intro _
      refine ⟨c.commandId, ?_, hnew.2, hlive⟩
      rw [track_signed, if_pos rfl]

/-- **Deliverability of an issued command.**  After any sequence of dispatcher calls, a
command that is not expired and whose id no call has issued or acked is among the pending
commands right after `issue` returns it, if and only if its idempotency key is not held
by a command that expired without an ack.
SOURCE: commands/dispatcher.py:60-99, commands/dispatcher.py:186-193 -/
theorem issue_deliverable_iff (signer : CommandSigner) (store : Option (Dict String CommandRecord))
    (steps : List DispatcherStep) (now : Time) (c : Command)
    (hnew : ∀ st ∈ steps, Untouched c.commandId st) (hlive : ¬ c.isExpired now) :
    let d := run (step signer) { store := store } steps
    (d.issue signer now c).1 ∈ (d.issue signer now c).2.pending now ↔
      ¬ ExpiredHolder d c.idempotencyKey now :=
  issue_mem_pending_iff signer _ now c (unknown_run signer c.commandId store steps hnew) hlive

/-- A `start_audio` as the reconciler issues it, valid for five minutes. -/
def startAudioAt (commandId : String) (now : Time) : Command where
  commandId := commandId
  sessionId := ""
  type := .startAudio
  issuedAt := now
  expiresAt := now + 300000000
  idempotencyKey := some "reconcile:audio:on"

/-- A signer for concrete runs. -/
def plainSigner : CommandSigner := ⟨fun _ => [], id⟩

/-- `issue_deliverable_iff` on a retry four minutes after the first `start_audio`. -/
theorem issue_deliverable_iff_retry :
    let d := run (step plainSigner) {} [⟨0, .issue (startAudioAt "c1" 0)⟩]
    (d.issue plainSigner 240000000 (startAudioAt "c2" 240000000)).1 ∈
        (d.issue plainSigner 240000000 (startAudioAt "c2" 240000000)).2.pending 240000000 ↔
      ¬ ExpiredHolder d (some "reconcile:audio:on") 240000000 :=
  issue_deliverable_iff plainSigner none [⟨0, .issue (startAudioAt "c1" 0)⟩] 240000000
    (startAudioAt "c2" 240000000)
    (by
      intro st hst
      obtain rfl := List.mem_singleton.mp hst
      exact ⟨by simp, fun c hc => by cases hc; decide⟩)
    (by decide)

/-- A retry after the first `start_audio` expired unacked is absorbed into it, and no
command with its key is offered: the deliverability of every fresh, unexpired command
under a non-decreasing clock fails. -/
theorem issue_not_always_deliverable :
    ¬ ∀ (signer : CommandSigner) (steps : List DispatcherStep) (now : Time) (c : Command),
      (steps.map DispatcherStep.now ++ [now]).Pairwise (· ≤ ·) →
      (∀ st ∈ steps, Untouched c.commandId st) → ¬ c.isExpired now →
      (((run (step signer) {} steps).issue signer now c).1 ∈
        ((run (step signer) {} steps).issue signer now c).2.pending now) := by
  intro h
  have habsorbed := h plainSigner [⟨0, .issue (startAudioAt "c1" 0)⟩] 400000000
    (startAudioAt "c2" 400000000) (by decide)
    (by
      intro st hst
      obtain rfl := List.mem_singleton.mp hst
      exact ⟨by simp, fun c hc => by cases hc; decide⟩)
    (by decide)
  revert habsorbed
  decide

end OpenRecall.Analysis.Deliverability
