import OpenRecall.Analysis.RecordMirror

/-!
# The lifecycle of a command in the dispatcher

The dispatcher keeps the status of a command and its history in two maps. On every run the history
is a path of the state machine from PENDING to the status, so the append of a transition always
finds a history, and a transition that raises has changed nothing (`lifecycle_integrity`).
-/

set_option autoImplicit false

namespace OpenRecall.Model.CommandDispatcher

open Foundation

/-! ## Paths of the state machine -/

/-- One entry of a history comes after another by a valid transition. -/
def Follows (a b : StatusTransition) : Prop :=
  b.fromStatus = some a.toStatus ∧ isValidTransition a.toStatus b.toStatus = true

/-- **The history is a path** of valid transitions from PENDING to the status, and only its end may
be terminal. -/
structure IsPath (history : List StatusTransition) (status : CommandStatus) : Prop where
  starts : ∃ first ∈ history.head?, first.fromStatus = none ∧ first.toStatus = .pending
  moves : history.IsChain Follows
  ends : history.getLast?.map StatusTransition.toStatus = some status
  open_ : ∀ a ∈ history.dropLast, a.toStatus ∉ terminalStatuses

theorem isValidTransition_of_terminal {frm : CommandStatus} (h : frm ∈ terminalStatuses)
    (dst : CommandStatus) : isValidTransition frm dst = false := by
  simp [isValidTransition, h]

theorem isPath_issue (now : Time) : IsPath [issueEntry now] .pending := by
  constructor <;> simp [issueEntry]

theorem IsPath.concat {history : List StatusTransition} {frm dst : CommandStatus}
    (h : IsPath history frm) (hvalid : isValidTransition frm dst = true) (at_ : Time)
    (detail : Params) : IsPath (history ++ [⟨some frm, dst, at_, detail⟩]) dst := by
  obtain ⟨first, hfirst, hnone, hpending⟩ := h.starts
  obtain ⟨last, hlast, hstatus⟩ := Option.map_eq_some_iff.mp h.ends
  have hopen : frm ∉ terminalStatuses := by
    intro hterminal
    rw [isValidTransition_of_terminal hterminal] at hvalid
    simp at hvalid
  refine ⟨⟨first, ?_, hnone, hpending⟩, ?_, ?_, ?_⟩
  · rw [List.head?_append, Option.mem_def.mp hfirst]
    simp
  · rw [List.isChain_append]
    refine ⟨h.moves, List.isChain_singleton _, ?_⟩
    intro a ha b hb
    obtain rfl : last = a := Option.some.inj (hlast.symm.trans ha)
    obtain rfl := Option.some.inj hb
    simpa [Follows, hstatus] using hvalid
  · simp
  · rw [List.dropLast_concat]
    intro a ha
    rcases List.eq_nil_or_concat history with rfl | ⟨before, end_, rfl⟩
    · simp at ha
    · rw [List.concat_eq_append] at ha hlast
      rcases List.mem_append.mp ha with hbefore | hend
      · apply h.open_
        simpa using hbefore
      · obtain rfl : end_ = last := by simpa using hlast
        rw [List.mem_singleton.mp hend, hstatus]
        exact hopen

/-! ## The two maps -/

/-- The status and the history of a command: neither, or a path. -/
def OnPath (status : Option CommandStatus) (history : Option (List StatusTransition)) : Prop :=
  (status = none ∧ history = none) ∨
    ∃ s h, status = some s ∧ history = some h ∧ IsPath h s

/-- Every command is on a path, and every command that has a status is tracked. -/
structure Lifecycles (d : CommandDispatcher) : Prop where
  tracked : ∀ id, (d.getStatus id).isSome → d.Issued id
  onPath : ∀ id, OnPath (d.getStatus id) (d.getHistory id)

theorem lifecycles_init (store : Option (Dict String CommandRecord)) :
    ({ store := store } : CommandDispatcher).Lifecycles where
  tracked := by simp [getStatus]
  onPath := by simp [OnPath, getStatus, getHistory]

variable {d : CommandDispatcher}

/-- **What a transition does** where the maps agree: it raises and changes nothing, or it moves the
status and adds the entry. -/
theorem Lifecycles.transitionInPlace_cases (h : d.Lifecycles) (id : String) (dst : CommandStatus)
    (when_ : Time) (detail : Params) :
    (∃ e, d.transitionInPlace id dst when_ detail = (.error e, d)) ∨
      ∃ frm history, d.getStatus id = some frm ∧ d.getHistory id = some history ∧
        IsPath history frm ∧ isValidTransition frm dst = true ∧
        d.transitionInPlace id dst when_ detail = (.ok (), { d with
          status := d.status.set id dst
          history := d.history.set id (history ++ [⟨some frm, dst, when_, detail⟩]) }) := by
  rcases h.onPath id with ⟨hstatus, -⟩ | ⟨frm, history, hstatus, hhistory, hpath⟩
  · left
    rw [getStatus] at hstatus
    simp [transitionInPlace, hstatus]
  · by_cases hvalid : isValidTransition frm dst = true
    · refine .inr ⟨frm, history, hstatus, hhistory, hpath, hvalid, ?_⟩
      rw [getStatus] at hstatus
      rw [getHistory] at hhistory
      simp [transitionInPlace, hstatus, hhistory, hvalid]
    · left
      rw [getStatus] at hstatus
      simp [transitionInPlace, hstatus, hvalid]

theorem Lifecycles.issue (h : d.Lifecycles) (signer : CommandSigner) (now : Time) (c : Command) :
    (d.issue signer now c).2.Lifecycles := by
  obtain ⟨sc, -, heq⟩ | ⟨-, sc, -, heq⟩ | ⟨-, -, heq⟩ := issue_cases signer now c d
  · rwa [heq]
  · rwa [heq]
  · rw [heq]
    constructor
    · intro id hid
      rw [getStatus_track] at hid
      rw [issued_track]
      split_ifs at hid with hsame
      · exact .inl hsame
      · exact .inr (h.tracked id hid)
    · intro id
      rw [getStatus_track, getHistory_track]
      split_ifs
      · exact .inr ⟨_, _, rfl, rfl, isPath_issue now⟩
      · exact h.onPath id

theorem Lifecycles.transitionInPlace (h : d.Lifecycles) (id : String) (dst : CommandStatus)
    (when_ : Time) (detail : Params) :
    (d.transitionInPlace id dst when_ detail).2.Lifecycles := by
  obtain ⟨e, heq⟩ | ⟨frm, history, hstatus, -, hpath, hvalid, heq⟩ :=
    h.transitionInPlace_cases id dst when_ detail
  · rwa [heq]
  · rw [heq]
    constructor
    · intro id' hid'
      by_cases hsame : id' = id
      · rw [hsame]
        exact h.tracked id (by simp [hstatus])
      · apply h.tracked id'
        simpa [getStatus, Dict.get?_set_of_ne _ _ hsame] using hid'
    · intro id'
      by_cases hsame : id' = id
      · refine .inr ⟨dst, _, ?_, ?_, hpath.concat hvalid when_ detail⟩
        · simp [getStatus, hsame]
        · simp [getHistory, hsame]
      · simpa [getStatus, getHistory, Dict.get?_set_of_ne _ _ hsame] using h.onPath id'

/-- **Every call keeps the commands on their paths.** -/
theorem Lifecycles.perform (h : d.Lifecycles) (signer : CommandSigner) (st : DispatcherStep) :
    (d.perform signer st).Lifecycles := by
  obtain ⟨now, call⟩ := st
  cases call with
  | issue c => exact h.issue signer now c
  | ack id => exact ⟨h.tracked, h.onPath⟩
  | transition id dst detail => exact h.transitionInPlace id dst now detail

/-- The call does what `step` says, which takes the history for granted. -/
theorem Lifecycles.perform_eq_step (h : d.Lifecycles) (signer : CommandSigner)
    (st : DispatcherStep) : d.perform signer st = d.step signer st := by
  obtain ⟨now, call⟩ := st
  cases call with
  | issue c => rfl
  | ack id => rfl
  | transition id dst detail =>
    rcases h.onPath id with ⟨hstatus, -⟩ | ⟨frm, history, hstatus, hhistory, -⟩
    · rw [getStatus] at hstatus
      simp [CommandDispatcher.perform, step, CommandDispatcher.transitionInPlace, transition, hstatus]
    · rw [getStatus] at hstatus
      rw [getHistory] at hhistory
      by_cases hvalid : isValidTransition frm dst = true
      · simp [CommandDispatcher.perform, step, CommandDispatcher.transitionInPlace, transition,
          hstatus, hhistory, hvalid]
      · simp [CommandDispatcher.perform, step, CommandDispatcher.transitionInPlace, transition,
          hstatus, hvalid]

/-! ## Runs -/

theorem lifecycles_run (signer : CommandSigner) (store : Option (Dict String CommandRecord))
    (steps : List DispatcherStep) :
    (run (perform signer) { store := store } steps).Lifecycles :=
  run_invariant (I := Lifecycles) (fun _ st h => h.perform signer st) (lifecycles_init store) steps

/-- A run of the calls is one of `step`, so what holds of the one holds of the other. -/
theorem run_perform_eq_run_step (signer : CommandSigner) {d : CommandDispatcher}
    (h : d.Lifecycles) (steps : List DispatcherStep) :
    run (perform signer) d steps = run (step signer) d steps := by
  induction steps generalizing d with
  | nil => simp
  | cons st steps ih =>
    have hnext := h.perform signer st
    rw [run_cons, run_cons, ← h.perform_eq_step]
    exact ih hnext

/-- The status and history of a command that has ended stay as they are. -/
structure Ended (id : String) (status : CommandStatus)
    (history : Option (List StatusTransition)) (d : CommandDispatcher) : Prop where
  lifecycles : d.Lifecycles
  status_eq : d.getStatus id = some status
  history_eq : d.getHistory id = history

theorem Ended.perform {id : String} {status : CommandStatus}
    {history : Option (List StatusTransition)} (h : Ended id status history d)
    (hterminal : status ∈ terminalStatuses) (signer : CommandSigner) (st : DispatcherStep) :
    Ended id status history (d.perform signer st) := by
  suffices hkept : (d.perform signer st).getStatus id = some status ∧
      (d.perform signer st).getHistory id = history from
    ⟨h.lifecycles.perform signer st, hkept.1, hkept.2⟩
  have hstatus := h.status_eq
  have hhistory := h.history_eq
  obtain ⟨now, call⟩ := st
  cases call with
  | issue c =>
    simp only [CommandDispatcher.perform]
    obtain ⟨sc, -, heq⟩ | ⟨-, sc, -, heq⟩ | ⟨-, hfresh, heq⟩ := issue_cases signer now c d
    · rw [heq]
      exact ⟨hstatus, hhistory⟩
    · rw [heq]
      exact ⟨hstatus, hhistory⟩
    · -- the new command has another id
      have hissued := h.lifecycles.tracked id (by simp [hstatus])
      have hother : id ≠ c.commandId := by
        rintro rfl
        simp [Issued, hfresh] at hissued
      rw [heq, getStatus_track, getHistory_track, if_neg hother, if_neg hother]
      exact ⟨hstatus, hhistory⟩
  | ack id' => exact ⟨hstatus, hhistory⟩
  | transition id' dst detail =>
    simp only [CommandDispatcher.perform]
    obtain ⟨e, heq⟩ | ⟨frm, entries, hfrm, -, -, hvalid, heq⟩ :=
      h.lifecycles.transitionInPlace_cases id' dst now detail
    · rw [heq]
      exact ⟨hstatus, hhistory⟩
    · have hother : id ≠ id' := by
        rintro rfl
        obtain rfl : frm = status := Option.some.inj (hfrm.symm.trans hstatus)
        rw [isValidTransition_of_terminal hterminal] at hvalid
        simp at hvalid
      rw [heq]
      simpa [getStatus, getHistory, Dict.get?_set_of_ne _ _ hother] using ⟨hstatus, hhistory⟩

/-- **The lifecycle of every command is a path**: after any calls the status of a command is the
end of a path of valid transitions from PENDING, which is its history; a command that has reached a
terminal status keeps both through any later calls; and a transition that raises leaves the
dispatcher as it was.
SOURCE: commands/dispatcher.py:60-165, commands/status.py:68-93 -/
theorem lifecycle_integrity (signer : CommandSigner) (store : Option (Dict String CommandRecord))
    (steps : List DispatcherStep) :
    let d := run (perform signer) { store := store } steps
    (∀ id, OnPath (d.getStatus id) (d.getHistory id)) ∧
      (∀ id status, d.getStatus id = some status → status ∈ terminalStatuses → ∀ later,
        (run (perform signer) d later).getStatus id = some status ∧
          (run (perform signer) d later).getHistory id = d.getHistory id) ∧
      ∀ id dst when_ detail e, (d.transitionInPlace id dst when_ detail).1 = .error e →
        (d.transitionInPlace id dst when_ detail).2 = d := by
  intro d
  have hd : d.Lifecycles := lifecycles_run signer store steps
  refine ⟨hd.onPath, ?_, ?_⟩
  · intro id status hstatus hterminal later
    have hended : Ended id status (d.getHistory id) (run (perform signer) d later) :=
      run_invariant (I := Ended id status (d.getHistory id))
        (fun _ st h => h.perform hterminal signer st) ⟨hd, hstatus, rfl⟩ later
    exact ⟨hended.status_eq, hended.history_eq⟩
  · intro id dst when_ detail e herror
    obtain ⟨e', heq⟩ | ⟨frm, history, -, -, -, -, heq⟩ :=
      hd.transitionInPlace_cases id dst when_ detail
    · rw [heq]
    · rw [heq] at herror
      simp at herror

end OpenRecall.Model.CommandDispatcher
