import OpenRecall.Model.DeviceCommands

/-!
# When the device's acks are truthful

The device remembers an id before it knows whether the executor takes the command, and it
remembers sixteen ids. Both show in what a server that offers a command again gets back:
an id that was remembered and then met a full queue is acked though no one executes it,
and an id that sixteen others pushed out of the ring is executed a second time.

The ring is first replaced by what it stands for, the last sixteen ids that were
remembered (`alreadySeen_iff`). Over that window, `acks_truthful_iff` says exactly which
runs keep the contract.
-/

set_option autoImplicit false

namespace OpenRecall.Analysis.DeviceAcks

open Foundation OpenRecall.Model

/-! ## The contract -/

def acceptedIds (trace : List DeviceEvent) : List CString :=
  trace.filterMap fun e => match e with
    | .accepted id => some id
    | .acked _ => none

/-- No id enters the executor queue twice. -/
def AtMostOnce (trace : List DeviceEvent) : Prop := (acceptedIds trace).Nodup

/-- An id is acked after it entered the executor queue. -/
def AckedAfterAccept (trace : List DeviceEvent) : Prop :=
  ∀ before id after, trace = before ++ .acked id :: after → .accepted id ∈ before

theorem mem_acceptedIds_iff (trace : List DeviceEvent) (id : CString) :
    id ∈ acceptedIds trace ↔ .accepted id ∈ trace := by
  unfold acceptedIds
  rw [List.mem_filterMap]
  constructor
  · rintro ⟨e, he, heq⟩
    cases e with
    | accepted id' =>
      obtain rfl := Option.some.inj heq
      exact he
    | acked id' => cases heq
  · intro h
    exact ⟨_, h, rfl⟩

theorem atMostOnce_accepted (trace : List DeviceEvent) (id : CString) :
    AtMostOnce (trace ++ [.accepted id]) ↔ AtMostOnce trace ∧ .accepted id ∉ trace := by
  have happend : acceptedIds (trace ++ [.accepted id]) = acceptedIds trace ++ [id] := by
    simp [acceptedIds]
  unfold AtMostOnce
  rw [happend, List.nodup_append, ← mem_acceptedIds_iff]
  constructor
  · rintro ⟨hnodup, -, hdisj⟩
    exact ⟨hnodup, fun h => hdisj id h id (List.mem_singleton_self id) rfl⟩
  · rintro ⟨hnodup, hnot⟩
    refine ⟨hnodup, List.nodup_singleton id, ?_⟩
    rintro a ha b hb rfl
    exact hnot (List.mem_singleton.mp hb ▸ ha)

theorem atMostOnce_acked (trace : List DeviceEvent) (id : CString) :
    AtMostOnce (trace ++ [.acked id]) ↔ AtMostOnce trace := by
  have happend : acceptedIds (trace ++ [.acked id]) = acceptedIds trace := by
    simp [acceptedIds]
  unfold AtMostOnce
  rw [happend]

/-- The last event of a trace is judged by what precedes it. -/
theorem ackedAfterAccept_concat (trace : List DeviceEvent) (e : DeviceEvent) :
    AckedAfterAccept (trace ++ [e]) ↔
      AckedAfterAccept trace ∧ ∀ id, e = .acked id → .accepted id ∈ trace := by
  constructor
  · intro h
    constructor
    · rintro before id after rfl
      exact h before id (after ++ [e]) (by simp)
    · rintro id rfl
      exact h trace id [] rfl
  · rintro ⟨hold, hlast⟩ before id after heq
    rcases List.eq_nil_or_concat after with rfl | ⟨after', x, rfl⟩
    · obtain ⟨rfl, hsame⟩ := List.append_inj' heq rfl
      exact hlast id (List.singleton_inj.mp hsame)
    · rw [List.concat_eq_append, ← List.cons_append, ← List.append_assoc] at heq
      obtain ⟨htrace, -⟩ := List.append_inj' heq rfl
      exact hold before id after' htrace

/-! ## The window of remembered ids -/

/-- A run of the device, and every id it remembered, oldest first, with whether the
executor queue had room for it. -/
structure WatchedRun where
  sensor : SensorRun
  remembered : List (CString × Bool) := []

/-- The ids the ring stands for. -/
def recent (remembered : List (CString × Bool)) : List CString :=
  (remembered.map Prod.fst).rtake 16

/-- What a delivery adds to the remembered ids: a frame whose id is not among the last
sixteen. -/
def newlyRemembered (libs : FirmwareLibs) (s : WatchedRun) : DeviceStep → List (CString × Bool)
  | .deliver data =>
    match openFrame libs s.sensor.device.pubkey data with
    | none => []
    | some frame =>
      if frame.id ∈ recent s.remembered then []
      else [(frame.id, decide s.sensor.device.hasRoom)]
  | _ => []

def WatchedRun.step (libs : FirmwareLibs) (s : WatchedRun) (st : DeviceStep) : WatchedRun where
  sensor := s.sensor.step libs st
  remembered := s.remembered ++ newlyRemembered libs s st

/-- The device at boot, with its trusted key. -/
def boot (pubkey : List UInt8) : WatchedRun := { sensor := { device := { pubkey := pubkey } } }

/-- A delivered command has an id that is not empty and fits its slot. -/
def ProperId (libs : FirmwareLibs) (s : WatchedRun) : DeviceStep → Prop
  | .deliver data => ∀ frame ∈ openFrame libs s.sensor.device.pubkey data,
    frame.id.bytes ≠ [] ∧ frame.id.bytes.length < cmdIdMax
  | _ => True

/-- The condition on a delivery: an id among the last sixteen remembered found room in the
queue at least once, and an id that is not among them and finds room now never did before.
SOURCE: commands.c:94-103 -/
def Unambiguous (libs : FirmwareLibs) (s : WatchedRun) : DeviceStep → Prop
  | .deliver data => ∀ frame ∈ openFrame libs s.sensor.device.pubkey data,
    (frame.id ∈ recent s.remembered → (frame.id, true) ∈ s.remembered) ∧
    (frame.id ∉ recent s.remembered → s.sensor.device.hasRoom →
      (frame.id, true) ∉ s.remembered)
  | _ => True

instance (libs : FirmwareLibs) (s : WatchedRun) (st : DeviceStep) :
    Decidable (ProperId libs s st) := by
  cases st <;> unfold ProperId <;> infer_instance

instance (libs : FirmwareLibs) (s : WatchedRun) (st : DeviceStep) :
    Decidable (Unambiguous libs s st) := by
  cases st with
  | deliver data =>
    have hdec : ∀ frame : CommandFrame, Decidable
      ((frame.id ∈ recent s.remembered → (frame.id, true) ∈ s.remembered) ∧
        (frame.id ∉ recent s.remembered → s.sensor.device.hasRoom →
          (frame.id, true) ∉ s.remembered)) := fun frame => inferInstance
    unfold Unambiguous
    infer_instance
  | take => exact isTrue trivial
  | gesture req => exact isTrue trivial

/-- How the device's state stands for the remembered ids. -/
structure Mirrors (s : WatchedRun) : Prop where
  ring : s.sensor.device.seen =
    (Ring.fill ⟨[], by simp⟩ : Ring CString 16).pushAll (s.remembered.map Prod.fst)
  proper : ∀ e ∈ s.remembered, e.1.bytes ≠ [] ∧ e.1.bytes.length < cmdIdMax
  accepted : ∀ id, .accepted id ∈ s.sensor.trace ↔ (id, true) ∈ s.remembered

theorem mirrors_boot (pubkey : List UInt8) : Mirrors (boot pubkey) where
  ring := rfl
  proper := by intro e he; cases he
  accepted := by intro id; simp [boot]

/-- Two ids that fit their slots agree up to the slot's size when they are the same. -/
theorem eqUpTo_iff {a b : CString} (ha : a.bytes.length < cmdIdMax)
    (hb : b.bytes.length < cmdIdMax) : a.eqUpTo cmdIdMax b ↔ a = b := by
  unfold CString.eqUpTo
  rw [decide_eq_true_iff, List.take_of_length_le ha.le, List.take_of_length_le hb.le,
    CString.ext_iff]

/-- **What the ring stands for**: an id is seen when it is one of the last sixteen that were
remembered.
SOURCE: commands.c:38-50 -/
theorem alreadySeen_iff {s : WatchedRun} (h : Mirrors s) {id : CString} (hne : id.bytes ≠ [])
    (hlen : id.bytes.length < cmdIdMax) :
    s.sensor.device.alreadySeen id ↔ id ∈ recent s.remembered := by
  have hid : id ≠ ⟨[], by simp⟩ := fun heq => hne (by rw [heq])
  have hslots : ∀ i, (s.sensor.device.seen.slots i).bytes.length < cmdIdMax := by
    intro i
    have hmem := (Ring.mem_toList_iff s.sensor.device.seen _).mpr ⟨i, rfl⟩
    by_cases hfill : s.sensor.device.seen.slots i = ⟨[], by simp⟩
    · rw [hfill]
      decide
    · rw [h.ring, Ring.mem_pushAll_fill_iff (h.ring ▸ hfill)] at hmem
      obtain ⟨e, he, heq⟩ := List.mem_map.mp (List.mem_of_mem_drop hmem)
      rw [h.ring, ← heq]
      exact (h.proper e he).2
  unfold SensorCommands.alreadySeen recent
  rw [← Ring.mem_pushAll_fill_iff hid, ← h.ring, Ring.mem_toList_iff]
  apply exists_congr
  intro i
  exact eqUpTo_iff (hslots i) hlen

/-- An id that fits its slot is stored as it is. -/
theorem printed_eq {id : CString} (hlen : id.bytes.length < cmdIdMax) :
    id.printed cmdIdMax = id := by
  unfold CString.printed
  rw [CString.ext_iff]
  exact List.take_of_length_le (by unfold cmdIdMax at *; omega)

/-- What handling a verified frame does.
SOURCE: commands.c:94-103 -/
theorem commandsHandle_cases {libs : FirmwareLibs} {d : SensorCommands} {data : List UInt8}
    {frame : CommandFrame} (hopen : openFrame libs d.pubkey data = some frame) :
    (d.alreadySeen frame.id ∧ d.commandsHandle libs data = (d, [.acked frame.id])) ∨
    (¬ d.alreadySeen frame.id ∧ d.hasRoom ∧ d.commandsHandle libs data =
      ({ d.remember frame.id with
          queue := d.queue ++ [executorParseAndValidate frame.type frame.params] },
        [.accepted frame.id, .acked frame.id])) ∨
    (¬ d.alreadySeen frame.id ∧ ¬ d.hasRoom ∧
      d.commandsHandle libs data = (d.remember frame.id, [])) := by
  unfold SensorCommands.commandsHandle
  rw [hopen]
  by_cases hseen : d.alreadySeen frame.id
  · exact Or.inl ⟨hseen, if_pos hseen⟩
  right
  simp only [hseen, if_false, not_false_iff, true_and]
  by_cases hroom : d.hasRoom
  · left
    have hsubmit : (d.remember frame.id).submit (executorParseAndValidate frame.type frame.params) =
        (true, { d.remember frame.id with
          queue := d.queue ++ [executorParseAndValidate frame.type frame.params] }) :=
      if_pos hroom
    exact ⟨hroom, by rw [hsubmit]⟩
  · right
    have hsubmit : (d.remember frame.id).submit (executorParseAndValidate frame.type frame.params) =
        (false, d.remember frame.id) := if_neg hroom
    exact ⟨hroom, by rw [hsubmit]⟩

/-- **What a step does**, in terms of the window: nothing to the trace and the ring; or a
recent id is acked again; or another id is remembered, and accepted and acked if the queue
has room. -/
theorem watchedStep_cases {libs : FirmwareLibs} {s : WatchedRun} (h : Mirrors s)
    {st : DeviceStep} (hproper : ProperId libs s st) :
    ((s.step libs st).remembered = s.remembered ∧
      (s.step libs st).sensor.trace = s.sensor.trace ∧
      (s.step libs st).sensor.device.seen = s.sensor.device.seen ∧ Unambiguous libs s st) ∨
    ∃ id, id.bytes ≠ [] ∧ id.bytes.length < cmdIdMax ∧
      (Unambiguous libs s st ↔ (id ∈ recent s.remembered → (id, true) ∈ s.remembered) ∧
        (id ∉ recent s.remembered → s.sensor.device.hasRoom → (id, true) ∉ s.remembered)) ∧
      ((id ∈ recent s.remembered ∧ (s.step libs st).remembered = s.remembered ∧
        (s.step libs st).sensor.trace = s.sensor.trace ++ [.acked id] ∧
        (s.step libs st).sensor.device.seen = s.sensor.device.seen) ∨
      (id ∉ recent s.remembered ∧ s.sensor.device.hasRoom ∧
        (s.step libs st).remembered = s.remembered ++ [(id, true)] ∧
        (s.step libs st).sensor.trace = s.sensor.trace ++ [.accepted id] ++ [.acked id] ∧
        (s.step libs st).sensor.device.seen = s.sensor.device.seen.push id) ∨
      (id ∉ recent s.remembered ∧ ¬ s.sensor.device.hasRoom ∧
        (s.step libs st).remembered = s.remembered ++ [(id, false)] ∧
        (s.step libs st).sensor.trace = s.sensor.trace ∧
        (s.step libs st).sensor.device.seen = s.sensor.device.seen.push id)) := by
  cases st with
  | take => exact Or.inl ⟨List.append_nil _, rfl, rfl, trivial⟩
  | gesture req =>
    have hgesture : (s.sensor.step libs (.gesture req)).trace = s.sensor.trace ∧
        (s.sensor.step libs (.gesture req)).device.seen = s.sensor.device.seen := by
      by_cases hok : req.status = .ok
      · simp only [SensorRun.step, hok, if_true, true_and]
        unfold SensorCommands.submit
        split_ifs <;> rfl
      · simp [SensorRun.step, hok]
    exact Or.inl ⟨List.append_nil _, hgesture.1, hgesture.2, trivial⟩
  | deliver data =>
    cases hopen : openFrame libs s.sensor.device.pubkey data with
    | none =>
      left
      have hsame : s.sensor.device.commandsHandle libs data = (s.sensor.device, []) := by
        unfold SensorCommands.commandsHandle
        rw [hopen]
      simp [WatchedRun.step, SensorRun.step, newlyRemembered, Unambiguous, hopen, hsame]
    | some frame =>
      right
      obtain ⟨hne, hlen⟩ := hproper frame hopen
      have hseen := alreadySeen_iff h hne hlen
      have hremember : s.sensor.device.remember frame.id =
          { s.sensor.device with seen := s.sensor.device.seen.push frame.id } := by
        unfold SensorCommands.remember
        rw [printed_eq hlen]
      refine ⟨frame.id, hne, hlen, by simp [Unambiguous, hopen], ?_⟩
      obtain ⟨hrec, hstep⟩ | ⟨hrec, hroom, hstep⟩ | ⟨hrec, hroom, hstep⟩ :=
        commandsHandle_cases hopen
      · rw [hseen] at hrec
        left
        simp [WatchedRun.step, SensorRun.step, newlyRemembered, hopen, hstep, hrec]
      · rw [hseen] at hrec
        right; left
        simp [WatchedRun.step, SensorRun.step, newlyRemembered, hopen, hstep, hrec, hroom,
          hremember]
      · rw [hseen] at hrec
        right; right
        simp [WatchedRun.step, SensorRun.step, newlyRemembered, hopen, hstep, hrec, hroom,
          hremember]

/-- Every step keeps the device's state standing for the remembered ids. -/
theorem Mirrors.step {libs : FirmwareLibs} {s : WatchedRun} (h : Mirrors s) {st : DeviceStep}
    (hproper : ProperId libs s st) : Mirrors (s.step libs st) := by
  have hpush : ∀ (id : CString) (room : Bool), id.bytes ≠ [] → id.bytes.length < cmdIdMax →
      (s.step libs st).remembered = s.remembered ++ [(id, room)] →
      (s.step libs st).sensor.device.seen = s.sensor.device.seen.push id →
      (s.step libs st).sensor.device.seen = (Ring.fill ⟨[], by simp⟩ : Ring CString 16).pushAll
        ((s.step libs st).remembered.map Prod.fst) ∧
      ∀ e ∈ (s.step libs st).remembered, e.1.bytes ≠ [] ∧ e.1.bytes.length < cmdIdMax := by
    intro id room hne hlen hremembered hseen
    constructor
    · rw [hseen, hremembered, h.ring, List.map_append, List.map_singleton,
        Ring.pushAll_append_singleton]
    · intro e he
      rw [hremembered] at he
      rcases List.mem_append.mp he with he | he
      · exact h.proper e he
      · rw [List.mem_singleton.mp he]
        exact ⟨hne, hlen⟩
  obtain ⟨hremembered, htrace, hseen, -⟩ | ⟨id, hne, hlen, -, hcases⟩ :=
    watchedStep_cases h hproper
  · exact ⟨by rw [hseen, hremembered]; exact h.ring, by rw [hremembered]; exact h.proper,
      by rw [htrace, hremembered]; exact h.accepted⟩
  obtain ⟨-, hremembered, htrace, hseen⟩ | ⟨-, -, hremembered, htrace, hseen⟩ |
    ⟨-, -, hremembered, htrace, hseen⟩ := hcases
  · refine ⟨by rw [hseen, hremembered]; exact h.ring, by rw [hremembered]; exact h.proper, ?_⟩
    intro id'
    rw [htrace, hremembered, ← h.accepted]
    simp
  · obtain ⟨hring, hprop⟩ := hpush id true hne hlen hremembered hseen
    refine ⟨hring, hprop, ?_⟩
    intro id'
    rw [htrace, hremembered]
    simp [h.accepted]
  · obtain ⟨hring, hprop⟩ := hpush id false hne hlen hremembered hseen
    refine ⟨hring, hprop, ?_⟩
    intro id'
    rw [htrace, hremembered]
    simp [h.accepted]

/-- A step keeps the contract exactly when it meets the condition. -/
theorem contract_step_iff {libs : FirmwareLibs} {s : WatchedRun} (h : Mirrors s)
    {st : DeviceStep} (hproper : ProperId libs s st) :
    (AtMostOnce (s.step libs st).sensor.trace ∧ AckedAfterAccept (s.step libs st).sensor.trace) ↔
      (AtMostOnce s.sensor.trace ∧ AckedAfterAccept s.sensor.trace) ∧ Unambiguous libs s st := by
  obtain ⟨-, htrace, -, hquiet⟩ | ⟨id, -, -, hiff, hcases⟩ := watchedStep_cases h hproper
  · rw [htrace]
    exact (and_iff_left hquiet).symm
  rw [hiff]
  obtain ⟨hrec, -, htrace, -⟩ | ⟨hrec, hroom, -, htrace, -⟩ | ⟨hrec, hroom, -, htrace, -⟩ := hcases
  · rw [htrace, atMostOnce_acked, ackedAfterAccept_concat]
    simp [hrec, h.accepted, and_assoc]
  · rw [htrace, atMostOnce_acked, ackedAfterAccept_concat, atMostOnce_accepted,
      ackedAfterAccept_concat]
    simp only [hrec, hroom, ← h.accepted]
    simp
    tauto
  · rw [htrace]
    simp [hrec, hroom]

/-- **Truthful acks.**  Over any run of deliveries of properly named commands, executor
progress and button gestures, every id is accepted at most once and acked only after it was
accepted if and only if every delivery is unambiguous.
SOURCE: commands.c:38-105, executor.c:96-104 -/
theorem acks_truthful_iff (libs : FirmwareLibs) (pubkey : List UInt8) (steps : List DeviceStep)
    (hproper : EveryStep (WatchedRun.step libs) (ProperId libs) (boot pubkey) steps) :
    (AtMostOnce (run (WatchedRun.step libs) (boot pubkey) steps).sensor.trace ∧
      AckedAfterAccept (run (WatchedRun.step libs) (boot pubkey) steps).sensor.trace) ↔
      EveryStep (WatchedRun.step libs) (Unambiguous libs) (boot pubkey) steps := by
  have hrun := run_iff_everyStep (I := Mirrors)
    (G := fun s => AtMostOnce s.sensor.trace ∧ AckedAfterAccept s.sensor.trace)
    (fun s st h hst => h.step hst) (fun s st h hst => contract_step_iff h hst)
    (mirrors_boot pubkey) hproper
  rw [hrun]
  constructor
  · exact And.right
  · intro h
    refine ⟨⟨List.nodup_nil, ?_⟩, h⟩
    intro before id after heq
    cases before <;> cases heq

/-! ## Concrete runs -/

def ascii (s : String) : List UInt8 := s.toList.map fun c => c.toNat.toUInt8

/-- The payload of a `stop_audio` whose id is one letter. -/
def stopAudioPayload (id : UInt8) : List UInt8 :=
  ascii "\x7b\"command_id\":\"" ++ [id] ++ ascii "\",\"type\":\"stop_audio\"\x7d"

def letters : List UInt8 := ascii "abcdefghijklmnopq"

/-- Libraries that read the payloads above, all of them validly signed. -/
def letterLibs : FirmwareLibs where
  verify := fun _ _ _ => true
  parse := fun bytes => (letters.find? fun id => stopAudioPayload id = bytes).map fun id =>
    .object [(.lit "command_id", .string ⟨[id].filter (· ≠ 0), by simp⟩),
      (.lit "type", .string (.lit "stop_audio"))]

def deliverLetter (id : UInt8) : DeviceStep :=
  .deliver (List.replicate ed25519SigLen 0 ++ stopAudioPayload id)

/-- `acks_truthful_iff` on a command that is offered again while the device remembers it. -/
theorem acks_truthful_redelivered :
    let steps := [deliverLetter 97, .take, deliverLetter 98, deliverLetter 97]
    AtMostOnce (run (WatchedRun.step letterLibs) (boot []) steps).sensor.trace ∧
      AckedAfterAccept (run (WatchedRun.step letterLibs) (boot []) steps).sensor.trace :=
  (acks_truthful_iff letterLibs [] [deliverLetter 97, .take, deliverLetter 98, deliverLetter 97]
    (by decide +kernel)).mpr (by decide +kernel)

/-- A command that met a full queue and is offered again. -/
def fullQueueRun : List DeviceStep :=
  List.replicate executorQueueDepth (.gesture { type := .capturePhoto }) ++
    [deliverLetter 97, deliverLetter 97]

/-- Seventeen commands, each executed at once, and the first one again. -/
def evictedRun : List DeviceStep :=
  letters.flatMap (fun id => [deliverLetter id, .take]) ++ [deliverLetter 97]

/-- The contract fails both ways on validly signed, properly named commands: the command
that met a full queue is acked though it was never accepted, and the one that was pushed
out of the ring is accepted twice. -/
theorem contract_not_always_kept :
    (EveryStep (WatchedRun.step letterLibs) (ProperId letterLibs) (boot []) fullQueueRun ∧
      ¬ AckedAfterAccept
        (run (WatchedRun.step letterLibs) (boot []) fullQueueRun).sensor.trace) ∧
    (EveryStep (WatchedRun.step letterLibs) (ProperId letterLibs) (boot []) evictedRun ∧
      ¬ AtMostOnce (run (WatchedRun.step letterLibs) (boot []) evictedRun).sensor.trace) := by
  refine ⟨⟨by decide +kernel, ?_⟩, by decide +kernel, ?_⟩
  · have htrace : (run (WatchedRun.step letterLibs) (boot []) fullQueueRun).sensor.trace =
        [.acked (.lit "a")] := by decide +kernel
    rw [htrace]
    intro h
    exact absurd (h [] (.lit "a") [] rfl) List.not_mem_nil
  · unfold AtMostOnce
    decide +kernel

end OpenRecall.Analysis.DeviceAcks
