import OpenRecall.Model.ProactiveOutbox

/-!
# Who receives a proactive message

A message is sent once at most, whatever the loops of the connections do: taking it out of the
outbox and sending it each pass it on. To whom it is sent is another matter, since a loop takes the
messages of all sessions: a message is sent on the connection whose loop is the first to run.
-/

set_option autoImplicit false

namespace OpenRecall.Analysis.ProactiveDelivery

open Foundation Model ProactiveWorld

/-- **Messages are sent only on connections of their session.**
SOURCE: gateway/core.py:70-78 -/
def OwnOnly (s : ProactiveWorld) : Prop :=
  ∀ d ∈ s.sent, d.connSession = some d.message.sessionId

/-- **Each message is sent at most once**: not more often than it was put into the outbox. -/
def AtMostOnce (s : ProactiveWorld) : Prop :=
  ∀ msg, (s.sent.map ProactiveDelivery.message).count msg ≤ s.enqueued.count msg

/-- The next turn of the loop takes what is pending. -/
def Takes (s : ProactiveWorld) (c : ProactiveConn) : Prop :=
  c.loop = .woken ∨ c.loop = .atWait ∧ s.box.event = true

/-- **Only one session has messages at a time**: when a loop takes what is pending, all of it that
has not expired is of the session of its connection, and a connection keeps its session until what
its loop took is sent. -/
def Separate (s : ProactiveWorld) : ProactiveStep → Prop
  | .resume conn clock => ∀ c, s.conns[conn]? = some c → Takes s c →
    ∀ k sid entries, s.box.bySession.keys[k]? = some sid →
      s.box.bySession.get? sid = some entries →
      ∀ entry ∈ entries, s.box.expired (clock k) entry = false →
        c.sessionId = some entry.2.sessionId
  | .hello conn sessionId => ∀ c, s.conns[conn]? = some c →
    ∀ msg ∈ c.loop.left, sessionId = msg.sessionId
  | .bye conn => ∀ c, s.conns[conn]? = some c → c.loop.left = []
  | _ => True

/-! ## The outbox -/

/-- How often a message is pending. -/
def pending (bySession : Dict String (List (Time × ProactiveMessage))) (msg : ProactiveMessage) :
    ℕ :=
  (bySession.values.flatten.map Prod.snd).count msg

theorem pending_of_perm {d d' : Dict String (List (Time × ProactiveMessage))}
    {entries : List (Time × ProactiveMessage)} (h : d.values.Perm (entries :: d'.values))
    (msg : ProactiveMessage) :
    pending d msg = (entries.map Prod.snd).count msg + pending d' msg := by
  rw [pending, (h.flatten.map Prod.snd).count_eq, List.flatten_cons, List.map_append,
    List.count_append, pending]

/-- What is drained was pending, and is not pending any more. -/
theorem pending_drain (now : Time) (sessionId : String) (box : ProactiveOutbox)
    (msg : ProactiveMessage) :
    (box.drain now sessionId).1.count msg + pending (box.drain now sessionId).2.bySession msg ≤
      pending box.bySession msg := by
  cases hget : box.bySession.get? sessionId with
  | none =>
    simp [ProactiveOutbox.drain, hget, Dict.erase_eq_self hget]
  | some entries =>
    have hkept : ((entries.filter fun entry => !box.expired now entry).map Prod.snd).count msg ≤
        (entries.map Prod.snd).count msg := (List.filter_sublist.map Prod.snd).count_le msg
    rw [pending_of_perm (Dict.values_perm_erase hget)]
    simp only [ProactiveOutbox.drain, hget, Option.getD_some]
    omega

theorem pending_drainKeys (clock : ℕ → Time) (msg : ProactiveMessage) (k : ℕ) (keys : List String)
    (box : ProactiveOutbox) :
    (box.drainKeys clock k keys).1.count msg +
      pending (box.drainKeys clock k keys).2.bySession msg ≤ pending box.bySession msg := by
  induction keys generalizing k box with
  | nil => simp [ProactiveOutbox.drainKeys]
  | cons sessionId rest ih =>
    have hone := pending_drain (clock k) sessionId box msg
    have hrest := ih (k + 1) (box.drain (clock k) sessionId).2
    simp only [ProactiveOutbox.drainKeys, List.count_append]
    omega

theorem pending_drainAll (clock : ℕ → Time) (box : ProactiveOutbox) (msg : ProactiveMessage) :
    (box.drainAll clock).1.count msg + pending (box.drainAll clock).2.bySession msg ≤
      pending box.bySession msg :=
  pending_drainKeys clock msg 0 box.bySession.keys _

/-- What is put in is pending once more. -/
theorem pending_enqueue (now : Time) (new : ProactiveMessage) (box : ProactiveOutbox)
    (msg : ProactiveMessage) :
    pending (box.enqueue now new).bySession msg = pending box.bySession msg + [new].count msg := by
  rw [ProactiveOutbox.enqueue, pending_of_perm (Dict.values_set_perm _ _ _), List.map_append,
    List.count_append, List.map_singleton]
  dsimp only
  cases hget : box.bySession.get? new.sessionId with
  | none =>
    rw [Dict.erase_eq_self hget, Option.getD_none, List.map_nil, List.count_nil]
    omega
  | some entries =>
    rw [pending_of_perm (Dict.values_perm_erase hget), Option.getD_some]
    omega

/-- What a drain of all sessions keeps has not expired at the time at which its session was
drained. -/
theorem mem_drainKeys {clock : ℕ → Time} {k : ℕ} {keys : List String} {box : ProactiveOutbox}
    {msg : ProactiveMessage} (h : msg ∈ (box.drainKeys clock k keys).1) :
    ∃ j sid entries entry, keys[j]? = some sid ∧ box.bySession.get? sid = some entries ∧
      entry ∈ entries ∧ box.expired (clock (k + j)) entry = false ∧ entry.2 = msg := by
  induction keys generalizing k box with
  | nil => cases h
  | cons sessionId rest ih =>
    simp only [ProactiveOutbox.drainKeys, List.mem_append] at h
    rcases h with h | h
    · simp only [ProactiveOutbox.drain, List.mem_map, List.mem_filter, Bool.not_eq_true'] at h
      rcases h with ⟨entry, ⟨hmem, hfresh⟩, rfl⟩
      cases hget : box.bySession.get? sessionId with
      | none => simp [hget] at hmem
      | some entries =>
        rw [hget, Option.getD_some] at hmem
        exact ⟨0, sessionId, entries, entry, rfl, hget, hmem, hfresh, rfl⟩
    · rcases ih h with ⟨j, sid, entries, entry, hkey, hget, hmem, hfresh, hmsg⟩
      have hget' : (box.bySession.erase sessionId).get? sid = some entries := hget
      rw [Dict.get?_erase] at hget'
      split_ifs at hget'
      refine ⟨j + 1, sid, entries, entry, hkey, hget', hmem, ?_, hmsg⟩
      rw [← Nat.add_right_comm, Nat.add_assoc] at hfresh
      exact hfresh

/-! ## The connections -/

/-- How often the loops have taken a message that they have not sent. -/
def held (conns : List ProactiveConn) (msg : ProactiveMessage) : ℕ :=
  (conns.map fun c => c.loop.left.count msg).sum

@[simp] theorem left_wake (loop : DrainLoop) : loop.wake.left = loop.left := by
  cases loop <;> rfl

@[simp] theorem left_toSend (msgs : List ProactiveMessage) :
    (DrainLoop.toSend msgs).left = msgs := by
  cases msgs <;> rfl

theorem held_wake (conns : List ProactiveConn) (msg : ProactiveMessage) :
    held (conns.map fun c => { c with loop := c.loop.wake }) msg = held conns msg := by
  simp [held, Function.comp_def]

/-- A change of one connection changes what is held by what that connection holds. -/
theorem held_modify {conns : List ProactiveConn} {i : ℕ} {c : ProactiveConn}
    (h : conns[i]? = some c) (f : ProactiveConn → ProactiveConn) (msg : ProactiveMessage) :
    held (conns.modify i f) msg + c.loop.left.count msg =
      held conns msg + (f c).loop.left.count msg := by
  induction conns generalizing i with
  | nil => cases h
  | cons d conns ih =>
    cases i with
    | zero =>
      cases h
      simp only [held, List.modify_zero_cons, List.map_cons, List.sum_cons]
      omega
    | succ i =>
      have hrest := ih h
      simp only [held, List.modify_succ_cons, List.map_cons, List.sum_cons] at hrest ⊢
      omega

theorem modify_of_none {conns : List ProactiveConn} {i : ℕ} (h : conns[i]? = none)
    (f : ProactiveConn → ProactiveConn) : conns.modify i f = conns :=
  List.modify_eq_self (List.getElem?_eq_none_iff.mp h)

/-- What holds of all connections and of the changed one holds of all afterwards. -/
theorem forall_mem_modify {P : ProactiveConn → Prop} {conns : List ProactiveConn} {i : ℕ}
    {f : ProactiveConn → ProactiveConn} (h : ∀ c ∈ conns, P c)
    (hf : ∀ c, conns[i]? = some c → P (f c)) : ∀ c ∈ conns.modify i f, P c := by
  intro c hc
  obtain ⟨j, hj⟩ := List.mem_iff_getElem?.mp hc
  rw [List.getElem?_modify] at hj
  by_cases hij : i = j
  · subst hij
    simp only [if_true, Option.map_eq_map, Option.map_eq_some_iff] at hj
    rcases hj with ⟨d, hd, rfl⟩
    exact hf d hd
  · simp only [hij, if_false, id_map'] at hj
    exact h c (List.mem_of_getElem? hj)

/-! ## What a step does -/

/-- A turn of a loop parks it, or takes what is pending, or does nothing. -/
theorem resume_cases (s : ProactiveWorld) (conn : ℕ) (clock : ℕ → Time) (c : ProactiveConn) :
    s.resume conn clock c = s ∨
      (c.loop = .atWait ∧
        s.resume conn clock c = s.mapConn conn fun c => { c with loop := .parked }) ∨
      (Takes s c ∧ s.resume conn clock c = s.take conn clock) := by
  unfold resume
  cases hloop : c.loop with
  | atWait =>
    cases hset : s.box.event with
    | true => exact .inr (.inr ⟨.inr ⟨hloop, hset⟩, rfl⟩)
    | false => exact .inr (.inl ⟨rfl, rfl⟩)
  | woken => exact .inr (.inr ⟨.inl hloop, rfl⟩)
  | parked => exact .inl rfl
  | sending left => exact .inl rfl
  | ended => exact .inl rfl

/-- A call to the connection sends the next message, or ends the loop, or there is none. -/
theorem send_cases (s : ProactiveWorld) (conn : ℕ) (ok : Bool) (c : ProactiveConn) :
    s.send conn ok c = s ∨
      s.send conn ok c = s.mapConn conn (fun c => { c with loop := .ended }) ∨
      ∃ msg rest, c.loop = .sending (msg :: rest) ∧
        s.send conn ok c = mapConn { s with sent := s.sent ++ [⟨c.sessionId, msg⟩] } conn
          fun c => { c with loop := .toSend rest } := by
  unfold send
  cases c.loop with
  | sending left =>
    cases left with
    | nil => exact .inl rfl
    | cons msg rest =>
      cases ok with
      | true => exact .inr (.inr ⟨msg, rest, rfl, rfl⟩)
      | false => exact .inr (.inl rfl)
  | atWait => exact .inl rfl
  | parked => exact .inl rfl
  | woken => exact .inl rfl
  | ended => exact .inl rfl

/-! ## No message twice -/

/-- What was sent, what the loops have taken and what is pending was put into the outbox. -/
def Accounted (s : ProactiveWorld) : Prop :=
  ∀ msg, (s.sent.map ProactiveDelivery.message).count msg + held s.conns msg +
    pending s.box.bySession msg ≤ s.enqueued.count msg

/-- A change of a connection that leaves it with no more messages. -/
theorem Accounted.mapConn {s : ProactiveWorld} (h : Accounted s) (conn : ℕ)
    {f : ProactiveConn → ProactiveConn}
    (hf : ∀ c msg, (f c).loop.left.count msg ≤ c.loop.left.count msg) :
    Accounted (s.mapConn conn f) := by
  intro msg
  have hmsg := h msg
  cases hc : s.conns[conn]? with
  | none =>
    simp only [ProactiveWorld.mapConn, modify_of_none hc]
    exact hmsg
  | some c =>
    have hheld := held_modify hc f msg
    have hless := hf c msg
    simp only [ProactiveWorld.mapConn]
    omega

/-- What a loop takes is not pending any more. -/
theorem Accounted.take {s : ProactiveWorld} (h : Accounted s) {conn : ℕ} {c : ProactiveConn}
    (hc : s.conns[conn]? = some c) (hleft : c.loop.left = []) (clock : ℕ → Time) :
    Accounted (s.take conn clock) := by
  intro msg
  have hmsg := h msg
  have hdrain := pending_drainAll clock s.box msg
  have hheld := held_modify hc
    (fun c => { c with loop := .toSend (s.box.drainAll clock).1 }) msg
  simp only [hleft, left_toSend, List.count_nil] at hheld
  simp only [ProactiveWorld.take, ProactiveWorld.mapConn]
  omega

theorem Accounted.send {s : ProactiveWorld} (h : Accounted s) {conn : ℕ} {c : ProactiveConn}
    (hc : s.conns[conn]? = some c) (ok : Bool) : Accounted (s.send conn ok c) := by
  rcases send_cases s conn ok c with heq | heq | ⟨next, rest, hloop, heq⟩
  · rwa [heq]
  · rw [heq]
    exact h.mapConn conn fun c msg => Nat.zero_le _
  · rw [heq]
    intro msg
    have hmsg := h msg
    have hheld := held_modify hc (fun c => { c with loop := .toSend rest }) msg
    have hleft : c.loop.left.count msg = rest.count msg + [next].count msg := by
      rw [hloop, DrainLoop.left, ← List.singleton_append, List.count_append]
      omega
    simp only [left_toSend] at hheld
    simp only [ProactiveWorld.mapConn, List.map_append, List.count_append, List.map_singleton]
    omega

theorem left_of_takes {s : ProactiveWorld} {c : ProactiveConn} (h : Takes s c) :
    c.loop.left = [] := by
  rcases h with h | ⟨h, -⟩
  · rw [h]
    rfl
  · rw [h]
    rfl

/-- No step makes a message more often than it was put in. -/
theorem Accounted.step {s : ProactiveWorld} (h : Accounted s) (a : ProactiveStep) :
    Accounted (s.step a) := by
  cases a with
  | enqueue now new =>
    intro msg
    have hmsg := h msg
    simp only [ProactiveWorld.step, held_wake, pending_enqueue, List.count_append]
    omega
  | signal =>
    intro msg
    have hmsg := h msg
    simp only [ProactiveWorld.step, held_wake, ProactiveOutbox.signal]
    exact hmsg
  | opened =>
    intro msg
    have hmsg := h msg
    have hnew : held (s.conns ++ [({} : ProactiveConn)]) msg = held s.conns msg := by
      simp [held, DrainLoop.left]
    simp only [ProactiveWorld.step, hnew]
    exact hmsg
  | hello conn sessionId => exact h.mapConn conn fun c msg => le_rfl
  | bye conn => exact h.mapConn conn fun c msg => le_rfl
  | resume conn clock =>
    rw [ProactiveWorld.step]
    cases hc : s.conns[conn]? with
    | none => exact h
    | some c =>
      rw [Option.map_some, Option.getD_some]
      rcases resume_cases s conn clock c with heq | ⟨-, heq⟩ | ⟨htakes, heq⟩
      · rwa [heq]
      · rw [heq]
        exact h.mapConn conn fun c msg => Nat.zero_le _
      · rw [heq]
        exact h.take hc (left_of_takes htakes) clock
  | send conn ok =>
    rw [ProactiveWorld.step]
    cases hc : s.conns[conn]? with
    | none => exact h
    | some c => exact h.send hc ok
  | closed conn => exact h.mapConn conn fun c msg => Nat.zero_le _

/-- What was sent was put in. -/
theorem Accounted.atMostOnce {s : ProactiveWorld} (h : Accounted s) : AtMostOnce s := fun msg => by
  have := h msg
  omega

/-! ## To its own session -/

/-- What a connection holds is of its session. -/
def HoldsOwn (c : ProactiveConn) : Prop := ∀ msg ∈ c.loop.left, c.sessionId = some msg.sessionId

/-- What is held, and what was sent, is of the session of its connection. -/
structure Own (s : ProactiveWorld) : Prop where
  holds : ∀ c ∈ s.conns, HoldsOwn c
  sent : OwnOnly s

/-- A change of one connection after which it holds messages of its session. -/
theorem Own.mapConn {s : ProactiveWorld} (h : Own s) (conn : ℕ) {f : ProactiveConn → ProactiveConn}
    (hf : ∀ c, s.conns[conn]? = some c → HoldsOwn (f c)) : Own (s.mapConn conn f) :=
  ⟨forall_mem_modify h.holds hf, h.sent⟩

/-- What a loop takes is of its session when nothing else is pending. -/
theorem Own.take {s : ProactiveWorld} (h : Own s) {conn : ℕ} {clock : ℕ → Time} {c : ProactiveConn}
    (hc : s.conns[conn]? = some c) (htakes : Takes s c) (hsep : Separate s (.resume conn clock)) :
    Own (s.take conn clock) := by
  refine ⟨forall_mem_modify h.holds fun d hd msg hmsg => ?_, h.sent⟩
  cases hc.symm.trans hd
  rw [left_toSend] at hmsg
  rcases mem_drainKeys hmsg with ⟨k, sid, entries, entry, hkey, hget, hmem, hfresh, rfl⟩
  rw [Nat.zero_add] at hfresh
  exact hsep c hc htakes k sid entries hkey hget entry hmem hfresh

theorem Own.send {s : ProactiveWorld} (h : Own s) {conn : ℕ} {c : ProactiveConn}
    (hc : s.conns[conn]? = some c) (ok : Bool) : Own (s.send conn ok c) := by
  rcases send_cases s conn ok c with heq | heq | ⟨msg, rest, hloop, heq⟩
  · rwa [heq]
  · rw [heq]
    exact h.mapConn conn fun d _ msg hmsg => absurd hmsg List.not_mem_nil
  · have hown := h.holds c (List.mem_of_getElem? hc)
    rw [HoldsOwn, hloop] at hown
    rw [heq]
    refine ⟨forall_mem_modify h.holds fun d hd m hm => ?_, fun d hd => ?_⟩
    · cases hc.symm.trans hd
      rw [left_toSend] at hm
      exact hown m (List.mem_cons_of_mem msg hm)
    · rcases List.mem_append.mp hd with hd | hd
      · exact h.sent d hd
      · rw [List.mem_singleton.mp hd]
        exact hown msg List.mem_cons_self

/-- A step at which only one session has messages keeps them to that session. -/
theorem Own.step {s : ProactiveWorld} (h : Own s) {a : ProactiveStep} (hsep : Separate s a) :
    Own (s.step a) := by
  have hwake : ∀ c ∈ s.conns.map fun c => { c with loop := c.loop.wake }, HoldsOwn c := by
    intro c hc msg hmsg
    rcases List.mem_map.mp hc with ⟨d, hd, rfl⟩
    rw [left_wake] at hmsg
    exact h.holds d hd msg hmsg
  cases a with
  | enqueue now new => exact ⟨hwake, h.sent⟩
  | signal => exact ⟨hwake, h.sent⟩
  | opened =>
    refine ⟨fun c hc => ?_, h.sent⟩
    rcases List.mem_append.mp hc with hc | hc
    · exact h.holds c hc
    · rw [List.mem_singleton.mp hc]
      exact fun msg hmsg => absurd hmsg List.not_mem_nil
  | hello conn sessionId =>
    exact h.mapConn conn fun c hc msg hmsg => congrArg some (hsep c hc msg hmsg)
  | bye conn =>
    refine h.mapConn conn fun c hc msg hmsg => ?_
    have hmsg' : msg ∈ c.loop.left := hmsg
    rw [hsep c hc] at hmsg'
    cases hmsg'
  | resume conn clock =>
    rw [ProactiveWorld.step]
    cases hc : s.conns[conn]? with
    | none => exact h
    | some c =>
      rw [Option.map_some, Option.getD_some]
      rcases resume_cases s conn clock c with heq | ⟨-, heq⟩ | ⟨htakes, heq⟩
      · rwa [heq]
      · rw [heq]
        exact h.mapConn conn fun d _ msg hmsg => absurd hmsg List.not_mem_nil
      · rw [heq]
        exact h.take hc htakes hsep
  | send conn ok =>
    rw [ProactiveWorld.step]
    cases hc : s.conns[conn]? with
    | none => exact h
    | some c => exact h.send hc ok
  | closed conn => exact h.mapConn conn fun c _ msg hmsg => absurd hmsg List.not_mem_nil

/-- **Proactive messages reach their own session, and at most once, in every run in which only one
session has messages at a time**: whatever is put in, and however the loops of the connections
take turns.
SOURCE: gateway/core.py:93-151, gateway/adapter.py:597-634 -/
theorem reaches_own_once (ttlS : ℚ) (steps : List ProactiveStep)
    (h : EveryStep step Separate { box := { ttlS } } steps) :
    OwnOnly (run step { box := { ttlS } } steps) ∧
      AtMostOnce (run step { box := { ttlS } } steps) := by
  have hown := h.invariant (I := Own) (fun s a hs hsep => hs.step hsep)
    ⟨fun c hc => absurd hc List.not_mem_nil, fun d hd => absurd hd List.not_mem_nil⟩
  have hcount : Accounted (run step { box := { ttlS } } steps) :=
    run_invariant (fun s a hs => hs.step a) (fun msg => le_rfl) steps
  exact ⟨hown.sent, hcount.atMostOnce⟩

/-- A reminder of the session `phone`. -/
def reminder : ProactiveMessage where
  sessionId := "phone"
  requestId := "reminder"
  text := "call back"

/-- One connection, which waits when the reminder comes. -/
def onePhone : List ProactiveStep :=
  [.opened, .hello 0 "phone", .resume 0 fun _ => 0, .enqueue 0 reminder, .resume 0 fun _ => 0,
    .send 0 true]

theorem separate_onePhone :
    EveryStep step Separate { box := { ttlS := 30 } } onePhone := by
  refine ⟨trivial, ?_, ?_, trivial, ?_, trivial, trivial⟩
  · rintro c hc msg hmsg
    cases hc
    cases hmsg
  · rintro c hc (hwoken | ⟨-, hset⟩)
    · cases hc
      cases hwoken
    · cases hset
  · intro c hc _ k sid entries _ hget entry hentry _
    cases hc
    have hpending : (run step { box := { ttlS := 30 } } (onePhone.take 4)).box.bySession =
        Dict.empty.set "phone" [(0, reminder)] := by decide +kernel
    have hphone : (Dict.empty.set "phone" [(0, reminder)]).get? sid = some entries := by
      rw [← hpending]
      exact hget
    rw [Dict.get?_set] at hphone
    split_ifs at hphone with hsid
    · cases hphone
      rw [List.mem_singleton.mp hentry]
      rfl
    · cases hphone

/-- The reminder reaches the one phone, once. -/
theorem reaches_own_once_onePhone :
    (OwnOnly (run step { box := { ttlS := 30 } } onePhone) ∧
      AtMostOnce (run step { box := { ttlS := 30 } } onePhone)) ∧
    (run step { box := { ttlS := 30 } } onePhone).sent = [⟨some "phone", reminder⟩] :=
  ⟨reaches_own_once 30 onePhone separate_onePhone, by decide +kernel⟩

/-! ## Two connections -/

/-- Another connection waits as well, and was the first to wait. -/
def twoPhones : List ProactiveStep :=
  [.opened, .hello 0 "tablet", .resume 0 fun _ => 0, .opened, .hello 1 "phone",
    .resume 1 fun _ => 0, .enqueue 0 reminder, .resume 0 fun _ => 0, .send 0 true]

/-- **The reminder is sent to the tablet**: both loops are woken, and the first takes it.
SOURCE: gateway/adapter.py:603-621 -/
theorem not_always_own :
    ¬ ∀ (ttlS : ℚ) (steps : List ProactiveStep),
      OwnOnly (run step { box := { ttlS } } steps) := by
  intro h
  have hsent : (run step { box := { ttlS := 30 } } twoPhones).sent = [⟨some "tablet", reminder⟩] := by
    decide +kernel
  have := h 30 twoPhones ⟨some "tablet", reminder⟩ (hsent ▸ List.mem_singleton_self _)
  simp [reminder] at this

end OpenRecall.Analysis.ProactiveDelivery
