import OpenRecall.Model.Snapshots
import OpenRecall.Foundation.Run

/-!
# When a snapshot was taken

The route measures a snapshot from the first packet of its session, and adds this to the start of
the session, which is its first event. With a device clock that runs with the wall clock, the sum
is the time of the snapshot exactly when the first event came with the first packet
(`snapshotTrue_iff`); silence before it moves every snapshot of the session by its length.
-/

set_option autoImplicit false

namespace OpenRecall.Analysis.SnapshotTime

open Foundation Model

/-! ## What a run leaves in the clocks -/

/-- The device timestamp of a step, when it is a packet of the session. -/
def packetOf (sessionId : String) : SessionStep → Option ℤ
  | .packet sid relTsMs => if sid = sessionId then some (relTsMs : ℤ) else none
  | _ => none

/-- The event of a step, when it is one of the session. -/
def eventOf (sessionId : String) : SessionStep → Option CaptureEvent
  | .event e => if e.sessionId = sessionId then some e else none
  | _ => none

/-- The device timestamps of a session's packets, in the order of the run. -/
def packetsOf (sessionId : String) (steps : List SessionStep) : List ℤ :=
  steps.filterMap (packetOf sessionId)

/-- The events of a session, in the order of the run. -/
def eventsOf (sessionId : String) (steps : List SessionStep) : List CaptureEvent :=
  steps.filterMap (eventOf sessionId)

/-- The least and the greatest of some timestamps. -/
def rangeOf (xs : List ℤ) : Option (ℤ × ℤ) := do
  let lo ← xs.min?
  let hi ← xs.max?
  return (lo, hi)

theorem rangeOf_concat (xs : List ℤ) (x : ℤ) :
    rangeOf (xs ++ [x]) =
      some (min ((rangeOf xs).getD (x, x)).1 x, max ((rangeOf xs).getD (x, x)).2 x) := by
  cases xs with
  | nil => simp [rangeOf]
  | cons y ys =>
    simp only [rangeOf, List.cons_append, List.min?_cons', List.max?_cons', List.foldl_append,
      List.foldl_cons, List.foldl_nil]
    rfl

theorem rangeOf_eq_none_iff (xs : List ℤ) : rangeOf xs = none ↔ xs = [] := by
  cases xs with
  | nil => simp [rangeOf]
  | cons y ys => simp [rangeOf]

/-- A timestamp is in the range when some packet came no later, and some no earlier. -/
theorem mem_rangeOf {xs : List ℤ} {rng : ℤ × ℤ} (h : rangeOf xs = some rng) (r : ℤ) :
    (rng.1 ≤ r ∧ r ≤ rng.2) ↔ (∃ p ∈ xs, p ≤ r) ∧ ∃ q ∈ xs, r ≤ q := by
  simp only [rangeOf, Option.bind_eq_bind, Option.bind_eq_some_iff, Option.pure_def,
    Option.some.injEq] at h
  obtain ⟨lo, hlo, hi, hhi, rfl⟩ := h
  obtain ⟨hlomem, hloleast⟩ := List.min?_eq_some_iff.mp hlo
  obtain ⟨himem, higreatest⟩ := List.max?_eq_some_iff.mp hhi
  constructor
  · rintro ⟨hl, hh⟩
    exact ⟨⟨lo, hlomem, hl⟩, ⟨hi, himem, hh⟩⟩
  · rintro ⟨⟨p, hp, hpr⟩, ⟨q, hq, hqr⟩⟩
    exact ⟨(hloleast p hp).trans hpr, hqr.trans (higreatest q hq)⟩

theorem clocksAfter_concat (steps : List SessionStep) (step : SessionStep) :
    clocksAfter (steps ++ [step]) = (clocksAfter steps).step step := by
  rw [clocksAfter, run_append]
  rfl

/-- **The range of a session after a run** is that of its packets. -/
theorem relRange_clocksAfter (steps : List SessionStep) (sessionId : String) :
    (clocksAfter steps).timeline.relRange sessionId = rangeOf (packetsOf sessionId steps) := by
  induction steps using List.reverseRecOn with
  | nil => rfl
  | append_singleton steps step ih =>
    rw [clocksAfter_concat]
    cases step with
    | packet sid relTsMs =>
      by_cases hsid : sid = sessionId
      · have hpackets : packetsOf sessionId (steps ++ [.packet sid relTsMs]) =
            packetsOf sessionId steps ++ [(relTsMs : ℤ)] := by simp [packetsOf, packetOf, hsid]
        rw [hpackets, rangeOf_concat, ← ih]
        simp [SessionClocks.step, SessionTimelineIndex.record, SessionTimelineIndex.relRange, hsid]
      · have hpackets : packetsOf sessionId (steps ++ [.packet sid relTsMs]) =
            packetsOf sessionId steps := by simp [packetsOf, packetOf, hsid]
        rw [hpackets, ← ih]
        exact Dict.get?_set_of_ne _ _ (Ne.symm hsid)
    | event e => simpa [SessionClocks.step, packetsOf, packetOf, List.filterMap_cons] using ih
    | closed sid at_ =>
      simpa [SessionClocks.step, packetsOf, packetOf, List.filterMap_cons] using ih

theorem summary_record (idx : SessionIndex) (e : CaptureEvent) (sessionId : String) :
    ((idx.record e).summary sessionId).map SessionSummary.startedAt =
      if sessionId = e.sessionId then
        some (((idx.summary sessionId).map SessionSummary.startedAt).getD e.createdAt)
      else (idx.summary sessionId).map SessionSummary.startedAt := by
  unfold SessionIndex.record
  cases hs : idx.summary e.sessionId with
  | none =>
    split_ifs with hsid
    · subst hsid
      simp [SessionIndex.summary, SessionIndex.put] at hs ⊢
      simp [hs]
    · simp [SessionIndex.summary, SessionIndex.put, Dict.get?_set_of_ne _ _ hsid]
  | some s =>
    split_ifs with hsid
    · subst hsid
      simp [SessionIndex.summary, SessionIndex.put] at hs ⊢
      simp [hs]
    · simp [SessionIndex.summary, SessionIndex.put, Dict.get?_set_of_ne _ _ hsid]

theorem summary_markClosed (idx : SessionIndex) (sid : String) (at_ : Time) (sessionId : String) :
    ((idx.markClosed sid at_).summary sessionId).map SessionSummary.startedAt =
      (idx.summary sessionId).map SessionSummary.startedAt := by
  unfold SessionIndex.markClosed
  cases hs : idx.summary sid with
  | none => rfl
  | some s =>
    by_cases hsid : sessionId = sid
    · subst hsid
      simp [SessionIndex.summary, SessionIndex.put] at hs ⊢
      simp [hs]
    · simp [SessionIndex.summary, SessionIndex.put, Dict.get?_set_of_ne _ _ hsid]

/-- **The start of a session after a run** is the time of its first event. -/
theorem startedAt_clocksAfter (steps : List SessionStep) (sessionId : String) :
    ((clocksAfter steps).index.summary sessionId).map SessionSummary.startedAt =
      (eventsOf sessionId steps).head?.map CaptureEvent.createdAt := by
  induction steps using List.reverseRecOn with
  | nil => rfl
  | append_singleton steps step ih =>
    rw [clocksAfter_concat]
    cases step with
    | packet sid relTsMs => simpa [SessionClocks.step, eventsOf, eventOf] using ih
    | event e =>
      simp only [SessionClocks.step, summary_record, ih]
      by_cases hsid : e.sessionId = sessionId
      · rw [if_pos hsid.symm]
        have hevents : eventsOf sessionId (steps ++ [.event e]) =
            eventsOf sessionId steps ++ [e] := by simp [eventsOf, eventOf, hsid]
        rw [hevents]
        cases eventsOf sessionId steps <;> simp
      · rw [if_neg (Ne.symm hsid)]
        simp [eventsOf, eventOf, hsid]
    | closed sid at_ =>
      simp only [SessionClocks.step, summary_markClosed, ih]
      simp [eventsOf, eventOf]

/-! ## The session of a snapshot -/

/-- The packets of a session span a timestamp: one came no later, and one no earlier. -/
def Spans (sessionId : String) (steps : List SessionStep) (relTsMs : ℤ) : Prop :=
  (∃ p ∈ packetsOf sessionId steps, p ≤ relTsMs) ∧ ∃ q ∈ packetsOf sessionId steps, relTsMs ≤ q

theorem packetsOf_append (sessionId : String) (xs ys : List SessionStep) :
    packetsOf sessionId (xs ++ ys) = packetsOf sessionId xs ++ packetsOf sessionId ys := by
  rw [packetsOf, packetsOf, packetsOf, List.filterMap_append]

theorem Spans.append {sessionId : String} {xs : List SessionStep} {relTsMs : ℤ}
    (h : Spans sessionId xs relTsMs) (ys : List SessionStep) :
    Spans sessionId (xs ++ ys) relTsMs := by
  obtain ⟨⟨p, hp, hpr⟩, ⟨q, hq, hqr⟩⟩ := h
  rw [Spans, packetsOf_append]
  exact ⟨⟨p, List.mem_append_left _ hp, hpr⟩, ⟨q, List.mem_append_left _ hq, hqr⟩⟩

theorem nonneg_of_mem_packetsOf {sessionId : String} {steps : List SessionStep} {p : ℤ}
    (h : p ∈ packetsOf sessionId steps) : 0 ≤ p := by
  obtain ⟨step, -, hstep⟩ := List.mem_filterMap.mp h
  cases step with
  | packet sid relTsMs =>
    simp only [packetOf] at hstep
    split_ifs at hstep
    obtain rfl := Option.some.inj hstep
    exact Int.natCast_nonneg relTsMs
  | event e => simp [packetOf] at hstep
  | closed sid at_ => simp [packetOf] at hstep

/-- The range of an entry contains a timestamp. -/
def Contains (relTsMs : ℤ) (e : String × ℤ × ℤ) : Prop := e.2.1 ≤ relTsMs ∧ relTsMs ≤ e.2.2

/-- An entry of the timeline after a run contains what the packets of its session span. -/
theorem contains_iff {steps : List SessionStep} {e : String × ℤ × ℤ}
    (h : e ∈ (clocksAfter steps).timeline.ranges.entries) (relTsMs : ℤ) :
    Contains relTsMs e ↔ Spans e.1 steps relTsMs := by
  have hget : rangeOf (packetsOf e.1 steps) = some e.2 := by
    rw [← relRange_clocksAfter]
    exact (Dict.get?_eq_some_iff _ _ _).mpr h
  exact mem_rangeOf hget relTsMs

open SessionTimelineIndex in
/-- When no range contains the timestamp, no session is found. -/
theorem foldl_closest_none {relTsMs : ℤ} {entries : List (String × ℤ × ℤ)}
    (h : ∀ e ∈ entries, ¬ Contains relTsMs e) (best : Option String × ℤ) :
    entries.foldl (closest relTsMs) best = best := by
  induction entries with
  | nil => rfl
  | cons e entries ih =>
    have hskip : closest relTsMs best e = best := by
      unfold closest
      rw [if_neg]
      rintro ⟨hlo, hhi, -⟩
      exact h e (by simp) ⟨hlo, hhi⟩
    rw [List.foldl_cons, hskip]
    exact ih fun e' he' => h e' (by simp [he'])

open SessionTimelineIndex in
/-- When one range contains the timestamp, its session is found. -/
theorem foldl_closest_only {relTsMs : ℤ} {e₀ : String × ℤ × ℤ} (h₀ : Contains relTsMs e₀)
    (hlo : -1 < e₀.2.1) {entries : List (String × ℤ × ℤ)} (hmem : e₀ ∈ entries)
    (h : ∀ e ∈ entries, Contains relTsMs e → e = e₀) :
    entries.foldl (closest relTsMs) (none, -1) = (some e₀.1, e₀.2.1) := by
  obtain ⟨earlier, later, rfl, hearlier⟩ := List.eq_append_cons_of_mem hmem
  have hbefore : earlier.foldl (closest relTsMs) (none, -1) = (none, -1) := by
    apply foldl_closest_none
    intro e he hcontains
    exact hearlier (h e (by simp [he]) hcontains ▸ he)
  have hfound : closest relTsMs (none, -1) e₀ = (some e₀.1, e₀.2.1) := by
    unfold closest
    rw [if_pos ⟨h₀.1, h₀.2, hlo⟩]
  rw [List.foldl_append, hbefore, List.foldl_cons, hfound]
  -- a later entry that contains the timestamp is the same one, which is not better than itself
  have hlater : ∀ e ∈ later, Contains relTsMs e → e = e₀ := fun e he => h e (by simp [he])
  clear h hmem
  induction later with
  | nil => rfl
  | cons e later ih =>
    have hkeep : closest relTsMs (some e₀.1, e₀.2.1) e = (some e₀.1, e₀.2.1) := by
      unfold closest
      rw [if_neg]
      rintro ⟨hl, hh, hbetter⟩
      rw [hlater e (by simp) ⟨hl, hh⟩] at hbetter
      exact absurd hbetter (lt_irrefl _)
    rw [List.foldl_cons, hkeep]
    exact ih fun e' he' => hlater e' (by simp [he'])

/-- **The session of a timestamp** that the packets of no other session span. -/
theorem sessionForRelTs_iff {steps : List SessionStep} {sessionId : String} {relTsMs : ℤ}
    (hone : ∀ other, Spans other steps relTsMs → other = sessionId) :
    (clocksAfter steps).timeline.sessionForRelTs relTsMs = some sessionId ↔
      Spans sessionId steps relTsMs := by
  constructor
  · intro h
    by_contra hnot
    have hnone : ∀ e ∈ (clocksAfter steps).timeline.ranges.entries, ¬ Contains relTsMs e := by
      intro e he hcontains
      have hspans := (contains_iff he relTsMs).mp hcontains
      exact hnot (hone _ hspans ▸ hspans)
    rw [SessionTimelineIndex.sessionForRelTs, foldl_closest_none hnone] at h
    exact Option.some_ne_none _ h.symm
  · intro hspans
    obtain ⟨p, hp, hpr⟩ := hspans.1
    have hne : rangeOf (packetsOf sessionId steps) ≠ none := by
      rw [ne_eq, rangeOf_eq_none_iff]
      exact List.ne_nil_of_mem hp
    obtain ⟨rng, hrng⟩ := Option.ne_none_iff_exists'.mp hne
    have hentry : (sessionId, rng) ∈ (clocksAfter steps).timeline.ranges.entries := by
      rw [← Dict.get?_eq_some_iff]
      exact (relRange_clocksAfter steps sessionId).trans hrng
    have hcontains : Contains relTsMs (sessionId, rng) := (contains_iff hentry relTsMs).mpr hspans
    have hlo : -1 < rng.1 := by
      simp only [rangeOf, Option.bind_eq_bind, Option.bind_eq_some_iff, Option.pure_def,
        Option.some.injEq] at hrng
      obtain ⟨lo, hlo, hi, -, rfl⟩ := hrng
      have hnonneg := nonneg_of_mem_packetsOf (List.min?_eq_some_iff.mp hlo).1
      show -1 < lo
      omega
    rw [SessionTimelineIndex.sessionForRelTs, foldl_closest_only hcontains hlo hentry]
    intro e he hcontains'
    have hid : e.1 = sessionId := hone _ ((contains_iff he relTsMs).mp hcontains')
    have hget := (Dict.get?_eq_some_iff _ e.1 e.2).mpr he
    have hget₀ := (Dict.get?_eq_some_iff _ _ _).mpr hentry
    rw [hid, hget₀] at hget
    exact Prod.ext hid (Option.some.inj hget).symm

/-! ## The time of a snapshot -/

/-- The wall-clock time of a step, when the device clock started at `W0`: a packet arrives at the
time it carries. -/
def wall (W0 : Time) : SessionStep → Time
  | .packet _ relTsMs => W0 + relTsMs * 1000
  | .event e => e.createdAt
  | .closed _ at_ => at_

/-- The steps come in the order of the wall clock. -/
def Chronological (W0 : Time) (steps : List SessionStep) : Prop :=
  steps.Pairwise fun a b => wall W0 a ≤ wall W0 b

/-- The first packet of a session carries its least timestamp. -/
theorem packetsOf_pairwise {W0 : Time} {steps : List SessionStep} (h : Chronological W0 steps)
    (sessionId : String) : (packetsOf sessionId steps).Pairwise (· ≤ ·) := by
  have hwall : ∀ step p, packetOf sessionId step = some p → wall W0 step = W0 + p * 1000 := by
    intro step p hp
    cases step with
    | packet sid relTsMs =>
      simp only [packetOf] at hp
      split_ifs at hp
      obtain rfl := Option.some.inj hp
      rfl
    | event e => simp [packetOf] at hp
    | closed sid at_ => simp [packetOf] at hp
  rw [packetsOf, List.pairwise_filterMap]
  refine h.imp fun {a b} hab p hp q hq => ?_
  rw [hwall a p hp, hwall b q hq] at hab
  exact le_of_mul_le_mul_right (le_of_add_le_add_left hab) (by norm_num)

theorem rangeOf_cons_fst {x : ℤ} {xs : List ℤ} (h : (x :: xs).Pairwise (· ≤ ·)) {rng : ℤ × ℤ}
    (hrng : rangeOf (x :: xs) = some rng) : rng.1 = x := by
  simp only [rangeOf, Option.bind_eq_bind, Option.bind_eq_some_iff, Option.pure_def,
    Option.some.injEq] at hrng
  obtain ⟨lo, hlo, hi, -, rfl⟩ := hrng
  have hleast : (x :: xs).min? = some x := by
    rw [List.min?_eq_some_iff]
    refine ⟨by simp, fun y hy => ?_⟩
    rcases List.mem_cons.mp hy with rfl | hy
    · exact le_refl y
    · exact (List.pairwise_cons.mp h).1 y hy
  exact Option.some.inj (hlo.symm.trans hleast)

/-- The time a session gives a timestamp is right: its first event was at the time of its first
packet. Where one of the two is missing, the upload came at the time of the snapshot. -/
def TimeRight (W0 : Time) (sessionId : String) (before : List SessionStep) (relTsMs : ℤ)
    (now : Time) : Prop :=
  match (packetsOf sessionId before).head?, (eventsOf sessionId before).head? with
  | some p, some e => e.createdAt = W0 + p * 1000
  | _, _ => now = W0 + relTsMs * 1000

/-- The scene of an upload is in the session, at the time the device took the snapshot. -/
def SnapshotTrue (W0 : Time) (v : VisionPipeline) (clocks : SessionClocks) (now : Time)
    (u : SnapshotUpload) (sessionId : String) (relTsMs : ℤ) : Prop :=
  ∀ (stored : Time) (caption : String),
    (v.sceneAtom (u.toCapture clocks now) stored caption).sessionId = some sessionId ∧
    (v.sceneAtom (u.toCapture clocks now) stored caption).occurredAt =
      some (W0 + relTsMs * 1000)

/-- A scene carries what the route resolved. -/
theorem snapshotTrue_iff_resolved (W0 : Time) (v : VisionPipeline) (clocks : SessionClocks)
    (now : Time) (u : SnapshotUpload) (sessionId : String) (relTsMs : ℤ) :
    SnapshotTrue W0 v clocks now u sessionId relTsMs ↔
      u.session clocks = some sessionId ∧ u.occurredAt clocks now = W0 + relTsMs * 1000 := by
  simp [SnapshotTrue, VisionPipeline.sceneAtom, SnapshotUpload.toCapture]

/-- The time of an upload whose session is known. -/
theorem occurredAt_iff {W0 : Time} {before : List SessionStep} (hchron : Chronological W0 before)
    {sessionId : String} {relTsMs : ℤ} {u : SnapshotUpload} {now : Time}
    (hrel : u.relTsMs = some relTsMs) (hsession : u.session (clocksAfter before) = some sessionId) :
    u.occurredAt (clocksAfter before) now = W0 + relTsMs * 1000 ↔
      TimeRight W0 sessionId before relTsMs now := by
  have hsorted := packetsOf_pairwise hchron sessionId
  have hrange := relRange_clocksAfter before sessionId
  have hstart := startedAt_clocksAfter before sessionId
  unfold TimeRight
  simp only [SnapshotUpload.occurredAt, hsession, hrel]
  cases hpackets : packetsOf sessionId before with
  | nil =>
    rw [hpackets, (rangeOf_eq_none_iff _).mpr rfl] at hrange
    simp [hrange]
  | cons p ps =>
    rw [hpackets] at hrange hsorted
    have hne : rangeOf (p :: ps) ≠ none := by simp [rangeOf_eq_none_iff]
    obtain ⟨rng, hrng⟩ := Option.ne_none_iff_exists'.mp hne
    have hlo := rangeOf_cons_fst hsorted hrng
    rw [hrng] at hrange
    cases hevents : eventsOf sessionId before with
    | nil =>
      have hnone : (clocksAfter before).index.summary sessionId = none := by
        simpa [hevents] using hstart
      simp [hrange, hnone]
    | cons e es =>
      rw [hevents] at hstart
      obtain ⟨summary, hsummary, hat⟩ := Option.map_eq_some_iff.mp hstart
      simp only [hrange, hsummary, List.head?_cons, hlo, hat]
      constructor
      · intro h
        linarith
      · intro h
        rw [h]
        ring

/-- **When the time and the session of a snapshot are true.** The snapshot was taken in a session
whose packets, and no other session's, span its timestamp in the end, and it is uploaded in between.
Its scene is in that session exactly when the upload names the session, or names none and a packet
that is no earlier has arrived. It is then at the time of the snapshot exactly when the first event
of the session was at the time of its first packet. -/
theorem snapshotTrue_iff {W0 : Time} {before after : List SessionStep}
    (hchron : Chronological W0 (before ++ after)) {sessionId : String} {relTsMs : ℤ}
    (hone : ∀ other, Spans other (before ++ after) relTsMs → other = sessionId)
    (v : VisionPipeline) (image : Bytes) (mediaType : String) (named : Option String)
    (now : Time) :
    SnapshotTrue W0 v (clocksAfter before) now ⟨image, some relTsMs, named, mediaType⟩
        sessionId relTsMs ↔
      (named = some sessionId ∨ named = none ∧ Spans sessionId before relTsMs) ∧
      TimeRight W0 sessionId before relTsMs now := by
  have hbefore : Chronological W0 before := (List.pairwise_append.mp hchron).1
  have hsession : SnapshotUpload.session (clocksAfter before)
      ⟨image, some relTsMs, named, mediaType⟩ = some sessionId ↔
        named = some sessionId ∨ named = none ∧ Spans sessionId before relTsMs := by
    cases named with
    | none =>
      have hone' : ∀ other, Spans other before relTsMs → other = sessionId :=
        fun other h => hone other (h.append after)
      simpa [SnapshotUpload.session] using sessionForRelTs_iff hone'
    | some other => simp [SnapshotUpload.session]
  rw [snapshotTrue_iff_resolved]
  constructor
  · rintro ⟨hs, hat⟩
    exact ⟨hsession.mp hs, (occurredAt_iff hbefore rfl hs).mp hat⟩
  · rintro ⟨hs, hat⟩
    exact ⟨hsession.mpr hs, (occurredAt_iff hbefore rfl (hsession.mpr hs)).mpr hat⟩

/-! ## A minute of silence -/

/-- The first words of a session, a minute after its first packet. -/
def firstWords : CaptureEvent where
  eventId := "s:0"
  sessionId := "s"
  seq := 0
  kind := .transcript
  createdAt := 60000000
  text := "hello"
  durationMs := 1000
  startMs := 0

def silentMinute : List SessionStep :=
  [.packet "s" 0, .event firstWords, .packet "s" 61000]

theorem chronological_silentMinute : Chronological 0 (silentMinute ++ []) := by
  simp [Chronological, silentMinute, wall, firstWords]

theorem spans_silentMinute (other : String) (h : Spans other (silentMinute ++ []) 5000) :
    other = "s" := by
  obtain ⟨⟨p, hp, -⟩, -⟩ := h
  by_contra hne
  simp [packetsOf, silentMinute, packetOf, List.filterMap_cons, Ne.symm hne] at hp

/-- The theorem at a snapshot taken five seconds into the silence. -/
theorem snapshotTrue_iff_silentMinute :
    SnapshotTrue 0 ⟨fun _ => "", fun _ _ => none⟩ (clocksAfter silentMinute) 70000000
        ⟨[], some 5000, none, "image/jpeg"⟩ "s" 5000 ↔
      ((none : Option String) = some "s" ∨
        (none : Option String) = none ∧ Spans "s" silentMinute 5000) ∧
      TimeRight 0 "s" silentMinute 5000 70000000 :=
  snapshotTrue_iff chronological_silentMinute spans_silentMinute ⟨fun _ => "", fun _ _ => none⟩ []
    "image/jpeg" none 70000000

/-- That snapshot is put a minute too late, so the time of a snapshot is not always true. -/
theorem not_always_snapshotTrue : ¬ ∀ (W0 : Time) (before after : List SessionStep)
    (sessionId : String) (relTsMs : ℤ) (v : VisionPipeline) (image : Bytes) (mediaType : String)
    (now : Time), Chronological W0 (before ++ after) →
      Spans sessionId before relTsMs →
      (∀ other, Spans other (before ++ after) relTsMs → other = sessionId) →
      SnapshotTrue W0 v (clocksAfter before) now ⟨image, some relTsMs, none, mediaType⟩
        sessionId relTsMs := by
  intro h
  have hspans : Spans "s" silentMinute 5000 := by
    simp [Spans, packetsOf, silentMinute, packetOf, List.filterMap_cons]
  have htrue := h 0 silentMinute [] "s" 5000 ⟨fun _ => "", fun _ _ => none⟩ [] "image/jpeg"
    70000000 chronological_silentMinute hspans spans_silentMinute
  rw [snapshotTrue_iff_resolved] at htrue
  have hat : SnapshotUpload.occurredAt (clocksAfter silentMinute) 70000000
      ⟨[], some 5000, none, "image/jpeg"⟩ = 65000000 := by decide +kernel
  rw [hat] at htrue
  simp at htrue

end OpenRecall.Analysis.SnapshotTime
