import OpenRecall.Model.Ingest
import OpenRecall.Foundation.CursorBudget

/-!
# The silence between two packets

Between two packets with frames the pipeline fills in the gap step by step, at every marker that
comes. The clock of this, the device time it has come to and the silence it has filled in, is moved
by packets alone (`gapClock_ingest`), and each marker moves it on by what it fills in. So the
markers are steps of a cursor with a budget, and what they and the second packet fill in is the gap,
or the cap.
-/

set_option autoImplicit false

namespace OpenRecall.Analysis.GapSilence

open Foundation OpenRecall.Model OpenRecall.Model.AudioIngestPipeline SessionReassembler

variable {β : Type} (cfg : IngestConfig) (backend : IngestBackend β)

/-! ## What is filled in -/

section

variable {γ : Type} (f : AudioPacket → AudioIngestPipeline β → γ)

/-- What is filled in before each of some packets, by the pipeline it comes to. -/
def beforeEach : List AudioPacket → AudioIngestPipeline β → List γ
  | [], _ => []
  | pkt :: pkts, p =>
    f pkt p ::
      if (p.bufferPacket cfg backend pkt).1 = none then
        beforeEach pkts (p.bufferPacket cfg backend pkt).2
      else []

/-- What is filled in by a call. Nothing is decoded when the audio is off.
SOURCE: ingest/pipeline.py:422-442 -/
def filledBy (env : IngestEnv) (packet : AudioPacket) (store : AudioStore)
    (p : AudioIngestPipeline β) : List γ :=
  if env.audioEnabled then
    beforeEach cfg backend f (p.received cfg backend env packet store).1
      (p.received cfg backend env packet store).2.2
  else []

/-- What is filled in by some calls. -/
def filledAll : List (IngestEnv × AudioPacket) → AudioStore → AudioIngestPipeline β → List γ
  | [], _, _ => []
  | (env, packet) :: calls, store, p =>
    filledBy cfg backend f env packet store p ++
      filledAll calls (p.ingestSegments cfg backend env packet store).2.1
        (p.ingestSegments cfg backend env packet store).2.2

variable {f}

theorem beforeEach_map {δ : Type} (g : γ → δ) (pkts : List AudioPacket)
    (p : AudioIngestPipeline β) :
    beforeEach cfg backend (fun pkt p => g (f pkt p)) pkts p =
      (beforeEach cfg backend f pkts p).map g := by
  induction pkts generalizing p with
  | nil => simp [beforeEach]
  | cons pkt pkts ih =>
    rw [beforeEach, beforeEach, List.map_cons, ih]
    split_ifs <;> simp

theorem filledAll_map {δ : Type} (g : γ → δ) (calls : List (IngestEnv × AudioPacket))
    (store : AudioStore) (p : AudioIngestPipeline β) :
    filledAll cfg backend (fun pkt p => g (f pkt p)) calls store p =
      (filledAll cfg backend f calls store p).map g := by
  induction calls generalizing store p with
  | nil => simp [filledAll]
  | cons call calls ih =>
    rw [filledAll, filledAll, List.map_append, ih, filledBy, filledBy, beforeEach_map]
    split_ifs <;> simp

end

/-! ## The clock -/

/-- The device time the pipeline has come to, and the silence it has filled in since the last
frames. -/
def gapClock (p : AudioIngestPipeline β) : Option ℕ × ℕ := (p.relTsCursor, p.silenceRunMs)

theorem gapClock_persist (packet : AudioPacket) (store : AudioStore) (p : AudioIngestPipeline β) :
    gapClock (p.persist cfg backend packet store).2 = gapClock p := by
  unfold persist
  split
  · rfl
  · split <;> rfl

theorem gapClock_feedPcm (fedMs : Bytes → ℕ) (pcm rest : Bytes) (p : AudioIngestPipeline β) :
    gapClock (p.feedPcm cfg backend fedMs pcm rest).2 = gapClock p := by
  unfold feedPcm
  split
  · rfl
  · dsimp only
    split <;> rfl

theorem gapClock_feedHops (fuel : ℕ) (p : AudioIngestPipeline β) :
    gapClock (p.feedHops cfg backend fuel).2 = gapClock p := by
  induction fuel generalizing p with
  | zero => rfl
  | succ fuel ih =>
    rw [feedHops]
    split_ifs
    · rfl
    · have hfirst := gapClock_feedPcm cfg backend (fun _ => cfg.streamerHopMs)
        (p.pcmBuffer.take cfg.hopBytes) (p.pcmBuffer.drop cfg.hopBytes) p
      split
      · rename_i heq
        rwa [heq] at hfirst
      · rename_i out p' heq
        rw [heq] at hfirst
        have hrest := (ih p').trans hfirst
        split
        · rename_i heq'
          rwa [heq'] at hrest
        · rename_i heq'
          rwa [heq'] at hrest

variable {cfg backend} {p : AudioIngestPipeline β} {packet : AudioPacket}

theorem gapClock_received (env : IngestEnv) (store : AudioStore) :
    gapClock (p.received cfg backend env packet store).2.2 = gapClock p :=
  gapClock_persist cfg backend packet store _

variable (cfg backend) in
/-- A packet of the stream is received alone, and the next one is waited for. -/
theorem received_idle (h : Idle p.reassembler packet.chunkSeq) (env : IngestEnv)
    (store : AudioStore) :
    (p.received cfg backend env packet store).1 = [packet] ∧
      Idle (p.ingestSegments cfg backend env packet store).2.2.reassembler
        (packet.chunkSeq + 1) := by
  obtain ⟨hdelivered, hidle⟩ := h.acceptPackets cfg.gapTimeoutMs env.now
  refine ⟨hdelivered, ?_⟩
  cases henabled : env.audioEnabled with
  | false =>
    simp only [ingestSegments, henabled, Bool.false_eq_true, if_false]
    exact hidle
  | true =>
    have hsteady := (ingestSegments_leaves cfg backend henabled packet store p).2
    have hreceived : (p.received cfg backend env packet store).2.2.reassembler =
        (p.reassembler.acceptPackets cfg.gapTimeoutMs env.now packet).2 := by
      simp only [received, persist]
      split
      · rfl
      · split <;> rfl
    rw [hsteady.reassembler, hreceived]
    exact hidle

/-- A packet that is received alone moves the clock when it is buffered. -/
theorem gapClock_ingest (h : Idle p.reassembler packet.chunkSeq) {env : IngestEnv}
    (henabled : env.audioEnabled = true) (store : AudioStore) :
    gapClock (p.ingestSegments cfg backend env packet store).2.2 =
      gapClock ((p.received cfg backend env packet store).2.2.bufferPacket cfg backend packet).2 := by
  have hdelivered := (received_idle cfg backend h env store).1
  have hbuffer : (p.received cfg backend env packet store).2.2.bufferPackets cfg backend
      (p.received cfg backend env packet store).1 =
        (p.received cfg backend env packet store).2.2.bufferPacket cfg backend packet := by
    rw [hdelivered, bufferPackets]
    split
    · rename_i heq
      rw [heq]
    · rename_i heq
      rw [heq, bufferPackets]
  rw [← hbuffer]
  simp only [ingestSegments, henabled, if_true]
  simp only [received]
  split
  · rename_i heq
    rw [heq]
  · rename_i heq
    rw [gapClock_feedHops, heq]

/-! ## A gap -/

theorem insertMs_eq {cursor run : ℕ} (h : gapClock p = (some cursor, run)) (pkt : AudioPacket) :
    p.insertMs cfg pkt = min (pkt.relTsMs - cursor) (cfg.gapCap - run) := by
  obtain ⟨hcursor, hrun⟩ := Prod.mk.inj h
  rw [insertMs, hcursor, ← hrun]

/-- A marker moves the clock on by what it fills in. -/
theorem gapClock_marker {cursor run : ℕ} (h : gapClock p = (some cursor, run))
    (hframes : packet.frames = []) :
    gapClock (p.bufferPacket cfg backend packet).2 =
      (some (max cursor packet.relTsMs),
        run + min (packet.relTsMs - cursor) (cfg.gapCap - run)) := by
  have hinsert : p.insertMs cfg packet = min (packet.relTsMs - cursor) (cfg.gapCap - run) :=
    insertMs_eq h packet
  obtain ⟨hcursor, hrun⟩ := Prod.mk.inj h
  simp [bufferPacket, hframes, decodeFrames, gapClock, cursorAfter, hcursor, hrun, hinsert, max_comm]

/-- Decoded frames set the clock to their end. -/
theorem gapClock_frames (hframes : packet.frames ≠ [])
    (hdecoded : (p.bufferPacket cfg backend packet).1 = none) :
    gapClock (p.bufferPacket cfg backend packet).2 =
      (some (packet.relTsMs + packet.frames.length * frameMs), 0) := by
  unfold bufferPacket at hdecoded ⊢
  dsimp only at hdecoded ⊢
  split at hdecoded
  · simp at hdecoded
  · simp [gapClock, cursorAfter, hframes]

/-- A packet in order is filled in before once, if the audio is on. -/
theorem filledBy_idle {γ : Type} {f : AudioPacket → AudioIngestPipeline β → γ}
    (h : Idle p.reassembler packet.chunkSeq) (env : IngestEnv) (store : AudioStore) :
    filledBy cfg backend f env packet store p =
      if env.audioEnabled then [f packet (p.received cfg backend env packet store).2.2] else [] := by
  rw [filledBy, (received_idle cfg backend h env store).1, beforeEach]
  split_ifs <;> simp [beforeEach]

/-- The times of the packets that come while the audio is on. -/
def marksOf (calls : List (IngestEnv × AudioPacket)) : List ℕ :=
  (calls.filter fun call => call.1.audioEnabled).map fun call => call.2.relTsMs

variable (cfg backend) in
/-- **Markers and the packet after them** are steps of a cursor with a budget. -/
theorem filledAll_markers {markers : List (IngestEnv × AudioPacket)} {last : IngestEnv × AudioPacket}
    (hframes : ∀ call ∈ markers, call.2.frames = [])
    (horder : (markers ++ [last]).IsChain fun x y => y.2.chunkSeq = x.2.chunkSeq + 1)
    {seq : ℤ} (hseq : ∀ first ∈ (markers ++ [last]).head?, first.2.chunkSeq = seq)
    (hidle : Idle p.reassembler seq) {cursor run : ℕ} (hclock : gapClock p = (some cursor, run))
    (store : AudioStore) :
    filledAll cfg backend (fun pkt p => p.insertMs cfg pkt) (markers ++ [last]) store p =
      CursorBudget.amounts cfg.gapCap (marksOf (markers ++ [last])) cursor run := by
  induction markers generalizing p seq cursor run store with
  | nil =>
    have hlast : (last.2.chunkSeq : ℤ) = seq := hseq last rfl
    rw [List.nil_append, filledAll, filledAll, filledBy_idle (hlast ▸ hidle)]
    split_ifs with henabled
    · rw [insertMs_eq ((gapClock_received _ _).trans hclock)]
      simp [marksOf, henabled, CursorBudget.amounts]
    · simp [marksOf, henabled, CursorBudget.amounts]
  | cons call markers ih =>
    have hcall : (call.2.chunkSeq : ℤ) = seq := hseq call rfl
    have hidle' : Idle p.reassembler call.2.chunkSeq := hcall ▸ hidle
    have hnext := (received_idle cfg backend hidle' call.1 store).2
    rw [List.cons_append, List.isChain_cons] at horder
    have hframes' : ∀ c ∈ markers, c.2.frames = [] := fun c hc => hframes c (List.mem_cons_of_mem _ hc)
    have hhead : ∀ first ∈ (markers ++ [last]).head?, (first.2.chunkSeq : ℤ) = call.2.chunkSeq + 1 :=
      fun first hfirst => by exact_mod_cast horder.1 first hfirst
    rw [List.cons_append, filledAll, filledBy_idle hidle']
    have hreceived : gapClock (p.received cfg backend call.1 call.2 store).2.2 = (some cursor, run) :=
      (gapClock_received call.1 store).trans hclock
    split_ifs with henabled
    · have hafter : gapClock (p.ingestSegments cfg backend call.1 call.2 store).2.2 =
          (some (max cursor call.2.relTsMs),
            run + min (call.2.relTsMs - cursor) (cfg.gapCap - run)) :=
        (gapClock_ingest hidle' henabled store).trans
          (gapClock_marker hreceived (hframes call (by simp)))
      rw [ih hframes' horder.2 hhead hnext hafter, insertMs_eq hreceived]
      simp [marksOf, henabled, CursorBudget.amounts]
    · have hafter : gapClock (p.ingestSegments cfg backend call.1 call.2 store).2.2 =
          (some cursor, run) := by
        simpa [ingestSegments, henabled, gapClock] using hclock
      rw [ih hframes' horder.2 hhead hnext hafter]
      simp [marksOf, henabled]

/-- Zeros for some times are zeros for all of it, where a millisecond is whole samples. -/
theorem flatten_zeros {rate : ℕ} (hrate : 1000 ∣ rate) (times : List ℕ) :
    (times.map fun ms => (List.replicate (rate * ms / 1000 * 2) 0 : Bytes)).flatten =
      List.replicate (rate * times.sum / 1000 * 2) 0 := by
  obtain ⟨samples, rfl⟩ := hrate
  have hms : ∀ ms, 1000 * samples * ms / 1000 = samples * ms := fun ms => by
    rw [mul_assoc, Nat.mul_div_cancel_left _ (by norm_num)]
  induction times with
  | nil => simp
  | cons ms times ih =>
    rw [List.map_cons, List.flatten_cons, ih, List.replicate_append_replicate, List.sum_cons, hms,
      hms, hms]
    congr 1
    ring

/-- **The silence depends on the gap alone.** After a packet whose frames are decoded, the markers and
the packet after them fill in the gap from the end of its frames to that packet, up to the cap,
however many markers there are and wherever they stand. At a rate of whole samples a millisecond the
PCM that is filled in is zeros of that length.
SOURCE: ingest/pipeline.py:405-452 -/
theorem gap_silence {p : AudioIngestPipeline β} {store : AudioStore}
    {first last : IngestEnv × AudioPacket} {markers : List (IngestEnv × AudioPacket)}
    (hidle : Idle p.reassembler first.2.chunkSeq)
    (horder : (first :: (markers ++ [last])).IsChain fun x y => y.2.chunkSeq = x.2.chunkSeq + 1)
    (htimes : (first :: (markers ++ [last])).Pairwise fun x y => x.2.relTsMs ≤ y.2.relTsMs)
    (hframes : first.2.frames ≠ []) (hmarkers : ∀ call ∈ markers, call.2.frames = [])
    (hfirst : first.1.audioEnabled = true) (hlast : last.1.audioEnabled = true)
    (hdecoded : ((p.received cfg backend first.1 first.2 store).2.2.bufferPacket cfg backend
      first.2).1 = none) :
    let after := (p.ingestSegments cfg backend first.1 first.2 store).2
    let gap := last.2.relTsMs - (first.2.relTsMs + first.2.frames.length * frameMs)
    (filledAll cfg backend (fun pkt p => p.insertMs cfg pkt) (markers ++ [last]) after.1
        after.2).sum = min gap cfg.gapCap ∧
      (1000 ∣ cfg.sampleRate →
        (filledAll cfg backend (fun pkt p => p.gapSilenceFor cfg pkt) (markers ++ [last]) after.1
            after.2).flatten =
          List.replicate (cfg.sampleRate * min gap cfg.gapCap / 1000 * 2) 0) := by
  intro after gap
  have hclock : gapClock after.2 =
      (some (first.2.relTsMs + first.2.frames.length * frameMs), 0) :=
    (gapClock_ingest hidle hfirst store).trans (gapClock_frames hframes hdecoded)
  rw [List.isChain_cons] at horder
  have hhead : ∀ call ∈ (markers ++ [last]).head?,
      (call.2.chunkSeq : ℤ) = first.2.chunkSeq + 1 :=
    fun call hcall => by exact_mod_cast horder.1 call hcall
  have hfilled := filledAll_markers cfg backend hmarkers horder.2 hhead
    (received_idle cfg backend hidle first.1 store).2 hclock after.1
  have hsum : (filledAll cfg backend (fun pkt p => p.insertMs cfg pkt) (markers ++ [last]) after.1
      after.2).sum = min gap cfg.gapCap := by
    have hmarks : marksOf (markers ++ [last]) = marksOf markers ++ [last.2.relTsMs] := by
      simp [marksOf, hlast]
    rw [hfilled, hmarks, CursorBudget.sum_amounts_concat]
    intro mark hmark
    obtain ⟨call, hcall, rfl⟩ := List.mem_map.mp hmark
    have hcall' := List.mem_of_mem_filter hcall
    exact (List.pairwise_append.mp htimes.of_cons).2.2 call hcall' last (by simp)
  refine ⟨hsum, fun hrate => ?_⟩
  have hpcm := filledAll_map cfg backend (f := fun pkt p => p.insertMs cfg pkt)
    (fun ms => (List.replicate (cfg.sampleRate * ms / 1000 * 2) 0 : Bytes)) (markers ++ [last])
    after.1 after.2
  rw [← hsum]
  refine (congrArg List.flatten hpcm).trans ?_
  exact flatten_zeros hrate _

/-- A cap of 100 ms, at 1000 samples a second. -/
def cappedConfig : IngestConfig where
  hopMs := 20
  windowMs := 100
  sampleRate := 1000
  gapSilenceCapMs := some 100
  isAlnum := Char.isAlphanum
  window_frames := ⟨5, rfl⟩
  hop_frames := ⟨1, rfl⟩
  hop_le_window := by decide
  hop_pos := by decide
  frame_samples := by decide

/-- A decoder that gives no samples, and a streamer that hears nothing. -/
def deaf : IngestBackend Unit where
  initial := ()
  decode _ b := (.ok [], b)
  denoise pcm b := (.ok pcm, b)
  identify _ b := (none, b)
  feed _ b := (.ok [], b)
  flush b := (.ok [], b)

/-- A packet with the next number, at a time, with so many frames. -/
def packetAt (seq relTsMs count : ℕ) : IngestEnv × AudioPacket :=
  ({}, { version := 1
         ptype := .live
         chunkSeq := seq
         relTsMs := relTsMs
         vadState := if count = 0 then .gapMarker else .speech
         flags := 0
         frames := List.replicate count [1] })

/-- A new pipeline. -/
def newPipeline : AudioIngestPipeline Unit where
  reassembler := .create 0
  backend := ()

/-- Of a gap of 180 ms with two markers in it 100 ms are filled in. -/
theorem gap_silence_capped :
    let after := (newPipeline.ingestSegments cappedConfig deaf (packetAt 0 0 1).1 (packetAt 0 0 1).2
      {}).2
    (filledAll cappedConfig deaf (fun pkt p => p.insertMs cappedConfig pkt)
      ([packetAt 1 50 0, packetAt 2 90 0] ++ [packetAt 3 200 1]) after.1 after.2).sum = 100 :=
  (gap_silence (idle_create (Or.inl rfl)) (by decide) (by decide) (by decide) (by decide) rfl rfl
    rfl).1

end OpenRecall.Analysis.GapSilence
