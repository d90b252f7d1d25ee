import OpenRecall.Foundation.Run
import OpenRecall.Model.TransferWindow

/-!
# One radio for Bluetooth and WiFi

While the access point is up nothing advertises; a window ends with everything as it was before, after
any failure; and when no window is open and the host has nothing to do, a phone is connected or can
find the sensor. The host's callback must not have read the flag before a window sets it and advertise
after: nothing in the code keeps it from that.
-/

set_option autoImplicit false

namespace OpenRecall.Analysis.RadioSharing

open Foundation OpenRecall.Model.TransferWindow

/-- The task is between setting the flag and clearing it. -/
def inside : TransferPc → Bool
  | .suspend | .advertise | .finish => false
  | _ => true

/-- The task has stopped the advertising and has not cleared the flag. -/
def quiet (pc : TransferPc) : Bool := inside pc && pc ≠ .advStop

/-- The access point is up. -/
def wifiUp : TransferPc → Bool
  | .serverStart | .hold _ => true
  | .serverStop _ wifiStarted | .wifiStop wifiStarted => wifiStarted
  | _ => false

/-- The server is up. -/
def serverUp : TransferPc → Bool
  | .hold _ => true
  | .serverStop server _ => server
  | _ => false

/-- What the task calls next must work for the window to end well. -/
def mustWork : TransferPc → Bool
  | .serverStop _ _ | .wifiStop _ | .advertise => true
  | _ => false

/-- The task has still to advertise. -/
def returns (pc : TransferPc) : Bool := pc ≠ .finish

/-- A callback does not read the flag before a window sets it and advertise after; the server and the
access point can be stopped; and there is nothing but a connection to keep the host from advertising. -/
def Orderly (s : Sensor) : RadioStep → Prop
  | .host ok => (s.host = .advertise ∨ s.host = .downshift) → ok = true
  | .transfer ok =>
    (s.transfer = some .suspend → s.host ≠ .advertise ∧ s.host ≠ .downshift) ∧
      (s.transfer.any mustWork = true → ok = true)
  | .flush _ | .radio _ => True

instance (s : Sensor) : ∀ st, Decidable (Orderly s st)
  | .host _ => inferInstanceAs (Decidable (_ → _))
  | .transfer _ => inferInstanceAs (Decidable (_ ∧ _))
  | .flush _ | .radio _ => inferInstanceAs (Decidable True)

/-- What an event tells the host of the connection. -/
def told (connected : Bool) : GapEvent → Bool
  | .connect true => true
  | .disconnect => false
  | _ => connected

/-- After this event the host advertises again. -/
def restarts : GapEvent → Bool
  | .connect true => false
  | _ => true

/-- A phone is connected, or can find the sensor, or will. -/
def Comes (s : Sensor) : Prop :=
  s.advertising ∨ s.link ∨ s.events.any restarts ∨ s.host ≠ .idle ∨ s.transfer.any returns

/-- What the tasks keep. -/
structure Kept (s : Sensor) : Prop where
  suspended : s.suspended = s.transfer.any inside
  silent : s.transfer.any quiet = true → s.advertising = false
  still : s.suspended = true → s.host ≠ .advertise ∧ s.host ≠ .downshift
  wifi : s.wifi = s.transfer.any wifiUp
  server : s.server = s.transfer.any serverUp
  nested : s.transfer.any serverUp = true → s.transfer.any wifiUp = true
  driver : s.driver = (s.wifiInited || s.transfer = some .netif)
  uninited : s.transfer = some .netif → s.wifiInited = false
  waited : s.waited ≤ windowS
  holds : ∀ remaining, s.transfer = some (.hold remaining) → s.waited + remaining = windowS
  link : s.events.foldl told s.connected = s.link
  comes : Comes s

/-! ## The host and the radio -/

/-- A connection that has ended is told of. -/
theorem exists_restarts {events : List GapEvent} (h : events.foldl told true = false) :
    events.any restarts = true := by
  induction events with
  | nil => cases h
  | cons event events ih =>
    cases event with
    | connect ok =>
      cases ok with
      | true => simpa [restarts] using ih h
      | false => simp [restarts]
    | disconnect => simp [restarts]
    | advComplete => simp [restarts]

/-- What trying to advertise leaves: only the advertising may have changed, and it goes on unless a
phone is connected. -/
theorem advStart_cases (ok : Bool) (s : Sensor) :
    (advStart ok s).2 = s ∨ ((advStart ok s).2 = { s with advertising := true } ∧ ok = true) := by
  unfold advStart
  split_ifs with hon hlink
  · exact .inl rfl
  · exact .inl rfl
  · exact .inr ⟨rfl, by simpa using (not_or.mp hlink).2⟩

theorem advStart_comes (s : Sensor) :
    (advStart true s).2.advertising = true ∨ (advStart true s).2.link = true := by
  unfold advStart
  split_ifs with hon hlink
  · exact .inl hon
  · exact .inr (by simpa using hlink)
  · exact .inl rfl

/-- The events of the radio are told to the host in their order. -/
theorem Kept.radio {s : Sensor} (h : Kept s) (event : RadioEvent) : Kept (radio s event) := by
  have hlink := h.link
  cases event with
  | connects =>
    unfold OpenRecall.Model.TransferWindow.radio
    dsimp only
    split_ifs with hadv
    · exact
        { h with
          silent := fun _ => rfl
          link := by simp [told]
          comes := .inr (.inl rfl) }
    · exact h
  | connectFails =>
    unfold OpenRecall.Model.TransferWindow.radio
    dsimp only
    split_ifs with hadv
    · exact
        { h with
          silent := fun _ => rfl
          link := by simpa [told] using hlink
          comes := .inr (.inr (.inl (by simp [restarts]))) }
    · exact h
  | advExpires =>
    unfold OpenRecall.Model.TransferWindow.radio
    dsimp only
    split_ifs with hadv
    · exact
        { h with
          silent := fun _ => rfl
          link := by simpa [told] using hlink
          comes := .inr (.inr (.inl (by simp [restarts]))) }
    · exact h
  | drops =>
    unfold OpenRecall.Model.TransferWindow.radio
    dsimp only
    split_ifs with hdrops
    · exact
        { h with
          link := by simp [told]
          comes := .inr (.inr (.inl (by simp [restarts]))) }
    · exact h

/-- A quiet window has the flag set. -/
theorem Kept.suspended_of_quiet {s : Sensor} (h : Kept s) (hquiet : s.transfer.any quiet = true) :
    s.suspended = true := by
  obtain ⟨pc, hpc, hq⟩ := Option.any_eq_true _ _ |>.mp hquiet
  rw [h.suspended, hpc, Option.any_some]
  exact (Bool.and_eq_true_iff.mp hq).1

/-- While the flag is set the task will advertise. -/
theorem Kept.will_return {s : Sensor} (h : Kept s) (hsuspended : s.suspended = true) :
    s.transfer.any returns = true := by
  rw [h.suspended] at hsuspended
  obtain ⟨pc, hpc, hin⟩ := Option.any_eq_true _ _ |>.mp hsuspended
  rw [hpc, Option.any_some]
  cases pc <;> first | rfl | cases hin

/-- Outside a window the host may advertise. -/
theorem Kept.advertise {s : Sensor} (h : Kept s) (hout : s.suspended = false) (host : HostPc) :
    Kept { (advStart true s).2 with host := host } := by
  have hquiet : s.transfer.any quiet ≠ true := fun hquiet => by
    simp [h.suspended_of_quiet hquiet] at hout
  rcases advStart_cases true s with hsame | ⟨hon, -⟩
  · have hcomes := advStart_comes s
    rw [hsame] at hcomes ⊢
    exact
      { h with
        still := fun hsuspended => by simp [hout] at hsuspended
        comes := hcomes.elim .inl fun hlink => .inr (.inl hlink) }
  · rw [hon]
    exact
      { h with
        silent := fun hq => absurd hq hquiet
        still := fun hsuspended => by simp [hout] at hsuspended
        comes := .inl rfl }

/-- The host takes an event. -/
theorem Kept.handle {s : Sensor} (h : Kept s) (hidle : s.host = .idle) {event : GapEvent}
    {rest : List GapEvent} (hevents : s.events = event :: rest) :
    Kept (handle event { s with events := rest }) := by
  have hlink := h.link
  rw [hevents, List.foldl_cons] at hlink
  have hbusy : ∀ pc : HostPc, pc ≠ .idle → pc ≠ .advertise → pc ≠ .downshift →
      ∀ connected, told s.connected event = connected →
      Kept { s with events := rest, connected := connected, host := pc } := by
    rintro pc hpc hadvertise hdownshift _ rfl
    exact
      { h with
        still := fun _ => ⟨hadvertise, hdownshift⟩
        link := hlink
        comes := .inr (.inr (.inr (.inl hpc))) }
  cases event with
  | connect ok =>
    cases ok with
    | true =>
      refine { h with link := hlink, comes := ?_ }
      rcases h.comes with hadv | hup | hmore | hhost | hwindow
      · exact .inl hadv
      · exact .inr (.inl hup)
      · rw [hevents, List.any_cons] at hmore
        exact .inr (.inr (.inl hmore))
      · exact absurd hidle hhost
      · exact .inr (.inr (.inr (.inr hwindow)))
    | false => exact hbusy .check (by simp) (by simp) (by simp) s.connected rfl
  | disconnect => exact hbusy .check (by simp) (by simp) (by simp) false rfl
  | advComplete => exact hbusy .checkIdle (by simp) (by simp) (by simp) s.connected rfl

/-- **The host** never starts to advertise while the flag is set. -/
theorem Kept.host {s : Sensor} (h : Kept s) {ok : Bool} (hst : Orderly s (.host ok)) :
    Kept (hostStep ok s) := by
  have hleft : ∀ host : HostPc, s.suspended = false → host ≠ .idle → Kept { s with host := host } :=
    fun host hout hhost =>
      { h with
        still := fun hsuspended => by simp [hout] at hsuspended
        comes := .inr (.inr (.inr (.inl hhost))) }
  have hback : Comes { s with host := .idle } → Kept { s with host := .idle } := fun hcomes =>
    { h with
      still := fun _ => ⟨by simp, by simp⟩
      comes := hcomes }
  obtain ⟨advertising, link, events, driver, wifi, server, suspended, connected, wifiInited, host,
    transfer, waited⟩ := s
  cases host with
  | idle =>
    cases events with
    | nil => exact h
    | cons event rest => exact h.handle rfl rfl
  | check =>
    cases suspended with
    | true => exact hback (.inr (.inr (.inr (.inr (h.will_return rfl)))))
    | false => exact hleft .advertise rfl (by simp)
  | checkIdle =>
    cases suspended with
    | true =>
      have hwaits := hback (.inr (.inr (.inr (.inr (h.will_return rfl)))))
      simpa [hostStep] using hwaits
    | false =>
      cases connected with
      | true =>
        have hends : Comes ⟨advertising, link, events, driver, wifi, server, false, true, wifiInited,
            .idle, transfer, waited⟩ := by
          cases link with
          | true => exact .inr (.inl rfl)
          | false => exact .inr (.inr (.inl (exists_restarts h.link)))
        simpa [hostStep] using hback hends
      | false => simpa [hostStep] using hleft .downshift rfl (by simp)
  | advertise =>
    obtain rfl : ok = true := hst (.inl rfl)
    exact h.advertise (Bool.eq_false_iff.mpr fun hs => (h.still hs).1 rfl) .idle
  | downshift =>
    obtain rfl : ok = true := hst (.inr rfl)
    exact h.advertise (Bool.eq_false_iff.mpr fun hs => (h.still hs).2 rfl) _

/-! ## The transfer task -/

/-- A task that goes on with nothing changed but what it does next, and perhaps its waits. -/
theorem Kept.move {s : Sensor} (h : Kept s) (next : TransferPc) (waited : ℕ) {pc : TransferPc}
    (hpc : s.transfer = some pc) (hinside : inside next = inside pc) (hquiet : quiet next = quiet pc)
    (hwifi : wifiUp next = wifiUp pc) (hserver : serverUp next = serverUp pc)
    (hnetif : pc ≠ .netif ∧ next ≠ .netif) (hreturns : returns next = true)
    (hwaited : waited ≤ windowS)
    (hholds : ∀ remaining, next = .hold remaining → waited + remaining = windowS) :
    Kept { s with transfer := some next, waited := waited } where
  suspended := h.suspended.trans (by simp [hpc, hinside])
  silent := by simpa [hpc, hquiet] using h.silent
  still := h.still
  wifi := h.wifi.trans (by simp [hpc, hwifi])
  server := h.server.trans (by simp [hpc, hserver])
  nested := by simpa [hpc, hserver, hwifi] using h.nested
  driver := h.driver.trans (by simp [hpc, hnetif])
  uninited := fun hnext => absurd (Option.some_inj.mp hnext) hnetif.2
  waited := hwaited
  holds := fun remaining hnext => hholds remaining (Option.some_inj.mp hnext)
  link := h.link
  comes := .inr (.inr (.inr (.inr hreturns)))

/-- A call failed before the access point was up. -/
theorem Kept.giveUp {s : Sensor} (h : Kept s) {pc : TransferPc} (hpc : s.transfer = some pc)
    (hinside : inside pc = true) (hquiet : quiet pc = true) (hwifi : wifiUp pc = false)
    (hserver : serverUp pc = false) (hnetif : pc ≠ .netif) :
    Kept { s with transfer := some (.serverStop false false) } :=
  h.move (.serverStop false false) s.waited hpc hinside.symm hquiet.symm hwifi.symm hserver.symm
    ⟨hnetif, by simp⟩ rfl h.waited (by simp)

/-- The task advertises after the flag is cleared. -/
theorem Kept.advertised {s : Sensor} (h : Kept s) (hpc : s.transfer = some .advertise) :
    Kept { (advStart true s).2 with transfer := some .finish } := by
  have hsuspended : s.suspended = false := by simpa [hpc, inside] using h.suspended
  have hdriver : s.driver = s.wifiInited := by simpa [hpc] using h.driver
  have hdone : ∀ advertising, advertising = true ∨ s.link = true →
      Kept { s with advertising := advertising, transfer := some .finish } := fun _ hcomes =>
    { suspended := hsuspended
      silent := by simp [quiet, inside]
      still := h.still
      wifi := h.wifi.trans (by rw [hpc]; rfl)
      server := h.server.trans (by rw [hpc]; rfl)
      nested := by simp [serverUp]
      driver := by simpa using hdriver
      uninited := by simp
      waited := h.waited
      holds := by simp
      link := h.link
      comes := hcomes.elim .inl fun hlink => .inr (.inl hlink) }
  have hcomes := advStart_comes s
  rcases advStart_cases true s with hsame | ⟨hon, -⟩
  · rw [hsame] at hcomes ⊢
    exact hdone s.advertising hcomes
  · rw [hon]
    exact hdone true (.inl rfl)

/-- **The transfer task**, at each of its accesses. -/
theorem Kept.transfer {s : Sensor} (h : Kept s) {ok : Bool} (hst : Orderly s (.transfer ok))
    {pc : TransferPc} (hpc : s.transfer = some pc) : Kept (transferStep ok s pc) := by
  have hwait := h.waited
  obtain ⟨hidle, hworks⟩ := hst
  obtain ⟨advertising, link, events, driver, wifi, server, suspended, connected, wifiInited, host,
    transfer, waited⟩ := s
  subst hpc
  cases pc with
  | suspend =>
    have hstill := hidle rfl
    unfold transferStep
    exact { h with suspended := rfl, still := fun _ => hstill, holds := by simp, uninited := by simp }
  | advStop =>
    unfold transferStep
    exact
      { h with
        silent := fun _ => rfl, holds := by simp, uninited := by simp
        comes := .inr (.inr (.inr (.inr rfl))) }
  | terminate => exact h.move .mount waited rfl rfl rfl rfl rfl (by simp) rfl hwait (by simp)
  | mount =>
    cases ok with
    | true => exact h.move .wifiInit waited rfl rfl rfl rfl rfl (by simp) rfl hwait (by simp)
    | false => exact h.giveUp rfl rfl rfl rfl rfl (by simp)
  | wifiInit =>
    cases wifiInited with
    | true => exact h.move .setMode waited rfl rfl rfl rfl rfl (by simp) rfl hwait (by simp)
    | false =>
      cases ok with
      | true =>
        unfold transferStep
        exact { h with driver := rfl, uninited := fun _ => rfl, holds := by simp }
      | false => exact h.giveUp rfl rfl rfl rfl rfl (by simp)
  | netif =>
    have hdriver : driver = true := by simpa using h.driver
    have hinited : wifiInited = false := h.uninited rfl
    unfold transferStep
    cases ok with
    | true => exact { h with driver := by simp [hdriver], uninited := by simp, holds := by simp }
    | false => exact { h with driver := by simp [hinited], uninited := by simp, holds := by simp }
  | setMode =>
    cases ok with
    | true => exact h.move .setConfig waited rfl rfl rfl rfl rfl (by simp) rfl hwait (by simp)
    | false => exact h.giveUp rfl rfl rfl rfl rfl (by simp)
  | setConfig =>
    cases ok with
    | true => exact h.move .wifiStart waited rfl rfl rfl rfl rfl (by simp) rfl hwait (by simp)
    | false => exact h.giveUp rfl rfl rfl rfl rfl (by simp)
  | wifiStart =>
    cases ok with
    | true =>
      unfold transferStep
      exact { h with wifi := rfl, nested := fun _ => rfl, holds := by simp, uninited := by simp }
    | false => exact h.giveUp rfl rfl rfl rfl rfl (by simp)
  | serverStart =>
    cases ok with
    | true =>
      unfold transferStep
      exact
        { h with
          server := rfl, nested := fun _ => rfl, waited := Nat.zero_le _, uninited := by simp
          holds := fun _ hleft => by cases hleft; rfl }
    | false => exact h.move (.serverStop false true) waited rfl rfl rfl rfl rfl (by simp) rfl hwait (by simp)
  | hold remaining =>
    cases remaining with
    | zero => exact h.move (.serverStop true true) waited rfl rfl rfl rfl rfl (by simp) rfl hwait (by simp)
    | succ remaining =>
      have hsum : waited + (remaining + 1) = windowS := h.holds _ rfl
      cases ok with
      | true =>
        refine h.move (.hold remaining) (waited + 1) rfl rfl rfl rfl rfl (by simp) rfl (by omega) ?_
        intro left hleft
        obtain rfl : remaining = left := by simpa using hleft
        omega
      | false =>
        exact h.move (.serverStop true true) (waited + 1) rfl rfl rfl rfl rfl (by simp) rfl (by omega)
          (by simp)
  | serverStop hadServer wifiStarted =>
    obtain rfl : ok = true := hworks rfl
    have hserver : server = hadServer := h.server
    unfold transferStep
    exact
      { h with
        server := by simp [hserver, serverUp], nested := by simp [serverUp], holds := by simp
        uninited := by simp }
  | wifiStop wifiStarted =>
    obtain rfl : ok = true := hworks rfl
    have hwifi : wifi = wifiStarted := h.wifi
    unfold transferStep
    exact
      { h with
        wifi := by simp [hwifi, wifiUp], nested := by simp [serverUp], holds := by simp
        uninited := by simp }
  | resume =>
    unfold transferStep
    exact
      { h with
        suspended := rfl, silent := by simp [quiet, inside], still := by simp, holds := by simp
        uninited := by simp }
  | advertise =>
    obtain rfl : ok = true := hworks rfl
    exact h.advertised rfl
  | finish =>
    unfold transferStep
    exact
      { h with
        silent := by simp, holds := by simp, uninited := by simp
        comes := by simpa [Comes, returns] using h.comes }

/-- **What one step keeps.** -/
theorem Kept.step {s : Sensor} (h : Kept s) {st : RadioStep} (hst : Orderly s st) :
    Kept (step s st) := by
  cases st with
  | flush ok =>
    unfold OpenRecall.Model.TransferWindow.step transferFlush
    dsimp only
    split_ifs with hbusy
    · exact h
    · have hnone : s.transfer = none := by simpa using (not_or.mp hbusy).1
      have hdriver : s.driver = s.wifiInited := by simpa [hnone] using h.driver
      exact
        { suspended := h.suspended.trans (by rw [hnone]; rfl)
          silent := by simp [quiet, inside]
          still := h.still
          wifi := h.wifi.trans (by rw [hnone]; rfl)
          server := h.server.trans (by rw [hnone]; rfl)
          nested := by simp [serverUp]
          driver := by simpa using hdriver
          uninited := by simp
          waited := h.waited
          holds := by simp
          link := h.link
          comes := .inr (.inr (.inr (.inr rfl))) }
  | host ok => exact h.host hst
  | transfer ok =>
    unfold OpenRecall.Model.TransferWindow.step
    dsimp only
    split
    · exact h
    · next pc hpc => exact h.transfer hst hpc
  | radio event => exact h.radio event

/-! ## Whole runs -/

/-- The access point is up only in a window in which nothing advertises, and the server only with it;
a window waits no longer than it may; and the driver is only initialised anew when it is down. -/
structure Shared (s : Sensor) : Prop where
  exclusive : s.wifi = true → s.advertising = false ∧ s.suspended = true
  served : s.server = true → s.wifi = true
  bounded : s.waited ≤ windowS
  clean : s.transfer = some .wifiInit → s.wifiInited = false → s.driver = false

theorem Kept.shared {s : Sensor} (h : Kept s) : Shared s where
  exclusive := by
    intro hwifi
    rw [h.wifi] at hwifi
    obtain ⟨pc, hpc, hup⟩ := Option.any_eq_true _ _ |>.mp hwifi
    have hquiet : s.transfer.any quiet = true := by
      rw [hpc, Option.any_some]
      cases pc <;> first | rfl | cases hup
    exact ⟨h.silent hquiet, h.suspended_of_quiet hquiet⟩
  served := by
    intro hserver
    rw [h.wifi]
    exact h.nested (h.server.symm.trans hserver)
  bounded := h.waited
  clean := by
    intro hpc hinited
    rw [h.driver, hpc, hinited]
    rfl

/-- A callback reads the flag before a window sets it, and advertises in the window. -/
def racing : List RadioStep :=
  List.flatten
    [[.radio .connects, .host true, .radio .drops, .host true, .host true, .flush true],
      List.replicate 9 (.transfer true), [.host true]]

example : (run step {} racing).wifi = true ∧ (run step {} racing).advertising = true := by
  decide +kernel

end OpenRecall.Analysis.RadioSharing
