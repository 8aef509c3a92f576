/-
Eggtunnel/HighWater.lean

The high-water marks of a client, and of both sides.

A client is a run of `drive` with its counters (`Monitor`).  Its gauges rise
when a Session becomes ready, when an Open task starts and when a dynamic
registration is committed; the first of these raises no mark.
-/
import Eggtunnel.Station
import Eggtunnel.Snapshot

namespace Eggtunnel

/-! ### The counters of a client -/

/-- What a step does to the gauge of the Open tasks and its mark.  There are
`n` tasks before it, and `m` after it. -/
inductive Dials (c : Counters) (n : Nat) (d : Counters) (m : Nat) : Prop
  | same (hgauge : d.openTasks = c.openTasks) (hmark : d.highWaterOpenTasks = c.highWaterOpenTasks)
      (hopens : m ≤ n)
  | dialed (hgauge : d.openTasks = fetchAdd c.openTasks 1)
      (hmark : d.highWaterOpenTasks = max c.highWaterOpenTasks (fetchAdd c.openTasks 1))
      (hopens : m = n + 1)
  | finished (hgauge : d.openTasks = fetchSub c.openTasks 1)
      (hmark : d.highWaterOpenTasks = c.highWaterOpenTasks) (hopens : m + 1 = n)
  | dropped (hgauge : d.openTasks = fetchSub c.openTasks n)
      (hmark : d.highWaterOpenTasks = c.highWaterOpenTasks) (hopens : m = 0)

theorem Dials.counts {c d : Counters} {n m : Nat} (h : Dials c n d m)
    (hc : Counts n c.openTasks c.highWaterOpenTasks) :
    Counts m d.openTasks d.highWaterOpenTasks := by
  cases h with
  | same hgauge hmark hopens =>
      rw [hgauge, hmark]
      exact hc.mono hopens
  | dialed hgauge hmark hopens =>
      rw [hgauge, hmark, hopens]
      exact hc.add
  | finished hgauge hmark hopens =>
      rw [hgauge, hmark]
      rw [← hopens] at hc
      exact hc.sub
  | dropped hgauge hmark hopens =>
      rw [hgauge, hmark, hopens]
      exact hc.drop

theorem Dials.rises {c d : Counters} {n m : Nat} (h : Dials c n d m)
    (hc : Counts n c.openTasks c.highWaterOpenTasks) :
    d.highWaterOpenTasks = max c.highWaterOpenTasks d.openTasks := by
  have hkept (hmark : d.highWaterOpenTasks = c.highWaterOpenTasks) :
      d.highWaterOpenTasks = max c.highWaterOpenTasks d.openTasks := by
    have hcovers := (h.counts hc).covers
    rw [hmark] at hcovers ⊢
    exact (max_eq_left hcovers).symm
  cases h with
  | dialed hgauge hmark => rw [hgauge, hmark]
  | same _ hmark | finished _ hmark | dropped _ hmark => exact hkept hmark

/-- What a step does to the gauges of a client and to their marks; `ready` are
the Services of the Session that becomes ready in it. -/
inductive Flow (c : Counters) (n : Nat) : Option Nat → Counters → Nat → Prop
  | ebbs {d m} (hsessions : d.sessions ≤ c.sessions) (hservices : d.services ≤ c.services)
      (hmark : d.highWaterServices = c.highWaterServices) (hdials : Dials c n d m) :
      Flow c n none d m
  | committed {d m} (hsessions : d.sessions = c.sessions)
      (hmark : d.highWaterServices = max c.highWaterServices d.services)
      (hdials : Dials c n d m) : Flow c n none d m
  | readied {services d m} (hsessions : d.sessions = 1) (hservices : d.services = services)
      (hmark : d.highWaterServices = c.highWaterServices) (hdials : Dials c n d m) :
      Flow c n (some services) d m

namespace Client

variable {s t : Client} {fx : Effects} {e : ClientEvent}

/-- The last acknowledgement of the initial exchange. -/
def readies (s : Client) : ClientEvent → Bool
  | .incoming (.registerAck ack) _ =>
      match s.phase with
      | .registering [service] true => ack.serviceId = service.id
      | _ => false
  | _ => false

theorem flow_of_readies (hready : s.readies e = true) (h : s.step e = some (t, fx)) :
    Flow s.counters s.opens.length (some s.services.desired.length) t.counters t.opens.length := by
  unfold readies at hready
  split at hready
  · split at hready
    · rename_i ack o _ service hphase
      have hid : ack.serviceId = service.id := of_decide_eq_true hready
      simp only [step, hphase, initialResponse, if_pos hid] at h
      obtain ⟨rfl, -⟩ := Prod.mk.inj (Option.some.inj h)
      exact .readied rfl rfl rfl (.same rfl rfl le_rfl)
    · cases hready
  · cases hready

/-- The gauges of a Session whose exchange goes on, or is over. -/
theorem flow_of_not_readies (hservices : s.phase = .ready →
      s.counters.services = s.services.active.size) (hready : s.readies e = false)
    (h : s.step e = some (t, fx)) :
    Flow s.counters s.opens.length none t.counters t.opens.length := by
  have hunregister (id : ServiceId) (hphase : s.phase = .ready) :
      (s.services.unregister id).1.active.size ≤ s.counters.services := by
    rw [(ServiceState.lists_unregister s.services id).2, hservices hphase]
    exact Table.size_erase_le _ _
  cases tally_of_step h with
  | still hopens hcounters =>
      rw [hopens, hcounters]
      exact .ebbs le_rfl le_rfl rfl (.same rfl rfl le_rfl)
  | @acked service todo ack o _ hphase hid ht =>
      cases todo with
      | nil => simp [readies, hphase, hid] at hready
      | cons next rest =>
          obtain rfl := ht
          exact .ebbs le_rfl le_rfl rfl (.same rfl rfl le_rfl)
  | dialed hphase hactive ht =>
      obtain rfl := ht
      exact .ebbs le_rfl le_rfl rfl (.dialed rfl rfl List.length_append)
  | finished task hmem hopens hcounters =>
      rw [hopens, hcounters]
      refine .ebbs le_rfl le_rfl rfl (.finished rfl rfl ?_)
      rw [List.length_erase_of_mem hmem]
      exact Nat.sub_add_cancel (List.length_pos_of_mem hmem)
  | committed hphase htake ht =>
      obtain rfl := ht
      exact .committed rfl rfl (.same rfl rfl le_rfl)
  | unregistered hphase hpresent ht =>
      obtain rfl := ht
      exact .ebbs le_rfl (hunregister _ hphase) rfl (.same rfl rfl le_rfl)
  | withdrawn hphase habsent ht =>
      obtain rfl := ht
      exact .ebbs le_rfl le_rfl rfl (.same rfl rfl le_rfl)
  | unregisteredLast hphase hpresent hopens hcounters =>
      rw [hopens, hcounters]
      exact .ebbs (Nat.zero_le _) (hunregister _ hphase) rfl (.dropped rfl rfl rfl)
  | dropped hphase hopens hcounters =>
      rw [hopens, hcounters]
      exact .ebbs (Nat.zero_le _) le_rfl rfl (.dropped rfl rfl rfl)
  | tornDown hphase hopens hcounters =>
      rw [hopens, hcounters]
      exact .ebbs (Nat.zero_le _) le_rfl rfl (.dropped rfl rfl rfl)

/-- **What a step of a Session does to the gauges and their marks.** -/
theorem flow_of_step (hservices : s.phase = .ready → s.counters.services = s.services.active.size)
    (h : s.step e = some (t, fx)) :
    Flow s.counters s.opens.length (if s.readies e then some s.services.desired.length else none)
      t.counters t.opens.length := by
  cases hready : s.readies e with
  | false => exact flow_of_not_readies hservices hready h
  | true => exact flow_of_readies hready h

end Client

namespace Monitor

variable {s t : Monitor} {e : MonitorEvent}

/-! ### Gauges and marks -/

/-- The gauges of a client.  It has no pending or relayed connections and takes
no handshakes. -/
def gauge (g : Gauge) (s : Monitor) : Nat :=
  match g with
  | .sessions => s.counters.sessions
  | .services => s.counters.services
  | .openTasks => s.counters.openTasks
  | .pending | .activeConnections | .handshakes => 0

/-- The marks of a client.  `high_water_sessions` is written by a `SessionGuard`
only, which is the server's. -/
def mark (g : Gauge) (s : Monitor) : Nat :=
  match g with
  | .services => s.counters.highWaterServices
  | .openTasks => s.counters.highWaterOpenTasks
  | .sessions | .pending | .activeConnections | .handshakes => 0

/-- The Open tasks of the Session, if there is one. -/
def opens (s : Monitor) : Nat :=
  match s.drive.stage with
  | .session client => client.opens.length
  | _ => 0

/-- The step makes a Session ready: it is the last acknowledgement, or there is
nothing to register. -/
def readies (s : Monitor) : MonitorEvent → Bool
  | .drive (.authenticated _ _) =>
      match s.drive.stage with
      | .apart services counters _ =>
          services.desired = [] ∧ counters.sessionGeneration + 1 < 2 ^ 64
      | _ => false
  | .drive (.client e) =>
      match s.drive.stage with
      | .session client => client.readies e
      | _ => false
  | _ => false

/-- The step raises no gauge above its mark: no Session becomes ready, or none
with more Services than have been counted before. -/
def covered (g : Gauge) (s : Monitor) (e : MonitorEvent) : Prop :=
  match g with
  | .sessions => s.readies e = false
  | .services => s.readies e = true →
      s.drive.services.desired.length ≤ s.counters.highWaterServices
  | _ => True

instance (g : Gauge) (s : Monitor) (e : MonitorEvent) : Decidable (covered g s e) :=
  match g with
  | .sessions => inferInstanceAs (Decidable (s.readies e = false))
  | .services => inferInstanceAs (Decidable (s.readies e = true →
      s.drive.services.desired.length ≤ s.counters.highWaterServices))
  | .openTasks | .pending | .activeConnections | .handshakes => inferInstanceAs (Decidable True)

theorem counters_of_apart {services : ServiceState} {counters : Counters} {closed : List CallerId}
    (h : s.drive.stage = .apart services counters closed) :
    s.counters = counters ∧ s.opens = 0 := by
  unfold Monitor.counters Monitor.opens
  rw [h]
  exact ⟨rfl, rfl⟩

theorem counters_of_session {client : Client} (h : s.drive.stage = .session client) :
    s.counters = client.counters ∧ s.opens = client.opens.length := by
  unfold Monitor.counters Monitor.opens
  rw [h]
  exact ⟨rfl, rfl⟩

theorem counters_of_stopped {services : ServiceState} {closed : List CallerId}
    (h : s.drive.stage = .stopped services closed) : s.counters = s.final ∧ s.opens = 0 := by
  unfold Monitor.counters Monitor.opens
  rw [h]
  exact ⟨rfl, rfl⟩

/-- The supervisor clears `services` and leaves the rest of the gauges. -/
theorem flow_of_finish (result : Except TunnelError Unit) (counters : Counters) (n : Nat) :
    Flow counters n none (ReconnectSupervisor.finish result counters).1 0 := by
  unfold ReconnectSupervisor.finish
  split <;> exact .ebbs le_rfl (Nat.zero_le _) rfl (.same rfl rfl (Nat.zero_le n))

/-- Back in the loop or out of it. -/
theorem counters_of_finish {result : Except TunnelError Unit} {services : ServiceState}
    {counters : Counters} {closed : List CallerId}
    (hdrive : t.drive = s.drive.finish result services counters closed)
    (hfinal : t.final = (ReconnectSupervisor.finish result counters).1) :
    t.counters = (ReconnectSupervisor.finish result counters).1 ∧ t.opens = 0 := by
  unfold Drive.finish at hdrive
  split at hdrive
  · rename_i counters' heq
    rw [heq]
    exact counters_of_apart (s := t) (by rw [hdrive])
  · rw [← hfinal]
    exact counters_of_stopped (s := t) (by rw [hdrive])

/-- A Session that starts is ready if there is nothing to register. -/
theorem flow_of_start (policy : RuntimePolicy) (sessionId : SessionId) (correlated : Bool)
    (services : ServiceState) (counters : Counters) (closed : List CallerId) :
    Flow counters 0 (if services.desired = [] ∧ counters.sessionGeneration + 1 < 2 ^ 64 then
        some services.desired.length else none)
      (Client.start policy sessionId correlated services counters closed).1.counters
      (Client.start policy sessionId correlated services counters closed).1.opens.length := by
  unfold Client.start Counters.beginSession
  by_cases hbegun : counters.sessionGeneration + 1 < 2 ^ 64
  · simp only [if_pos hbegun]
    show Flow _ _ _ (Client.continueRegistering _ services.desired).counters
      (Client.continueRegistering _ services.desired).opens.length
    rcases hdesired : services.desired with - | ⟨first, rest⟩
    · rw [if_pos ⟨rfl, hbegun⟩]
      refine .readied rfl ?_ rfl (.same rfl rfl le_rfl)
      exact congrArg List.length hdesired
    · rw [if_neg fun h => (nomatch h.1)]
      exact .ebbs le_rfl le_rfl rfl (.same rfl rfl le_rfl)
  · rw [if_neg fun h => hbegun h.2]
    simp only [if_neg hbegun]
    exact .ebbs le_rfl le_rfl rfl (.same rfl rfl le_rfl)

/-- The Services of the Session that becomes ready, if one does. -/
def readied (s : Monitor) (e : MonitorEvent) : Option Nat :=
  if s.readies e then some s.drive.services.desired.length else none

theorem flow_of_session {client : Client} {ev : ClientEvent} {r : Client × Effects}
    (hs : Truthful s) (hstage : s.drive.stage = .session client) (hstep : client.step ev = some r)
    (hsession : t.drive.stage = .session r.1) (hready : s.readies e = client.readies ev) :
    Flow s.counters s.opens (s.readied e) t.counters t.opens := by
  have hr := hs.orderly.represented
  unfold readied
  rw [(counters_of_session hstage).1, (counters_of_session hstage).2,
    (counters_of_session hsession).1, (counters_of_session hsession).2, hready,
    Drive.services_of_session hstage]
  rw [Drive.services_of_session hstage] at hr
  refine Client.flow_of_step (fun hphase => ?_) hstep
  rw [ServiceState.size_active hr (hs.orderly.current client hstage hphase)]
  exact ((hs.session client hstage).ready hphase).2.2.1

/-- **What a step of a client does to the gauges and their marks.** -/
theorem flow_of_step (hs : Truthful s) (h : s.step e = some t) :
    Flow s.counters s.opens (s.readied e) t.counters t.opens := by
  have hstill {services services' : ServiceState} {counters : Counters}
      {closed closed' : List CallerId} (hstage : s.drive.stage = .apart services counters closed)
      (hstage' : t.drive.stage = .apart services' counters closed') :
      Flow s.counters s.opens none t.counters t.opens := by
    rw [(counters_of_apart hstage).1, (counters_of_apart hstage).2,
      (counters_of_apart hstage').1, (counters_of_apart hstage').2]
    exact .ebbs le_rfl le_rfl rfl (.same rfl rfl le_rfl)
  have hfinish {result : Except TunnelError Unit} {services : ServiceState}
      {counters : Counters} {closed : List CallerId} (hcounters : s.counters = counters)
      (hdrive : t.drive = s.drive.finish result services counters closed)
      (hfinal : t.final = (ReconnectSupervisor.finish result counters).1) :
      Flow s.counters s.opens none t.counters t.opens := by
    rw [(counters_of_finish hdrive hfinal).1, (counters_of_finish hdrive hfinal).2, hcounters]
    exact flow_of_finish result counters s.opens
  cases e with
  | drive e =>
      obtain ⟨drive, hdrive, rfl⟩ := Option.map_eq_some_iff.mp h
      cases Drive.moves_of_step hdrive with
      | declined hstage => exact hstill hstage hstage
      | forgotten hstage | gone hstage => exact hstill hstage rfl
      | failed hstage =>
          have hcounters := (counters_of_apart hstage).1
          refine hfinish hcounters rfl ?_
          simp only [closing, hcounters]
      | @started services counters closed sessionId correlated hstage =>
          have hready : s.readies (.drive (.authenticated sessionId correlated))
              = decide (services.desired = [] ∧ counters.sessionGeneration + 1 < 2 ^ 64) := by
            simp only [readies, hstage]
          have hservices : s.drive.services = services := by
            unfold Drive.services
            rw [hstage]
          unfold readied
          rw [(counters_of_apart hstage).1, (counters_of_apart hstage).2, hready, hservices]
          simp only [decide_eq_true_eq]
          exact flow_of_start s.drive.policy sessionId correlated services counters closed
      | registered hstage hstep => exact flow_of_session hs hstage hstep rfl rfl
      | unregistered hstage hstep => exact flow_of_session hs hstage hstep rfl rfl
      | went hstage hcmd hstep =>
          refine flow_of_session hs hstage hstep rfl ?_
          simp only [readies, hstage]
      | ended hstage hphase =>
          have hcounters := (counters_of_session hstage).1
          refine hfinish hcounters rfl ?_
          simp only [closing, Drive.phase?, hstage, hphase, hcounters]
      | stopped hrunning =>
          show Flow s.counters s.opens none (s.closing .stop) 0
          rcases hstage : s.drive.stage with ⟨services, counters, closed⟩ | client | ⟨_, _⟩
          · simp only [closing, hstage]
            exact flow_of_finish _ _ _
          · simp only [closing, hstage]
            rw [(counters_of_session hstage).1, (counters_of_session hstage).2]
            exact .ebbs (Nat.zero_le _) (Nat.zero_le _) rfl (.dropped rfl rfl rfl)
          · exact absurd hstage (hrunning _ _)
  | stopWaiting =>
      simp only [Monitor.step] at h
      split at h
      · rename_i services counters closed hstage
        obtain ⟨drive, hdrive, rfl⟩ := Option.map_eq_some_iff.mp h
        cases Drive.moves_of_step hdrive with
        | stopped hrunning =>
            rw [(counters_of_apart hstage).1, (counters_of_apart hstage).2]
            exact .ebbs le_rfl le_rfl rfl (.same rfl rfl le_rfl)
      · cases h

/-! ### Whole runs -/

/-- What holds throughout every run of a client. -/
structure Sound (s : Monitor) : Prop where
  truthful : Truthful s
  counts : Counts s.opens s.counters.openTasks s.counters.highWaterOpenTasks

theorem Sound.init {c : DriveConfig} (hvalid : validateServices c.policy c.services = .ok ()) :
    Sound (init c) := ⟨.init hvalid, .zero 0⟩

/-- Whatever a step does to the gauges, the Open tasks stay counted. -/
theorem dials_of_flow {c d : Counters} {n m : Nat} {ready : Option Nat} (h : Flow c n ready d m) :
    Dials c n d m := by
  cases h with
  | ebbs _ _ _ hdials | committed _ _ hdials | readied _ _ _ hdials => exact hdials

theorem Sound.step (hs : Sound s) (h : s.step e = some t) : Sound t :=
  ⟨hs.truthful.step h, (dials_of_flow (flow_of_step hs.truthful h)).counts hs.counts⟩

/-- A step that is covered leaves each mark at the larger one of itself and the
new gauge. -/
theorem rises (hs : Sound s) (h : s.step e = some t) (g : Gauge) (hcovered : covered g s e)
    (hcovers : s.gauge g ≤ s.mark g) : t.mark g = max (s.mark g) (t.gauge g) := by
  have hflow := flow_of_step hs.truthful h
  cases g with
  | sessions =>
      have hnone : s.readied e = none := by
        unfold readied
        rw [show s.readies e = false from hcovered]
        rfl
      rw [hnone] at hflow
      cases hflow with
      | ebbs hsessions => exact rises_of_le rfl hsessions hcovers
      | committed hsessions => exact rises_of_le rfl hsessions.le hcovers
  | services =>
      generalize hready : s.readied e = ready at hflow
      cases hflow with
      | ebbs _ hservices hmark => exact rises_of_le hmark hservices hcovers
      | committed _ hmark => exact hmark
      | readied _ hservices hmark =>
          unfold readied at hready
          split_ifs at hready with hnow
          obtain rfl := Option.some.inj hready
          show t.counters.highWaterServices = max s.counters.highWaterServices t.counters.services
          rw [hservices, hmark]
          exact (max_eq_left (hcovered hnow)).symm
  | openTasks => exact (dials_of_flow hflow).rises hs.counts
  | pending | activeConnections | handshakes => rfl

/-- A step after which the gauge is at most its mark was covered. -/
theorem covered_of_covers (hs : Sound s) (h : s.step e = some t) (g : Gauge)
    (hcovers : t.gauge g ≤ t.mark g) : covered g s e := by
  have hflow := flow_of_step hs.truthful h
  unfold readied at hflow
  cases g with
  | sessions =>
      show s.readies e = false
      cases hready : s.readies e with
      | false => rfl
      | true =>
          rw [hready] at hflow
          cases hflow with
          | readied hsessions =>
              have hle : t.counters.sessions ≤ 0 := hcovers
              rw [hsessions] at hle
              cases hle
  | services =>
      intro hready
      rw [hready] at hflow
      cases hflow with
      | readied _ hservices hmark =>
          have hle : t.counters.services ≤ t.counters.highWaterServices := hcovers
          rwa [hservices, hmark] at hle
  | openTasks | pending | activeConnections | handshakes => trivial

/-- **The marks of a client** are right throughout a run exactly if every step
of it is covered. -/
theorem highWater_iff {c : DriveConfig} (hvalid : validateServices c.policy c.services = .ok ())
    (g : Gauge) {es : List MonitorEvent} (hrun : exec step (init c) es = some t) :
    (∀ fs u, fs <+: es → exec step (init c) fs = some u →
      HighWater step (gauge g) (mark g) (init c) fs u) ↔
    AllSteps step (covered g) (init c) es := by
  constructor
  · intro h
    refine allSteps_of_prefixes hrun fun fs e u v hfs hu hv => ?_
    have hs : Sound u := exec_inv_of_step (fun _ _ _ hs hstep => hs.step hstep)
      (Sound.init hvalid) hu
    have hhigh := h _ v hfs (exec_concat_eq_some.mpr ⟨u, hu, hv⟩)
    exact covered_of_covers hs hv g hhigh.covers
  · rintro hcovered fs u ⟨rest, rfl⟩ hu
    exact highWater_of_rises (fun _ _ _ hs _ hstep => Sound.step hs hstep)
      (fun _ _ _ hs hcovered hcovers hstep => rises hs hstep g hcovered hcovers)
      (Sound.init hvalid) (by cases g <;> rfl) hcovered.of_append hu

end Monitor

/-! ### Both sides -/

/-- **High-water marks.**  In every run of a server in which new random ids are
not in use, each mark is after every step at least its gauge, and the greatest
value the gauge has had; with a `SessionId` that is in use the count of Services
may wrap, and with enough repeated `ConnectionId`s that of the pending connections.
So it is in a run of a client, and in each of its
beginnings, exactly if every Session that becomes ready finds the mark as high
already: for `services` that is the number of its Services, and for `sessions`,
whose mark no client raises, no Session may become ready at all. -/
theorem high_water_marks (server : HubConfig) (client : DriveConfig)
    (hvalid : validateServices client.policy client.services = .ok ())
    {es : List StationEvent} {fs : List MonitorEvent} {s : Station} {m : Monitor}
    (hfresh : AllSteps Station.step (fun s e => s.fresh e = true) (Station.init server) es)
    (hs : exec Station.step (Station.init server) es = some s)
    (hm : exec Monitor.step (Monitor.init client) fs = some m) (g : Gauge) :
    HighWater Station.step (Station.gauge g) (Station.mark g) (Station.init server) es s ∧
    ((∀ ps u, ps <+: fs → exec Monitor.step (Monitor.init client) ps = some u →
        HighWater Monitor.step (Monitor.gauge g) (Monitor.mark g) (Monitor.init client) ps u) ↔
      AllSteps Monitor.step (Monitor.covered g) (Monitor.init client) fs) :=
  ⟨Station.highWater server g hfresh hs, Monitor.highWater_iff hvalid g hm⟩

/-- A client registers its one Service, and its Session is ready. -/
def becomesReady : List MonitorEvent := (Drive.twoSessions.take 3).map .drive

/-- The client after that run. -/
def afterReady : Monitor :=
  (exec Monitor.step (Monitor.init Drive.smallDrive) becomesReady).get (by decide +kernel)

/-- There is a ready Session with one Service, and the marks say that there was
none. -/
theorem ready_session_unmarked :
    (∀ g ∈ [Gauge.sessions, Gauge.services], afterReady.gauge g = 1 ∧ afterReady.mark g = 0) ∧
    ¬ ∀ (c : DriveConfig) (es : List MonitorEvent) (s : Monitor),
      validateServices c.policy c.services = .ok () →
      exec Monitor.step (Monitor.init c) es = some s →
      ∀ g, HighWater Monitor.step (Monitor.gauge g) (Monitor.mark g) (Monitor.init c) es s := by
  refine ⟨by decide +kernel, fun h => ?_⟩
  have hhigh := h Drive.smallDrive becomesReady afterReady (by decide)
    (Option.eq_some_of_isSome _) .sessions
  exact absurd hhigh.covers (by decide +kernel)

/-- A connection is accepted, authenticates and registers a Service. -/
def registersOne : List StationEvent :=
  [.accepted, .guardDropped, .permitDropped,
    .other (.other (.connect Hub.sampleId none legacyPeer)),
    .other (.other (.greet 0 .done)),
    .other (.install 0 webService.registration (boundAt 1000)), .other (.acknowledge 0 .done)]

/-- The server after that run. -/
def afterOne : Station :=
  (exec Station.step (Station.init Hub.smallHub) registersOne).get (by decide +kernel)

/-- A Session without Services becomes ready, and one is registered in it. -/
def commitsOne : List MonitorEvent :=
  [.drive (.authenticated Hub.sampleId true), .drive (.register webService .done 0),
    .drive (.client (.incoming (.registerAck ⟨webService.id, ⟨Vector.replicate 16 0, 1000⟩⟩) .done))]

/-- The client after that run. -/
def afterCommit : Monitor :=
  (exec Monitor.step (Monitor.init ⟨.default, []⟩) commitsOne).get (by decide +kernel)

theorem high_water_marks_services :
    afterOne.mark .services = 1 ∧ afterCommit.mark .services = 1 ∧
      HighWater Station.step (Station.gauge .services) (Station.mark .services)
        (Station.init Hub.smallHub) registersOne afterOne ∧
      HighWater Monitor.step (Monitor.gauge .services) (Monitor.mark .services)
        (Monitor.init ⟨.default, []⟩) commitsOne afterCommit :=
  have hrun : exec Monitor.step (Monitor.init ⟨.default, []⟩) commitsOne = some afterCommit :=
    Option.eq_some_of_isSome _
  have hserver : exec Station.step (Station.init Hub.smallHub) registersOne = some afterOne :=
    Option.eq_some_of_isSome _
  have hboth := high_water_marks Hub.smallHub ⟨.default, []⟩ (by decide) (by decide +kernel)
    hserver hrun .services
  ⟨by decide +kernel, by decide +kernel, hboth.1,
    hboth.2.mpr (by decide +kernel) commitsOne afterCommit List.prefix_rfl hrun⟩

/-- A second Session under the same id takes the bind of the first with it when it
ends.  The first then withdraws its Service, and the count wraps. -/
def sharesId : List StationEvent :=
  registersOne ++ [.other (.other (.connect Hub.sampleId none legacyPeer)),
    .other (.other (.greet 2 .done)), .other (.other (.control 2 .cancelled)),
    .other (.other (.control 0 (.incoming (.unregisterService ⟨webService.id⟩) .unnamed .done)))]

example : ∃ s, exec Station.step (Station.init Hub.smallHub) sharesId = some s ∧
    s.mark .services < s.gauge .services := by
  decide +kernel

end Eggtunnel
