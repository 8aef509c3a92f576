/-
Eggtunnel/Binds.lean

The bind table as its readers see it.

The server edits the table under a lock, and only there.  A reader takes the
lock for as long as it takes to clone an `Arc`, and copies the table afterwards,
while the server goes on.  This is `Published` at the whole server:

    ServerHandle::effective_binds  =  share r, …, read r, drop r.

What a reader copies is the table of one moment, and so lists the live Services
of that moment (`reads_one_moment`).
-/
import Eggtunnel.Cow
import Eggtunnel.Ceilings

namespace Eggtunnel

/-! ### The table and its readers -/

namespace Hub

variable {s : Hub} {c : HubConfig}

/-- The table lists the Services of the running Sessions, each of them once. -/
structure ListsLive (s : Hub) (binds : BindTable) : Prop where
  nodup : (Server.index binds).Nodup
  mem : ∀ id service, (id, service) ∈ Server.index binds ↔
    ∃ k session, s.sessions.lookup k = some session ∧ session.server.phase = .running ∧
      session.server.sessionId = id ∧ (session.server.services.lookup service).isSome

theorem Tabled.listsLive (hs : Tabled c s) : s.ListsLive s.counters.binds where
  nodup := hs.shared.filed.indexed.nodup_index
  mem _ _ := hs.mem_index

end Hub

/-- The server, with its bind table behind the lock. -/
abbrev Board := Published Hub BindTable Nat

/-- What can happen: a step of the server, or a reader's. -/
abbrev BoardEvent := PublishedEvent HubEvent Nat

namespace Board

/-- The server as it is bound. -/
def init (c : HubConfig) : Board := Published.init (·.counters.binds) (Hub.init c)

/-- One step, with its table published. -/
def step : Board → BoardEvent → Option Board := Published.pstep Hub.step (·.counters.binds)

/-- No new Session gets the id of a live one. -/
def Unused : Board → BoardEvent → Prop := Published.On fun s e => s.unused e = true

instance (s : Board) : (e : BoardEvent) → Decidable (s.Unused e)
  | .inner e _ => inferInstanceAs (Decidable (s.inner.unused e = true))
  | .share _ | .drop _ => .isTrue trivial

/-- What holds throughout a run. -/
structure Listing (c : HubConfig) (s : Board) : Prop where
  tabled : s.inner.Tabled c
  shows : Published.Shows (·.counters.binds) s

theorem Listing.init (c : HubConfig) : Listing c (init c) :=
  ⟨Hub.Tabled.init c, Published.shows_init _⟩

theorem Listing.step {c : HubConfig} {s t : Board} {e : BoardEvent} (hs : Listing c s)
    (hunused : s.Unused e) (h : s.step e = some t) : Listing c t :=
  ⟨Published.inner_of_pstep (fun _ _ _ hs hu h => Hub.Tabled.step hs hu h) hs.shows hs.tabled
    hunused h, (Published.of_pstep hs.shows h).2.1⟩

/-- **A reader sees the table of one moment.**  Whatever the server and the other
readers do between the moment it has the lock and the moment it copies the table,
it copies the table as it was under the lock.  That one lists the Services of the
Sessions that were running then, each once. -/
theorem reads_one_moment (c : HubConfig) (es fs : List BoardEvent) (s t u : Board) (r : Nat)
    (hunused : AllSteps step Unused (init c) es) (hrun : exec step (init c) es = some s)
    (htake : s.step (.share r) = some t) (hlater : exec step t fs = some u)
    (hkeeps : ∀ e ∈ fs, e ≠ .drop r) :
    ∃ binds, u.cow.read r = some binds ∧ binds = s.inner.counters.binds ∧
      s.inner.ListsLive binds := by
  have hs : Listing c s := exec_inv (fun _ _ _ hs hu h => hs.step hu h) (.init c) hunused hrun
  exact ⟨_, Published.read_of_shared hs.shows htake hlater hkeeps, rfl, hs.tabled.listsLive⟩

/-- A Service is registered and listed; a reader has the table while it is withdrawn. -/
def listsOne : List BoardEvent :=
  [.inner (.connect Hub.sampleId none correlatedPeer) false, .inner (.greet 0 .done) false,
    .inner (.control 0 (.incoming (.registerService webService.registration)
      (.bound (.v6 localhostOctets 1000)) .done)) true]

/-- The client takes it back. -/
def withdraws : List BoardEvent :=
  [.inner (.control 0 (.incoming (.unregisterService ⟨webService.id⟩) .unnamed .done)) true]

/-- The server with its Service listed. -/
def listed : Board := (exec step (init Hub.smallHub) listsOne).get (by decide +kernel)

/-- A reader has its reference. -/
def reading : Board := (listed.step (.share 3)).get (by decide +kernel)

/-- The Service has gone meanwhile. -/
def withdrawn : Board := (exec step reading withdraws).get (by decide +kernel)

theorem reads_one_moment_withdrawn :
    withdrawn.inner.counters.binds = [] ∧
    (withdrawn.cow.read 3).map Server.index = some [(Hub.sampleId, webService.id)] := by
  have hrun : exec step (init Hub.smallHub) listsOne = some listed := Option.eq_some_of_isSome _
  have htake : listed.step (.share 3) = some reading := Option.eq_some_of_isSome _
  have hlater : exec step reading withdraws = some withdrawn := Option.eq_some_of_isSome _
  obtain ⟨binds, hread, rfl, -⟩ := reads_one_moment Hub.smallHub listsOne withdraws listed reading
    withdrawn 3 (by decide +kernel) hrun htake hlater (by simp [withdraws])
  rw [hread]
  exact ⟨by decide +kernel, by decide +kernel⟩

end Board

end Eggtunnel
