/-
Eggtunnel/ServerQueue.lean

The control queue of a Session: which branch of `serve_control` takes a frame
out, which event puts one in, and what is written meanwhile.  An `Open` or a
`Drain` reaches the stream through the queue and in no other way.
-/
import Eggtunnel.HubSteps

namespace Eggtunnel

/-- The frame is one that only the queue brings to the stream. -/
def Message.isQueued : Message → Bool
  | .open _ | .drain _ => true
  | _ => false

/-- The branch takes a frame out of the queue. -/
def ServerEvent.takes : ServerEvent → Bool
  | .outbound _ => true
  | _ => false

namespace Server

variable {s t : Server} {e : ServerEvent} {writes : List Write}

/-- The frame the event puts into the queue. -/
def arriving (s : Server) : ServerEvent → Option Message
  | .drainQueued deadlineMs =>
      if s.queue.length < s.policy.limits.controlQueue then some (.drain ⟨deadlineMs⟩) else none
  | _ => none

theorem queue_trySend (s : Server) (m : Message) :
    (s.trySend m).queue
      = if s.queue.length < s.policy.limits.controlQueue then s.queue ++ [m] else s.queue := by
  unfold trySend
  split_ifs <;> rfl

theorem queue_writing (s : Server) (m : Message) (o : WriteOutcome) :
    (s.writing m o).1.queue = s.queue := by
  unfold writing
  split <;> rfl

theorem queue_registerService (s : Server) (register : RegisterService) (os : BindOutcome) :
    (s.registerService register os).1.queue = s.queue := by
  rcases h : s.registerService register os with ⟨t, bind | code⟩
  · exact (registerService_accepted h).2.2.2.2.2.1
  · rw [registerService_refused h]

theorem queue_onIncoming (s : Server) (m : Message) (os : BindOutcome) (o : WriteOutcome) :
    (s.onIncoming m os o).1.queue = s.queue := by
  unfold onIncoming
  split
  · exact (queue_writing _ _ o).trans (queue_registerService s _ os)
  · exact (s.unregisterService_frame _).2.2.1
  · rfl
  · exact queue_writing s _ o
  · rfl
  · rfl

theorem isQueued_response (negotiated : Capabilities) (id : ServiceId) (verdict : Verdict) :
    (response negotiated id verdict).isQueued = false := by
  cases verdict with
  | accepted bind => rfl
  | refused code =>
      unfold response
      dsimp only
      split_ifs <;> rfl

/-- No branch but that of the queue writes an `Open` or a `Drain`. -/
theorem writes_onIncoming (s : Server) (m : Message) (os : BindOutcome) (o : WriteOutcome) :
    ∀ w ∈ (s.onIncoming m os o).2, w.1.isQueued = false := by
  have hwriting (u : Server) (m : Message) (hm : m.isQueued = false) :
      ∀ w ∈ (u.writing m o).2, w.1.isQueued = false := by
    rcases hwrite : u.writing m o with ⟨t, writes⟩
    rw [(writes_writing hwrite).1]
    intro w hw
    rw [List.mem_singleton.mp hw]
    exact hm
  unfold onIncoming
  split
  · exact hwriting _ _ (isQueued_response _ _ _)
  · exact nofun
  · exact nofun
  · exact hwriting s _ rfl
  · exact nofun
  · exact nofun

theorem queue_onOutbound (s : Server) (m : Message) (rest : List Message) (o : WriteOutcome) :
    (s.onOutbound m rest o).1.queue = rest := by
  have hqueue := queue_writing { s with queue := rest } m o
  unfold onOutbound
  dsimp only
  split
  · rename_i hw
    rw [hw] at hqueue
    dsimp only
    split
    · exact hqueue
    · exact hqueue
  · exact hqueue

/-- **What a branch does to the queue**, and what it writes. -/
theorem traffic_of_step (he : e.isBranch = true) (h : s.step e = some (t, writes)) :
    t.queue = (if e.takes then s.queue.tail else s.queue) ++ (s.arriving e).toList ∧
    if e.takes then ∃ m o, s.queue.head? = some m ∧ writes = [(m, o)]
    else ∀ w ∈ writes, w.1.isQueued = false := by
  -- all branches but two leave the queue as it was
  have hstill (hqueue : t.queue = s.queue) (hwrites : ∀ w ∈ writes, w.1.isQueued = false)
      (htakes : e.takes = false) (harriving : s.arriving e = none) :
      t.queue = (if e.takes then s.queue.tail else s.queue) ++ (s.arriving e).toList ∧
      if e.takes then ∃ m o, s.queue.head? = some m ∧ writes = [(m, o)]
      else ∀ w ∈ writes, w.1.isQueued = false := by
    rw [htakes, harriving]
    exact ⟨hqueue.trans (List.append_nil _).symm, hwrites⟩
  cases did_of_step h with
  | @incoming m os o _ _ _ heq =>
      have hqueue := queue_onIncoming s m os o
      have hwrites := writes_onIncoming s m os o
      rw [heq] at hqueue hwrites
      exact hstill hqueue hwrites rfl rfl
  | readFailed | cancelled | idle => exact hstill rfl (List.forall_mem_nil _) rfl rfl
  | @outbound m rest o _ _ _ hqueue heq =>
      have hrest := s.queue_onOutbound m rest o
      rw [heq] at hrest
      rw [hqueue]
      exact ⟨hrest.trans (List.append_nil _).symm, m, o, rfl, (writes_onOutbound heq).1⟩
  | @drainQueued deadlineMs =>
      refine ⟨?_, List.forall_mem_nil _⟩
      rw [queue_trySend]
      change _ = s.queue ++ (s.arriving (.drainQueued deadlineMs)).toList
      unfold arriving
      split_ifs
      · rfl
      · exact (List.append_nil _).symm
  | opened | childEnded | elsewhere => cases he

end Server

end Eggtunnel
