/-
Eggtunnel/Conservation.lean

What an operation on a `ServiceState` does to the callers that wait there.

Every operation conserves callers (`conserved_apply`): those who waited before
it, and the one it brings, are afterwards answered by it, still waiting, or
gone.  And every operation is quiet, or it is one of the three that are
remembered (`outcome_apply`): an accepted `begin`, a committed acknowledgement,
or an `unregister`.
-/
import Eggtunnel.Transactions
import Eggtunnel.Operations

namespace Eggtunnel

/-! ### Callers of a `ServiceState` -/

theorem map_fst_answer (r : Except TunnelError EffectiveBind) (reply : Option CallerId) :
    (answer r reply).map Prod.fst = reply.toList := by
  cases reply <;> rfl

theorem map_fst_answers (r : Except TunnelError EffectiveBind) (l : List PendingRegistration) :
    (l.flatMap fun txn => answer r txn.reply).map Prod.fst = l.flatMap (·.reply.toList) := by
  induction l with
  | nil => rfl
  | cons txn l ih =>
      rw [List.flatMap_cons, List.map_append, map_fst_answer, ih, List.flatMap_cons]

namespace ServiceState

variable {s t u : ServiceState} {id : ServiceId}

/-- The callers that wait for an answer. -/
def callers (s : ServiceState) : List CallerId := s.transactions.flatMap (·.reply.toList)

theorem mem_callers {caller : CallerId} :
    caller ∈ s.callers ↔ ∃ txn ∈ s.transactions, txn.reply = some caller := by
  simp [callers, List.mem_flatMap, Option.mem_toList]

theorem callers_of_pending {txn : PendingRegistration} (h : s.pending = some txn) :
    s.callers = txn.reply.toList ++ { s with pending := none }.callers := by
  simp [callers, transactions, h]

theorem callers_of_inFlight {txn : PendingRegistration} (h : s.inFlight.lookup id = some txn) :
    s.callers.Perm (txn.reply.toList ++ { s with inFlight := s.inFlight.erase id }.callers) := by
  have hvalues := (Table.values_perm_erase h).flatMap_right (·.reply.toList)
  unfold callers transactions
  rw [List.flatMap_append, List.flatMap_append]
  refine (hvalues.append_left _).trans ?_
  rw [List.flatMap_cons, ← List.append_assoc, ← List.append_assoc]
  exact (List.perm_append_comm).append_right _

/-- What is taken takes its caller along. -/
theorem callers_of_take {txn : PendingRegistration} {home : TransactionHome}
    (h : s.takeTransaction id = (u, .found txn home)) :
    s.callers.Perm (txn.reply.toList ++ u.callers) := by
  obtain ⟨hp, -, rfl⟩ | ⟨-, hlook, rfl⟩ := takeTransaction_eq_found h
  · rw [callers_of_pending hp]
  · exact callers_of_inFlight hlook

/-- Every transaction of `t` is one of `s`, up to its deadline and to a reply
that was taken. -/
def Descends (s t : ServiceState) : Prop :=
  ∀ txn ∈ t.transactions, ∃ txn' ∈ s.transactions, txn'.service = txn.service ∧
    ∀ caller, txn.reply = some caller → txn'.reply = some caller

/-- A transaction in the table stands under its own id. -/
def Keyed (s : ServiceState) : Prop :=
  ∀ id txn, s.inFlight.lookup id = some txn → txn.service.id = id

theorem Narrows.descends (h : Narrows s t) : Descends s t := by
  intro txn hmem
  obtain ⟨txn', hmem', hserv, -, hreply⟩ := h.origin txn hmem
  exact ⟨txn', hmem', hserv, hreply⟩

theorem Narrows.keyed_of (h : Narrows s t) (hs : s.Keyed) : t.Keyed := by
  intro id txn ht
  obtain ⟨txn', hs', hserv⟩ := h.keyed id txn ht
  rw [← hserv]
  exact hs id txn' hs'

end ServiceState

/-! ### Conservation -/

namespace Operation

open ServiceState

/-- The caller an operation brings. -/
def newcomer : Operation → List CallerId
  | .begin _ _ reply _ _ => [reply]
  | .decline reply => [reply]
  | _ => []

/-- The operation has found that the caller is gone. -/
def Closes (caller : CallerId) : Operation → Prop
  | .begin _ _ reply closed _ => caller = reply ∧ closed = true
  | .acknowledge _ _ closed _ => closed caller = true
  | _ => False

/-- The callers before an operation and its newcomer are its answers, those
that are gone, and those who wait. -/
def Conserves (op : Operation) (s : ServiceState) : Prop :=
  ∃ dropped, (op.newcomer ++ s.callers).Perm
      ((op.apply s).2.map Prod.fst ++ dropped ++ (op.apply s).1.callers) ∧
    ∀ caller ∈ dropped, op.Closes caller

variable {s : ServiceState}

/-- Nobody is dropped. -/
theorem conserves_of_perm {op : Operation}
    (h : (op.newcomer ++ s.callers).Perm
      ((op.apply s).2.map Prod.fst ++ (op.apply s).1.callers)) : op.Conserves s :=
  ⟨[], by rwa [List.append_nil], fun _ hmem => by cases hmem⟩

/-- At the end of a Session everyone is answered. -/
theorem callers_finishPending (error : TunnelError) :
    s.callers.Perm ((s.finishPending error).2.map Prod.fst ++ []) := by
  show s.callers.Perm ((s.transactions.flatMap fun txn =>
    answer (.error (duplicateError error)) txn.reply).map Prod.fst ++ [])
  rw [map_fst_answers, List.append_nil]
  rfl

/-- Callers of a state with the same transactions, up to their deadlines. -/
theorem callers_armDeadline (s : ServiceState) (id : ServiceId) (deadline : Instant) :
    (s.armDeadline id deadline).callers.Perm s.callers := by
  unfold ServiceState.armDeadline
  split
  · rcases hp : s.pending with - | txn
    · simp [callers, transactions, hp]
    · simp [callers, transactions, hp]
  · split
    · rename_i txn hlook
      refine List.Perm.trans ?_ (callers_of_inFlight hlook).symm
      simp only [callers, transactions, Table.values_insert, List.flatMap_append,
        List.flatMap_cons]
      rw [← List.append_assoc, ← List.append_assoc]
      exact List.perm_append_comm.append_right _
    · exact List.Perm.refl _

theorem conserves_loseReply : loseReply.Conserves s := by
  refine conserves_of_perm ?_
  show s.callers.Perm ((answer _ (s.pending.bind (·.reply))).map Prod.fst ++
    ServiceState.callers { s with pending := s.pending.map fun txn => { txn with reply := none } })
  rw [map_fst_answer]
  rcases hp : s.pending with - | txn <;> simp [callers, transactions, hp]

theorem conserves_abandon (id : ServiceId) : (abandon id).Conserves s := by
  refine conserves_of_perm ?_
  show s.callers.Perm ((s.abandon id).2.map Prod.fst ++ (s.abandon id).1.callers)
  unfold ServiceState.abandon
  split
  · rename_i txn hlook
    rw [map_fst_answer]
    exact callers_of_inFlight hlook
  · exact List.Perm.refl _

theorem conserves_unregister (id : ServiceId) : (unregister id).Conserves s := by
  refine conserves_of_perm ?_
  have hpending : s.callers.Perm
      ((s.cancelPending id).2.map Prod.fst ++ (s.cancelPending id).1.callers) := by
    unfold cancelPending
    split
    · rename_i txn hp
      split_ifs
      · rw [map_fst_answer, callers_of_pending hp]
        rfl
      · exact List.Perm.refl _
    · exact List.Perm.refl _
  have hinFlight (u : ServiceState) : u.callers.Perm
      ((u.cancelInFlight id).2.map Prod.fst ++ (u.cancelInFlight id).1.callers) := by
    unfold cancelInFlight
    split
    · rename_i txn hlook
      rw [map_fst_answer]
      exact callers_of_inFlight hlook
    · exact List.Perm.refl _
  refine hpending.trans ?_
  show List.Perm _ (((s.cancelPending id).2 ++ ((s.cancelPending id).1.cancelInFlight id).2).map _
    ++ ((s.cancelPending id).1.cancelInFlight id).1.callers)
  rw [List.map_append, List.append_assoc]
  exact (hinFlight _).append_left _

theorem conserves_reject (error : TunnelError) : (reject error).Conserves s := by
  refine conserves_of_perm ?_
  simp only [apply, ServiceState.reject]
  rcases hp : s.pending with - | txn
  · show s.callers.Perm ([] ++ ServiceState.callers { s with pending := none })
    simp [callers, transactions, hp]
  · show s.callers.Perm ((answer _ txn.reply).map Prod.fst ++ _)
    rw [map_fst_answer, callers_of_pending hp]
    exact List.Perm.refl _

theorem conserves_expireOverdue (now : Instant) : (expireOverdue now).Conserves s := by
  refine conserves_of_perm ?_
  -- the sweep splits the table into the overdue and the others
  have hsplit : (s.inFlight.values.flatMap (·.reply.toList)).Perm
      ((s.inFlight.values.filter (·.overdue now)).flatMap (·.reply.toList) ++
        (s.inFlight.retain fun _ txn => !txn.overdue now).values.flatMap (·.reply.toList)) := by
    rw [Table.values_retain, ← List.flatMap_append]
    exact ((List.filter_append_perm _ _).symm).flatMap_right _
  show s.callers.Perm ((s.expireOverdue now).2.1.map Prod.fst ++ (s.expireOverdue now).1.callers)
  unfold ServiceState.expireOverdue
  dsimp only
  rcases hp : s.pending with - | txn
  · rw [map_fst_answers]
    simpa [callers, transactions, hp] using hsplit
  · dsimp only
    by_cases hoverdue : txn.overdue now = true
    · rw [if_pos hoverdue, List.map_append, map_fst_answers, map_fst_answer, callers_of_pending hp]
      have hrest := hsplit.append_left txn.reply.toList
      simp only [callers, transactions, Option.toList_none, List.nil_append]
      refine hrest.trans ?_
      rw [← List.append_assoc]
      exact List.perm_append_comm.append_right _
    · rw [if_neg hoverdue, map_fst_answers]
      simp only [callers, transactions, hp, Option.toList_some, List.singleton_append,
        List.flatMap_cons]
      refine (hsplit.append_left _).trans ?_
      rw [← List.append_assoc, ← List.append_assoc]
      exact List.perm_append_comm.append_right _

/-- A response without a transaction has nobody to answer. -/
theorem response_not_found {id : ServiceId} {u : ServiceState} {take : TransactionTake}
    (h : s.takeTransaction id = (u, take)) (htake : ∀ txn home, take ≠ .found txn home)
    (generation : Nat) (closed : CallerId → Bool) :
    (s.settled id).callers = s.callers ∧
      (s.takeAck id generation closed = (s.settled id, .abandoned) ∨
        s.takeAck id generation closed = (s.settled id, .stale none) ∨
        s.takeAck id generation closed = (s.settled id, .unexpected)) ∧
      (s.takeReject id generation = (s.settled id, .stale none) ∨
        s.takeReject id generation = (s.settled id, .unknown)) := by
  obtain ⟨rfl, -⟩ := takeTransaction_not_found h htake
  unfold ServiceState.takeAck ServiceState.takeReject settled
  rw [h]
  cases take with
  | found txn home => exact absurd rfl (htake txn home)
  | mismatched | missing =>
      dsimp only
      rcases hv : u.takeTombstone id with ⟨v, - | g⟩
      · have hcallers : v.callers = u.callers := (congrArg (·.1.callers) hv).symm
        exact ⟨hcallers, .inr (.inr rfl), .inr rfl⟩
      · have hcallers : v.callers = u.callers := (congrArg (·.1.callers) hv).symm
        refine ⟨hcallers, ?_, .inl rfl⟩
        dsimp only
        split_ifs
        · exact .inl rfl
        · exact .inr (.inl rfl)

theorem conserves_acknowledge (id : ServiceId) (generation : Nat) (closed : CallerId → Bool)
    (bind : EffectiveBind) : (acknowledge id generation closed bind).Conserves s := by
  unfold Conserves
  simp only [apply]
  rcases ht : s.takeTransaction id with ⟨u, ⟨txn, home⟩ | - | -⟩
  · have hcallers := callers_of_take ht
    simp only [ServiceState.takeAck, ht]
    split_ifs with hgen hclosed
    · exact ⟨[], by rw [map_fst_answer, List.append_nil]; exact hcallers, by simp⟩
    · -- the caller of an abandoned transaction is gone
      refine ⟨txn.reply.toList, hcallers, fun caller hmem => ?_⟩
      rw [Option.mem_toList.mp hmem] at hclosed
      exact hclosed
    · exact ⟨[], by rw [map_fst_answer, List.append_nil]; exact hcallers, by simp⟩
  all_goals
    obtain ⟨hcallers, hack | hack | hack, -⟩ :=
      response_not_found ht (by simp) generation closed <;>
    · rw [hack]
      exact ⟨[], by rw [hcallers]; exact List.Perm.refl _, by simp⟩

theorem conserves_takeReject (id : ServiceId) (generation : Nat) (error : TunnelError) :
    (takeReject id generation error).Conserves s := by
  refine conserves_of_perm ?_
  simp only [apply]
  rcases ht : s.takeTransaction id with ⟨u, ⟨txn, home⟩ | - | -⟩
  · have hcallers := callers_of_take ht
    simp only [ServiceState.takeReject, ht]
    split_ifs <;> (rw [map_fst_answer]; exact hcallers)
  all_goals
    obtain ⟨hcallers, -, hreject | hreject⟩ :=
      response_not_found ht (by simp) generation fun _ => false <;>
    · rw [hreject]
      show s.callers.Perm ([] ++ (s.settled id).callers)
      rw [hcallers]
      exact List.Perm.refl _

/-- An accepted registration waits. -/
theorem callers_begin (hkeyed : s.Keyed)
    {t : ServiceState} {service : ClientService} {generation : Nat} {reply : CallerId}
    (h : s.begin service generation reply = (t, .ok ())) : t.callers.Perm (reply :: s.callers) := by
  obtain ⟨hdup, ⟨-, hnone, rfl⟩ | ⟨n, -, -, rfl⟩⟩ := begin_eq_ok h
  · simp [callers, transactions, hnone]
  · simp only [callers, transactions, Table.values_insert,
      Table.erase_eq_self (lookup_of_not_duplicate hkeyed hdup), List.flatMap_append,
      List.flatMap_cons, Option.toList_some]
    exact List.perm_middle

theorem callers_begin_error {t : ServiceState} {service : ClientService} {generation : Nat}
    {reply : CallerId} {e : TunnelError} (h : s.begin service generation reply = (t, .error e)) :
    t.callers = s.callers := by
  rcases begin_eq_error h with ⟨-, -, rfl⟩ | ⟨-, -, rfl⟩ <;> rfl

theorem conserves_begin (hkeyed : s.Keyed)
    (service : ClientService) (generation : Nat) (reply : CallerId) (closed : Bool)
    (limit : Nat) : (begin service generation reply closed limit).Conserves s := by
  unfold Conserves
  simp only [apply, newcomer]
  split_ifs with hfull hclosed
  · exact ⟨[], List.Perm.refl _, by simp⟩
  · exact ⟨[reply], List.Perm.refl _, fun _ hmem => ⟨List.mem_singleton.mp hmem, hclosed⟩⟩
  · rcases h : s.begin service generation reply with ⟨t, e | ok⟩
    · refine ⟨[], ?_, by simp⟩
      rw [callers_begin_error h]
      exact List.Perm.refl _
    · exact ⟨[], (callers_begin hkeyed h).symm, by simp⟩

/-- **Every operation conserves callers.** -/
theorem conserved_apply (hkeyed : s.Keyed)
    (op : Operation) : op.Conserves s := by
  cases op with
  | setMode mode => exact conserves_of_perm (callers_finishPending .disconnected)
  | clearActive | activateInitial | decline => exact conserves_of_perm (List.Perm.refl _)
  | begin service generation reply closed limit => exact conserves_begin hkeyed _ _ _ _ _
  | armDeadline id deadline => exact conserves_of_perm (callers_armDeadline s id deadline).symm
  | loseReply => exact conserves_loseReply
  | abandon id => exact conserves_abandon id
  | acknowledge id generation closed bind => exact conserves_acknowledge _ _ _ _
  | takeReject id generation error => exact conserves_takeReject _ _ _
  | reject error => exact conserves_reject error
  | expireOverdue now => exact conserves_expireOverdue now
  | unregister id => exact conserves_unregister id
  | finishPending error => exact conserves_of_perm (callers_finishPending error)

/-! ### What an operation does -/

/-- An operation is quiet but for the three that are remembered. -/
inductive Outcome (s : ServiceState) :
    Operation → ServiceState → List Answer → List Record → Prop
  | quiet {op t answers} (desired : t.desired = s.desired) (descends : Descends s t)
      (keyed : s.Keyed → t.Keyed) (refused : ∀ k bind, (k, .ok bind) ∉ answers) :
      Outcome s op t answers []
  | begun {t service generation reply closed limit}
      (h : s.begin service generation reply = (t, .ok ())) :
      Outcome s (.begin service generation reply closed limit) t [] [.begun reply service]
  | committed {u id generation closed bind txn home k}
      (h : s.takeTransaction id = (u, .found txn home)) (hreply : txn.reply = some k) :
      Outcome s (.acknowledge id generation closed bind) (u.commit txn.service) [(k, .ok bind)]
        [.committed (some k) txn.service]
  | unregistered {id} :
      Outcome s (.unregister id) (s.unregister id).1 (s.unregister id).2.1 [.unregistered id]

theorem error_of_mem_answer {e : TunnelError} {reply : Option CallerId} {k : CallerId}
    {bind : EffectiveBind} : (k, .ok bind) ∉ answer (.error e) reply := by
  cases reply <;> simp [answer]

theorem error_of_mem_answers {e : TunnelError} {l : List PendingRegistration} {k : CallerId}
    {bind : EffectiveBind} : (k, .ok bind) ∉ l.flatMap fun txn => answer (.error e) txn.reply := by
  intro hmem
  obtain ⟨txn, -, htxn⟩ := List.mem_flatMap.mp hmem
  exact error_of_mem_answer htxn

/-- An operation that gives up transactions, and answers nobody with `Ok`. -/
theorem Outcome.of_narrows {op : Operation} {t : ServiceState} {answers : List Answer}
    (h : Narrows s t) (hkept : Kept s t) (refused : ∀ k bind, (k, .ok bind) ∉ answers) :
    Outcome s op t answers [] :=
  .quiet hkept.1 h.descends h.keyed_of refused

theorem outcome_abandon (id : ServiceId) :
    Outcome s (.abandon id) (s.abandon id).1 (s.abandon id).2 [] := by
  unfold ServiceState.abandon
  split
  · have h := narrows_erase s id
    exact .quiet rfl h.descends h.keyed_of fun _ _ => error_of_mem_answer
  · exact .of_narrows (Narrows.refl s) ⟨rfl, rfl⟩ (by simp)

theorem outcome_acknowledge (id : ServiceId) (generation : Nat) (closed : CallerId → Bool)
    (bind : EffectiveBind) :
    Outcome s (.acknowledge id generation closed bind)
      ((acknowledge id generation closed bind).apply s).1
      ((acknowledge id generation closed bind).apply s).2
      ((acknowledge id generation closed bind).record s) := by
  have hnarrows := narrows_settled s id
  have hkept := kept_settled s id
  rw [← takeAck_fst s id generation closed] at hnarrows hkept
  simp only [apply, record]
  rcases h : s.takeAck id generation closed with ⟨t, ⟨service, reply⟩ | - | reply | -⟩
  · -- without a caller it would not have been a commit
    obtain ⟨txn, home, htake, -, rfl, rfl, hopen⟩ := takeAck_eq_commit h
    rcases hreply : txn.reply with - | k
    · rw [hreply] at hopen
      cases hopen
    · exact .committed htake hreply
  all_goals
    rw [h] at hnarrows hkept
    refine .of_narrows hnarrows hkept fun _ _ => ?_
    first
    | exact error_of_mem_answer
    | exact List.not_mem_nil

theorem outcome_begin (service : ClientService) (generation : Nat) (reply : CallerId)
    (closed : Bool) (limit : Nat) :
    Outcome s (.begin service generation reply closed limit)
      ((begin service generation reply closed limit).apply s).1
      ((begin service generation reply closed limit).apply s).2
      ((begin service generation reply closed limit).record s) := by
  simp only [apply, record]
  split_ifs
  · exact .of_narrows (Narrows.refl s) ⟨rfl, rfl⟩ (by simp)
  · exact .of_narrows (Narrows.refl s) ⟨rfl, rfl⟩ (by simp)
  · have hkept := kept_begin s service generation reply
    rcases h : s.begin service generation reply with ⟨t, e | ok⟩
    · rw [h] at hkept
      exact .of_narrows (narrows_begin_error h) hkept (by simp)
    · exact .begun h

/-- **What an operation does to the state, the answers and the history.** -/
theorem outcome_apply (s : ServiceState) (op : Operation) :
    Outcome s op (op.apply s).1 (op.apply s).2 (op.record s) := by
  cases op with
  | setMode mode =>
      have h := narrows_finishPending s .disconnected
      exact .quiet rfl h.descends h.keyed_of fun _ _ => error_of_mem_answers
  | clearActive => exact .quiet rfl (narrows_clearActive s).descends id (by simp [apply])
  | activateInitial => exact .quiet rfl (Narrows.refl s).descends id (by simp [apply])
  | begin service generation reply closed limit => exact outcome_begin _ _ _ _ _
  | decline reply => exact .of_narrows (Narrows.refl s) ⟨rfl, rfl⟩ (by simp [apply])
  | armDeadline id deadline =>
      exact .of_narrows (narrows_armDeadline s id deadline) (kept_armDeadline s id deadline)
        (by simp [apply])
  | loseReply =>
      exact .of_narrows (narrows_mapPending s fun _ => ⟨rfl, rfl, fun _ h => by cases h⟩)
        ⟨rfl, rfl⟩ fun _ _ => error_of_mem_answer
  | abandon id => exact outcome_abandon id
  | acknowledge id generation closed bind => exact outcome_acknowledge _ _ _ _
  | takeReject id generation error =>
      have hnarrows := narrows_settled s id
      have hkept := kept_settled s id
      rw [← takeReject_fst s id generation] at hnarrows hkept
      simp only [apply, record]
      rcases h : s.takeReject id generation with ⟨t, reply | reply | -⟩
      all_goals
        rw [h] at hnarrows hkept
        refine .of_narrows hnarrows hkept fun _ _ => ?_
        first
        | exact error_of_mem_answer
        | exact List.not_mem_nil
  | reject error =>
      have h := narrows_clearPending s
      simp only [apply, record]
      unfold ServiceState.reject
      rcases hp : s.pending with - | txn
      · exact .quiet rfl h.descends h.keyed_of (by simp)
      · exact .quiet rfl h.descends h.keyed_of fun _ _ => error_of_mem_answer
  | expireOverdue now =>
      refine .of_narrows (narrows_expireOverdue s now) (kept_expireOverdue s now) fun k bind => ?_
      simp only [apply, ServiceState.expireOverdue]
      split
      · split_ifs
        · exact List.not_mem_append error_of_mem_answers error_of_mem_answer
        all_goals exact error_of_mem_answers
      · exact error_of_mem_answers
  | unregister id => exact .unregistered
  | finishPending error =>
      exact .of_narrows (narrows_finishPending s error) ⟨rfl, rfl⟩
        fun _ _ => error_of_mem_answers

end Operation

/-! ### Unregistering and beginning -/

namespace ServiceState

variable {s t : ServiceState}

theorem descends_cancelPending (s : ServiceState) (id : ServiceId) :
    Descends s (s.cancelPending id).1 ∧
      (s.cancelPending id).1.inFlight = s.inFlight ∧
      ∀ txn ∈ (s.cancelPending id).1.pending, txn.service.id ≠ id := by
  unfold cancelPending
  split
  · rename_i txn hp
    split_ifs with hid
    · exact ⟨(narrows_clearPending s).descends, rfl, fun _ h => by cases h⟩
    · refine ⟨(Narrows.refl s).descends, rfl, fun other h => ?_⟩
      rw [Option.mem_def, hp] at h
      cases h
      exact hid
  · rename_i hp
    refine ⟨(Narrows.refl s).descends, rfl, fun other h => ?_⟩
    rw [Option.mem_def, hp] at h
    cases h

theorem inFlight_cancelInFlight (s : ServiceState) (id : ServiceId) :
    (s.cancelInFlight id).1.inFlight = s.inFlight.erase id ∧
      (s.cancelInFlight id).1.pending = s.pending := by
  unfold cancelInFlight
  split
  · exact ⟨rfl, rfl⟩
  · rename_i hnone
    exact ⟨(Table.erase_eq_self hnone).symm, rfl⟩

/-- An unregistered id has no transaction left. -/
theorem unregister_clears (hs : s.Keyed) (id : ServiceId) :
    Descends s (s.unregister id).1 ∧ (s.unregister id).1.Keyed ∧
      ∀ txn ∈ (s.unregister id).1.transactions, txn.service.id ≠ id := by
  obtain ⟨hdescends, hsame, hslot⟩ := descends_cancelPending s id
  obtain ⟨htable, hpending⟩ := inFlight_cancelInFlight (s.cancelPending id).1 id
  have hcancel := narrows_cancelInFlight (s.cancelPending id).1 id
  have hkeyed : (s.cancelPending id).1.Keyed := by
    intro k txn h
    rw [hsame] at h
    exact hs k txn h
  refine ⟨fun txn hmem => ?_, fun k txn h => hcancel.keyed_of hkeyed k txn h, fun txn hmem => ?_⟩
  · obtain ⟨txn', hmem', hserv', hreply'⟩ := hcancel.descends txn hmem
    obtain ⟨txn'', hmem'', hserv'', hreply''⟩ := hdescends txn' hmem'
    exact ⟨txn'', hmem'', hserv''.trans hserv', fun k hk => hreply'' k (hreply' k hk)⟩
  · have hmem : txn ∈ ((s.cancelPending id).1.cancelInFlight id).1.pending.toList ++
        ((s.cancelPending id).1.cancelInFlight id).1.inFlight.values := hmem
    rw [htable, hpending] at hmem
    rcases List.mem_append.mp hmem with hp | hv
    · exact hslot txn (Option.mem_toList.mp hp)
    · obtain ⟨k, hk⟩ := Table.mem_values.mp hv
      rw [Table.lookup_erase_eq] at hk
      split_ifs at hk with hne
      rw [hkeyed k txn hk]
      exact hne

theorem refused_unregister (s : ServiceState) (id : ServiceId) {caller : CallerId}
    {bind : EffectiveBind} : (caller, .ok bind) ∉ (s.unregister id).2.1 := by
  have hslot : (caller, .ok bind) ∉ (s.cancelPending id).2 := by
    unfold cancelPending
    split
    · split_ifs
      · exact Operation.error_of_mem_answer
      · exact List.not_mem_nil
    · exact List.not_mem_nil
  have htable (u : ServiceState) : (caller, .ok bind) ∉ (u.cancelInFlight id).2 := by
    unfold cancelInFlight
    split
    · exact Operation.error_of_mem_answer
    · exact List.not_mem_nil
  exact List.not_mem_append hslot (htable _)

/-- An accepted registration is the one transaction that is new. -/
theorem transactions_begin {service : ClientService} {generation : Nat} {reply : CallerId}
    (h : s.begin service generation reply = (t, .ok ())) {txn : PendingRegistration}
    (hmem : txn ∈ t.transactions) :
    txn ∈ s.transactions ∨ (txn.service = service ∧ txn.reply = some reply) := by
  obtain ⟨-, ⟨-, hnone, rfl⟩ | ⟨n, -, -, rfl⟩⟩ := begin_eq_ok h
  · rcases List.mem_append.mp hmem with hslot | htable
    · cases Option.mem_toList.mp hslot
      exact .inr ⟨rfl, rfl⟩
    · exact .inl (List.mem_append_right _ htable)
  · rcases List.mem_append.mp hmem with hslot | htable
    · exact .inl (List.mem_append_left _ hslot)
    · rw [Table.values_insert] at htable
      rcases List.mem_cons.mp htable with rfl | hrest
      · exact .inr ⟨rfl, rfl⟩
      · obtain ⟨k, hk⟩ := Table.mem_values.mp hrest
        rw [Table.lookup_erase_eq] at hk
        split_ifs at hk
        exact .inl (List.mem_append_right _ (Table.mem_values.mpr ⟨k, hk⟩))

theorem keyed_begin (hs : s.Keyed) {service : ClientService} {generation : Nat}
    {reply : CallerId} (h : s.begin service generation reply = (t, .ok ())) : t.Keyed := by
  obtain ⟨-, ⟨-, -, rfl⟩ | ⟨n, -, -, rfl⟩⟩ := begin_eq_ok h
  · exact hs
  · intro k txn hk
    dsimp only at hk
    rw [Table.lookup_insert_eq] at hk
    split_ifs at hk with heq
    · cases hk
      exact heq.symm
    · exact hs k txn hk

/-- The transaction that a response takes. -/
theorem mem_of_take {id : ServiceId} {u : ServiceState} {txn : PendingRegistration}
    {home : TransactionHome} (h : s.takeTransaction id = (u, .found txn home)) :
    txn ∈ s.transactions := by
  obtain ⟨hp, -, -⟩ | ⟨-, hlook, -⟩ := takeTransaction_eq_found h
  · exact List.mem_append_left _ (Option.mem_toList.mpr hp)
  · exact List.mem_append_right _ (Table.mem_values.mpr ⟨id, hlook⟩)

theorem narrows_of_take {id : ServiceId} {u : ServiceState} {txn : PendingRegistration}
    {home : TransactionHome} (h : s.takeTransaction id = (u, .found txn home)) : Narrows s u := by
  have hnarrows := narrows_takeTransaction s id
  rwa [h] at hnarrows

end ServiceState

end Eggtunnel
