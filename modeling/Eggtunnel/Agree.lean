/-
Eggtunnel/Agree.lean

When the two ends of an enrolment agree.

The client's table and the server's are related only through the commands and
answers between them, so agreement is stated key by key over the part of the
state that concerns the key (`Portion`): what the client holds, what the
server holds, and the commands and answers about the key still on their way.

`Tracked` says that the client can place every answer.  It may be lost for
good, by a request that times out or is entered twice: `tracked_of_step` shows
that while requests are outstanding it never comes back.  A client with no
outstanding request is trivially tracked, hence was tracked all along, and
`Settled.step` may assume it.
-/
import Eggtunnel.Enrol

namespace Eggtunnel

namespace Enrol

variable {K S C B E N : Type}
variable {key : S → K} {name : S → N} {serial : Prop}
variable {a b : Enrolment K S C B E N} {m : Move K S C}

/-! ### Tracked answers -/

/-- The outstanding requests have distinct keys, and each key is live or
dead. -/
structure Tracked (key : S → K) (a : Enrolment K S C B E N) : Prop where
  distinct : Distinct key a
  known : ∀ k ∈ keys key a, (a.live k).isSome ∨ k ∈ a.dead

/-- Nothing outstanding, nothing to lose track of. -/
theorem tracked_of_outstanding_nil (h : outstanding a = []) : Tracked key a where
  distinct := by simp [Distinct, keys, h]
  known := by simp [keys, h]

section
variable [DecidableEq K]

theorem isSome_live_step (h : Step key name serial m a b) (hm : ∀ r, m ≠ .enter r) {k : K}
    (hk : (b.live k).isSome) : (a.live k).isSome := by
  obtain ⟨r, hr⟩ := Option.isSome_iff_exists.mp hk
  rcases live_step h hr with hka | ⟨rfl, -⟩
  · rw [hka]
    rfl
  · exact absurd rfl (hm r)

omit [DecidableEq K] in
/-- A key that is neither live nor dead has no outstanding request. -/
theorem Tracked.notMem_keys (ht : Tracked key a) {k : K} (hlive : a.live k = none)
    (hdead : k ∉ a.dead) : k ∉ keys key a := by
  intro hk
  rcases ht.known k hk with hl | hd
  · rw [hlive] at hl
    cases hl
  · exact hdead hd

omit [DecidableEq K] in
/-- A live request that is not outstanding after an answer was the answered
one. -/
theorem Owned.slot_eq_head (ho : Owned key serial a) {k : K} {r r' : Request S C}
    (hlive : a.live k = some r') (hout : outstanding a = r :: outstanding b)
    (hk : k ∉ keys key b) : r' = r := by
  have hmem := ho.mem_live hlive
  rw [hout, List.mem_cons] at hmem
  exact hmem.resolve_right fun hr => hk (ho.key_live hlive ▸ mem_keys hr)

/-- If the client is tracked after reading an answer, the answer belonged to
the live request of its key or found its key dead, and no other outstanding
request has the key. -/
theorem known_head (ho : Owned key serial a) {lost : Bool}
    (h : Step key name serial (.settle lost) a b) (ht : Tracked key b) {r : Request S C}
    {v : Except E B} {rest : List (Request S C × Except E B)} (hdown : a.down = (r, v) :: rest)
    (hout : outstanding a = r :: outstanding b) :
    ((a.live (key r.item)).isSome ∨ key r.item ∈ a.dead) ∧ key r.item ∉ keys key b := by
  cases h with
  | commit hd hlive | undo hd hlive | refused hd _ hlive =>
      obtain rfl : r = _ := congrArg Prod.fst (List.cons.inj (hdown.symm.trans hd)).1
      exact ⟨.inl (by rw [hlive]; rfl), ht.notMem_keys (by simp) (ho.apart hlive)⟩
  | undoDead hd hlive hdead | refusedDead hd _ hlive hdead =>
      obtain rfl : r = _ := congrArg Prod.fst (List.cons.inj (hdown.symm.trans hd)).1
      exact ⟨.inr hdead, ht.notMem_keys hlive fun hk => hk.2 rfl⟩
  | refusedSlot hd _ hlive =>
      have hgone := ht.notMem_keys (by simp) (ho.apart hlive)
      obtain rfl := ho.slot_eq_head hlive hout hgone
      rw [ho.key_live hlive]
      exact ⟨.inl (by rw [hlive]; rfl), hgone⟩

/-- **A client that is tracked was tracked before**, unless it buried a key. -/
theorem tracked_of_step (ho : Owned key serial a) (h : Step key name serial m a b)
    (hm : ∀ k, m ≠ .bury k) (ht : Tracked key b) : Tracked key a := by
  -- outside of an entry, what is live or dead afterwards was so before
  have hknown (hne : ∀ r, m ≠ .enter r) {k : K} (hk : k ∈ keys key b) :
      (a.live k).isSome ∨ k ∈ a.dead := by
    rcases ht.known k hk with hl | hd
    · exact .inl (isSome_live_step h hne hl)
    · rcases dead_step h hd with hd | ⟨rfl, -⟩ | ⟨-, -, -, hl⟩
      · exact .inr hd
      · exact absurd rfl (hm k)
      · exact .inl hl
  rcases outstanding_step h with ⟨r, rfl, hout⟩ | ⟨lost, r, v, rest, rfl, hdown, hout⟩ | ⟨hne, hout⟩
  · have hkeys : keys key b = keys key a ++ [key r.item] := by simp [keys, hout]
    have hnd := ht.distinct
    unfold Distinct at hnd
    rw [hkeys, List.nodup_append] at hnd
    refine ⟨hnd.1, fun k hk => ?_⟩
    have hkr : k ≠ key r.item := hnd.2.2 k hk _ (List.mem_singleton_self _)
    have hkb := ht.known k (by rw [hkeys]; exact List.mem_append_left _ hk)
    cases h with
    | enter =>
        dsimp only at hkb
        rw [Function.update_of_ne hkr] at hkb
        exact hkb.imp id fun hd => hd.1
  · have hkeys : keys key a = key r.item :: keys key b := by simp [keys, hout]
    obtain ⟨hhead, hnot⟩ := known_head ho h ht hdown hout
    refine ⟨?_, fun k hk => ?_⟩
    · unfold Distinct
      rw [hkeys, List.nodup_cons]
      exact ⟨hnot, ht.distinct⟩
    · rw [hkeys, List.mem_cons] at hk
      rcases hk with rfl | hk
      · exact hhead
      · exact hknown (by simp) hk
  · have hkeys : keys key a = keys key b := by simp [keys, hout]
    refine ⟨?_, fun k hk => hknown hne (hkeys ▸ hk)⟩
    have hnd := ht.distinct
    unfold Distinct at hnd ⊢
    rwa [hkeys]

end

/-! ### One key at a time -/

/-- The key a command is about. -/
def Command.subject (key : S → K) : Command K S C → K
  | .enter r => key r.item
  | .leave k => k

@[simp] theorem Command.subject_enter (r : Request S C) :
    (Command.enter r : Command K S C).subject key = key r.item := rfl

@[simp] theorem Command.subject_leave (k : K) :
    (Command.leave k : Command K S C).subject key = k := rfl

/-- The part of an enrolment that concerns one key. -/
structure Portion (K S C B E N : Type) where
  live : Option (Request S C)
  active : Option S
  noted : List B
  up : List (Command K S C)
  down : List (Request S C × Except E B)
  table : Option N
  bound : List B

/-- What an enrolment says about one key. -/
def portion [DecidableEq K] (key : S → K) (k : K) (a : Enrolment K S C B E N) : Portion K S C B E N where
  live := a.live k
  active := a.active k
  noted := a.noted k
  up := a.up.filter fun c => c.subject key = k
  down := a.down.filter fun p => key p.1.item = k
  table := a.table k
  bound := a.bound k

namespace Portion

/-- Once the commands are served, the server does not hold the key. -/
def Cleared (k : K) (table : Option N) (up : List (Command K S C)) : Prop :=
  (up = [] ∧ table = none) ∨ ∃ pre, up = pre ++ [.leave k]

/-- What an answer on its way says about the server. -/
def Answered (name : S → N) (p : Portion K S C B E N) (r : Request S C) : Except E B → Prop
  | .ok b => p.table = some (name r.item) ∧ p.bound = [b]
  | .error _ => p.table = none

/-- The two ends agree about the key, up to what is still on its way. -/
structure Settled (name : S → N) (k : K) (p : Portion K S C B E N) : Prop where
  idle : p.live = none → p.active = none → Cleared k p.table p.up
  waiting : ∀ r, p.live = some r → p.active = none ∧
    ((∃ pre, p.up = pre ++ [.enter r] ∧ Cleared k p.table pre) ∨
      (p.up = [] ∧ ∃ v, (r, v) ∈ p.down ∧ Answered name p r v))
  enrolled : ∀ s, p.active = some s → p.up = [] ∧ p.down = [] ∧ p.table = some (name s) ∧
    ∃ b, p.bound = [b] ∧ p.noted = [b]
  bound_free : p.table = none → p.bound = []
  noted_free : p.active = none → p.noted = []

/-- The requests about the key that are outstanding. -/
def requests (p : Portion K S C B E N) : List (Request S C) :=
  p.down.map Prod.fst ++ p.up.filterMap Command.request

variable {p : Portion K S C B E N} {k : K} {r : Request S C}

theorem cleared_of_leave {table : Option N} {up : List (Command K S C)}
    (h : Cleared k table (.leave k :: up)) : Cleared k (none : Option N) up := by
  rcases h with ⟨h, -⟩ | ⟨pre, hpre⟩
  · cases h
  · cases pre with
    | nil => exact .inl ⟨(List.cons.inj hpre).2, rfl⟩
    | cons c pre => exact .inr ⟨pre, (List.cons.inj hpre).2⟩

theorem cleared_of_enter {table table' : Option N} {up : List (Command K S C)}
    (h : Cleared k table (.enter r :: up)) : Cleared k table' up := by
  rcases h with ⟨h, -⟩ | ⟨pre, hpre⟩
  · cases h
  · cases pre with
    | nil => cases (List.cons.inj hpre).1
    | cons c pre => exact .inr ⟨pre, (List.cons.inj hpre).2⟩

/-- A new request joins an idle key. -/
theorem Settled.enter (h : p.Settled name k) (hlive : p.live = none) (hactive : p.active = none) :
    ({ p with live := some r, up := p.up ++ [.enter r] } : Portion K S C B E N).Settled name k where
  idle hl := by cases hl
  waiting r' hr := by
    obtain rfl := Option.some.inj hr
    exact ⟨hactive, .inl ⟨p.up, rfl, h.idle hlive hactive⟩⟩
  enrolled s hs := by
    dsimp only at hs
    rw [hactive] at hs
    cases hs
  bound_free := h.bound_free
  noted_free := h.noted_free

/-- Whatever the key was, giving it up leaves it to the command just sent. -/
theorem Settled.giveUp (h : p.Settled name k) (down : List (Request S C × Except E B)) :
    ({ p with live := none, active := none, noted := [], down := down,
              up := p.up ++ [.leave k] } : Portion K S C B E N).Settled name k where
  idle _ _ := .inr ⟨p.up, rfl⟩
  waiting r' hr := by cases hr
  enrolled s hs := by cases hs
  bound_free := h.bound_free
  noted_free _ := rfl

/-- The only outstanding request of a key that is being answered: nothing else
about it is on its way. -/
theorem rest_nil {v : Except E B} {rest : List (Request S C × Except E B)}
    (hone : p.requests.length ≤ 1) (hdown : p.down = (r, v) :: rest) :
    rest = [] ∧ p.up.filterMap Command.request = [] := by
  unfold requests at hone
  rw [hdown, List.map_cons, List.cons_append, List.length_cons, List.length_append,
    List.length_map] at hone
  exact ⟨List.length_eq_zero_iff.mp (by omega), List.length_eq_zero_iff.mp (by omega)⟩

/-- The only outstanding request of a key is the one the server reads. -/
theorem enter_eq_of_one {r' : Request S C} {rest pre : List (Command K S C)}
    (hone : p.requests.length ≤ 1) (hup : p.up = .enter r :: rest)
    (hpre : p.up = pre ++ [.enter r']) : r' = r ∧ rest = [] := by
  unfold requests at hone
  rw [List.length_append, List.length_map] at hone
  rcases pre with - | ⟨c, pre⟩
  · rw [hup] at hpre
    obtain ⟨hc, hrest⟩ := List.cons.inj hpre
    cases hc
    exact ⟨rfl, hrest⟩
  · rw [hup] at hpre hone
    obtain ⟨rfl, rfl⟩ := List.cons.inj hpre
    simp at hone
    omega

/-- What the answer to the live request says holds of the server. -/
theorem Settled.answered (h : p.Settled name k) (hone : p.requests.length ≤ 1)
    {v : Except E B} {rest : List (Request S C × Except E B)} (hdown : p.down = (r, v) :: rest)
    (hlive : p.live = some r) : p.active = none ∧ p.up = [] ∧ Answered name p r v := by
  obtain ⟨rfl, hup⟩ := rest_nil hone hdown
  obtain ⟨hactive, ⟨pre, hpre, -⟩ | ⟨hnil, v', hv', hans⟩⟩ := h.waiting r hlive
  · rw [hpre] at hup
    simp at hup
  · rw [hdown, List.mem_singleton] at hv'
    obtain ⟨-, rfl⟩ := Prod.mk.inj hv'
    exact ⟨hactive, hnil, hans⟩

theorem Settled.commit (h : p.Settled name k) (hone : p.requests.length ≤ 1) {b : B}
    {rest : List (Request S C × Except E B)} (hdown : p.down = (r, .ok b) :: rest)
    (hlive : p.live = some r) :
    ({ p with live := none, active := some r.item, noted := p.noted ++ [b],
              down := rest } : Portion K S C B E N).Settled name k where
  idle _ ha := by cases ha
  waiting r' hr := by cases hr
  enrolled s hs := by
    obtain rfl := Option.some.inj hs
    obtain ⟨hactive, hup, htable, hbound⟩ := h.answered hone hdown hlive
    obtain ⟨rfl, -⟩ := rest_nil hone hdown
    exact ⟨hup, rfl, htable, b, hbound, by rw [h.noted_free hactive]; rfl⟩
  bound_free := h.bound_free
  noted_free ha := by cases ha

theorem Settled.refused (h : p.Settled name k) (hone : p.requests.length ≤ 1) {e : E}
    {rest : List (Request S C × Except E B)} (hdown : p.down = (r, .error e) :: rest)
    (hlive : p.live = some r) :
    ({ p with live := none, down := rest } : Portion K S C B E N).Settled name k where
  idle _ _ := by
    obtain ⟨-, hup, htable⟩ := h.answered hone hdown hlive
    exact .inl ⟨hup, htable⟩
  waiting r' hr := by cases hr
  enrolled s hs := by
    obtain ⟨hactive, -⟩ := h.answered hone hdown hlive
    dsimp only at hs
    rw [hactive] at hs
    cases hs
  bound_free := h.bound_free
  noted_free := h.noted_free

theorem Settled.refusedDead (h : p.Settled name k)
    {q : Request S C × Except E B} {rest : List (Request S C × Except E B)}
    (hdown : p.down = q :: rest) (hlive : p.live = none) :
    ({ p with down := rest } : Portion K S C B E N).Settled name k where
  idle := h.idle
  waiting r' hr := by
    dsimp only at hr
    rw [hlive] at hr
    cases hr
  enrolled s hs := by
    obtain ⟨-, hnil, -⟩ := h.enrolled s hs
    rw [hdown] at hnil
    cases hnil
  bound_free := h.bound_free
  noted_free := h.noted_free

theorem Settled.accept (h : p.Settled name k) (hone : p.requests.length ≤ 1)
    {rest : List (Command K S C)} (hup : p.up = .enter r :: rest) (htable : p.table = none)
    (b : B) :
    ({ p with up := rest, down := p.down ++ [(r, .ok b)], table := some (name r.item),
              bound := p.bound ++ [b] } : Portion K S C B E N).Settled name k where
  idle hl ha := by
    have hc := h.idle hl ha
    rw [hup] at hc
    exact cleared_of_enter hc
  waiting r' hr := by
    obtain ⟨ha, ⟨pre, hpre, -⟩ | ⟨hnil, -⟩⟩ := h.waiting r' hr
    · obtain ⟨rfl, rfl⟩ := enter_eq_of_one hone hup hpre
      refine ⟨ha, .inr ⟨rfl, .ok b, by simp, rfl, ?_⟩⟩
      dsimp only
      rw [h.bound_free htable]
      rfl
    · rw [hup] at hnil
      cases hnil
  enrolled s hs := by
    obtain ⟨hnil, -⟩ := h.enrolled s hs
    rw [hup] at hnil
    cases hnil
  bound_free ht := by cases ht
  noted_free := h.noted_free

theorem Settled.refuse (h : p.Settled name k) (hone : p.requests.length ≤ 1)
    {rest : List (Command K S C)} (hup : p.up = .enter r :: rest) (e : E) :
    ({ p with up := rest, down := p.down ++ [(r, .error e)] } :
      Portion K S C B E N).Settled name k where
  idle hl ha := by
    have hc := h.idle hl ha
    rw [hup] at hc
    exact cleared_of_enter hc
  waiting r' hr := by
    obtain ⟨ha, ⟨pre, hpre, hc⟩ | ⟨hnil, -⟩⟩ := h.waiting r' hr
    · have hpre' := hpre
      rw [hup] at hpre'
      obtain ⟨rfl, rfl⟩ := enter_eq_of_one hone hup hpre
      -- the request was the next command, so nothing else stands before it
      obtain rfl : pre = [] := by
        rcases pre with - | ⟨c, pre⟩
        · rfl
        · have hlen := congrArg List.length hpre'
          simp at hlen
      have htable : p.table = none := by
        rcases hc with ⟨-, ht⟩ | ⟨pre, hpre⟩
        · exact ht
        · simp at hpre
      exact ⟨ha, .inr ⟨rfl, .error e, by simp, htable⟩⟩
    · rw [hup] at hnil
      cases hnil
  enrolled s hs := by
    obtain ⟨hnil, -⟩ := h.enrolled s hs
    rw [hup] at hnil
    cases hnil
  bound_free := h.bound_free
  noted_free := h.noted_free

theorem Settled.remove (h : p.Settled name k) {rest : List (Command K S C)}
    (hup : p.up = .leave k :: rest) :
    ({ p with up := rest, table := none, bound := [] } : Portion K S C B E N).Settled name k where
  idle hl ha := by
    have hc := h.idle hl ha
    rw [hup] at hc
    exact cleared_of_leave hc
  waiting r' hr := by
    obtain ⟨ha, ⟨pre, hpre, hc⟩ | ⟨hnil, -⟩⟩ := h.waiting r' hr
    · rw [hup] at hpre
      rcases pre with - | ⟨c, pre⟩
      · cases (List.cons.inj hpre).1
      · obtain ⟨rfl, hrest⟩ := List.cons.inj hpre
        exact ⟨ha, .inl ⟨pre, hrest, cleared_of_leave hc⟩⟩
    · rw [hup] at hnil
      cases hnil
  enrolled s hs := by
    obtain ⟨hnil, -⟩ := h.enrolled s hs
    rw [hup] at hnil
    cases hnil
  bound_free _ := rfl
  noted_free := h.noted_free

end Portion

/-! ### The whole state -/

section
variable [DecidableEq K]

/-- The two ends agree about every key, up to what is still on its way. -/
def Settled (key : S → K) (name : S → N) (a : Enrolment K S C B E N) : Prop :=
  ∀ k, (portion key k a).Settled name k

theorem requests_portion (k : K) :
    (portion key k a).requests = (outstanding a).filter fun r => key r.item = k := by
  have hup : ∀ up : List (Command K S C),
      (up.filter fun c => c.subject key = k).filterMap Command.request
        = (up.filterMap Command.request).filter fun r => key r.item = k := by
    intro up
    induction up with
    | nil => rfl
    | cons c up ih =>
        cases c with
        | enter r => by_cases hk : key r.item = k <;> simp [hk, ih]
        | leave k' => by_cases hk : k' = k <;> simp [List.filterMap_cons, hk, ih]
  rw [Portion.requests, outstanding, List.filter_append, ← hup]
  congr 1
  rw [List.filter_map]
  rfl

/-- Distinct keys leave each key at most one outstanding request. -/
theorem Distinct.requests_le (hd : Distinct key a) (k : K) :
    (portion key k a).requests.length ≤ 1 := by
  rw [requests_portion, ← List.countP_eq_length_filter]
  have hcount : (keys key a).countP (· = k) ≤ 1 := by
    have h := List.nodup_iff_count_le_one.mp hd k
    rwa [List.count_eq_countP] at h
  rw [keys, List.countP_map] at hcount
  exact hcount

/-- Moves that lose no command, bury nothing and keep the server. -/
def Reliable : Move K S C → Prop
  | .bury _ => False
  | .leave _ _ lost => lost = false
  | .settle lost => lost = false
  | .crash => False
  | _ => True

/-- **Agreement is kept by every reliable step that keeps the client
tracked.** -/
theorem Settled.step (hs : Settled key name a) (ho : Owned key serial a) (hrel : Reliable m)
    (ht : Tracked key b) (h : Step key name serial m a b) : Settled key name b := by
  have hta : Tracked key a :=
    tracked_of_step ho h (by rintro k rfl; exact hrel) ht
  have hone := fun k => hta.distinct.requests_le k
  intro k
  cases h with
  | stutter | forget => exact hs k
  | bury | crash => exact hrel.elim
  | enter r hlive _ hactive =>
      rcases eq_or_ne k (key r.item) with rfl | hk
      · simpa [portion] using (hs _).enter (r := r) hlive hactive
      · simpa [portion, hk, hk.symm] using hs k
  | leave x cleared lost =>
      obtain rfl : lost = false := hrel
      rcases eq_or_ne k x with rfl | hk
      · have h := (hs k).giveUp (portion key k a).down
        have hn : (if (a.active k).isSome then Function.update a.noted k [] else a.noted) k = [] := by
          split_ifs with hact
          · simp
          · exact (hs k).noted_free (Option.not_isSome_iff_eq_none.mp hact)
        simpa [portion, send, hn] using h
      · have hn : (if (a.active x).isSome then Function.update a.noted x [] else a.noted) k
            = a.noted k := by
          split_ifs <;> simp [hk]
        simpa [portion, send, hk, hk.symm, hn] using hs k
  | expire ks hserial =>
      -- a request that times out stays outstanding and is not dead, so none did
      have hfree (hk : k ∈ ks) : a.live k = none := by
        rcases hl : a.live k with - | r
        · rfl
        · exact absurd (ho.key_live hl ▸ mem_keys (ho.mem_live hl))
            (ht.notMem_keys (by simp [hk]) (ho.apart hl))
      by_cases hk : k ∈ ks
      · simpa [portion, hk, hfree hk] using hs k
      · simpa [portion, hk] using hs k
  | @commit _ r r' v rest hdown hlive lost =>
      obtain rfl : r' = r := hta.distinct.eq_of_key (ho.mem_live hlive)
        (head_mem_outstanding hdown) (ho.key_live hlive)
      rcases eq_or_ne k (key r'.item) with rfl | hk
      · have hd : (portion key (key r'.item) a).down
            = (r', .ok v) :: rest.filter fun p => key p.1.item = key r'.item := by
          simp [portion, hdown]
        simpa [portion] using (hs _).commit (hone _) hd hlive
      · simpa [portion, hdown, hk, hk.symm] using hs k
  | @undo _ r r' v rest hdown hlive lost =>
      obtain rfl : lost = false := hrel
      obtain rfl : r' = r := hta.distinct.eq_of_key (ho.mem_live hlive)
        (head_mem_outstanding hdown) (ho.key_live hlive)
      rcases eq_or_ne k (key r'.item) with rfl | hk
      · obtain ⟨hactive, -⟩ := (hs (key r'.item)).waiting r' hlive
        have hnoted := (hs (key r'.item)).noted_free hactive
        simp only [portion] at hactive hnoted
        simpa [portion, send, hactive, hnoted] using
          (hs _).giveUp (rest.filter fun p => key p.1.item = key r'.item)
      · simpa [portion, send, hdown, hk, hk.symm] using hs k
  | @undoDead _ r v rest hdown hlive hdead lost =>
      obtain rfl : lost = false := hrel
      rcases eq_or_ne k (key r.item) with rfl | hk
      · have hactive : a.active (key r.item) = none := by
          rcases ha : a.active (key r.item) with - | s
          · rfl
          · obtain ⟨-, hnil, -⟩ := (hs (key r.item)).enrolled s ha
            simp [portion, hdown] at hnil
        have hnoted := (hs (key r.item)).noted_free hactive
        simp only [portion] at hnoted
        simpa [portion, send, hlive, hactive, hnoted] using
          (hs _).giveUp (rest.filter fun p => key p.1.item = key r.item)
      · simpa [portion, send, hdown, hk, hk.symm] using hs k
  | @refused _ r r' e rest hdown _ hlive lost =>
      obtain rfl : r' = r := hta.distinct.eq_of_key (ho.mem_live hlive)
        (head_mem_outstanding hdown) (ho.key_live hlive)
      rcases eq_or_ne k (key r'.item) with rfl | hk
      · have hd : (portion key (key r'.item) a).down
            = (r', .error e) :: rest.filter fun p => key p.1.item = key r'.item := by
          simp [portion, hdown]
        simpa [portion] using (hs _).refused (hone _) hd hlive
      · simpa [portion, hdown, hk, hk.symm] using hs k
  | @refusedDead _ r e rest hdown _ hlive hdead lost =>
      rcases eq_or_ne k (key r.item) with rfl | hk
      · have hd : (portion key (key r.item) a).down
            = (r, .error e) :: rest.filter fun p => key p.1.item = key r.item := by
          simp [portion, hdown]
        simpa [portion] using (hs _).refusedDead hd hlive
      · simpa [portion, hdown, hk, hk.symm] using hs k
  | @refusedSlot _ r r' x e rest hdown hserial hlive lost =>
      -- had the refusal been another request's, the slot's would be lost track of
      obtain rfl : r' = r := ho.slot_eq_head hlive (by simp [outstanding, hdown])
        (ht.notMem_keys (by simp) (ho.apart hlive))
      obtain rfl := ho.key_live hlive
      rcases eq_or_ne k (key r'.item) with rfl | hk
      · have hd : (portion key (key r'.item) a).down
            = (r', .error e) :: rest.filter fun p => key p.1.item = key r'.item := by
          simp [portion, hdown]
        simpa [portion] using (hs _).refused (hone _) hd hlive
      · simpa [portion, hdown, hk, hk.symm] using hs k
  | @accept _ r v rest hup htable =>
      rcases eq_or_ne k (key r.item) with rfl | hk
      · have hu : (portion key (key r.item) a).up
            = .enter r :: rest.filter fun c => c.subject key = key r.item := by
          simp [portion, hup]
        simpa [portion] using (hs _).accept (hone _) hu htable v
      · simpa [portion, hup, hk, hk.symm] using hs k
  | @refuse _ r e rest hup =>
      rcases eq_or_ne k (key r.item) with rfl | hk
      · have hu : (portion key (key r.item) a).up
            = .enter r :: rest.filter fun c => c.subject key = key r.item := by
          simp [portion, hup]
        simpa [portion] using (hs _).refuse (hone _) hu e
      · simpa [portion, hup, hk, hk.symm] using hs k
  | @remove _ x rest hup =>
      rcases eq_or_ne k x with rfl | hk
      · have hu : (portion key k a).up = .leave k :: rest.filter fun c => c.subject key = k := by
          simp [portion, hup]
        have hb : (if (a.table k).isSome then Function.update a.bound k [] else a.bound) k = [] := by
          split_ifs with htab
          · simp
          · exact (hs k).bound_free (Option.not_isSome_iff_eq_none.mp htab)
        simpa [portion, hb] using (hs k).remove hu
      · have hb : (if (a.table x).isSome then Function.update a.bound x [] else a.bound) k
            = a.bound k := by
          split_ifs <;> simp [hk]
        simpa [portion, hup, hk, hk.symm, hb] using hs k

end

end Enrol

end Eggtunnel
