import Polling.Proofs.Engine.Calls

namespace Polling

/-- What an operation does to the poller, one step at a time. -/
inductive Effect where
  /-- A call uses up a part of the fault plan. -/
  | met (call : Call)
  | acted (action : Schedule.Action)
  | closed (scope : Scope) (closure : Closure)
  | stored (store : Store)
  | announced (a : Announcement)

namespace Poller

def after (s : Poller) : Effect → Poller
  | .met call => { s with faults := (s.faults.next call).2 }
  | .acted action => { s with schedule := s.schedule.act action }
  | .closed scope c => { s with outages := s.outages.close scope c }
  | .stored store => { s with store }
  | .announced a => { s with sent := s.sent ++ [a] }

/-- The state in which an operation ends, also when it fails. -/
def final {ε σ α : Type} (x : EStateM ε σ α) (s : σ) : σ :=
  match x s with
  | .ok _ t => t
  | .error _ t => t

theorem final_of_ok {ε σ α : Type} {x : EStateM ε σ α} {s t : σ} {a : α} (h : x s = .ok a t) :
    final x s = t := by
  rw [final, h]

theorem final_of_error {ε σ α : Type} {x : EStateM ε σ α} {s t : σ} {e : ε}
    (h : x s = .error e t) : final x s = t := by
  rw [final, h]

/-- The operation has such effects only, also when it fails. -/
def Within (E : Effect → Prop) {ε α : Type} (x : EStateM ε Poller α) : Prop :=
  ∀ s, ∃ effects : List Effect, (∀ e ∈ effects, E e) ∧ final x s = effects.foldl after s

def Returns {ε α : Type} (x : EStateM ε Poller α) (Q : α → Prop) : Prop :=
  ∀ s a t, x s = .ok a t → Q a

section Operations

variable {ε ε' α β : Type} {x : EStateM ε Poller α} {f : α → EStateM ε Poller β}
  {E E' : Effect → Prop} {Q : α → Prop}

/-- An operation with one effect, or with none. -/
theorem Within.of_final (h : ∀ s, final x s = s ∨ ∃ e, E e ∧ final x s = s.after e) :
    Within E x := by
  intro s
  rcases h s with hs | ⟨e, he, hs⟩
  · exact ⟨[], by simp, hs⟩
  · exact ⟨[e], by simpa, hs⟩

theorem Within.pure (a : α) : Within E (pure a : EStateM ε Poller α) := fun _ => ⟨[], by simp, rfl⟩

theorem Within.throw (e : ε) : Within E (throw e : EStateM ε Poller α) :=
  fun _ => ⟨[], by simp, rfl⟩

theorem Within.get : Within E (get : EStateM ε Poller Poller) := fun _ => ⟨[], by simp, rfl⟩

/-- The second part of an operation may rely on what the first gives. -/
theorem Within.bind_of (hx : Within E x) (hq : Returns x Q) (hf : ∀ a, Q a → Within E (f a)) :
    Within E (x >>= f) := by
  intro s
  obtain ⟨first, hfirst, hs⟩ := hx s
  cases hr : x s with
  | ok a t =>
    rw [final_of_ok hr] at hs
    obtain ⟨second, hsecond, ht⟩ := hf a (hq s a t hr) t
    refine ⟨first ++ second, ?_, ?_⟩
    · intro e he
      exact (List.mem_append.1 he).elim (hfirst e) (hsecond e)
    · rw [final, bind_of_ok hr, List.foldl_append, ← hs]
      exact ht
  | error e t =>
    rw [final_of_error hr] at hs
    exact ⟨first, hfirst, (final_of_error (bind_of_error hr)).trans hs⟩

theorem Within.bind (hx : Within E x) (hf : ∀ a, Within E (f a)) : Within E (x >>= f) :=
  hx.bind_of (Q := fun _ => True) (fun _ _ _ _ => trivial) fun a _ => hf a

theorem Within.mono (hx : Within E x) (h : ∀ e, E e → E' e) : Within E' x := by
  intro s
  obtain ⟨effects, he, hs⟩ := hx s
  exact ⟨effects, fun e hm => h e (he e hm), hs⟩

theorem final_attempt (s : Poller) : final (attempt x : EStateM ε' Poller _) s = final x s := by
  cases hr : x s with
  | ok a t => rw [final_of_ok hr, final_of_ok (attempt_of_ok hr)]
  | error e t => rw [final_of_error hr, final_of_ok (attempt_of_error hr)]

theorem final_discard (s : Poller) : final (discard x) s = final x s := by
  cases hr : x s with
  | ok a t => rw [final_of_ok hr, final_of_ok (discard_of_ok hr)]
  | error e t => rw [final_of_error hr, final_of_error (discard_of_error hr)]

theorem final_lift (x : CallM α) (s : Poller) : final (liftM x : EngineM α) s = final x s := by
  cases hr : x s with
  | ok a t => rw [final_of_ok hr, final_of_ok (lift_of_ok hr)]
  | error e t => rw [final_of_error hr, final_of_error (lift_of_error hr)]

theorem Within.attempt (hx : Within E x) : Within E (attempt x : EStateM ε' Poller _) := by
  intro s
  rw [final_attempt]
  exact hx s

theorem Within.discard (hx : Within E x) : Within E (discard x) := by
  intro s
  rw [final_discard]
  exact hx s

theorem Within.lift {x : CallM α} (hx : Within E x) : Within E (liftM x : EngineM α) := by
  intro s
  rw [final_lift]
  exact hx s

theorem Returns.pure {a : α} (h : Q a) : Returns (pure a : EStateM ε Poller α) Q := by
  intro s b t hb
  cases hb
  exact h

theorem Returns.throw (e : ε) : Returns (throw e : EStateM ε Poller α) Q := by
  intro s a t ha
  cases ha

theorem Returns.bind {Q : β → Prop} (hf : ∀ a, Returns (f a) Q) : Returns (x >>= f) Q := by
  intro s b u hb
  obtain ⟨a, t, -, ha⟩ := bind_eq_ok hb
  exact hf a t b u ha

theorem Returns.lift {x : CallM α} (hx : Returns x Q) : Returns (liftM x : EngineM α) Q :=
  fun s a t ha => hx s a t (lift_eq_ok ha)

/-- Where every effect leads to a later state in some sense, a list of them does. -/
theorem foldl_leads {R : Poller → Poller → Prop} {effects : List Effect} (he : ∀ e ∈ effects, E e)
    (refl : ∀ s, R s s) (trans : ∀ {s t u}, R s t → R t u → R s u)
    (step : ∀ s e, E e → R s (s.after e)) (s : Poller) : R s (effects.foldl after s) := by
  induction effects generalizing s with
  | nil => exact refl s
  | cons e effects ih =>
    have rest := ih (fun e' h => he e' (List.mem_cons_of_mem _ h)) (s.after e)
    exact trans (step s e (he e List.mem_cons_self)) rest

/-- So does an operation. -/
theorem Within.leads {R : Poller → Poller → Prop} (hx : Within E x) (refl : ∀ s, R s s)
    (trans : ∀ {s t u}, R s t → R t u → R s u) (step : ∀ s e, E e → R s (s.after e))
    (s : Poller) : R s (final x s) := by
  obtain ⟨effects, he, hs⟩ := hx s
  rw [hs]
  exact foldl_leads he refl trans step s

end Operations

section Calls

variable {E : Effect → Prop}

theorem within_meet (call : Call) (h : E (.met call)) : Within E call.meet := by
  refine .of_final fun s => .inr ⟨_, h, ?_⟩
  rw [after]
  unfold final Call.meet
  cases hn : s.faults.next call with
  | mk e faults => cases e <;> rfl

theorem within_ask {α : Type} {call : Call} (f : Poller → α) (h : E (.met call)) :
    Within E (call.ask f) :=
  .bind (within_meet call h) fun _ => .bind .get fun _ => .pure _

theorem returns_ask {α : Type} (call : Call) {f : Poller → α} {Q : α → Prop} (h : ∀ s, Q (f s)) :
    Returns (call.ask f) Q :=
  .bind fun _ => .bind fun s => .pure (h s)

/-- What a call that only reads gives back is read from a state in which no more than the fault plan
has changed. -/
theorem ask_eq_ok {α : Type} {s t : Poller} {call : Call} {f : Poller → α}
    {a : α} (h : call.ask f s = .ok a t) : a = f t ∧ ∃ faults, t = { s with faults } := by
  obtain ⟨_, u, hm, h⟩ := bind_eq_ok h
  cases h
  refine ⟨rfl, ?_⟩
  unfold Call.meet at hm
  split at hm
  · cases hm
    exact ⟨_, rfl⟩
  · cases hm

/-- A call that changes the schedule by an action, if it does not fail, has the effect of it. -/
theorem within_change {call : Call} {action : Schedule.Action}
    {f : Schedule → Except CallError Schedule} (h : ∀ s t, f s = .ok t → t = s.act action)
    (hm : E (.met call)) (ha : E (.acted action)) : Within E (call.change f) := by
  refine .bind (within_meet call hm) fun _ => .of_final fun s => ?_
  rw [final, bind_of_ok (get_eq s)]
  cases hf : f s.schedule with
  | ok changed =>
    cases h _ _ hf
    exact .inr ⟨_, ha, rfl⟩
  | error e => exact .inl rfl

theorem within_delete {scope : Scope} (hm : E (.met (.delete scope)))
    (ha : E (.acted (.delete scope))) : Within E (delete scope) := by
  refine within_change (fun s t ht => ?_) hm ha
  rw [Schedule.act, ht]
  rfl

theorem within_reparent {address : Address} {source target : NodeId} (hm : E (.met .reparent))
    (ha : E (.acted (.reparent address source target))) :
    Within E (reparent address source target) := by
  refine within_change (fun s t ht => ?_) hm ha
  rw [Schedule.act, ht]
  rfl

theorem within_setLabel {node : NodeId} {label : String} (hm : E (.met .setLabel))
    (ha : E (.acted (.setLabel node label))) : Within E (setLabel node label) := by
  refine within_change (fun s t ht => ?_) hm ha
  rw [Schedule.act, ht]
  rfl

theorem within_addToSchedule {key : ServiceKey} {info : NodeInfo} (hm : E (.met .schedule))
    (ha : E (.acted (.add key info))) : Within E (addToSchedule key info) := by
  refine .bind (within_meet .schedule hm) fun _ => .of_final fun s => ?_
  rw [final, bind_of_ok (get_eq s)]
  cases hs : s.schedule.add? key info with
  | none => exact .inl rfl
  | some schedule =>
    refine .inr ⟨_, ha, ?_⟩
    rw [after, Schedule.act, hs]
    rfl

theorem within_closeOutages {scope : Scope} {n : Notification}
    (hm : E (.met (.closeOutages scope))) (hc : E (.closed scope ⟨n.time, n.id⟩)) :
    Within E (closeOutages scope n) :=
  .bind (within_meet _ hm) fun _ => .of_final fun _ => .inr ⟨_, hc, rfl⟩

theorem within_announce {a : Announcement} (hm : E (.met .announce)) (ha : E (.announced a)) :
    Within E (announce a) :=
  .bind (within_meet _ hm) fun _ => .of_final fun _ => .inr ⟨_, ha, rfl⟩

theorem within_onStore {α : Type} (x : StoreM α) (h : ∀ store, E (.stored store)) :
    Within E (onStore x) := by
  refine .of_final fun s => .inr ⟨_, h (final x s.store), ?_⟩
  rw [after]
  unfold final onStore
  cases x s.store <;> rfl

end Calls

end Poller

end Polling
