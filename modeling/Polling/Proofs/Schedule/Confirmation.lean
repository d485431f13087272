import Polling.Proofs.Schedule.Expulsion

namespace Polling.Schedule

variable {s t u : Schedule}

/-- Every node is known as before, or not at all. -/
def KeepsInfo (s t : Schedule) : Prop := ∀ m, t.node? m = none ∨ t.node? m = s.node? m

theorem KeepsInfo.refl (s : Schedule) : KeepsInfo s s := fun _ => .inr rfl

theorem KeepsInfo.trans (h : KeepsInfo s t) (k : KeepsInfo t u) : KeepsInfo s u := by
  intro m
  rcases k m with hn | hk
  · exact .inl hn
  · rw [hk]
    exact h m

/-- Where nodes are known by their keys, the keys tell whether a node is left. -/
theorem Trim.node?_of_kept (ht : t.Trim) {m : NodeId}
    (h : t.node? m = none ∨ t.node? m = s.node? m) :
    t.node? m = if t.Tracks (.node m) then s.node? m else none := by
  split
  · next hk =>
    have known := (ht m).2 hk
    rcases h with hn | he
    · rw [hn] at known
      cases known
    · exact he
  · next hk => exact Option.not_isSome_iff_eq_none.1 (mt (ht m).1 hk)

/-- A node that is left with a key is known as before. -/
theorem Trim.node?_of_tracks_iff (hs : s.Trim) (ht : t.Trim) {m : NodeId}
    (h : t.node? m = none ∨ t.node? m = s.node? m)
    (same : t.Tracks (.node m) ↔ s.Tracks (.node m)) : t.node? m = s.node? m := by
  rw [ht.node?_of_kept h]
  split
  · rfl
  · next hk => exact (Option.not_isSome_iff_eq_none.1 (mt (hs m).1 (mt same.2 hk))).symm

theorem keepsInfo_prune (s : Schedule) (node : NodeId) : KeepsInfo s (s.prune node) := by
  intro m
  rw [node?_prune]
  split
  · exact .inl rfl
  · exact .inr rfl

theorem keepsInfo_drop (s : Schedule) (scope : Scope) : KeepsInfo s (s.drop scope) := by
  unfold drop
  exact keepsInfo_prune _ scope.owner

theorem keepsInfo_foldl_drop (s : Schedule) (scopes : List Scope) :
    KeepsInfo s (scopes.foldl drop s) := by
  induction scopes generalizing s with
  | nil => exact .refl s
  | cons scope scopes ih => exact (keepsInfo_drop s scope).trans (ih _)

theorem keepsInfo_carriedOut (s : Schedule) (scopes : List Scope) :
    KeepsInfo s (s.carriedOut scopes) :=
  keepsInfo_foldl_drop { s with queue := [] } scopes

theorem keepsInfo_settle (s : Schedule) : KeepsInfo s s.settle := by
  rw [settle_eq]
  exact keepsInfo_carriedOut s s.queue

theorem keepsInfo_delete (s : Schedule) (scope : Scope) :
    KeepsInfo s (s.act (.delete scope)) :=
  fun m => .inr (node?_act_delete s scope m)

theorem keepsInfo_reparent (s : Schedule) (address : Address) (source target : NodeId) :
    KeepsInfo s (s.act (.reparent address source target)) := by
  apply after_induction (.refl s)
  intro t ht
  rcases reparent_cases ht with ⟨-, -, -, ⟨-, rfl⟩ | ⟨-, rfl⟩⟩
  · exact .refl t
  · exact keepsInfo_prune _ source

theorem keepsInfo_expel (s : Schedule) (key : ServiceKey) : KeepsInfo s (s.expel key) := by
  unfold expel
  split
  · exact (keepsInfo_delete s _).trans (keepsInfo_settle _)
  · exact .refl s

theorem keepsInfo_expelAll (s : Schedule) (keys : List ServiceKey) :
    KeepsInfo s (s.expelAll keys) := by
  induction keys generalizing s with
  | nil => exact .refl s
  | cons key keys ih => exact (keepsInfo_expel s key).trans (ih _)

theorem node?_act_add_of_ne (s : Schedule) {key : ServiceKey} (info : NodeInfo) {m : NodeId}
    (hm : key.node ≠ m) : (s.act (.add key info)).node? m = s.node? m := by
  rw [act]
  cases ha : s.add? key info with
  | none => rfl
  | some t => exact (node?_of_add? ha m).trans (if_neg hm.symm)

/-- Keys that are added change nothing on other nodes. -/
theorem node?_addAll_of_ne (s : Schedule) (info : NodeInfo) {keys : List ServiceKey} {m : NodeId}
    (hm : ∀ key ∈ keys, key.node ≠ m) : (s.addAll info keys).node? m = s.node? m := by
  induction keys generalizing s with
  | nil => rfl
  | cons key keys ih =>
    have first := s.node?_act_add_of_ne info (hm key List.mem_cons_self)
    have rest := ih (s.act (.add key info)) fun k hk => hm k (List.mem_cons_of_mem _ hk)
    exact rest.trans first

theorem Trim.carriedOut (h : s.Trim) (scopes : List Scope) : (s.carriedOut scopes).Trim :=
  Trim.foldl_drop (s := { s with queue := [] }) h scopes

/-- The nodes that are left are known as before. -/
theorem Trim.node?_carriedOut (h : s.Trim) (scopes : List Scope) (m : NodeId) :
    (s.carriedOut scopes).node? m =
      if (s.carriedOut scopes).Tracks (.node m) then s.node? m else none :=
  (h.carriedOut scopes).node?_of_kept (keepsInfo_carriedOut s scopes m)

def Quiet (s : Schedule) : Prop := ∀ key, s.mark? key ≠ some .pendingDelete

instance (s : Schedule) : Decidable s.Quiet :=
  decidable_of_iff (∀ key ∈ s.keys, s.mark? key ≠ some .pendingDelete) <| by
    constructor
    · exact fun h key hk => h key (mem_keys.2 (Option.isSome_of_eq_some hk)) hk
    · exact fun h key _ => h key

theorem quiet_settle (h : s.Covered) : s.settle.Quiet := by
  intro key hk
  rw [mark?_settle h, Option.filter_eq_some_iff] at hk
  simp at hk

theorem Quiet.eq_scheduled (h : s.Quiet) {key : ServiceKey} (hk : (s.mark? key).isSome) :
    s.mark? key = some .scheduled := by
  obtain ⟨mark, hm⟩ := Option.isSome_iff_exists.1 hk
  cases mark with
  | scheduled => exact hm
  | pendingDelete => exact absurd hm (h key)

theorem Quiet.filter_mark? (h : s.Quiet) (key : ServiceKey) :
    (s.mark? key).filter (· = .scheduled) = s.mark? key :=
  filter_of_not_pending (by simp) (h key)

/-- With no removal pending the worker drops no key. -/
theorem Quiet.mark?_settle (h : s.Quiet) (hc : s.Covered) (key : ServiceKey) :
    s.settle.mark? key = s.mark? key := by
  rw [Schedule.mark?_settle hc, h.filter_mark?]

theorem Quiet.node?_settle (h : s.Quiet) (hc : s.Covered) (ht : s.Trim) (m : NodeId) :
    s.settle.node? m = s.node? m := by
  apply ht.node?_of_tracks_iff ht.settle (keepsInfo_settle s m)
  apply tracks_congr
  intro key _
  rw [h.mark?_settle hc]

theorem Quiet.reparent (h : s.Quiet) (address : Address) (source target : NodeId) :
    (s.act (.reparent address source target)).Quiet := by
  intro key
  rw [mark?_act_reparent]
  split
  · split
    · simp
    · split
      · simp
      · exact h key
  · exact h key

theorem Quiet.setLabel (h : s.Quiet) (node : NodeId) (label : String) :
    (s.act (.setLabel node label)).Quiet := by
  intro key
  rw [mark?_act_setLabel]
  exact h key

end Polling.Schedule
