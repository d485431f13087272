import Polling.Proofs.Store.Replacement

namespace Polling

namespace Configuration

theorem packageDefect?_eq_none {seen : List String} {ps : List Package} :
    packageDefect? seen ps = none ↔
      (∀ p ∈ ps, ¬ Text.AllBlank p.name) ∧ (ps.map Package.name).Nodup ∧
        ∀ p ∈ ps, p.name ∉ seen := by
  induction ps generalizing seen with
  | nil => simp [packageDefect?]
  | cons p ps ih =>
    rw [packageDefect?]
    by_cases blank : Text.AllBlank p.name
    · simp [blank]
    · by_cases known : p.name ∈ seen
      · simp [blank, known]
      · simp only [blank, known, if_false, ih, List.mem_cons, List.map_cons, List.nodup_cons,
          List.mem_map, not_or, not_exists, not_and, forall_eq_or_imp, not_false_eq_true, true_and]
        -- The name of the first package is new among the others, or they are apart from it.
        constructor
        · rintro ⟨named, apart, others⟩
          exact ⟨named, ⟨fun q hq => (others q hq).1, apart⟩, fun q hq => (others q hq).2⟩
        · rintro ⟨named, ⟨first, apart⟩, others⟩
          exact ⟨named, apart, fun q hq => ⟨first q hq, others q hq⟩⟩

/-- The check finds no defect exactly in a valid configuration. -/
theorem defect?_eq_none {c : Configuration} : c.defect? = none ↔ c.Valid := by
  rw [defect?]
  cases hp : packageDefect? [] c.packages with
  | some d =>
    have defective : packageDefect? [] c.packages ≠ none := by simp [hp]
    rw [Ne, packageDefect?_eq_none] at defective
    simp only [reduceCtorEq, false_iff]
    exact fun h => defective ⟨h.named, h.nodup, by simp⟩
  | none =>
    obtain ⟨named, nodup, -⟩ := packageDefect?_eq_none.1 hp
    simp only [Option.map_eq_none_iff, List.find?_eq_none, decide_eq_true_eq]
    exact ⟨fun monitors => ⟨named, nodup, monitors⟩, Valid.monitors⟩

theorem package?_eq_none {c : Configuration} {name : String} :
    c.package? name = none ↔ name ∉ c.packages.map Package.name := by
  simp [package?]

theorem of_package?_eq_some {c : Configuration} {name : String} {p : Package}
    (h : c.package? name = some p) : p ∈ c.packages ∧ p.name = name := by
  have same := List.find?_some h
  exact ⟨List.mem_of_find?_eq_some h, of_decide_eq_true same⟩

/-- A further package of a new name leaves the names apart. -/
theorem nodup_append_package {c : Configuration} (h : (c.packages.map Package.name).Nodup)
    {p : Package} (new : c.package? p.name = none) :
    ((c.packages ++ [p]).map Package.name).Nodup := by
  rw [package?_eq_none] at new
  rw [List.map_append, List.nodup_append]
  refine ⟨h, by simp, ?_⟩
  rintro a ha b hb rfl
  rw [List.map_singleton, List.mem_singleton] at hb
  exact new (hb ▸ ha)

/-- A further package keeps a configuration valid if it has a name and no other has it. -/
theorem valid_append_package {c : Configuration} (h : c.Valid) (p : Package) :
    { c with packages := c.packages ++ [p] }.Valid ↔
      ¬ Text.AllBlank p.name ∧ c.package? p.name = none := by
  constructor
  · intro v
    have nodup := v.nodup
    rw [List.map_append, List.nodup_append] at nodup
    refine ⟨v.named p (by simp), package?_eq_none.2 fun known => ?_⟩
    exact nodup.2.2 _ known _ (by simp) rfl
  · rintro ⟨named, new⟩
    refine ⟨?_, nodup_append_package h.nodup new, h.monitors⟩
    intro q hq
    rcases List.mem_append.1 hq with hq | hq
    · exact h.named q hq
    · rwa [List.mem_singleton.1 hq]

theorem valid_append_monitor {c : Configuration} (h : c.Valid) (m : Monitor) :
    { c with monitors := c.monitors ++ [m] }.Valid ↔ ¬ Text.AllBlank m.service := by
  constructor
  · exact fun v => v.monitors m (by simp)
  · intro named
    refine ⟨h.named, h.nodup, fun q hq => ?_⟩
    rcases List.mem_append.1 hq with hq | hq
    · exact h.monitors q hq
    · rwa [List.mem_singleton.1 hq]

end Configuration

namespace Store

open Poller (final final_of_ok)

variable {s t u : Store} {c : Configuration}

inductive Request where
  | addPackage (p : Package)
  | addMonitor (m : Monitor)
  | reload
  | save
  | rebuild

namespace Request

def meet : Request → StoreM Unit
  | addPackage p => Store.addPackage p
  | addMonitor m => modify (Store.addMonitor m)
  | reload => Store.reload
  | save => Store.save
  | rebuild => modify Store.rebuild

/-- A package that is added has a name, and a monitor that is added names its service. -/
def Named : Request → Prop
  | addPackage p => ¬ Text.AllBlank p.name
  | addMonitor m => ¬ Text.AllBlank m.service
  | _ => True

instance (r : Request) : Decidable r.Named :=
  match r with
  | addPackage p => inferInstanceAs (Decidable (¬ Text.AllBlank p.name))
  | addMonitor m => inferInstanceAs (Decidable (¬ Text.AllBlank m.service))
  | reload | save | rebuild => isTrue trivial

/-- The request puts a configuration in force: it is a reload or a save, and it succeeds. -/
def Resolves : Request → Store → Prop
  | reload, s => ∃ t, Store.reload s = .ok () t
  | save, s => ∃ t, Store.save s = .ok () t
  | _, _ => False

end Request

def run (s : Store) (requests : List Request) : Store :=
  requests.foldl (fun s r => final r.meet s) s

/-- What is in force has no defect, and once it is stored it is saved and a new store can be
opened. -/
structure Sound (s : Store) : Prop where
  checked : s.active.configuration.defect? = none
  saved : ∀ u, persist s.active.configuration.render s = .ok () u →
    ∃ t v, save s = .ok () t ∧ t.load = .ok v

/-- Only a valid configuration is read. -/
theorem valid_of_read (h : s.read = .ok c) : c.Valid := by
  cases hd : s.document with
  | error e =>
    rw [read, hd] at h
    cases h
  | ok text =>
    rw [read_of_document hd] at h
    split at h
    · cases h
    · split at h
      · cases h
      · next sound =>
        cases h
        exact Configuration.defect?_eq_none.1 sound

theorem valid_load (h : s.load = .ok t) : t.active.configuration.Valid := by
  obtain ⟨c, read, rfl⟩ := eq_install_of_load h
  exact valid_of_read read

/-- A valid configuration is accepted back when it was stored. -/
theorem sound_iff : s.Sound ↔ s.active.configuration.Valid := by
  rw [← Configuration.defect?_eq_none]
  refine ⟨Sound.checked, fun checked => ⟨checked, fun u hu => ?_⟩⟩
  have saved := save_of_ok rfl hu
  rw [checked] at saved
  obtain ⟨v, opened, -⟩ := (current_save saved).1
  exact ⟨_, v, saved, opened⟩

/-- Whatever comes of a save, the configuration is the same. -/
theorem configuration_final_save (s : Store) :
    (final save s).active.configuration = s.active.configuration := by
  cases hs : save s with
  | error e t =>
    rw [final, hs]
    exact congrArg Active.configuration (active_save_error hs)
  | ok _ t =>
    obtain ⟨u, -, -, rfl⟩ := save_eq_ok hs
    rw [final_of_ok hs]
    rfl

/-- A package that is added and was not there is the last one. -/
theorem addPackage_of_new {p : Package} (h : s.active.configuration.package? p.name = none) :
    addPackage p s = .ok () { s with active.configuration :=
      { s.active.configuration with packages := s.active.configuration.packages ++ [p] } } := by
  rw [addPackage, h]
  rfl

theorem addPackage_of_known {p : Package}
    (h : (s.active.configuration.package? p.name).isSome) :
    addPackage p s = .error (.invalid (Defect.duplicatePackage p.name).message) s := by
  rw [addPackage, if_pos h]

/-- What comes of a request: it leaves what is in force, appends to it, puts a configuration in
force or builds the caches again. -/
inductive Outcome (s : Store) : Request → Store → Prop where
  | kept {r : Request} {t : Store} : t.active = s.active → Outcome s r t
  | packageAdded {p : Package} {t : Store} : s.active.configuration.package? p.name = none →
      addPackage p s = .ok () t → Outcome s (.addPackage p) t
  | monitorAdded (m : Monitor) : Outcome s (.addMonitor m) (s.addMonitor m)
  | installed {r : Request} (t : Store) (c : Configuration) :
      r.Resolves s → c.Valid → Outcome s r (t.install c)
  | rebuilt : Outcome s .rebuild s.rebuild

theorem outcome_meet (r : Request) (s : Store) : s.Outcome r (final r.meet s) := by
  cases r with
  | addPackage p =>
    rw [Request.meet]
    cases hp : s.active.configuration.package? p.name with
    | none =>
      have done := addPackage_of_new hp
      rw [final_of_ok done]
      exact .packageAdded hp done
    | some q =>
      rw [final, addPackage_of_known (by rw [hp]; rfl)]
      exact .kept rfl
  | addMonitor m => exact .monitorAdded m
  | reload =>
    rw [Request.meet]
    cases hr : s.read with
    | ok c =>
      have done := reload_of_ok hr
      rw [final_of_ok done]
      exact .installed s c ⟨_, done⟩ (valid_of_read hr)
    | error e =>
      rw [final, reload_of_error hr]
      exact .kept rfl
  | save =>
    rw [Request.meet]
    cases hs : save s with
    | error e t =>
      rw [final, hs]
      exact .kept (active_save_error hs)
    | ok _ t =>
      obtain ⟨u, -, sound, rfl⟩ := save_eq_ok hs
      rw [final_of_ok hs]
      exact .installed u _ ⟨_, hs⟩ (Configuration.defect?_eq_none.1 sound)
  | rebuild => exact .rebuilt

theorem addPackage_eq_ok {p : Package} (h : addPackage p s = .ok () t) :
    s.active.configuration.package? p.name = none ∧
      t = { s with active.configuration :=
        { s.active.configuration with packages := s.active.configuration.packages ++ [p] } } := by
  cases hp : s.active.configuration.package? p.name with
  | none =>
    rw [addPackage_of_new hp] at h
    cases h
    exact ⟨rfl, rfl⟩
  | some q =>
    rw [addPackage_of_known (by rw [hp]; rfl)] at h
    cases h

/-- Where what is in force is valid, a request keeps it so unless it adds something nameless. -/
theorem valid_meet_iff (h : s.active.configuration.Valid) (r : Request) :
    (final r.meet s).active.configuration.Valid ↔ r.Named := by
  cases r with
  | addPackage p =>
    change (final (addPackage p) s).active.configuration.Valid ↔ ¬ Text.AllBlank p.name
    cases hp : s.active.configuration.package? p.name with
    | none =>
      rw [final_of_ok (addPackage_of_new hp), Configuration.valid_append_package h, hp]
      simp
    | some q =>
      -- The package that is there already has the name, so the name is not blank.
      have named : ¬ Text.AllBlank p.name := by
        obtain ⟨known, same⟩ := Configuration.of_package?_eq_some hp
        rw [← same]
        exact h.named q known
      rw [final, addPackage_of_known (by rw [hp]; rfl)]
      exact iff_of_true h named
  | addMonitor m => exact Configuration.valid_append_monitor h m
  | reload =>
    refine iff_of_true ?_ trivial
    rw [Request.meet]
    cases hr : s.read with
    | ok c =>
      rw [final_of_ok (reload_of_ok hr)]
      exact valid_of_read hr
    | error e =>
      rw [final, reload_of_error hr]
      exact h
  | save =>
    refine iff_of_true ?_ trivial
    rw [Request.meet, configuration_final_save]
    exact h
  | rebuild => exact iff_of_true h trivial

theorem sound_run_iff (h : s.active.configuration.Valid) (requests : List Request) :
    (∀ first, first <+: requests → (s.run first).Sound) ↔ ∀ r ∈ requests, r.Named := by
  -- After a nameless request the store is not sound, and until then the next one finds it valid.
  induction requests generalizing s with
  | nil =>
    simp only [List.prefix_nil, forall_eq, List.not_mem_nil, false_implies, implies_true, iff_true]
    exact sound_iff.2 h
  | cons r requests ih =>
    rw [List.forall_mem_cons]
    constructor
    · intro sound
      have named : r.Named :=
        (valid_meet_iff h r).1 (sound_iff.1 (sound [r] (List.prefix_iff_eq_take.2 rfl)))
      refine ⟨named, (ih ((valid_meet_iff h r).2 named)).1 fun first hf => ?_⟩
      exact sound (r :: first) (List.cons_prefix_cons.2 ⟨rfl, hf⟩)
    · rintro ⟨named, later⟩ first hf
      cases first with
      | nil => exact sound_iff.2 h
      | cons q first =>
        obtain ⟨rfl, rest⟩ := List.cons_prefix_cons.1 hf
        exact (ih ((valid_meet_iff h q).2 named)).2 later first rest

/-- From the load of a store on, what is in force can be stored without harm as long as nothing
nameless is added, and no longer. -/
theorem sound_throughout_iff (h : s.load = .ok t) (requests : List Request) :
    (∀ first, first <+: requests → (t.run first).Sound) ↔ ∀ r ∈ requests, r.Named :=
  sound_run_iff (valid_load h) requests

/-- With a monitor for ICMP the document can be saved. With a monitor for no service it cannot, and
the document that was stored all the same cannot be loaded. -/
theorem opened_spoilt_by_nameless_monitor :
    ∃ t, Sample.opened.load = .ok t ∧
      (∀ first, first <+: [.addMonitor ⟨"ICMP", "icmp"⟩, .save] → (t.run first).Sound) ∧
      (¬ ∀ first, first <+: [.addMonitor ⟨" ", "icmp"⟩] → (t.run first).Sound) ∧
      ∃ e u, save (t.run [.addMonitor ⟨" ", "icmp"⟩]) = .error e u ∧ u.load = .error e := by
  have found : Sample.opened.read = .ok Sample.held :=
    read_of_parse rfl (Configuration.parse?_write (.lines 0) Sample.held)
  have loaded : Sample.opened.load = .ok (Sample.opened.install Sample.held) := by
    rw [load_eq, found]
    rfl
  refine ⟨_, loaded, ?_, ?_, ?_⟩
  · exact (sound_throughout_iff loaded _).2 (by decide)
  · rw [sound_throughout_iff loaded]
    decide
  · have stored : persist Sample.spoilt.active.configuration.render
        (Sample.opened.install Sample.held |>.run [.addMonitor ⟨" ", "icmp"⟩]) = .ok () _ := rfl
    have found := read_persist stored
    refine ⟨_, _, save_of_ok rfl stored, ?_⟩
    rw [load_eq, found]
    rfl

end Store

end Polling
