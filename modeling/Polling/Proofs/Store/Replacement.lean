import Polling.Proofs.Document.Configuration
import Polling.Proofs.Engine.Orderly
import Polling.Store.Queries

namespace Polling

namespace Store

open Poller (final final_of_ok)

variable {s t : Store} {c : Configuration} {e : ConfigError} {text : String}

/-- A store newly opened on the same source, with the same collaborators, has the same configuration
in force with the same registry and the same caches. -/
def Current (s : Store) : Prop := ∃ t, s.load = .ok t ∧ t.active = s.active

/-- Apart from what they hold and where they read it, the stores work with the same things. -/
structure SameCollaborators (s t : Store) : Prop where
  options : t.options = s.options
  catalog : t.catalog = s.catalog
  relativeLists : t.relativeLists = s.relativeLists
  evaluate : t.filters.evaluate = s.filters.evaluate

theorem load_eq (s : Store) : s.load = s.read.map s.install := rfl

theorem eq_install_of_load (h : s.load = .ok t) : ∃ c, s.read = .ok c ∧ t = s.install c := by
  rw [load_eq] at h
  cases hr : s.read with
  | error e =>
    rw [hr] at h
    cases h
  | ok c =>
    rw [hr] at h
    cases h
    exact ⟨c, rfl, rfl⟩

theorem reload_of_ok (h : s.read = .ok c) : reload s = .ok () (s.install c) := by
  rw [reload, h]

theorem reload_of_error (h : s.read = .error e) : reload s = .error e s := by
  rw [reload, h]

theorem reload_eq_ok (h : reload s = .ok () t) : ∃ c, s.read = .ok c ∧ t = s.install c := by
  cases hr : s.read with
  | ok c =>
    rw [reload_of_ok hr] at h
    cases h
    exact ⟨c, rfl, rfl⟩
  | error e =>
    rw [reload_of_error hr] at h
    cases h

/-- A store holds after a reload what a new one would hold. -/
theorem current_install (h : s.read = .ok c) : (s.install c).Current := by
  refine ⟨(s.install c).install c, ?_, rfl⟩
  -- To put a configuration in force changes nothing of what it is read from.
  have again : (s.install c).read = .ok c := h
  rw [load_eq, again]
  rfl

theorem sameCollaborators_install (s : Store) (c : Configuration) :
    s.SameCollaborators (s.install c) :=
  ⟨rfl, rfl, rfl, rfl⟩

theorem read_of_document (h : s.document = .ok text) :
    s.read = match Configuration.parse? text with
      | none => .error (.malformed "not a configuration")
      | some c => match c.defect? with
        | some d => .error (.invalid d.message)
        | none => .ok c := by
  rw [read, h]
  change (match Configuration.parse? text with
    | none => throw _
    | some c => match c.defect? with
      | some d => throw _
      | none => pure c) = _
  cases Configuration.parse? text with
  | none => rfl
  | some c =>
    dsimp only
    cases c.defect? <;> rfl

/-- What is read is decided by the configuration that the document holds. -/
theorem read_of_parse (hd : s.document = .ok text) (hp : Configuration.parse? text = some c) :
    s.read = match c.defect? with
      | some d => .error (.invalid d.message)
      | none => .ok c := by
  rw [read_of_document hd, hp]

theorem document_persist (h : persist text s = .ok () t) : t.document = .ok text := by
  unfold persist at h
  split at h
  · split at h
    · cases h
    · cases h
      rfl
  · next path hs =>
    split at h
    · next directory hr =>
      cases h
      rw [document, hs]
      change (directory.read path).mapError _ = _
      rw [Directory.read_replace hr]
      rfl
    · cases h

/-- To store a text, whether it succeeds or not, changes at most the source. -/
theorem final_persist (text : String) (s : Store) :
    ∃ source directory, final (persist text) s = { s with source, directory } := by
  unfold final persist
  cases hs : s.source with
  | memory m =>
    by_cases hm : m.readOnly
    · simp only [hm, if_true]
      exact ⟨_, _, rfl⟩
    · simp only [hm]
      exact ⟨_, _, rfl⟩
  | file path =>
    cases hr : s.directory.replace path text with
    | mk result directory =>
      cases result with
      | error detail =>
        simp only [hr]
        exact ⟨_, _, rfl⟩
      | ok _ =>
        simp only [hr]
        exact ⟨_, _, rfl⟩

/-- A configuration that was stored is what is read, unless it has a defect. -/
theorem read_persist (h : persist c.render s = .ok () t) :
    t.read = match c.defect? with
      | some d => .error (.invalid d.message)
      | none => .ok c :=
  read_of_parse (document_persist h) (Configuration.parse?_write (.lines 0) c)

theorem save_of_error (h : persist s.active.configuration.render s = .error e t) :
    save s = .error e t := by
  rw [save, bind_of_ok (get_eq s), bind_of_error h]

/-- A configuration that was stored is put in force if it has no defect. -/
theorem save_of_ok (hc : s.active.configuration = c) (h : persist c.render s = .ok () t) :
    save s = match c.defect? with
      | some d => .error (.invalid d.message) t
      | none => .ok () (t.install c) := by
  have found := read_persist h
  subst hc
  rw [save, bind_of_ok (get_eq s), bind_of_ok h]
  cases hd : s.active.configuration.defect? with
  | some d =>
    rw [hd] at found
    exact reload_of_error found
  | none =>
    rw [hd] at found
    exact reload_of_ok found

/-- Nothing is saved unless it could be stored and has no defect. -/
theorem save_eq_ok (h : save s = .ok () t) :
    ∃ u, persist s.active.configuration.render s = .ok () u ∧
      s.active.configuration.defect? = none ∧ t = u.install s.active.configuration := by
  cases hp : persist s.active.configuration.render s with
  | error e u =>
    rw [save_of_error hp] at h
    cases h
  | ok _ u =>
    rw [save_of_ok rfl hp] at h
    split at h
    · cases h
    · next hd =>
      cases h
      exact ⟨u, rfl, hd, rfl⟩

/-- A reload fails as the load of a new store does. -/
theorem load_of_reload_error (h : reload s = .error e t) : s.load = .error e ∧ t = s := by
  cases hr : s.read with
  | ok c =>
    rw [reload_of_ok hr] at h
    cases h
  | error e' =>
    rw [reload_of_error hr] at h
    cases h
    rw [load_eq, hr]
    exact ⟨rfl, rfl⟩

/-- Also where the text was stored before the failure, what is in force stays. -/
theorem active_save_error (h : save s = .error e t) : t.active = s.active := by
  -- To store the text touches the source only, so what is in force stays in either case.
  have kept : (final (persist s.active.configuration.render) s).active = s.active := by
    obtain ⟨source, directory, stored⟩ := final_persist s.active.configuration.render s
    rw [stored]
  cases hp : persist s.active.configuration.render s with
  | error e u =>
    rw [final, hp] at kept
    rw [save_of_error hp] at h
    cases h
    exact kept
  | ok _ u =>
    rw [final_of_ok hp] at kept
    rw [save_of_ok rfl hp] at h
    split at h
    · cases h
      exact kept
    · cases h

theorem active_addPackage_error {p : Package} (h : addPackage p s = .error e t) :
    t.active = s.active := by
  rw [addPackage] at h
  split at h
  · cases h
    rfl
  · cases h

/-- A reload that succeeds gives the very store that is newly opened on the source, which stays. -/
theorem load_of_reload_ok (h : reload s = .ok () t) :
    s.load = .ok t ∧ t.source = s.source ∧ t.directory = s.directory := by
  obtain ⟨c, hr, rfl⟩ := reload_eq_ok h
  rw [load_eq, hr]
  exact ⟨rfl, rfl, rfl⟩

theorem current_reload (h : reload s = .ok () t) : t.Current ∧ s.SameCollaborators t := by
  obtain ⟨c, hr, rfl⟩ := reload_eq_ok h
  exact ⟨current_install hr, sameCollaborators_install s c⟩

theorem current_save (h : save s = .ok () t) : t.Current ∧ s.SameCollaborators t := by
  obtain ⟨u, hp, hd, rfl⟩ := save_eq_ok h
  have found := read_persist hp
  rw [hd] at found
  obtain ⟨source, directory, stored⟩ := final_persist s.active.configuration.render s
  rw [final_of_ok hp] at stored
  subst stored
  exact ⟨current_install found, rfl, rfl, rfl, rfl⟩

/-- A reload, a save or an added package that fails leaves what is in force as it is, and the reload
fails as a new store would. After a reload that succeeds the store is the one newly opened on the
source before, and is current. After a save that succeeds it is current too, with the configuration
that it had, which the document now holds and from which all the rest is derived. -/
theorem replaced_whole_or_kept (s : Store) :
    (∀ e t, reload s = .error e t → t.active = s.active ∧ s.load = .error e) ∧
    (∀ e t, save s = .error e t → t.active = s.active) ∧
    (∀ p e t, addPackage p s = .error e t → t.active = s.active) ∧
    (∀ t, reload s = .ok () t → (t.Current ∧ s.SameCollaborators t) ∧
      s.load = .ok t ∧ t.source = s.source ∧ t.directory = s.directory) ∧
    ∀ t, save s = .ok () t → (t.Current ∧ s.SameCollaborators t) ∧
      t.active.configuration = s.active.configuration ∧
      t.active = t.derive s.active.configuration ∧
      ∃ text, t.document = .ok text ∧
        Configuration.parse? text = some s.active.configuration := by
  refine ⟨fun e t h => ?_, fun e t h => active_save_error h,
    fun p e t h => active_addPackage_error h,
    fun t h => ⟨current_reload h, load_of_reload_ok h⟩, fun t h => ?_⟩
  · obtain ⟨failed, rfl⟩ := load_of_reload_error h
    exact ⟨rfl, failed⟩
  · refine ⟨current_save h, ?_⟩
    obtain ⟨u, hp, -, rfl⟩ := save_eq_ok h
    have held : u.document = .ok s.active.configuration.render := document_persist hp
    exact ⟨rfl, rfl, _, held, Configuration.parse?_write (.lines 0) _⟩

end Store

namespace Sample

def held : Configuration where
  packages := [{ name := "main", filter := "any", services := [{ name := "HTTP" }] }]
  monitors := [⟨"HTTP", "icmp"⟩]

def opened : Store :=
  Store.install {
    directory := { path := "/etc" }
    catalog := Catalog.register ∅ "icmp" [] .plain
    source := .memory { text := held.render } } held

def extended : Store := opened.addMonitor ⟨"ICMP", "icmp"⟩

def spoilt : Store := opened.addMonitor ⟨" ", "icmp"⟩

def unreadable : Store := { opened with source := .memory { text := "" } }

def inside : Address := .v4 (.replicate 4 10)

/-- The filter of the one package selects an address. -/
def selecting : Store := { opened with filters := FilterTable.set {} "any" [inside] }

def outer : Package :=
  { name := "outer", filter := "any", remote := true, services := [{ name := "HTTP" }] }

end Sample

namespace Store

/-- The second service is monitored, and a second package has its addresses, once they were saved.
What is in force stays when a monitor for no service is saved, when the document cannot be read and
when a package comes again. -/
theorem extended_replaced :
    (∃ t, reload Sample.opened = .ok () t ∧ t.Current ∧ Sample.opened.load = .ok t) ∧
    (∃ t, save Sample.extended = .ok () t ∧ t.Current ∧ t.active.registry.Monitors "ICMP") ∧
    (∃ t u, addPackage Sample.outer Sample.selecting = .ok () t ∧
      t.active.candidates "outer" = [] ∧ save t = .ok () u ∧ u.Current ∧
      u.active.candidates "outer" = [Sample.inside]) ∧
    (∃ e t, save Sample.spoilt = .error e t ∧ t.active = Sample.spoilt.active) ∧
    (∃ e t, reload Sample.unreadable = .error e t ∧ t.active = Sample.opened.active) ∧
    ∃ e t, addPackage { name := "main", filter := "" } Sample.opened = .error e t ∧
      t.active = Sample.opened.active := by
  refine ⟨?_, ?_, ?_, ?_, ?_, ?_⟩
  · have found : Sample.opened.read = .ok Sample.held :=
      read_of_parse rfl (Configuration.parse?_write (.lines 0) Sample.held)
    have done := reload_of_ok found
    obtain ⟨⟨current, -⟩, loaded, -⟩ := (replaced_whole_or_kept Sample.opened).2.2.2.1 _ done
    exact ⟨_, done, current, loaded⟩
  · have done := save_of_ok (s := Sample.extended) rfl rfl
    obtain ⟨⟨current, -⟩, -, derived, -⟩ :=
      (replaced_whole_or_kept Sample.extended).2.2.2.2 _ done
    refine ⟨_, done, current, ?_⟩
    rw [derived]
    decide +kernel
  · have added : addPackage Sample.outer Sample.selecting = .ok () _ := rfl
    have done := save_of_ok (s := Poller.final (addPackage Sample.outer) Sample.selecting) rfl rfl
    obtain ⟨⟨current, -⟩, -, derived, -⟩ := (replaced_whole_or_kept _).2.2.2.2 _ done
    refine ⟨_, _, added, by decide +kernel, done, current, ?_⟩
    rw [derived]
    decide +kernel
  · have failed := save_of_ok (s := Sample.spoilt) rfl rfl
    exact ⟨_, _, failed, (replaced_whole_or_kept Sample.spoilt).2.1 _ _ failed⟩
  · have none_read : Sample.unreadable.read.toOption = none := by decide +kernel
    cases hr : Sample.unreadable.read with
    | ok c =>
      rw [hr] at none_read
      cases none_read
    | error e =>
      have failed := reload_of_error hr
      exact ⟨_, _, failed, ((replaced_whole_or_kept Sample.unreadable).1 _ _ failed).1⟩
  · have failed : addPackage { name := "main", filter := "" } Sample.opened = .error _ _ := rfl
    exact ⟨_, _, failed, (replaced_whole_or_kept Sample.opened).2.2.1 _ _ _ failed⟩

end Store

end Polling
