import EvQueue.QueuePool

/-!
# Configuration — the entries and their values

The names of the entries are a sorted table that never changes, and each has a value.  An entry is searched
for by `strcmp`.
-/

namespace EvQueue

/-- `CONFIGURATION_ENTRIES`. -/
def configurationEntries : Nat := 33

def defaultConfiguration : List (String × String) :=
  [("core.gid", "0"),
   ("core.pidfile", "/var/run/evqueue/evqueue.pid"),
   ("core.uid", "0"),
   ("gc.delay", "2"),
   ("gc.enable", "yes"),
   ("gc.interval", "43200"),
   ("gc.limit", "1000"),
   ("gc.logs.retention", "7"),
   ("gc.workflowinstance.retention", "30"),
   ("logger.db.enable", "no"),
   ("logger.syslog.enable", "yes"),
   ("mysql.database", "queueing"),
   ("mysql.host", "localhost"),
   ("mysql.password", ""),
   ("mysql.user", ""),
   ("network.bind.ip", "127.0.0.1"),
   ("network.bind.port", "5000"),
   ("network.listen.backlog", "64"),
   ("network.rcv.timeout", "30"),
   ("network.snd.timeout", "30"),
   ("processmanager.errlogs.directory", "errlogs"),
   ("processmanager.errlogs.enable", "no"),
   ("processmanager.logs.delete", "yes"),
   ("processmanager.logs.directory", "/tmp"),
   ("processmanager.monitor.path", "/usr/local/bin/evqueue_monitor"),
   ("processmanager.monitor.ssh_key", ""),
   ("processmanager.monitor.ssh_path", "/usr/bin/ssh"),
   ("processmanager.tasks.directory", "."),
   ("workflowinstance.saveparameters", "yes"),
   ("workflowinstance.savepoint.level", "2"),
   ("workflowinstance.savepoint.retry.enable", "yes"),
   ("workflowinstance.savepoint.retry.times", "0"),
   ("workflowinstance.savepoint.retry.wait", "2")]

/-- There is a value for each entry. -/
structure Configuration where
  values : List (List Char)
  size : values.length = configurationEntries
deriving DecidableEq

namespace Configuration

/-- The constructor. -/
def create : Configuration := ⟨defaultConfiguration.map fun p ↦ p.2.toList, rfl⟩

/-- `entries[i]`. -/
def entries (i : Nat) : List Char := (defaultConfiguration[i]?.map fun p ↦ p.1.toList).getD []

def lookup (entry : List Char) : Option Nat :=
  SortedLookup.lookup (fun i ↦ strcmp (entries i) entry) configurationEntries

/-- `none` is the answer `false`. -/
def set (config : Configuration) (entry value : List Char) : Option Configuration :=
  (lookup entry).map fun i ↦
    { values := config.values.set i value
      size := by rw [List.length_set, config.size] }

/-- `none` is the null pointer. -/
def get (config : Configuration) (entry : List Char) : Option (List Char) :=
  (lookup entry).bind fun i ↦ config.values[i]?

/-- One of the entries. -/
def Known (entry : List Char) : Prop := ∃ i < configurationEntries, entries i = entry

variable {config : Configuration} {entry other value : List Char} {i : Nat}

/-- Every entry is found where it stands. -/
theorem lookup_entries : ∀ i < configurationEntries, lookup (entries i) = some i := by
  decide +kernel

theorem entries_of_lookup (h : lookup entry = some i) : i < configurationEntries ∧ entries i = entry := by
  obtain ⟨heq, hi⟩ := SortedLookup.lookup_eq_some h
  exact ⟨hi, QueuePool.strcmp_eq heq⟩

theorem lookup_of_not_known (h : ¬Known entry) : lookup entry = none := by
  cases hlookup : lookup entry with
  | none => rfl
  | some i =>
    have hentry := entries_of_lookup hlookup
    exact absurd ⟨i, hentry⟩ h

/-- Each entry starts with the default that stands beside it. -/
theorem get_create (h : i < configurationEntries) :
    create.get (entries i) = defaultConfiguration[i]?.map fun p ↦ p.2.toList := by
  unfold get
  rw [lookup_entries i h, Option.bind_some]
  show (defaultConfiguration.map fun p ↦ p.2.toList)[i]? = _
  exact List.getElem?_map

/-- A known entry gets the value, and the others keep theirs. -/
theorem set_of_known (h : Known entry) (config : Configuration) (value : List Char) :
    ∃ config', config.set entry value = some config' ∧ config'.get entry = some value ∧
      ∀ other, other ≠ entry → config'.get other = config.get other := by
  obtain ⟨i, hi, rfl⟩ := h
  have hlookup := lookup_entries i hi
  refine ⟨⟨config.values.set i value, by rw [List.length_set, config.size]⟩, ?_, ?_, ?_⟩
  · unfold set
    rw [hlookup]
    rfl
  · unfold get
    rw [hlookup, Option.bind_some]
    exact List.getElem?_set_self (by rw [config.size]; exact hi)
  · intro other hother
    unfold get
    cases hfound : lookup other with
    | none => rfl
    | some j =>
      have hne : i ≠ j := by
        rintro rfl
        exact hother (entries_of_lookup hfound).2.symm
      rw [Option.bind_some, Option.bind_some]
      exact List.getElem?_set_ne hne

theorem set_of_not_known (h : ¬Known entry) (config : Configuration) (value : List Char) :
    config.set entry value = none := by
  unfold set
  rw [lookup_of_not_known h]
  rfl

end Configuration

end EvQueue
