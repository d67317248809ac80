import MiniC.CommandLine.Disk
import MiniC.Proofs.Result

/-!
# Writing to a disk

What a path leads to before a text is written decides what the text replaces.  Where a
file or a free name stands, the text stands afterwards and the same path leads to it, and
every other place keeps its entry.  A device keeps its place.
-/

namespace MiniC
namespace CommandLine
namespace Disk

variable {disk : Disk} {place here names : List String} {target : Target}

/-! ## Entries -/

theorem entry_put_self {entry : Entry} (named : place ≠ []) :
    Disk.entry? (disk.put place entry) place = some entry := by
  simp [put, named, entry?]

theorem entry_put_of_ne {entry : Entry} {other : List String} (apart : other ≠ place) :
    Disk.entry? (disk.put place entry) other = disk.entry? other := by
  have kept (entries : List (List String × Entry)) :
      (entries.filter (·.1 ≠ place)).lookup other = entries.lookup other := by
    induction entries with
    | nil => rfl
    | cons first rest hypothesis =>
        obtain ⟨name, value⟩ := first
        by_cases same : name = place
        · subst same
          rw [List.filter_cons_of_neg (by simp), hypothesis, List.lookup_cons,
            beq_eq_false_iff_ne.mpr apart]
        · rw [List.filter_cons_of_pos (by simpa using same), List.lookup_cons,
            List.lookup_cons, hypothesis]
  unfold entry?
  split
  · rfl
  · rw [put, List.lookup_cons, beq_eq_false_iff_ne.mpr apart]
    exact kept disk.entries

/-! ## Following names -/

/-- A name that an entry can have. -/
structure IsEntryName (name : String) : Prop where
  notHere : name ≠ "."
  notAbove : name ≠ ".."
  short : name.utf8ByteSize ≤ Path.longestName

/-- Where names lead from a directory. -/
inductive Leads (disk : Disk) : List String -> List String -> Target -> Prop
  | here {here : List String} : Leads disk here [] (.taken here .directory)
  | stay {here rest : List String} {target : Target}
      (led : Leads disk here rest target) :
      Leads disk here ("." :: rest) target
  | above {here rest : List String} {target : Target}
      (led : Leads disk here.dropLast rest target) :
      Leads disk here (".." :: rest) target
  | into {here rest : List String} {name : String} {target : Target}
      (named : IsEntryName name)
      (there : disk.entry? (here ++ [name]) = some .directory)
      (led : Leads disk (here ++ [name]) rest target) :
      Leads disk here (name :: rest) target
  | leaf {here : List String} {name : String} {entry : Entry}
      (named : IsEntryName name)
      (there : disk.entry? (here ++ [name]) = some entry)
      (leaf : entry ≠ .directory) :
      Leads disk here [name] (.taken (here ++ [name]) entry)
  | free {here : List String} {name : String}
      (named : IsEntryName name)
      (absent : disk.entry? (here ++ [name]) = none) :
      Leads disk here [name] (.free (here ++ [name]))

theorem leads_of_follow (led : disk.follow here names = .ok target) :
    disk.Leads here names target := by
  induction names generalizing here with
  | nil =>
      cases led
      exact .here
  | cons name rest hypothesis =>
      rw [follow] at led
      split at led
      · subst name
        exact .stay (hypothesis led)
      split at led
      · subst name
        exact .above (hypothesis led)
      split at led
      · cases led
      have named : IsEntryName name := ⟨‹_›, ‹_›, Nat.le_of_not_lt ‹_›⟩
      split at led
      · exact .into named ‹_› (hypothesis led)
      · rename_i entry notDirectory there
        split at led <;> cases led
        obtain rfl : rest = [] := by simpa using ‹rest.isEmpty = true›
        exact .leaf named there notDirectory
      · split at led <;> cases led
        obtain rfl : rest = [] := by simpa using ‹rest.isEmpty = true›
        exact .free named ‹_›

theorem Leads.follow_eq (leads : disk.Leads here names target) :
    disk.follow here names = .ok target := by
  induction leads with
  | here => rfl
  | stay _ hypothesis => rw [follow, if_pos rfl, hypothesis]
  | above _ hypothesis => rw [follow, if_neg (by decide), if_pos rfl, hypothesis]
  | into named there _ hypothesis =>
      rw [follow, if_neg named.notHere, if_neg named.notAbove,
        if_neg (Nat.not_lt_of_le named.short), there]
      exact hypothesis
  | leaf named there leaf =>
      rw [follow, if_neg named.notHere, if_neg named.notAbove,
        if_neg (Nat.not_lt_of_le named.short), there]
      split
      · rename_i directory
        exact absurd (Option.some.inj directory) leaf
      · rename_i same
        cases same
        rfl
      · rename_i absent
        cases absent
  | free named absent =>
      rw [follow, if_neg named.notHere, if_neg named.notAbove,
        if_neg (Nat.not_lt_of_le named.short), absent]
      rfl

/-- Places where a text stands once it is written there. -/
inductive Writable (disk : Disk) : Target -> List String -> Prop
  | file {place : List String} {data : ByteArray}
      (there : disk.entry? place = some (.file data)) :
      Writable disk (.taken place (.file data)) place
  | free {place : List String}
      (absent : disk.entry? place = none) :
      Writable disk (.free place) place

theorem Writable.entry_ne_directory (writable : disk.Writable target place) :
    disk.entry? place ≠ some .directory := by
  cases writable with
  | file there => simp [there]
  | free absent => simp [absent]

theorem Writable.named (writable : disk.Writable target place) : place ≠ [] := by
  rintro rfl
  exact writable.entry_ne_directory rfl

namespace Leads

/-- What stands where names lead. -/
theorem cases_target (leads : disk.Leads here names target) :
    (∃ place, target = .taken place .directory) ∨
      (∃ place device, target = .taken place (.device device) ∧
        disk.entry? place = some (.device device)) ∨
      ∃ place, disk.Writable target place := by
  induction leads with
  | here => exact .inl ⟨_, rfl⟩
  | stay _ hypothesis => exact hypothesis
  | above _ hypothesis => exact hypothesis
  | into _ _ _ hypothesis => exact hypothesis
  | @leaf here name entry _ there leaf =>
      cases entry with
      | file data => exact .inr (.inr ⟨_, .file there⟩)
      | device device => exact .inr (.inl ⟨_, device, rfl, there⟩)
      | directory => exact absurd rfl leaf
  | free _ absent => exact .inr (.inr ⟨_, .free absent⟩)

/-- Once a text is written, the same names lead to it. -/
theorem put (leads : disk.Leads here names target) (writable : disk.Writable target place)
    (data : ByteArray) :
    (disk.put place (.file data)).Leads here names (.taken place (.file data)) := by
  induction leads with
  | here => cases writable
  | stay _ hypothesis => exact .stay (hypothesis writable)
  | above _ hypothesis => exact .above (hypothesis writable)
  | into named there _ hypothesis =>
      -- a directory on the way is not the place that is written
      refine .into named ?_ (hypothesis writable)
      rw [entry_put_of_ne, there]
      rintro rfl
      exact writable.entry_ne_directory there
  | leaf named there _ =>
      have new : Disk.entry? (disk.put place (.file data)) place = some (.file data) :=
        entry_put_self writable.named
      cases writable with
      | file _ => exact .leaf named new (by simp)
  | free named absent =>
      have new : Disk.entry? (disk.put place (.file data)) place = some (.file data) :=
        entry_put_self writable.named
      cases writable with
      | free _ => exact .leaf named new (by simp)

/-- Names that do not end in that of an entry lead to a directory. -/
theorem directory (leads : disk.Leads here names target)
    (unnamed : names.getLast?.any Path.isEntryName = false) :
    ∃ place, target = .taken place .directory := by
  have last {name : String} (named : IsEntryName name) :
      Path.isEntryName name = true := by
    simp [Path.isEntryName, named.notHere, named.notAbove]
  induction leads with
  | here => exact ⟨_, rfl⟩
  | @stay _ rest _ led hypothesis | @above _ rest _ led hypothesis =>
      refine hypothesis ?_
      cases rest with
      | nil => rfl
      | cons next rest => simpa using unnamed
  | @into _ rest name _ named _ _ hypothesis =>
      refine hypothesis ?_
      cases rest with
      | nil => simp [last named] at unnamed
      | cons next rest => simpa using unnamed
  | leaf named _ _ => simp [last named] at unnamed
  | free named _ => simp [last named] at unnamed

end Leads

/-! ## Paths -/

/-- What a text written to a path leaves behind: either a file at the place where the path
leads, which the path then reads, while every other place keeps its entry; or, where the
path leads to a device, the entries as they were, and the text where the device takes
it. -/
inductive Delivered (disk : Disk) (input : ByteArray) (name text : String)
    (after : Disk) : Prop
  | file {place : List String}
      (there : after.entry? place = some (.file text.toUTF8))
      (reads : after.read input name = .ok text.toUTF8)
      (others : ∀ other ≠ place, after.entry? other = disk.entry? other)
      (quiet : after.shown = disk.shown)
  | device {place : List String} {device : Device}
      (there : disk.entry? place = some (.device device))
      (leads : ∃ path, Disk.path name = .ok path ∧
        disk.destination path = .ok (.taken place (.device device)))
      (kept : after.entry? = disk.entry?)
      (shown : after.shown = if device = .output then disk.shown ++ text else disk.shown)

/-- A path with a destination does not ask for a directory. -/
theorem destination_eq_ok {path : Path} (led : disk.destination path = .ok target) :
    path.asksForDirectory = false ∧
      disk.Leads (if path.rooted then [] else disk.home) path.names target := by
  unfold destination at led
  cases asks : path.asksForDirectory with
  | true =>
      rw [asks, if_pos rfl] at led
      obtain ⟨found, -, refused⟩ := bind_eq_ok.mp led
      split at refused <;> cases refused
  | false =>
      rw [asks, if_neg Bool.false_ne_true] at led
      exact ⟨rfl, leads_of_follow led⟩

/-- The path of a text that is written does not end in a slash, unless a device stands
there. -/
theorem open_of_destination {path : Path} (led : disk.destination path = .ok target)
    (writable : disk.Writable target place) : path.closed = false := by
  obtain ⟨asks, leads⟩ := destination_eq_ok led
  cases closed : path.closed with
  | false => rfl
  | true =>
      rw [Path.asksForDirectory, closed, Bool.true_and] at asks
      obtain ⟨other, rfl⟩ := leads.directory asks
      cases writable

/-- A text that was written can be read. -/
theorem read_put {path : Path} {name : String} {data : ByteArray}
    (known : Disk.path name = .ok path) (led : disk.destination path = .ok target)
    (writable : disk.Writable target place) (input : ByteArray) :
    (disk.put place (.file data)).read input name = .ok data := by
  have leads := (destination_eq_ok led).2.put writable data
  have followed : (disk.put place (.file data)).followFrom path path.names =
      .ok (.taken place (.file data)) := leads.follow_eq
  unfold read
  rw [known]
  simp only [bind, Except.bind]
  rw [followed]
  simp only [open_of_destination led writable, Bool.false_eq_true, if_false]
  rfl

/-- Standard output takes a text at once. -/
theorem eq_of_print {text : String} {after : Disk}
    (printed : disk.print text = .ok after) :
    after = { disk with shown := disk.shown ++ text } := by
  unfold print at printed
  split at printed
  · cases printed
  · exact (Except.ok.inj printed).symm

/-- What is left behind by a text that could be written. -/
theorem delivered_of_write {name text : String} {after : Disk}
    (written : disk.write name text = .ok after) (input : ByteArray) :
    disk.Delivered input name text after := by
  unfold write at written
  obtain ⟨path, known, written⟩ := bind_eq_ok.mp written
  obtain ⟨target, led, written⟩ := bind_eq_ok.mp written
  have file {place : List String} (writable : disk.Writable target place)
      (put : disk.put place (.file text.toUTF8) = after) :
      disk.Delivered input name text after := by
    subst put
    exact .file (entry_put_self writable.named) (read_put known led writable input)
      (fun other apart => entry_put_of_ne apart) rfl
  rcases (destination_eq_ok led).2.cases_target with
    ⟨place, rfl⟩ | ⟨place, device, rfl, there⟩ | ⟨place, writable⟩
  · cases written
  · cases device with
    | null | input =>
        cases written
        exact .device there ⟨path, known, led⟩ rfl rfl
    | full => cases written
    | output =>
        obtain rfl := eq_of_print written
        exact .device there ⟨path, known, led⟩ rfl rfl
  · cases writable with
    | file there => exact file (.file there) (Except.ok.inj written)
    | free absent => exact file (.free absent) (Except.ok.inj written)

end Disk
end CommandLine
end MiniC
