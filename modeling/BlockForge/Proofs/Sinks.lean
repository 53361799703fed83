import BlockForge.CommandLine
import BlockForge.Proofs.Fallible

/-!
Where a result goes.

A path names a place by its steps alone: directories only decide whether the steps can be
taken.  So it is known beforehand what a path stands for, a file or a device, and a write
that succeeds puts the text there and changes nothing else (`put_of_write`).
-/

namespace BlockForge.CommandLine

/-- The place that a step leads to. -/
def Location.step (l : Location) : PathStep → Location
  | .stay => l
  | .up => l.up
  | .down name => l.down name

/-- The place that a path leads to. -/
def Path.location (path : Path) : Location :=
  path.steps.foldl Location.step (if path.fromRoot then .root else .working)

/-- Where a result goes: it is printed with an empty line after it, it is kept in a file, or
it is passed on to a device.  A text that is no path leads nowhere. -/
inductive Sink where
  | nowhere
  | print
  | file (key : String)
  | device (device : Device)
deriving DecidableEq

namespace Sink

/-- What stands for a location, whether or not there is a file. -/
def ofLocation (l : Location) : Sink :=
  match Device.ofKey? l.key with
  | some known => .device known
  | none => .file l.key

/-- Where a result goes when an option names a path, and when none does. -/
def ofPath? : Option String → Sink
  | none => .print
  | some text =>
      match Path.ofText text with
      | .ok path => ofLocation path.location
      | .error _ => .nowhere

/-- What is printed of a result. -/
def printed : Sink → String → String
  | .print, content => content ++ "\n\n"
  | .device .output, content => content
  | _, _ => ""

/-- What is reported of a result. -/
def reported : Sink → String → String
  | .device .report, content => content
  | _, _ => ""

/-- The files after a result went to a sink. -/
def kept (files : Table String) : Sink → String → Table String
  | .file key, content => files.insert key content
  | _, _ => files

/-- The directory after a result went to a sink. -/
def put (sink : Sink) (content : String) (d : Directory) : Directory where
  files := sink.kept d.files content
  stdout := d.stdout ++ sink.printed content
  stderr := d.stderr ++ sink.reported content

theorem get?_kept (sink : Sink) (files : Table String) (content key : String) :
    (sink.kept files content).get? key =
      if sink = .file key then some content else files.get? key := by
  cases sink with
  | file key' =>
      rw [kept, Table.get?_insert]
      refine if_congr ?_ rfl rfl
      rw [Sink.file.injEq, eq_comm]
  | _ => rfl

end Sink

namespace Directory

variable {d d' : Directory}

theorem eq_step_of_enter {l l' : Location} {step : PathStep} (h : d.enter l step = .ok l') :
    l' = l.step step := by
  cases step with
  | stay => exact (Except.ok.inj h).symm
  | up => exact (Except.ok.inj h).symm
  | down name =>
      obtain ⟨found, _, h⟩ := except_bind_eq_ok_iff.1 h
      cases found with
      | directory => exact (Except.ok.inj h).symm
      | _ => cases h

theorem eq_foldl_of_foldlM {l l' : Location} {steps : List PathStep}
    (h : steps.foldlM d.enter l = .ok l') : l' = steps.foldl Location.step l := by
  induction steps generalizing l with
  | nil => exact (Except.ok.inj h).symm
  | cons step rest ih =>
      rw [List.foldlM_cons] at h
      obtain ⟨next, hnext, h⟩ := except_bind_eq_ok_iff.1 h
      obtain rfl := eq_step_of_enter hnext
      exact ih h

/-- The place of a path is below the directory in which its last step is taken. -/
theorem down_of_parent {path : Path} {l : Location} {name : String}
    (h : d.parent path = .ok l) (hlast : path.steps.getLast? = some (.down name)) :
    l.down name = path.location := by
  obtain ⟨before, hsteps⟩ := List.getLast?_eq_some_iff.1 hlast
  rw [parent, hsteps, List.dropLast_concat] at h
  rw [eq_foldl_of_foldlM h, Path.location, hsteps, List.foldl_append]
  rfl

/-- What is found at a location tells whether that is one of a device. -/
theorem ofKey?_of_found (d : Directory) (l : Location) :
    Device.ofKey? l.key =
      match d.found l with
      | .device device => some device
      | _ => none := by
  rw [found]
  cases Device.ofKey? l.key with
  | some device => rfl
  | none =>
      cases d.files.get? l.key with
      | some content => rfl
      | none => cases d.hasDirectory l <;> rfl

theorem found_of_lookUp {l : Location} {name : String} {found : Found}
    (h : d.lookUp l name = .ok found) : found = d.found (l.down name) := by
  rw [lookUp] at h
  split at h
  next => cases h
  next => exact (Except.ok.inj h).symm

theorem eq_put_of_send {device : Device} {content : String}
    (h : d.send content device = .ok d') : d' = (Sink.device device).put content d := by
  have hsilent : d = { d with stdout := d.stdout ++ "", stderr := d.stderr ++ "" } := by
    rw [String.append_empty, String.append_empty]
  cases device with
  | output =>
      obtain rfl := Except.ok.inj h
      exact congrArg (Directory.mk _ _) String.append_empty.symm
  | report =>
      obtain rfl := Except.ok.inj h
      exact congrArg (Directory.mk _ · _) String.append_empty.symm
  | full =>
      rw [send] at h
      split at h
      next =>
        obtain rfl := Except.ok.inj h
        exact hsilent
      next => cases h
  | null =>
      obtain rfl := Except.ok.inj h
      exact hsilent
  | input =>
      obtain rfl := Except.ok.inj h
      exact hsilent

theorem eq_put_of_file (l : Location) (content : String) (hfile : Device.ofKey? l.key = none) :
    { d with files := d.files.insert l.key content } = (Sink.ofLocation l).put content d := by
  rw [Sink.ofLocation, hfile]
  change _ = Directory.mk (d.files.insert l.key content) (d.stdout ++ "") (d.stderr ++ "")
  rw [String.append_empty, String.append_empty]

theorem ofLocation_ne_nowhere (l : Location) : Sink.ofLocation l ≠ .nowhere := by
  rw [Sink.ofLocation]
  split <;> exact Sink.noConfusion

/-- A write that succeeds puts the text where its path says, and changes nothing else. -/
theorem put_of_write {text content : String} (h : d.write text content = .ok d') :
    Sink.ofPath? text ≠ .nowhere ∧ d' = (Sink.ofPath? text).put content d := by
  obtain ⟨path, hpath, h⟩ := except_bind_eq_ok_iff.1 h
  obtain ⟨l, hparent, h⟩ := except_bind_eq_ok_iff.1 h
  have hsink : Sink.ofPath? text = .ofLocation path.location := by
    rw [Sink.ofPath?, hpath]
  rw [hsink]
  refine ⟨ofLocation_ne_nowhere _, ?_⟩
  split at h
  next name hlast =>
    rw [← down_of_parent hparent hlast]
    split at h
    next => cases h
    next =>
      obtain ⟨found, hlook, h⟩ := except_bind_eq_ok_iff.1 h
      obtain rfl := found_of_lookUp hlook
      have hknown := ofKey?_of_found d (l.down name)
      cases hfound : d.found (l.down name) with
      | directory =>
          rw [hfound] at h
          cases h
      | device device =>
          rw [hfound] at h hknown
          rw [Sink.ofLocation, hknown]
          exact eq_put_of_send h
      | file old =>
          rw [hfound] at h hknown
          exact (Except.ok.inj h).symm.trans (eq_put_of_file _ content hknown)
      | missing =>
          rw [hfound] at h hknown
          exact (Except.ok.inj h).symm.trans (eq_put_of_file _ content hknown)
  next => cases h

end Directory

end BlockForge.CommandLine
