import BlockForge.CommandLine
import BlockForge.Proofs.Fallible

/-!
Tasks that only read.

Up to the delivery the program reads files and computes.  What such a task gives on a
directory is found step by step (`Task.Reads.gives_bind_iff`), so the configuration and the
workspace that a run works with can be said without the program.
-/

namespace BlockForge.CommandLine

section Tasks

variable {α β : Type} {t : Task (StateM Directory) α} {f : α → Task (StateM Directory) β}
  {d : Directory}

/-- What a task gives on a directory, and the directory after it. -/
def Task.on (t : Task (StateM Directory) α) (d : Directory) : Except String α × Directory :=
  (ExceptT.run t).run d

theorem Task.on_bind (t : Task (StateM Directory) α) (f : α → Task (StateM Directory) β)
    (d : Directory) :
    Task.on (t >>= f) d =
      match t.on d with
      | (.ok a, d') => (f a).on d'
      | (.error e, d') => (.error e, d') := by
  have hbind : Task.on (t >>= f) d =
      (ExceptT.bindCont f (t.on d).1 : StateM Directory (Except String β)).run (t.on d).2 := rfl
  rw [hbind]
  rcases t.on d with ⟨_ | a, d'⟩ <;> rfl

/-- The task leaves every directory as it is. -/
def Task.Reads (t : Task (StateM Directory) α) : Prop :=
  ∀ d, (t.on d).2 = d

/-- The task gives a result on a directory. -/
def Task.Gives (t : Task (StateM Directory) α) (d : Directory) (a : α) : Prop :=
  (t.on d).1 = .ok a

theorem Task.Reads.bind (h : t.Reads) (hf : ∀ a, (f a).Reads) : Task.Reads (t >>= f) := by
  intro d
  have hd := h d
  rw [Task.on_bind]
  generalize t.on d = r at hd ⊢
  rcases r with ⟨_ | a, d'⟩
  · exact hd
  · exact (hf a d').trans hd

/-- A sequence of tasks gives what the second one gives on the result of the first one. -/
theorem Task.Reads.gives_bind_iff (h : t.Reads) {b : β} :
    Task.Gives (t >>= f) d b ↔ ∃ a, t.Gives d a ∧ (f a).Gives d b := by
  have hd := h d
  unfold Task.Gives
  rw [Task.on_bind]
  generalize t.on d = r at hd ⊢
  rcases r with ⟨e | a, d'⟩
  · exact iff_of_false nofun fun ⟨_, herror, _⟩ => nomatch herror
  · obtain rfl : d' = d := hd
    constructor
    · intro hb
      exact ⟨a, rfl, hb⟩
    · rintro ⟨_, ha, hb⟩
      rwa [← Except.ok.inj ha] at hb

theorem reads_pure (a : α) : Task.Reads (pure a : Task (StateM Directory) α) :=
  fun _ => rfl

theorem gives_pure_iff {a b : α} :
    Task.Gives (pure a : Task (StateM Directory) α) d b ↔ b = a :=
  ⟨fun h => (Except.ok.inj h).symm, fun h => congrArg Except.ok h.symm⟩

theorem reads_orStop {ε : Type} (describe : ε → String) (result : Except ε α) :
    Task.Reads (orStop describe result) := by
  cases result <;> exact fun _ => rfl

theorem gives_orStop_iff {ε : Type} {describe : ε → String} {result : Except ε α} {a : α} :
    Task.Gives (orStop describe result) d a ↔ result = .ok a := by
  cases result with
  | error e => exact iff_of_false nofun nofun
  | ok b =>
      rw [Except.ok.injEq, eq_comm]
      exact gives_pure_iff

theorem reads_readFile (describe : String → String) (path : String) :
    Task.Reads (readFile Directory.host describe path) :=
  Task.Reads.bind (fun _ => rfl) fun result => reads_orStop describe result

theorem gives_readFile_iff {describe : String → String} {path text : String} :
    Task.Gives (readFile Directory.host describe path) d text ↔ d.read path = .ok text := by
  have hlift : ∀ result, Task.Gives (ExceptT.lift (Directory.host.read path)) d result ↔
      (d.read path).mapError Refusal.message = result := by
    intro result
    exact ⟨fun h => Except.ok.inj h, fun h => congrArg Except.ok h⟩
  rw [readFile, Task.Reads.gives_bind_iff fun _ => rfl]
  simp only [hlift, gives_orStop_iff, exists_eq_left', mapError_eq_ok_iff]

theorem gives_orStop_bind_iff {ε : Type} {describe : ε → String} {result : Except ε α} {b : β} :
    Task.Gives (orStop describe result >>= f) d b ↔ ∃ a, result = .ok a ∧ (f a).Gives d b := by
  rw [(reads_orStop describe result).gives_bind_iff]
  simp only [gives_orStop_iff]

theorem gives_readFile_bind_iff {describe : String → String} {path : String}
    {f : String → Task (StateM Directory) β} {b : β} :
    Task.Gives (readFile Directory.host describe path >>= f) d b ↔
      ∃ text, d.read path = .ok text ∧ (f text).Gives d b := by
  rw [(reads_readFile describe path).gives_bind_iff]
  simp only [gives_readFile_iff]

end Tasks

/-- The configuration of the options' file, or the defaults. -/
def Bases (o : Options) (d : Directory) (base : Config) : Prop :=
  match o.config with
  | none => base = {}
  | some path => ∃ text, d.read path = .ok text ∧ Config.ofText text = .ok base

/-- The format of the options, or that of their configuration. -/
def Formats (o : Options) (base : Config) (format : PreviewFormat) : Prop :=
  match o.format with
  | none => format = base.format
  | some text => PreviewFormat.ofText text = .ok format

/-- The configuration that takes effect: that of the options' file or the defaults, with the
language and the format of the options over it. -/
def Configures (o : Options) (d : Directory) (config : Config) : Prop :=
  ∃ base, Bases o d base ∧ ∃ format, Formats o base format ∧
    config = { base with language := o.language.getD base.language, format := format }

/-- The workspace of the editor tree, converted with the type mappings of the options. -/
def Converts (o : Options) (d : Directory) (ws : Workspace) : Prop :=
  ∃ text, d.read (o.tree.getD "") = .ok text ∧ ∃ tree, EditorTree.ofText text = .ok tree ∧
    ∃ converter, converterOf o.typeMaps {} = .ok converter ∧ converter.convert tree = .ok ws

section Inputs

variable {o : Options} {d : Directory}

theorem reads_baseConfig (o : Options) : (baseConfig Directory.host o).Reads := by
  rw [baseConfig]
  cases o.config with
  | none => exact reads_pure _
  | some path => exact (reads_readFile _ path).bind fun text => reads_orStop _ _

theorem gives_baseConfig_iff {base : Config} :
    (baseConfig Directory.host o).Gives d base ↔ Bases o d base := by
  rw [baseConfig, Bases]
  cases o.config with
  | none => exact gives_pure_iff
  | some path =>
      dsimp only
      rw [gives_readFile_bind_iff]
      simp only [gives_orStop_iff]

theorem reads_configOf (o : Options) : (configOf Directory.host o).Reads := by
  refine (reads_baseConfig o).bind fun base => ?_
  cases o.format with
  | none => exact reads_pure _
  | some text => exact (reads_orStop _ _).bind fun format => reads_pure _

theorem gives_configOf_iff {config : Config} :
    (configOf Directory.host o).Gives d config ↔ Configures o d config := by
  rw [configOf, (reads_baseConfig o).gives_bind_iff]
  unfold Configures Formats
  refine exists_congr fun base => and_congr gives_baseConfig_iff ?_
  cases o.format with
  | none =>
      dsimp only
      rw [gives_pure_iff, exists_eq_left]
  | some text =>
      dsimp only
      rw [gives_orStop_bind_iff]
      simp only [gives_pure_iff]

theorem reads_workspaceOf (o : Options) : (workspaceOf Directory.host o).Reads :=
  (reads_readFile _ _).bind fun _ => (reads_orStop _ _).bind fun _ =>
    (reads_orStop _ _).bind fun _ => reads_orStop _ _

theorem gives_workspaceOf_iff {ws : Workspace} :
    (workspaceOf Directory.host o).Gives d ws ↔ Converts o d ws := by
  rw [workspaceOf, gives_readFile_bind_iff]
  simp only [gives_orStop_bind_iff, gives_orStop_iff, Converts]

end Inputs

end BlockForge.CommandLine
