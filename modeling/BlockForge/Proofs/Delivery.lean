import BlockForge.Proofs.Sinks
import BlockForge.Proofs.Steps
import BlockForge.Proofs.Tasks

/-!
What a run of the program leaves behind.

Up to the delivery the program only reads (`reads_generate`), so a run that fails by then
leaves everything as it was.  The schema is delivered before the stub, and nothing takes it
back: when the file of the stub cannot be written, the schema stays where it went
(`run_delivers`).  What is delivered is the output of a session with the options'
configuration after an update and, if there is one, a preview.
-/

namespace BlockForge.CommandLine

/-- The steps of a session that show the preview code of the options. -/
def Previews (o : Options) (d : Directory) (steps : List Session.Step) : Prop :=
  match o.preview with
  | none => steps = []
  | some path => ∃ code, d.read path = .ok code ∧ steps = [.preview code]

/-- The output of a session with the configuration that takes effect, after an update with
the workspace of the tree and the preview of the options, if the tree defines a block. -/
inductive Generates (o : Options) (d : Directory) : Option Output → Prop where
  | nothing {config : Config} {ws : Workspace} (hconfig : Configures o d config)
      (hws : Converts o d ws) (hmake : Session.NothingToMake ws) : Generates o d none
  | output {config : Config} {ws : Workspace} {previews : List Session.Step} {output : Output}
      (hconfig : Configures o d config) (hws : Converts o d ws)
      (hmake : ¬ Session.NothingToMake ws) (hpreviews : Previews o d previews)
      (hsteps : Session.Succeeds (.update ws :: previews) { config := config })
      (houtput : (Session.Step.runAll (.update ws :: previews) { config := config }).2.output =
        some output) : Generates o d (some output)

section Generate

variable {o : Options} {d : Directory}

theorem reads_chooseStub (o : Options) (s : Session) (stub : Option String) :
    (chooseStub Directory.host o s stub).Reads := by
  rw [chooseStub]
  cases o.preview with
  | none => exact reads_pure _
  | some path =>
      refine (reads_readFile _ path).bind fun code => (reads_orStop _ _).bind fun shown => ?_
      cases shown <;> exact reads_pure _

/-- The output with the stub that is chosen is the one that the session has after the
preview. -/
theorem gives_chooseStub_iff {s : Session} {output made : Output}
    (houtput : s.output = some output) :
    (∃ stub, (chooseStub Directory.host o s output.stub).Gives d stub ∧
        made = { output with stub := stub }) ↔
      ∃ previews, Previews o d previews ∧ Session.Succeeds previews s ∧
        (Session.Step.runAll previews s).2.output = some made := by
  rw [chooseStub]
  unfold Previews
  cases o.preview with
  | none =>
      dsimp only
      simp only [gives_pure_iff, exists_eq_left]
      constructor
      · rintro rfl
        exact ⟨nofun, houtput⟩
      · rintro ⟨_, hmade⟩
        exact Option.some.inj (hmade.symm.trans houtput)
  | some path =>
      dsimp only
      simp only [gives_readFile_bind_iff, gives_orStop_bind_iff]
      constructor
      · rintro ⟨stub, ⟨code, hread, shown, hshown, hchosen⟩, rfl⟩
        have hstub : stub = shown.or output.stub := by
          cases shown <;> exact gives_pure_iff.1 hchosen
        rcases Session.preview_cases s code with ⟨e, hpreview⟩ | ⟨shown', hpreview⟩
        · rw [hpreview] at hshown
          cases hshown
        · rw [hpreview] at hshown
          obtain rfl := Except.ok.inj hshown
          have hrun := Session.run_preview_ok hpreview
          refine ⟨_, ⟨code, hread, rfl⟩, (Session.succeeds_cons_iff hrun).2 ⟨nofun, nofun⟩, ?_⟩
          rw [Session.runAll_cons_snd hrun, houtput, hstub]
          rfl
      · rintro ⟨_, ⟨code, hread, rfl⟩, hsteps, hmade⟩
        rcases Session.preview_cases s code with ⟨e, hpreview⟩ | ⟨shown, hpreview⟩
        · have hfailed := Session.run_preview_error hpreview
          exact absurd hsteps (Session.not_succeeds_of_error hfailed)
        · rw [Session.runAll_cons_snd (Session.run_preview_ok hpreview), houtput] at hmade
          refine ⟨shown.or output.stub, ⟨code, hread, shown, by rw [hpreview], ?_⟩,
            Option.some.inj hmade.symm⟩
          cases shown <;> exact gives_pure_iff.2 rfl

theorem reads_generate (o : Options) : (generate Directory.host o).Reads := by
  refine (reads_configOf o).bind fun config => (reads_workspaceOf o).bind fun ws => ?_
  rcases ({ config := config } : Session).update ws with ⟨result, s⟩
  refine (reads_orStop _ result).bind fun made => ?_
  cases made with
  | none => exact reads_pure _
  | some output => exact (reads_chooseStub o s output.stub).bind fun stub => reads_pure _

/-- What is generated is the output of a session. -/
theorem generates_of_gives {made : Option Output}
    (h : (generate Directory.host o).Gives d made) : Generates o d made := by
  obtain ⟨config, hconfig, h⟩ := (reads_configOf o).gives_bind_iff.1 h
  obtain ⟨ws, hws, h⟩ := (reads_workspaceOf o).gives_bind_iff.1 h
  have hconfig := gives_configOf_iff.1 hconfig
  have hws := gives_workspaceOf_iff.1 hws
  rcases Session.update_cases { config := config } ws with
    ⟨hmake, hupdate⟩ | ⟨hmake, ⟨e, hupdate⟩ | ⟨output, hupdate⟩⟩
  · rw [hupdate] at h
    obtain ⟨_, hnone, h⟩ := gives_orStop_bind_iff.1 h
    obtain rfl := Except.ok.inj hnone
    obtain rfl := gives_pure_iff.1 h
    exact .nothing hconfig hws hmake
  · rw [hupdate] at h
    obtain ⟨_, herror, _⟩ := gives_orStop_bind_iff.1 h
    cases herror
  · rw [hupdate] at h
    obtain ⟨_, hsome, h⟩ := gives_orStop_bind_iff.1 h
    obtain rfl := Except.ok.inj hsome
    obtain ⟨stub, hstub, h⟩ := (reads_chooseStub o _ output.stub).gives_bind_iff.1 h
    obtain rfl := gives_pure_iff.1 h
    obtain ⟨previews, hpreviews, hsteps, hshown⟩ :=
      (gives_chooseStub_iff rfl).1 ⟨stub, hstub, rfl⟩
    have hrun := Session.run_update_ok hupdate
    have hsteps := (Session.succeeds_cons_iff hrun).2 ⟨nofun, hsteps⟩
    refine .output hconfig hws hmake hpreviews hsteps ?_
    rw [Session.runAll_cons_snd hrun, hshown]

/-- Where no step of the session fails, its output is generated. -/
theorem gives_of_generates {made : Option Output} (h : Generates o d made) :
    (generate Directory.host o).Gives d made := by
  rw [generate, (reads_configOf o).gives_bind_iff]
  simp only [(reads_workspaceOf o).gives_bind_iff, gives_configOf_iff, gives_workspaceOf_iff]
  rcases h with ⟨hconfig, hws, hmake⟩ | ⟨hconfig, hws, hmake, hpreviews, hsteps, houtput⟩
  · refine ⟨_, hconfig, _, hws, ?_⟩
    rcases Session.update_cases _ _ with ⟨_, hupdate⟩ | ⟨hmake', _⟩
    · rw [hupdate]
      exact gives_orStop_bind_iff.2 ⟨none, rfl, gives_pure_iff.2 rfl⟩
    · exact absurd hmake hmake'
  · refine ⟨_, hconfig, _, hws, ?_⟩
    rcases Session.update_cases _ _ with ⟨hmake', _⟩ | ⟨_, ⟨e, hupdate⟩ | ⟨output', hupdate⟩⟩
    · exact absurd hmake' hmake
    · have hfailed := Session.run_update_error hupdate
      exact absurd hsteps (Session.not_succeeds_of_error hfailed)
    · have hrun := Session.run_update_ok hupdate
      have hsteps := ((Session.succeeds_cons_iff hrun).1 hsteps).2
      rw [Session.runAll_cons_snd hrun] at houtput
      obtain ⟨stub, hstub, rfl⟩ :=
        (gives_chooseStub_iff rfl).2 ⟨_, hpreviews, hsteps, houtput⟩
      rw [hupdate]
      exact gives_orStop_bind_iff.2 ⟨_, rfl,
        (reads_chooseStub o _ output'.stub).gives_bind_iff.2 ⟨stub, hstub, gives_pure_iff.2 rfl⟩⟩

end Generate

/-- A directory after the schema and, if there is one, the stub of an output went where the
options say.  Of two results that go to one file the stub is kept. -/
structure Delivered (o : Options) (output : Output) (before after : Directory) : Prop where
  somewhere : Sink.ofPath? o.schemaOut ≠ .nowhere ∧
    (output.stub ≠ none → Sink.ofPath? o.stubOut ≠ .nowhere)
  schemaFile : ∀ key, Sink.ofPath? o.schemaOut = .file key →
    (output.stub ≠ none → Sink.ofPath? o.stubOut ≠ .file key) →
      after.files.get? key = some output.schema
  stubFile : ∀ key stub, output.stub = some stub → Sink.ofPath? o.stubOut = .file key →
    after.files.get? key = some stub
  otherFiles : ∀ key, Sink.ofPath? o.schemaOut ≠ .file key →
    (output.stub ≠ none → Sink.ofPath? o.stubOut ≠ .file key) →
      after.files.get? key = before.files.get? key
  stdout : after.stdout = before.stdout ++ (Sink.ofPath? o.schemaOut).printed output.schema ++
    output.stub.elim "" (Sink.ofPath? o.stubOut).printed
  stderr : after.stderr = before.stderr ++ (Sink.ofPath? o.schemaOut).reported output.schema ++
    output.stub.elim "" (Sink.ofPath? o.stubOut).reported

section Deliver

variable {o : Options} {d : Directory}

theorem delivered_schema (output : Output) (d : Directory)
    (hschema : Sink.ofPath? o.schemaOut ≠ .nowhere) :
    Delivered o { output with stub := none } d
      ((Sink.ofPath? o.schemaOut).put output.schema d) where
  somewhere := ⟨hschema, fun hnone => absurd rfl hnone⟩
  schemaFile := by
    intro key hkey _
    exact (Sink.get?_kept _ d.files _ key).trans (if_pos hkey)
  stubFile := by
    intro key stub hstub
    cases hstub
  otherFiles := by
    intro key hkey _
    exact (Sink.get?_kept _ d.files _ key).trans (if_neg hkey)
  stdout := String.append_empty.symm
  stderr := String.append_empty.symm

/-- The stub goes to its place after the schema went to its own. -/
theorem Delivered.put_stub {output : Output} {stub : String} {between : Directory}
    (h : Delivered o { output with stub := none } d between) (hstub : output.stub = some stub)
    (hsink : Sink.ofPath? o.stubOut ≠ .nowhere) :
    Delivered o output d ((Sink.ofPath? o.stubOut).put stub between) where
  somewhere := ⟨h.somewhere.1, fun _ => hsink⟩
  schemaFile := by
    intro key hkey hother
    have hother := hother (hstub ▸ Option.some_ne_none stub)
    refine (Sink.get?_kept _ between.files _ key).trans ((if_neg hother).trans ?_)
    exact h.schemaFile key hkey fun hnone => absurd rfl hnone
  stubFile := by
    intro key stub' hstub' hkey
    obtain rfl := Option.some.inj (hstub.symm.trans hstub')
    exact (Sink.get?_kept _ between.files _ key).trans (if_pos hkey)
  otherFiles := by
    intro key hkey hother
    have hother := hother (hstub ▸ Option.some_ne_none stub)
    refine (Sink.get?_kept _ between.files _ key).trans ((if_neg hother).trans ?_)
    exact h.otherFiles key hkey fun hnone => absurd rfl hnone
  stdout := by
    have hbetween := h.stdout
    rw [Option.elim_none, String.append_empty] at hbetween
    rw [hstub, Option.elim_some, ← hbetween]
    rfl
  stderr := by
    have hbetween := h.stderr
    rw [Option.elim_none, String.append_empty] at hbetween
    rw [hstub, Option.elim_some, ← hbetween]
    rfl

theorem deliver_path_on (text content : String) (d : Directory) :
    (deliver Directory.host (some text) content).on d =
      match d.write text content with
      | .ok d' => (.ok (), d')
      | .error refusal =>
          (.error ("Failed to write '" ++ text ++ "': " ++ refusal.message), d) := by
  rw [deliver, Task.on_bind]
  have hwrite : Task.on (ExceptT.lift (Directory.host.write text content)) d =
      match d.write text content with
      | .ok d' => (.ok (.ok ()), d')
      | .error refusal => (.ok (.error refusal.message), d) := by
    change (Except.ok (Directory.host.write text content d).1,
      (Directory.host.write text content d).2) = _
    dsimp only [Directory.host]
    cases d.write text content <;> rfl
  rw [hwrite]
  cases d.write text content <;> rfl

/-- A result goes where its option says, or its file cannot be written. -/
theorem deliver_on (path : Option String) (content : String) (d : Directory) :
    (Sink.ofPath? path ≠ .nowhere ∧
      (deliver Directory.host path content).on d =
        (.ok (), (Sink.ofPath? path).put content d)) ∨
    ∃ text refusal message, path = some text ∧ d.write text content = .error refusal ∧
      (deliver Directory.host path content).on d = (.error message, d) := by
  cases path with
  | none =>
      refine .inl ⟨Sink.noConfusion, congrArg (Prod.mk (Except.ok ())) ?_⟩
      exact congrArg (Directory.mk _ _) String.append_empty.symm
  | some text =>
      rw [deliver_path_on]
      cases hwrite : d.write text content with
      | ok d' =>
          obtain ⟨hsink, rfl⟩ := Directory.put_of_write hwrite
          exact .inl ⟨hsink, rfl⟩
      | error refusal => exact .inr ⟨text, refusal, _, rfl, hwrite, rfl⟩

/-- How a run ends: nothing is defined, everything is delivered, nothing could be made, or the
file of the schema or of the stub is refused. -/
inductive Outcome (o : Options) (d : Directory) : Except String Unit × Directory → Prop where
  | nothing (hmade : Generates o d none) : Outcome o d (.ok (), d)
  | delivered {output : Output} {after : Directory} (hmade : Generates o d (some output))
      (hafter : Delivered o output d after) : Outcome o d (.ok (), after)
  | failed (message : String) (hmade : ∀ made, ¬ Generates o d made) :
      Outcome o d (.error message, d)
  | schemaRefused {output : Output} {path : String} {refusal : Refusal} (message : String)
      (hmade : Generates o d (some output)) (hpath : o.schemaOut = some path)
      (hrefused : d.write path output.schema = .error refusal) : Outcome o d (.error message, d)
  | stubRefused {output : Output} {stub path : String} {refusal : Refusal} {between : Directory}
      (message : String) (hmade : Generates o d (some output)) (hstub : output.stub = some stub)
      (hpath : o.stubOut = some path)
      (hbetween : Delivered o { output with stub := none } d between)
      (hrefused : between.write path stub = .error refusal) :
      Outcome o d (.error message, between)

theorem outcome_deliverAll {output : Output} (hmade : Generates o d (some output)) :
    Outcome o d ((deliverAll Directory.host o output).on d) := by
  rw [deliverAll, Task.on_bind]
  rcases deliver_on o.schemaOut output.schema d with
    ⟨hschema, hon⟩ | ⟨path, refusal, message, hpath, hrefused, hon⟩
  · have hbetween := delivered_schema output d hschema
    rw [hon]
    dsimp only
    cases hstub : output.stub with
    | none =>
        refine .delivered hmade ?_
        rwa [← hstub] at hbetween
    | some stub =>
        rcases deliver_on o.stubOut stub ((Sink.ofPath? o.schemaOut).put output.schema d) with
          ⟨hsink, hon⟩ | ⟨path, refusal, message, hpath, hrefused, hon⟩
        · dsimp only
          rw [hon]
          exact .delivered hmade (hbetween.put_stub hstub hsink)
        · dsimp only
          rw [hon]
          exact .stubRefused message hmade hstub hpath hbetween hrefused
  · rw [hon]
    exact .schemaRefused message hmade hpath hrefused

theorem outcome_runOptions (o : Options) (d : Directory) :
    Outcome o d ((runOptions Directory.host o).on d) := by
  have hreads := reads_generate o d
  have hgives (made : Option Output) :
      (generate Directory.host o).Gives d made ↔ Generates o d made :=
    ⟨generates_of_gives, gives_of_generates⟩
  unfold Task.Gives at hgives
  rw [runOptions, Task.on_bind]
  generalize (generate Directory.host o).on d = r at hreads hgives ⊢
  obtain ⟨result, d'⟩ := r
  obtain rfl : d' = d := hreads
  rcases result with message | made
  · exact .failed message fun made hmade => nomatch (hgives made).2 hmade
  · have hmade := (hgives made).1 rfl
    cases made with
    | none => exact .nothing hmade
    | some output => exact outcome_deliverAll hmade

end Deliver

/-- The exit code of a run whose task ended in some way, and the directory after it. -/
def ended : Except String Unit × Directory → Nat × Directory
  | (.ok _, after) => (0, after)
  | (.error message, after) =>
      (1, { after with stderr := after.stderr ++ ("\nError: " ++ message ++ "\n") })

theorem run_of_ofArgs {args : List String} {o : Options} (h : Options.ofArgs args = some o)
    (d : Directory) : run args d = ended ((runOptions Directory.host o).on d) := by
  have hbind {α β : Type} (t : StateM Directory α) (f : α → StateM Directory β) :
      StateT.run (t >>= f) d = StateT.run (f (StateT.run t d).1) (StateT.run t d).2 := rfl
  rw [run, runOn, h, hbind, Task.on]
  generalize StateT.run (ExceptT.run (runOptions Directory.host o)) d = r
  rcases r with ⟨message | _, after⟩ <;> rfl

/-- A run that ends well delivered the output of a session, if there is one, and nothing
else.  A run that fails had nothing to deliver or was refused a file.  It printed nothing and
left all files as they were, unless the file refused was that of the stub: then the schema,
which goes first, was delivered and nothing else. -/
theorem run_delivers {args : List String} {o : Options} (h : Options.ofArgs args = some o)
    (d : Directory) :
    ((run args d).1 = 0 →
      (Generates o d none ∧ (run args d).2 = d) ∨
      ∃ output, Generates o d (some output) ∧ Delivered o output d (run args d).2) ∧
    ((run args d).1 ≠ 0 →
      (((∀ made, ¬ Generates o d made) ∨
          ∃ output path refusal, Generates o d (some output) ∧ o.schemaOut = some path ∧
            d.write path output.schema = .error refusal) ∧
        (run args d).2.files = d.files ∧ (run args d).2.stdout = d.stdout) ∨
      ∃ output stub path refusal between, Generates o d (some output) ∧
        output.stub = some stub ∧ o.stubOut = some path ∧
        Delivered o { output with stub := none } d between ∧
        between.write path stub = .error refusal ∧
        (run args d).2.files = between.files ∧ (run args d).2.stdout = between.stdout) := by
  rw [run_of_ofArgs h]
  have houtcome := outcome_runOptions o d
  generalize (runOptions Directory.host o).on d = r at houtcome ⊢
  cases houtcome with
  | nothing hmade => exact ⟨fun _ => .inl ⟨hmade, rfl⟩, fun hcode => absurd rfl hcode⟩
  | delivered hmade hafter =>
      exact ⟨fun _ => .inr ⟨_, hmade, hafter⟩, fun hcode => absurd rfl hcode⟩
  | failed message hmade =>
      exact ⟨fun hcode => absurd hcode Nat.one_ne_zero, fun _ => .inl ⟨.inl hmade, rfl, rfl⟩⟩
  | schemaRefused message hmade hpath hrefused =>
      exact ⟨fun hcode => absurd hcode Nat.one_ne_zero,
        fun _ => .inl ⟨.inr ⟨_, _, _, hmade, hpath, hrefused⟩, rfl, rfl⟩⟩
  | stubRefused message hmade hstub hpath hbetween hrefused =>
      exact ⟨fun hcode => absurd hcode Nat.one_ne_zero,
        fun _ => .inr ⟨_, _, _, _, _, hmade, hstub, hpath, hbetween, hrefused, rfl, rfl⟩⟩

/-- The files of a run: an editor tree, and a schema to preview. -/
def dialFiles : Directory :=
  .ofFiles
    [("tree.json",
        "\x7b\"blocks\":[\x7b\"type\":\"factory_base\"," ++
          "\"fields\":\x7b\"NAME\":\"dial\"\x7d\x7d]\x7d"),
      ("in/preview.json", "\x7b\"type\":\"knob\"\x7d")]

/-- Both results go to files. -/
def filedArgs : List String :=
  ["tree.json", "--schema-out", "in/schema.json", "--stub-out", "in/stub.js", "--preview",
    "in/preview.json"]

/-- The stub goes to a directory that does not exist. -/
def refusedArgs : List String :=
  ["tree.json", "--stub-out", "no/stub.js"]

theorem run_refusedArgs :
    run refusedArgs dialFiles =
      (1, { dialFiles with
        stdout := "\x7b\n  \"type\": \"dial\",\n  \"message0\": \"\",\n  \"tooltip\": \"\",\n" ++
          "  \"helpUrl\": \"http://www.example.com/\"\n\x7d\n\n"
        stderr := "\nError: Failed to write 'no/stub.js': No such file or directory " ++
          "(os error 2)\n" }) := by
  decide +kernel

theorem run_delivers_dial :
    (∃ o output, Options.ofArgs filedArgs = some o ∧ (run filedArgs dialFiles).1 = 0 ∧
      Generates o dialFiles (some output) ∧
      Delivered o output dialFiles (run filedArgs dialFiles).2) ∧
    ∃ o output between, Options.ofArgs refusedArgs = some o ∧ (run refusedArgs dialFiles).1 = 1 ∧
      Generates o dialFiles (some output) ∧
      Delivered o { output with stub := none } dialFiles between ∧
      (run refusedArgs dialFiles).2.files = between.files ∧
      (run refusedArgs dialFiles).2.stdout = between.stdout := by
  have hfiled : (run filedArgs dialFiles).1 = 0 ∧ (run filedArgs dialFiles).2 ≠ dialFiles := by
    decide +kernel
  have hcode : (run refusedArgs dialFiles).1 = 1 := congrArg Prod.fst run_refusedArgs
  have hprinted : (run refusedArgs dialFiles).2.stdout ≠ dialFiles.stdout := by
    rw [run_refusedArgs]
    decide +kernel
  constructor
  · obtain ⟨o, hargs⟩ : ∃ o, Options.ofArgs filedArgs = some o :=
      Option.isSome_iff_exists.1 (by decide +kernel)
    rcases (run_delivers hargs dialFiles).1 hfiled.1 with ⟨-, hsame⟩ | ⟨output, hmade, hafter⟩
    · exact absurd hsame hfiled.2
    · exact ⟨o, output, hargs, hfiled.1, hmade, hafter⟩
  · obtain ⟨o, hargs⟩ : ∃ o, Options.ofArgs refusedArgs = some o :=
      Option.isSome_iff_exists.1 (by decide +kernel)
    have hfailed : (run refusedArgs dialFiles).1 ≠ 0 := hcode ▸ Nat.one_ne_zero
    rcases (run_delivers hargs dialFiles).2 hfailed with
      ⟨-, -, hsame⟩ | ⟨output, _, _, _, between, hmade, -, -, hbetween, -, hfiles, hstdout⟩
    · exact absurd hsame hprinted
    · exact ⟨o, output, between, hargs, hcode, hmade, hbetween, hfiles, hstdout⟩

/-- A run that fails although it printed the schema. -/
theorem run_fails_after_schema :
    Options.ofArgs refusedArgs ≠ none ∧ (run refusedArgs dialFiles).1 ≠ 0 ∧
      (run refusedArgs dialFiles).2.stdout ≠ dialFiles.stdout := by
  rw [run_refusedArgs]
  decide +kernel

end BlockForge.CommandLine
