import BlockForge.Proofs.Compiling
import BlockForge.Proofs.Preview
import BlockForge.Session

/-!
Updates of a session in which no block is registered.

The detour of an update, which writes the compiled schema as text, reads the text
back, registers what it read and renders what changed, ends where the direct way
does: at the stub of the block that the compiled schema describes.
-/

namespace BlockForge

theorem Instance.blockType_of_ofDescriptor {d : Descriptor} {block : Instance}
    (h : Instance.ofDescriptor d = .ok block) : block.blockType = d.blockType := by
  rw [Instance.ofDescriptor, except_bind_eq_ok_iff] at h
  obtain ⟨slots, _, h⟩ := h
  obtain rfl := Except.ok.inj h
  rfl

/-- The block under the name of a block without a type if it has none. -/
def Instance.named (block : Instance) : Instance :=
  { block with blockType := if block.blockType = "" then unnamed else block.blockType }

namespace Session

variable {s : Session} {ws : Workspace}

/-- A workspace that defines no block: it is empty, or no block on its surface is a
container. -/
def NothingToMake (ws : Workspace) : Prop :=
  ws.size = 0 ∨ ∀ id ∈ ws.top, ∀ node, ws.node? id = some node → node.kind ≠ .container

theorem nothingToMake_iff : NothingToMake ws ↔ ws.size = 0 ∨ ws.root? = none := by
  unfold NothingToMake Workspace.root?
  rw [List.find?_eq_none]
  refine or_congr Iff.rfl (forall_congr' fun id => imp_congr Iff.rfl ?_)
  cases ws.node? id with
  | none => simp
  | some node => simp

theorem outputOf_of_error {e : GenerationError} (h : s.compiler.compile ws = .error e) :
    (s.outputOf ws = (.ok none, s) ∧ NothingToMake ws) ∨
      (s.outputOf ws = (.error e, s) ∧ ¬ NothingToMake ws) := by
  have hnoop := Compiler.isNoop_of_compile h
  rw [← nothingToMake_iff] at hnoop
  rw [outputOf, h]
  dsimp only
  by_cases hmake : NothingToMake ws
  · rw [if_pos (hnoop.2 hmake)]
    exact .inl ⟨rfl, hmake⟩
  · rw [if_neg fun hpos => hmake (hnoop.1 hpos)]
    exact .inr ⟨rfl, hmake⟩

/-- A schema that compiles gets the stub of the block it describes. -/
theorem outputOf_of_ok {d : Descriptor} (hregistry : s.registry = {})
    (h : s.compiler.compile ws = .ok d) (hargs : d.args.length ≤ Word.maxUnsigned) :
    ∃ block, Instance.ofDescriptor d = .ok block ∧
      s.outputOf ws = (.ok (some ⟨d.toText, some (s.writer.write block.named)⟩), s) := by
  obtain ⟨root, hroot⟩ := Compiler.exists_assemble_of_compile h
  obtain ⟨block, hblock⟩ := Compiler.exists_block_of_assemble hroot hargs
  have hrender : Preview.render d.toText .json {} = (Instance.ofDescriptor d).map fun block =>
      .block { block with blockType := d.registeredName } := by
    apply Preview.render_toText
    · intro input hinput
      exact Compiler.check_of_compile h hinput
    · intro hue hhue
      exact Compiler.colour_of_compile h hhue
  rw [hblock] at hrender
  have hname : { block with blockType := d.registeredName } = block.named := by
    rw [Instance.named, Instance.blockType_of_ofDescriptor hblock]
    rfl
  have hstub : s.stubFor d.toText .json = (.ok (some (s.writer.write block.named)), s) := by
    rw [stubFor_eq, hregistry, hrender, ← hname]
    rfl
  refine ⟨block, hblock, ?_⟩
  rw [outputOf, h]
  dsimp only
  rw [schemaStub, hstub]
  rfl

theorem update_fst : (s.update ws).1 = (s.outputOf ws).1 := by
  unfold update
  split
  next output _ h => rw [h]
  next => rfl

/-- An update answers nothing exactly when there is nothing to make, fails exactly
as compiling does, and otherwise makes the text of the compiled schema and the stub
of the block it describes. -/
theorem update_of_empty_registry (s : Session) (ws : Workspace) (hregistry : s.registry = {})
    (hargs : ∀ d, s.compiler.compile ws = .ok d → d.args.length ≤ Word.maxUnsigned) :
    ((s.update ws).1 = .ok none ↔ NothingToMake ws) ∧
      (∀ e, (s.update ws).1 = .error e ↔
        ¬ NothingToMake ws ∧ s.compiler.compile ws = .error e) ∧
      ∀ d, s.compiler.compile ws = .ok d → ∃ block, Instance.ofDescriptor d = .ok block ∧
        (s.update ws).1 = .ok (some ⟨d.toText, some (s.writer.write block.named)⟩) := by
  rw [update_fst]
  cases hcompile : s.compiler.compile ws with
  | error e =>
      rcases outputOf_of_error hcompile with ⟨hout, hmake⟩ | ⟨hout, hmake⟩
      · rw [hout]
        refine ⟨iff_of_true rfl hmake, ?_, fun d hd => nomatch hd⟩
        exact fun e' => iff_of_false (fun h => nomatch h) fun h => h.1 hmake
      · rw [hout]
        refine ⟨iff_of_false (fun h => nomatch h) hmake, ?_, fun d hd => nomatch hd⟩
        intro e'
        rw [Except.error.injEq, Except.error.injEq]
        exact (and_iff_right hmake).symm
  | ok d =>
      obtain ⟨block, hblock, hout⟩ := outputOf_of_ok hregistry hcompile (hargs d hcompile)
      have hmake : ¬ NothingToMake ws := by
        rw [nothingToMake_iff]
        intro hnone
        obtain ⟨e, he⟩ := Compiler.compile_of_noRoot (c := s.compiler) hnone
        rw [hcompile] at he
        cases he
      rw [hout]
      refine ⟨iff_of_false (fun h => nomatch h) hmake, ?_, ?_⟩
      · exact fun e => iff_of_false (fun h => nomatch h) fun h => nomatch h.2
      · intro d' hd'
        obtain rfl := Except.ok.inj hd'
        exact ⟨block, hblock, rfl⟩

theorem update_of_empty_registry_percentRows :
    ({} : Session).registry = {} ∧
      (∀ d, ({} : Session).compiler.compile percentRows = .ok d →
        d.args.length ≤ Word.maxUnsigned) ∧
      ¬ NothingToMake percentRows ∧
      ∃ block, Instance.ofDescriptor percentDescriptor = .ok block ∧
        (({} : Session).update percentRows).1 = .ok (some ⟨percentDescriptor.toText,
          some (({} : Session).writer.write block.named)⟩) := by
  have hcompile : ({} : Session).compiler.compile percentRows = .ok percentDescriptor := by
    decide +kernel
  have hargs : ∀ d, ({} : Session).compiler.compile percentRows = .ok d →
      d.args.length ≤ Word.maxUnsigned := by
    intro d hd
    rw [hcompile] at hd
    obtain rfl := Except.ok.inj hd
    decide
  have hupdate := update_of_empty_registry {} percentRows rfl hargs
  obtain ⟨block, hblock, hmade⟩ := hupdate.2.2 percentDescriptor hcompile
  refine ⟨rfl, hargs, ?_, block, hblock, hmade⟩
  rw [← hupdate.1, hmade]
  exact nofun

end Session

end BlockForge
