import BlockForge.Proofs.TreeDefinition

/-!
Compiling is about one block: the first container on the surface, without what follows
it.
-/

namespace BlockForge

theorem Block.ordered_alone {block : Block} (h : block.Ordered) : block.alone.Ordered := by
  cases block
  exact ⟨h.1, h.2.1, trivial⟩

/-- The tree with only one block on the surface and nothing after it. -/
def EditorTree.only (block : Block) (h : block.Ordered) : EditorTree where
  blocks := [block.alone]
  ordered := by
    intro b hb
    rw [List.mem_singleton.1 hb]
    exact Block.ordered_alone h

/-- The blocks of a chain's head alone have the data and the slots of blocks of the
chain. -/
theorem EditorTree.exists_data_of_only {tree : EditorTree} {root other : Block}
    (hroot : root ∈ tree.blocks)
    (hother : other ∈ (EditorTree.only root (tree.ordered root hroot)).all) :
    ∃ block ∈ tree.all, other.data = block.data ∧
      other.slots.map Prod.fst ⊆ block.slots.map Prod.fst := by
  have hall : ∀ block ∈ root.all, block ∈ tree.all := fun block hblock =>
    List.mem_flatMap.2 ⟨root, hroot, hblock⟩
  have hmem : other ∈ [root.alone].flatMap Block.all := hother
  rw [List.flatMap_singleton] at hmem
  rcases Block.mem_all_iff.1 hmem with rfl | ⟨e, he, hbelow⟩ | ⟨_, hnone, _⟩
  · exact ⟨root, hall root (Block.mem_all_iff.2 (.inl rfl)), rfl, List.Subset.refl _⟩
  · exact ⟨other, hall other (Block.mem_all_iff.2 (.inr (.inl ⟨e, he, hbelow⟩))), rfl,
      List.Subset.refl _⟩
  · cases hnone

namespace Converter

theorem define_alone (comp : Compiler) (c : Converter) (root : Block) :
    comp.define c root.alone = comp.define c root := by
  cases root
  rfl

/-- The first container on the surface decides alone: other blocks before or after it,
further containers and the blocks that follow it change nothing. -/
theorem compile_only_container (comp : Compiler) (c : Converter) {tree : EditorTree}
    {before after : List Block} {root : Block} {ws : Workspace}
    (hblocks : tree.blocks = before ++ root :: after)
    (hbefore : ∀ block ∈ before, c.isContainer block = false)
    (hroot : c.isContainer root = true) (hconvert : c.convert tree = .ok ws) :
    ∃ only ws', only.blocks = [root.alone] ∧ c.convert only = .ok ws' ∧
      comp.compile ws' = comp.compile ws := by
  have hmem : root ∈ tree.blocks := by
    rw [hblocks]
    exact List.mem_append_right _ List.mem_cons_self
  have hdata : ∀ other ∈ (EditorTree.only root (tree.ordered root hmem)).all,
      ∃ block ∈ tree.all, other.data = block.data ∧
        other.slots.map Prod.fst ⊆ block.slots.map Prod.fst := fun other hother =>
    EditorTree.exists_data_of_only hmem hother
  obtain ⟨ws', hws'⟩ := convertIn_of_data hconvert hdata
  refine ⟨_, ws', rfl, hws', ?_⟩
  have hfirst : tree.blocks.find? c.isContainer = some root := by
    rw [hblocks, List.find?_append, List.find?_eq_none.2 (by simpa using hbefore),
      List.find?_cons, hroot]
    rfl
  have halone : (EditorTree.only root (tree.ordered root hmem)).blocks.find? c.isContainer =
      some root.alone := by
    have hsame : c.isContainer root.alone = c.isContainer root := by
      cases root
      rfl
    rw [EditorTree.only, List.find?_cons, hsame, hroot]
  rw [compile_of_find? comp hconvert hfirst, compile_of_find? comp hws' halone]
  exact define_alone comp c root

theorem compile_only_container_crowded :
    ∃ before root after ws, EditorTree.crowded.blocks = before ++ root :: after ∧
      (∀ block ∈ before, ({} : Converter).isContainer block = false) ∧
      ({} : Converter).isContainer root = true ∧
      before.length = 1 ∧ after.length = 1 ∧ root.next.isSome ∧
      ({} : Converter).convert .crowded = .ok ws ∧
      (({} : Compiler).compile ws).map Descriptor.message = .ok "on again %1" ∧
      ∃ only ws', only.blocks = [root.alone] ∧ ({} : Converter).convert only = .ok ws' ∧
        ({} : Compiler).compile ws' = ({} : Compiler).compile ws := by
  have hsplit : EditorTree.crowded.blocks = EditorTree.crowded.blocks.take 1 ++
      EditorTree.crowded.blocks.get ⟨1, by decide +kernel⟩ :: EditorTree.crowded.blocks.drop 2 :=
    rfl
  have hbefore : ∀ block ∈ EditorTree.crowded.blocks.take 1,
      ({} : Converter).isContainer block = false := by decide +kernel
  have hroot : ({} : Converter).isContainer
      (EditorTree.crowded.blocks.get ⟨1, by decide +kernel⟩) = true := by decide +kernel
  exact ⟨_, _, _, _, hsplit, hbefore, hroot, rfl, rfl, rfl, convert_crowded, by decide +kernel,
    compile_only_container {} {} hsplit hbefore hroot convert_crowded⟩

end Converter

end BlockForge
