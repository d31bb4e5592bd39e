import Mathlib.Data.List.Basic
import Sequencer.Run.Performance

/-! # Room for definitions

The definitions that are not in progress become fewer with each one that is entered, and there are
never more of them than a program has room for.
-/

namespace Sequencer

/-- The definitions of a program, each by what a stack of invocations holds. -/
def Program.keys (program : Program) : List (Kind × String) :=
  program.blocks.map (fun block => (.block, block.name)) ++
    program.customSamples.map fun customSample => (.customSample, customSample.name)

theorem Program.length_keys (program : Program) : program.keys.length = Run.room program := by
  simp [keys, Run.room]

theorem Program.mem_keys_of_block? {program : Program} {name : String} {block : Definition}
    (found : program.block? name = some block) : (.block, block.name) ∈ program.keys :=
  List.mem_append_left _ (List.mem_map_of_mem (List.mem_of_find?_eq_some found))

theorem Program.mem_keys_of_customSample? {program : Program} {name : String}
    {customSample : Definition} (found : program.customSample? name = some customSample) :
    (.customSample, customSample.name) ∈ program.keys :=
  List.mem_append_right _ (List.mem_map_of_mem (List.mem_of_find?_eq_some found))

theorem Program.name_of_block? {program : Program} {name : String} {block : Definition}
    (found : program.block? name = some block) : block.name = name := by
  simpa using List.find?_some found

namespace Run

/-- How many definitions are not in progress. -/
def unentered (program : Program) (stack : List (Kind × String)) : Nat :=
  (program.keys.filter (!stack.contains ·)).length

theorem unentered_le_room (program : Program) (stack : List (Kind × String)) :
    unentered program stack ≤ room program :=
  program.length_keys ▸ List.length_filter_le _ _

theorem unentered_cons_lt {program : Program} {stack : List (Kind × String)}
    {key : Kind × String} (member : key ∈ program.keys) (fresh : key ∉ stack) :
    unentered program (key :: stack) < unentered program stack := by
  have narrowed : program.keys.filter (!(key :: stack).contains ·) =
      (program.keys.filter (!stack.contains ·)).filter (· != key) := by
    rw [List.filter_filter]
    apply List.filter_congr
    intro other _
    by_cases same : other = key <;> simp [same]
  rw [unentered, unentered, narrowed, List.length_filter_lt_length_iff_exists]
  exact ⟨key, List.mem_filter.mpr ⟨member, by simp [fresh]⟩, by simp⟩

end Run

end Sequencer
