import Sequencer.Proofs.Number.Bits
import Sequencer.Proofs.Run.Kept
import Sequencer.Proofs.Run.Room

/-! # Turns that enter nothing

A turn of a loop that enters no definition was refused each of its blocks. The refusals are noted by
then, so that another turn, whenever it starts, takes no time and changes nothing: `together_again`.
-/

namespace Sequencer

/-- What is asked of arithmetic that passes durations of zero on. A sum that zero was added to stays
the same when zero is added again; that adding zero changes nothing would be too much, since there
is a negative zero. -/
class Arithmetic.LawfulZero (α : Type) [Arithmetic α] : Prop where
  larger_zero : larger (0 : α) 0 = 0
  add_zero_add_zero : ∀ value : α, value + 0 + 0 = value + 0

instance Arithmetic.lawfulZeroFloat : LawfulZero Float where
  larger_zero := by
    change (if (0 : Float) < 0 then (0 : Float) else if (0 : Float) ≤ 0 then 0 else 0) = 0
    split
    · rfl
    · split <;> rfl
  add_zero_add_zero := Number.add_zero_add_zero

namespace Run

/-! ## Refusals -/

variable {α β : Type}

theorem refusal?_congr {settings : Settings} {left right : Run α β} (stack : left.stack = right.stack)
    (invocations : left.invocations = right.invocations) (kind : Kind) (name : String) :
    left.refusal? settings kind name = right.refusal? settings kind name := by
  rw [refusal?, refusal?, stack, invocations]

theorem refusal?_eq_none_iff {settings : Settings} {run : Run α β} {kind : Kind} {name : String} :
    run.refusal? settings kind name = none ↔
      run.invocations < settings.maxInvocations ∧ (kind, name) ∉ run.stack ∧
        run.stack.length < settings.maxDepth := by
  rw [refusal?]
  split
  · simp_all
  · split
    · simp_all
    · split <;> simp_all

theorem sharesWarning_self (refused : Refused) : refused.sharesWarning refused = true := by
  obtain ⟨kind, name, refusal⟩ := refused
  cases refusal <;> simp [Refused.sharesWarning]

/-- A refusal that is noted already is passed over in silence. -/
theorem refuse_of_mem {settings : Settings} {run : Run α β} {refused : Refused}
    (noted : refused ∈ run.refusals) : run.refuse settings refused = run := by
  have covered : run.refusals.any refused.sharesWarning = true :=
    List.any_eq_true.mpr ⟨refused, noted, sharesWarning_self refused⟩
  have known : run.refusals.contains refused = true := List.contains_iff_mem.mpr noted
  rw [refuse, noteRefusal, if_pos known, if_pos covered]

theorem refuse_fields (settings : Settings) (run : Run α β) (refused : Refused) :
    (run.refuse settings refused).state = run.state ∧
      (run.refuse settings refused).device = run.device ∧
      (run.refuse settings refused).stack = run.stack ∧
      (run.refuse settings refused).invocations = run.invocations := by
  rw [refuse, noteRefusal]
  split <;> split <;> exact ⟨rfl, rfl, rfl, rfl⟩

theorem refusals_refuse (settings : Settings) (run : Run α β) (refused : Refused) :
    (run.refuse settings refused).refusals = (run.noteRefusal refused).refusals := by
  rw [refuse]
  split <;> rfl

theorem mem_refuse (settings : Settings) (run : Run α β) (refused : Refused) :
    refused ∈ (run.refuse settings refused).refusals := by
  rw [refusals_refuse, noteRefusal]
  split
  · next known => exact List.contains_iff_mem.mp known
  · exact List.mem_cons_self

theorem mem_refuse_of_mem {settings : Settings} {run : Run α β} {earlier : Refused}
    (member : earlier ∈ run.refusals) (refused : Refused) :
    earlier ∈ (run.refuse settings refused).refusals := by
  rw [refusals_refuse, noteRefusal]
  split
  · exact member
  · exact List.mem_cons_of_mem _ member

/-- A block whose refusal is noted, and would be given again. -/
def Noted (settings : Settings) (run : Run α β) (name : String) : Prop :=
  ∃ refusal, run.refusal? settings .block name = some refusal ∧
    { kind := .block, name, refusal } ∈ run.refusals

theorem Noted.refuse {settings : Settings} {run : Run α β} {name : String}
    (noted : run.Noted settings name) (refused : Refused) :
    (run.refuse settings refused).Noted settings name := by
  obtain ⟨refusal, given, member⟩ := noted
  obtain ⟨-, -, stack, invocations⟩ := refuse_fields settings run refused
  exact ⟨refusal, refusal?_congr stack invocations .block name ▸ given,
    mem_refuse_of_mem member refused⟩

/-! ## Entering counts -/

variable [Arithmetic α] [Device α β]

theorem invoke_refused {program : Program} {settings : Settings} {kind : Kind}
    {definition : Definition} {run : Run α β} {refusal : Refusal}
    (refused : run.refusal? settings kind definition.name = some refusal) (room : Nat) (offset : α)
    (mix : Mix α) :
    invoke program settings room kind definition offset mix run =
      (0, run.refuse settings { kind, name := definition.name, refusal }) := by
  cases room with
  | zero => rw [invoke, refused]
  | succ room => rw [invoke, refused]

theorem invocations_lt_of_entered {program : Program} {settings : Settings} {kind : Kind}
    {definition : Definition} {run : Run α β}
    (enters : run.refusal? settings kind definition.name = none) (room : Nat) (offset : α)
    (mix : Mix α) :
    run.invocations <
      (invoke program settings (room + 1) kind definition offset mix run).2.invocations := by
  have within : (run.enter kind definition.name).invocations ≤
      (performBody program settings (invoke program settings room) kind definition offset mix
        (run.enter kind definition.name)).2.invocations :=
    (kept_invocations settings).performBody ((kept_invocations settings).invoke program room) kind
      definition offset mix _
  rw [invoke, enters]
  exact within

/-- Entering stops at the limit. -/
theorem kept_limit (settings : Settings) :
    Kept settings fun (before after : Run α β) => after.invocations - before.invocations ≤
      settings.maxInvocations - before.invocations where
  refl := fun _ => by omega
  trans := fun first second => by omega
  record := fun run entry _ => by change run.invocations - run.invocations ≤ _; omega
  dispatch := fun run _ _ => by change run.invocations - run.invocations ≤ _; omega
  setTempo := fun run _ _ _ => by change run.invocations - run.invocations ≤ _; omega
  setVariable := fun run _ _ => by change run.invocations - run.invocations ≤ _; omega
  recordEffect := fun run _ _ => by change run.invocations - run.invocations ≤ _; omega
  refuse := fun run refused => by
    rw [(refuse_fields settings run refused).2.2.2]
    omega
  enclose := fun run kind name after enters within => by
    have fewer := (refusal?_eq_none_iff.mp enters).1
    change after.invocations - (run.invocations + 1) ≤ settings.maxInvocations - (run.invocations + 1)
      at within
    change after.invocations - run.invocations ≤ _
    omega

/-! ## Idle turns -/

section Turn

variable {program : Program} {settings : Settings} {room : Nat}

/-- A block that was not entered was refused. -/
theorem playBlock_idle {name : String} (declared : (program.block? name).isSome = true)
    {run : Run α β} (fits : unentered program run.stack ≤ room) {offset : α} {mix : Mix α}
    (idle : (playBlock program (invoke program settings room) offset mix name run).2.invocations =
      run.invocations) :
    ∃ refusal, run.refusal? settings .block name = some refusal ∧
      playBlock program (invoke program settings room) offset mix name run =
        (0, run.refuse settings { kind := .block, name, refusal }) := by
  obtain ⟨block, found⟩ := Option.isSome_iff_exists.mp declared
  obtain rfl := Program.name_of_block? found
  rw [playBlock, found] at idle ⊢
  cases given : run.refusal? settings .block block.name with
  | some refusal => exact ⟨refusal, rfl, invoke_refused given room offset mix⟩
  | none =>
    -- with no room left the block would be in progress, and then it would be refused
    cases room with
    | zero =>
      have member := Program.mem_keys_of_block? found
      have inProgress : (Kind.block, block.name) ∈ run.stack := by
        by_contra fresh
        exact Nat.not_lt_zero _ (Nat.lt_of_lt_of_le (unentered_cons_lt member fresh) fits)
      exact absurd inProgress (refusal?_eq_none_iff.mp given).2.1
    | succ room => exact absurd idle (Nat.ne_of_gt (invocations_lt_of_entered given room offset mix))

theorem invocations_le_playBlock (offset : α) (mix : Mix α) (name : String) (run : Run α β) :
    run.invocations ≤
      (playBlock program (invoke program settings room) offset mix name run).2.invocations :=
  (kept_invocations settings).playBlock ((kept_invocations settings).invoke program room) offset mix
    name run

theorem invocations_le_together (offset : α) (mix : Mix α) (names : List String) (longest : α)
    (run : Run α β) :
    run.invocations ≤
      (together (playBlock program (invoke program settings room) offset mix) names longest
        run).2.invocations :=
  (kept_invocations settings).together (invocations_le_playBlock offset mix) names longest run

/-- A turn that enters nothing takes no time, and leaves a note for each of its blocks. -/
theorem together_idle [Arithmetic.LawfulZero α] {names : List String}
    (declared : ∀ name ∈ names, (program.block? name).isSome = true) {offset : α} {mix : Mix α}
    {run : Run α β} (fits : unentered program run.stack ≤ room)
    (idle : (playTogether program (invoke program settings room) names offset mix run).2.invocations =
      run.invocations) :
    ∃ after : Run α β,
      playTogether program (invoke program settings room) names offset mix run = (0, after) ∧
        after.state = run.state ∧ (∀ name, run.Noted settings name → after.Noted settings name) ∧
        ∀ name ∈ names, after.Noted settings name := by
  rw [playTogether] at idle ⊢
  induction names generalizing run with
  | nil => exact ⟨run, rfl, rfl, fun _ noted => noted, by simp⟩
  | cons name rest inductionHypothesis =>
    rw [together] at idle ⊢
    -- neither the first block nor the rest can have raised the count
    have idleFirst : (playBlock program (invoke program settings room) offset mix name
        run).2.invocations = run.invocations := by
      have first := @invocations_le_playBlock _ _ _ _ program settings room offset mix name run
      exact Nat.le_antisymm (Nat.le_trans (invocations_le_together _ _ _ _ _) idle.le) first
    obtain ⟨refusal, given, played⟩ :=
      playBlock_idle (declared name List.mem_cons_self) fits idleFirst
    let refused : Refused := { kind := .block, name, refusal }
    obtain ⟨state, -, stack, invocations⟩ := refuse_fields settings run refused
    rw [played] at idle ⊢
    dsimp only at idle ⊢
    rw [Arithmetic.LawfulZero.larger_zero] at idle ⊢
    have noted : (run.refuse settings refused).Noted settings name :=
      ⟨refusal, refusal?_congr stack invocations .block name ▸ given, mem_refuse settings run refused⟩
    -- a refusal changes nothing that the refusals of the other blocks depend on
    obtain ⟨after, result, sameState, grows, notedRest⟩ := inductionHypothesis
      (fun other member => declared other (List.mem_cons_of_mem _ member))
      (stack ▸ fits) (idle.trans invocations.symm)
    refine ⟨after, result, sameState.trans state, fun other known => grows other (known.refuse _), ?_⟩
    intro other member
    rcases List.mem_cons.mp member with rfl | member
    · exact grows _ noted
    · exact notedRest other member

/-- With all refusals noted another turn changes nothing. -/
theorem together_noted [Arithmetic.LawfulZero α] {names : List String}
    (declared : ∀ name ∈ names, (program.block? name).isSome = true) {run : Run α β}
    (noted : ∀ name ∈ names, run.Noted settings name) (offset : α) (mix : Mix α) :
    playTogether program (invoke program settings room) names offset mix run = (0, run) := by
  rw [playTogether]
  induction names with
  | nil => rfl
  | cons name rest inductionHypothesis =>
    obtain ⟨refusal, given, member⟩ := noted name List.mem_cons_self
    obtain ⟨block, found⟩ := Option.isSome_iff_exists.mp (declared name List.mem_cons_self)
    obtain rfl := Program.name_of_block? found
    have played : playBlock program (invoke program settings room) offset mix block.name run =
        (0, run) := by
      rw [playBlock, found]
      dsimp only
      rw [invoke_refused given, refuse_of_mem member]
    rw [together, played]
    dsimp only
    rw [Arithmetic.LawfulZero.larger_zero]
    exact inductionHypothesis (fun other member => declared other (List.mem_cons_of_mem _ member))
      fun other member => noted other (List.mem_cons_of_mem _ member)

end Turn

end Run

end Sequencer
