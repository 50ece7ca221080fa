import Chip8.Proofs.Console.Invariant

/-!
# Matched calls and returns

Between a call and the return that belongs to it the program may call and return, fault, wait
for keys and change itself. As long as the call stack does not become shorter than right after
the call and no program is started, the slots up to that of the call stay as they are
(`Console.sameBelow_after`), so that the return brings back what the call has found
(`Console.return_restores`).
-/

namespace Chip8

/-! ### The words of calls and returns -/

namespace Instruction

lemma exists_call_of_encode {i : Instruction} (h : i.encode.toNat / 4096 = 2) :
    ∃ a, i = .call a := by
  have hcall : (call ⟨i.encode.toNat % 4096, by omega⟩).encode.toNat =
      4096 * 2 + i.encode.toNat % 4096 := Word.toNat_ofAddress 0x2 _
  exact ⟨_, encode_injective (Word.toNat_inj.mp (by rw [hcall]; omega))⟩

lemma eq_ret_of_encode {i : Instruction} (h : i.encode.toNat = 0x00EE) : i = .ret :=
  encode_injective (Word.toNat_inj.mp h)

end Instruction

namespace Machine

variable {d : Dialect} {m : Machine} {i : Instruction} {n : Int}

/-- A step keeps the slots below `n`, if there are at least `n` addresses on the stack before and
after it. -/
lemma sameBelow_effect (hs : m.stack.Regular) (hr : m.Runs i) (hn : n ≤ m.stack.depth)
    (hn' : n ≤ (i.effect d m.advance).stack.depth) :
    m.stack.SameBelow n (i.effect d m.advance).stack := by
  have h₀ := hs.depth_nonneg
  have h₁ := hs.depth_le
  rw [Instruction.stack_effect] at hn' ⊢
  cases i with
  | ret =>
    have hd : m.stack.depth ≠ 0 := fault?_ret_eq_none_iff.mp hr.passes
    have hpop : n ≤ m.stack.pop.depth := hn'
    rw [CallStack.depth_pop (by omega) h₁] at hpop
    exact .pop (by omega) h₁ (by omega)
  | call a => exact .push h₀ hn _
  | _ => exact .refl n _

end Machine

namespace Console

variable {c c' : Console} {e : Event} {es : List Event} {answer : Except Host.Error Answer}
  {n : Int} {w : UInt16}

/-! ### Frames -/

/-- The event starts no program, and it leaves at least `n` addresses on the call stack. -/
structure StaysAbove (n : Int) (c : Console) (e : Event) : Prop where
  start_fails : e.isStart → ∃ err, (c.handle e).answer = .error err
  le_depth : n ≤ (c.handle e).console.machine.stack.depth

/-- One event keeps the slots below, whatever instruction it runs. -/
lemma Transition.sameBelow (hc : c.machine.stack.Regular) (ht : c.Transition e answer c')
    (hstart : e.isStart → ∃ err, answer = .error err) (hn : n ≤ c.machine.stack.depth)
    (hn' : n ≤ c'.machine.stack.depth) :
    c.machine.stack.SameBelow n c'.machine.stack := by
  cases ht with
  | fail | tick | setKey | readByte | writeByte => exact .refl n _
  | start hs =>
    obtain ⟨err, herr⟩ := hstart hs.isStart
    cases herr
  | poll =>
    rw [Machine.stack_poll]
    exact .refl n _
  | step _ _ hs =>
    obtain ⟨hr, hs⟩ := Machine.step_eq_ok_iff.mp hs
    rw [hs] at hn' ⊢
    exact Machine.sameBelow_effect hc hr hn hn'

lemma sameBelow_after (hc : c.Regular) (hn : n ≤ c.machine.stack.depth)
    (hes : c.Along (StaysAbove n) es) :
    c.machine.stack.SameBelow n (c.after es).machine.stack := by
  induction es generalizing c with
  | nil => exact .refl n _
  | cons e es ih =>
    have ht := transition_handle c e
    obtain ⟨he, hes⟩ := along_cons.mp hes
    have hfirst := ht.sameBelow hc.machine.stack he.start_fails hn he.le_depth
    exact hfirst.trans (ih (hc.of_transition ht) he.le_depth hes)

/-! ### Calls and returns -/

/-- When a call, any events that keep its address on the stack, and a return at the depth of the
call follow one another, the program goes on behind the call, and the call stack is what it was
before the call, slot by slot. -/
theorem return_restores (hc : c.Reachable) (hcall : c.step.answer = .ok (.word w))
    (hw : w.toNat / 4096 = 2)
    (hes : c.step.console.Along (StaysAbove (c.machine.stack.depth + 1)) es)
    (hdepth : (c.step.console.after es).machine.stack.depth = c.machine.stack.depth + 1)
    (hret : (c.step.console.after es).step.answer = .ok (.word 0x00EE)) :
    let returned := (c.step.console.after es).step.console
    returned.machine.pc.toNat = c.machine.pc.toNat + 2 ∧
      returned.machine.stack.depth = c.machine.stack.depth ∧
      returned.machine.stack.slots = c.machine.stack.slots ∧
      returned.stack = c.stack := by
  obtain ⟨i, ha, hr, hi, hcalled⟩ := exists_runs_of_step hcall
  obtain ⟨a, rfl⟩ := Instruction.exists_call_of_encode (hi ▸ hw)
  obtain ⟨j, -, hrj, hj, hreturned⟩ := exists_runs_of_step hret
  obtain rfl := Instruction.eq_ret_of_encode hj.symm
  have hr₀ := hc.regular.machine
  have hpush : c.step.console.machine.stack = c.machine.stack.push (c.machine.pc + 2) := by
    rw [hcalled]
    rfl
  have hregular : c.step.console.Regular := hc.regular.of_transition transition_step
  have hdepth' : c.step.console.machine.stack.depth = c.machine.stack.depth + 1 := by
    rw [hpush, CallStack.depth_push hr₀.stack.depth_nonneg
      ((Machine.fault?_call_eq_none_iff (a := a)).mp hr.passes)]
  have hsame := sameBelow_after hregular (Int.le_of_eq hdepth'.symm) hes
  rw [hpush] at hsame
  obtain ⟨htop, hpop⟩ := hsame.top_and_pop_eq hr₀.stack (hregular.after es).machine.stack hdepth
  intro returned
  have hpc : returned.machine.pc = c.machine.pc + 2 := by
    simp only [returned, hreturned]
    exact htop
  have hstack : returned.machine.stack = c.machine.stack := by
    simp only [returned, hreturned]
    exact hpop
  have hle := hr.pc_le
  refine ⟨?_, ?_, ?_, ?_⟩
  · rw [hpc]
    exact Machine.toNat_pc_advance hle
  · rw [hstack]
  · rw [hstack]
  · rw [stack, hstack, stack]

/-- A call with another call inside, during which the host fails to start something else. -/
theorem return_restores_of_nested :
    let c := (new .modern 0 {}).after
      [.start [0x22, 0x04, 0x00, 0xE0, 0x22, 0x08, 0x00, 0xEE, 0x00, 0xEE]]
    let returned := (c.step.console.after [.step, .startValue (.integer 3), .step]).step.console
    returned.machine.pc.toNat = c.machine.pc.toNat + 2 ∧
      returned.machine.stack.depth = c.machine.stack.depth ∧
      returned.machine.stack.slots = c.machine.stack.slots ∧
      returned.stack = c.stack := by
  intro c
  have hc : c.Reachable := ⟨_, _, _, _, rfl⟩
  let depth (es : List Event) : Int := (c.step.console.after es).machine.stack.depth
  obtain ⟨hcall, h₁, h₂, hdepth, hret⟩ : c.step.answer = .ok (.word 0x2204) ∧
      c.machine.stack.depth + 1 ≤ depth [.step] ∧
      c.machine.stack.depth + 1 ≤ depth [.step, .startValue (.integer 3)] ∧
      depth [.step, .startValue (.integer 3), .step] = c.machine.stack.depth + 1 ∧
      (c.step.console.after [.step, .startValue (.integer 3), .step]).step.answer =
        .ok (.word 0x00EE) := by
    decide +kernel
  have hes : c.step.console.Along (StaysAbove (c.machine.stack.depth + 1))
      [.step, .startValue (.integer 3), .step] :=
    ⟨⟨nofun, h₁⟩, ⟨fun _ => ⟨_, rfl⟩, h₂⟩, ⟨nofun, Int.le_of_eq hdepth.symm⟩, trivial⟩
  exact return_restores hc hcall rfl hes hdepth hret

end Console

end Chip8
